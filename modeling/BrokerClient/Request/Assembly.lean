import BrokerClient.Request.Store

/-!
# Assembling request parameters

The parameters of a request are the mandatory ones followed by the optional ones that
are given. An optional parameter of the same name as a mandatory one replaces its value
in place; a null is not given. A caller keeps its mandatory parameters: what is put together is a
copy of them, to which the optional ones are written.
-/
namespace BrokerClient

/-- The mandatory parameters followed by those optional ones that are not null. -/
def Parameters.assemble (mandatory : Parameters) (optional : List (String × Value)) : Parameters :=
  Mapping.putAll mandatory (optional.filter fun (_, v) => !v.isNull)

/-- Puts parameters together from a mapping of mandatory ones and from optional ones. -/
def Store.assemble (s : Store) (mandatory : Address) (optional : Mapping Address) :
    Address × Store :=
  let (result, s) := s.copy mandatory
  (result, optional.foldl (fun s (name, a) =>
    if (s.value a).isNull then s else s.assign result name a) s)

end BrokerClient
