import BrokerClient.Error.ClientError

/-!
# Checking parameters against a link

Before a request is sent, its parameters are held against the declarations of the link:
first the required ones, each for being there, for not being empty and for its options,
then the optional ones that are given. The first offence is reported. A value that has to be
held against options and cannot be written ends the check with a fault, which is no offence.
-/
namespace BrokerClient.Request

/-- A value that does not satisfy a required parameter: null, or an empty text where the
parameter is of the kind `string`. -/
def isEmptyFor (parameter : LinkParameter) : Value → Bool
  | .null => true
  | .str s => parameter.kind == "string" && s == ""
  | _ => false

/-- The text that would be sent is one of the options, if there are any. -/
def respectsOptions (parameter : LinkParameter) (v : Value) : Bool :=
  parameter.options.isEmpty || v.wire?.any parameter.options.contains

/-- Checks a value against the options of a parameter. Without options its text is not asked
for. -/
def checkOptions (link : Link) (parameter : LinkParameter) (v : Value) : Except Raised Unit :=
  if parameter.options.isEmpty then .ok ()
  else
    match v.wire? with
    | none => .error (.fault .unwritable)
    | some text =>
      if parameter.options.contains text then .ok ()
      else .error (.client (.invalidOption link.href parameter.name text parameter.options))

/-- Checks a required parameter. -/
def checkRequired (link : Link) (supplied : Parameters) (parameter : LinkParameter) :
    Except Raised Unit :=
  match supplied.find? parameter.name with
  | none => .error (.client (.missingParameter link.href parameter.name))
  | some v =>
    if isEmptyFor parameter v then .error (.client (.emptyParameter link.href parameter.name))
    else checkOptions link parameter v

/-- Checks an optional parameter. -/
def checkOptional (link : Link) (supplied : Parameters) (parameter : LinkParameter) :
    Except Raised Unit :=
  match supplied.find? parameter.name with
  | none => .ok ()
  | some v => if v.isNull then .ok () else checkOptions link parameter v

/-- Checks the parameters of a request against the declarations of its link. -/
def check (link : Link) (supplied : Parameters) : Except Raised Unit := do
  link.requiredParams.forM (checkRequired link supplied)
  link.optionalParams.forM (checkOptional link supplied)

end BrokerClient.Request
