import BrokerClient.Error.ClientError
import BrokerClient.Request.Assembly

/-!
# What is to be created

The request to create a resource, as the caller makes it. Arguments that are left out, or
values that do not count as given, are refused where the resource cannot do without them;
the first one that lacks is reported. The cartridge and the gear profile of an application
are things with a name, and what is passed in place of one may have none.
-/
namespace BrokerClient.Hierarchy

/-- The name that stands for a value in a request, null for a null. Things and words have
names. -/
def nameOf : Value → Except Fault Value
  | .null => .ok .null
  | .thing _ name => .ok (.str name)
  | .word w => .ok (.str w.name)
  | v => .error (.noAttribute v.kindName "name")

/-- The arguments with which a resource is created. -/
inductive Creation where
  | domain (id : Value)
  | application (name cartridge scale gearProfile : Value)
  | cartridge (name : Value)
  | key (name type publicKey : Value)

/-- An argument that is refused: what does not count as given. -/
def isLacking (v : Value) : Bool := !v.isGiven

namespace Creation

/-- The name under which the owner is to know the resource. -/
def name : Creation → Value
  | domain id => id
  | application name _ _ _ => name
  | cartridge name => name
  | key name _ _ => name

/-- The first argument that lacks. For an application its type is looked at before its
name; the name of the type may be empty. -/
def lacks? : Creation → Option Argument
  | domain id => if isLacking id then some .domainId else none
  | application _ .null _ _ => some .applicationType
  | application name _ _ _ => if isLacking name then some .applicationName else none
  | cartridge name => if isLacking name then some .cartridgeName else none
  | key name _ publicKey =>
    if isLacking name then some .keyName
    else if isLacking publicKey then some .publicKey
    else none

/-- The parameters of the request. -/
def parameters : Creation → Except Fault Parameters
  | domain id => .ok [("id", id)]
  | application name framework scale gearProfile => do
    let framework ← nameOf framework
    let profile ← nameOf gearProfile
    pure (Parameters.assemble [("name", name), ("cartridge", framework)]
      [("scale", scale), ("gear_profile", profile)])
  | cartridge name => .ok [("name", name)]
  | key name type publicKey => .ok [("name", name), ("type", type), ("content", publicKey)]

end Creation

end BrokerClient.Hierarchy
