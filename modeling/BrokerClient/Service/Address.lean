import BrokerClient.Error.ClientError
import BrokerClient.Text.Blank

/-!
# Resolving addresses

A link's address is turned into a full URL. An address with a scheme is used as it is;
one under the service path is put behind the base URL; any other is relative to the
service path, with one slash at its start left out. The slashes at the end of the base
URL do not count.
-/
namespace BrokerClient.Service

/-- The path of the service below the base URL. -/
def servicePath : String := "/broker/rest/"

/-- The address of the API root, relative to the service path. -/
def rootPath : String := "api"

/-- A text without the slashes at its end. -/
def trimSlashes (base : String) : String :=
  String.ofList (Text.dropEnd (· == '/') base.toList)

/-- A character that may follow the first letter of a scheme. -/
def isSchemeChar (c : Char) : Bool :=
  c.isAlphanum || c == '+' || c == '.' || c == '-'

/-- The address starts with a scheme followed by `://`. -/
def hasScheme (address : String) : Bool :=
  match address.toList with
  | [] => false
  | c :: rest => c.isAlpha && [':', '/', '/'].isPrefixOf (rest.dropWhile isSchemeChar)

/-- A text without the slash at its start, if there is one. -/
def dropSlash (address : String) : String :=
  match address.toList with
  | '/' :: rest => String.ofList rest
  | _ => address

/-- The full URL of an address under a trimmed base URL. -/
def resolve (base address : String) : Except ClientError String :=
  if address = "" then .error (.invalidRequest .emptyUrl)
  else if hasScheme address then .ok address
  else if servicePath.toList.isPrefixOf address.toList then .ok (base ++ address)
  else .ok (base ++ servicePath ++ dropSlash address)

end BrokerClient.Service
