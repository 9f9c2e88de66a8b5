import BrokerClient.Configuration.CommandLine
import BrokerClient.Error.Fault
import BrokerClient.Yaml.Reader

/-!
# Problems of reading settings

Why no configuration can be made of what is given: the file is not read, its contents or an
argument is of no use where it stands, the command line is not read, or the settings are
refused. `Problem.message` words each of them.
-/
namespace BrokerClient.Configuration

/-- Why a configuration cannot be loaded. -/
inductive Problem where
  /-- The file is not read. -/
  | unreadable (failure : Yaml.Failure)
  /-- The file at a path holds something else than settings. -/
  | notSettings (path : String)
  /-- The name of a setting in the file holds halves of surrogate pairs: the first of them,
  and where they start and end. -/
  | unencodable (point first last : Nat)
  /-- The name of a setting in the file is an integer of too many digits. -/
  | oversizedName
  /-- The name of a setting in the file is no text. -/
  | unnamed
  /-- An operation has a parameter of that name itself. -/
  | taken (operation name : String)
  /-- A value of some kind does not do where it stands. -/
  | unfit (fault : Fault)
  /-- A value of that kind stands for the sources and the arguments. -/
  | notPair (kindName : String)
  /-- Only so many values stand for the sources and the arguments. -/
  | tooFew (count : Nat)
  /-- More than two values stand for the sources and the arguments. -/
  | tooMany
  /-- A value of that kind stands for a source. -/
  | notSource (kindName : String)
  /-- A value of that kind stands for the number of parts of a name. -/
  | notCount (kindName : String)
  /-- A value of that kind stands for the start of the names of variables. -/
  | notStart (kindName : String)
  /-- A list, an object or bytes stand for the start of the names of variables. -/
  | unusableStart (field : String)
  /-- A value of that kind stands for one of several paths. -/
  | notPath (kindName : String)
  /-- Bytes stand for one of several paths. -/
  | bytesAsPath
  /-- The command line is not read. -/
  | commandLine (failure : CommandLine.Failure)
  /-- Settings are refused. -/
  | refused (issues : List Record.Issue)

/-- The wording of a problem. -/
def Problem.message : Problem → String
  | unreadable failure => failure.message
  | notSettings path => "Invalid configuration file: " ++ path
  | unencodable point first last =>
    "'utf-8' codec can't encode " ++
      (if first = last then
        "character " ++ Text.quotedPoints [point] ++ " in position " ++ toString first
      else "characters in position " ++ toString first ++ "-" ++ toString last) ++
      ": surrogates not allowed"
  | oversizedName => Decimal.unwritableText
  | unnamed => "keywords must be strings"
  | taken operation name => operation ++ "() got multiple values for argument '" ++ name ++ "'"
  | unfit fault => fault.text
  | notPair kindName => "cannot unpack non-iterable " ++ kindName ++ " object"
  | tooFew count => "not enough values to unpack (expected 2, got " ++ toString count ++ ")"
  | tooMany => "too many values to unpack (expected 2)"
  | notSource kindName => "'" ++ kindName ++ "' object is not callable"
  | notCount kindName =>
    "unsupported operand type(s) for -: '" ++ kindName ++ "' and 'int'"
  | notStart kindName => "object of type '" ++ kindName ++ "' has no len()"
  | unusableStart field =>
    "error getting value for field \"" ++ field ++ "\" from source \"EnvSettingsSource\""
  | notPath kindName => "expected str, bytes or os.PathLike object, not " ++ kindName
  | bytesAsPath =>
    "argument should be a str object or an os.PathLike object returning str, " ++
      "not <class 'bytes'>"
  | commandLine failure => failure.message
  | refused issues => toString issues.length ++ " issues in " ++ RecordKind.configuration.name

end BrokerClient.Configuration
