import BrokerClient.Configuration.Check
import BrokerClient.Record.Field
import BrokerClient.Text.Uppercase

/-!
# Sources of settings

Settings come from a command line, from arguments, from variables of the environment and
from a file. Names of arguments and variables are compared without regard to case. A command
line wins over an argument, an argument over a variable and a variable over the default. What
a file says is handed on as arguments, except for settings whose variable, spelled in
capitals, is set; arguments given besides come after those of the file. An argument can also
be an option of reading settings.
-/
namespace BrokerClient.Configuration

open Record Verdict

/-- The first argument for a field. -/
def argument? (arguments : Mapping Value) (field : String) : Option Value :=
  (List.find? (fun (name, _) => Text.lowercase name == field) arguments).map (·.2)

/-- The values of all fields that are set, those of the command line first of all. -/
def settings (rule : VariableRule) (environment : Environment)
    (commandLine arguments : Mapping Value) : Mapping Value :=
  fieldNames.filterMap fun field =>
    (commandLine.find? field <|> argument? arguments field <|> rule.lookup? environment field).map
      fun v => (field, v)

/-- An argument for none of the fields is refused. -/
def refuseUnknown : Mapping Value → Verdict Unit
  | [] => accepted ()
  | (name, _) :: rest =>
    join (fun _ _ => ())
      (if fieldNames.contains (Text.lowercase name) then accepted ()
        else (problem .unknownField).within (.field name))
      (refuseUnknown rest)

/-- The configuration in settings. -/
def decode (fields : Mapping Value) : Verdict Configuration :=
  mk <$> defaulted "server" default.server string fields
    <*> defaulted "username" default.username (nullable string) fields
    <*> defaulted "password" default.password (nullable string) fields
    <*> defaulted "client_id" default.clientId string fields
    <*> defaulted "timeout" default.timeout number fields
    <*> defaulted "proxy" default.proxy (nullable string) fields
    <*> defaulted "verify_ssl" default.verifySsl truth fields

/-- The configuration of a command line, arguments and the variables of an environment. -/
def ofSources (environment : Environment) (rule : VariableRule)
    (commandLine arguments : Mapping Value) : Except Problem Configuration :=
  match join (fun c _ => c) (decode (settings rule environment commandLine arguments))
      (refuseUnknown arguments) with
  | accepted c => .ok c
  | rejected issues => .error (.refused issues)
  | aborted _ => .error (.refused [])

/-- The configuration from the environment and from arguments, options among them. -/
def ofOptions (environment : Environment) (arguments : Mapping Value) :
    Except Problem Configuration := do
  checkCount arguments
  checkStart arguments
  checkPaths arguments "_env_file"
  let commandLine ← commandLineSettings arguments
  let start ← startOf arguments
  checkPaths arguments "_secrets_dir"
  ofSources environment (VariableRule.ofArguments start arguments) commandLine
    (arguments.filter fun (name, _) => !optionNames.contains name)

/-- The configuration from arguments and environment, unless the arguments give the sources
themselves. -/
def ofArguments (environment : Environment) (arguments : Mapping Value) :
    Except Problem Configuration :=
  if arguments.has "__pydantic_self__" then
    .error (.taken "BaseSettings.__init__" "__pydantic_self__")
  else match VariableRule.option? arguments "_build_sources" with
    | some sources => (fun _ => default) <$> checkSources sources
    | none => ofOptions environment arguments

/-- What a file holds: names, which should be texts, and values. -/
def fileSettings (path text : String) : Except Problem (List (Yaml.Datum × Value)) :=
  match Yaml.read text with
  | .error failure => .error (.unreadable failure)
  | .ok .nothing => .ok []
  | .ok (.mapping pairs) => .ok pairs
  | .ok .other => .error (.notSettings path)

/-- The code points of the variable that stands for a setting of that spelling. -/
def variablePoints (name : List Nat) : List Nat :=
  (variableStart.toList.map Char.toNat ++ name).flatMap fun point =>
    if Text.isHalf point then [point]
    else (Text.capitals (Char.ofNat point)).map Char.toNat

/-- A half of a surrogate pair that stands for a byte. -/
def standsForByte (point : Nat) : Bool := 0xDC80 ≤ point && point ≤ 0xDCFF

/-- The first run of halves of surrogate pairs that do not all stand for bytes: its first half
that does not, and where that half and the run end; `index` points are in front of the text. -/
def unencodable? (index : Nat) : List Nat → Option Problem
  | [] => none
  | point :: rest =>
    if Text.isHalf point && !standsForByte point then
      let run := rest.takeWhile Text.isHalf
      some (.unencodable point index (index + run.length))
    else unencodable? (index + 1) rest

/-- The name has more digits than the text of an integer can have. -/
def isOversized : Yaml.Datum → Bool
  | .value (.int n) => !Decimal.isWritable n
  | _ => false

/-- A variable of the environment stands for a setting of that name. -/
def hasVariable (environment : Environment) (name : Yaml.Datum) : Except Problem Bool :=
  let points := variablePoints name.points
  match unencodable? 0 points with
  | some problem => .error problem
  | none =>
    if isOversized name then .error .oversizedName
    else .ok (!points.any Text.isHalf && (environment.lookup (Text.ofPoints points)).isSome)

/-- The settings of a file that no variable stands for. -/
def withoutVariables (environment : Environment) :
    List (Yaml.Datum × Value) → Except Problem (List (Yaml.Datum × Value))
  | [] => .ok []
  | (name, v) :: rest => do
    let isSet ← hasVariable environment name
    let rest ← withoutVariables environment rest
    pure (if isSet then rest else (name, v) :: rest)

/-- Pairs as arguments, if all names are texts. -/
def namedSettings (pairs : List (Yaml.Datum × Value)) : Except Problem (Mapping Value) :=
  Mapping.ofPairs <$> pairs.mapM fun (name, v) =>
    match name with
    | .value (.str s) => .ok (s, v)
    | .value (.torn points) => .ok (Text.ofPoints points, v)
    | _ => .error .unnamed

/-- The configuration from the text of a file at a path, if there is one, from the
environment, and from arguments. -/
def load (path : String) (file : Option String) (environment : Environment)
    (arguments : Mapping Value) : Except Problem Configuration := do
  let pairs ← match file with
    | some text => fileSettings path text
    | none => .ok []
  let pairs ← withoutVariables environment pairs
  -- A name that is no text is noticed only after all arguments are there.
  let ofFile ← namedSettings pairs
  ofArguments environment (Mapping.putAll ofFile arguments)

/-- The configuration that is loaded for a caller who gives a path; then no argument can be
named for the path. -/
def loadAt (path : String) (file : Option String) (environment : Environment)
    (arguments : Mapping Value) : Except Problem Configuration :=
  if arguments.has "path" then .error (.taken "load_config" "path")
  else load path file environment arguments

/-- The configuration that is loaded for a caller who may give a path as an argument. A path
that does not count as given leaves the default path. -/
def loadDefault (path : String) (file : Option String) (environment : Environment)
    (arguments : Mapping Value) : Except Problem Configuration :=
  match arguments.find? "path" with
  | none => load path file environment arguments
  | some v =>
    if v.isGiven then .error (.unfit (.noAttribute v.kindName "exists"))
    else load path file environment (arguments.filter fun (name, _) => name != "path")

end BrokerClient.Configuration
