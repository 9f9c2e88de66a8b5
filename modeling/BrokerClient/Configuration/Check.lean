import BrokerClient.Configuration.Option
import BrokerClient.Configuration.Problem

/-!
# Checks of options

What an option has to be, in the order in which options are looked at: the sources that a
caller gives, the number of parts of a name, the start of the names of variables, the paths
of further files, the command line, the paths of secrets. Further files and secrets are not
read. A null is no option.
-/
namespace BrokerClient.Configuration

open VariableRule (option? isOn)

/-- The values in a value, if it holds values. -/
def members? : Value → Option (List Value)
  | .arr items => some items
  | .obj fields => some (fields.map fun (name, _) => .str name)
  | .bytes data => some (data.map fun byte => .int byte.toNat)
  | .torn points => some (points.map fun point => .ofPoints [point])
  | .thing _ name => some [.str name]
  | v => v.asText?.map fun text => text.toList.map fun c => .str (String.singleton c)

/-- A value is not used as a list of sources: no member is a source. -/
def refuseSources (v : Value) : Except Problem Unit :=
  match members? v with
  | none => .error (.unfit (.notIterable v.kindName))
  | some [] => .ok ()
  | some (first :: _) =>
    .error (.notSource (if v matches .thing .. then "tuple" else first.kindName))

/-- A value that stands for the sources and the arguments has two members, and the first of
them does not count as given; then nothing is read at all. -/
def checkSources (v : Value) : Except Problem Unit :=
  match members? v with
  | none => .error (.notPair v.kindName)
  | some [sources, _] => if sources.isGiven then refuseSources sources else .ok ()
  | some members =>
    .error (if members.length < 2 then .tooFew members.length else .tooMany)

/-- The number of parts of a name is a number, if it counts as given. -/
def checkCount (arguments : Mapping Value) : Except Problem Unit :=
  match option? arguments "_env_nested_max_split" with
  | none | some (.bool _) | some (.int _) | some (.float _) => .ok ()
  | some v => if v.isGiven then .error (.notCount v.kindName) else .ok ()

/-- The start of the names of variables has a length. -/
def checkStart (arguments : Mapping Value) : Except Problem Unit :=
  match option? arguments "_env_prefix" with
  | none => .ok ()
  | some v => if v matches .bool _ | .int _ | .float _ | .thing .. then
      .error (.notStart v.kindName)
    else .ok ()

/-- The start of the names of variables that arguments say. -/
def startOf (arguments : Mapping Value) : Except Problem String :=
  if !VariableRule.hasStart arguments then .ok ""
  else match option? arguments "_env_prefix" with
    | none => .ok variableStart
    | some (.arr _) | some (.obj _) | some (.bytes _) => .error (.unusableStart "server")
    | some v => .ok v.text

/-- One of several paths is a text. -/
def checkPath (v : Value) : Except Problem Unit :=
  match v with
  | .str _ | .torn _ | .word _ => .ok ()
  | .bytes _ => .error .bytesAsPath
  | v => .error (.notPath v.kindName)

/-- An option is a path, or it holds paths. -/
def checkPaths (arguments : Mapping Value) (name : String) : Except Problem Unit :=
  match option? arguments name with
  | none | some (.str _) | some (.torn _) | some (.word _) => .ok ()
  | some (.thing ..) => .error (.notPath "tuple")
  | some v =>
    match members? v with
    | none => .error (.unfit (.notIterable v.kindName))
    | some members => members.forM checkPath

/-- The word of a command line that a value is. Whatever does not count as given is an empty
word. -/
def wordOf (v : Value) : Except Problem String :=
  match v with
  | .str _ | .torn _ | .word _ => .ok v.text
  | v =>
    if !v.isGiven then .ok ""
    else match v with
      | .bytes _ => .error (.unfit .bytesAsText)
      | v => .error (.unfit (.notText v.kindName))

/-- What stands in front of the names on a command line. -/
def pathOf (arguments : Mapping Value) : Except Problem String :=
  match (option? arguments "_cli_prefix").filter Value.isGiven with
  | none => .ok ""
  | some (.bytes _) => .error (.unfit .textBeforeBytes)
  | some v =>
    if v matches .str _ | .torn _ | .word _ then
      (CommandLine.pathOf v.text).mapError .commandLine
    else .error (.unfit (.noAttribute v.kindName "startswith"))

/-- The text that means null on a command line. -/
def nullTextOf (arguments : Mapping Value) : Option String :=
  match (option? arguments "_cli_parse_none_str").filter Value.isGiven with
  | some v => v.asText?
  | none =>
    some (if option? arguments "_cli_avoid_json" matches some (.bool true) then "None"
      else "null")

/-- How a command line is read. -/
def commandLineOf (path : String) (arguments : Mapping Value) : CommandLine where
  path := path
  sign := (((option? arguments "_cli_flag_prefix_char").bind Value.asText?).bind
    (·.toList.head?)).getD '-'
  isKebab := isOn arguments "_cli_kebab_case"
  isExact := isOn arguments "_case_sensitive"
  ignoresUnknown := isOn arguments "_cli_ignore_unknown_args"
  hasFlags := isOn arguments "_cli_implicit_flags"
  nullText := nullTextOf arguments

/-- The kind of a value as it is shown by itself. -/
def shownKind : Value → String
  | .word w => "<enum '" ++ w.kindName ++ "'>"
  | v => "<class '" ++ v.kindName ++ "'>"

/-- The settings of the command line in arguments. A truth value, and a zero like it, stand for
a command line without words. -/
def commandLineSettings (arguments : Mapping Value) : Except Problem (Mapping Value) :=
  match option? arguments "_cli_parse_args" with
  | none => .ok []
  | some v => do
    let line := commandLineOf (← pathOf arguments) arguments
    match v with
    | .arr words => (line.read (← words.mapM wordOf)).mapError .commandLine
    | .bool _ | .int 0 => pure []
    | .float x => if x == 0 then pure [] else throw (.commandLine (.notWords (shownKind v)))
    | v => throw (.commandLine (.notWords (shownKind v)))

end BrokerClient.Configuration
