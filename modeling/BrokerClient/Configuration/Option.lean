import BrokerClient.Text.Lowercase
import BrokerClient.Value

/-!
# Options of reading settings

Besides the settings, arguments can say how settings are read: how the names of variables
start, whether upper and lower case differ in them, whether an empty variable counts, and
which text of a variable means null. There are options of a command line besides. Options for
sources that a client does not have are accepted and change nothing. A null is no option.
-/
namespace BrokerClient.Configuration

/-- The names of all options. -/
def optionNames : List String :=
  ["_case_sensitive", "_nested_model_default_partial_update", "_env_prefix",
    "_env_prefix_target", "_env_file", "_env_file_encoding", "_env_file_depth",
    "_env_ignore_empty", "_env_nested_delimiter", "_env_nested_max_split",
    "_env_parse_none_str", "_env_parse_enums", "_cli_prog_name", "_cli_parse_args",
    "_cli_settings_source", "_cli_parse_none_str", "_cli_hide_none_type", "_cli_avoid_json",
    "_cli_enforce_required", "_cli_use_class_docs_for_groups", "_cli_exit_on_error", "_cli_prefix",
    "_cli_flag_prefix_char", "_cli_implicit_flags", "_cli_ignore_unknown_args",
    "_cli_kebab_case", "_cli_shortcuts", "_cli_show_env_vars", "_secrets_dir", "_build_sources"]

/-- The start of the names of variables unless said otherwise. -/
def variableStart : String := "PAASCLIENT_"

/-- The variables of an environment, in order. -/
abbrev Environment := List (String × String)

/-- How variables are read. -/
structure VariableRule where
  /-- The start of the names. -/
  start : String
  /-- Names are compared with regard to case. -/
  isExact : Bool
  ignoresEmpty : Bool
  /-- The text that means null. -/
  nullText : Option Value

namespace VariableRule

/-- The value of an option, unless it is null. -/
def option? (arguments : Mapping Value) (name : String) : Option Value :=
  (arguments.find? name).filter fun v => !v.isNull

/-- An option counts as given. -/
def isOn (arguments : Mapping Value) (name : String) : Bool :=
  (option? arguments name).any Value.isGiven

/-- The names of variables have a start, unless an option says that only other names have. -/
def hasStart (arguments : Mapping Value) : Bool :=
  match option? arguments "_env_prefix_target" with
  | none => true
  | some v => v.asText? == some "variable" || v.asText? == some "all"

/-- The rule that options in arguments say, with another start of the names. -/
def ofArguments (start : String) (arguments : Mapping Value) : VariableRule where
  start := start
  isExact := isOn arguments "_case_sensitive"
  ignoresEmpty := isOn arguments "_env_ignore_empty"
  nullText := option? arguments "_env_parse_none_str"

/-- A name as it is compared. -/
def compared (rule : VariableRule) (name : String) : String :=
  if rule.isExact then name else Text.lowercase name

/-- A variable counts. -/
def counts (rule : VariableRule) (text : String) : Bool := !(rule.ignoresEmpty && text == "")

/-- The value of a text. -/
def valueOf (rule : VariableRule) (text : String) : Value :=
  match rule.nullText with
  | some (.str s) => if s = text then .null else .str text
  | _ => .str text

/-- The value of the last variable for a field. -/
def lookup? (rule : VariableRule) (environment : Environment) (field : String) :
    Option Value :=
  let name := rule.compared (rule.start ++ field)
  let found := environment.reverse.find? fun (n, text) =>
    rule.compared n == name && rule.counts text
  found.map fun (_, text) => rule.valueOf text

end VariableRule

end BrokerClient.Configuration
