import BrokerClient.Configuration.Basic
import BrokerClient.Text.Blank
import BrokerClient.Text.Digit
import BrokerClient.Text.Lowercase
import BrokerClient.Value

/-!
# Settings on a command line

A command line names fields behind a doubled sign and gives their texts, `--server host` or
`--server=host`; the last text of a field counts. A word that starts with the sign and holds
no space is an option, whether there is one of that name or not, unless it is a negative
number; behind the word `--` no word is an option. An option without a text is refused, and
so is a word that is neither an option nor the text of one, unless such words are ignored.
-/
namespace BrokerClient.Configuration

/-- How a command line is read. -/
structure CommandLine where
  /-- What stands in front of the name of a field. -/
  path : String
  /-- The sign that an option starts with. -/
  sign : Char
  /-- Hyphens stand for the underscores in the names of fields. -/
  isKebab : Bool
  /-- Names are compared with regard to case. -/
  isExact : Bool
  /-- Words that mean nothing are ignored. -/
  ignoresUnknown : Bool
  /-- A field with a truth value takes no text: its name says true, and with `no-` in front
  of it false. -/
  hasFlags : Bool
  /-- The text that means null. -/
  nullText : Option String

namespace CommandLine

/-- Why a command line cannot be read. -/
inductive Failure where
  /-- A value that is shown like this stands for the words. -/
  | notWords (shown : String)
  /-- A text that cannot stand in front of names. -/
  | badPath (path : String)
  /-- There is no text for an option. -/
  | noText (option : String)
  /-- There is a text for options that take none. -/
  | needlessText (options : List String) (text : String)
  /-- Words that mean nothing. -/
  | unknown (words : List String)

/-- The wording of a failure. -/
def Failure.message : Failure → String
  | notWords shown => "cli_parse_args must be a list or tuple, received " ++ shown
  | badPath path => "CLI settings source prefix is invalid: " ++ path
  | noText option => "error parsing CLI: argument " ++ option ++ ": expected one argument"
  | needlessText options text =>
    "error parsing CLI: argument " ++ String.intercalate "/" options ++
      ": ignored explicit argument " ++ Text.quoted text
  | unknown words =>
    "error parsing CLI: unrecognized arguments: " ++ String.intercalate " " words

/-- What a word on a command line is. -/
inductive Piece where
  /-- The name of a field, alone. -/
  | option (field name : String)
  /-- The name of a field with its value. -/
  | setting (field : String) (v : Value)
  /-- A word that can be the text of an option. -/
  | plain (word : String)
  /-- Anything else. -/
  | stray (word : String)
  /-- A word that cannot be read. -/
  | broken (failure : Failure)

/-- A part of the path in front of names is a name itself. Letters that are not of ASCII
count as letters of a name. -/
def isName : List Char → Bool
  | [] => false
  | c :: rest =>
    let isLetter (c : Char) := c.isAlpha || c == '_' || 0x80 ≤ c.toNat
    isLetter c && rest.all fun c => isLetter c || c.isDigit

/-- The path in front of names ends with a point, unless it is empty; the points in it divide
names. -/
def pathOf (text : String) : Except Failure String :=
  if text == "" then .ok ""
  else if text.startsWith "." || text.endsWith "."
      || !isName (text.toList.filter fun c => c != '.') then .error (.badPath text)
  else .ok (text ++ ".")

/-- The sign, doubled, as it stands in front of a name. -/
def mark (line : CommandLine) : String := String.ofList [line.sign, line.sign]

/-- The name of a field as an option spells it, behind the sign. -/
def spelled (line : CommandLine) (field : String) : String :=
  line.path ++
    (if line.isKebab then field.map fun c => if c == '_' then '-' else c else field)

/-- The fields with a truth value take no text. -/
def isFlag (line : CommandLine) (field : String) : Bool :=
  line.hasFlags && field == "verify_ssl"

/-- The options that say false. -/
def denial (line : CommandLine) (field : String) : String :=
  "--no-" ++ line.spelled field

/-- A word where case is without regard: the name at its start is in lower case, and nothing
counts behind a line break. -/
def folded (line : CommandLine) (word : String) : String :=
  let isEnd (c : Char) := Text.isBlankChar c || c == '='
  let name := word.toList.takeWhile fun c => !isEnd c
  if line.isExact || word.toList.head? != some line.sign || name.length < 2 then word
  else
    let rest := (word.toList.drop name.length).takeWhile (· != '\n')
    Text.lowercase (String.ofList name) ++ String.ofList rest

/-- A minus in front of digits of any script, with a point before some of them or without. -/
def isNegativeNumber (word : List Char) : Bool :=
  let isDigit (c : Char) := (Text.plainDigit c).isDigit
  match word with
  | '-' :: digits =>
    match digits.dropWhile isDigit with
    | [] => !digits.isEmpty
    | c :: fraction => c == '.' && !fraction.isEmpty && fraction.all isDigit
  | _ => false

/-- The value of a text. -/
def valueOf (line : CommandLine) (text : String) : Value :=
  if line.nullText == some text then .null else .str text

/-- What a word is that names an option, with a text behind an equals sign or without. -/
def known? (line : CommandLine) (name : String) (text : Option String) : Option Piece :=
  fieldNames.findSome? fun field =>
    let option := line.mark ++ line.spelled field
    if line.isFlag field then
      let options := if line.sign == '-' then [option, line.denial field] else [option]
      if !options.contains name then none
      else match text with
        | some text => some (.broken (.needlessText options text))
        | none => some (.setting field (.bool (name == option)))
    else if name != option then none
    else match text with
      | some text => some (.setting field (line.valueOf text))
      | none => some (.option field name)

/-- What a word is. -/
def piece (line : CommandLine) (word : String) : Piece :=
  let letters := word.toList
  let name := letters.takeWhile (· != '=')
  let text := letters.drop (name.length + 1)
  if letters.head? != some line.sign then .plain word
  else match line.known? word none with
    | some piece => piece
    | none =>
      if letters.length == 1 then .plain word
      else
        let withText :=
          if letters.contains '=' then
            line.known? (String.ofList name) (some (String.ofList text))
          else none
        match withText with
        | some piece => piece
        | none =>
          if isNegativeNumber letters || letters.contains ' ' then .plain word else .stray word

/-- What words are. Behind `--` each of them is plain. -/
def pieces (line : CommandLine) : List String → List Piece
  | [] => []
  | word :: rest =>
    if word == "--" then .stray word :: rest.map .plain
    else line.piece word :: pieces line rest

/-- The settings in pieces, and the words that mean nothing. -/
def collect (line : CommandLine) :
    List Piece → Except Failure (List (String × Value) × List String)
  | [] => .ok ([], [])
  | .setting field v :: rest => do
    let (settings, unknown) ← collect line rest
    pure ((field, v) :: settings, unknown)
  | .option field _ :: .plain text :: rest => do
    let (settings, unknown) ← collect line rest
    pure ((field, line.valueOf text) :: settings, unknown)
  | .option _ name :: _ => .error (.noText name)
  | .plain word :: rest | .stray word :: rest => do
    let (settings, unknown) ← collect line rest
    pure (settings, word :: unknown)
  | .broken failure :: _ => .error failure

/-- The settings that words say. -/
def read (line : CommandLine) (words : List String) : Except Failure (Mapping Value) := do
  let (settings, unknown) ← line.collect (line.pieces (words.map line.folded))
  if unknown.isEmpty || line.ignoresUnknown then pure (Mapping.ofPairs settings)
  else throw (.unknown unknown)

end CommandLine

end BrokerClient.Configuration
