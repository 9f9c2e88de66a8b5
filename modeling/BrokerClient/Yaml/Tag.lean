import BrokerClient.Yaml.Cursor

/-!
# Tags, anchors and directives

A tag says what a node is. It is written in full, or as a handle and a suffix, where the
handle stands for the start that a directive or a default gives it. An anchor is the name
under which a node is referred to later.
-/
namespace BrokerClient.Yaml

/-- What a node is. -/
inductive Tag where
  | null
  | truth
  | integer
  | number
  | moment
  | bytes
  | text
  | list
  | mapping
  | set
  /-- A list of mappings of one pair each, of which the order counts. -/
  | pairs
  /-- The name of a pair whose value is merged into the mapping. -/
  | merge
  /-- The name of the default value of a mapping. -/
  | default
  | unknown
  deriving DecidableEq, Repr

/-- The start of the tags of this format. -/
def tagStart : String := "tag:yaml.org,2002:"

/-- The tag of a full name. -/
def Tag.ofName (name : String) : Tag :=
  let tags : List (String × Tag) :=
    [("null", .null), ("bool", .truth), ("int", .integer), ("float", .number),
      ("timestamp", .moment), ("binary", .bytes), ("str", .text), ("seq", .list),
      ("map", .mapping), ("set", .set), ("omap", .pairs), ("pairs", .pairs), ("merge", .merge),
      ("value", .default)]
  ((tags.find? fun (word, _) => tagStart ++ word == name).map (·.2)).getD .unknown

/-- The start that a handle stands for, by handle. -/
abbrev Handles := List (String × String)

/-- The handles that need no directive. -/
def Handles.default : Handles := [("!", "!"), ("!!", tagStart)]

/-- A tag as it is written: a handle with a suffix, or a name in full. -/
structure WrittenTag where
  handle : Option String
  suffix : String

/-- The full name that a written tag stands for, if its handle is known. -/
def WrittenTag.name? (handles : Handles) (tag : WrittenTag) : Option String :=
  match tag.handle with
  | none => some tag.suffix
  | some handle => (handles.lookup handle).map (· ++ tag.suffix)

/-- A directive in front of a document. -/
inductive Directive where
  | version (major : Nat)
  | handle (handle start : String)
  | other

/-- A character of a name. -/
def isNameChar (c : Char) : Bool := c.isAlphanum || c == '-' || c == '_'

/-- A name that follows, of one character at least. -/
def name? (c : Cursor) : Option (String × Cursor) :=
  let (name, c) := c.span isNameChar
  if name.isEmpty then none else some (String.ofList name, c)

/-- The name of an anchor or of a reference, whose mark follows. -/
def anchorName? (c : Cursor) : Option (String × Cursor) := do
  let (name, c) ← name? c.next
  let ends (a : Char) := "?:,]\x7d%@".toList.contains a || a.toNat = 0x60
  if startsBlank c.rest || c.rest.head?.any ends then some (name, c) else none

/-- A character of a suffix, percent signs aside. -/
def isSuffixChar (c : Char) : Bool := isNameChar c || ";/?:@&=+$,.!~*'()[]".toList.contains c

/-- A byte that is written as a percent sign with two digits in front of a text. -/
def escapedByte? : List Char → Option UInt8
  | '%' :: a :: b :: _ => do some ((← Json.hexDigit? a) * 16 + (← Json.hexDigit? b)).toUInt8
  | _ => none

/-- The bytes that are escaped in front of a place, and the place after them. -/
def escapedBytes : Nat → Cursor → List UInt8 × Cursor
  | 0, c => ([], c)
  | fuel + 1, c =>
    match escapedByte? c.rest with
    | none => ([], c)
    | some byte =>
      let (bytes, c) := escapedBytes fuel (c.skip 3)
      (byte :: bytes, c)

/-- The rest of a suffix. Escaped bytes have to spell characters. -/
def suffixTail? : Nat → Cursor → Option (List Char × Cursor)
  | 0, _ => none
  | fuel + 1, c =>
    let (run, c) := c.span isSuffixChar
    if c.sees '%' then do
      let (bytes, c) := escapedBytes (c.rest.length + 1) c
      let text ← String.fromUTF8? ⟨bytes.toArray⟩
      if bytes.isEmpty || c.sees '%' then none
      else
        let (more, c) ← suffixTail? fuel c
        some (run ++ text.toList ++ more, c)
    else some (run, c)

/-- The suffix of a tag, of one character at least. -/
def suffix? (c : Cursor) : Option (String × Cursor) := do
  let (suffix, after) ← suffixTail? (c.rest.length + 1) c
  if after.index = c.index then none else some (String.ofList suffix, after)

/-- A handle: an exclamation mark, alone or with another one behind a name. -/
def handle? (c : Cursor) : Option (String × Cursor) :=
  if !c.sees '!' then none
  else
    let c := c.next
    if c.sees ' ' then some ("!", c)
    else
      let (name, c) := c.span isNameChar
      if c.sees '!' then some (String.ofList ('!' :: name ++ ['!']), c.next) else none

/-- The tag whose mark follows. A mark that stands alone leaves open what the node is. -/
def tag? (c : Cursor) : Option (WrittenTag × Cursor) := do
  let first := c.rest.drop 1
  let (tag, c) ←
    if first.head? == some '<' then do
      let (suffix, c) ← suffix? (c.skip 2)
      if c.sees '>' then some (⟨none, suffix⟩, c.next) else none
    else if startsBlank first then some (⟨none, "!"⟩, c.next)
    else do
      let word := first.takeWhile fun a => a != ' ' && !isBreak a
      let (handle, c) ← if word.contains '!' then handle? c else some ("!", c.next)
      let (suffix, c) ← suffix? c
      some (⟨some handle, suffix⟩, c)
  if startsSpace c.rest then some (tag, c) else none

/-- A number that follows. Too many digits fail by themselves. -/
def natural (c : Cursor) : Except Failure (Nat × Cursor) := do
  let (digits, c) := c.span Char.isDigit
  if Decimal.digitLimit < digits.length then throw (.oversizedInteger digits.length)
  let n ← wellFormed (Decimal.natural? digits)
  pure (n, c)

/-- A version that follows: two numbers, the first of which counts. -/
def version (c : Cursor) : Except Failure (Directive × Cursor) := do
  let (major, c) ← natural c
  if !c.sees '.' then throw .malformed
  let (_, c) ← natural c.next
  pure (.version major, c)

/-- A handle with the start that it stands for. -/
def handleStart? (c : Cursor) : Option (Directive × Cursor) := do
  let (handle, c) ← handle? c
  if c.sees ' ' then
    let (start, c) ← suffix? c.skipSpaces
    some (.handle handle start, c)
  else none

/-- The directive whose mark follows, up to the end of its line. -/
def directive (c : Cursor) : Except Failure (Directive × Cursor) := do
  let (name, c) ← wellFormed (name? c.next)
  if !startsSpace c.rest then throw .malformed
  let (directive, c) ←
    if name = "YAML" then version c.skipSpaces
    else if name = "TAG" then wellFormed (handleStart? c.skipSpaces)
    else pure (.other, (c.span fun a => !isBreak a).2)
  if !startsSpace c.rest then throw .malformed
  let c ← wellFormed c.lineEnd?
  pure (directive, c)

end BrokerClient.Yaml
