import BrokerClient.Yaml.Cursor

/-!
# Plain scalars

A plain scalar is written without quotes. It ends at a colon before a blank, at a number sign
after a blank, at a tab, and within brackets or braces also at their signs. It can go on in
lines that are indented, or in any line within brackets or braces; a document mark ends it.
-/
namespace BrokerClient.Yaml

/-- A bracket or a brace or a comma. -/
def isFlowSign (c : Char) : Bool :=
  c == ',' || c == '[' || c == ']' || c == '{' || c == '}'

/-- A colon in front of `rest` separates a name from its value. -/
def separates (inFlow : Bool) (rest : List Char) : Bool :=
  startsBlank rest || (inFlow && rest.head?.any isFlowSign)

/-- A plain scalar can start here. -/
def startsPlain (inFlow : Bool) (text : List Char) : Bool :=
  match text with
  | [] => false
  | c :: rest =>
    if c == '-' then !startsBlank rest
    else if c == '?' || c == ':' then !inFlow && !startsBlank rest
    else !startsBlank text && !isFlowSign c && c.toNat != 0x60 &&
      !"#&*!|>'\"%@".toList.contains c

/-- The characters of a plain scalar up to the next blank. -/
def plainWord (inFlow : Bool) : List Char → List Char
  | [] => []
  | c :: rest =>
    if startsBlank (c :: rest) || (c == ':' && separates inFlow rest) ||
        (inFlow && (isFlowSign c || c == '?')) then []
    else c :: plainWord inFlow rest

/-- Spaces and line breaks, up to a document mark: the breaks, the place after them, and
whether a mark follows. -/
def plainBreaks : Nat → Cursor → List Char × Cursor × Bool
  | 0, c => ([], c, false)
  | fuel + 1, c =>
    let c := c.skipSpaces
    match c.lineBreak? with
    | none => ([], c, false)
    | some (a, c) =>
      if startsMark c.rest then ([a], c, true)
      else
        let (breaks, c, marked) := plainBreaks fuel c
        (a :: breaks, c, marked)

/-- What stands between two words of a plain scalar: the text for it, the place after it, and
whether a line ended. There is no text where the scalar ends. -/
def plainGap (c : Cursor) : List Char × Cursor × Bool :=
  let (spaces, c) := c.span (· == ' ')
  match c.lineBreak? with
  | none => (spaces, c, false)
  | some (first, c) =>
    if startsMark c.rest then ([], c, true)
    else
      let (others, c, marked) := plainBreaks (c.rest.length + 1) c
      (if marked then [] else folded first others, c, true)

/-- The rest of a plain scalar after a gap, which is put in front if a word follows: the
text, the place after it, and whether a line ended in the gap before that place. Lines go on
at column `indent` or beyond. -/
def plainTail (inFlow : Bool) (indent : Int) : Nat → List Char → Bool → Cursor →
    List Char × Cursor × Bool
  | 0, _, ended, c => ([], c, ended)
  | fuel + 1, before, ended, c =>
    let word := if c.sees '#' then [] else plainWord inFlow c.rest
    if word.isEmpty then ([], c, ended)
    else
      let (after, c, ended) := plainGap (c.skip word.length)
      if after.isEmpty || c.sees '#' || (!inFlow && c.column < indent) then
        (before ++ word, c, ended)
      else
        let (more, c, ended) := plainTail inFlow indent fuel after ended c
        (before ++ word ++ more, c, ended)

/-- A plain scalar: its text, the place after it and the gap behind it, and whether a line
ended in that gap. -/
def plain (inFlow : Bool) (indent : Int) (c : Cursor) : List Char × Cursor × Bool :=
  plainTail inFlow indent (c.rest.length + 1) [] false c

end BrokerClient.Yaml
