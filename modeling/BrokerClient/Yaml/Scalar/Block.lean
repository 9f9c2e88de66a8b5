import BrokerClient.Yaml.Cursor

/-!
# Block scalars

A block scalar consists of lines that are indented alike. After a bar its line breaks are
kept; after an angle bracket a single break between two lines of text is a space. Signs
behind that mark say what happens to the breaks at the end, of which one is left unless a
minus drops all of them or a plus keeps all of them, and how far the lines are indented,
which the first line tells otherwise.
-/
namespace BrokerClient.Yaml

/-- What the first line of a block scalar says: what happens to the breaks at the end, and
how far the lines are indented. -/
structure BlockHeader where
  keepsBreaks : Option Bool
  indent : Option Nat

/-- A plus or a minus that follows. -/
def chomping (c : Cursor) : Option Bool × Cursor :=
  if c.sees '+' then (some true, c.next)
  else if c.sees '-' then (some false, c.next)
  else (none, c)

/-- A digit that follows, which must not be zero. -/
def indentation? (c : Cursor) : Option (Option Nat × Cursor) :=
  match c.rest with
  | [] => some (none, c)
  | a :: _ =>
    if a.isDigit then if a = '0' then none else some (some (a.toNat - '0'.toNat), c.next)
    else some (none, c)

/-- The signs behind the mark of a block scalar, in any order, up to the end of the line. -/
def blockHeader? (c : Cursor) : Option (BlockHeader × Cursor) := do
  let (early, c) := chomping c
  let (indent, c) ← indentation? c
  let (late, c) := if early.isSome then (none, c) else chomping c
  if startsSpace c.rest then some (⟨early <|> late, indent⟩, ← c.lineEnd?) else none

/-- Empty lines in front of the first line of text: their breaks, the widest indentation, and
the place after them. -/
def leadingBreaks : Nat → Nat → Cursor → List Char × Nat × Cursor
  | 0, widest, c => ([], widest, c)
  | fuel + 1, widest, c =>
    let c := c.skipSpaces
    let widest := max widest c.column
    match c.lineBreak? with
    | none => ([], widest, c)
    | some (a, c) =>
      let (breaks, widest, c) := leadingBreaks fuel widest c
      (a :: breaks, widest, c)

/-- The empty lines that follow, and the place where the next line reaches the indentation or
its text starts. -/
def blockBreaks (indent : Nat) : Nat → Cursor → List Char × Cursor
  | 0, c => ([], c)
  | fuel + 1, c =>
    let c := c.indentTo indent
    match c.lineBreak? with
    | none => ([], c)
    | some (a, c) =>
      let (breaks, c) := blockBreaks indent fuel c
      (a :: breaks, c)

/-- What the break after a line stands for, before the empty lines that follow. -/
def joint (isFolded : Bool) (line : List Char) (ending breaks : List Char) (next : List Char) :
    List Char :=
  if isFolded && ending == ['\n'] && !line.head?.any isBlank && !next.head?.any isBlank then
    if breaks.isEmpty then [' '] else []
  else ending

/-- The text of the lines from a place on, and behind it the break that ends the last line
and the breaks of empty lines, and the place after them. -/
def blockLines (isFolded : Bool) (indent : Nat) : Nat → Cursor →
    List Char × List Char × List Char × Cursor
  | 0, c => ([], [], [], c)
  | fuel + 1, c =>
    let (line, c) := c.span fun a => !isBreak a
    let (ending, c) := match c.lineBreak? with
      | some (a, c) => ([a], c)
      | none => ([], c)
    let (breaks, c) := blockBreaks indent (c.rest.length + 1) c
    if c.column = indent && !c.atEnd then
      let (text, last, tail, after) := blockLines isFolded indent fuel c
      (line ++ joint isFolded line ending breaks c.rest ++ breaks ++ text, last, tail, after)
    else (line, ending, breaks, c)

/-- The block scalar whose mark follows; `indent` is the column of what it belongs to. -/
def block? (isFolded : Bool) (indent : Int) (c : Cursor) : Option (List Char × Cursor) := do
  let (header, c) ← blockHeader? c.next
  let least := max 1 (indent + 1).toNat
  let fuel := c.rest.length + 1
  let (breaks, indent, c) := match header.indent with
    | none =>
      let (breaks, widest, c) := leadingBreaks fuel 0 c
      (breaks, max least widest, c)
    | some n =>
      let indent := least + n - 1
      let (breaks, c) := blockBreaks indent fuel c
      (breaks, indent, c)
  let (text, last, tail, c) :=
    if c.column = indent && !c.atEnd then
      let (text, last, tail, c) := blockLines isFolded indent fuel c
      (breaks ++ text, last, tail, c)
    else ([], [], breaks, c)
  match header.keepsBreaks with
  | some false => some (text, c)
  | none => some (text ++ last, c)
  | some true => some (text ++ last ++ tail, c)

end BrokerClient.Yaml
