import BrokerClient.Yaml.Failure

/-!
# Places in a YAML text

A cursor is a place in a text, counted in characters, in lines and in columns. Four
characters break a line: the line feed, the next line, and the separators of lines and of
paragraphs. The first two stand for a line feed, the separators for themselves. A byte order
mark takes no column.
-/
namespace BrokerClient.Yaml

/-- A character that breaks a line. -/
def isBreak (c : Char) : Bool := c == '\n' || c == '\x85' || c == '\u2028' || c == '\u2029'

/-- A space or a tab. -/
def isBlank (c : Char) : Bool := c == ' ' || c == '\t'

/-- A line break or the end in front of a text. -/
def startsBreak : List Char → Bool
  | [] => true
  | c :: _ => isBreak c

/-- A space, a line break or the end in front of a text. -/
def startsSpace (text : List Char) : Bool := startsBreak text || text.head? == some ' '

/-- A space, a tab, a line break or the end in front of a text. -/
def startsBlank (text : List Char) : Bool := startsSpace text || text.head? == some '\t'

/-- One of the marks that start and end a document in front of a line. -/
def startsMark (line : List Char) : Bool :=
  ("---".toList.isPrefixOf line || "...".toList.isPrefixOf line) && startsBlank (line.drop 3)

/-- A place in a text: what follows, how many characters are before it, and the line and the
column, all from zero. -/
structure Cursor where
  rest : List Char
  index : Nat
  line : Nat
  column : Nat

namespace Cursor

/-- The start of a text. -/
def start (text : List Char) : Cursor := ⟨text, 0, 0, 0⟩

/-- Nothing follows. -/
def atEnd (c : Cursor) : Bool := c.rest.isEmpty

/-- A character follows. -/
def sees (c : Cursor) (a : Char) : Bool := c.rest.head? == some a

/-- The place after the next character. -/
def next (c : Cursor) : Cursor :=
  match c.rest with
  | [] => c
  | a :: rest =>
    if isBreak a then ⟨rest, c.index + 1, c.line + 1, 0⟩
    else ⟨rest, c.index + 1, c.line, if a = '\uFEFF' then c.column else c.column + 1⟩

/-- The place after a number of characters. -/
def skip (c : Cursor) : Nat → Cursor
  | 0 => c
  | n + 1 => c.next.skip n

/-- The characters of a class that follow, and the place after them. -/
def span (c : Cursor) (p : Char → Bool) : List Char × Cursor :=
  let run := c.rest.takeWhile p
  (run, c.skip run.length)

/-- The place after the spaces that follow. -/
def skipSpaces (c : Cursor) : Cursor := (c.span (· == ' ')).2

/-- The place after spaces, but not beyond a column. -/
def indentTo (c : Cursor) (column : Nat) : Cursor :=
  c.skip ((c.rest.take (column - c.column)).takeWhile (· == ' ')).length

/-- The line break that follows: the character that it stands for and the place after it. -/
def lineBreak? (c : Cursor) : Option (Char × Cursor) :=
  match c.rest with
  | [] => none
  | a :: _ =>
    if isBreak a then some (if a = '\x85' then '\n' else a, c.next) else none

/-- The place after spaces and a comment, at the end of the line, if nothing else follows in
it. -/
def lineEnd? (c : Cursor) : Option Cursor :=
  let c := c.skipSpaces
  let c := if c.sees '#' then (c.span fun a => !isBreak a).2 else c
  if startsBreak c.rest then some c.next else none

@[simp] theorem skip_zero (c : Cursor) : c.skip 0 = c := rfl

theorem rest_next (c : Cursor) : c.next.rest = c.rest.drop 1 := by
  unfold next
  cases h : c.rest with
  | nil => simp [h]
  | cons a rest =>
    simp only [List.drop_succ_cons, List.drop_zero]
    split <;> rfl

theorem rest_skip (c : Cursor) (n : Nat) : (c.skip n).rest = c.rest.drop n := by
  induction n generalizing c with
  | zero => rfl
  | succ n ih => rw [skip, ih, rest_next, List.drop_drop, Nat.add_comm]

end Cursor

/-- How many characters spaces, comments and line breaks take in front of a text, which may
start inside of a comment. -/
def gapLength (comment : Bool) : List Char → Nat
  | [] => 0
  | c :: rest =>
    if isBreak c then gapLength false rest + 1
    else if comment || c == '#' then gapLength true rest + 1
    else if c == ' ' then gapLength false rest + 1
    else 0

/-- The place after spaces, comments and line breaks. -/
def gap (c : Cursor) : Cursor := c.skip (gapLength false c.rest)

/-- What the breaks between two lines of a scalar stand for: the first of them for a space if
it is a line feed and stands alone, and for nothing if it is a line feed and others follow. -/
def folded (first : Char) (others : List Char) : List Char :=
  (if first ≠ '\n' then [first] else if others.isEmpty then [' '] else []) ++ others

end BrokerClient.Yaml
