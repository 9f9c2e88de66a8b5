import BrokerClient.Yaml.Scalar.Block
import BrokerClient.Yaml.Scalar.Plain
import BrokerClient.Yaml.Scalar.Quoted
import BrokerClient.Yaml.Token.Basic

/-!
# The tokens of a text

A text is cut into tokens from the front. Whatever can be a name of a mapping is remembered,
one candidate for each depth of brackets and braces; a colon in the same line, at most 1024
characters further on, makes it a name, and the token for names is then put in front of it.
In block notation a name or an item beyond the current column starts a mapping or a list, and
whatever stands before that column ends it.

A token is known once none of the candidates is at or before it. When the text fails further
on, the tokens that are not known by then are lost.
-/
namespace BrokerClient.Yaml

/-- What can turn out to be a name: how many tokens are before it, whether it has to be one,
and its place. -/
structure Candidate where
  position : Nat
  isRequired : Bool
  index : Nat
  line : Nat
  column : Nat

/-- The farthest that the colon may be from the start of a name, in characters. -/
def nameReach : Nat := 1024

/-- A text that is partly cut into tokens. -/
structure Stream where
  cursor : Cursor
  tokens : Array Token
  /-- The column of the innermost list or mapping in block notation, and those around it. -/
  indent : Int
  outer : List Int
  /-- How many brackets and braces are open. -/
  depth : Int
  /-- A name may start here. -/
  allowsName : Bool
  /-- The candidates by depth. -/
  candidates : List (Int × Candidate)
  isDone : Bool

namespace Stream

/-- The start of a text. -/
def start (text : List Char) : Stream := ⟨.start text, #[], -1, [], 0, true, [], false⟩

/-- In front of the place no bracket or brace is open. -/
def inBlock (s : Stream) : Bool := s.depth == 0

/-- Adds a token. -/
def push (s : Stream) (token : Token) : Stream := { s with tokens := s.tokens.push token }

/-- Goes on at another place. -/
def moveTo (s : Stream) (c : Cursor) : Stream := { s with cursor := c }

/-- Says whether a name may start behind the token. -/
def allowing (s : Stream) (allowsName : Bool) : Stream := { s with allowsName := allowsName }

/-- Puts a token in front of the one at a position. -/
def insert (s : Stream) (position : Nat) (token : Token) : Stream :=
  { s with
    tokens := (s.tokens.extract 0 position).push token ++ s.tokens.extract position s.tokens.size }

/-- The candidate at the present depth. -/
def candidate? (s : Stream) : Option Candidate := s.candidates.lookup s.depth

/-- A candidate cannot be a name any more. -/
def isPast (c : Cursor) (candidate : Candidate) : Bool :=
  candidate.line != c.line || nameReach < c.index - candidate.index

/-- Forgets the candidates that cannot be names any more, unless one has to be. -/
def prune (s : Stream) : Except Failure Stream :=
  let (past, others) := s.candidates.partition fun (_, candidate) => isPast s.cursor candidate
  if past.any fun (_, candidate) => candidate.isRequired then .error .malformed
  else .ok { s with candidates := others }

/-- Forgets the candidate at the present depth, unless it has to be a name. -/
def forget (s : Stream) : Except Failure Stream :=
  if s.candidate?.any (·.isRequired) then .error .malformed
  else .ok { s with candidates := s.candidates.filter fun (depth, _) => depth != s.depth }

/-- Remembers that the next token can be a name, if one may start here. -/
def remember (s : Stream) : Except Failure Stream :=
  if s.allowsName then do
    let s ← s.forget
    let c := s.cursor
    let candidate : Candidate :=
      ⟨s.tokens.size, s.inBlock && s.indent = c.column, c.index, c.line, c.column⟩
    pure { s with candidates := (s.depth, candidate) :: s.candidates }
  else .ok s

/-- Ends lists and mappings in block notation that start beyond a column. -/
def unwindFrom (column : Int) (s : Stream) : List Int → Stream
  | [] => s
  | indent :: outer =>
    if column < s.indent then
      unwindFrom column { s.push .blockEnd with indent := indent, outer := outer } outer
    else s

/-- Ends lists and mappings in block notation that start beyond a column. Brackets and braces
do not care for columns. -/
def unwind (s : Stream) (column : Int) : Stream :=
  if s.inBlock then unwindFrom column s s.outer else s

/-- Moves to a column further on, if it is one. -/
def indentTo (s : Stream) (column : Int) : Stream × Bool :=
  if s.indent < column then ({ s with indent := column, outer := s.indent :: s.outer }, true)
  else (s, false)

/-- Starts a list or a mapping in block notation if the place is beyond the current column. -/
def enter (s : Stream) (token : Token) : Stream :=
  let (s, isNew) := s.indentTo s.cursor.column
  if isNew then s.push token else s

/-- A token of a single character. -/
def sign (s : Stream) (token : Token) : Stream := (s.push token).moveTo s.cursor.next

/-- The end of the text. -/
def finish (s : Stream) : Except Failure Stream := do
  let s ← (s.unwind (-1)).forget
  pure { s.push .streamEnd with isDone := true }

/-- A mark that starts or ends a document. -/
def mark (s : Stream) (token : Token) : Except Failure Stream := do
  let s ← (s.unwind (-1)).forget
  pure (((s.allowing false).push token).moveTo (s.cursor.skip 3))

/-- A directive. -/
def directive (s : Stream) : Except Failure Stream := do
  let s ← (s.unwind (-1)).forget
  let (directive, c) ← Yaml.directive s.cursor
  pure (((s.allowing false).push (.directive directive)).moveTo c)

/-- An opening bracket or brace. -/
def opening (s : Stream) (token : Token) : Except Failure Stream := do
  let s ← s.remember
  pure { (s.sign token).allowing true with depth := s.depth + 1 }

/-- A closing bracket or brace. -/
def closing (s : Stream) (token : Token) : Except Failure Stream := do
  let s ← s.forget
  pure { (s.sign token).allowing false with depth := s.depth - 1 }

/-- A comma between brackets or braces. -/
def comma (s : Stream) : Except Failure Stream := do
  let s ← s.forget
  pure ((s.sign .comma).allowing true)

/-- The mark of an item. -/
def item (s : Stream) : Except Failure Stream := do
  if s.inBlock && !s.allowsName then throw .malformed
  let s ← (if s.inBlock then s.enter .listStart else s).forget
  pure ((s.sign .item).allowing true)

/-- The mark of a name that needs more than a line. -/
def key (s : Stream) : Except Failure Stream := do
  if s.inBlock && !s.allowsName then throw .malformed
  let s ← (if s.inBlock then s.enter .mappingStart else s).forget
  pure ((s.sign .key).allowing s.inBlock)

/-- The colon behind a name. -/
def value (s : Stream) : Except Failure Stream := do
  match s.candidate? with
  | some name =>
    let s := { s with candidates := s.candidates.filter fun (depth, _) => depth != s.depth }
    let s := s.insert name.position .key
    let (s, isNew) := if s.inBlock then s.indentTo name.column else (s, false)
    let s := if isNew then s.insert name.position .mappingStart else s
    pure ((s.sign .value).allowing false)
  | none =>
    if s.inBlock && !s.allowsName then throw .malformed
    let s ← (if s.inBlock then s.enter .mappingStart else s).forget
    pure ((s.sign .value).allowing s.inBlock)

/-- A token that can be a name or stand in front of one. -/
def word {α : Type} (s : Stream) (read : Cursor → Option (α × Cursor)) (token : α → Token) :
    Except Failure Stream := do
  let s ← s.remember
  match read s.cursor with
  | some (a, c) => pure (((s.allowing false).push (token a)).moveTo c)
  | none => throw .malformed

/-- A scalar in block notation. -/
def block (s : Stream) (isFolded : Bool) : Except Failure Stream := do
  let s ← s.forget
  match block? isFolded s.indent s.cursor with
  | some (text, c) =>
    pure (((s.allowing true).push (.scalar (onto [] text).reverse false)).moveTo c)
  | none => throw .malformed

/-- A scalar between quotes. -/
def quote (s : Stream) (quote : Char) : Except Failure Stream := do
  let s ← s.remember
  let (points, c) ← quoted quote s.cursor
  pure (((s.allowing false).push (.scalar points false)).moveTo c)

/-- A plain scalar. Behind the end of a line a name may start. -/
def plain (s : Stream) : Except Failure Stream := do
  let s ← s.remember
  let (text, c, ended) := Yaml.plain (!s.inBlock) (s.indent + 1) s.cursor
  pure (((s.allowing ended).push (.scalar (onto [] text).reverse true)).moveTo c)

/-- The place of the next token. In block notation a name may start in a new line. -/
def advance (s : Stream) : Stream :=
  let c := if s.cursor.index = 0 && s.cursor.sees '\uFEFF' then s.cursor.next else s.cursor
  let next := gap c
  { s with cursor := next, allowsName := s.allowsName || (s.inBlock && c.line < next.line) }

/-- Reads the token that follows, which starts with `a`. -/
def read (s : Stream) (a : Char) (rest : List Char) : Except Failure Stream :=
  let c := s.cursor
  let isMark := c.column = 0 && startsMark c.rest
  let stands := startsBlank rest
  if a = '%' && c.column = 0 then s.directive
  else if isMark then s.mark (if a = '-' then .documentStart else .documentEnd)
  else if a = '[' then s.opening .flowListStart
  else if a = '{' then s.opening .flowMappingStart
  else if a = ']' then s.closing .flowListEnd
  else if a = '}' then s.closing .flowMappingEnd
  else if a = ',' then s.comma
  else if a = '-' && stands then s.item
  else if a = '?' && (!s.inBlock || stands) then s.key
  else if a = ':' && (!s.inBlock || stands) then s.value
  else if a = '*' then s.word anchorName? .reference
  else if a = '&' then s.word anchorName? .anchor
  else if a = '!' then s.word tag? .tag
  else if a = '|' && s.inBlock then s.block false
  else if a = '>' && s.inBlock then s.block true
  else if a = '\'' || a = '"' then s.quote a
  else if startsPlain (!s.inBlock) c.rest then s.plain
  else .error .malformed

/-- Reads the next token. -/
def step (s : Stream) : Except Failure Stream := do
  let s ← s.advance.prune
  let s := s.unwind s.cursor.column
  match s.cursor.rest with
  | [] => s.finish
  | a :: rest => s.read a rest

/-- The tokens that are known: those before all candidates. -/
def known (s : Stream) : List Token :=
  let positions := s.candidates.map fun (_, candidate) => candidate.position
  (s.tokens.extract 0 (positions.foldl min s.tokens.size)).toList

/-- Reads tokens until the text ends or fails. -/
def run : Nat → Stream → Tokens
  | 0, s => ⟨s.known, .malformed⟩
  | fuel + 1, s =>
    if s.isDone then ⟨s.tokens.toList, .malformed⟩
    else
      match s.prune with
      | .error failure => ⟨s.known, failure⟩
      | .ok s =>
        match s.step with
        | .error failure => ⟨s.known, failure⟩
        | .ok s => run fuel s

end Stream

/-- The tokens of a text. -/
def Tokens.ofText (text : List Char) : Tokens := Stream.run (text.length + 2) (.start text)

end BrokerClient.Yaml
