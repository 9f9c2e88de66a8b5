import BrokerClient.Yaml.Cursor

/-!
# Quoted scalars

Between single quotes a quote is written twice and everything else stands for itself.
Between double quotes a backslash starts an escape: a letter, a code in hexadecimal digits,
or the end of a line, which is dropped with the blanks in front of the next one. Line breaks
are folded, the blanks around them are dropped, and a document mark inside of a quoted scalar
is an error.
-/
namespace BrokerClient.Yaml

/-- The character of an escape that is a single letter. -/
def escapeLetter? : Char → Option Char
  | '0' => some '\x00'
  | 'a' => some '\x07'
  | 'b' => some '\x08'
  | 't' => some '\t'
  | '\t' => some '\t'
  | 'n' => some '\n'
  | 'v' => some '\x0b'
  | 'f' => some '\x0c'
  | 'r' => some '\r'
  | 'e' => some '\x1b'
  | ' ' => some ' '
  | '"' => some '"'
  | '\\' => some '\\'
  | '/' => some '/'
  | 'N' => some '\x85'
  | '_' => some '\xa0'
  | 'L' => some '\u2028'
  | 'P' => some '\u2029'
  | _ => none

/-- The number of digits in an escape by code. -/
def escapeWidth? : Char → Option Nat
  | 'x' => some 2
  | 'u' => some 4
  | 'U' => some 8
  | _ => none

/-- The value of hexadecimal digits. -/
def hexValue? (digits : List Char) : Option Nat :=
  digits.foldlM (fun value d => (Json.hexDigit? d).map (value * 16 + ·)) 0

/-- The code point that `width` hexadecimal digits in front of a text name. -/
def codePoint (width : Nat) (text : List Char) : Except Failure Nat :=
  match hexValue? (text.take width) with
  | none => .error .malformed
  | some code =>
    if text.length < width then .error .malformed
    else if code < 0x110000 then .ok code
    else if code < 0x80000000 then .error .noSuchCharacter
    else .error .oversizedCode

/-- Blanks and line breaks from the start of a line on: the breaks and the place after. -/
def innerBreaks : Nat → Cursor → Except Failure (List Char × Cursor)
  | 0, _ => .error .malformed
  | fuel + 1, c =>
    if startsMark c.rest then .error .malformed
    else
      let c := (c.span isBlank).2
      match c.lineBreak? with
      | none => .ok ([], c)
      | some (a, c) => do
        let (breaks, c) ← innerBreaks fuel c
        pure (a :: breaks, c)

/-- Characters as code points, in front of others that are listed last first. -/
def onto (points : List Nat) (chars : List Char) : List Nat :=
  chars.foldl (fun points a => a.toNat :: points) points

/-- The rest of a quoted scalar whose opening quote has been read; `points` holds its code
points so far, last first. -/
def quotedTail (quote : Char) : Nat → List Nat → Cursor → Except Failure (List Nat × Cursor)
  | 0, _, _ => .error .malformed
  | fuel + 1, points, c =>
    match c.rest with
    | [] => .error .malformed
    | a :: rest =>
      if a = quote then
        if quote = '\'' && rest.head? == some '\'' then
          quotedTail quote fuel (onto points [a]) (c.skip 2)
        else .ok (points.reverse, c.next)
      else if isBlank a || isBreak a then
        let (blanks, c) := c.span isBlank
        match c.lineBreak? with
        | some (first, c) => do
          let (others, c) ← innerBreaks (c.rest.length + 1) c
          quotedTail quote fuel (onto points (folded first others)) c
        | none => quotedTail quote fuel (onto points blanks) c
      else if quote = '"' && a = '\\' then
        let c := c.next
        match c.lineBreak?, rest with
        | some (_, c), _ => do
          let (breaks, c) ← innerBreaks (c.rest.length + 1) c
          quotedTail quote fuel (onto points breaks) c
        | none, [] => .error .malformed
        | none, e :: digits =>
          match escapeLetter? e, escapeWidth? e with
          | some a, _ => quotedTail quote fuel (onto points [a]) c.next
          | none, some width => do
            let point ← codePoint width digits
            quotedTail quote fuel (point :: points) (c.skip (width + 1))
          | none, none => .error .malformed
      else quotedTail quote fuel (onto points [a]) c.next

/-- The scalar between the quote that follows and its counterpart, as code points. -/
def quoted (quote : Char) (c : Cursor) : Except Failure (List Nat × Cursor) :=
  quotedTail quote (c.rest.length + 1) [] c.next

end BrokerClient.Yaml
