import BrokerClient.Text.CharacterClass

/-!
# White space and trimming

The white space of Unicode, with the four separator controls `U+001C` to `U+001F`.
`U+200B` and `U+FEFF` are not white space. `strip` removes it at both ends of a
text, `trim` all of it but the separator controls; a text is blank when nothing else than
white space is in it.
-/
namespace BrokerClient.Text

/-- The ranges of white space. -/
def blankRanges : CodeRanges := #[
  (0x9, 0xd), (0x1c, 0x20), (0x85, 0x85), (0xa0, 0xa0), (0x1680, 0x1680), (0x2000, 0x200a),
  (0x2028, 0x2029), (0x202f, 0x202f), (0x205f, 0x205f), (0x3000, 0x3000)
]

/-- White space of Unicode, the separator controls included. -/
def isBlankChar (c : Char) : Bool := blankRanges.contains c

/-- Drops the characters of a class at the end. -/
def dropEnd (drop : Char → Bool) (text : List Char) : List Char :=
  (text.reverse.dropWhile drop).reverse

/-- Removes the characters of a class at both ends. -/
def dropEnds (drop : Char → Bool) (text : String) : String :=
  String.ofList (dropEnd drop (text.toList.dropWhile drop))

/-- Removes the white space at both ends. -/
def strip (text : String) : String := dropEnds isBlankChar text

/-- Removes the white space at both ends, but for the separator controls. -/
def trim (text : String) : String :=
  dropEnds (fun c => isBlankChar c && !(0x1c ≤ c.toNat && c.toNat ≤ 0x1f)) text

/-- A text of white space alone, the empty text included. -/
def isBlank (text : String) : Bool := text.toList.all isBlankChar

@[simp] theorem dropEnd_nil (drop : Char → Bool) : dropEnd drop [] = [] := rfl

/-- One more dropped character at the end changes nothing. -/
theorem dropEnd_concat (drop : Char → Bool) (text : List Char) {c : Char} (h : drop c = true) :
    dropEnd drop (text ++ [c]) = dropEnd drop text := by
  simp [dropEnd, h]

end BrokerClient.Text
