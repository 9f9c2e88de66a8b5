import BrokerClient.Text.Quoted

/-!
# Code points that are no characters

A text that is spelled with escapes can name halves of surrogate pairs. A half that stands
alone is no character, but it is part of the text: two texts with different halves are
different names. So a text marks its halves. The mark is the last code point, which is
assigned to nothing, and the character behind it says which half it is; a mark that is part of
the text is doubled. Main statement: the code points of a text can be read back from it, so
texts are equal only if their code points are.
-/
namespace BrokerClient.Text

/-- A half of a surrogate pair. -/
def isHalf (point : Nat) : Bool := 0xD800 ≤ point && point < 0xE000

/-- The mark in front of a half. -/
def mark : Char := Char.ofNat 0x10FFFF

/-- The character that stands for a half behind a mark. -/
def halfSign (point : Nat) : Char := Char.ofNat (0x100000 + (point - 0xD800))

/-- A code point in a text. -/
def spelledPoint (point : Nat) : List Char :=
  if isHalf point then [mark, halfSign point]
  else if point = mark.toNat then [mark, mark]
  else [Char.ofNat point]

/-- The text of code points. -/
def ofPoints (points : List Nat) : String := String.ofList (points.flatMap spelledPoint)

/-- The code point that a character behind a mark stands for. -/
def markedPoint (c : Char) : Nat := if c = mark then mark.toNat else 0xD800 + (c.toNat - 0x100000)

/-- The code points of characters; halves and marks are marked. -/
def pointsOf : List Char → List Nat
  | [] => []
  | [c] => [c.toNat]
  | c :: c' :: rest =>
    if c = mark then markedPoint c' :: pointsOf rest else c.toNat :: pointsOf (c' :: rest)

/-- The code points of a text. -/
def points (text : String) : List Nat := pointsOf text.toList

/-- Code points between quotes. -/
def quotedPoints (points : List Nat) : String :=
  let quote := quoteFor (points.map Char.ofNat)
  let inner := points.flatMap fun point =>
    if isHalf point then '\\' :: 'u' :: hexDigits 4 point else quoteChar quote (Char.ofNat point)
  String.ofList (quote :: inner ++ [quote])

/-- A text between quotes. -/
def quoted (text : String) : String := quotedPoints (points text)

/-- The code points of a text, each as a text. -/
def letters (text : String) : List String := (points text).map fun point => ofPoints [point]

@[simp] theorem ofPoints_nil : ofPoints [] = "" := rfl

/-! ## Code points read back -/

theorem toNat_ofNat {point : Nat} (h : point < 0x110000) (hhalf : isHalf point = false) :
    (Char.ofNat point).toNat = point := by
  have hvalid : point.isValidChar := by
    simp [isHalf] at hhalf
    simp only [Nat.isValidChar]
    omega
  rw [Char.ofNat, dif_pos hvalid]
  rfl

theorem ofNat_ne_mark {point : Nat} (h : point < 0x110000) (hhalf : isHalf point = false)
    (hmark : point ≠ mark.toNat) : Char.ofNat point ≠ mark :=
  fun hc => hmark ((toNat_ofNat h hhalf).symm.trans (congrArg Char.toNat hc))

theorem pointsOf_mark (c : Char) (rest : List Char) :
    pointsOf (mark :: c :: rest) = markedPoint c :: pointsOf rest := by
  rw [pointsOf, if_pos rfl]

theorem pointsOf_of_ne_mark {c : Char} (h : c ≠ mark) (rest : List Char) :
    pointsOf (c :: rest) = c.toNat :: pointsOf rest := by
  cases rest with
  | nil => rfl
  | cons c' rest => rw [pointsOf, if_neg h]

theorem markedPoint_halfSign {point : Nat} (h : isHalf point = true) :
    markedPoint (halfSign point) = point := by
  simp [isHalf] at h
  have hsign : (halfSign point).toNat = 0x100000 + (point - 0xD800) :=
    toNat_ofNat (by omega) (by simp [isHalf]; omega)
  have hne : halfSign point ≠ mark := fun hc => by
    have hlast := congrArg Char.toNat hc
    rw [hsign, show mark.toNat = 0x10FFFF from rfl] at hlast
    omega
  rw [markedPoint, if_neg hne, hsign]
  omega

/-- A code point is read back from the front of a text. -/
theorem pointsOf_spelledPoint {point : Nat} (h : point < 0x110000) (rest : List Char) :
    pointsOf (spelledPoint point ++ rest) = point :: pointsOf rest := by
  unfold spelledPoint
  split
  case isTrue hhalf =>
    rw [List.cons_append, List.cons_append, List.nil_append, pointsOf_mark,
      markedPoint_halfSign hhalf]
  case isFalse hhalf =>
    rw [Bool.not_eq_true] at hhalf
    split
    case isTrue hmark =>
      rw [List.cons_append, List.cons_append, List.nil_append, pointsOf_mark, markedPoint,
        if_pos rfl, hmark]
    case isFalse hmark =>
      rw [List.cons_append, List.nil_append, pointsOf_of_ne_mark (ofNat_ne_mark h hhalf hmark),
        toNat_ofNat h hhalf]

/-- Code points are read back from their text. -/
theorem points_ofPoints {ps : List Nat} (h : ∀ point ∈ ps, point < 0x110000) :
    points (ofPoints ps) = ps := by
  rw [points, ofPoints, String.toList_ofList]
  induction ps with
  | nil => rfl
  | cons point rest ih =>
    obtain ⟨hpoint, hrest⟩ := List.forall_mem_cons.mp h
    rw [List.flatMap_cons, pointsOf_spelledPoint hpoint, ih hrest]

/-- Texts are equal only if their code points are. -/
theorem ofPoints_inj {ps qs : List Nat} (hps : ∀ point ∈ ps, point < 0x110000)
    (hqs : ∀ point ∈ qs, point < 0x110000) : ofPoints ps = ofPoints qs ↔ ps = qs := by
  refine ⟨fun h => ?_, congrArg ofPoints⟩
  rw [← points_ofPoints hps, h, points_ofPoints hqs]

end BrokerClient.Text
