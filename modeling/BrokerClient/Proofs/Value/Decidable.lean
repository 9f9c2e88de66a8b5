import BrokerClient.Value

/-!
# Deciding that two values are the same

Values are compared as they stand, through lists and objects and in the order of their fields. That
is finer than the equality of callers, for whom one and true are equal.
-/
namespace BrokerClient.Value

mutual

/-- Two values are built alike. -/
def alike : Value → Value → Bool
  | null, null => true
  | bool b, bool c => b == c
  | int n, int m => n == m
  | float x, float y => decide (x = y)
  | str s, str t => s == t
  | torn points, torn others => points == others
  | bytes data, bytes others => data == others
  | word w, word w' => w == w'
  | thing kind name, thing kind' name' => kind == kind' && name == name'
  | arr items, arr others => areAlike items others
  | obj fields, obj others => holdAlike fields others
  | _, _ => false

/-- The items of two lists are built alike. -/
def areAlike : List Value → List Value → Bool
  | [], [] => true
  | v :: rest, w :: others => alike v w && areAlike rest others
  | _, _ => false

/-- The fields of two objects have the same names, and their values are built alike. -/
def holdAlike : List (String × Value) → List (String × Value) → Bool
  | [], [] => true
  | (name, v) :: rest, (name', w) :: others => name == name' && alike v w && holdAlike rest others
  | _, _ => false

end

mutual

theorem alike_iff : ∀ v w : Value, alike v w = true ↔ v = w
  | null, w | bool _, w | int _, w | float _, w | str _, w | torn _, w | bytes _, w | word _, w
  | thing .., w => by cases w <;> simp [alike]
  | arr items, w => by
    cases w with
    | arr others => simpa [alike] using areAlike_iff items others
    | _ => simp [alike]
  | obj fields, w => by
    cases w with
    | obj others => simpa [alike] using holdAlike_iff fields others
    | _ => simp [alike]

theorem areAlike_iff : ∀ items others : List Value, areAlike items others = true ↔ items = others
  | [], others => by cases others <;> simp [areAlike]
  | v :: rest, others => by
    cases others with
    | nil => simp [areAlike]
    | cons w others => simp [areAlike, alike_iff v w, areAlike_iff rest others]

theorem holdAlike_iff :
    ∀ fields others : List (String × Value), holdAlike fields others = true ↔ fields = others
  | [], others => by cases others <;> simp [holdAlike]
  | (name, v) :: rest, others => by
    cases others with
    | nil => simp [holdAlike]
    | cons pair others =>
      obtain ⟨name', w⟩ := pair
      simp [holdAlike, alike_iff v w, holdAlike_iff rest others]

end

instance : DecidableEq Value := fun v w => decidable_of_iff _ (alike_iff v w)

end BrokerClient.Value
