import BrokerClient.Value
import Mathlib.Data.String.Basic

/-!
# Texts that are sent

Every value is sent as a text that says something: only the empty text is sent as an empty text.
A number has a digit at least, a list has its brackets and a text with quotes has the quotes. A
torn text has the half that it is torn at.
-/
namespace BrokerClient

namespace Decimal

theorem layOut_ne_nil (digits : List Char) (place : Int) : layOut digits place ≠ [] := by
  unfold layOut
  dsimp only
  split
  · split
    · simp
    · split <;> simp
  · simp

theorem floatText_ne_empty (x : Float) : floatText x ≠ "" := by
  unfold floatText
  dsimp only
  split
  · decide
  · split
    · simp
    · split
      · simp
      · simp [layOut_ne_nil]

end Decimal

theorem Text.toString_ne_empty (n : Int) : toString n ≠ "" := by
  cases n with
  | ofNat n => exact Nat.repr_ne_empty
  | negSucc n => exact fun h => by simp [toString, Int.repr] at h

theorem Text.quotedBytes_ne_empty (data : List UInt8) : Text.quotedBytes data ≠ "" := by
  simp [Text.quotedBytes]

theorem Text.spelledPoint_ne_nil (point : Nat) : Text.spelledPoint point ≠ [] := by
  unfold Text.spelledPoint
  split_ifs <;> simp

theorem Text.ofPoints_ne_empty {points : List Nat} (h : points ≠ []) :
    Text.ofPoints points ≠ "" := by
  obtain ⟨point, rest, rfl⟩ := List.exists_cons_of_ne_nil h
  simp [Text.ofPoints, Text.spelledPoint_ne_nil]

namespace Value

/-- A torn text has a half of a surrogate pair in it; any other value is as it should be. -/
def isFormed : Value → Bool
  | torn points => points.any Text.isHalf
  | _ => true

theorem isFormed_ofPoints (points : List Nat) : (ofPoints points).isFormed = true := by
  unfold ofPoints
  split
  · assumption
  · rfl

theorem wireText_ne_empty {v : Value} (hv : v.isFormed = true) (h : v ≠ .str "") :
    v.wireText ≠ "" := by
  cases v with
  | null => decide
  | bool b => cases b <;> decide
  | int n => exact Text.toString_ne_empty n
  | float x => exact Decimal.floatText_ne_empty x
  | str s => exact fun hs => h (congrArg str hs)
  | torn points => exact Text.ofPoints_ne_empty fun hnil => by simp [isFormed, hnil] at hv
  | bytes data => exact Text.quotedBytes_ne_empty data
  | word w => cases w <;> decide
  | thing kind name => simp [wireText, text]
  | arr items => simp [wireText, text, inner]
  | obj fields => simp [wireText, text, inner]

end Value

end BrokerClient
