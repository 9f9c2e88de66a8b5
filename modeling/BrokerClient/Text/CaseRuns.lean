/-!
# Runs of letters with the same way to the other case

In many scripts the letters of one case lie at the same distance from those of the other,
next to each other or every second one. A table of such runs gives the one-to-one change of
case.
-/
namespace BrokerClient.Text

/-- Runs of letters: first and last code point, the step between the members, and what is
added to a member to get the letter of the other case. -/
abbrev CaseRuns := Array (Nat × Nat × Nat × Int)

/-- The letter of the other case; a character in no run stays as it is. -/
def CaseRuns.shift (runs : CaseRuns) (c : Char) : Char :=
  match runs.find? fun (first, last, step, _) =>
      first ≤ c.toNat && c.toNat ≤ last && (c.toNat - first) % step == 0 with
  | some (_, _, _, distance) => Char.ofNat (c.toNat + distance).toNat
  | none => c

@[simp] theorem CaseRuns.shift_empty (c : Char) : CaseRuns.shift #[] c = c := by
  simp [CaseRuns.shift]

end BrokerClient.Text
