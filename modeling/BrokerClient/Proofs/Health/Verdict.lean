import BrokerClient.Proofs.Health.Timeline
import Mathlib.Algebra.Order.Monoid.Defs
import Mathlib.Algebra.Order.Ring.Rat

/-!
# The verdict of a poll

A poll finds an application healthy only by a probe that is answered before the deadline, and gives
it up only when the deadline has come. The first probe that is answered well in time settles it, and
so does the first that raises what is not tolerated; refused and failed probes do not count more
than unhealthy answers do.
-/
namespace BrokerClient.Poll

/-- A clock goes the way that times are compared: what is later is not earlier, and a time that is
put off by nothing or less is no later. Exact times keep to this, and so do times of double
precision. -/
class Clock (τ : Type) [Add τ] [LT τ] [LE τ] [OfNat τ 0] : Prop where
  not_le_of_lt : ∀ {t u : τ}, t < u → ¬u ≤ t
  not_lt_add : ∀ {t length : τ}, length ≤ 0 → ¬t < t + length

instance {τ : Type} [AddZeroClass τ] [Preorder τ] [AddLeftMono τ] : Clock τ where
  not_le_of_lt := not_le_of_gt
  not_lt_add {t length} h := not_lt_of_ge (by simpa using add_le_add_right h t)

variable {τ : Type} [Add τ] [Sub τ] [LT τ] [DecidableLT τ] [OfNat τ 0]

/-- Two states differ in their logs at most. -/
structure State.Same (s s' : State τ) : Prop where
  now : s'.now = s.now
  probes : s'.probes = s.probes
  sleeps : s'.sleeps = s.sleeps

namespace Task

variable {task : Task τ} {start : τ} {n : Nat} {verdict : Verdict} {s : State τ}

/-- What a verdict says about the probes that were made. A state after the `n`-th probe, without
a sleep behind it, is `task.probed (task.before start n)`. -/
structure Judged (task : Task τ) (start : τ) (verdict : Verdict) (s : State τ) : Prop where
  opens : ∀ n < s.probes, task.opens start n < task.deadline
  healthy : ∀ n < s.probes, task.finding n = .healthy → task.closes start n < task.deadline →
    verdict = .ok true ∧ s = task.probed (task.before start n)
  broken : ∀ n < s.probes, ∀ r, task.finding n = .broken r →
    verdict = .error r ∧ s = task.probed (task.before start n)
  unhealthy : ∀ n < s.probes, task.finding n = .unhealthy → n + 1 < s.probes ∨ verdict = .ok false
  ofHealthy : verdict = .ok true → ∃ n, s.probes = n + 1 ∧ task.finding n = .healthy ∧
    s.now = task.closes start n ∧ s.now < task.deadline
  ofLate : verdict = .ok false → ¬s.now < task.deadline
  ofBroken : ∀ r, verdict = .error r → ∃ n, s.probes = n + 1 ∧ task.finding n = .broken r

/-- A probe that was made is one after which the poll went on, or the one that ended it. -/
theorem EndsAt.goesOn_or_last (h : task.EndsAt start n verdict s) {m : Nat} (hm : m < s.probes) :
    task.GoesOn start m ∨ m = n ∧ task.opens start n < task.deadline := by
  obtain ⟨hgoesOn, hends⟩ := h
  cases hends with
  | late => exact .inl (hgoesOn m hm)
  | broken hopens | healthy hopens =>
    obtain hlt | rfl := Nat.lt_succ_iff_lt_or_eq.mp hm
    · exact .inl (hgoesOn m hlt)
    · exact .inr ⟨rfl, hopens⟩

theorem EndsAt.opens (h : task.EndsAt start n verdict s) {m : Nat} (hm : m < s.probes) :
    task.opens start m < task.deadline := by
  obtain hgoesOn | ⟨rfl, hopens⟩ := h.goesOn_or_last hm
  · exact hgoesOn.1
  · exact hopens

theorem EndsAt.judged (h : task.EndsAt start n verdict s) : task.Judged start verdict s where
  opens _ := h.opens
  healthy m hm hhealthy hcloses := by
    obtain hgoesOn | ⟨rfl, hopens⟩ := h.goesOn_or_last hm
    · exact absurd hgoesOn (Ends.healthy (hgoesOn.1) hhealthy hcloses).not_goesOn
    · exact h.ends.unique (.healthy hopens hhealthy hcloses)
  broken m hm r hbroken := by
    obtain hgoesOn | ⟨rfl, hopens⟩ := h.goesOn_or_last hm
    · exact absurd hgoesOn (Ends.broken (hgoesOn.1) hbroken).not_goesOn
    · exact h.ends.unique (.broken hopens hbroken)
  unhealthy m hm hunhealthy := by
    obtain ⟨-, hends⟩ := h
    cases hends with
    | late => exact .inr rfl
    | broken _ hfinding | healthy _ hfinding =>
      obtain hlt | rfl := Nat.lt_succ_iff_lt_or_eq.mp hm
      · exact .inl (Nat.succ_lt_succ hlt)
      · simp [hfinding] at hunhealthy
  ofHealthy hverdict := by
    obtain ⟨-, hends⟩ := h
    cases hends with
    | healthy _ hhealthy hcloses => exact ⟨n, rfl, hhealthy, rfl, hcloses⟩
    | late | broken => cases hverdict
  ofLate hverdict := by
    obtain ⟨-, hends⟩ := h
    cases hends with
    | late hlate => exact hlate
    | healthy | broken => cases hverdict
  ofBroken r hverdict := by
    obtain ⟨-, hends⟩ := h
    cases hends with
    | broken _ hbroken => exact ⟨n, rfl, Except.error.inj hverdict ▸ hbroken⟩
    | late | healthy => cases hverdict

/-- Two polls with the same times whose probes come to the same. -/
structure Alike (task task' : Task τ) : Prop where
  deadline : task'.deadline = task.deadline
  interval : task'.interval = task.interval
  cost : ∀ n, (task'.probe n).cost = (task.probe n).cost
  finding : ∀ n, task'.finding n = task.finding n

namespace Alike

variable {task' : Task τ}

omit [Add τ] in
theorem rest? (h : task.Alike task') (finish : τ) : task'.rest? finish = task.rest? finish := by
  simp only [Task.rest?, h.deadline, h.interval]

theorem opens (h : task.Alike task') : task'.opens start n = task.opens start n := by
  induction n with
  | zero => rfl
  | succ n ih => simp only [opens_succ, closes, ih, h.cost, h.rest?]

theorem closes (h : task.Alike task') : task'.closes start n = task.closes start n := by
  simp only [Task.closes, h.opens, h.cost]

theorem goesOn (h : task.Alike task') (hgoesOn : task.GoesOn start n) :
    task'.GoesOn start n := by
  simpa only [GoesOn, h.opens, h.closes, h.deadline, h.finding] using hgoesOn

theorem same_before (h : task.Alike task') :
    (task.before start n).Same (task'.before start n) where
  now := h.opens
  probes := rfl
  sleeps := by simp only [before, h.closes, h.rest?]

theorem same_probed (h : task.Alike task') :
    (task.probed (task.before start n)).Same (task'.probed (task'.before start n)) :=
  ⟨h.closes, rfl, h.same_before.sleeps⟩

/-- Polls that are alike end in the same round, at the same time and with the same verdict. -/
theorem endsAt (h : task.Alike task') (hends : task.EndsAt start n verdict s) :
    ∃ s', task'.EndsAt start n verdict s' ∧ s.Same s' := by
  have hgoesOn m (hm : m < n) : task'.GoesOn start m := h.goesOn (hends.goesOn m hm)
  cases hends.ends with
  | late hlate =>
    have hlate' : ¬task'.opens start n < task'.deadline := by rwa [h.opens, h.deadline]
    exact ⟨_, ⟨hgoesOn, .late hlate'⟩, h.same_before⟩
  | broken hopens hbroken =>
    have hopens' : task'.opens start n < task'.deadline := by rwa [h.opens, h.deadline]
    have hbroken' := (h.finding n).trans hbroken
    exact ⟨_, ⟨hgoesOn, .broken hopens' hbroken'⟩, h.same_probed⟩
  | healthy hopens hhealthy hcloses =>
    have hopens' : task'.opens start n < task'.deadline := by rwa [h.opens, h.deadline]
    have hcloses' : task'.closes start n < task'.deadline := by rwa [h.closes, h.deadline]
    have hhealthy' := (h.finding n).trans hhealthy
    exact ⟨_, ⟨hgoesOn, .healthy hopens' hhealthy' hcloses'⟩, h.same_probed⟩

end Alike

end Task

/-- Every probe of the one poll takes as long as that of the other, and where it does not come to
the same, both fail. -/
def Interchangeable (check : HealthCheck) (probe probe' : Nat → Probe τ) : Prop :=
  ∀ n, (probe' n).cost = (probe n).cost ∧
    ((probe' n).outcome = (probe n).outcome ∨
      Fails check (probe n).outcome ∧ Fails check (probe' n).outcome)

omit [Add τ] [Sub τ] [LT τ] [DecidableLT τ] [OfNat τ 0] in
theorem Interchangeable.alike {check : HealthCheck} {probe probe' : Nat → Probe τ}
    (h : Interchangeable check probe probe') (url : String) (deadline interval : τ) :
    Task.Alike ⟨url, check, deadline, interval, probe⟩
      ⟨url, check, deadline, interval, probe'⟩ where
  deadline := rfl
  interval := rfl
  cost n := (h n).1
  finding n := by
    obtain hsame | ⟨hfails, hfails'⟩ := (h n).2
    · exact congrArg (Finding.ofReply check) hsame
    · exact (Finding.ofReply_eq_unhealthy.mpr hfails').trans
        (Finding.ofReply_eq_unhealthy.mpr hfails).symm

variable [LE τ] [DecidableLE τ] [Clock τ] (describe : τ → String) (url : String)
  (check : HealthCheck) (timeout : τ) {interval : τ} (probe : Nat → Probe τ) (start : τ)

/-- A poll at a positive interval is run. It has a verdict as soon as it is run long enough for the
round that it ends in. -/
theorem wait_eq_some (hinterval : 0 < interval) {fuel : Nat} {verdict : Verdict} {s : State τ} :
    wait describe url check timeout interval probe fuel start = (some verdict, s) ↔
      ∃ n < fuel, Task.EndsAt ⟨url, check, start + timeout, interval, probe⟩ start n verdict s := by
  have hrun : wait describe url check timeout interval probe fuel start =
      Task.run ⟨url, check, start + timeout, interval, probe⟩ fuel (.start start) :=
    if_neg (Clock.not_le_of_lt hinterval)
  rw [hrun, Task.run_start]

/-- A poll ends in the first round that ends it by the clock and by what the probe comes to, and its
verdict says what is said of it above. Probes that fail are as good as each other: which of them
fail by a refusal, by a failure or by an unhealthy answer makes no difference but to the log.
Without any time to wait there is no probe. -/
theorem wait_judges (hinterval : 0 < interval) :
    let task : Task τ := ⟨url, check, start + timeout, interval, probe⟩
    (∀ fuel verdict s,
      wait describe url check timeout interval probe fuel start = (some verdict, s) ↔
        ∃ n < fuel, task.EndsAt start n verdict s) ∧
    (∀ n verdict s, task.EndsAt start n verdict s → task.Judged start verdict s) ∧
    (∀ probe', Interchangeable check probe probe' → ∀ fuel verdict s,
      wait describe url check timeout interval probe fuel start = (some verdict, s) →
        ∃ s', wait describe url check timeout interval probe' fuel start = (some verdict, s') ∧
          s.Same s') ∧
    (timeout ≤ 0 → ∀ fuel,
      wait describe url check timeout interval probe (fuel + 1) start =
        (some (.ok false), .start start)) := by
  refine ⟨fun fuel verdict s => wait_eq_some _ _ _ _ _ _ hinterval,
    fun n verdict s => Task.EndsAt.judged, ?_, fun htimeout fuel => ?_⟩
  · intro probe' hprobe fuel verdict s hwait
    obtain ⟨n, hn, hends⟩ := (wait_eq_some _ _ _ _ _ _ hinterval).mp hwait
    obtain ⟨s', hends', hsame⟩ := (hprobe.alike url (start + timeout) interval).endsAt hends
    exact ⟨s', (wait_eq_some _ _ _ _ _ _ hinterval).mpr ⟨n, hn, hends'⟩, hsame⟩
  · exact (wait_eq_some _ _ _ _ _ _ hinterval).mpr
      ⟨0, fuel.succ_pos, nofun, .late (Clock.not_lt_add htimeout)⟩

/-! ## A poll that ends well -/

/-- A connection that is refused, an answer that is not healthy yet, and a healthy one. -/
def stagedProbe : Nat → Probe ℚ
  | 0 => ⟨1 / 4, .error (.fault (.system ⟨.connectionRefused, "refused"⟩))⟩
  | 1 => ⟨0, .ok (.text "starting")⟩
  | _ => ⟨0, .ok (.text "1")⟩

/-- The poll of these probes for two seconds. -/
def stagedTask : Task ℚ := ⟨"https://a/health", .ofKind .generic, 0 + 2, 1 / 2, stagedProbe⟩

theorem endsAt_staged :
    stagedTask.EndsAt 0 2 (.ok true) (stagedTask.probed (stagedTask.before 0 2)) where
  goesOn
    | 0, _ => ⟨by decide +kernel, .inl rfl⟩
    | 1, _ => by
      have hstarting : stagedTask.check.isHealthy (.text "starting") = .ok false :=
        congrArg Except.ok (by decide +kernel)
      exact ⟨by decide +kernel, .inl (Finding.ofReply_eq_unhealthy.mpr (.unhealthy hstarting))⟩
  ends := by
    have hone : stagedTask.check.isHealthy (.text "1") = .ok true :=
      congrArg Except.ok (by decide +kernel)
    exact .healthy (by decide +kernel) (Finding.ofReply_of_healthy hone) (by decide +kernel)

theorem judged_staged : 0 < (1 / 2 : ℚ) ∧ ∃ s,
    wait toString "https://a/health" (.ofKind .generic) 2 (1 / 2) stagedProbe 3 0 =
      (some (.ok true), s) ∧ stagedTask.Judged 0 (.ok true) s := by
  have hinterval : (0 : ℚ) < 1 / 2 := by decide +kernel
  obtain ⟨hruns, hjudged, -⟩ :=
    wait_judges toString "https://a/health" (.ofKind .generic) 2 stagedProbe 0 hinterval
  exact ⟨hinterval, _, (hruns 3 _ _).mpr ⟨2, by decide, endsAt_staged⟩, hjudged 2 _ _ endsAt_staged⟩

end BrokerClient.Poll
