import BrokerClient.Proofs.Health.Verdict
import Mathlib.Data.Rat.Floor
import Mathlib.Tactic.Linarith

/-!
# The pace of a poll

With exact times a poll is over after as many rounds as intervals fit into its time, and one more.
Between two probes it sleeps once, for no longer than the interval and never beyond the deadline, so
each probe but the last one brings the clock on by an interval at least. It comes back at the
deadline, unless the last probe ran across it.
-/
namespace BrokerClient.Poll

theorem earlier_eq_min (a b : ℚ) : earlier a b = min a b := by
  rw [earlier, min_def]
  split_ifs <;> first | rfl | linarith

theorem later_eq_max (a b : ℚ) : later a b = max a b := by
  rw [later, max_def]
  split_ifs <;> first | rfl | linarith

namespace Task

variable {task : Task ℚ} {start : ℚ} {n : ℕ}

/-- The length of the sleep after the `n`-th probe, if it is over before the deadline. -/
def sleepAfter (task : Task ℚ) (start : ℚ) (n : ℕ) : ℚ :=
  min task.interval (task.deadline - task.closes start n)

theorem rest?_of_lt (h : task.closes start n < task.deadline) :
    task.rest? (task.closes start n) = some (task.sleepAfter start n) := by
  rw [sleepAfter, ← earlier_eq_min]
  exact if_pos (sub_pos.mpr h)

theorem rest?_of_le (h : task.deadline ≤ task.closes start n) :
    task.rest? (task.closes start n) = none :=
  if_neg (not_lt.mpr (sub_nonpos.mpr h))

theorem opens_succ_of_lt (h : task.closes start n < task.deadline) :
    task.opens start (n + 1) = task.closes start n + task.sleepAfter start n := by
  rw [opens_succ, rest?_of_lt h]

theorem opens_succ_of_le (h : task.deadline ≤ task.closes start n) :
    task.opens start (n + 1) = task.closes start n := by
  rw [opens_succ, rest?_of_le h]

theorem closes_of_opens_succ (h : task.opens start (n + 1) < task.deadline) :
    task.closes start n < task.deadline := by
  by_contra hle
  rw [opens_succ_of_le (not_lt.mp hle)] at h
  exact hle h

theorem sleepAfter_pos (hinterval : 0 < task.interval)
    (h : task.closes start n < task.deadline) : 0 < task.sleepAfter start n :=
  lt_min hinterval (sub_pos.mpr h)

theorem sleepAfter_le : task.sleepAfter start n ≤ task.interval := min_le_left _ _

theorem closes_add_sleepAfter_le :
    task.closes start n + task.sleepAfter start n ≤ task.deadline := by
  have hle : task.sleepAfter start n ≤ task.deadline - task.closes start n := min_le_right _ _
  linarith

/-- A sleep that ends before the deadline has the length of the interval. -/
theorem opens_succ_eq (h : task.opens start (n + 1) < task.deadline) :
    task.opens start (n + 1) = task.closes start n + task.interval := by
  have hopens := opens_succ_of_lt (closes_of_opens_succ h)
  obtain hmin | hmin := min_choice task.interval (task.deadline - task.closes start n)
  · rw [hopens, sleepAfter, hmin]
  · rw [hopens, sleepAfter, hmin] at h
    linarith

/-! ## The number of probes -/

/-- The number of intervals that fit into the time of a poll, the last one perhaps in part. -/
def intervals (task : Task ℚ) (start : ℚ) : ℕ := ⌈(task.deadline - start) / task.interval⌉₊

/-- Every probe comes an interval after the one before it, or later. -/
theorem start_add_le_opens (hcost : ∀ m, 0 ≤ (task.probe m).cost)
    (hopens : ∀ m ≤ n, task.opens start m < task.deadline) :
    start + n * task.interval ≤ task.opens start n := by
  induction n with
  | zero => simp [opens]
  | succ n ih =>
    have hbefore := ih fun m hm => hopens m (hm.trans n.le_succ)
    have hnext := opens_succ_eq (hopens (n + 1) le_rfl)
    have hclose : task.closes start n = task.opens start n + (task.probe n).cost := rfl
    have hn := hcost n
    push_cast
    linarith

theorem lt_intervals (hinterval : 0 < task.interval) (hcost : ∀ m, 0 ≤ (task.probe m).cost)
    (hopens : ∀ m ≤ n, task.opens start m < task.deadline) : n < task.intervals start := by
  have hstart := start_add_le_opens hcost hopens
  have hlast := hopens n le_rfl
  rw [intervals, Nat.lt_ceil, lt_div_iff₀ hinterval]
  linarith

/-- A poll comes to an end, after no more probes than there are intervals. -/
theorem exists_endsAt (task : Task ℚ) (start : ℚ) (hinterval : 0 < task.interval)
    (hcost : ∀ m, 0 ≤ (task.probe m).cost) :
    ∃ n ≤ task.intervals start, ∃ verdict s, task.EndsAt start n verdict s := by
  classical
  have hbound {n : ℕ} (hgoesOn : ∀ m ≤ n, task.GoesOn start m) : n < task.intervals start :=
    lt_intervals hinterval hcost fun m hm => (hgoesOn m hm).1
  have hstops : ∃ n, ¬task.GoesOn start n := by
    by_contra hnone
    rw [not_exists] at hnone
    exact lt_irrefl (task.intervals start) (hbound fun m _ => not_not.mp (hnone m))
  have hgoesOn m (hm : m < Nat.find hstops) : task.GoesOn start m :=
    not_not.mp (Nat.find_min hstops hm)
  obtain ⟨verdict, s, hends⟩ | hgoes := task.ends_or_goesOn start (Nat.find hstops)
  · refine ⟨Nat.find hstops, ?_, verdict, s, hgoesOn, hends⟩
    by_contra hlt
    exact lt_irrefl _ (hbound fun m hm => hgoesOn m (hm.trans_lt (not_le.mp hlt)))
  · exact absurd hgoes (Nat.find_spec hstops)

variable {verdict : Verdict} {s : State ℚ}

theorem EndsAt.probes_le (h : task.EndsAt start n verdict s) (hinterval : 0 < task.interval)
    (hcost : ∀ m, 0 ≤ (task.probe m).cost) : s.probes ≤ task.intervals start := by
  obtain hnone | ⟨m, hm⟩ : s.probes = 0 ∨ ∃ m, s.probes = m + 1 := by
    cases s.probes <;> simp
  · omega
  · rw [hm]
    exact lt_intervals hinterval hcost fun k hk => h.opens (by omega)

/-! ## The sleeps -/

/-- How a poll that is over has slept: once between two probes, from the end of the one to the start
of the other, and perhaps once after the last one. -/
structure Sleeps (task : Task ℚ) (start : ℚ) (s : State ℚ) : Prop where
  count : s.sleeps.length ≤ s.probes ∧ s.probes ≤ s.sleeps.length + 1
  length : ∀ m length, s.sleeps[m]? = some length → 0 < length ∧ length ≤ task.interval ∧
    task.opens start (m + 1) = task.closes start m + length ∧
    task.opens start (m + 1) ≤ task.deadline

theorem sleeps_before (hcloses : ∀ m < n, task.closes start m < task.deadline) :
    (task.before start n).sleeps = (List.range n).map (task.sleepAfter start) := by
  calc (List.range n).filterMap (fun m => task.rest? (task.closes start m))
      = (List.range n).filterMap (some ∘ task.sleepAfter start) :=
        List.filterMap_congr fun m hm => rest?_of_lt (hcloses m (List.mem_range.mp hm))
    _ = (List.range n).map (task.sleepAfter start) := by rw [List.filterMap_eq_map]

/-- A state with as many sleeps as probes, or with one less, has slept as a poll does. -/
theorem sleeps_of_range (hinterval : 0 < task.interval) {m : ℕ}
    (hcloses : ∀ k < m, task.closes start k < task.deadline)
    (hsleeps : s.sleeps = (List.range m).map (task.sleepAfter start))
    (hcount : m ≤ s.probes ∧ s.probes ≤ m + 1) : task.Sleeps start s where
  count := by simpa [hsleeps] using hcount
  length k length hlength := by
    rw [hsleeps, List.getElem?_map, Option.map_eq_some_iff] at hlength
    obtain ⟨_, hrange, rfl⟩ := hlength
    obtain ⟨hk, rfl⟩ : k < m ∧ k = _ := by simpa [List.getElem?_eq_some_iff] using hrange
    have hopens := opens_succ_of_lt (hcloses k hk)
    exact ⟨sleepAfter_pos hinterval (hcloses k hk), sleepAfter_le, hopens,
      hopens.trans_le closes_add_sleepAfter_le⟩

/-- A poll that comes to a round has slept after every probe but the last one at least. -/
theorem closes_of_goesOn (hgoesOn : ∀ m < n + 1, task.GoesOn start m) {m : ℕ} (hm : m < n) :
    task.closes start m < task.deadline :=
  closes_of_opens_succ (hgoesOn (m + 1) (Nat.succ_lt_succ hm)).1

theorem EndsAt.sleeps (h : task.EndsAt start n verdict s) (hinterval : 0 < task.interval) :
    task.Sleeps start s := by
  obtain ⟨hgoesOn, hends⟩ := h
  cases n with
  | zero =>
    refine sleeps_of_range hinterval (m := 0) nofun ?_ ?_
    all_goals cases hends <;> simp [before, probed]
  | succ n =>
    have hbefore {m : ℕ} (hm : m < n) := closes_of_goesOn hgoesOn hm
    have hall (hcloses : task.closes start n < task.deadline) (m : ℕ) (hm : m < n + 1) :
        task.closes start m < task.deadline := by
      obtain hlt | rfl := Nat.lt_succ_iff_lt_or_eq.mp hm
      · exact hbefore hlt
      · exact hcloses
    cases hends with
    | late hlate =>
      by_cases hcloses : task.closes start n < task.deadline
      · exact sleeps_of_range hinterval (hall hcloses) (sleeps_before (hall hcloses)) (by simp)
      · have hnone : (task.before start (n + 1)).sleeps = (task.before start n).sleeps := by
          simp [before_succ, rest?_of_le (not_lt.mp hcloses)]
        exact sleeps_of_range hinterval (fun m => hbefore)
          (hnone.trans (sleeps_before fun m => hbefore)) (by simp)
    | broken hopens | healthy hopens =>
      have hcloses := hall (closes_of_opens_succ hopens)
      exact sleeps_of_range hinterval hcloses (sleeps_before hcloses) (by simp)

/-! ## The time at the end -/

/-- A poll without any time ends before its first probe. -/
theorem EndsAt.at_once (h : task.EndsAt start n verdict s) (hlate : ¬start < task.deadline) :
    verdict = .ok false ∧ s = .start start := by
  have hends : task.Ends start 0 (.ok false) (.start start) := .late hlate
  cases n with
  | zero => exact h.ends.unique hends
  | succ n => exact absurd (h.goesOn 0 n.succ_pos) hends.not_goesOn

/-- A poll that gives up does so at the deadline, or after a probe that ran across it. -/
theorem EndsAt.returned (h : task.EndsAt start n (.ok false) s) (hstart : start ≤ task.deadline) :
    s.now = task.deadline ∨ ∃ m, s.probes = m + 1 ∧
      task.deadline < s.now ∧ s.now < task.deadline + (task.probe m).cost := by
  obtain ⟨hgoesOn, hends⟩ := h
  cases hends with
  | late hlate =>
    have hdeadline : task.deadline ≤ task.opens start n := not_lt.mp hlate
    cases n with
    | zero => exact .inl (le_antisymm hstart hdeadline)
    | succ n =>
      by_cases hcloses : task.closes start n < task.deadline
      · have hopens := (opens_succ_of_lt hcloses).trans_le closes_add_sleepAfter_le
        exact .inl (le_antisymm hopens hdeadline)
      · have hopens := opens_succ_of_le (not_lt.mp hcloses)
        have hclose : task.closes start n = task.opens start n + (task.probe n).cost := rfl
        have hbefore := (hgoesOn n n.lt_succ_self).1
        obtain heq | hlt := hdeadline.eq_or_lt
        · exact .inl heq.symm
        · refine .inr ⟨n, rfl, hlt, ?_⟩
          rw [now_before]
          linarith

/-- A poll whose probes take no longer than a length ends within that length of the deadline. -/
theorem EndsAt.now_le (h : task.EndsAt start n verdict s) (hstart : start ≤ task.deadline)
    {length : ℚ} (hlength : 0 ≤ length) (hcosts : ∀ m < s.probes, (task.probe m).cost ≤ length) :
    s.now ≤ task.deadline + length := by
  have hlast (hopens : task.opens start n < task.deadline)
      (hcost : (task.probe n).cost ≤ length) : task.closes start n ≤ task.deadline + length :=
    add_le_add hopens.le hcost
  cases hends : h.ends with
  | late =>
    obtain heq | ⟨m, hprobes, -, hlt⟩ := h.returned hstart
    · linarith
    · linarith [hcosts m (hprobes ▸ m.lt_succ_self)]
  | broken hopens | healthy hopens => exact hlast hopens (hcosts n n.lt_succ_self)

theorem opens_le_of_idle (hinterval : 0 < task.interval)
    (hcost : ∀ m < n, (task.probe m).cost = 0) :
    task.opens start n ≤ start + n * task.interval := by
  induction n with
  | zero => simp [opens]
  | succ n ih =>
    have hbefore := ih fun m hm => hcost m (hm.trans n.lt_succ_self)
    have hclose : task.closes start n = task.opens start n := by
      rw [closes, hcost n n.lt_succ_self, add_zero]
    have hnext : task.opens start (n + 1) ≤ task.opens start n + task.interval := by
      by_cases hcloses : task.closes start n < task.deadline
      · rw [opens_succ_of_lt hcloses, hclose]
        exact add_le_add_right sleepAfter_le _
      · rw [opens_succ_of_le (not_lt.mp hcloses), hclose]
        exact le_add_of_nonneg_right hinterval.le
    push_cast
    linarith

/-- A poll whose probes fail at once goes on through all the intervals that it has time for. -/
theorem EndsAt.idle (h : task.EndsAt start n verdict s) (hinterval : 0 < task.interval)
    (hcost : ∀ m, 0 ≤ (task.probe m).cost) (hstart : start ≤ task.deadline)
    (hidle : ∀ m < s.probes, (task.probe m).cost = 0 ∧ task.finding m = .unhealthy) :
    verdict = .ok false ∧ s.probes = task.intervals start ∧ s.now = task.deadline := by
  cases hends : h.ends with
  | late hlate =>
    have hopens : task.opens start n ≤ start + n * task.interval :=
      opens_le_of_idle hinterval fun m hm => (hidle m hm).1
    have hmost : task.intervals start ≤ n := by
      rw [intervals, Nat.ceil_le, div_le_iff₀ hinterval]
      linarith
    refine ⟨rfl, (h.probes_le hinterval hcost).antisymm hmost, ?_⟩
    obtain hnow | ⟨m, hprobes, hlt, hlt'⟩ := h.returned hstart
    · exact hnow
    · rw [(hidle m (hprobes ▸ m.lt_succ_self)).1, add_zero] at hlt'
      exact absurd hlt hlt'.not_gt
  | broken _ hbroken => exact absurd (hbroken.symm.trans (hidle n n.lt_succ_self).2) nofun
  | healthy _ hhealthy => exact absurd (hhealthy.symm.trans (hidle n n.lt_succ_self).2) nofun

end Task

/-- The client that a poll makes for itself gives up after ten seconds, and earlier if the poll is
shorter than that. -/
theorem probeTimeout_mem (timeout : ℚ) {interval : ℚ} (hinterval : 0 < interval) :
    0 < probeTimeout timeout interval ∧ probeTimeout timeout interval ≤ 10 := by
  rw [probeTimeout, earlier_eq_min, later_eq_max]
  exact ⟨lt_min (hinterval.trans_le (le_max_right _ _)) (by norm_num), min_le_right _ _⟩

variable (describe : ℚ → String) (url : String) (check : HealthCheck) (timeout : ℚ) {interval : ℚ}
  {probe : ℕ → Probe ℚ} (start : ℚ)

theorem intervals_eq : Task.intervals ⟨url, check, start + timeout, interval, probe⟩ start =
    ⌈timeout / interval⌉₊ := by
  simp only [Task.intervals, add_sub_cancel_left]

/-- A poll at a positive interval comes to an end, and a run that has more rounds than there are
intervals in its time sees it. -/
theorem exists_wait_eq (hinterval : 0 < interval) (hcost : ∀ n, 0 ≤ (probe n).cost) :
    ∃ n verdict s, Task.EndsAt ⟨url, check, start + timeout, interval, probe⟩ start n verdict s ∧
      ∀ fuel, ⌈timeout / interval⌉₊ < fuel →
        wait describe url check timeout interval probe fuel start = (some verdict, s) := by
  let task : Task ℚ := ⟨url, check, start + timeout, interval, probe⟩
  obtain ⟨n, hn, verdict, s, hends⟩ := task.exists_endsAt start hinterval hcost
  rw [intervals_eq] at hn
  exact ⟨n, verdict, s, hends, fun fuel hfuel =>
    (wait_eq_some _ _ _ _ _ _ hinterval).mpr ⟨n, hn.trans_lt hfuel, hends⟩⟩

/-- A poll at a positive interval ends after as many probes as there are intervals in its time at
most, with one positive sleep between two probes and none beyond the deadline. With time to wait it
gives up at the deadline, or when a probe that ran across it is over. Probes that fail at once use
up all intervals. With the client that it makes for itself the poll is over within that client's
timeout of the deadline. -/
theorem wait_paces (hinterval : 0 < interval) (hcost : ∀ n, 0 ≤ (probe n).cost) :
    let task : Task ℚ := ⟨url, check, start + timeout, interval, probe⟩
    let most := ⌈timeout / interval⌉₊
    let limit := probeTimeout timeout interval
    ∃ verdict s,
      (∀ fuel, most < fuel →
        wait describe url check timeout interval probe fuel start = (some verdict, s)) ∧
      s.probes ≤ most ∧
      task.Sleeps start s ∧
      (timeout ≤ 0 → verdict = .ok false ∧ s = .start start) ∧
      (0 ≤ timeout → verdict = .ok false → s.now = task.deadline ∨ ∃ n, s.probes = n + 1 ∧
        task.deadline < s.now ∧ s.now < task.deadline + (probe n).cost) ∧
      (0 ≤ timeout → (∀ n < s.probes, (probe n).cost = 0 ∧ Fails check (probe n).outcome) →
        verdict = .ok false ∧ s.probes = most ∧ s.now = task.deadline) ∧
      0 < limit ∧ limit ≤ 10 ∧
      (0 ≤ timeout → (∀ n < s.probes, (probe n).cost ≤ limit) →
        s.now ≤ task.deadline + limit) := by
  intro task most limit
  have hmost : task.intervals start = most := intervals_eq url check timeout start
  obtain ⟨n, verdict, s, hends, hruns⟩ :=
    exists_wait_eq describe url check timeout start hinterval hcost
  have hstart (htimeout : 0 ≤ timeout) : start ≤ task.deadline := le_add_of_nonneg_right htimeout
  have hlimit := probeTimeout_mem timeout hinterval
  refine ⟨verdict, s, hruns, hmost ▸ hends.probes_le hinterval hcost, hends.sleeps hinterval,
    fun htimeout => hends.at_once (Clock.not_lt_add htimeout), ?_, ?_, hlimit.1, hlimit.2, ?_⟩
  · rintro htimeout rfl
    exact hends.returned (hstart htimeout)
  · intro htimeout hidle
    rw [← hmost]
    exact hends.idle hinterval hcost (hstart htimeout) fun m hm =>
      ⟨(hidle m hm).1, Finding.ofReply_eq_unhealthy.mpr (hidle m hm).2⟩
  · exact fun htimeout => hends.now_le (hstart htimeout) hlimit.1.le

/-! ## A poll that waits in vain -/

/-- Answers that come at once, and never from a healthy application. -/
def idleProbe (_ : ℕ) : Probe ℚ := ⟨0, .ok (.text "starting")⟩

theorem fails_idleProbe (n : ℕ) : Fails (.ofKind .generic) (idleProbe n).outcome :=
  .unhealthy (congrArg Except.ok (by decide +kernel))

theorem paces_idleProbe : 0 < (1 / 2 : ℚ) ∧ (∀ n, 0 ≤ (idleProbe n).cost) ∧ ∃ s,
    wait toString "https://a/health" (.ofKind .generic) 1 (1 / 2) idleProbe 3 0 =
      (some (.ok false), s) ∧ s.probes = 2 ∧ s.now = 1 := by
  have hinterval : (0 : ℚ) < 1 / 2 := by decide +kernel
  have hcost (n : ℕ) : 0 ≤ (idleProbe n).cost := le_rfl
  have hmost : ⌈(1 : ℚ) / (1 / 2)⌉₊ = 2 := by norm_num
  obtain ⟨verdict, s, hruns, -, -, -, -, hidle, -⟩ :=
    wait_paces toString "https://a/health" (.ofKind .generic) 1 0 hinterval hcost
  obtain ⟨rfl, hprobes, hnow⟩ := hidle zero_le_one fun n _ => ⟨rfl, fails_idleProbe n⟩
  refine ⟨hinterval, hcost, s, hruns 3 (by omega), hprobes.trans hmost, hnow.trans (zero_add 1)⟩

/-- A probe that raises at once what no poll tolerates. -/
def brokenProbe (_ : ℕ) : Probe ℚ := ⟨0, .error (.fault (.broken "boom"))⟩

/-- A poll for a negative time gives up when it starts, which is after its deadline by more than a
probe may take. Not every probe without success is followed by another one: what is not tolerated
ends a poll at once. -/
theorem gives_up_after_deadline :
    (wait toString "https://a/health" (.ofKind .generic) (-1) (1 / 10) idleProbe 1 0 =
        (some (.ok false), .start 0) ∧
      (State.start (0 : ℚ)).probes = 0 ∧
      0 + -1 + probeTimeout (-1 : ℚ) (1 / 10) < (State.start (0 : ℚ)).now) ∧
    ∃ s, wait toString "https://a/health" (.ofKind .generic) 1 (1 / 2) brokenProbe 1 0 =
        (some (.error (.fault (.broken "boom"))), s) ∧
      s.probes < ⌈(1 : ℚ) / (1 / 2)⌉₊ ∧ s.now < 0 + 1 := by
  have htenth : (0 : ℚ) < 1 / 10 := by decide +kernel
  have hhalf : (0 : ℚ) < 1 / 2 := by decide +kernel
  have hmost : ⌈(1 : ℚ) / (1 / 2)⌉₊ = 2 := by norm_num
  refine ⟨⟨(wait_eq_some _ _ _ _ _ _ htenth).mpr ⟨0, Nat.one_pos, nofun, .late ?_⟩, rfl, ?_⟩, _,
    (wait_eq_some _ _ _ _ _ _ hhalf).mpr ⟨0, Nat.one_pos, nofun, .broken ?_ rfl⟩, ?_, ?_⟩
  · decide +kernel
  · decide +kernel
  · decide +kernel
  · rw [hmost]
    exact Nat.one_lt_two
  · decide +kernel

end BrokerClient.Poll
