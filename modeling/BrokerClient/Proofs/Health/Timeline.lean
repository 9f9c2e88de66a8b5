import BrokerClient.Health.Poll

/-!
# The timeline of a poll

The clock, the sleeps and the log of a poll are known before it is run: when the `n`-th probe
starts follows from what the probes before it cost, and what they come to only decides whether the
poll gets that far. Each probe comes to one of three findings. Main statement: a run ends in the
first round that ends it by the clock and by its finding, and leaves the state of the timeline at
that point.

Nothing here depends on laws of the arithmetic of times, so all of it holds of floating-point
seconds too.
-/
namespace BrokerClient.Poll

variable {τ : Type}

/-- What a probe comes to: a healthy answer, one that counts as not healthy, or something that ends
the poll. -/
inductive Finding where
  | healthy
  | unhealthy
  | broken (r : Raised)

namespace Finding

/-- What a reply to a probe comes to. -/
def ofReply (check : HealthCheck) : Reply → Finding
  | .error r => if isTolerated r then unhealthy else broken r
  | .ok body =>
    match check.isHealthy body with
    | .error fault => broken (.fault fault)
    | .ok true => healthy
    | .ok false => unhealthy

end Finding

theorem isTolerated_iff {r : Raised} :
    isTolerated r = true ↔ r.isA .http = true ∨ r.isA .system = true :=
  Bool.or_eq_true_iff

/-- A probe fails if it is refused, if the system or the exchange fails, or if its answer is not
that of a healthy application. -/
inductive Fails (check : HealthCheck) : Reply → Prop
  | refused {r : Raised} (h : r.isA .http = true) : Fails check (.error r)
  | failed {r : Raised} (h : r.isA .system = true) : Fails check (.error r)
  | unhealthy {body : Body} (hbody : check.isHealthy body = .ok false) : Fails check (.ok body)

namespace Finding

variable {check : HealthCheck}

theorem ofReply_of_healthy {body : Body} (hbody : check.isHealthy body = .ok true) :
    ofReply check (.ok body) = healthy := by
  simp only [ofReply, hbody]

theorem ofReply_eq_unhealthy {reply : Reply} :
    ofReply check reply = unhealthy ↔ Fails check reply := by
  constructor
  · intro h
    cases reply with
    | error r =>
      simp only [ofReply] at h
      split at h
      · exact (isTolerated_iff.mp ‹_›).elim .refused .failed
      · cases h
    | ok body =>
      simp only [ofReply] at h
      split at h <;> first | exact .unhealthy ‹_› | cases h
  · rintro (hrefused | hfailed | hbody)
    · exact if_pos (isTolerated_iff.mpr (.inl hrefused))
    · exact if_pos (isTolerated_iff.mpr (.inr hfailed))
    · simp [ofReply, hbody]

end Finding

variable [Add τ] [Sub τ] [LT τ] [DecidableLT τ] [OfNat τ 0]

namespace Task

/-- What the `n`-th probe comes to. -/
def finding (task : Task τ) (n : Nat) : Finding := .ofReply task.check (task.probe n).outcome

/-- The sleep that follows a probe which is over at a time, if there is one. -/
def rest? (task : Task τ) (finish : τ) : Option τ :=
  let remaining := task.deadline - finish
  if 0 < remaining then some (earlier task.interval remaining) else none

/-- The time at which the `n`-th probe starts, if the poll comes to it. -/
def opens (task : Task τ) (start : τ) : Nat → τ
  | 0 => start
  | n + 1 =>
    let finish := task.opens start n + (task.probe n).cost
    match task.rest? finish with
    | some length => finish + length
    | none => finish

/-- The time at which the `n`-th probe is over. -/
def closes (task : Task τ) (start : τ) (n : Nat) : τ := task.opens start n + (task.probe n).cost

/-- What is logged about the `n`-th probe if the poll goes on. -/
def remark (task : Task τ) (n : Nat) : LogEntry :=
  match (task.probe n).outcome with
  | .error r => .debug ("Health probe " ++ task.url ++ " failed: " ++ r.message Fault.text)
  | .ok _ => .debug ("Health probe " ++ task.url ++ " not healthy yet")

/-- The state before the `n`-th probe, if the poll comes to it. -/
def before (task : Task τ) (start : τ) (n : Nat) : State τ where
  now := task.opens start n
  probes := n
  sleeps := (List.range n).filterMap fun k => task.rest? (task.closes start k)
  log := (List.range n).map task.remark

variable {task : Task τ} {start : τ} {n : Nat}

theorem opens_succ : task.opens start (n + 1) =
    match task.rest? (task.closes start n) with
    | some length => task.closes start n + length
    | none => task.closes start n := rfl

@[simp] theorem now_before : (task.before start n).now = task.opens start n := rfl

@[simp] theorem probes_before : (task.before start n).probes = n := rfl

@[simp] theorem probes_probed : (task.probed (task.before start n)).probes = n + 1 := rfl

@[simp] theorem sleeps_probed :
    (task.probed (task.before start n)).sleeps = (task.before start n).sleeps := rfl

theorem before_succ : task.before start (n + 1) =
    ⟨task.opens start (n + 1), n + 1,
      (task.before start n).sleeps ++ (task.rest? (task.closes start n)).toList,
      (task.before start n).log ++ [task.remark n]⟩ := by
  cases hrest : task.rest? (task.closes start n) <;> simp [before, List.range_succ, hrest]

theorem pause_eq (s : State τ) : task.pause s =
    match task.rest? s.now with
    | some length => { s with now := s.now + length, sleeps := s.sleeps ++ [length] }
    | none => s := by
  by_cases hrest : 0 < task.deadline - s.now <;> simp [pause, rest?, hrest]

/-- A poll that goes on after its `n`-th probe is where it is before the next one. -/
theorem pause_probed {text : String} (htext : task.remark n = .debug text) :
    task.pause ((task.probed (task.before start n)).note text) = task.before start (n + 1) := by
  have hnow : ((task.probed (task.before start n)).note text).now = task.closes start n := rfl
  rw [pause_eq, hnow, before_succ, opens_succ, htext]
  cases task.rest? (task.closes start n) with
  | some length => rfl
  | none => simp [State.note, probed, closes]

theorem round_of_late (hlate : ¬task.opens start n < task.deadline) :
    task.round (task.before start n) = .ended (.ok false) (task.before start n) := if_neg hlate

/-- A round that starts in time looks at nothing of a probe but its finding, and at the clock once
more if that is healthy. -/
theorem round_of_opens (hopens : task.opens start n < task.deadline) :
    task.round (task.before start n) =
      match task.finding n with
      | .broken r => .ended (.error r) (task.probed (task.before start n))
      | .unhealthy => .again (task.before start (n + 1))
      | .healthy =>
        if task.closes start n < task.deadline then
          .ended (.ok true) (task.probed (task.before start n))
        else .again (task.before start (n + 1)) := by
  have hagain {text : String} (htext : task.remark n = .debug text) :
      Round.again (task.pause ((task.probed (task.before start n)).note text)) =
        .again (task.before start (n + 1)) := congrArg _ (pause_probed htext)
  refine (if_pos hopens).trans ?_
  simp only [probes_before, finding]
  cases houtcome : (task.probe n).outcome with
  | error r =>
    cases htolerated : isTolerated r with
    | true => simp [Finding.ofReply, htolerated, hagain, remark, houtcome]
    | false => simp [Finding.ofReply, htolerated]
  | ok body =>
    cases hcheck : task.check.isHealthy body with
    | error fault => simp [Finding.ofReply, hcheck]
    | ok healthy =>
      have hnot : task.remark n = .debug ("Health probe " ++ task.url ++ " not healthy yet") := by
        simp [remark, houtcome]
      cases healthy with
      | true =>
        simp only [Finding.ofReply, hcheck, Bool.true_and, decide_eq_true_eq, hagain hnot]
        rfl
      | false => simp [Finding.ofReply, hcheck, hagain hnot]

/-- A poll that comes to its `n`-th round is not over after it: the probe starts in time, and it
finds nothing, or too late. -/
def GoesOn (task : Task τ) (start : τ) (n : Nat) : Prop :=
  task.opens start n < task.deadline ∧
    (task.finding n = .unhealthy ∨
      task.finding n = .healthy ∧ ¬task.closes start n < task.deadline)

/-- The ways in which a poll that comes to its `n`-th round is over after it, each with the verdict
and the state it leaves. -/
inductive Ends (task : Task τ) (start : τ) (n : Nat) : Verdict → State τ → Prop
  | late (hlate : ¬task.opens start n < task.deadline) :
      Ends task start n (.ok false) (task.before start n)
  | broken {r : Raised} (hopens : task.opens start n < task.deadline)
      (hbroken : task.finding n = .broken r) :
      Ends task start n (.error r) (task.probed (task.before start n))
  | healthy (hopens : task.opens start n < task.deadline) (hhealthy : task.finding n = .healthy)
      (hcloses : task.closes start n < task.deadline) :
      Ends task start n (.ok true) (task.probed (task.before start n))

variable {verdict : Verdict} {s : State τ}

theorem Ends.not_goesOn (h : task.Ends start n verdict s) : ¬task.GoesOn start n := by
  rintro ⟨hopens, hfinding⟩
  cases h with
  | late hlate => exact hlate hopens
  | broken _ hbroken => simp [hbroken] at hfinding
  | healthy _ hhealthy hcloses => simp [hhealthy, hcloses] at hfinding

theorem Ends.unique {verdict' : Verdict} {s' : State τ} (h : task.Ends start n verdict s)
    (h' : task.Ends start n verdict' s') : verdict = verdict' ∧ s = s' := by
  cases h <;> cases h' <;> simp_all

theorem Ends.round_eq (h : task.Ends start n verdict s) :
    task.round (task.before start n) = .ended verdict s := by
  cases h with
  | late hlate => exact round_of_late hlate
  | broken hopens hbroken => rw [round_of_opens hopens, hbroken]
  | healthy hopens hhealthy hcloses => rw [round_of_opens hopens, hhealthy, if_pos hcloses]

theorem GoesOn.round_eq (h : task.GoesOn start n) :
    task.round (task.before start n) = .again (task.before start (n + 1)) := by
  rw [round_of_opens h.1]
  obtain hunhealthy | ⟨hhealthy, hcloses⟩ := h.2
  · rw [hunhealthy]
  · rw [hhealthy, if_neg hcloses]

/-- Every round either ends a poll or lets it go on. -/
theorem ends_or_goesOn (task : Task τ) (start : τ) (n : Nat) :
    (∃ verdict s, task.Ends start n verdict s) ∨ task.GoesOn start n := by
  by_cases hopens : task.opens start n < task.deadline
  · cases hfinding : task.finding n with
    | broken r => exact .inl ⟨_, _, .broken hopens hfinding⟩
    | unhealthy => exact .inr ⟨hopens, .inl hfinding⟩
    | healthy =>
      by_cases hcloses : task.closes start n < task.deadline
      · exact .inl ⟨_, _, .healthy hopens hfinding hcloses⟩
      · exact .inr ⟨hopens, .inr ⟨hfinding, hcloses⟩⟩
  · exact .inl ⟨_, _, .late hopens⟩

/-- A poll comes to its `n`-th round, and is over after it. -/
structure EndsAt (task : Task τ) (start : τ) (n : Nat) (verdict : Verdict) (s : State τ) :
    Prop where
  goesOn : ∀ m < n, task.GoesOn start m
  ends : task.Ends start n verdict s

/-- A poll that comes to its `n`-th round ends in the first round from there on that ends it. -/
theorem run_before {fuel : Nat} :
    task.run fuel (task.before start n) = (some verdict, s) ↔
      ∃ m < fuel, (∀ k < m, task.GoesOn start (n + k)) ∧ task.Ends start (n + m) verdict s := by
  induction fuel generalizing n with
  | zero => simp [run]
  | succ fuel ih =>
    obtain ⟨verdict', s', hends⟩ | hgoesOn := task.ends_or_goesOn start n
    · simp only [run, hends.round_eq, Prod.mk.injEq, Option.some.injEq]
      constructor
      · rintro ⟨rfl, rfl⟩
        exact ⟨0, Nat.succ_pos fuel, nofun, hends⟩
      · rintro ⟨m, -, hbefore, hends'⟩
        cases m with
        | zero => exact hends.unique hends'
        | succ m => exact absurd (hbefore 0 m.succ_pos) hends.not_goesOn
    -- The round is passed, and what the induction says of the next ones is said of this one too.
    · have hshift (m : Nat) : n + 1 + m = n + (m + 1) := by omega
      simp only [run, hgoesOn.round_eq, ih, hshift]
      constructor
      · rintro ⟨m, hm, hbefore, hends⟩
        refine ⟨m + 1, Nat.succ_lt_succ hm, fun k hk => ?_, hends⟩
        cases k with
        | zero => exact hgoesOn
        | succ k => exact hbefore k (Nat.lt_of_succ_lt_succ hk)
      · rintro ⟨m, hm, hbefore, hends⟩
        cases m with
        | zero => exact absurd hgoesOn hends.not_goesOn
        | succ m =>
          exact ⟨m, Nat.lt_of_succ_lt_succ hm,
            fun k hk => hbefore (k + 1) (Nat.succ_lt_succ hk), hends⟩

/-- A run has a verdict if it is long enough for the round that the poll ends in. -/
theorem run_start {fuel : Nat} :
    task.run fuel (.start start) = (some verdict, s) ↔
      ∃ n < fuel, task.EndsAt start n verdict s := by
  have hstart : State.start start = task.before start 0 := rfl
  rw [hstart, run_before]
  simp only [Nat.zero_add]
  exact ⟨fun ⟨n, hn, hgoesOn, hends⟩ => ⟨n, hn, hgoesOn, hends⟩,
    fun ⟨n, hn, hgoesOn, hends⟩ => ⟨n, hn, hgoesOn, hends⟩⟩

end Task

end BrokerClient.Poll
