import BrokerClient.Health.Check
import BrokerClient.Service.Transport

/-!
# Waiting for a healthy application

A poll probes a URL until a probe finds the application healthy or the deadline has come.
Between two probes it sleeps for the poll interval, or for what is left until the
deadline if that is less. A refused or failed probe counts as not healthy; anything else
that a probe raises ends the poll, and so does a body that the check fails on.

Times are of any ordered type `τ`, so that a poll can be run with floating-point seconds
and reasoned about with exact ones. Reading the clock takes no time; a probe takes its
cost and a sleep its length.
-/
namespace BrokerClient.Poll

variable {τ : Type}

/-- What becomes of a probe: how long it takes, and the body or what it raises. -/
structure Probe (τ : Type) where
  cost : τ
  outcome : Reply

/-- A poll of a URL. The `n`-th probe is `probe n`, counted from zero. -/
structure Task (τ : Type) where
  url : String
  check : HealthCheck
  deadline : τ
  interval : τ
  probe : Nat → Probe τ

/-- The clock, the number of probes, the sleeps and the log so far. -/
structure State (τ : Type) where
  now : τ
  probes : Nat
  sleeps : List τ
  log : List LogEntry

/-- Before the first probe. -/
def State.start (now : τ) : State τ := ⟨now, 0, [], []⟩

/-- The verdict of a poll: healthy in time or not, or what a probe raised. -/
abbrev Verdict := Except Raised Bool

/-- One round either ends a poll or leaves it in a later state. -/
inductive Round (τ : Type) where
  | ended (verdict : Verdict) (s : State τ)
  | again (s : State τ)

/-- A probe that raises this counts as not healthy: a refusal or a failure of the system. -/
def isTolerated (r : Raised) : Bool := r.isA .http || r.isA .system

/-- The first of two times unless the second is earlier. -/
def earlier [LT τ] [DecidableLT τ] (a b : τ) : τ := if b < a then b else a

/-- The first of two times unless the second is later. -/
def later [LT τ] [DecidableLT τ] (a b : τ) : τ := if a < b then b else a

/-- Adds an entry to the log. -/
def State.note (s : State τ) (text : String) : State τ := { s with log := s.log ++ [.debug text] }

variable [Add τ] [Sub τ] [LT τ] [DecidableLT τ] [OfNat τ 0]

/-- Sleeps until the next probe, but not beyond the deadline. -/
def Task.pause (task : Task τ) (s : State τ) : State τ :=
  let remaining := task.deadline - s.now
  if 0 < remaining then
    let length := earlier task.interval remaining
    { s with now := s.now + length, sleeps := s.sleeps ++ [length] }
  else s

/-- The state after the next probe. -/
def Task.probed (task : Task τ) (s : State τ) : State τ :=
  { s with now := s.now + (task.probe s.probes).cost, probes := s.probes + 1 }

/-- One round: the deadline, a probe, a sleep. -/
def Task.round (task : Task τ) (s : State τ) : Round τ :=
  if s.now < task.deadline then
    let outcome := (task.probe s.probes).outcome
    let s := task.probed s
    match outcome with
    | .error r =>
      if isTolerated r then
        .again (task.pause (s.note
          ("Health probe " ++ task.url ++ " failed: " ++ r.message Fault.text)))
      else .ended (.error r) s
    | .ok body =>
      match task.check.isHealthy body with
      | .error fault => .ended (.error (.fault fault)) s
      | .ok healthy =>
        if healthy && s.now < task.deadline then .ended (.ok true) s
        else .again (task.pause (s.note ("Health probe " ++ task.url ++ " not healthy yet")))
  else .ended (.ok false) s

/-- At most `fuel` rounds; no verdict if the poll needs more. -/
def Task.run (task : Task τ) : Nat → State τ → Option Verdict × State τ
  | 0, s => (none, s)
  | fuel + 1, s =>
    match task.round s with
    | .ended verdict s => (some verdict, s)
    | .again s => task.run fuel s

/-- Polls for `timeout` from `start` on. An interval that is not positive is refused;
`describe` is the text of a time. -/
def wait [LE τ] [DecidableLE τ] (describe : τ → String) (url : String) (check : HealthCheck)
    (timeout interval : τ) (probe : Nat → Probe τ) (fuel : Nat) (start : τ) :
    Option Verdict × State τ :=
  if interval ≤ 0 then
    (some (.error (.fault (.badValue ("poll_interval must be positive: " ++ describe interval)))),
      State.start start)
  else
    (⟨url, check, start + timeout, interval, probe⟩ : Task τ).run fuel (State.start start)

omit [Add τ] [Sub τ] [OfNat τ 0] in
/-- How long a probe may take with the client that a poll makes for itself. -/
def probeTimeout [OfNat τ 10] (timeout interval : τ) : τ := earlier (later timeout interval) 10

end BrokerClient.Poll
