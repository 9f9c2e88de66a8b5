import BrokerClient.Proofs.Health.Pacing
import BrokerClient.Proofs.Http.Refusal

/-!
# What a server can do to a poll

A poll with the HTTP client lives through every failure of its session and through every response
but one kind: a refusal whose body stops the search for what the server says. Such a refusal is
raised as a fault that no poll tolerates. All other refusals count as failed probes, and the poll
goes on to the deadline.
-/
namespace BrokerClient.Poll

variable {σ : Type} (client : HttpClient) (session : Session σ) (url : String) (server : σ)

/-- The call that a probe of a URL makes. -/
def probeCall (url : String) : Call := ⟨.get, url, none⟩

/-- The state of the session after a number of probes. -/
def serverAfter : ℕ → σ
  | 0 => server
  | n + 1 => ((client.transport session).send (probeCall url) (serverAfter n)).2

/-- The request that such a probe makes of the session. -/
def probeRequest : HttpRequest :=
  ⟨.get, url, client.headers, client.timeout, client.proxy, client.verify, none⟩

/-- What the session answers to the `n`-th probe. -/
def answer (n : ℕ) : Except Raised HttpResponse :=
  (session.exchange (probeRequest client url) (serverAfter client session url server n)).1

/-- The probes of a URL with the client, each in the state that the one before it left. -/
def probesOver (cost : ℕ → ℚ) (n : ℕ) : Probe ℚ :=
  ⟨cost n, ((client.transport session).send (probeCall url)
    (serverAfter client session url server n)).1⟩

/-- What an answer of the session lets a probe find, if bodies are looked into down to a depth. -/
inductive Shows (depth : ℕ) (check : HealthCheck) : Except Raised HttpResponse → Finding → Prop
  | failed {r : Raised} (h : r.isA .system = true) : Shows depth check (.error r) .unhealthy
  | refused {response : HttpResponse} (hstatus : 400 ≤ response.status)
      (hfree : ∀ fault, ¬HttpClient.Obstructs depth response.body fault) :
      Shows depth check (.ok response) .unhealthy
  | obstructed {response : HttpResponse} {fault : Fault} (hstatus : 400 ≤ response.status)
      (hobstructs : HttpClient.Obstructs depth response.body fault) :
      Shows depth check (.ok response) (.broken (.fault fault))
  | healthy {response : HttpResponse} (hstatus : response.status < 400)
      (hbody : check.isHealthyText response.body = true) : Shows depth check (.ok response) .healthy
  | unhealthy {response : HttpResponse} (hstatus : response.status < 400)
      (hbody : check.isHealthyText response.body = false) :
      Shows depth check (.ok response) .unhealthy

theorem isTolerated_of_obstructs {depth : ℕ} {body : String} {fault : Fault}
    (h : HttpClient.Obstructs depth body fault) : isTolerated (.fault fault) = false := by
  cases h <;> rfl

/-- A failure of the system stays one for the client, or becomes a refusal. -/
theorem fails_wrap (check : HealthCheck) (call : Call) {r : Raised} (h : r.isA .system = true) :
    Fails check (.error (client.wrap call r)) := by
  rw [HttpClient.wrap]
  split_ifs
  · exact .refused rfl
  · exact .refused rfl
  · exact .failed h

theorem shows_ofReply (check : HealthCheck) (call : Call) {answer : Except Raised HttpResponse}
    (hanswer : ∀ r, answer = .error r → r.isA .system = true) :
    Shows client.depth check answer
      (.ofReply check ((client.read call answer).map Body.text)) := by
  cases answer with
  | error r =>
    have hsystem := hanswer r rfl
    have hfinding := Finding.ofReply_eq_unhealthy.mpr (fails_wrap client check call hsystem)
    exact hfinding ▸ .failed hsystem
  | ok response =>
    by_cases hstatus : response.status < 400
    · have hread : client.read call (.ok response) = .ok response.body := by
        simp [HttpClient.read, HttpClient.accept, hstatus]
      rw [hread]
      cases hbody : check.isHealthyText response.body with
      | true => simpa [Except.map, Finding.ofReply, HealthCheck.isHealthy, hbody]
          using Shows.healthy hstatus hbody
      | false => simpa [Except.map, Finding.ofReply, HealthCheck.isHealthy, hbody]
          using Shows.unhealthy hstatus hbody
    · rw [not_lt] at hstatus
      obtain ⟨message, haccept, hfree⟩ | ⟨fault, haccept, hobstructs⟩ :=
        client.accept_of_refused call hstatus
      · have htolerated :
            isTolerated (.fault (.http (HttpClient.refusal response message))) = true :=
          isTolerated_iff.mpr (.inl (HttpClient.isA_http_refusal response message))
        simpa [HttpClient.read, haccept, Except.map, Finding.ofReply, htolerated]
          using Shows.refused hstatus hfree
      · simpa [HttpClient.read, haccept, Except.map, Finding.ofReply,
          isTolerated_of_obstructs hobstructs] using Shows.obstructed hstatus hobstructs

/-- The answer is a refusal whose body stops the search for what the server says. -/
def Obstructed (depth : ℕ) (answer : Except Raised HttpResponse) (fault : Fault) : Prop :=
  ∃ response, answer = .ok response ∧ 400 ≤ response.status ∧
    HttpClient.Obstructs depth response.body fault

namespace Shows

variable {depth : ℕ} {check : HealthCheck} {answer : Except Raised HttpResponse}
  {finding : Finding}

theorem of_obstructed {fault : Fault} (h : Shows depth check answer finding)
    (hobstructed : Obstructed depth answer fault) : finding = .broken (.fault fault) := by
  obtain ⟨response, rfl, hstatus, hobstructs⟩ := hobstructed
  cases h with
  | refused _ hfree => exact absurd hobstructs (hfree fault)
  | obstructed _ hobstructs' => rw [hobstructs'.unique hobstructs]
  | healthy hlt | unhealthy hlt => exact absurd hstatus (not_le.mpr hlt)

theorem of_refused {response : HttpResponse} (h : Shows depth check (.ok response) finding)
    (hstatus : 400 ≤ response.status)
    (hfree : ∀ fault, ¬HttpClient.Obstructs depth response.body fault) : finding = .unhealthy := by
  cases h with
  | refused | unhealthy => rfl
  | obstructed _ hobstructs => exact absurd hobstructs (hfree _)
  | healthy hlt => exact absurd hstatus (not_le.mpr hlt)

theorem of_broken {r : Raised} (h : Shows depth check answer (.broken r)) :
    ∃ fault, Obstructed depth answer fault ∧ r = .fault fault := by
  cases h with
  | obstructed hstatus hobstructs => exact ⟨_, ⟨_, rfl, hstatus, hobstructs⟩, rfl⟩

theorem of_healthy (h : Shows depth check answer .healthy) : ∃ response, answer = .ok response ∧
    response.status < 400 ∧ check.isHealthyText response.body = true := by
  cases h with
  | healthy hstatus hbody => exact ⟨_, rfl, hstatus, hbody⟩

end Shows

variable (check : HealthCheck) (timeout : ℚ) {interval : ℚ} {cost : ℕ → ℚ} (start : ℚ)

/-- A poll with the HTTP client over a session that fails by system faults only comes to an end. It
ends without a fault exactly if no probe met a refusal with an obstructing body, and it raises
nothing but what such a body stops the search with. All other refusals count as failed probes, after
which the poll goes on. -/
theorem wait_survives_iff (describe : ℚ → String) (hinterval : 0 < interval)
    (hcost : ∀ n, 0 ≤ cost n)
    (hexternal : ∀ n r, answer client session url server n = .error r → r.isA .system = true) :
    let answer := answer client session url server
    let probe := probesOver client session url server cost
    let deadline := start + timeout
    ∃ verdict s,
      (∀ fuel, ⌈timeout / interval⌉₊ < fuel →
        wait describe url check timeout interval probe fuel start = (some verdict, s)) ∧
      ((∃ healthy, verdict = .ok healthy) ↔
        ∀ n < s.probes, ∀ fault, ¬Obstructed client.depth (answer n) fault) ∧
      (∀ r, verdict = .error r →
        ∃ n fault, s.probes = n + 1 ∧ Obstructed client.depth (answer n) fault ∧ r = .fault fault) ∧
      (verdict = .ok true → ∃ n response, s.probes = n + 1 ∧ answer n = .ok response ∧
        response.status < 400 ∧ check.isHealthyText response.body = true ∧ s.now < deadline) ∧
      (verdict = .ok false → deadline ≤ s.now) ∧
      (∀ n < s.probes, ∀ response, answer n = .ok response → 400 ≤ response.status →
        (∀ fault, ¬HttpClient.Obstructs client.depth response.body fault) →
          Fails check (probe n).outcome ∧ (n + 1 < s.probes ∨ verdict = .ok false)) := by
  intro answer probe deadline
  let task : Task ℚ := ⟨url, check, deadline, interval, probe⟩
  have hshows n : Shows client.depth check (answer n) (task.finding n) :=
    shows_ofReply client check (probeCall url) (hexternal n)
  have hprobe n : 0 ≤ (probe n).cost := hcost n
  obtain ⟨n, verdict, s, hends, hruns⟩ :=
    exists_wait_eq describe url check timeout start hinterval hprobe
  have hjudged : task.Judged start verdict s := hends.judged
  have hraised r (hverdict : verdict = .error r) :
      ∃ n fault, s.probes = n + 1 ∧ Obstructed client.depth (answer n) fault ∧
        r = .fault fault := by
    obtain ⟨m, hprobes, hbroken⟩ := hjudged.ofBroken r hverdict
    obtain ⟨fault, hobstructed, hr⟩ := Shows.of_broken (hbroken ▸ hshows m)
    exact ⟨m, fault, hprobes, hobstructed, hr⟩
  refine ⟨verdict, s, hruns, ⟨?_, fun hfree => ?_⟩, hraised, fun hverdict => ?_,
    fun hverdict => not_lt.mp (hjudged.ofLate hverdict),
    fun m hm response hanswer hstatus hfree => ?_⟩
  · rintro ⟨healthy, rfl⟩ m hm fault hobstructed
    exact absurd (hjudged.broken m hm _ ((hshows m).of_obstructed hobstructed)).1 nofun
  · cases verdict with
    | ok healthy => exact ⟨healthy, rfl⟩
    | error r =>
      obtain ⟨m, fault, hprobes, hobstructed, -⟩ := hraised r rfl
      exact absurd hobstructed (hfree m (hprobes ▸ m.lt_succ_self) fault)
  · obtain ⟨m, hprobes, hhealthy, -, hnow⟩ := hjudged.ofHealthy hverdict
    obtain ⟨response, hanswer, hstatus, hbody⟩ := Shows.of_healthy (hhealthy ▸ hshows m)
    exact ⟨m, response, hprobes, hanswer, hstatus, hbody, hnow⟩
  · have hunhealthy : task.finding m = .unhealthy := (hanswer ▸ hshows m).of_refused hstatus hfree
    exact ⟨Finding.ofReply_eq_unhealthy.mp hunhealthy, hjudged.unhealthy m hm hunhealthy⟩

/-! ## A server that ends a poll -/

/-- The HTTP client that a poll for one second makes for itself. -/
def probeClient : HttpClient := .make none none 1.0 none true none 990

/-- The probes of a server whose responses are all the same and come at once. -/
def sameProbes (response : HttpResponse) : ℕ → Probe ℚ :=
  probesOver probeClient (Service.constantSession response) "https://a/health" () fun _ => 0

theorem shows_sameProbes (response : HttpResponse) : Shows 990 (.ofKind .generic) (.ok response)
    (.ofReply (.ofKind .generic) (sameProbes response 0).outcome) :=
  shows_ofReply probeClient _ _ fun _ h => nomatch h

theorem obstructed_numbered : Obstructed 990 (.ok Service.numberedResponse) (.notIterable "int") :=
  ⟨Service.numberedResponse, rfl, by decide, Service.obstructs_numbered⟩

/-- A number in the place of messages is enough to end a poll. -/
theorem raises_numbered : ∃ s,
    wait toString "https://a/health" (.ofKind .generic) 1 (1 / 2)
      (sameProbes Service.numberedResponse) 1 0 =
        (some (.error (.fault (.notIterable "int"))), s) ∧ s.probes = 1 ∧ s.now < 0 + 1 := by
  have hinterval : (0 : ℚ) < 1 / 2 := by decide +kernel
  have hbroken := (shows_sameProbes Service.numberedResponse).of_obstructed obstructed_numbered
  refine ⟨_, (wait_eq_some _ _ _ _ _ _ hinterval).mpr
    ⟨0, Nat.one_pos, nofun, .broken ?_ hbroken⟩, rfl, ?_⟩
  · decide +kernel
  · decide +kernel

theorem not_obstructed_empty (fault : Fault) :
    ¬Obstructed 990 (.ok Service.emptyResponse) fault := by
  rintro ⟨_, ⟨⟩, -, hobstructs⟩
  exact Service.not_obstructs_empty fault hobstructs

/-- The same refusal without a body is lived through. -/
theorem survives_empty : 0 < (1 / 2 : ℚ) ∧ ∃ s,
    wait toString "https://a/health" (.ofKind .generic) 1 (1 / 2)
      (sameProbes Service.emptyResponse) 3 0 = (some (.ok false), s) ∧ 0 + 1 ≤ s.now := by
  have hinterval : (0 : ℚ) < 1 / 2 := by decide +kernel
  have hcost (_ : ℕ) : (0 : ℚ) ≤ 0 := le_rfl
  have hmost : ⌈(1 : ℚ) / (1 / 2)⌉₊ = 2 := by norm_num
  obtain ⟨verdict, s, hruns, hsurvives, -, hhealthy, hlate, -⟩ :=
    wait_survives_iff probeClient (Service.constantSession Service.emptyResponse)
      "https://a/health" () (.ofKind .generic) 1 0 toString hinterval hcost
      fun _ _ h => nomatch h
  obtain ⟨healthy, rfl⟩ := hsurvives.mpr fun n _ => not_obstructed_empty
  cases healthy with
  | false => exact ⟨hinterval, s, hruns 3 (by omega), hlate rfl⟩
  | true =>
    obtain ⟨_, response, -, hsame, hstatus, -⟩ := hhealthy rfl
    cases hsame
    exact absurd hstatus (by decide)

end BrokerClient.Poll
