import BrokerClient.Hierarchy.World

/-!
# Running actions

An action takes a state to an outcome and the state after it, and that state stays when the
action fails. Here is what the steps of an action do to a state, and how a run of two actions
after each other splits into a run of each. Relations between the state before and the state
after are collected along a run: `Within` for every run of an action, `FailsWithin` for the
runs that fail.
-/
namespace BrokerClient.Hierarchy.Action

variable {σ α β : Type}

/-- The outcome of an action in a state, and the state after it. -/
def exec (x : Action σ α) (w : World σ) : Except Raised α × World σ := x w

@[simp] theorem exec_pure (a : α) (w : World σ) : exec (pure a) w = (.ok a, w) := rfl

@[simp] theorem exec_throw (e : Raised) (w : World σ) :
    exec (throw e : Action σ α) w = (.error e, w) := rfl

@[simp] theorem exec_get (w : World σ) : exec get w = (.ok w, w) := rfl

@[simp] theorem exec_modify (f : World σ → World σ) (w : World σ) :
    exec (modify f) w = (.ok (), f w) := rfl

@[simp] theorem exec_modifyGet (f : World σ → α × World σ) (w : World σ) :
    exec (modifyGet f) w = (.ok (f w).1, (f w).2) := rfl

variable {x : Action σ α} {f : α → Action σ β} {w w' : World σ}

theorem exec_bind_of_ok {a : α} (h : x.exec w = (.ok a, w')) (f : α → Action σ β) :
    exec (x >>= f) w = (f a).exec w' := by
  simp only [exec, bind, ExceptT.bind, ExceptT.mk, StateT.bind] at h ⊢
  rw [h]
  rfl

theorem exec_bind_of_error {e : Raised} (h : x.exec w = (.error e, w')) (f : α → Action σ β) :
    exec (x >>= f) w = (.error e, w') := by
  simp only [exec, bind, ExceptT.bind, ExceptT.mk, StateT.bind] at h ⊢
  rw [h]
  rfl

theorem exec_bind_eq_ok {b : β} :
    exec (x >>= f) w = (.ok b, w') ↔
      ∃ a w₁, x.exec w = (.ok a, w₁) ∧ (f a).exec w₁ = (.ok b, w') := by
  rcases h : x.exec w with ⟨e | a, w₁⟩
  · simp [exec_bind_of_error h]
  · simp [exec_bind_of_ok h, and_assoc]

theorem exec_bind_eq_error {e : Raised} :
    exec (x >>= f) w = (.error e, w') ↔
      x.exec w = (.error e, w') ∨
        ∃ a w₁, x.exec w = (.ok a, w₁) ∧ (f a).exec w₁ = (.error e, w') := by
  rcases h : x.exec w with ⟨e' | a, w₁⟩
  · simp [exec_bind_of_error h]
  · simp [exec_bind_of_ok h, and_assoc]

/-- What holds after the first action, if that fails, and after the second one holds in the end. -/
theorem after_bind {P : World σ → Prop} (herror : ∀ e w', x.exec w = (.error e, w') → P w')
    (hok : ∀ a w', x.exec w = (.ok a, w') → P ((f a).exec w').2) : P (exec (x >>= f) w).2 := by
  rcases h : x.exec w with ⟨e | a, w₁⟩
  · rw [exec_bind_of_error h]
    exact herror e w₁ h
  · rw [exec_bind_of_ok h]
    exact hok a w₁ h

/-- An action that changes nothing can be left out where the state is concerned. -/
theorem exec_bind_snd (h : ∀ a w', ((f a).exec w').2 = w') (x : Action σ α) (w : World σ) :
    (exec (x >>= f) w).2 = (x.exec w).2 := by
  rcases hx : x.exec w with ⟨e | a, w₁⟩
  · rw [exec_bind_of_error hx]
  · rw [exec_bind_of_ok hx, h]

@[simp] theorem exec_map (g : α → β) (x : Action σ α) (w : World σ) :
    exec (g <$> x) w = ((x.exec w).1.map g, (x.exec w).2) := by
  rw [map_eq_pure_bind]
  rcases h : x.exec w with ⟨e | a, w₁⟩
  · rw [exec_bind_of_error h]
    rfl
  · rw [exec_bind_of_ok h]
    rfl

theorem exec_map_eq_ok {g : α → β} {b : β} :
    exec (g <$> x) w = (.ok b, w') ↔ ∃ a, x.exec w = (.ok a, w') ∧ g a = b := by
  rw [exec_map]
  rcases x.exec w with ⟨e | a, w₁⟩
  · simp [Except.map]
  · simp only [Except.map, Prod.mk.injEq, Except.ok.injEq]
    constructor
    · rintro ⟨hg, rfl⟩
      exact ⟨a, ⟨rfl, rfl⟩, hg⟩
    · rintro ⟨_, ⟨rfl, rfl⟩, hg⟩
      exact ⟨hg, rfl⟩

/-- Every run of an action, whatever comes of it, relates the states before and after it. -/
def Within (R : World σ → World σ → Prop) (x : Action σ α) : Prop := ∀ w, R w (x.exec w).2

/-- Every run of an action that fails relates the states before and after it. -/
def FailsWithin (R : World σ → World σ → Prop) (x : Action σ α) : Prop :=
  ∀ w e w', x.exec w = (.error e, w') → R w w'

/-- After the run of an action in a state, one thing holds of its result and another of its
error. -/
def Ends (x : Action σ α) (w : World σ) (ok : α → World σ → Prop)
    (error : Raised → World σ → Prop) : Prop :=
  match x.exec w with
  | (.ok a, w') => ok a w'
  | (.error e, w') => error e w'

/-- An action that cannot fail. -/
def Succeeds (x : Action σ α) : Prop := ∀ w, ∃ a w', x.exec w = (.ok a, w')

variable {R : World σ → World σ → Prop}

theorem Within.of_eq (h : x.Within R) {outcome : Except Raised α}
    (hx : x.exec w = (outcome, w')) : R w w' := by
  have := h w
  rwa [hx] at this

theorem Within.bind (trans : ∀ {u v w}, R u v → R v w → R u w) (hx : x.Within R)
    (hf : ∀ a, (f a).Within R) : Within R (x >>= f) := by
  intro w
  rcases h : x.exec w with ⟨e | a, w₁⟩
  · rw [exec_bind_of_error h]
    exact hx.of_eq h
  · rw [exec_bind_of_ok h]
    exact trans (hx.of_eq h) (hf a w₁)

theorem Within.get_bind {f : World σ → Action σ β} (hf : ∀ w, (f w).Within R) :
    Within R (get >>= f) := by
  intro w
  rw [exec_bind_of_ok (exec_get w)]
  exact hf w w

theorem Within.map (hx : x.Within R) (g : α → β) : Within R (g <$> x) := by
  intro w
  simpa using hx w

theorem Within.failsWithin (hx : x.Within R) : x.FailsWithin R := fun _ _ _ h => hx.of_eq h

theorem FailsWithin.bind (trans : ∀ {u v w}, R u v → R v w → R u w) (hx : x.Within R)
    (hf : ∀ a, (f a).FailsWithin R) : FailsWithin R (x >>= f) := by
  intro w e w' h
  obtain h | ⟨a, w₁, h, h'⟩ := exec_bind_eq_error.mp h
  · exact hx.of_eq h
  · exact trans (hx.of_eq h) (hf a w₁ e w' h')

theorem FailsWithin.map (hx : x.FailsWithin R) (g : α → β) : FailsWithin R (g <$> x) := by
  intro w e w' h
  rcases hw : x.exec w with ⟨e' | a, w₁⟩ <;>
    simp only [exec_map, hw, Except.map, Prod.mk.injEq, reduceCtorEq, false_and] at h
  exact h.2 ▸ hx w e' w₁ hw

variable {ok ok' : α → World σ → Prop} {error error' : Raised → World σ → Prop}

theorem ends_of_ok {a : α} (h : x.exec w = (.ok a, w')) : x.Ends w ok error ↔ ok a w' := by
  simp only [Ends, h]

theorem ends_of_error {e : Raised} (h : x.exec w = (.error e, w')) :
    x.Ends w ok error ↔ error e w' := by
  simp only [Ends, h]

theorem ends_bind {okf : β → World σ → Prop} :
    Ends (x >>= f) w okf error ↔
      x.Ends w (fun a w₁ => (f a).Ends w₁ okf error) error := by
  rcases h : x.exec w with ⟨e | a, w₁⟩
  · rw [ends_of_error h, ends_of_error (exec_bind_of_error h f)]
  · rw [ends_of_ok h, Ends, exec_bind_of_ok h, Ends]

theorem ends_get_bind {f : World σ → Action σ β} {okf : β → World σ → Prop} :
    Ends (get >>= f) w okf error ↔ (f w).Ends w okf error := by
  rw [Ends, exec_bind_of_ok (exec_get w), Ends]

theorem ends_map (g : α → β) {okf : β → World σ → Prop} :
    Ends (g <$> x) w okf error ↔ x.Ends w (fun a w₁ => okf (g a) w₁) error := by
  rw [Ends, exec_map, Ends]
  rcases x.exec w with ⟨e | a, w₁⟩ <;> rfl

theorem Ends.mono (h : x.Ends w ok error) (hok : ∀ a w', ok a w' → ok' a w')
    (herror : ∀ e w', error e w' → error' e w') : x.Ends w ok' error' := by
  rcases hx : x.exec w with ⟨e | a, w₁⟩
  · rw [ends_of_error hx] at h ⊢
    exact herror e w₁ h
  · rw [ends_of_ok hx] at h ⊢
    exact hok a w₁ h

/-- What relates the states before and after every run can be used after this one. -/
theorem Ends.within (h : x.Ends w ok error) (hx : x.Within R)
    (hok : ∀ a w', R w w' → ok a w' → ok' a w')
    (herror : ∀ e w', R w w' → error e w' → error' e w') : x.Ends w ok' error' := by
  rcases hw : x.exec w with ⟨e | a, w₁⟩
  · rw [ends_of_error hw] at h ⊢
    exact herror e w₁ (hx.of_eq hw) h
  · rw [ends_of_ok hw] at h ⊢
    exact hok a w₁ (hx.of_eq hw) h

theorem Succeeds.failsWithin (hx : x.Succeeds) : x.FailsWithin R := by
  intro w e w' h
  obtain ⟨a, w₁, ha⟩ := hx w
  simp [ha] at h

theorem Succeeds.bind (hx : x.Succeeds) (hf : ∀ a, (f a).Succeeds) : Succeeds (x >>= f) := by
  intro w
  obtain ⟨a, w₁, ha⟩ := hx w
  obtain ⟨b, w₂, hb⟩ := hf a w₁
  exact ⟨b, w₂, by rw [exec_bind_of_ok ha, hb]⟩

end BrokerClient.Hierarchy.Action
