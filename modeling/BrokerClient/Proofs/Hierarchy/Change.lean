import BrokerClient.Proofs.Hierarchy.Loading

/-!
# What changes when an operation succeeds

An operation that changes something ends in one change of the state: a member is enrolled or
struck off, a representation is taken over, fetched members are forgotten, a user is welcomed.
Here are these changes, what each does to every resource, and for each operation when it succeeds
and which change it ends in.
-/
namespace BrokerClient.Hierarchy

open Hierarchy.Action

variable {σ : Type}

namespace World

/-- Makes a resource of a representation and puts it at the end of the members of its owner. -/
def enroll (w : World σ) (family : Family) (owner : Ref) (representation : Representation) :
    World σ :=
  let adopted := w.adopt owner representation
  let w₁ := Lazy.edit (members owner) (· ++ [adopted.1]) adopted.2
  w₁.note (.info (family.createdText (w₁.resource owner).name representation.name))

/-- Drops a resource from the members of its owner. -/
def strike (w : World σ) (r : Ref) : World σ :=
  let x := w.resource r
  let w₁ := (Lazy.remove (members x.owner) r w).2
  w₁.note (.info (x.attributes.destroyedText (w₁.resource x.owner).name))

/-- Has a resource forget its members and gears. -/
def forget (w : World σ) (r : Ref) : World σ :=
  Lazy.invalidate (gears r) (Lazy.invalidate (members r) w)

/-- Makes a resource of the representation of a user, whom a connection remembers from now on. -/
def welcome (w : World σ) (connection : Ref) (representation : Representation) : World σ :=
  let adopted := w.adopt connection representation
  adopted.2.alter connection fun x =>
    { x with attributes := x.attributes.withUser (some adopted.1) }

variable {w : World σ} {r r' : Ref}

/-- A change that does nothing to a bare resource without links is the same everywhere. -/
theorem resource_alter_eq {f : Resource → Resource}
    (hf : f (.fresh Store.root .bare [] none) = .fresh Store.root .bare [] none) :
    (w.alter r f).resource r' = if r' = r then f (w.resource r') else w.resource r' := by
  split
  · rename_i h
    subst h
    obtain hlt | hle := Nat.lt_or_ge r' w.store.next
    · exact resource_alter_self hlt f
    · rw [resource_of_next_le hle, hf, resource_of_next_le (by rwa [next_alter])]
  · rename_i h
    exact resource_alter_of_ne (Ne.symm h) w f

theorem resource_strike :
    (w.strike r).resource r' =
      if r' = (w.resource r).owner then
        (w.resource r').withMembers ((w.resource r').members.cell.remove r)
      else w.resource r' := by
  have h : (w.strike r).resource r' = (w.alter (w.resource r).owner
      (·.withMembers ((w.resource (w.resource r).owner).members.cell.remove r))).resource r' := rfl
  by_cases he : r' = (w.resource r).owner
  · subst he
    rw [h, if_pos rfl]
    obtain hlt | hle := Nat.lt_or_ge (w.resource r).owner w.store.next
    · rw [resource_alter_self hlt]
    · rw [resource_of_next_le (by rwa [next_alter]), resource_of_next_le hle]
      rfl
  · rw [h, if_neg he, resource_alter_of_ne (Ne.symm he)]

theorem resource_invalidate_members :
    (Lazy.invalidate (members r) w).resource r' =
      if r' = r then (w.resource r').withMembers .unloaded else w.resource r' := by
  rw [Lazy.invalidate, fill_members, resource_alter_eq rfl]
  split <;> split <;> rfl

theorem resource_invalidate_gears :
    (Lazy.invalidate (gears r) w).resource r' =
      if r' = r then (w.resource r').withGears .unloaded else w.resource r' := by
  rw [Lazy.invalidate, fill_gears, resource_alter_eq rfl]
  split <;> split <;> rfl

theorem resource_forget :
    (w.forget r).resource r' =
      if r' = r then ((w.resource r').withMembers .unloaded).withGears .unloaded
      else w.resource r' := by
  rw [forget, resource_invalidate_gears, resource_invalidate_members]
  split <;> rfl

theorem resource_accept (hr : r < w.store.next) (representation : Representation) :
    (w.accept r representation).resource r' =
      if r' = r then (w.resource r').accept representation else w.resource r' := by
  rw [accept]
  split
  · rename_i h
    subst h
    rw [resource_alter_self (by simpa using hr), resource_warn]
  · rename_i h
    rw [resource_alter_of_ne (Ne.symm h), resource_warn]

theorem resource_adopt (owner : Ref) (representation : Representation) :
    (w.adopt owner representation).2.resource r =
      if r = w.store.next then .ofRepresentation owner representation else w.resource r := by
  split
  · rename_i h
    rw [h, resource_adopt_next]
  · rename_i h
    obtain hlt | hle := Nat.lt_or_ge r w.store.next
    · exact resource_adopt_of_lt hlt owner representation
    · have hlt : w.store.next < r := Nat.lt_of_le_of_ne hle (Ne.symm h)
      rw [resource_of_next_le hle, resource_of_next_le (by rwa [next_adopt])]

theorem resource_enroll {family : Family} {owner : Ref} (howner : owner < w.store.next)
    (representation : Representation) :
    (w.enroll family owner representation).resource r =
      if r = w.store.next then .ofRepresentation owner representation
      else if r = owner then
        (w.resource r).withMembers ((w.resource r).members.cell.edit (· ++ [w.store.next]))
      else w.resource r := by
  have hcell : ((members owner).look (w.adopt owner representation).2).cell =
      (w.resource owner).members.cell :=
    congrArg (·.members.cell) (resource_adopt_of_lt howner owner representation)
  rw [enroll, resource_note, Lazy.edit, hcell, fill_members, adopt_fst]
  by_cases he : r = owner
  · subst he
    rw [if_neg (Nat.ne_of_lt howner), if_pos rfl,
      resource_alter_self (by rw [next_adopt]; exact Nat.lt_succ_of_lt howner),
      resource_adopt_of_lt howner]
  · rw [if_neg he, resource_alter_of_ne (Ne.symm he), resource_adopt]

theorem resource_welcome {connection : Ref} (hconnection : connection < w.store.next)
    (representation : Representation) :
    (w.welcome connection representation).resource r =
      if r = w.store.next then .ofRepresentation connection representation
      else if r = connection then
        { w.resource r with
          attributes := (w.resource r).attributes.withUser (some w.store.next) }
      else w.resource r := by
  simp only [welcome, adopt_fst]
  by_cases he : r = connection
  · subst he
    rw [if_neg (Nat.ne_of_lt hconnection), if_pos rfl,
      resource_alter_self (by rw [next_adopt]; exact Nat.lt_succ_of_lt hconnection),
      resource_adopt_of_lt hconnection]
  · rw [if_neg he, resource_alter_of_ne (Ne.symm he), resource_adopt]

/-! ## The number of resources and the log -/

@[simp] theorem next_enroll (family : Family) (owner : Ref) (representation : Representation) :
    (w.enroll family owner representation).store.next = w.store.next + 1 := by
  simp [enroll, Lazy.edit, members]

@[simp] theorem next_strike : (w.strike r).store.next = w.store.next := by
  simp [strike, Lazy.remove, members]

@[simp] theorem next_invalidate_members :
    (Lazy.invalidate (members r) w).store.next = w.store.next := by
  rw [Lazy.invalidate, fill_members, next_alter]
  split <;> rfl

@[simp] theorem next_invalidate_gears :
    (Lazy.invalidate (gears r) w).store.next = w.store.next := by
  rw [Lazy.invalidate, fill_gears, next_alter]
  split <;> rfl

@[simp] theorem next_forget : (w.forget r).store.next = w.store.next := by
  simp [forget]

@[simp] theorem next_welcome (connection : Ref) (representation : Representation) :
    (w.welcome connection representation).store.next = w.store.next + 1 := by
  simp [welcome]

theorem enroll_logs (w : World σ) (family : Family) (owner : Ref)
    (representation : Representation) :
    w.exchange.Logs (w.enroll family owner representation).exchange :=
  (w.warn_logs _ _).note _

theorem strike_logs (w : World σ) (r : Ref) : w.exchange.Logs (w.strike r).exchange :=
  (Exchange.Logs.refl _).note _

theorem invalidate_members_logs (w : World σ) (r : Ref) :
    w.exchange.Logs (Lazy.invalidate (members r) w).exchange := by
  unfold Lazy.invalidate
  split
  · exact (Exchange.Logs.refl _).note _
  · exact .refl _

theorem invalidate_gears_logs (w : World σ) (r : Ref) :
    w.exchange.Logs (Lazy.invalidate (gears r) w).exchange := by
  unfold Lazy.invalidate
  split
  · exact (Exchange.Logs.refl _).note _
  · exact .refl _

theorem forget_logs (w : World σ) (r : Ref) : w.exchange.Logs (w.forget r).exchange :=
  (w.invalidate_members_logs r).trans (invalidate_gears_logs _ r)

theorem welcome_logs (w : World σ) (connection : Ref) (representation : Representation) :
    w.exchange.Logs (w.welcome connection representation).exchange :=
  w.warn_logs _ _

theorem accept_logs (w : World σ) (r : Ref) (representation : Representation) :
    w.exchange.Logs (w.accept r representation).exchange :=
  w.warn_logs _ _

end World

namespace Client

variable {client : Client σ} {w w' : World σ}

/-! ## When operations succeed -/

theorem demand_eq_ok {lacks : Option Argument} {a : Unit} :
    (demand lacks : Action σ Unit).exec w = (.ok a, w') ↔ lacks = none ∧ w' = w := by
  cases lacks with
  | none => simp [demand, eq_comm]
  | some argument => simp [demand]

theorem parametersOf_eq_ok {creation : Creation} {parameters : Parameters} :
    (parametersOf creation : Action σ Parameters).exec w = (.ok parameters, w') ↔
      creation.parameters = .ok parameters ∧ w' = w := by
  unfold parametersOf
  cases creation.parameters with
  | error fault => simp
  | ok found => simp [eq_comm]

theorem member?_eq_ok {owner : Ref} {name : Value} {found : Option Ref} :
    (client.member? owner name).exec w = (.ok found, w') ↔
      ∃ refs, (client.members owner).exec w = (.ok refs, w') ∧
        found = refs.find? fun r => name.asText? == some (w'.resource r).name := by
  rw [member?, exec_bind_eq_ok]
  constructor
  · rintro ⟨refs, w₁, hmembers, h⟩
    rw [exec_bind_of_ok (exec_get w₁), exec_pure, Prod.mk.injEq, Except.ok.injEq] at h
    obtain ⟨rfl, rfl⟩ := h
    exact ⟨refs, hmembers, rfl⟩
  · rintro ⟨refs, hmembers, rfl⟩
    exact ⟨refs, w', hmembers, by rw [exec_bind_of_ok (exec_get w'), exec_pure]⟩

/-- A member is created if its name is not known yet, and then it is enrolled. -/
theorem createIn_eq_ok {family : Family} {owner r : Ref} {creation : Creation} :
    (client.createIn family owner creation).exec w = (.ok r, w') ↔
      ∃ w₁ parameters representation w₂,
        (client.member? owner creation.name).exec w = (.ok none, w₁) ∧
        creation.parameters = .ok parameters ∧
        (client.fetchOne owner family.addRelation family.recordKind parameters).exec w₁ =
          (.ok representation, w₂) ∧
        r = w₂.store.next ∧ w' = w₂.enroll family owner representation := by
  rw [createIn, exec_bind_eq_ok]
  constructor
  · rintro ⟨found, w₁, hmember, h⟩
    cases found with
    | some r => cases h
    | none =>
      simp only [Option.isSome_none, Bool.false_eq_true, if_false] at h
      obtain ⟨parameters, w₂, hparametersOf, hrest⟩ := exec_bind_eq_ok.mp h
      obtain ⟨representation, w₃, hfetch, hcommit⟩ := exec_bind_eq_ok.mp hrest
      obtain ⟨hparameters, rfl⟩ := parametersOf_eq_ok.mp hparametersOf
      cases hcommit
      exact ⟨w₂, parameters, representation, w₃, hmember, hparameters, hfetch,
        w₃.adopt_fst owner representation, rfl⟩
  · rintro ⟨w₁, parameters, representation, w₂, hmember, hparameters, hfetch, rfl, rfl⟩
    refine ⟨none, w₁, hmember, ?_⟩
    refine exec_bind_eq_ok.mpr ⟨parameters, w₁, parametersOf_eq_ok.mpr ⟨hparameters, rfl⟩, ?_⟩
    refine exec_bind_eq_ok.mpr ⟨representation, w₂, hfetch, ?_⟩
    rw [← w₂.adopt_fst owner representation]
    rfl

theorem create_eq_ok {owner r : Ref} {creation : Creation} :
    (client.create owner creation).exec w = (.ok r, w') ↔
      creation.lacks? = none ∧
        ∃ family, Family.ofOwner? (w.resource owner).kind = some family ∧
          (client.createIn family owner creation).exec w = (.ok r, w') := by
  rw [create, exec_bind_eq_ok]
  constructor
  · rintro ⟨_, w₁, hdemand, h⟩
    obtain ⟨hlacks, rfl⟩ := demand_eq_ok.mp hdemand
    rw [exec_bind_of_ok (exec_get w₁)] at h
    cases hfamily : Family.ofOwner? (w₁.resource owner).kind with
    | none => simp [hfamily] at h
    | some family =>
      simp only [hfamily] at h
      exact ⟨hlacks, family, rfl, h⟩
  · rintro ⟨hlacks, family, hfamily, h⟩
    refine ⟨(), w, demand_eq_ok.mpr ⟨hlacks, rfl⟩, ?_⟩
    rw [exec_bind_of_ok (exec_get w)]
    simp only [hfamily]
    exact h

/-- A resource that was destroyed is struck off the members of its owner. -/
theorem destroy_eq_ok {r : Ref} {force : Value} {a : Unit} :
    (client.destroy r force).exec w = (.ok a, w') ↔
      ∃ payload w₁,
        (client.follow r Relation.delete (destruction force (w.resource r).attributes).1
          (destruction force (w.resource r).attributes).2).exec w = (.ok payload, w₁) ∧
        w' = w₁.strike r := by
  rw [destroy, exec_bind_of_ok (exec_get w), exec_bind_eq_ok]
  refine exists_congr fun payload => exists_congr fun w₁ => and_congr_right fun _ => ?_
  exact ⟨fun h => (Prod.mk.inj h).2.symm, fun h => h ▸ rfl⟩

/-- The user is the one that is remembered, or is fetched and welcomed now. -/
theorem user_eq_ok {connection r : Ref} :
    (client.user connection).exec w = (.ok r, w') ↔
      ((w.resource connection).attributes.user? = some r ∧ w' = w) ∨
        ((w.resource connection).attributes.user? = none ∧
          ∃ representation w₁,
            (client.fetchOne connection Relation.getUser .user []).exec w =
              (.ok representation, w₁) ∧
            r = w₁.store.next ∧ w' = w₁.welcome connection representation) := by
  rw [user, exec_bind_of_ok (exec_get w)]
  cases huser : (w.resource connection).attributes.user? with
  | some found => simp [eq_comm]
  | none =>
    simp only [reduceCtorEq, false_and, true_and, false_or]
    rw [exec_bind_eq_ok]
    refine exists_congr fun representation => exists_congr fun w₁ => and_congr_right fun _ => ?_
    rw [← w₁.adopt_fst connection representation]
    constructor
    · intro h
      cases h
      exact ⟨rfl, rfl⟩
    · rintro ⟨rfl, rfl⟩
      rfl

/-- A refresh takes over a representation, if there is one to ask for, and forgets the rest. -/
theorem refresh_eq_ok {r : Ref} {a : Unit} :
    (client.refresh r).exec w = (.ok a, w') ↔
      (∃ asked relation kind representation w₁,
          source? r (w.resource r) = some (asked, relation, kind) ∧
          (client.fetchOne asked relation kind []).exec w = (.ok representation, w₁) ∧
          w' = (w₁.accept r representation).forget r) ∨
        (source? r (w.resource r) = none ∧ w' = (w.alter r discard).forget r) := by
  rw [refresh, exec_bind_of_ok (exec_get w)]
  cases hsource : source? r (w.resource r) with
  | none =>
    simp only [reduceCtorEq, false_and, exists_false, false_or, true_and]
    constructor
    · intro h
      cases h
      rfl
    · rintro rfl
      rfl
  | some source =>
    obtain ⟨asked, relation, kind⟩ := source
    simp only [Option.some.injEq, Prod.mk.injEq, reduceCtorEq, false_and, or_false]
    rw [exec_bind_eq_ok]
    constructor
    · rintro ⟨representation, w₁, hfetch, h⟩
      cases h
      exact ⟨asked, relation, kind, representation, w₁, ⟨rfl, rfl, rfl⟩, hfetch, rfl⟩
    · rintro ⟨_, _, _, representation, w₁, ⟨rfl, rfl, rfl⟩, hfetch, rfl⟩
      exact ⟨representation, w₁, hfetch, rfl⟩

/-- A representation that is taken over after a change of id. -/
theorem rename_eq_ok {domain : Ref} {id : Value} {a : Unit} :
    (client.rename domain id).exec w = (.ok a, w') ↔
      isLacking id = false ∧ ∃ representation w₁,
        (client.fetchOne domain Relation.update .domain [("id", id)]).exec w =
          (.ok representation, w₁) ∧
        w' = (w₁.accept domain representation).note
          (.info ("Renamed domain to " ++
            ((w₁.accept domain representation).resource domain).name)) := by
  rw [rename, exec_bind_eq_ok]
  constructor
  · rintro ⟨_, w₁, hdemand, h⟩
    obtain ⟨hlacks, rfl⟩ := demand_eq_ok.mp hdemand
    obtain ⟨representation, w₂, hfetch, h⟩ := exec_bind_eq_ok.mp h
    cases h
    exact ⟨by simpa using hlacks, representation, w₂, hfetch, rfl⟩
  · rintro ⟨hlacks, representation, w₁, hfetch, rfl⟩
    refine ⟨(), w, demand_eq_ok.mpr ⟨by simp [hlacks], rfl⟩, ?_⟩
    exact exec_bind_eq_ok.mpr ⟨representation, w₁, hfetch, rfl⟩

/-- An application settles for what was answered to an event. -/
theorem post_eq_ok {application : Ref} {event : Event} {a : Unit} :
    (client.post application event).exec w = (.ok a, w') ↔
      event.lacks? = none ∧ ∃ payload w₁,
        (client.follow application event.relation event.parameters false).exec w =
          (.ok payload, w₁) ∧
        w' = settle application event payload (w₁.note
          (.debug ("Application " ++ (w₁.resource application).name ++ ": " ++ event.word))) := by
  rw [post, exec_bind_eq_ok]
  constructor
  · rintro ⟨_, w₁, hdemand, h⟩
    obtain ⟨hlacks, rfl⟩ := demand_eq_ok.mp hdemand
    obtain ⟨payload, w₂, hfollow, h⟩ := exec_bind_eq_ok.mp h
    cases h
    exact ⟨hlacks, payload, w₂, hfollow, rfl⟩
  · rintro ⟨hlacks, payload, w₁, hfollow, rfl⟩
    refine ⟨(), w, demand_eq_ok.mpr ⟨hlacks, rfl⟩, ?_⟩
    exact exec_bind_eq_ok.mpr ⟨payload, w₁, hfollow, rfl⟩

theorem updateKey_eq_ok {key : Ref} {type publicKey : Value} {a : Unit} :
    (client.updateKey key type publicKey).exec w = (.ok a, w') ↔
      isLacking publicKey = false ∧ ∃ representation w₁,
        (client.fetchOne key Relation.update .key
          [("type", type), ("content", publicKey)]).exec w = (.ok representation, w₁) ∧
        w' = w₁.accept key representation := by
  rw [updateKey, exec_bind_eq_ok]
  constructor
  · rintro ⟨_, w₁, hdemand, h⟩
    obtain ⟨hlacks, rfl⟩ := demand_eq_ok.mp hdemand
    obtain ⟨representation, w₂, hfetch, h⟩ := exec_bind_eq_ok.mp h
    cases h
    exact ⟨by simpa using hlacks, representation, w₂, hfetch, rfl⟩
  · rintro ⟨hlacks, representation, w₁, hfetch, rfl⟩
    refine ⟨(), w, demand_eq_ok.mpr ⟨by simp [hlacks], rfl⟩, ?_⟩
    exact exec_bind_eq_ok.mpr ⟨representation, w₁, hfetch, rfl⟩

theorem exec_setPublicKey (client : Client σ) (key : Ref) (publicKey : Value) (w : World σ) :
    (client.setPublicKey key publicKey).exec w =
      (client.updateKey key (typeValue (w.resource key).attributes) publicKey).exec w := by
  rw [setPublicKey, exec_bind_of_ok (exec_get w)]

end Client

end BrokerClient.Hierarchy
