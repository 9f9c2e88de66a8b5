import BrokerClient.Proofs.Link.Offer
import BrokerClient.Proofs.Representation.Subject

/-!
# Links of the root and of resources

The links of the API root are decoded one by one up to the first that fails. Those of a resource are
a field of its representation, whose issues are collected with those of the other fields. Main
statement: both decoders accept the same mappings, and what they make of them is the same.
-/
namespace BrokerClient

open Record Verdict BrokerClient.Representation

variable {α β : Type}

namespace Payload

/-- The same representation with other links. -/
def withLinks (links : Mapping Link) : Payload → Payload :=
  mapCommon fun common => { common with links := links }

end Payload

namespace Record.Verdict

/-- The verdict `bare` is one on a value without links. If nothing else is wrong with the value,
then the verdict `full` on it with its links depends on the verdict on these alone. -/
def Relinks (relink : Mapping Link → α → α) (links : Verdict (Mapping Link))
    (bare full : Verdict α) : Prop :=
  ∀ a, bare = accepted a → full = (fun decoded => relink decoded a) <$> links

namespace Relinks

variable {relink : Mapping Link → α → α} {links : Verdict (Mapping Link)}

theorem map {relink' : Mapping Link → β → β} {bare full : Verdict α}
    (h : Relinks relink links bare full) {f : α → β}
    (hf : ∀ decoded a, f (relink decoded a) = relink' decoded (f a)) :
    Relinks relink' links (f <$> bare) (f <$> full) := by
  intro b hb
  obtain ⟨a, ha, rfl⟩ := map_eq_accepted.mp hb
  rw [h a ha]
  cases links <;> simp [Functor.map, Verdict.map, hf]

/-- A field beside the links is the same with them and without them. -/
theorem seq {bare full : Verdict (β → α)} {v w : Verdict β}
    (h : Relinks (fun decoded f b => relink decoded (f b)) links bare full) (hvw : v = w) :
    Relinks relink links (bare <*> v) (full <*> w) := by
  intro a ha
  obtain ⟨f, b, hf, hb, rfl⟩ := seq_eq_accepted.mp ha
  rw [← hvw, hb, h f hf]
  cases links <;> rfl

end Relinks

end Record.Verdict

namespace Representation

variable {fields : Mapping Value}

theorem Common.relinks (fields : Mapping Value) :
    Relinks (fun decoded common => { common with links := decoded })
      (defaulted "links" [] Link.decodeMap fields)
      (Common.decode (fields.put "links" .null)) (Common.decode fields) := by
  intro common h
  obtain ⟨_, log, hbare, hlog, rfl⟩ := seq_eq_accepted.mp h
  obtain ⟨links, -, rfl⟩ := map_eq_accepted.mp hbare
  rw [defaulted_put (by decide)] at hlog
  rw [Common.decode, hlog]
  cases defaulted "links" [] Link.decodeMap fields <;> rfl

theorem User.relinks (fields : Mapping Value) :
    Relinks (fun decoded (r : User) => { r with links := decoded })
      (defaulted "links" [] Link.decodeMap fields)
      (User.decode (.obj (fields.put "links" .null))) (User.decode (.obj fields)) :=
  (Common.relinks fields).map (fun _ _ => rfl)
    |>.seq (required_put (by decide))
    |>.seq (defaulted_put (by decide))
    |>.seq (defaulted_put (by decide))

theorem Domain.relinks (fields : Mapping Value) :
    Relinks (fun decoded (r : Domain) => { r with links := decoded })
      (defaulted "links" [] Link.decodeMap fields)
      (Domain.decode (.obj (fields.put "links" .null))) (Domain.decode (.obj fields)) :=
  (Common.relinks fields).map (fun _ _ => rfl)
    |>.seq (required_put (by decide))
    |>.seq (defaulted_put (by decide))

theorem Application.relinks (fields : Mapping Value) :
    Relinks (fun decoded (r : Application) => { r with links := decoded })
      (defaulted "links" [] Link.decodeMap fields)
      (Application.decode (.obj (fields.put "links" .null))) (Application.decode (.obj fields)) :=
  (Common.relinks fields).map (fun _ _ => rfl)
    |>.seq (required_put (by decide))
    |>.seq (defaulted_put (by decide))
    |>.seq (defaulted_put (by decide))
    |>.seq (defaulted_put (by decide))
    |>.seq (defaulted_put (by decide))
    |>.seq (defaulted_put (by decide))
    |>.seq (defaulted_put (by decide))
    |>.seq (defaulted_put (by decide))
    |>.seq (defaulted_put (by decide))
    |>.seq (defaulted_put (by decide))

theorem Cartridge.relinks (fields : Mapping Value) :
    Relinks (fun decoded (r : Cartridge) => { r with links := decoded })
      (defaulted "links" [] Link.decodeMap fields)
      (Cartridge.decode (.obj (fields.put "links" .null))) (Cartridge.decode (.obj fields)) :=
  (Common.relinks fields).map (fun _ _ => rfl)
    |>.seq (required_put (by decide))
    |>.seq (defaulted_put (by decide))
    |>.seq (defaulted_put (by decide))

theorem Key.relinks (fields : Mapping Value) :
    Relinks (fun decoded (r : Key) => { r with links := decoded })
      (defaulted "links" [] Link.decodeMap fields)
      (Key.decode (.obj (fields.put "links" .null))) (Key.decode (.obj fields)) :=
  (Common.relinks fields).map (fun _ _ => rfl)
    |>.seq (required_put (by decide))
    |>.seq (required_put (by decide))
    |>.seq (required_put (by decide))

end Representation

namespace Subject

variable {subject : Subject} {payload : Payload} {fields : Mapping Value}

theorem relinks (hsubject : subject ≠ .gear) (fields : Mapping Value) :
    Relinks Payload.withLinks (defaulted "links" [] Link.decodeMap fields)
      (subject.decode (.obj (fields.put "links" .null))) (subject.decode (.obj fields)) := by
  cases subject with
  | user => exact (User.relinks fields).map fun _ _ => rfl
  | domain => exact (Domain.relinks fields).map fun _ _ => rfl
  | application => exact (Application.relinks fields).map fun _ _ => rfl
  | cartridge => exact (Cartridge.relinks fields).map fun _ _ => rfl
  | gear => exact absurd rfl hsubject
  | key => exact (Key.relinks fields).map fun _ _ => rfl

/-- The links of a resource can be told from its representation. -/
theorem withLinks_inj (hsubject : subject ≠ .gear) {v : Value}
    (h : subject.decode v = accepted payload) {links decoded : Mapping Link} :
    payload.withLinks links = payload.withLinks decoded ↔ links = decoded := by
  refine ⟨fun heq => ?_, fun heq => heq ▸ rfl⟩
  cases subject with
  | gear => exact absurd rfl hsubject
  | user | domain | application | cartridge | key =>
    obtain ⟨r, -, rfl⟩ := map_eq_accepted.mp h
    simpa [Payload.withLinks, Payload.mapCommon] using heq

end Subject

namespace Response

variable {subject : Subject} {payload : Payload} {fields links : Mapping Value}
  {decoded : Mapping Link}

/-- The links of the root are decoded by the rule for the links of a resource. -/
theorem decodeLinks_eq_ok :
    decodeLinks (.obj links) = .ok decoded ↔ Link.decodeMap (.obj links) = accepted decoded := by
  rw [decodeLinks, mapM_eq_ok, Link.decodeMap, eachPair_eq_accepted]
  refine forall₂_congr_of_mem fun pair _ entry => ?_
  obtain ⟨name, v⟩ := pair
  obtain ⟨name', link⟩ := entry
  refine fmap_eq_ok.trans ?_
  simp only [decodeRecord_eq_ok, Prod.mk.injEq]
  constructor
  · rintro ⟨_, hlink, rfl, rfl⟩
    exact ⟨rfl, hlink⟩
  · rintro ⟨rfl, hlink⟩
    exact ⟨link, hlink, rfl, rfl⟩

/-- A mapping of links is accepted at the root exactly if it is accepted in the representation of a
resource that is valid but for its links, and the links that come out are the same. They stand in
the order of the mapping and under its names. Each is the link that was offered there, so that its
relation is its own if it gives one and its name if not, and it has one of the four methods. -/
theorem link_maps_agree (hsubject : subject ≠ .gear)
    (hlinks : fields.find? "links" = some (.obj links)) (hjson : (Value.obj links).isJson = true)
    (hothers : subject.decode (.obj (fields.put "links" .null)) = accepted payload) :
    ((∃ decoded, decodeLinks (.obj links) = .ok decoded) ↔
        ∃ r, subject.decode (.obj fields) = accepted r) ∧
      ∀ decoded, (decodeLinks (.obj links) = .ok decoded ↔
          subject.decode (.obj fields) = accepted (payload.withLinks decoded)) ∧
        (decodeLinks (.obj links) = .ok decoded ↔
          List.Forall₂ (fun pair entry => entry.1 = pair.1 ∧
            ∃ fields, pair.2 = .obj fields ∧ Link.OfferedBy pair.1 fields entry.2) links decoded) ∧
        (decodeLinks (.obj links) = .ok decoded →
          ∀ entry ∈ decoded, entry.2.method.isKnown = true) := by
  -- All but the links is valid, so the representation depends on them alone.
  have hfull (r : Payload) : subject.decode (.obj fields) = accepted r ↔
      ∃ decoded, Link.decodeMap (.obj links) = accepted decoded ∧
        payload.withLinks decoded = r := by
    have hmap (decoded : Mapping Link) :
        defaulted "links" [] Link.decodeMap fields = accepted decoded ↔
          Link.decodeMap (.obj links) = accepted decoded := by
      rw [defaulted, hlinks, within_eq_accepted]
    rw [subject.relinks hsubject fields payload hothers, map_eq_accepted]
    simp only [hmap]
  have hoffers (decoded : Mapping Link) : decodeLinks (.obj links) = .ok decoded ↔ _ :=
    decodeLinks_eq_ok.trans (Link.decodeMap_obj_eq_accepted hjson)
  refine ⟨?_, fun decoded => ⟨?_, hoffers decoded, fun h entry hentry => ?_⟩⟩
  · simp only [hfull, decodeLinks_eq_ok]
    constructor
    · rintro ⟨decoded, h⟩
      exact ⟨_, decoded, h, rfl⟩
    · rintro ⟨_, decoded, h, -⟩
      exact ⟨decoded, h⟩
  · simp only [hfull, decodeLinks_eq_ok, subject.withLinks_inj hsubject hothers, exists_eq_right]
  · obtain ⟨pair, -, -, fields, -, hoffered⟩ :=
      exists_mem_of_forall₂ ((hoffers decoded).mp h) hentry
    exact hoffered.isKnown

/-- Two links. One gives no relation of its own but another field of that name, the other gives an
own relation. -/
def twoLinks : Mapping Value :=
  [("LIST_DOMAINS", .obj [("relation", .str "X"), ("href", .str "domains")]),
    ("ADD_DOMAIN", .obj [("rel", .str "ADD"), ("href", .str "domains"), ("method", .str "pOsT")])]

/-- What they are decoded to. -/
def twoDecoded : Mapping Link :=
  [("LIST_DOMAINS", ⟨"LIST_DOMAINS", "domains", .get, [], []⟩),
    ("ADD_DOMAIN", ⟨"ADD", "domains", .post, [], []⟩)]

/-- A user with these links. -/
def userFields : Mapping Value := [("login", .str "u"), ("links", .obj twoLinks)]

/-- At the root and in the representation of a user they come to the same. -/
theorem two_links_agree :
    Subject.user ≠ .gear ∧ userFields.find? "links" = some (.obj twoLinks) ∧
      decodeLinks (.obj twoLinks) = .ok twoDecoded ∧
      Subject.user.decode (.obj userFields) = accepted (.user ⟨⟨twoDecoded, []⟩, "u", 0, 0⟩) ∧
      ∀ entry ∈ twoDecoded, entry.2.method.isKnown = true := by
  have hsubject : Subject.user ≠ .gear := nofun
  have hothers : Subject.user.decode (.obj (userFields.put "links" .null)) =
      accepted (.user ⟨⟨[], []⟩, "u", 0, 0⟩) := rfl
  have hlinks : decodeLinks (.obj twoLinks) = .ok twoDecoded := rfl
  obtain ⟨-, hagree⟩ := link_maps_agree hsubject rfl rfl hothers
  obtain ⟨hsame, -, hknown⟩ := hagree twoDecoded
  exact ⟨hsubject, rfl, hlinks, hsame.mp hlinks, hknown hlinks⟩

end Response

end BrokerClient
