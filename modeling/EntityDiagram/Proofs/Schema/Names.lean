import EntityDiagram.Schema.Validity
import Mathlib.Data.List.Nodup

/-! Schemas whose names are distinct. In them a lookup by first occurrence finds exactly the entity
or attribute that bears the name. -/
namespace EntityDiagram

/-- Among distinct keys a search by key finds the member that has it. -/
theorem find?_key_eq_some {β γ : Type} [DecidableEq γ] {key : β → γ} {l : List β}
    (h : (l.map key).Nodup) {b : β} (hb : b ∈ l) : l.find? (key · = key b) = some b := by
  cases hf : l.find? (key · = key b) with
  | none =>
    have := List.find?_eq_none.mp hf b hb
    simp at this
  | some a =>
    have hkey := List.find?_some hf
    rw [List.inj_on_of_nodup_map h (List.mem_of_find?_eq_some hf) hb (by simpa using hkey)]

theorem firstRepeat_eq_none_iff (earlier names : List String) :
    firstRepeat earlier names = none ↔ names.Nodup ∧ ∀ name ∈ names, name ∉ earlier := by
  induction names generalizing earlier with
  | nil => simp [firstRepeat]
  | cons name rest ih =>
    by_cases h : name ∈ earlier
    · simp [firstRepeat, h]
    · rw [firstRepeat, if_neg h, ih, List.nodup_cons]
      grind

namespace Schema

/-- Names of entities are distinct, and so are the names of the attributes of each entity. -/
structure HasDistinctNames (s : Schema) : Prop where
  entities : (s.entities.map (·.name)).Nodup
  attributes : ∀ e ∈ s.entities, (e.attributes.map (·.name)).Nodup

lemma repeatViolation?_eq_none_iff (earlier : List String) (entities : List Entity) :
    repeatViolation? earlier entities = none ↔
      (entities.map (·.name)).Nodup ∧ (∀ e ∈ entities, e.name ∉ earlier) ∧
        ∀ e ∈ entities, (e.attributes.map (·.name)).Nodup := by
  induction entities generalizing earlier with
  | nil => simp [repeatViolation?]
  | cons e rest ih =>
    by_cases h : e.name ∈ earlier
    · simp [repeatViolation?, h]
    · rw [repeatViolation?, if_neg h, Option.or_eq_none_iff, Option.map_eq_none_iff,
        firstRepeat_eq_none_iff, ih, List.map_cons, List.nodup_cons]
      grind

theorem repeatViolation?_eq_none_iff_hasDistinctNames (s : Schema) :
    repeatViolation? [] s.entities = none ↔ s.HasDistinctNames := by
  rw [repeatViolation?_eq_none_iff]
  constructor
  · rintro ⟨entities, -, attributes⟩
    exact ⟨entities, attributes⟩
  · intro h
    exact ⟨h.entities, by simp, h.attributes⟩

/-- An attribute reference that leads to an attribute. -/
def HasAttribute (s : Schema) (r : AttributeRef) : Prop :=
  ∃ e ∈ s.entities, ∃ a ∈ e.attributes, r = ⟨e.name, a.name⟩

variable {s : Schema}

lemma HasAttribute.mem_entities {r : AttributeRef} (h : s.HasAttribute r) :
    r.entity ∈ s.entities.map (·.name) := by
  obtain ⟨e, he, a, -, rfl⟩ := h
  exact List.mem_map_of_mem he

theorem HasDistinctNames.entity?_eq (h : s.HasDistinctNames) {e : Entity} (he : e ∈ s.entities) :
    s.entity? e.name = some e := find?_key_eq_some h.entities he

theorem HasDistinctNames.attribute?_eq (h : s.HasDistinctNames) {e : Entity}
    (he : e ∈ s.entities) {a : Attribute} (ha : a ∈ e.attributes) :
    e.attribute? a.name = some a := find?_key_eq_some (h.attributes e he) ha

lemma mem_of_entity?_eq_some {name : String} {e : Entity} (h : s.entity? name = some e) :
    e ∈ s.entities ∧ e.name = name :=
  ⟨List.mem_of_find?_eq_some h, by simpa using List.find?_some h⟩

theorem isSome_entity?_iff (s : Schema) (name : String) :
    (s.entity? name).isSome ↔ name ∈ s.entities.map (·.name) := by
  simp [entity?, List.find?_isSome]

theorem isSome_attribute?_iff (e : Entity) (name : String) :
    (e.attribute? name).isSome ↔ name ∈ e.attributes.map (·.name) := by
  simp [Entity.attribute?, List.find?_isSome]

/-- In a schema with distinct names a reference is sound exactly when it leads to an attribute. -/
theorem HasDistinctNames.referenceViolation?_eq_none_iff (h : s.HasDistinctNames)
    (r : AttributeRef) : s.referenceViolation? r = none ↔ s.HasAttribute r := by
  constructor
  · intro hr
    unfold referenceViolation? at hr
    split at hr
    · contradiction
    · rename_i e he
      obtain ⟨hmem, hname⟩ := mem_of_entity?_eq_some he
      have hsome : (e.attribute? r.name).isSome := by
        by_contra hn
        simp [Option.not_isSome_iff_eq_none.mp hn] at hr
      obtain ⟨a, ha, haname⟩ := List.mem_map.mp ((isSome_attribute?_iff e r.name).mp hsome)
      exact ⟨e, hmem, a, ha, by cases r; simp_all⟩
  · rintro ⟨e, he, a, ha, rfl⟩
    simp [referenceViolation?, h.entity?_eq he, h.attribute?_eq he ha]

end Schema

end EntityDiagram
