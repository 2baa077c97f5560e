import EntityDiagram.Diagram
import EntityDiagram.Proofs.Pairing
import EntityDiagram.Proofs.Schema.ForeignKeys
import Mathlib.Logic.Relation

/-! Attributes moved between the primary key of their entity and its other attributes. However many
moves are made, names stay distinct, references lead where they led, and every relationship is still
made by the same attribute; only its place in the entity has changed. -/
namespace EntityDiagram

/-- One attribute taken from one of the two lists of its entity and put anywhere into the other. -/
inductive Entity.Moves : Entity → Entity → Prop
  | intoKey (name : String) (k₁ k₂ o₁ o₂ : List Attribute) (a : Attribute) :
      Moves ⟨name, k₁ ++ k₂, o₁ ++ a :: o₂⟩ ⟨name, k₁ ++ a :: k₂, o₁ ++ o₂⟩
  | outOfKey (name : String) (k₁ k₂ o₁ o₂ : List Attribute) (a : Attribute) :
      Moves ⟨name, k₁ ++ a :: k₂, o₁ ++ o₂⟩ ⟨name, k₁ ++ k₂, o₁ ++ a :: o₂⟩

/-- The same attributes in another order or division. -/
structure Entity.Rearranges (e f : Entity) : Prop where
  name : f.name = e.name
  attributes : f.attributes.Perm e.attributes

theorem Entity.Moves.rearranges {e f : Entity} (h : e.Moves f) : e.Rearranges f := by
  cases h with
  | intoKey name k₁ k₂ o₁ o₂ a =>
    refine ⟨rfl, ?_⟩
    simp only [attributes, List.append_assoc, List.cons_append]
    apply List.Perm.append_left
    have hcross : (k₂ ++ o₁ ++ a :: o₂).Perm (a :: (k₂ ++ o₁ ++ o₂)) := List.perm_middle
    simpa using hcross.symm
  | outOfKey name k₁ k₂ o₁ o₂ a =>
    refine ⟨rfl, ?_⟩
    simp only [attributes, List.append_assoc, List.cons_append]
    apply List.Perm.append_left
    have hcross : (k₂ ++ o₁ ++ a :: o₂).Perm (a :: (k₂ ++ o₁ ++ o₂)) := List.perm_middle
    simpa using hcross

namespace Schema

/-- One attribute of one entity moved. -/
inductive Moves : Schema → Schema → Prop
  | entity {e f : Entity} (h : e.Moves f) (before after : List Entity)
      (relationships : List Relationship) (generalizations : List Generalization) :
      Moves ⟨before ++ e :: after, relationships, generalizations⟩
        ⟨before ++ f :: after, relationships, generalizations⟩

/-- A schema whose entities are rearranged, one by one. -/
structure Rearranges (s t : Schema) : Prop where
  relationships : t.relationships = s.relationships
  entities : List.Forall₂ Entity.Rearranges s.entities t.entities

variable {s t u : Schema}

theorem Rearranges.refl (s : Schema) : s.Rearranges s :=
  ⟨rfl, List.forall₂_same.mpr fun _ _ => ⟨rfl, .refl _⟩⟩

theorem Rearranges.trans (h : s.Rearranges t) (k : t.Rearranges u) : s.Rearranges u := by
  refine ⟨k.relationships.trans h.relationships, ?_⟩
  have hentities := h.entities
  have kentities := k.entities
  generalize s.entities = before at hentities
  generalize t.entities = middle at hentities kentities
  generalize u.entities = after at kentities
  induction hentities generalizing after with
  | nil =>
    cases kentities
    exact .nil
  | cons h _ ih =>
    cases kentities with
    | cons k rest =>
      exact .cons ⟨k.name.trans h.name, k.attributes.trans h.attributes⟩ (ih _ rest)

theorem Moves.rearranges (h : s.Moves t) : s.Rearranges t := by
  cases h with
  | entity h before after relationships generalizations =>
    refine ⟨rfl, ?_⟩
    have hsame : ∀ l : List Entity, List.Forall₂ Entity.Rearranges l l := fun l =>
      (Rearranges.refl ⟨l, [], []⟩).entities
    exact List.rel_append (hsame before) (.cons h.rearranges (hsame after))

/-- What a whole run of moves leaves as it was. -/
theorem rearranges_of_moves (h : Relation.ReflTransGen Moves s t) : s.Rearranges t := by
  induction h with
  | refl => exact .refl s
  | tail _ hmove ih => exact ih.trans hmove.rearranges

lemma Rearranges.names_eq (h : s.Rearranges t) :
    t.entities.map (·.name) = s.entities.map (·.name) :=
  (Pairing.map_eq_map h.entities fun _ _ hentity => hentity.name.symm).symm

theorem Rearranges.exists_after (h : s.Rearranges t) {e : Entity} (he : e ∈ s.entities) :
    ∃ f ∈ t.entities, e.Rearranges f := Pairing.exists_partner h.entities he

theorem Rearranges.exists_before (h : s.Rearranges t) {f : Entity} (hf : f ∈ t.entities) :
    ∃ e ∈ s.entities, e.Rearranges f := Pairing.exists_left_partner h.entities hf

theorem Rearranges.hasDistinctNames (h : s.Rearranges t) (names : s.HasDistinctNames) :
    t.HasDistinctNames := by
  refine ⟨h.names_eq ▸ names.entities, ?_⟩
  intro f hf
  obtain ⟨e, he, hef⟩ := h.exists_before hf
  exact (hef.attributes.map (·.name)).nodup_iff.mpr (names.attributes e he)

theorem Rearranges.hasAttribute (h : s.Rearranges t) {r : AttributeRef} (hr : s.HasAttribute r) :
    t.HasAttribute r := by
  obtain ⟨e, he, a, ha, rfl⟩ := hr
  obtain ⟨f, hf, hef⟩ := h.exists_after he
  exact ⟨f, hf, a, hef.attributes.mem_iff.mpr ha, by rw [hef.name]⟩

theorem Rearranges.exists_madeBy (h : s.Rearranges t) {r : Relationship} {e : Entity}
    {a : Attribute} (hr : s.MadeBy r e a) : ∃ f, e.Rearranges f ∧ t.MadeBy r f a := by
  obtain ⟨f, hf, hef⟩ := h.exists_after hr.mem_entities
  refine ⟨f, hef, hf, hef.attributes.mem_iff.mpr hr.mem_attributes, ?_, hr.reference_eq⟩
  rw [hr.source_eq, hef.name]

end Schema

lemma exists_split_of_find? {β : Type} {p : β → Bool} {l : List β} {b : β}
    (h : l.find? p = some b) : ∃ l₁ l₂, l = l₁ ++ b :: l₂ ∧ l.eraseP p = l₁ ++ l₂ := by
  obtain ⟨hb, l₁, l₂, rfl, hbefore⟩ := List.find?_eq_some_iff_append.mp h
  refine ⟨l₁, l₂, rfl, ?_⟩
  rw [List.eraseP_append_right _ (by simpa using hbefore), List.eraseP_cons_of_pos hb]

/-- Taking an attribute out by its name and appending it to one of the lists is at most two
moves. -/
theorem Entity.moves_moveAttribute (e : Entity) (name : String) (toKey : Bool) :
    Relation.ReflTransGen Moves e (e.moveAttribute name toKey) := by
  obtain ⟨title, key, others⟩ := e
  simp only [moveAttribute]
  cases hfind : attribute? ⟨title, key, others⟩ name with
  | none => exact .refl
  | some a =>
    rw [attribute?, attributes, List.find?_append] at hfind
    cases hkey : key.find? (·.name = name) with
    | some b =>
      have hname := List.find?_some hkey
      have hin : key.any (·.name = name) = true :=
        List.any_eq_true.mpr ⟨b, List.mem_of_find?_eq_some hkey, hname⟩
      obtain rfl : b = a := by simpa [hkey] using hfind
      obtain ⟨k₁, k₂, rfl, herase⟩ := exists_split_of_find? hkey
      simp only [hin, herase, if_true]
      cases toKey with
      | false => exact .single (by simpa using Moves.outOfKey title k₁ k₂ others [] b)
      | true =>
        have hout := Moves.outOfKey title k₁ k₂ [] others b
        have hback := Moves.intoKey title (k₁ ++ k₂) [] [] others b
        simp only [List.nil_append, List.append_nil] at hout hback
        exact .tail (.single hout) hback
    | none =>
      have hout : key.any (·.name = name) = false := by
        simpa using List.find?_eq_none.mp hkey
      have hothers : others.find? (·.name = name) = some a := by simpa [hkey] using hfind
      obtain ⟨o₁, o₂, rfl, herase⟩ := exists_split_of_find? hothers
      simp only [hout, herase, Bool.false_eq_true, if_false]
      cases toKey with
      | false =>
        have hin := Moves.intoKey title [] key o₁ o₂ a
        have hback := Moves.outOfKey title [] key (o₁ ++ o₂) [] a
        simp only [List.nil_append, List.append_nil] at hin hback
        exact .tail (.single hin) hback
      | true => exact .single (by simpa using Moves.intoKey title key [] o₁ o₂ a)

/-- A move inside an entity is a move of the schema. -/
theorem Schema.moves_of_entity {e f : Entity} (h : Relation.ReflTransGen Entity.Moves e f)
    (before after : List Entity) (relationships : List Relationship)
    (generalizations : List Generalization) :
    Relation.ReflTransGen Moves ⟨before ++ e :: after, relationships, generalizations⟩
      ⟨before ++ f :: after, relationships, generalizations⟩ := by
  induction h with
  | refl => exact .refl
  | tail _ hmove ih => exact ih.tail (.entity hmove before after relationships generalizations)

theorem Diagram.moves_moveAttribute {α : Type} (d : Diagram α) (entity name : String)
    (toKey : Bool) :
    Relation.ReflTransGen Schema.Moves d.schema (d.moveAttribute entity name toKey).schema := by
  obtain ⟨nodes, relationships, generalizations⟩ := d
  simp only [moveAttribute, modifyNode, schema]
  rcases modifyFirst_cases (fun n : Node α => n.name = entity)
    (fun n => { n with toEntity := n.toEntity.moveAttribute name toKey }) nodes with
    hsame | ⟨before, n, after, -, rfl, hchanged⟩
  · rw [hsame]
  · rw [hchanged, List.map_append, List.map_append, List.map_cons, List.map_cons]
    exact Schema.moves_of_entity (n.toEntity.moves_moveAttribute name toKey) _ _ _ _

/-- Moves attributes one after the other. Each is named with its entity; it goes to the end of the
primary key or to the end of the other attributes. -/
def Diagram.moveAttributes {α : Type} (d : Diagram α) : List (String × String × Bool) → Diagram α
  | [] => d
  | (entity, name, toKey) :: rest => (d.moveAttribute entity name toKey).moveAttributes rest

/-- Any sequence of moves by name is a run of moves. -/
theorem Diagram.moves_moveAttributes {α : Type} (d : Diagram α)
    (moves : List (String × String × Bool)) :
    Relation.ReflTransGen Schema.Moves d.schema (d.moveAttributes moves).schema := by
  induction moves generalizing d with
  | nil => exact .refl
  | cons move rest ih => exact (d.moves_moveAttribute _ _ _).trans (ih _)

end EntityDiagram
