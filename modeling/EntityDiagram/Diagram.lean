import EntityDiagram.Plane
import EntityDiagram.Schema

/-! A schema together with the places of its entities, and single changes to it. A change to an
entity is made to the first entity of that name. -/
namespace EntityDiagram

/-- An entity with the top left corner and the size of its box, where they are known. -/
structure Node (α : Type) extends Entity where
  position : Option (Point α)
  bounds : Option (Size α)
  deriving DecidableEq, Repr

structure Diagram (α : Type) where
  nodes : List (Node α)
  relationships : List Relationship
  generalizations : List Generalization
  deriving DecidableEq, Repr

/-- Changes the first member that satisfies a test. -/
def modifyFirst {β : Type} (p : β → Bool) (f : β → β) : List β → List β
  | [] => []
  | b :: rest => if p b then f b :: rest else b :: modifyFirst p f rest

@[simp] theorem length_modifyFirst {β : Type} (p : β → Bool) (f : β → β) (l : List β) :
    (modifyFirst p f l).length = l.length := by
  induction l with
  | nil => rfl
  | cons b rest ih => simp only [modifyFirst]; split <;> simp [ih]

/-- A change that keeps what `g` sees keeps what `g` sees of the list. -/
theorem map_modifyFirst {β γ : Type} (p : β → Bool) (f : β → β) (g : β → γ)
    (h : ∀ b, g (f b) = g b) (l : List β) : (modifyFirst p f l).map g = l.map g := by
  induction l with
  | nil => rfl
  | cons b rest ih => simp only [modifyFirst]; split <;> simp [ih, h]

/-- Changing the first member that satisfies a test changes one member that does, or none. -/
theorem modifyFirst_cases {β : Type} (p : β → Bool) (f : β → β) (l : List β) :
    modifyFirst p f l = l ∨ ∃ before b after, p b = true ∧ l = before ++ b :: after ∧
      modifyFirst p f l = before ++ f b :: after := by
  induction l with
  | nil => exact .inl rfl
  | cons c rest ih =>
    rw [modifyFirst]
    split
    · rename_i hc
      exact .inr ⟨[], c, rest, hc, rfl, rfl⟩
    · obtain hsame | ⟨before, b, after, hb, hrest, hchanged⟩ := ih
      · exact .inl (by rw [hsame])
      · exact .inr ⟨c :: before, b, after, hb, by rw [hrest]; rfl, by rw [hchanged]; rfl⟩

theorem mem_modifyFirst {β : Type} {p : β → Bool} {f : β → β} {l : List β} {b : β}
    (h : b ∈ modifyFirst p f l) : b ∈ l ∨ ∃ c ∈ l, p c = true ∧ b = f c := by
  obtain hsame | ⟨before, c, after, hc, rfl, hchanged⟩ := modifyFirst_cases p f l
  · exact .inl (hsame ▸ h)
  · rw [hchanged, List.mem_append, List.mem_cons] at h
    obtain hbefore | hself | hafter := h
    · exact .inl (List.mem_append_left _ hbefore)
    · exact .inr ⟨c, List.mem_append_right _ List.mem_cons_self, hc, hself⟩
    · exact .inl (List.mem_append_right _ (List.mem_cons_of_mem _ hafter))

theorem exists_mem_modifyFirst {β : Type} (p : β → Bool) (f : β → β) {l : List β} {b : β}
    (h : b ∈ l) :
    ∃ c ∈ modifyFirst p f l, c = b ∨ c = f b := by
  obtain hsame | ⟨before, c, after, -, rfl, hchanged⟩ := modifyFirst_cases p f l
  · exact ⟨b, by rwa [hsame], .inl rfl⟩
  · rw [hchanged]
    rcases List.mem_append.mp h with hbefore | hrest
    · exact ⟨b, List.mem_append_left _ hbefore, .inl rfl⟩
    · rcases List.mem_cons.mp hrest with rfl | hafter
      · exact ⟨f b, List.mem_append_right _ List.mem_cons_self, .inr rfl⟩
      · exact ⟨b, List.mem_append_right _ (List.mem_cons_of_mem _ hafter), .inl rfl⟩

namespace Diagram

variable {α : Type}

def empty : Diagram α := ⟨[], [], []⟩

/-- The schema without places. -/
def schema (d : Diagram α) : Schema :=
  ⟨d.nodes.map (·.toEntity), d.relationships, d.generalizations⟩

/-- A schema none of whose entities has a place. -/
def ofSchema (s : Schema) : Diagram α :=
  ⟨s.entities.map fun e => ⟨e, none, none⟩, s.relationships, s.generalizations⟩

@[simp] theorem schema_ofSchema (s : Schema) : (ofSchema (α := α) s).schema = s := by
  simp [schema, ofSchema, Function.comp_def]

def node? (d : Diagram α) (name : String) : Option (Node α) := d.nodes.find? (·.name = name)

def modifyNode (d : Diagram α) (name : String) (f : Node α → Node α) : Diagram α :=
  { d with nodes := modifyFirst (·.name = name) f d.nodes }

def setPosition (d : Diagram α) (name : String) (position : Option (Point α)) : Diagram α :=
  d.modifyNode name ({ · with position })

def setBounds (d : Diagram α) (name : String) (bounds : Option (Size α)) : Diagram α :=
  d.modifyNode name ({ · with bounds })

/-- Placing an entity leaves the schema as it is. -/
@[simp] theorem schema_setPosition (d : Diagram α) (name : String) (position : Option (Point α)) :
    (d.setPosition name position).schema = d.schema :=
  congrArg (Schema.mk · d.relationships d.generalizations)
    (map_modifyFirst _ _ _ (by intro; rfl) _)

@[simp] theorem schema_setBounds (d : Diagram α) (name : String) (bounds : Option (Size α)) :
    (d.setBounds name bounds).schema = d.schema :=
  congrArg (Schema.mk · d.relationships d.generalizations)
    (map_modifyFirst _ _ _ (by intro; rfl) _)

def removeEntity (d : Diagram α) (name : String) : Diagram α :=
  { d with nodes := d.nodes.eraseP (·.name = name) }

/-- Replaces one end of the relationship at an index. -/
def setSource (d : Diagram α) (index : Nat) (source : AttributeRef) : Diagram α :=
  { d with relationships := d.relationships.modify index ({ · with source }) }

def setTarget (d : Diagram α) (index : Nat) (target : AttributeRef) : Diagram α :=
  { d with relationships := d.relationships.modify index ({ · with target }) }

end Diagram

namespace Entity

/-- Moves an attribute to the end of the primary key, or to the end of the other attributes. -/
def moveAttribute (e : Entity) (name : String) (toKey : Bool) : Entity :=
  match e.attribute? name with
  | none => e
  | some a =>
    let inKey := e.key.any (·.name = name)
    let key := if inKey then e.key.eraseP (·.name = name) else e.key
    let others := if inKey then e.others else e.others.eraseP (·.name = name)
    if toKey then { e with key := key ++ [a], others } else { e with key, others := others ++ [a] }

/-- Changes what an attribute refers to. -/
def setReference (e : Entity) (name : String) (reference : Option AttributeRef) : Entity :=
  let change := modifyFirst (fun a : Attribute => a.name = name) ({ · with reference })
  if e.key.any (·.name = name) then { e with key := change e.key }
  else { e with others := change e.others }

end Entity

namespace Diagram

variable {α : Type}

def moveAttribute (d : Diagram α) (entity name : String) (toKey : Bool) : Diagram α :=
  d.modifyNode entity fun n => { n with toEntity := n.toEntity.moveAttribute name toKey }

def setReference (d : Diagram α) (entity name : String) (reference : Option AttributeRef) :
    Diagram α :=
  d.modifyNode entity fun n => { n with toEntity := n.toEntity.setReference name reference }

end Diagram

end EntityDiagram
