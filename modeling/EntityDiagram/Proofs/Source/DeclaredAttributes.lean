import EntityDiagram.Proofs.Source.AttributeGrammar
import EntityDiagram.Proofs.Source.Blocks

/-! What an attribute line adds to its entity. Nothing that was declared before changes: the
attribute goes to the end of the primary key or of the other attributes, and a foreign key makes one
more relationship. -/
namespace EntityDiagram.Source

open Text

/-- An entity with one more attribute, the last of its primary key or of its other attributes. -/
def withAttribute (e : Entity) (isKey : Bool) (a : Attribute) : Entity :=
  if isKey then { e with key := e.key ++ [a] } else { e with others := e.others ++ [a] }

namespace EntityBlock

variable (b : EntityBlock) (d : Located Declaration)

theorem entity_declare :
    (b.declare d).entity = withAttribute b.entity d.value.isKey d.value.content := by
  cases hkey : d.value.isKey <;> simp [entity, declare, attributesWhere, withAttribute, hkey]

theorem relationships_declare : (b.declare d).relationships =
    b.relationships ++ ((relationship? b.name d.value).map (⟨d.line, ·⟩)).toList := by
  simp only [relationships, declare, List.filterMap_append, List.filterMap_cons, List.filterMap_nil]
  cases relationship? b.name d.value <;> rfl

end EntityBlock

/-- A declaration with a new name repeats nothing, and nothing repeats it. -/
theorem repeatedDeclaration?_append_of_new {d : Located Declaration} {earlier : List String}
    {declarations : List (Located Declaration)} (hearlier : d.value.content.name ∉ earlier)
    (hnew : d.value.content.name ∉ declarations.map (·.value.content.name)) :
    repeatedDeclaration? earlier (declarations ++ [d]) =
      repeatedDeclaration? earlier declarations := by
  induction declarations generalizing earlier with
  | nil => simp [repeatedDeclaration?, hearlier]
  | cons c rest ih =>
    rw [List.map_cons, List.mem_cons, not_or] at hnew
    rw [List.cons_append, repeatedDeclaration?, repeatedDeclaration?]
    rw [ih (List.not_mem_cons_of_ne_of_not_mem hnew.1 hearlier) hnew.2]

/-- An attribute line is accepted exactly when the grammar derives it, and it is derived in one way
only. It then adds the attribute that the grammar names, to the primary key exactly when it is
marked so, and a relationship exactly when it holds a foreign key; where the name is new to the
entity, no name is declared twice that was not before. -/
theorem readAttribute_iff_attributeGrammar (block : EntityBlock) (line : Line)
    (hend : EndsNonblank line.text) :
    ((∃ d, readAttribute line = .ok d) ↔ ∃ a, AttributeGrammar line.text a) ∧
      (∀ a b, AttributeGrammar line.text a → AttributeGrammar line.text b → a = b) ∧
      ∀ a, AttributeGrammar line.text a →
        ∃ later, entityLine block line = .to (.entityBody later) ∧
          later.entity = withAttribute block.entity ('+' ∈ a.markers)
            ⟨nameOf a.name, nameOf a.type, '?' ∈ a.markers, '*' ∈ a.markers,
              a.foreignKey.map fun k => ⟨nameOf k.entity, nameOf k.name⟩⟩ ∧
          later.relationships = block.relationships ++ (a.foreignKey.map fun k =>
            ⟨line.number, ⟨block.name, nameOf a.name⟩, ⟨nameOf k.entity, nameOf k.name⟩,
              (k.label.filter (· ≠ [])).map nameOf⟩).toList ∧
          (nameOf a.name ∉ block.entity.attributes.map (·.name) →
            repeatedDeclaration? [] later.declarations =
              repeatedDeclaration? [] block.declarations) := by
  refine ⟨?_, fun a b => AttributeGrammar.unique, ?_⟩
  · constructor
    · rintro ⟨d, hd⟩
      obtain ⟨a, ha, -⟩ := exists_attributeGrammar_of_readAttribute hd hend
      exact ⟨a, ha⟩
    · rintro ⟨a, ha⟩
      exact ⟨_, ha.readAttribute_eq line.number⟩
  · intro a ha
    refine ⟨_, ha.entityLine_eq block line.number, ?_, ?_, ?_⟩
    · simp only [EntityBlock.entity_declare, AttributeLine.declaration, List.contains_eq_mem]
      rfl
    · rw [EntityBlock.relationships_declare]
      cases hkey : a.foreignKey with
      | none => simp [AttributeLine.declaration, EntityBlock.relationship?, hkey]
      | some k =>
        simp [AttributeLine.declaration, EntityBlock.relationship?, ForeignKey.reference, hkey,
          k.labelText?_eq]
    · intro hnew
      apply repeatedDeclaration?_append_of_new List.not_mem_nil
      rw [(block.attributes_perm.map _).mem_iff, List.map_map] at hnew
      exact hnew

/-- A label that looks like a foreign key stays a label. -/
theorem readAttribute_iff_attributeGrammar_of_key_in_label :
    ∃ a later, AttributeGrammar "+ ? a :t FK->B .b \"x FK -> C.c\"".toList a ∧
      (∀ b, AttributeGrammar "+ ? a :t FK->B .b \"x FK -> C.c\"".toList b → b = a) ∧
      a = ⟨['+', '?'], ['a'], ['t'], some ⟨['B'], ['b'], some "x FK -> C.c".toList⟩⟩ ∧
      entityLine (.opened "A" 1) ⟨2, "+ ? a :t FK->B .b \"x FK -> C.c\"".toList⟩ =
        .to (.entityBody later) ∧
      later.entity = ⟨"A", [⟨"a", "t", true, false, some ⟨"B", "b"⟩⟩], []⟩ ∧
      later.relationships = [⟨2, ⟨"A", "a"⟩, ⟨"B", "b"⟩, some "x FK -> C.c"⟩] ∧
      repeatedDeclaration? [] later.declarations = none := by
  have hend : EndsNonblank "+ ? a :t FK->B .b \"x FK -> C.c\"".toList := by
    have hlast : "+ ? a :t FK->B .b \"x FK -> C.c\"".toList.getLast? = some '"' := by decide +kernel
    intro c hc
    rw [hlast] at hc
    cases hc
    rfl
  obtain ⟨haccepted, hunique, hadded⟩ := readAttribute_iff_attributeGrammar (.opened "A" 1)
    ⟨2, "+ ? a :t FK->B .b \"x FK -> C.c\"".toList⟩ hend
  have hread : readAttribute ⟨2, "+ ? a :t FK->B .b \"x FK -> C.c\"".toList⟩ = .ok
      ⟨2, true, ⟨"a", "t", true, false, some ⟨"B", "b"⟩⟩, some "x FK -> C.c"⟩ := by
    decide +kernel
  obtain ⟨a, ha⟩ := haccepted.mp ⟨_, hread⟩
  have hparts : a = ⟨['+', '?'], ['a'], ['t'], some ⟨['B'], ['b'], some "x FK -> C.c".toList⟩⟩ := by
    have hline : attributeLine? "+ ? a :t FK->B .b \"x FK -> C.c\"".toList = some
        ⟨['+', '?'], ['a'], ['t'], some ⟨['B'], ['b'], some "x FK -> C.c".toList⟩⟩ := by
      decide +kernel
    exact Option.some.inj (ha.attributeLine?_eq.symm.trans hline)
  obtain ⟨later, hstep, hentity, hrelationships, hnew⟩ := hadded a ha
  subst hparts
  exact ⟨_, later, ha, fun b hb => hunique b _ hb ha, rfl, hstep, hentity, hrelationships,
    hnew List.not_mem_nil⟩

end EntityDiagram.Source
