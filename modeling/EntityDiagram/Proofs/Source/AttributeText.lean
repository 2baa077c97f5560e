import EntityDiagram.Source.Printer
import EntityDiagram.Proofs.Source.AttributeLine

/-! Reading back the line of an attribute: what is printed for a declaration is a line of the
grammar, whatever stands in its type and in its label. -/
namespace EntityDiagram.Source

open Text

/-- What stands behind the name that a foreign key refers to. -/
def labelText (label : Option String) : List Char :=
  match label with
  | none => []
  | some label => [' ', '"'] ++ label.toList ++ ['"']

theorem labelClause_labelText {label : Option String} (hlabel : ∀ l ∈ label, IsQuotable l.toList) :
    LabelClause (labelText label) (label.map (·.toList)) := by
  cases label with
  | none => exact .absent
  | some l => exact .quoted isBlankRun_space (by simp) (hlabel l rfl).quoteFree

theorem keyText_eq (r : AttributeRef) (label : Option String) :
    keyText r label = ' ' :: 'F' :: 'K' :: ' ' :: '-' :: '>' :: ' ' ::
      (r.entity.toList ++ '.' :: (r.name.toList ++ labelText label)) := by
  cases label <;> simp [keyText, labelText]

/-- A foreign key is printed as the grammar has it. -/
theorem keyClause_keyText {r : AttributeRef} {label : Option String}
    (hentity : isName r.entity.toList = true) (hname : isName r.name.toList = true)
    (hlabel : ∀ l ∈ label, IsQuotable l.toList) :
    KeyClause (keyText r label) ⟨r.entity.toList, r.name.toList, label.map (·.toList)⟩ := by
  rw [keyText_eq]
  exact @KeyClause.key [' '] [' '] [' '] _ [] [] _ _ _ (by simp) isBlankRun_space isBlankRun_space
    isBlankRun_space hentity isBlankRun_nil isBlankRun_nil hname (labelClause_labelText hlabel)

/-- What stands behind the type of an attribute. -/
def Declaration.keyText (d : Declaration) : List Char :=
  match d.content.reference with
  | none => []
  | some reference => Source.keyText reference d.label

theorem Declaration.text_eq (d : Declaration) : d.text = markers d.isKey d.content ++
    (d.content.name.toList ++ ':' :: ' ' :: (d.content.type.toList ++ d.keyText)) := by
  change markers d.isKey d.content ++ d.content.name.toList ++ [':', ' '] ++
    d.content.type.toList ++ d.keyText = _
  simp only [List.append_assoc, List.cons_append, List.nil_append]

/-- The foreign key of a declaration as it is written. -/
def Declaration.foreignKey? (d : Declaration) : Option ForeignKey :=
  d.content.reference.map fun r => ⟨r.entity.toList, r.name.toList, d.label.map (·.toList)⟩

theorem Declaration.IsPrintable.optionalKey_keyText {d : Declaration} (h : d.IsPrintable) :
    OptionalKey d.keyText d.foreignKey? := by
  unfold Declaration.keyText Declaration.foreignKey?
  cases hreference : d.content.reference with
  | none => exact .absent
  | some r =>
    obtain ⟨hentity, hname⟩ := h.content.reference r hreference
    exact .present (keyClause_keyText hentity hname fun l hl => (h.label l hl).2)

theorem isMarker_of_mem_markers {isKey : Bool} {a : Attribute} :
    ∀ c ∈ markers isKey a, isMarker c = true := by
  intro c hc
  simp only [markers, List.mem_append] at hc
  rcases hc with (hc | hc) | hc <;> split_ifs at hc <;> simp_all [isMarker]

theorem isMarkerRun_markers (isKey : Bool) (a : Attribute) : IsMarkerRun (markers isKey a) := by
  refine ⟨fun c hc => .inl (isMarker_of_mem_markers c hc), ?_⟩
  apply repeatedMarker?_filter_eq_none_iff.mp
  unfold markers
  generalize a.optional = optional
  generalize a.many = many
  cases isKey <;> cases optional <;> cases many <;> decide

/-- The line of a declaration is a line of the grammar. -/
theorem Declaration.IsPrintable.attributeGrammar_text {d : Declaration} (h : d.IsPrintable) :
    AttributeGrammar d.text ⟨markers d.isKey d.content, d.content.name.toList,
      d.content.type.toList, d.foreignKey?⟩ := by
  have hfilter : (markers d.isKey d.content).filter isMarker = markers d.isKey d.content :=
    List.filter_eq_self.mpr isMarker_of_mem_markers
  have hline := @AttributeGrammar.line _ _ [] [' '] _ _ _ (isMarkerRun_markers d.isKey d.content)
    h.content.name isBlankRun_nil isBlankRun_space (isType_iff.mp h.content.type).1
    h.optionalKey_keyText
  rw [hfilter] at hline
  rw [d.text_eq]
  exact hline

theorem contains_markers (isKey : Bool) (a : Attribute) :
    (markers isKey a).contains '+' = isKey ∧ (markers isKey a).contains '?' = a.optional ∧
      (markers isKey a).contains '*' = a.many := by
  unfold markers
  generalize a.optional = optional
  generalize a.many = many
  cases isKey <;> cases optional <;> cases many <;> decide

theorem labelText?_written {entity name : List Char} {label : Option String}
    (h : ∀ l ∈ label, l ≠ "") :
    ForeignKey.labelText? ⟨entity, name, label.map (·.toList)⟩ = label := by
  rw [ForeignKey.labelText?_eq]
  cases label with
  | none => rfl
  | some l =>
    have hne : l.toList ≠ [] := mt String.toList_eq_nil_iff.mp (h l rfl)
    simp [Option.filter, nameOf, hne]

theorem Declaration.IsPrintable.declaration_eq {d : Declaration} (h : d.IsPrintable) :
    AttributeLine.declaration ⟨markers d.isKey d.content, d.content.name.toList,
      d.content.type.toList, d.foreignKey?⟩ = d := by
  obtain ⟨hkey, hoptional, hmany⟩ := contains_markers d.isKey d.content
  have hreference : d.foreignKey?.map (·.reference) = d.content.reference := by
    unfold Declaration.foreignKey?
    cases d.content.reference <;> simp [ForeignKey.reference, nameOf]
  have hlabel : d.foreignKey?.bind (·.labelText?) = d.label := by
    unfold Declaration.foreignKey?
    cases href : d.content.reference with
    | some r => exact labelText?_written fun l hl => (h.label l hl).1
    | none =>
      cases hlabel : d.label with
      | none => rfl
      | some l =>
        have := h.labelled (by simp [hlabel])
        simp [href] at this
  obtain ⟨isKey, ⟨name, type, optional, many, reference⟩, label⟩ := d
  simp_all [AttributeLine.declaration, nameOf]

/-- A declaration that can be written is read back from its line. -/
theorem entityLine_text {d : Declaration} (h : d.IsPrintable) (block : EntityBlock) (n : Nat) :
    entityLine block ⟨n, d.text⟩ = .to (.entityBody (block.declare ⟨n, d⟩)) := by
  rw [h.attributeGrammar_text.entityLine_eq, h.declaration_eq]

end EntityDiagram.Source
