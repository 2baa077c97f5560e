import EntityDiagram.Source.Scan
import EntityDiagram.Proofs.Source.FreeText

/-! The grammar of attribute lines. A line is read exactly when the grammar derives it, and it is
read as the only attribute that it derives. -/
namespace EntityDiagram.Source

open Text

/-- Markers in any order, each at most once, with blanks wherever they are free. -/
structure IsMarkerRun (t : List Char) : Prop where
  mem : ∀ c ∈ t, isMarker c = true ∨ isBlank c = true
  once : ∀ marker ∈ ['+', '?', '*'], t.count marker ≤ 1

/-- Markers, a name, a colon, a type, and perhaps a foreign key. The markers of the attribute are
without the blanks between them. -/
inductive AttributeGrammar : List Char → AttributeLine → Prop
  | line {front name gap₁ gap₂ type clause key} (marked : IsMarkerRun front)
    (name_isName : isName name = true) (blank₁ : IsBlankRun gap₁) (blank₂ : IsBlankRun gap₂)
    (typed : IsFreeText type) (keyed : OptionalKey clause key) :
    AttributeGrammar (front ++ (name ++ (gap₁ ++ ([':'] ++ (gap₂ ++ (type ++ clause))))))
      ⟨front.filter isMarker, name, type, key⟩

/-- The end of a line that closes nothing. -/
def EndsLine (t : List Char) : Prop := ∃ rest c, t = rest ++ [c] ∧ isBlank c = false ∧ c ≠ '\x7d'

variable {t w rest : List Char} {a b : AttributeLine}

theorem isMarker_iff {c : Char} : isMarker c = true ↔ c = '+' ∨ c = '?' ∨ c = '*' := by
  simp [isMarker, or_assoc]

theorem isMarker_eq_false {c : Char} (h : isWordChar c = true) : isMarker c = false := by
  cases hc : isMarker c with
  | false => rfl
  | true => rcases isMarker_iff.mp hc with rfl | rfl | rfl <;> exact absurd h (by decide)

theorem repeatedMarker?_filter_eq_none_iff :
    repeatedMarker? (t.filter isMarker) = none ↔
      ∀ marker ∈ ['+', '?', '*'], t.count marker ≤ 1 := by
  rw [repeatedMarker?, List.find?_eq_none]
  apply forall₂_congr
  intro marker hmarker
  rw [List.count_filter (isMarker_iff.mpr (by simpa using hmarker)), decide_eq_true_iff, not_lt]

/-- A name ends the markers and the blanks that stand before it. -/
theorem span_front {front : List Char} (hfront : ∀ c ∈ front, isMarker c = true ∨ isBlank c = true)
    (hname : isName name = true) (rest : List Char) :
    (front ++ (name ++ rest)).takeWhile (fun c => isMarker c || isBlank c) = front ∧
      (front ++ (name ++ rest)).dropWhile (fun c => isMarker c || isBlank c) = name ++ rest := by
  have hfront : ∀ c ∈ front, (isMarker c || isBlank c) = true := by
    simpa only [Bool.or_eq_true] using hfront
  obtain ⟨hne, hword⟩ := isName_iff.mp hname
  obtain ⟨c, w, rfl⟩ := List.exists_cons_of_ne_nil hne
  have hc : (isMarker c || isBlank c) = false := by
    have hword : isWordChar c = true := hword c List.mem_cons_self
    rw [isMarker_eq_false hword, isBlank_eq_false hword, Bool.or_false]
  constructor
  · rw [List.takeWhile_append_of_pos hfront, List.cons_append,
      List.takeWhile_cons_of_neg (by simpa using hc), List.append_nil]
  · rw [List.dropWhile_append_of_pos hfront, List.cons_append,
      List.dropWhile_cons_of_neg (by simpa using hc)]

/-- What the grammar derives is taken apart as it was put together. -/
theorem AttributeGrammar.attributeLine?_eq (h : AttributeGrammar t a) :
    attributeLine? t = some a := by
  cases h with
  | @line front name gap₁ gap₂ type clause key marked name_isName blank₁ blank₂ typed keyed =>
    have hcolon : ∀ c ∈ ([':'] ++ (gap₂ ++ (type ++ clause))).head?, isWordChar c = false :=
      forall_head?_cons (by decide)
    obtain ⟨htake, hdrop⟩ := span_front marked.mem name_isName
      (gap₁ ++ ([':'] ++ (gap₂ ++ (type ++ clause))))
    have hname := name?_eq_some_iff.mpr ⟨name_isName, rfl, head?_blankRun_append blank₁ hcolon⟩
    have hstart : StartsNonblank (type ++ clause) := by
      intro c hc
      rw [List.head?_append_of_ne_nil _ typed.ne_nil] at hc
      exact typed.starts c hc
    have hne : (type ++ clause).isEmpty = false := by simp [typed.ne_nil]
    unfold attributeLine?
    simp only [htake, hdrop, hname, Option.bind_eq_bind, Option.bind_some,
      isPrefixOf?_dropBlanks_append blank₁ (show isBlank ':' = false from rfl),
      dropBlanks_blankRun_append blank₂ hstart, hne, Bool.false_eq_true, if_false,
      splitType_append typed keyed List.suffix_rfl typed.ne_nil]

/-- The grammar is unambiguous. -/
theorem AttributeGrammar.unique (ha : AttributeGrammar t a) (hb : AttributeGrammar t b) : a = b :=
  Option.some.inj (ha.attributeLine?_eq.symm.trans hb.attributeLine?_eq)

/-- What the grammar derives is accepted. -/
theorem AttributeGrammar.readAttribute_eq (h : AttributeGrammar t a) (n : Nat) :
    readAttribute ⟨n, t⟩ = .ok ⟨n, a.declaration⟩ := by
  have hline := h.attributeLine?_eq
  cases h with
  | line marked name_isName blank₁ blank₂ typed keyed =>
    obtain ⟨-, -, -, hfragment, hbrace⟩ := isFreeText_iff.mp typed
    simp only [readAttribute, hline, repeatedMarker?_filter_eq_none_iff.mpr marked.once, hfragment,
      hbrace, Bool.false_eq_true, if_false]

/-- What is taken apart is all of the line: markers, a name, a colon, a trimmed type and perhaps a
foreign key. -/
theorem exists_parts_of_attributeLine? (h : attributeLine? t = some a) (hend : EndsNonblank t) :
    ∃ front gap₁ gap₂ clause,
      t = front ++ (a.name ++ (gap₁ ++ ([':'] ++ (gap₂ ++ (a.type ++ clause))))) ∧
      (∀ c ∈ front, isMarker c = true ∨ isBlank c = true) ∧ a.markers = front.filter isMarker ∧
      isName a.name = true ∧ IsBlankRun gap₁ ∧ IsBlankRun gap₂ ∧
      a.type ≠ [] ∧ StartsNonblank a.type ∧ EndsNonblank a.type ∧
      OptionalKey clause a.foreignKey := by
  simp only [attributeLine?, Option.bind_eq_bind, Option.bind_eq_some_iff, Prod.exists,
    Option.ite_none_left_eq_some] at h
  obtain ⟨name, afterName, hname, afterColon, hcolon, hempty, h⟩ := h
  cases h
  obtain ⟨hnameName, hfront, -⟩ := name?_eq_some_iff.mp hname
  obtain ⟨gap₁, hgap₁, rfl⟩ := exists_of_isPrefixOf?_dropBlanks hcolon
  obtain ⟨gap₂, hgap₂, htyped⟩ := exists_blankRun afterColon
  have hstart := startsNonblank_dropBlanks afterColon
  generalize dropBlanks afterColon = typed at hempty htyped hstart
  have ht : t = t.takeWhile (fun c => isMarker c || isBlank c) ++
      (name ++ (gap₁ ++ ([':'] ++ (gap₂ ++ typed)))) := by
    rw [← htyped, ← hfront, List.takeWhile_append_dropWhile]
  have htypedEnd : EndsNonblank typed := by
    rw [ht] at hend
    simp only [← List.append_assoc] at hend
    exact hend.suffix (List.suffix_append _ _)
  obtain ⟨clause, hsplit, hkey⟩ := exists_optionalKey_splitType htypedEnd
  have hhead := head?_splitType typed
  refine ⟨_, gap₁, gap₂, clause, ?_, ?_, rfl, hnameName, hgap₁, hgap₂, ?_, ?_,
    endsNonblank_splitType (.inl hstart) htypedEnd, hkey⟩
  · rw [← hsplit]
    exact ht
  · intro c hc
    simpa only [Bool.or_eq_true] using List.mem_takeWhile_imp hc
  · intro (hnil : (splitType typed).1 = [])
    rw [hnil, List.head?_nil] at hhead
    simp [List.head?_eq_none_iff.mp hhead.symm] at hempty
  · intro c hc
    exact hstart c (hhead ▸ hc)

/-- What is accepted is derived by the grammar. -/
theorem exists_attributeGrammar_of_readAttribute {line : Line} {d : Located Declaration}
    (h : readAttribute line = .ok d) (hend : EndsNonblank line.text) :
    ∃ a, AttributeGrammar line.text a ∧ d = ⟨line.number, a.declaration⟩ := by
  unfold readAttribute at h
  split at h
  · contradiction
  rename_i a ha
  split at h
  · contradiction
  rename_i hmarkers
  split_ifs at h with hfragment hbrace
  cases h
  obtain ⟨front, gap₁, gap₂, clause, ht, hfront, hfilter, hname, hgap₁, hgap₂, hne, hstarts, hends,
    hkey⟩ := exists_parts_of_attributeLine? ha hend
  obtain ⟨markers, name, type, foreignKey⟩ := a
  subst hfilter
  refine ⟨_, ?_, rfl⟩
  rw [ht]
  -- The tests that the parts have passed are what the grammar asks of them.
  exact .line ⟨hfront, repeatedMarker?_filter_eq_none_iff.mp hmarkers⟩ hname hgap₁ hgap₂
    (isFreeText_iff.mpr ⟨hne, hstarts, hends, by simpa using hfragment, by simpa using hbrace⟩) hkey

/-! A line of the grammar closes nothing. -/

theorem EndsLine.append (h : EndsLine t) (u : List Char) : EndsLine (u ++ t) := by
  obtain ⟨rest, c, rfl, hc⟩ := h
  exact ⟨u ++ rest, c, by rw [List.append_assoc], hc⟩

theorem EndsLine.endsNonblank (h : EndsLine t) : EndsNonblank t := by
  obtain ⟨rest, c, rfl, hc, -⟩ := h
  exact endsNonblank_append_singleton.mpr hc

theorem EndsLine.splitClose_eq (h : EndsLine t) : splitClose t = (t, false) := by
  obtain ⟨rest, c, rfl, -, hc⟩ := h
  rw [splitClose, if_neg (by simpa using hc)]

theorem endsLine_of_isName (h : isName t = true) : EndsLine t := by
  obtain ⟨hne, hall⟩ := isName_iff.mp h
  refine ⟨t.dropLast, t.getLast hne, (List.dropLast_concat_getLast hne).symm, ?_⟩
  have hlast := hall _ (List.getLast_mem hne)
  refine ⟨isBlank_eq_false hlast, ?_⟩
  intro hbrace
  rw [hbrace] at hlast
  exact absurd hlast (by decide)

theorem IsFreeText.endsLine (h : IsFreeText t) : EndsLine t := by
  refine ⟨t.dropLast, t.getLast h.ne_nil, (List.dropLast_concat_getLast h.ne_nil).symm, ?_⟩
  refine ⟨h.ends _ (List.getLast?_eq_some_getLast h.ne_nil), ?_⟩
  intro hbrace
  exact h.braceFree.2 (hbrace ▸ List.getLast_mem h.ne_nil)

theorem LabelClause.endsLine {label : Option (List Char)} (h : LabelClause t label)
    (hw : isName w = true) : EndsLine (w ++ t) := by
  cases h with
  | absent =>
    rw [List.append_nil]
    exact endsLine_of_isName hw
  | @quoted gap label blank ne_nil quoteFree =>
    apply EndsLine.append
    apply EndsLine.append
    exact ⟨'"' :: label, '"', rfl, by decide⟩

theorem KeyClause.endsLine {k : ForeignKey} (h : KeyClause t k) : EndsLine t := by
  cases h with
  | key ne_nil blank₁ blank₂ blank₃ entity_isName blank₄ blank₅ name_isName labelled =>
    iterate 9 apply EndsLine.append
    exact labelled.endsLine name_isName

theorem AttributeGrammar.endsLine (h : AttributeGrammar t a) : EndsLine t := by
  cases h with
  | line marked name_isName blank₁ blank₂ typed keyed =>
    iterate 5 apply EndsLine.append
    cases keyed with
    | absent =>
      rw [List.append_nil]
      exact typed.endsLine
    | present keyed => exact keyed.endsLine.append _

/-- A line of the grammar declares its attribute in the entity whose block is open. -/
theorem AttributeGrammar.entityLine_eq (h : AttributeGrammar t a) (block : EntityBlock) (n : Nat) :
    entityLine block ⟨n, t⟩ = .to (.entityBody (block.declare ⟨n, a.declaration⟩)) := by
  have hne : t.isEmpty = false := by
    obtain ⟨rest, c, rfl, -⟩ := h.endsLine
    simp
  simp only [entityLine, h.endsLine.splitClose_eq, hne, h.readAttribute_eq, Bool.false_eq_true,
    if_false]

/-- An empty label is none. -/
theorem ForeignKey.labelText?_eq (k : ForeignKey) :
    k.labelText? = (k.label.filter (· ≠ [])).map nameOf := by
  obtain ⟨entity, name, label⟩ := k
  rcases label with _ | _ | ⟨c, text⟩ <;> simp [labelText?, Option.filter, nameOf]

end EntityDiagram.Source
