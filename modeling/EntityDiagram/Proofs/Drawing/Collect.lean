import EntityDiagram.Drawing

/-! How a drawing is put together from its parts. A drawing exists when every part has one, and then
it is made of theirs in order, errors as well as primitives. -/
namespace EntityDiagram

/-- A computation with two steps has an answer when both steps have one. -/
theorem bind_eq_ok_iff {ε β γ : Type} {x : Except ε β} {f : β → Except ε γ} {c : γ} :
    (x >>= f) = .ok c ↔ ∃ b, x = .ok b ∧ f b = .ok c := by
  cases x with
  | error e => simp [bind, Except.bind]
  | ok b => simp [bind, Except.bind]

/-- A computation with two steps fails in one of them. -/
theorem bind_eq_error_iff {ε β γ : Type} {x : Except ε β} {f : β → Except ε γ} {e : ε} :
    (x >>= f) = .error e ↔ x = .error e ∨ ∃ b, x = .ok b ∧ f b = .error e := by
  cases x with
  | error e => simp [bind, Except.bind]
  | ok b => simp [bind, Except.bind]

theorem map_eq_ok_iff {ε β γ : Type} {x : Except ε β} {f : β → γ} {c : γ} :
    x.map f = .ok c ↔ ∃ b, x = .ok b ∧ f b = c := by
  cases x with
  | error e => simp [Except.map]
  | ok b => simp [Except.map]

theorem map_eq_error_iff {ε β γ : Type} {x : Except ε β} {f : β → γ} {e : ε} :
    x.map f = .error e ↔ x = .error e := by
  cases x with
  | error e => simp [Except.map]
  | ok b => simp [Except.map]

theorem mapError_eq_ok_iff {ε δ β : Type} {x : Except ε β} {f : ε → δ} {b : β} :
    x.mapError f = .ok b ↔ x = .ok b := by
  cases x with
  | error e =>
    constructor
    · intro h
      contradiction
    · intro h
      contradiction
  | ok c =>
    change Except.ok c = Except.ok b ↔ _
    rw [Except.ok.injEq, Except.ok.injEq]

theorem exists_ok_of_isOk {ε β : Type} {x : Except ε β} (h : x.isOk = true) : ∃ b, x = .ok b := by
  cases x with
  | error e => contradiction
  | ok b => exact ⟨b, rfl⟩

namespace Drawing

variable {α : Type} {parts rest : List (Except ArithmeticFault (Drawing α))} {drawing : Drawing α}

/-- Drawings one after the other. -/
def join (drawings : List (Drawing α)) : Drawing α :=
  ⟨drawings.flatMap (·.primitives), drawings.flatMap (·.errors)⟩

theorem join_cons (first : Drawing α) (drawings : List (Drawing α)) :
    join (first :: drawings) = first ++ join drawings := rfl

theorem join_append (before after : List (Drawing α)) :
    join (before ++ after) = join before ++ join after := by
  simp only [join, List.flatMap_append]
  rfl

/-- Drawings of one primitive each. -/
theorem primitives_join_map_single {β : Type} (f : β → Primitive α) (l : List β) :
    (join (l.map fun b => ⟨[f b], []⟩)).primitives = l.map f := by
  induction l with
  | nil => rfl
  | cons b rest ih => rw [List.map_cons, join_cons, primitives_append, ih, List.map_cons]; rfl

/-- Parts make a drawing when every one of them does. -/
theorem collect_eq_ok_iff : collect parts = .ok drawing ↔
    ∃ drawings, parts = drawings.map .ok ∧ drawing = join drawings := by
  induction parts generalizing drawing with
  | nil =>
    simp only [collect, Except.ok.injEq, List.nil_eq, List.map_eq_nil_iff, exists_eq_left]
    exact eq_comm
  | cons part rest ih =>
    rw [collect, bind_eq_ok_iff]
    constructor
    · rintro ⟨first, rfl, h⟩
      obtain ⟨others, hothers, h⟩ := bind_eq_ok_iff.mp h
      obtain ⟨drawings, rfl, rfl⟩ := ih.mp hothers
      exact ⟨first :: drawings, rfl, by simpa [join_cons, pure, Except.pure] using h.symm⟩
    · rintro ⟨drawings, hparts, rfl⟩
      cases drawings with
      | nil => simp at hparts
      | cons first drawings =>
        rw [List.map_cons, List.cons.injEq] at hparts
        refine ⟨first, hparts.1, bind_eq_ok_iff.mpr ?_⟩
        exact ⟨join drawings, ih.mpr ⟨drawings, hparts.2, rfl⟩, rfl⟩

/-- Parts that stand after others make the end of the drawing. -/
theorem collect_append_eq_ok (h : collect (parts ++ rest) = .ok drawing) :
    ∃ before after, collect parts = .ok before ∧ collect rest = .ok after ∧
      drawing = before ++ after := by
  obtain ⟨drawings, hparts, rfl⟩ := collect_eq_ok_iff.mp h
  obtain ⟨before, after, rfl, rfl, rfl⟩ := List.append_eq_map_iff.mp hparts
  exact ⟨join before, join after, collect_eq_ok_iff.mpr ⟨before, rfl, rfl⟩,
    collect_eq_ok_iff.mpr ⟨after, rfl, rfl⟩, join_append before after⟩

/-- Every primitive of a drawing comes from one of its parts. -/
theorem exists_of_mem_primitives (h : collect parts = .ok drawing) {p : Primitive α}
    (hp : p ∈ drawing.primitives) : ∃ part, .ok part ∈ parts ∧ p ∈ part.primitives := by
  obtain ⟨drawings, rfl, rfl⟩ := collect_eq_ok_iff.mp h
  obtain ⟨part, hpart, hp⟩ := List.mem_flatMap.mp hp
  exact ⟨part, List.mem_map_of_mem hpart, hp⟩

/-- Every error of a drawing comes from one of its parts. -/
theorem exists_of_mem_errors (h : collect parts = .ok drawing) {e : PartError α}
    (he : e ∈ drawing.errors) : ∃ part, .ok part ∈ parts ∧ e ∈ part.errors := by
  obtain ⟨drawings, rfl, rfl⟩ := collect_eq_ok_iff.mp h
  obtain ⟨part, hpart, he⟩ := List.mem_flatMap.mp he
  exact ⟨part, List.mem_map_of_mem hpart, he⟩

/-- A part is drawn as a whole, or it is one error. -/
theorem ofPart_eq_ok_iff {part : Except (Failure α) (List (Primitive α))} :
    ofPart part = .ok drawing ↔
      (∃ primitives, part = .ok primitives ∧ drawing = ⟨primitives, []⟩) ∨
        ∃ error, part = .error (.part error) ∧ drawing = ⟨[], [error]⟩ := by
  rcases part with (error | fault) | primitives
  · simp [ofPart, eq_comm]
  · simp [ofPart]
  · simp [ofPart, eq_comm]

end Drawing

end EntityDiagram
