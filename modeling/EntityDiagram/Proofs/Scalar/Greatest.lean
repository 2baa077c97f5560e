import EntityDiagram.Proofs.Scalar.Order
import Mathlib.Data.Set.Basic

/-! The greatest of some numbers. Numbers that are undefined do not count, and the order does not
matter: two greatest numbers are the same exactly, even if one is whole and the other a double. -/
namespace EntityDiagram.Number

/-- The greatest of some numbers and a start, which a number must exceed to count. Numbers that are
undefined do not count. -/
structure IsGreatest (start : Number) (numbers : Set Number) (m : Number) : Prop where
  start_le : Scalar.AtMost start m
  le : ∀ a ∈ numbers, a.IsDefined → Scalar.AtMost a m
  attained : m = start ∨ m ∈ numbers ∧ start < m

variable {start m k : Number} {numbers : Set Number}

section

variable {a : Number} {rest : List Number}

/-- A number that exceeds the start is a start for the others. -/
theorem IsGreatest.cons_of_lt (h : IsGreatest a {b | b ∈ rest} m) (hlt : start < a) :
    IsGreatest start {b | b ∈ a :: rest} m := by
  have hstart : start < m := by
    rcases h.attained with rfl | ⟨-, hgt⟩
    · exact hlt
    · exact lt_of_atMost_of_lt (.inl hlt) hgt
  refine ⟨.inl hstart, ?_, .inr ⟨?_, hstart⟩⟩
  · intro b hb hdefined
    rcases List.mem_cons.mp hb with rfl | hb
    · exact h.start_le
    · exact h.le b hb hdefined
  · rcases h.attained with rfl | ⟨hmem, -⟩
    · exact List.mem_cons_self
    · exact List.mem_cons_of_mem _ hmem

/-- A number that does not exceed the start does not count. -/
theorem IsGreatest.cons_of_le (h : IsGreatest start {b | b ∈ rest} m)
    (hle : a.IsDefined → Scalar.AtMost a start) : IsGreatest start {b | b ∈ a :: rest} m := by
  refine ⟨h.start_le, ?_, ?_⟩
  · intro b hb hdefined
    rcases List.mem_cons.mp hb with rfl | hb
    · exact atMost_trans (hle hdefined) h.start_le
    · exact h.le b hb hdefined
  · exact h.attained.imp_right fun hm => ⟨List.mem_cons_of_mem _ hm.1, hm.2⟩

end

theorem isGreatest_foldl (h : start.IsDefined) (list : List Number) :
    IsGreatest start {a | a ∈ list} (list.foldl Scalar.larger start) := by
  induction list generalizing start with
  | nil => exact ⟨atMost_refl h, by simp, .inl rfl⟩
  | cons a rest ih =>
    rw [List.foldl_cons]
    rcases larger_cases (b := a) h with ⟨hlt, hlarger⟩ | ⟨hle, hlarger⟩ <;> rw [hlarger]
    · exact (ih (lt_iff.mp hlt).2.1).cons_of_lt hlt
    · exact (ih h).cons_of_le hle

/-- A number above zero has no negative sign, so it is known exactly from its place. -/
theorem exactReading_of_pos {a : Number} (h : 0 < a) : a.exactReading = .infinite false ∨
    ∃ value, a.exactReading = .finite false value := by
  obtain ⟨-, hdefined, hplace⟩ := lt_iff.mp h
  rw [place_zero, place] at hplace
  cases hreading : a.exactReading with
  | undefined => exact absurd hreading hdefined
  | infinite negative =>
    rw [hreading] at hplace
    cases negative with
    | false => exact .inl rfl
    | true => simp [Reading.place] at hplace
  | finite negative value =>
    rw [hreading] at hplace
    have hvalue : 0 < value := by simpa [Reading.place] using hplace
    have hnegative : negative = decide (value < 0) := by
      cases a with
      | whole n => obtain ⟨rfl, rfl⟩ := Reading.finite.inj hreading; simp
      | double x => exact Double.negative_eq_of_ne_zero hreading hvalue.ne'
    rw [hnegative, decide_eq_false hvalue.le.not_gt]
    exact .inr ⟨value, rfl⟩

theorem exactReading_eq_of_place {a b : Number} (ha : 0 < a) (hb : 0 < b)
    (h : a.place = b.place) : a.exactReading = b.exactReading := by
  rw [place, place] at h
  rcases exactReading_of_pos ha with hx | ⟨v, hx⟩ <;>
    rcases exactReading_of_pos hb with hy | ⟨w, hy⟩ <;>
      rw [hx, hy] at h ⊢ <;> simp_all [Reading.place]

theorem IsGreatest.place_le (h : IsGreatest start numbers m) (h' : IsGreatest start numbers k) :
    k.place ≤ m.place := by
  rcases h'.attained with rfl | ⟨hk, hlt⟩
  · exact (atMost_iff.mp h.start_le).2.2
  · exact (atMost_iff.mp (h.le k hk (lt_iff.mp hlt).2.1)).2.2

/-- Two greatest numbers are the start, or they are numbers in the same place. -/
theorem IsGreatest.cases (h : IsGreatest start numbers m) (h' : IsGreatest start numbers k) :
    m = start ∧ k = start ∨
      (m ∈ numbers ∧ start < m) ∧ (k ∈ numbers ∧ start < k) ∧ m.place = k.place := by
  have hplace : m.place = k.place := le_antisymm (h'.place_le h) (h.place_le h')
  rcases h.attained with rfl | hm <;> rcases h'.attained with rfl | hk
  · exact .inl ⟨rfl, rfl⟩
  · exact absurd (lt_iff.mp hk.2).2.2 hplace.not_lt
  · exact absurd (lt_iff.mp hm.2).2.2 hplace.symm.not_lt
  · exact .inr ⟨hm, hk, hplace⟩

theorem atMost_zero_start : Scalar.AtMost (0 : Number) (Scalar.approx 0) := .inr (by decide +kernel)

/-- A greatest number is the same exactly, however it was found. -/
theorem IsGreatest.exactReading_eq (h : IsGreatest (Scalar.approx 0) numbers m)
    (h' : IsGreatest (Scalar.approx 0) numbers k) : m.exactReading = k.exactReading := by
  rcases h.cases h' with ⟨rfl, rfl⟩ | ⟨⟨-, hm⟩, ⟨-, hk⟩, hplace⟩
  · rfl
  · exact exactReading_eq_of_place (lt_of_atMost_of_lt atMost_zero_start hm)
      (lt_of_atMost_of_lt atMost_zero_start hk) hplace

/-- Numbers of which no whole one is the same as a double. -/
def TieInKind (numbers : Set Number) : Prop :=
  ∀ a ∈ numbers, ∀ b ∈ numbers, (a == b) = true → a.isWhole = b.isWhole

/-- Without such a tie the greatest number is of one kind. -/
theorem IsGreatest.isWhole_eq (h : IsGreatest start numbers m) (h' : IsGreatest start numbers k)
    (hties : TieInKind numbers) : m.isWhole = k.isWhole := by
  rcases h.cases h' with ⟨rfl, rfl⟩ | ⟨⟨hm, hmlt⟩, ⟨hk, hklt⟩, hplace⟩
  · rfl
  · exact hties m hm k hk (beq_iff.mpr ⟨(lt_iff.mp hmlt).2.1, (lt_iff.mp hklt).2.1, hplace⟩)

end EntityDiagram.Number
