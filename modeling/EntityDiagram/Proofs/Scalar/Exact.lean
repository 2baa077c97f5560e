import EntityDiagram.Scalar.Exact
import Mathlib.Algebra.Order.Ring.Rat

/-! Least and greatest among exact numbers. -/
namespace EntityDiagram.Scalar

theorem larger_exact (a b : Rat) : larger a b = max a b := by
  rcases lt_or_ge a b with hlt | hle
  · rw [larger, if_pos hlt, max_eq_right hlt.le]
  · rw [larger, if_neg (not_lt.mpr hle), max_eq_left hle]

theorem smaller_exact (a b : Rat) : smaller a b = min a b := by
  rcases lt_or_ge b a with hlt | hle
  · rw [smaller, if_pos hlt, min_eq_right hlt.le]
  · rw [smaller, if_neg (not_lt.mpr hle), min_eq_left hle]

/-- A choice between two that stands above both, made along a list, stands above all. -/
theorem foldl_choice {β : Type} {r : β → β → Prop} (refl : ∀ a, r a a)
    (trans : ∀ {a b c}, r a b → r b c → r a c) {choice : β → β → β}
    (left : ∀ a b, r a (choice a b)) (right : ∀ a b, r b (choice a b)) (first : β)
    (rest : List β) : ∀ a ∈ first :: rest, r a (rest.foldl choice first) := by
  induction rest generalizing first with
  | nil =>
    intro a ha
    rw [List.mem_singleton.mp ha]
    exact refl first
  | cons b rest ih =>
    have hchoice := ih (choice first b) _ List.mem_cons_self
    intro a ha
    rcases List.mem_cons.mp ha with rfl | ha
    · exact trans (left a b) hchoice
    · rcases List.mem_cons.mp ha with rfl | ha
      · exact trans (right first a) hchoice
      · exact ih _ a (List.mem_cons_of_mem _ ha)

theorem le_greatestOf {a : Rat} {numbers : List Rat} (h : a ∈ numbers) :
    a ≤ greatestOf numbers := by
  cases numbers with
  | nil => contradiction
  | cons first rest =>
    refine foldl_choice (r := (· ≤ ·)) le_refl le_trans ?_ ?_ first rest a h
    · intro a b
      rw [larger_exact]
      exact le_max_left a b
    · intro a b
      rw [larger_exact]
      exact le_max_right a b

theorem leastOf_le {a : Rat} {numbers : List Rat} (h : a ∈ numbers) : leastOf numbers ≤ a := by
  cases numbers with
  | nil => contradiction
  | cons first rest =>
    refine foldl_choice (r := (· ≥ ·)) le_refl ge_trans ?_ ?_ first rest a h
    · intro a b
      rw [smaller_exact]
      exact min_le_left a b
    · intro a b
      rw [smaller_exact]
      exact min_le_right a b

end EntityDiagram.Scalar
