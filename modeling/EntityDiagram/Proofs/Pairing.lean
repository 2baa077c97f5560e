import Mathlib.Data.List.Forall2

/-! Lists whose members correspond in order. A member of one has its partner in the other, and
functions that agree on partners agree on the lists. -/
namespace EntityDiagram.Pairing

variable {β γ δ : Type} {R : β → γ → Prop} {l : List β} {m : List γ}

theorem exists_partner (h : List.Forall₂ R l m) {b : β} (hb : b ∈ l) : ∃ c ∈ m, R b c := by
  induction h with
  | nil => contradiction
  | @cons b' c l m hhead _ ih =>
    cases hb with
    | head => exact ⟨c, List.mem_cons_self, hhead⟩
    | tail _ hb =>
      obtain ⟨partner, hmem, hrelated⟩ := ih hb
      exact ⟨partner, List.mem_cons_of_mem c hmem, hrelated⟩

theorem exists_left_partner (h : List.Forall₂ R l m) {c : γ} (hc : c ∈ m) : ∃ b ∈ l, R b c := by
  have hflip : List.Forall₂ (flip R) m l := h.flip
  exact exists_partner hflip hc

/-- Partners stand at the same index. -/
theorem exists_left_partner_at (h : List.Forall₂ R l m) {i : Nat} {c : γ} (hc : m[i]? = some c) :
    ∃ b, l[i]? = some b ∧ R b c := by
  induction h generalizing i with
  | nil => simp at hc
  | @cons b d _ _ hhead _ ih =>
    cases i with
    | zero =>
      obtain rfl : d = c := by simpa using hc
      exact ⟨b, rfl, hhead⟩
    | succ i => exact ih (by simpa using hc)

theorem map_eq_map (h : List.Forall₂ R l m) {f : β → δ} {g : γ → δ}
    (hfg : ∀ b c, R b c → f b = g c) : l.map f = m.map g := by
  rw [← List.forall₂_eq_eq_eq, List.forall₂_map_left_iff, List.forall₂_map_right_iff]
  exact h.imp hfg

end EntityDiagram.Pairing
