import EntityDiagram.Decimal
import EntityDiagram.Proofs.Scalar.WholeDoubles

/-! The text of finite numbers. It consists of digits and of four marks, so it holds neither a blank
nor a letter of a drawing command; and numbers that are equal have the same text, but for the sign
of a zero. -/
namespace EntityDiagram

/-- What the text of a finite number is written with. -/
def isNumeralChar (c : Char) : Bool := c.isDigit || c ∈ ['.', '-', '+', 'e']

namespace Decimal

theorem mem_dropLastZeros {digits : List Char} {c : Char} (h : c ∈ dropLastZeros digits) :
    c ∈ digits := by
  induction digits with
  | nil => exact h
  | cons d rest ih =>
    rw [dropLastZeros] at h
    split at h
    · split_ifs at h
      · simp at h
      · exact List.mem_cons.mpr (.inl (List.mem_singleton.mp h))
    · rcases List.mem_cons.mp h with rfl | h
      · exact List.mem_cons_self
      · exact List.mem_cons_of_mem _ (ih h)

theorem mem_fraction {digits : List Char} {c : Char} (h : c ∈ fraction digits) :
    c = '.' ∨ c ∈ digits := by
  cases digits with
  | nil => simp [fraction] at h
  | cons d rest => simpa [fraction] using h

theorem isNumeralChar_of_mem_toDigits {n : Nat} {c : Char} (h : c ∈ Nat.toDigits 10 n) :
    isNumeralChar c = true := by
  simp [isNumeralChar, Nat.isDigit_of_mem_toDigits (by decide) (by decide) h]

theorem isNumeralChar_of_mem_exponentText {e : Int} {c : Char} (h : c ∈ exponentText e) :
    isNumeralChar c = true := by
  simp only [exponentText, List.mem_append, List.mem_cons, List.not_mem_nil, or_false] at h
  rcases h with (rfl | hsign) | h
  · decide
  · subst hsign
    split_ifs <;> decide
  · split_ifs at h
    · rcases List.mem_cons.mp h with rfl | h
      · decide
      · exact isNumeralChar_of_mem_toDigits h
    · exact isNumeralChar_of_mem_toDigits h

theorem isNumeralChar_of_mem_text {count : Nat} {s : Significant} {c : Char}
    (h : c ∈ s.text count) : isNumeralChar c = true := by
  have hdigits : ∀ d ∈ dropLastZeros (Nat.toDigits 10 s.digits), isNumeralChar d = true :=
    fun d hd => isNumeralChar_of_mem_toDigits (mem_dropLastZeros hd)
  unfold Significant.text at h
  generalize dropLastZeros (Nat.toDigits 10 s.digits) = digits at h hdigits
  simp only at h
  split_ifs at h
  · simp only [List.mem_append] at h
    rcases h with (h | h) | h
    · exact hdigits c (List.mem_of_mem_take h)
    · rcases mem_fraction h with rfl | h
      · decide
      · exact hdigits c (List.mem_of_mem_drop h)
    · exact isNumeralChar_of_mem_exponentText h
  · rcases List.mem_cons.mp h with rfl | h
    · decide
    · rcases mem_fraction h with rfl | h
      · decide
      · rcases List.mem_append.mp h with h | h
        · rw [(List.mem_replicate.mp h).2]
          decide
        · exact hdigits c h
  · simp only [List.mem_append] at h
    rcases h with (h | h) | h
    · exact hdigits c (List.mem_of_mem_take h)
    · rw [(List.mem_replicate.mp h).2]
      decide
    · rcases mem_fraction h with rfl | h
      · decide
      · exact hdigits c (List.mem_of_mem_drop h)

theorem text_ne_nil (count : Nat) (s : Significant) : s.text count ≠ [] := by
  unfold Significant.text
  generalize dropLastZeros (Nat.toDigits 10 s.digits) = digits
  simp only
  split_ifs
  · simp [exponentText]
  · simp
  · cases digits <;> simp

end Decimal

/-- The text of a number, a zero without its sign. -/
def withoutZeroSign (text : List Char) : List Char := if text = ['-', '0'] then ['0'] else text

/-- Numbers printed alike, but for the sign of a zero. -/
def Alike (s t : List Char) : Prop := withoutZeroSign s = withoutZeroSign t

theorem Alike.refl (s : List Char) : Alike s s := Eq.refl _

theorem Alike.symm {s t : List Char} (h : Alike s t) : Alike t s := Eq.symm h

theorem Alike.trans {s t u : List Char} (h : Alike s t) (h' : Alike t u) : Alike s u :=
  Eq.trans h h'

namespace Number

/-- The characters of a number in drawings. -/
def numeral (a : Number) : List Char := (Scalar.text a).toList

theorem numeral_eq {a : Number} {negative : Bool} {value : Rat}
    (h : Scalar.reading a = .finite negative value) :
    a.numeral = (Reading.finite negative value).text 6 := by
  rw [numeral, Scalar.text, h, String.toList_ofList]

theorem isNumeralChar_of_mem_numeral {a : Number} (ha : Scalar.isFinite a = true) {c : Char}
    (h : c ∈ a.numeral) : isNumeralChar c = true := by
  obtain ⟨negative, value, hreading⟩ := exists_reading_of_isFinite ha
  rw [numeral_eq hreading, Reading.text, List.mem_append] at h
  rcases h with h | h
  · split_ifs at h
    · rw [List.mem_singleton.mp h]
      decide
    · simp at h
  · split_ifs at h
    · rw [List.mem_singleton.mp h]
      decide
    · exact Decimal.isNumeralChar_of_mem_text h

theorem numeral_ne_nil {a : Number} (ha : Scalar.isFinite a = true) : a.numeral ≠ [] := by
  obtain ⟨negative, value, hreading⟩ := exists_reading_of_isFinite ha
  rw [numeral_eq hreading, Reading.text]
  split_ifs <;> simp [Decimal.text_ne_nil]

/-- Equal numbers are printed alike. -/
theorem alike_numeral {a b : Number} (ha : Scalar.isFinite a = true) (h : (a == b) = true) :
    Alike a.numeral b.numeral := by
  obtain ⟨value, m, n, hreading, hreading'⟩ := exists_reading_of_beq ha h
  rw [numeral_eq hreading, numeral_eq hreading']
  by_cases hvalue : value = 0
  · subst hvalue
    cases m <;> cases n <;> rfl
  · rw [Double.negative_eq_of_ne_zero hreading hvalue,
      Double.negative_eq_of_ne_zero hreading' hvalue]
    exact Alike.refl _

end Number

end EntityDiagram
