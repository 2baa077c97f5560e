import EntityDiagram.Text.Percent
import Mathlib.Data.List.Basic

/-! Text inside an address. Percent-encoding leaves percent signs and characters that an address
keeps, and decoding gives the bytes of the text back. -/
namespace EntityDiagram.Text

/-- The value of a hexadecimal digit. -/
def hexValue? (c : Char) : Option Nat :=
  if '0' ≤ c ∧ c ≤ '9' then some (c.toNat - 48)
  else if 'A' ≤ c ∧ c ≤ 'F' then some (c.toNat - 55)
  else if 'a' ≤ c ∧ c ≤ 'f' then some (c.toNat - 87)
  else none

/-- The bytes that percent-encoded text stands for. -/
def percentDecode : List Char → List UInt8
  | [] => []
  | '%' :: high :: low :: rest =>
    match hexValue? high, hexValue? low with
    | some h, some l => UInt8.ofNat (16 * h + l) :: percentDecode rest
    | _, _ => String.utf8EncodeChar '%' ++ percentDecode (high :: low :: rest)
  | c :: rest => String.utf8EncodeChar c ++ percentDecode rest

theorem hexValue?_hexDigit : ∀ n < 16, hexValue? (hexDigit n) = some n := by decide

theorem isAddressChar_hexDigit : ∀ n < 16, isAddressChar (hexDigit n) = true := by decide

theorem mem_percentByte {byte : UInt8} {c : Char} (h : c ∈ percentByte byte) :
    isAddressChar c = true ∨ c = '%' := by
  have hbyte := byte.toNat_lt
  simp only [percentByte, List.mem_cons, List.not_mem_nil, or_false] at h
  rcases h with rfl | rfl | rfl
  · exact .inr rfl
  · exact .inl (isAddressChar_hexDigit _ (by omega))
  · exact .inl (isAddressChar_hexDigit _ (by omega))

theorem mem_percentEncode {text : List Char} {c : Char} (h : c ∈ percentEncode text) :
    isAddressChar c = true ∨ c = '%' := by
  obtain ⟨d, -, hd⟩ := List.mem_flatMap.mp h
  split at hd
  · rename_i hkept
    rw [List.mem_singleton.mp hd]
    exact .inl hkept
  · obtain ⟨byte, -, hbyte⟩ := List.mem_flatMap.mp hd
    exact mem_percentByte hbyte

theorem not_mem_percentEncode {c : Char} {text : List Char}
    (hc : (isAddressChar c || c == '%') = false) : c ∉ percentEncode text := by
  intro h
  rw [Bool.or_eq_false_iff, beq_eq_false_iff_ne] at hc
  rcases mem_percentEncode h with hkept | hpercent
  · rw [hc.1] at hkept
    contradiction
  · exact hc.2 hpercent

theorem percentDecode_cons {c : Char} (h : c ≠ '%') (rest : List Char) :
    percentDecode (c :: rest) = String.utf8EncodeChar c ++ percentDecode rest := by
  rw [percentDecode.eq_3]
  intros
  contradiction

theorem percentDecode_percentByte_append (byte : UInt8) (rest : List Char) :
    percentDecode (percentByte byte ++ rest) = byte :: percentDecode rest := by
  have hbyte := byte.toNat_lt
  simp only [percentByte, List.cons_append, List.nil_append, percentDecode]
  rw [hexValue?_hexDigit _ (by omega), hexValue?_hexDigit _ (by omega)]
  simp only [Nat.div_add_mod, UInt8.ofNat_toNat]

theorem percentDecode_bytes_append (bytes : List UInt8) (rest : List Char) :
    percentDecode (bytes.flatMap percentByte ++ rest) = bytes ++ percentDecode rest := by
  induction bytes with
  | nil => rfl
  | cons byte bytes ih =>
    rw [List.flatMap_cons, List.append_assoc, percentDecode_percentByte_append, ih,
      List.cons_append]

/-- Decoding undoes percent-encoding. -/
theorem percentDecode_percentEncode (text : List Char) :
    percentDecode (percentEncode text) = text.flatMap String.utf8EncodeChar := by
  induction text with
  | nil => rfl
  | cons c text ih =>
    have hcons : percentEncode (c :: text) = (if isAddressChar c then [c] else
      (String.utf8EncodeChar c).flatMap percentByte) ++ percentEncode text := List.flatMap_cons
    rw [hcons, List.flatMap_cons]
    split
    · rename_i hkept
      have hpercent : c ≠ '%' := by
        rintro rfl
        contradiction
      rw [List.singleton_append, percentDecode_cons hpercent, ih]
    · rw [percentDecode_bytes_append, ih]

end EntityDiagram.Text
