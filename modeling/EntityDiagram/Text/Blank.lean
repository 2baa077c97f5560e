/-! Blank characters, and text with its outer blanks removed. -/
namespace EntityDiagram.Text

/-- White space and separators, among them four control characters, but neither the zero-width
space nor the byte order mark. -/
def isBlank (c : Char) : Bool :=
  let n := c.toNat
  (0x09 ≤ n && n ≤ 0x0D) || (0x1C ≤ n && n ≤ 0x20) || n == 0x85 || n == 0xA0 || n == 0x1680 ||
    (0x2000 ≤ n && n ≤ 0x200A) || n == 0x2028 || n == 0x2029 || n == 0x202F || n == 0x205F ||
    n == 0x3000

def dropBlanks (text : List Char) : List Char := text.dropWhile isBlank

/-- Removes the blanks at the end. -/
def dropLastBlanks : List Char → List Char
  | [] => []
  | c :: rest =>
    match dropLastBlanks rest with
    | [] => if isBlank c then [] else [c]
    | kept => c :: kept

/-- Removes the blanks at both ends. -/
def strip (text : List Char) : List Char := dropLastBlanks (dropBlanks text)

/-- The characters before the first blank. -/
def firstRun (text : List Char) : List Char := text.takeWhile (fun c => !isBlank c)

@[simp] theorem dropBlanks_nil : dropBlanks [] = [] := rfl

@[simp] theorem strip_nil : strip [] = [] := rfl

/-- The code points of blanks. -/
theorem toNat_of_isBlank {c : Char} (h : isBlank c) :
    c.toNat < 0x21 ∧ (9 ≤ c.toNat ∧ c.toNat ≤ 0xD ∨ 0x1C ≤ c.toNat) ∨
      (0x2000 ≤ c.toNat ∧ c.toNat < 0x200B) ∨
      c.toNat ∈ [0x85, 0xA0, 0x1680, 0x2028, 0x2029, 0x202F, 0x205F, 0x3000] := by
  simp only [isBlank, Bool.or_eq_true, Bool.and_eq_true, decide_eq_true_eq, beq_iff_eq] at h
  simp only [List.mem_cons, List.not_mem_nil]
  omega

example : isBlank (Char.ofNat 0x200B) = false ∧ isBlank (Char.ofNat 0xFEFF) = false := by decide

end EntityDiagram.Text
