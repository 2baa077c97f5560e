/-! Percent-encoding of text inside an address. -/
namespace EntityDiagram.Text

/-- Characters an address keeps: ASCII letters and digits, and the marks `_ . - ~ /`. -/
def isAddressChar (c : Char) : Bool := c.isAlphanum || ['_', '.', '-', '~', '/'].contains c

def hexDigit (n : Nat) : Char := if n < 10 then Char.ofNat (48 + n) else Char.ofNat (55 + n)

/-- One byte as a percent sign and two capital hexadecimal digits. -/
def percentByte (byte : UInt8) : List Char :=
  ['%', hexDigit (byte.toNat / 16), hexDigit (byte.toNat % 16)]

/-- Every other character becomes the percent-encoded bytes of its UTF-8 form. -/
def percentEncode (text : List Char) : List Char :=
  text.flatMap fun c =>
    if isAddressChar c then [c] else (String.utf8EncodeChar c).flatMap percentByte

example : percentEncode ['A', ' ', 'é'] = ['A', '%', '2', '0', '%', 'C', '3', '%', 'A', '9'] := by
  decide +kernel

end EntityDiagram.Text
