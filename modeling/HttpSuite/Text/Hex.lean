/-!
# Hexadecimal digits
-/

namespace HttpSuite.Text

/-- The value of a digit; letters count in both cases. -/
def hexValue? (c : Char) : Option Nat :=
  if c.isDigit then some (c.toNat - 48)
  else if 'a' ≤ c ∧ c ≤ 'f' then some (c.toNat - 87)
  else if 'A' ≤ c ∧ c ≤ 'F' then some (c.toNat - 55)
  else none

/-- The number with the given digits, at least one. -/
def hexNumber? (digits : List Char) : Option Nat :=
  if digits.isEmpty then none
  else digits.foldlM (fun n c => (hexValue? c).map (n * 16 + ·)) 0

/-- The character with the given digits as its code point. -/
def hexChar? (digits : List Char) : Option Char := do
  let code ← hexNumber? digits
  if h : code.isValidChar then some (Char.ofNatAux code h) else none

end HttpSuite.Text
