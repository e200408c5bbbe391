import HttpSuite.Number.Binary64
import HttpSuite.Text.Decimal
import HttpSuite.Text.Hex
import HttpSuite.Value

/-!
# The values of plain scalars

A plain scalar is the null value, a truth value or a number if it is spelled as one, and a string
otherwise.  An integer may be written in base ten, sixteen, eight or two; digits after a leading
zero are a string.  An integer that fits no 64 bits is refused as long as it fits 128.
-/

namespace HttpSuite.Yaml.Scalar

def isNull (s : String) : Bool := ["null", "Null", "NULL", "~"].contains s

def bool? (s : String) : Option Bool :=
  if ["true", "True", "TRUE"].contains s then some true
  else if ["false", "False", "FALSE"].contains s then some false
  else none

private def withoutSign : List Char → List Char
  | '+' :: cs => cs
  | '-' :: cs => cs
  | cs => cs

private def withoutPlus : List Char → List Char
  | '+' :: cs => cs
  | cs => cs

/-- Whether a scalar is all digits and starts with a zero that is not its only digit. -/
def isPaddedDigits (cs : List Char) : Bool :=
  match withoutSign cs with
  | '0' :: c :: cs => (c :: cs).all Char.isDigit
  | _ => false

/-- The number with digits of a base. -/
private def digits? (base : Nat) (cs : List Char) : Option Nat :=
  if cs.isEmpty then none
  else cs.foldlM (fun n c => (Text.hexValue? c).bind fun d =>
    if d < base then some (n * base + d) else none) 0

/-- An integer without its sign. -/
private def magnitude? (cs : List Char) : Option Nat :=
  match cs with
  | '0' :: 'x' :: r => digits? 16 r
  | '0' :: 'o' :: r => digits? 8 r
  | '0' :: 'b' :: r => digits? 2 r
  | r => if isPaddedDigits r then none else digits? 10 r

/-- An integer of at most 128 bits. -/
def int? (s : String) : Option Int :=
  match s.toList with
  | '-' :: cs => ((magnitude? cs).filter (· ≤ Nat.pow 2 127)).map fun n => -(n : Int)
  | cs => ((magnitude? (withoutPlus cs)).filter (· < Nat.pow 2 128)).map Int.ofNat

/-- The integer as a value, if it fits 64 bits. -/
def intValue? (i : Int) : Option Value :=
  if Number.minInt ≤ i ∧ i < Nat.pow 2 64 then some (.int i) else none

/-- A number with a point or an exponent; infinities and undefined numbers have no value and are
`null`. -/
def float? (s : String) : Option Value :=
  let unsigned := withoutPlus s.toList
  let word := String.ofList unsigned
  if unsigned.length < s.length ∧ (withoutSign unsigned).length < unsigned.length then none
  else if [".inf", ".Inf", ".INF"].contains word then some .null
  else if ["-.inf", "-.Inf", "-.INF", ".nan", ".NaN", ".NAN"].contains s then some .null
  else do
    let d ← Text.decimal? word
    return .float (← Binary64.ofDecimal? d.negative d.digits d.exponent)

/-- The value of a plain scalar. -/
def value? (s : String) : Option Value :=
  if s.isEmpty || isNull s then some .null
  else match bool? s with
    | some b => some (.bool b)
    | none =>
      match int? s with
      | some i => intValue? i
      | none =>
        if isPaddedDigits s.toList then some (.string s)
        else some ((float? s).getD (.string s))

end HttpSuite.Yaml.Scalar
