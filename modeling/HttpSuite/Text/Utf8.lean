/-!
# Text in bytes

`decode` reads bytes as UTF-8 and gives each character, or `none` for each maximal part that cannot
start one.  A text that decodes without `none` is valid; otherwise each `none` is shown as the
replacement character.
-/

namespace HttpSuite.Utf8

private def tail (b : UInt8) : Bool := 0x80 ≤ b && b ≤ 0xBF

private def low6 (b : UInt8) : Nat := b.toNat % 64

/-- The range of the second byte after a first byte that starts a longer character, and the number
of bytes that follow the first. -/
private def lead? (b : UInt8) : Option (Nat × UInt8 × UInt8) :=
  if 0xC2 ≤ b && b ≤ 0xDF then some (1, 0x80, 0xBF)
  else if b == 0xE0 then some (2, 0xA0, 0xBF)
  else if b == 0xED then some (2, 0x80, 0x9F)
  else if 0xE1 ≤ b && b ≤ 0xEF then some (2, 0x80, 0xBF)
  else if b == 0xF0 then some (3, 0x90, 0xBF)
  else if 0xF1 ≤ b && b ≤ 0xF3 then some (3, 0x80, 0xBF)
  else if b == 0xF4 then some (3, 0x80, 0x8F)
  else none

/-- The first character of a non-empty text, or `none`, with the number of bytes it takes after the
first one. -/
def step (b : UInt8) (rest : List UInt8) : Option Char × Nat :=
  if b < 0x80 then (some (Char.ofNat b.toNat), 0)
  else match lead? b with
    | none => (none, 0)
    | some (need, lo, hi) =>
      match rest with
      | [] => (none, 0)
      | c :: more =>
        if !(lo ≤ c && c ≤ hi) then (none, 0)
        else
          let following := more.takeWhile tail |>.take (need - 1)
          if following.length < need - 1 then (none, 1 + following.length)
          else
            let first := b.toNat % Nat.pow 2 (6 - need)
            let code := (c :: following).foldl (fun n d => n * 64 + low6 d) first
            (some (Char.ofNat code), need)

/-- Every character in order, `none` for a part that is not valid. -/
def decode : List UInt8 → List (Option Char)
  | [] => []
  | b :: rest =>
    let (c, used) := step b rest
    c :: decode (rest.drop used)
termination_by bytes => bytes.length
decreasing_by simp only [List.length_drop, List.length_cons]; omega

def encode (s : String) : List UInt8 := s.toUTF8.toList

/-- The text, if every part of it is valid. -/
def text? (bytes : List UInt8) : Option String :=
  ((decode bytes).mapM id).map String.ofList

/-- The text with a replacement character for each part that is not valid. -/
def lossyText (bytes : List UInt8) : String :=
  String.ofList ((decode bytes).map (·.getD '\uFFFD'))

end HttpSuite.Utf8
