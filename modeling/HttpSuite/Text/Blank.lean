/-!
# Blanks and letter case

Blanks are the characters with the Unicode property White_Space.  Letter case is ASCII only: names
of kinds, fields and methods are compared after `lower`, which leaves every other letter alone.
-/

namespace HttpSuite.Text

/-- The code points with the Unicode property White_Space, as first and last of each run. -/
def blankRanges : List (Nat × Nat) :=
  [(9, 13), (0x20, 0x20), (0x85, 0x85), (0xA0, 0xA0), (0x1680, 0x1680), (0x2000, 0x200A),
    (0x2028, 0x2029), (0x202F, 0x202F), (0x205F, 0x205F), (0x3000, 0x3000)]

def isBlank (c : Char) : Bool := blankRanges.any fun r => r.1 ≤ c.toNat && c.toNat ≤ r.2

def trimStart (cs : List Char) : List Char := cs.dropWhile isBlank

def trimEnd (cs : List Char) : List Char := (cs.reverse.dropWhile isBlank).reverse

/-- The characters between the blanks at both ends. -/
def trim (cs : List Char) : List Char := trimEnd (trimStart cs)

/-- Whether one text occurs in another. -/
def isPart (part : List Char) : List Char → Bool
  | [] => part.isEmpty
  | c :: cs => part.isPrefixOf (c :: cs) || isPart part cs

end HttpSuite.Text

namespace HttpSuite

/-- The text between the blanks at both ends. -/
def trimmed (s : String) : String := String.ofList (Text.trim s.toList)

/-- Whether a text holds blanks only. -/
def isBlankText (s : String) : Bool := s.toList.all Text.isBlank

/-- The text with its ASCII capitals as small letters. -/
def lower (s : String) : String := String.ofList (s.toList.map Char.toLower)

/-- The text with its ASCII small letters as capitals. -/
def upper (s : String) : String := String.ofList (s.toList.map Char.toUpper)

theorem toLower_toLower (c : Char) : c.toLower.toLower = c.toLower := by
  by_cases h : c.val ≥ 'A'.val ∧ c.val ≤ 'Z'.val
  · have hval : c.toLower.val = c.val + ('a'.val - 'A'.val) := by
      unfold Char.toLower
      rw [dif_pos h]
    have hsmall : ¬ (c.toLower.val ≥ 'A'.val ∧ c.toLower.val ≤ 'Z'.val) := by
      rw [hval]
      simp only [ge_iff_le, UInt32.le_iff_toNat_le, UInt32.toNat_add] at h ⊢
      simp at h ⊢
      omega
    conv => lhs; unfold Char.toLower
    exact dif_neg hsmall
  · have hsame : c.toLower = c := dif_neg h
    rw [hsame, hsame]

theorem lower_lower (s : String) : lower (lower s) = lower s := by
  unfold lower
  rw [String.toList_ofList, List.map_map]
  congr 1
  exact List.map_congr_left fun c _ => toLower_toLower c

end HttpSuite
