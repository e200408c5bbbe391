import HttpSuite.Text.Decimal
import Mathlib.Data.List.Induction

/-!
# How numbers are written

`Text.IsNumeral s n` says that a text is the decimal digits of a number, possibly after zeros and a
plus sign.  This is about writing: it mentions the digits of the number and no way to read them.  The
numerals of numbers below a limit are exactly the texts that are read
(`Text.unsignedBelow?_iff_isNumeral`), because a text of digits loses nothing but its zeros when it
is read and written again (`Text.exists_zeros`).
-/

namespace HttpSuite.Text

/-- The decimal digits of a number, after zeros or not and after a plus sign or not. -/
def IsNumeral (s : String) (n : Nat) : Prop :=
  ∃ sign zeros, (sign = [] ∨ sign = ['+']) ∧
    s.toList = sign ++ (List.replicate zeros '0' ++ Nat.toDigits 10 n)

theorem isNumeral_toString (n : Nat) : IsNumeral (toString n) n := by
  refine ⟨[], 0, .inl rfl, ?_⟩
  rw [Nat.toString_eq_repr, Nat.toList_repr]
  rfl

/-! ## Digits and their value -/

theorem isDigit_of_mem_padded {zeros n : Nat} {c : Char}
    (h : c ∈ List.replicate zeros '0' ++ Nat.toDigits 10 n) : c.isDigit = true := by
  rcases List.mem_append.mp h with h | h
  · rw [List.eq_of_mem_replicate h]
    rfl
  · exact Nat.isDigit_of_mem_toDigits (by decide) (by decide) h

theorem IsNumeral.ne_empty {s : String} {n : Nat} (h : IsNumeral s n) : s ≠ "" := by
  obtain ⟨sign, zeros, -, heq⟩ := h
  rintro rfl
  have hdigits := (List.append_eq_nil_iff.mp heq.symm).2
  exact Nat.toDigits_ne_nil (List.append_eq_nil_iff.mp hdigits).2

/-- A numeral holds no other characters than digits and a plus sign. -/
theorem IsNumeral.eq_or_isDigit {s : String} {n : Nat} {c : Char} (h : IsNumeral s n)
    (hc : c ∈ s.toList) : c = '+' ∨ c.isDigit = true := by
  obtain ⟨sign, zeros, rfl | rfl, heq⟩ := h
  · rw [heq] at hc
    exact .inr (isDigit_of_mem_padded hc)
  · rw [heq] at hc
    exact (List.mem_cons.mp hc).imp_right isDigit_of_mem_padded

theorem foldl_eq_ofDigitChars (cs : List Char) :
    cs.foldl (fun n c => n * 10 + (c.toNat - 48)) 0 = Nat.ofDigitChars 10 cs 0 := by
  simp only [Nat.ofDigitChars, Nat.mul_comm 10]
  rfl

theorem toDigits_of_isDigit {c : Char} (h : c.isDigit = true) :
    c.toNat - 48 < 10 ∧ Nat.toDigits 10 (c.toNat - 48) = [c] := by
  obtain ⟨hlow, hhigh⟩ : 48 ≤ c.toNat ∧ c.toNat ≤ 57 := by
    simpa [Char.isDigit, UInt32.le_iff_toNat_le] using h
  have hlt : c.toNat - 48 < 10 := by omega
  have hchar : (c.toNat - 48).digitChar = c := by
    refine Char.toNat_inj.mp ?_
    rw [Nat.toNat_digitChar_of_lt_ten hlt]
    omega
  exact ⟨hlt, by rw [Nat.toDigits_of_lt_base hlt, hchar]⟩

/-- **Digits are zeros and the digits of their value.** -/
theorem exists_zeros {cs : List Char} (hne : cs ≠ []) (hdigits : ∀ c ∈ cs, c.isDigit = true) :
    ∃ zeros, cs = List.replicate zeros '0' ++ Nat.toDigits 10 (Nat.ofDigitChars 10 cs 0) := by
  -- the last digit is the one that is read last
  induction cs using List.reverseRecOn with
  | nil => exact absurd rfl hne
  | append_singleton cs c ih =>
    obtain ⟨hlt, hlast⟩ := toDigits_of_isDigit (hdigits c (by simp))
    have hvalue : Nat.ofDigitChars 10 (cs ++ [c]) 0 =
        10 * Nat.ofDigitChars 10 cs 0 + (c.toNat - 48) := by
      rw [Nat.ofDigitChars_append, Nat.ofDigitChars_cons, Nat.ofDigitChars_nil]
      rfl
    rw [hvalue]
    by_cases hcs : cs = []
    · subst hcs
      refine ⟨0, ?_⟩
      rw [Nat.ofDigitChars_nil, Nat.mul_zero, Nat.zero_add, hlast]
      rfl
    · obtain ⟨zeros, hzeros⟩ := ih hcs fun d hd => hdigits d (List.mem_append_left _ hd)
      rcases Nat.eq_zero_or_pos (Nat.ofDigitChars 10 cs 0) with hzero | hpos
      · refine ⟨zeros + 1, ?_⟩
        rw [hzero, Nat.toDigits_zero] at hzeros
        rw [hzero, Nat.mul_zero, Nat.zero_add, hlast, hzeros, List.replicate_succ']
      · refine ⟨zeros, ?_⟩
        rw [← Nat.toDigits_append_toDigits (by decide) hpos hlt, hlast, ← List.append_assoc,
          ← hzeros]

/-! ## Reading -/

/-- **What is read are the numerals below the limit.** -/
theorem unsignedBelow?_iff_isNumeral {limit n : Nat} {s : String} :
    unsignedBelow? limit s = some n ↔ n < limit ∧ IsNumeral s n := by
  rw [unsignedBelow?_eq_some_iff]
  refine and_congr_right fun _ => ⟨?_, ?_⟩
  · rintro ⟨sign, digits, hsign, heq, hne, hdigits, rfl⟩
    obtain ⟨zeros, hzeros⟩ := exists_zeros hne hdigits
    refine ⟨sign, zeros, hsign, ?_⟩
    rw [heq, foldl_eq_ofDigitChars, ← hzeros]
  · rintro ⟨sign, zeros, hsign, heq⟩
    refine ⟨sign, _, hsign, heq, ?_, fun c => isDigit_of_mem_padded, ?_⟩
    · exact List.append_ne_nil_of_right_ne_nil _ Nat.toDigits_ne_nil
    · rw [foldl_eq_ofDigitChars, Nat.ofDigitChars_append, Nat.ofDigitChars_replicate_zero,
        Nat.mul_zero, Nat.ofDigitChars_toDigits (by decide) (by decide)]

end HttpSuite.Text
