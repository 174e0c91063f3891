import Mathlib.Tactic

/-! # Parsing numbers

`str::parse::<u64>`: an optional plus sign and then digits. The digits are read from the left, and
each one is checked before the number read so far is, so that an invalid digit is reported where it
comes first.
-/

set_option autoImplicit false

namespace ProvenoOracle

/-- One more digit. -/
def pushDigit (n : Nat) (c : Char) : Except String Nat :=
  if c.isDigit then
    if n * 10 + (c.toNat - '0'.toNat) < 2 ^ 64 then .ok (n * 10 + (c.toNat - '0'.toNat))
    else .error "number too large to fit in target type"
  else .error "invalid digit found in string"

/-- `str::parse::<u64>`, with the text of the error. -/
def parseU64 (s : String) : Except String UInt64 :=
  match s.toList with
  | [] => .error "cannot parse integer from empty string"
  | ['+'] => .error "invalid digit found in string"
  | ['-'] => .error "invalid digit found in string"
  | '+' :: digits => (digits.foldlM pushDigit 0).map UInt64.ofNat
  | digits => (digits.foldlM pushDigit 0).map UInt64.ofNat

/-- The digits are read to the end when they are digits and their number fits. By induction on
them; the number only grows, so it fits at every step if it does at the end. -/
theorem foldlM_pushDigit_iff {digits : List Char} : ∀ {n m : Nat}, n < 2 ^ 64 →
    (digits.foldlM pushDigit n = .ok m ↔
      (∀ c ∈ digits, c.isDigit) ∧ Nat.ofDigitChars 10 digits n = m ∧ m < 2 ^ 64) := by
  induction digits with
  | nil =>
      intro n m hn
      constructor
      · intro h
        obtain rfl := Except.ok.inj h
        exact ⟨by simp, rfl, hn⟩
      · rintro ⟨-, rfl, -⟩
        rfl
  | cons c digits ih =>
      intro n m hn
      rw [List.foldlM_cons, Nat.ofDigitChars_cons, List.forall_mem_cons, pushDigit]
      have hvalue : 10 * n + (c.toNat - '0'.toNat) = n * 10 + (c.toNat - '0'.toNat) := by omega
      by_cases hc : c.isDigit
      · by_cases hfits : n * 10 + (c.toNat - '0'.toNat) < 2 ^ 64
        · rw [if_pos hc, if_pos hfits, hvalue]
          show digits.foldlM pushDigit _ = _ ↔ _
          rw [ih hfits, and_assoc]
          exact (and_iff_right hc).symm
        · have hgrows : n * 10 + (c.toNat - '0'.toNat)
              ≤ Nat.ofDigitChars 10 digits (n * 10 + (c.toNat - '0'.toNat)) := by
            rw [Nat.ofDigitChars_eq_ofDigitChars_zero]
            have hpow : 1 ≤ 10 ^ digits.length := Nat.one_le_pow _ _ (by omega)
            nlinarith
          rw [if_pos hc, if_neg hfits, hvalue]
          constructor
          · intro h
            cases h
          · rintro ⟨-, rfl, hm⟩
            omega
      · rw [if_neg hc]
        simp [hc, bind, Except.bind]

/-- Digits, at least one, behind an optional plus sign. -/
def IsDecimal (s : String) (n : Nat) : Prop :=
  ∃ digits, (s.toList = digits ∨ s.toList = '+' :: digits) ∧ digits ≠ [] ∧
    (∀ c ∈ digits, c.isDigit) ∧ Nat.ofDigitChars 10 digits 0 = n

/-- **What is parsed as a number**: a decimal whose value fits. -/
theorem parseU64_eq_ok_iff {s : String} {n : UInt64} :
    parseU64 s = .ok n ↔ IsDecimal s n.toNat := by
  have hread : ∀ digits : List Char, (digits.foldlM pushDigit 0).map UInt64.ofNat = .ok n ↔
      (∀ c ∈ digits, c.isDigit) ∧ Nat.ofDigitChars 10 digits 0 = n.toNat := by
    intro digits
    cases hfold : digits.foldlM pushDigit 0 with
    | ok m =>
        obtain ⟨hdigits, hvalue, hm⟩ := (foldlM_pushDigit_iff (by omega)).mp hfold
        rw [and_iff_right hdigits, hvalue]
        constructor
        · intro h
          obtain rfl := Except.ok.inj h
          exact (UInt64.toNat_ofNat_of_lt' hm).symm
        · rintro rfl
          exact congrArg Except.ok UInt64.ofNat_toNat
    | error e =>
        simp only [Except.map, reduceCtorEq, false_iff, not_and]
        intro hdigits hvalue
        rw [(foldlM_pushDigit_iff (by omega)).mpr ⟨hdigits, hvalue, n.toNat_lt⟩] at hfold
        cases hfold
  unfold parseU64 IsDecimal
  split
  · rename_i hs
    simp [hs]
  · rename_i hs
    simp [hs, Char.isDigit]
  · rename_i hs
    simp [hs, Char.isDigit]
  · rename_i digits hne hs
    rw [hread]
    constructor
    · intro h
      exact ⟨digits, Or.inr hs, fun hnil => hne (hnil ▸ rfl), h⟩
    · rintro ⟨cs, hcs | hcs, -, hdigits, hvalue⟩
      · rw [hs] at hcs
        subst hcs
        simp [Char.isDigit] at hdigits
      · rw [hs, List.cons_inj_right] at hcs
        subst hcs
        exact ⟨hdigits, hvalue⟩
  · rename_i hempty hplus hminus hsigned
    rw [hread]
    constructor
    · intro h
      exact ⟨s.toList, Or.inl rfl, hempty, h⟩
    · rintro ⟨cs, hcs | hcs, -, h⟩
      · exact hcs ▸ h
      · exact absurd hcs (hsigned cs)

/-- The first thing that is wrong is reported. -/
example : parseU64 "18446744073709551616x" = .error "number too large to fit in target type" ∧
    parseU64 "-1" = .error "invalid digit found in string" := by decide +kernel

end ProvenoOracle
