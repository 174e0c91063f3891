import Mathlib.Tactic

/-! # The price programs

`examples/eth_price.lua` and `examples/usdc_depeg.lua` read a decimal price without floats: they
split its text at the dot and take the parts as integers. The first returns whole dollars, the
second cents.

`decimal_prices` says for which decimals they are right, as long as the number of cents is a 64-bit
integer (what the machine does with larger ones is left open). The number of cents is wrong where the
price has a single digit behind the dot that is not zero: the digit is taken for cents, not for
tenths of a dollar.
-/

set_option autoImplicit false

namespace ProvenoOracle.Examples

/-! ## The programs -/

/-- `string.find_literal`, for a needle of one character: the first index, from one. -/
def findLiteral (s : List Char) (needle : Char) : Option Nat :=
  (s.idxOf? needle).map fun i => i + 1

/-- `string.sub`, from an index that is at least one. -/
def luaSub (s : List Char) (i j : Nat) : List Char := (s.take j).drop (i - 1)

/-- `tonumber`, of digits behind an optional sign; anything else is `nil`. -/
def toNumber (s : List Char) : Option Int :=
  let digits := if s.head? = some '-' then s.tail else s
  if digits ≠ [] ∧ digits.all Char.isDigit ∧ Nat.ofDigitChars 10 digits 0 < 2 ^ 63 then
    let n : Int := Nat.ofDigitChars 10 digits 0
    some (if s.head? = some '-' then -n else n)
  else none

/-- `eth_price.lua`, from the decoded price on. -/
def ethPrice (usd : List Char) : Option Int := do
  let price := usd ++ ".00".toList
  let dot ← findLiteral price '.'
  toNumber (luaSub price 1 (dot - 1))

/-- The result of an operation on integers; `overflow` is for those beyond 64 bits. -/
def luaInt (overflow : Int → Option Int) (n : Int) : Option Int :=
  if -2 ^ 63 ≤ n ∧ n < 2 ^ 63 then some n else overflow n

/-- `usdc_depeg.lua`, from the decoded price on. Arithmetic on `nil` is an error. -/
def usdcDepeg (overflow : Int → Option Int) (price : List Char) : Option Int := do
  let dot ← findLiteral price '.'
  let dollars ← toNumber (luaSub price 1 (dot - 1))
  let product ← luaInt overflow (dollars * 100)
  let cents ← toNumber (luaSub price (dot + 1) (dot + 2))
  luaInt overflow (product + cents)

/-! ## Decimals -/

/-- Some digits, at least one, whose number fits. -/
structure Digits (s : List Char) : Prop where
  notEmpty : s ≠ []
  digits : ∀ c ∈ s, c.isDigit
  fits : Nat.ofDigitChars 10 s 0 < 2 ^ 63

/-- The number of some digits. -/
def digitsValue (s : List Char) : Nat := Nat.ofDigitChars 10 s 0

theorem toNumber_digits {s : List Char} (h : Digits s) :
    toNumber s = some (digitsValue s : Int) := by
  have hsign : s.head? ≠ some '-' := by
    intro hhead
    have hmem : '-' ∈ s := List.mem_of_mem_head? hhead
    exact absurd (h.digits '-' hmem) (by decide)
  have hall : s.all Char.isDigit = true := List.all_eq_true.mpr h.digits
  unfold toNumber
  simp only [if_neg hsign]
  rw [if_pos ⟨h.notEmpty, hall, h.fits⟩]
  rfl

/-- The dot behind some digits. -/
theorem findLiteral_dot {whole : List Char} (h : ∀ c ∈ whole, c.isDigit) (frac : List Char) :
    findLiteral (whole ++ '.' :: frac) '.' = some (whole.length + 1) := by
  have hindex : (whole ++ '.' :: frac).idxOf? '.' = some whole.length := by
    induction whole with
    | nil => rfl
    | cons c whole ih =>
        have hne : c ≠ '.' := by
          rintro rfl
          exact absurd (h '.' (by simp)) (by decide)
        rw [List.cons_append, List.idxOf?_cons, ih fun d hd => h d (by simp [hd])]
        simp [hne]
  rw [findLiteral, hindex]
  rfl

/-- The part before the dot. -/
theorem luaSub_whole (whole frac : List Char) :
    luaSub (whole ++ '.' :: frac) 1 (whole.length + 1 - 1) = whole := by
  simp [luaSub]

/-- The two characters behind the dot. -/
theorem luaSub_frac (whole frac : List Char) :
    luaSub (whole ++ '.' :: frac) (whole.length + 1 + 1) (whole.length + 1 + 2) = frac.take 2 := by
  have hlist : whole ++ '.' :: frac = (whole ++ ['.']) ++ frac := by simp
  have hlength : (whole ++ ['.']).length = whole.length + 1 := by simp
  rw [luaSub, hlist, Nat.add_sub_cancel, ← hlength, List.take_length_add_append,
    List.drop_left]

theorem digitsValue_lt {s : List Char} (h : ∀ c ∈ s, c.isDigit) :
    digitsValue s < 10 ^ s.length := by
  unfold digitsValue
  induction s with
  | nil => simp
  | cons c s ih =>
      have hc := Char.isDigit_iff_toNat.mp (h c (by simp))
      have hdigit : c.toNat - '0'.toNat ≤ 9 := by
        have hnine : '9'.toNat = 57 := rfl
        have hzero : '0'.toNat = 48 := rfl
        omega
      have hrest := ih fun d hd => h d (by simp [hd])
      rw [Nat.ofDigitChars_cons, Nat.ofDigitChars_eq_ofDigitChars_zero, List.length_cons,
        Nat.pow_succ]
      nlinarith

theorem digitsValue_append (s s' : List Char) :
    digitsValue (s ++ s') = 10 ^ s'.length * digitsValue s + digitsValue s' := by
  unfold digitsValue
  rw [Nat.ofDigitChars_append, Nat.ofDigitChars_eq_ofDigitChars_zero]

/-! ## What the programs return -/

theorem ethPrice_decimal {whole : List Char} (hwhole : Digits whole) (frac : List Char) :
    ethPrice (whole ++ '.' :: frac) = some (digitsValue whole : Int) := by
  have hprice : (whole ++ '.' :: frac) ++ ".00".toList
      = whole ++ '.' :: (frac ++ ".00".toList) := by simp
  unfold ethPrice
  simp only [hprice]
  rw [findLiteral_dot hwhole.digits]
  show toNumber (luaSub _ 1 (whole.length + 1 - 1)) = _
  rw [luaSub_whole, toNumber_digits hwhole]

/-- A price without a dot gets one. -/
theorem ethPrice_whole {whole : List Char} (hwhole : Digits whole) :
    ethPrice whole = some (digitsValue whole : Int) := by
  unfold ethPrice
  show (findLiteral (whole ++ '.' :: ['0', '0']) '.').bind _ = _
  rw [findLiteral_dot hwhole.digits]
  show toNumber (luaSub (whole ++ '.' :: ['0', '0']) 1 (whole.length + 1 - 1)) = _
  rw [luaSub_whole, toNumber_digits hwhole]

theorem luaInt_of_fits {overflow : Int → Option Int} {n : Nat} (h : n < 2 ^ 63) :
    luaInt overflow n = some (n : Int) := by
  rw [luaInt, if_pos (by omega)]

variable (overflow : Int → Option Int)

theorem usdcDepeg_decimal {whole frac : List Char} (hwhole : Digits whole) (hne : frac ≠ [])
    (hfrac : ∀ c ∈ frac, c.isDigit)
    (hfits : digitsValue whole * 100 + digitsValue (frac.take 2) < 2 ^ 63) :
    usdcDepeg overflow (whole ++ '.' :: frac)
      = some (digitsValue whole * 100 + digitsValue (frac.take 2) : Int) := by
  have hdigits : ∀ c ∈ frac.take 2, c.isDigit := fun c hc =>
    hfrac c (List.mem_of_mem_take hc)
  have hcents : Digits (frac.take 2) := by
    refine ⟨by simp [hne], hdigits, ?_⟩
    have hlt := digitsValue_lt hdigits
    have hpow : 10 ^ (frac.take 2).length ≤ 10 ^ 2 :=
      Nat.pow_le_pow_right (by omega) (List.length_take_le 2 frac)
    show digitsValue (frac.take 2) < 2 ^ 63
    omega
  have hproduct := @luaInt_of_fits overflow (digitsValue whole * 100) (by omega)
  have hsum := @luaInt_of_fits overflow _ hfits
  push_cast at hproduct hsum
  unfold usdcDepeg
  rw [findLiteral_dot hwhole.digits]
  show ((toNumber (luaSub _ 1 (whole.length + 1 - 1))).bind fun dollars =>
    (luaInt overflow (dollars * 100)).bind fun product =>
      (toNumber (luaSub _ (whole.length + 1 + 1) (whole.length + 1 + 2))).bind _) = _
  rw [luaSub_whole, luaSub_frac, toNumber_digits hwhole, toNumber_digits hcents, Option.bind_some,
    hproduct, Option.bind_some, Option.bind_some]
  exact hsum

/-- A price without a dot is an error. -/
theorem usdcDepeg_whole {whole : List Char} (hwhole : ∀ c ∈ whole, c.isDigit) :
    usdcDepeg overflow whole = none := by
  have hdot : '.' ∉ whole := fun hmem => absurd (hwhole '.' hmem) (by decide)
  have hindex : findLiteral whole '.' = none := by
    rw [findLiteral, List.idxOf?_eq_none_iff.mpr hdot]
    rfl
  rw [usdcDepeg, hindex]
  rfl

/-- The price in cents, without what is behind them. -/
def cents (whole frac : List Char) : Nat :=
  (digitsValue whole * 10 ^ frac.length + digitsValue frac) * 100 / 10 ^ frac.length

theorem cents_eq (whole frac : List Char) :
    cents whole frac = digitsValue whole * 100 + digitsValue frac * 100 / 10 ^ frac.length := by
  have hpow : 0 < 10 ^ frac.length := Nat.pow_pos (by omega)
  rw [cents, Nat.add_mul, Nat.mul_right_comm, Nat.add_comm, Nat.add_mul_div_right _ _ hpow,
    Nat.add_comm]

/-- From two digits on, the first two are the cents. -/
theorem digitsValue_take_two {frac : List Char} (h : ∀ c ∈ frac, c.isDigit)
    (hlength : 2 ≤ frac.length) :
    digitsValue frac * 100 / 10 ^ frac.length = digitsValue (frac.take 2) := by
  obtain ⟨n, hn⟩ := Nat.exists_eq_add_of_le hlength
  have hrest : digitsValue (frac.drop 2) < 10 ^ n := by
    have hlt := digitsValue_lt (s := frac.drop 2) fun c hc => h c (List.mem_of_mem_drop hc)
    rwa [List.length_drop, hn, Nat.add_sub_cancel_left] at hlt
  have hsplit := digitsValue_append (frac.take 2) (frac.drop 2)
  rw [List.take_append_drop, List.length_drop, hn, Nat.add_sub_cancel_left] at hsplit
  have hpow : 10 ^ frac.length = 10 ^ n * 100 := by
    rw [hn, Nat.pow_add]
    omega
  rw [hpow, Nat.mul_div_mul_right _ _ (by omega : 0 < 100), hsplit,
    Nat.mul_add_div (Nat.pow_pos (by omega)), Nat.div_eq_of_lt hrest, Nat.add_zero]

/-- **When the price programs are right**, for any decimal: the number of dollars always is, with a
dot or without one. The number of cents is an error without a dot. With one, and if it is a 64-bit
integer, it is right exactly when there are two digits behind it, or nothing but zero. -/
theorem decimal_prices {whole frac : List Char} (hwhole : Digits whole) (hne : frac ≠ [])
    (hfrac : ∀ c ∈ frac, c.isDigit) :
    ethPrice whole = some (digitsValue whole : Int) ∧
      ethPrice (whole ++ '.' :: frac) = some (digitsValue whole : Int) ∧
      usdcDepeg overflow whole = none ∧
      (digitsValue whole * 100 + digitsValue (frac.take 2) < 2 ^ 63 →
        (usdcDepeg overflow (whole ++ '.' :: frac) = some (cents whole frac : Int) ↔
          2 ≤ frac.length ∨ digitsValue frac = 0)) := by
  refine ⟨ethPrice_whole hwhole, ethPrice_decimal hwhole frac,
    usdcDepeg_whole overflow hwhole.digits, ?_⟩
  intro hfits
  rw [usdcDepeg_decimal overflow hwhole hne hfrac hfits, cents_eq, Option.some_inj]
  by_cases hlength : 2 ≤ frac.length
  · rw [digitsValue_take_two hfrac hlength]
    simp [hlength]
  · have hone : frac.length = 1 := by
      have hpos : 0 < frac.length := List.length_pos_iff.mpr hne
      omega
    -- the only digit is taken for the cents
    rw [List.take_of_length_le (by omega), hone, Nat.pow_one]
    omega

theorem decimal_prices_tenths : usdcDepeg (fun _ => none) "0.9".toList = some 9 ∧
    ¬ usdcDepeg (fun _ => none) "0.9".toList = some (cents ['0'] ['9'] : Int) := by
  have hwhole : Digits ['0'] := ⟨by decide, by simp, by decide⟩
  have hright := (decimal_prices (fun _ => none) hwhole (List.cons_ne_nil '9' []) (by simp)).2.2.2
    (by decide)
  exact ⟨by decide, fun h => absurd (hright.mp h) (by decide)⟩

end ProvenoOracle.Examples
