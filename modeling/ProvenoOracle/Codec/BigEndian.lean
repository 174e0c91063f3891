import Mathlib.Tactic

/-! # Big-endian integers

Fixed-width big-endian encodings of natural numbers (`toBeBytes`), the value of a byte string
read most significant byte first (`ofBeBytes`), and the number of bytes a value needs
(`byteCount`). Widths are in bytes; `toBeBytes n v` keeps the low `8 * n` bits of `v`, as a
conversion to an `8 * n`-bit integer does.
-/

set_option autoImplicit false

namespace Codec

/-- The `n` low bytes of `v`, most significant first. -/
def toBeBytes : Nat → Nat → List UInt8
  | 0, _ => []
  | n + 1, v => toBeBytes n (v / 256) ++ [UInt8.ofNat v]

/-- The value of a byte string, most significant byte first. -/
def ofBeBytes (bs : List UInt8) : Nat := bs.foldl (fun v b => v * 256 + b.toNat) 0

/-- How many bytes the value `v` needs. -/
def byteCount (v : Nat) : Nat := (Nat.digits 256 v).length

@[simp] theorem toBeBytes_length (n v : Nat) : (toBeBytes n v).length = n := by
  induction n generalizing v with
  | zero => rfl
  | succ n ih => simp [toBeBytes, ih]

@[simp] theorem ofBeBytes_nil : ofBeBytes [] = 0 := rfl

@[simp] theorem ofBeBytes_concat (bs : List UInt8) (b : UInt8) :
    ofBeBytes (bs ++ [b]) = ofBeBytes bs * 256 + b.toNat := by
  simp [ofBeBytes, List.foldl_append]

theorem ofBeBytes_lt (bs : List UInt8) : ofBeBytes bs < 256 ^ bs.length := by
  induction bs using List.reverseRecOn with
  | nil => simp
  | append_singleton bs b ih =>
      have hb : b.toNat < 256 := b.toNat_lt
      rw [ofBeBytes_concat, List.length_append, List.length_singleton, pow_succ]
      omega

theorem ofBeBytes_toBeBytes (n v : Nat) : ofBeBytes (toBeBytes n v) = v % 256 ^ n := by
  induction n generalizing v with
  | zero => simp [toBeBytes, Nat.mod_one]
  | succ n ih =>
      have hlow : (UInt8.ofNat v).toNat = v % 256 := UInt8.toNat_ofNat'
      have hsplit : v % (256 * 256 ^ n) = v % 256 + 256 * (v / 256 % 256 ^ n) := Nat.mod_mul
      calc ofBeBytes (toBeBytes (n + 1) v)
          = ofBeBytes (toBeBytes n (v / 256)) * 256 + (UInt8.ofNat v).toNat := by
            rw [toBeBytes, ofBeBytes_concat]
        _ = v / 256 % 256 ^ n * 256 + v % 256 := by rw [ih, hlow]
        _ = v % (256 * 256 ^ n) := by rw [hsplit]; ring
        _ = v % 256 ^ (n + 1) := by rw [pow_succ']

theorem ofBeBytes_toBeBytes_of_lt {n v : Nat} (h : v < 256 ^ n) :
    ofBeBytes (toBeBytes n v) = v := by
  rw [ofBeBytes_toBeBytes, Nat.mod_eq_of_lt h]

/-- The bytes of the value of a byte string are the byte string. -/
theorem toBeBytes_ofBeBytes {n : Nat} {bs : List UInt8} (h : bs.length = n) :
    toBeBytes n (ofBeBytes bs) = bs := by
  subst h
  induction bs using List.reverseRecOn with
  | nil => rfl
  | append_singleton bs b ih =>
      have hb : b.toNat < 256 := b.toNat_lt
      have hhigh : (ofBeBytes bs * 256 + b.toNat) / 256 = ofBeBytes bs := by omega
      have hlow : UInt8.ofNat (ofBeBytes bs * 256 + b.toNat) = b := by
        apply UInt8.toNat_inj.mp
        rw [UInt8.toNat_ofNat']
        omega
      rw [List.length_append, List.length_singleton, ofBeBytes_concat, toBeBytes, hhigh, ih, hlow]

/-- The bytes in front count for more. -/
theorem ofBeBytes_append (as bs : List UInt8) :
    ofBeBytes (as ++ bs) = ofBeBytes as * 256 ^ bs.length + ofBeBytes bs := by
  induction bs using List.reverseRecOn with
  | nil => simp
  | append_singleton bs b ih =>
      rw [← List.append_assoc, ofBeBytes_concat, ofBeBytes_concat, ih, List.length_append,
        List.length_singleton, pow_succ]
      ring

theorem ofBeBytes_replicate_zero (n : Nat) : ofBeBytes (List.replicate n 0) = 0 := by
  induction n with
  | zero => rfl
  | succ n ih => rw [List.replicate_succ', ofBeBytes_concat, ih]; rfl

/-- The bytes in front are the high bits of the value. -/
theorem ofBeBytes_take (bs : List UInt8) (n : Nat) :
    ofBeBytes (bs.take n) = ofBeBytes bs >>> (8 * (bs.length - n)) := by
  have hlow : ofBeBytes (bs.drop n) < 256 ^ (bs.length - n) := by
    rw [← List.length_drop]
    exact ofBeBytes_lt _
  have hpow : 2 ^ (8 * (bs.length - n)) = 256 ^ (bs.length - n) := by
    rw [pow_mul]
    rfl
  have hsplit : ofBeBytes bs
      = ofBeBytes (bs.drop n) + 256 ^ (bs.length - n) * ofBeBytes (bs.take n) := by
    calc ofBeBytes bs = ofBeBytes (bs.take n ++ bs.drop n) := by rw [List.take_append_drop]
      _ = ofBeBytes (bs.take n) * 256 ^ (bs.length - n) + ofBeBytes (bs.drop n) := by
          rw [ofBeBytes_append, List.length_drop]
      _ = _ := by ring
  rw [Nat.shiftRight_eq_div_pow, hpow, hsplit,
    Nat.add_mul_div_left _ _ (Nat.pow_pos (by decide)), Nat.div_eq_of_lt hlow, Nat.zero_add]

/-! ## Fitting a byte string to a width -/

/-- The byte string at a width: padded with zeros in front, or cut at the end. -/
def fitBytes (n : Nat) (bs : List UInt8) : List UInt8 :=
  List.replicate (n - bs.length) 0 ++ bs.take n

/-- The leftmost `8 * n` bits of the byte string, as a number. -/
def leftmostBits (n : Nat) (bs : List UInt8) : Nat :=
  if bs.length ≤ n then ofBeBytes bs else ofBeBytes bs >>> (8 * (bs.length - n))

theorem fitBytes_length (n : Nat) (bs : List UInt8) : (fitBytes n bs).length = n := by
  rw [fitBytes, List.length_append, List.length_replicate, List.length_take]
  omega

theorem fitBytes_of_ge {n : Nat} {bs : List UInt8} (h : n ≤ bs.length) :
    fitBytes n bs = bs.take n := by
  rw [fitBytes, Nat.sub_eq_zero_of_le h]
  rfl

theorem fitBytes_of_le {n : Nat} {bs : List UInt8} (h : bs.length ≤ n) :
    fitBytes n bs = List.replicate (n - bs.length) 0 ++ bs := by
  rw [fitBytes, List.take_of_length_le h]

theorem fitBytes_self (bs : List UInt8) : fitBytes bs.length bs = bs := by
  rw [fitBytes_of_ge (Nat.le_refl _), List.take_length]

/-- **Fitting keeps the leftmost bits**: zeros in front do not count, and cutting bytes off is a
shift. -/
theorem ofBeBytes_fitBytes (n : Nat) (bs : List UInt8) :
    ofBeBytes (fitBytes n bs) = leftmostBits n bs := by
  have hfront : ofBeBytes (fitBytes n bs) = ofBeBytes (bs.take n) := by
    rw [fitBytes, ofBeBytes_append, ofBeBytes_replicate_zero, Nat.zero_mul, Nat.zero_add]
  rw [hfront, leftmostBits]
  by_cases hshort : bs.length ≤ n
  · rw [if_pos hshort, List.take_of_length_le hshort]
  · rw [if_neg hshort, ofBeBytes_take]

/-- Values that fit the width are told apart by their bytes. -/
theorem toBeBytes_inj {n v w : Nat} (hv : v < 256 ^ n) (hw : w < 256 ^ n)
    (h : toBeBytes n v = toBeBytes n w) : v = w := by
  rw [← ofBeBytes_toBeBytes_of_lt hv, ← ofBeBytes_toBeBytes_of_lt hw, h]

/-- A width is split into its high and its low bytes. -/
theorem toBeBytes_add (m n v : Nat) :
    toBeBytes (m + n) v = toBeBytes m (v / 256 ^ n) ++ toBeBytes n v := by
  induction n generalizing v with
  | zero => simp [toBeBytes]
  | succ n ih =>
      have hhigh : v / 256 / 256 ^ n = v / 256 ^ (n + 1) := by
        rw [Nat.div_div_eq_div_mul, pow_succ']
      calc toBeBytes (m + (n + 1)) v
          = toBeBytes (m + n) (v / 256) ++ [UInt8.ofNat v] := rfl
        _ = toBeBytes m (v / 256 / 256 ^ n) ++ toBeBytes n (v / 256) ++ [UInt8.ofNat v] := by
            rw [ih]
        _ = toBeBytes m (v / 256 ^ (n + 1)) ++ toBeBytes (n + 1) v := by
            rw [hhigh, toBeBytes, List.append_assoc]

/-- Only the low bytes count. -/
theorem toBeBytes_add_mul (n v k : Nat) : toBeBytes n (v + 256 ^ n * k) = toBeBytes n v := by
  induction n generalizing v k with
  | zero => rfl
  | succ n ih =>
      have hhigh : (v + 256 ^ (n + 1) * k) / 256 = v / 256 + 256 ^ n * k := by
        rw [pow_succ', Nat.mul_assoc, Nat.add_mul_div_left _ _ (by decide)]
      have hlow : UInt8.ofNat (v + 256 ^ (n + 1) * k) = UInt8.ofNat v := by
        apply UInt8.toNat_inj.mp
        rw [UInt8.toNat_ofNat', UInt8.toNat_ofNat', pow_succ', Nat.mul_assoc]
        exact Nat.add_mul_mod_self_left _ _ _
      rw [toBeBytes, toBeBytes, hhigh, hlow, ih]

/-- Padding with zero bytes. -/
theorem toBeBytes_zero (n : Nat) : toBeBytes n 0 = List.replicate n 0 := by
  induction n with
  | zero => rfl
  | succ n ih =>
      rw [toBeBytes, Nat.zero_div, ih, List.replicate_succ']
      rfl

/-- All ones: the padding of a negative number. -/
theorem toBeBytes_max (n : Nat) : toBeBytes n (256 ^ n - 1) = List.replicate n 0xff := by
  induction n with
  | zero => rfl
  | succ n ih =>
      have hpos : 0 < 256 ^ n := Nat.pow_pos (by decide)
      have hhigh : (256 ^ (n + 1) - 1) / 256 = 256 ^ n - 1 := by
        rw [pow_succ]
        omega
      have hlow : UInt8.ofNat (256 ^ (n + 1) - 1) = 0xff := by
        apply UInt8.toNat_inj.mp
        show (256 ^ (n + 1) - 1) % 256 = 255
        rw [pow_succ]
        omega
      rw [toBeBytes, hhigh, hlow, ih, List.replicate_succ']

theorem lt_pow_byteCount (v : Nat) : v < 256 ^ byteCount v :=
  Nat.lt_base_pow_length_digits (by decide)

theorem byteCount_le_iff {v k : Nat} : byteCount v ≤ k ↔ v < 256 ^ k :=
  Nat.digits_length_le_iff (by decide) v

theorem byteCount_pos {v : Nat} (h : v ≠ 0) : 0 < byteCount v :=
  List.length_pos_of_ne_nil (Nat.digits_ne_nil_iff_ne_zero.mpr h)

end Codec
