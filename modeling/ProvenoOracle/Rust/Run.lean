import Mathlib.Tactic

/-! # Running Rust code: panics, `usize` and slices

The modelled functions are Rust functions over byte slices. Three things a Rust expression
can do have no counterpart in a pure Lean function, and this file gives them one:

* a call can **panic** (`Run α` is a value of `α` or the reason of the panic);
* `usize` has a width, and an addition that leaves it panics in a build with overflow checks
  and wraps around in a build without them (`Target`, `usizeAdd`);
* an index or a sub-slice can be out of range (`index`, `slice`, `sliceFrom`), which panics.

Every operation comes with the lemma that says when it returns and with what.
-/

set_option autoImplicit false

namespace ProvenoOracle

/-- A Rust `&[u8]` or `Vec<u8>`. -/
abbrev Bytes := List UInt8

/-- An array `[u8; n]`. -/
abbrev ByteArr (n : Nat) := { b : Bytes // b.length = n }

/-- Why a call did not return. -/
inductive Panic where
  | overflow
  | outOfRange
  deriving DecidableEq, Repr

/-- The outcome of a call: the value it returns, or a panic. -/
abbrev Run (α : Type) := Except Panic α

/-- A compilation target: the width of `usize` and whether additions are checked. Rust's
`usize` has at least 32 bits on every target the code is built for. -/
structure Target where
  bits : Nat
  overflowChecks : Bool
  bits_ge : 32 ≤ bits

/-- The 64-bit host in a debug build. -/
def Target.host64 : Target := ⟨64, true, by decide⟩

theorem Target.two_pow_ge (t : Target) : 2 ^ 32 ≤ 2 ^ t.bits :=
  Nat.pow_le_pow_right (by decide) t.bits_ge

/-! ## `usize` arithmetic -/

/-- `a + b` on `usize`. -/
def usizeAdd (t : Target) (a b : Nat) : Run Nat :=
  if a + b < 2 ^ t.bits then .ok (a + b)
  else if t.overflowChecks then .error .overflow
  else .ok ((a + b) % 2 ^ t.bits)

/-- `acc << 8 | b` on `usize`: bits shifted out at the top are lost. -/
def shiftIn (t : Target) (acc : Nat) (b : UInt8) : Nat :=
  (acc <<< 8) % 2 ^ t.bits ||| b.toNat

theorem usizeAdd_ok {t : Target} {a b : Nat} (h : a + b < 2 ^ t.bits) :
    usizeAdd t a b = .ok (a + b) := if_pos h

/-- An addition whose sum has 32 bits is exact on every target. -/
theorem usizeAdd_small {t : Target} {a b : Nat} (h : a + b < 2 ^ 32) :
    usizeAdd t a b = .ok (a + b) :=
  usizeAdd_ok (Nat.lt_of_lt_of_le h t.two_pow_ge)

/-- An addition that returns stays below the width. -/
theorem usizeAdd_lt {t : Target} {a b c : Nat} (h : usizeAdd t a b = .ok c) : c < 2 ^ t.bits := by
  unfold usizeAdd at h
  split at h
  · next hlt => cases h; exact hlt
  · split at h
    · cases h
    · cases h
      exact Nat.mod_lt _ (Nat.two_pow_pos t.bits)

/-- A sum that is not exact has wrapped below both summands. -/
theorem usizeAdd_exact_or_wrap {t : Target} {a b c : Nat} (ha : a < 2 ^ t.bits)
    (hb : b < 2 ^ t.bits) (h : usizeAdd t a b = .ok c) : c = a + b ∨ (c < a ∧ c < b) := by
  unfold usizeAdd at h
  split at h
  · cases h; exact Or.inl rfl
  · next hge =>
    split at h
    · cases h
    · cases h
      -- the true sum lies between `2 ^ bits` and twice that
      have hmod : (a + b) % 2 ^ t.bits = a + b - 2 ^ t.bits := by
        rw [Nat.mod_eq_sub_mod (by omega), Nat.mod_eq_of_lt (by omega)]
      right
      omega

/-- A sum that leaves the width and is returned all the same lies below the first summand. -/
theorem usizeAdd_wraps {t : Target} {a b c : Nat} (ha : a < 2 ^ t.bits) (hb : b < 2 ^ t.bits)
    (hfit : ¬ a + b < 2 ^ t.bits) (h : usizeAdd t a b = .ok c) : c < a := by
  have hlt := usizeAdd_lt h
  rcases usizeAdd_exact_or_wrap ha hb h with rfl | hwrap
  · exact absurd hlt hfit
  · exact hwrap.1

/-- Shifting an octet in is exact up to the width of the word. -/
theorem shiftIn_eq (t : Target) (acc : Nat) (b : UInt8) :
    shiftIn t acc b = (acc * 256 + b.toNat) % 2 ^ t.bits := by
  have hb : b.toNat < 2 ^ 8 := b.toNat_lt
  have hbits := t.bits_ge
  have hwidth : 2 ^ t.bits = 2 ^ 8 * 2 ^ (t.bits - 8) := by
    rw [← pow_add]
    congr 1
    omega
  have hlow : (acc * 2 ^ 8 + b.toNat) % 2 ^ 8 = b.toNat := by omega
  have hhigh : (acc * 2 ^ 8 + b.toNat) / 2 ^ 8 = acc := by omega
  calc shiftIn t acc b
      = (2 ^ 8 * acc) % (2 ^ 8 * 2 ^ (t.bits - 8)) ||| b.toNat := by
        rw [shiftIn, Nat.shiftLeft_eq, hwidth, Nat.mul_comm acc]
    _ = 2 ^ 8 * (acc % 2 ^ (t.bits - 8)) ||| b.toNat := by rw [Nat.mul_mod_mul_left]
    _ = 2 ^ 8 * (acc % 2 ^ (t.bits - 8)) + b.toNat :=
        (Nat.two_pow_add_eq_or_of_lt hb _).symm
    _ = (acc * 2 ^ 8 + b.toNat) % 2 ^ t.bits := by
        rw [hwidth, Nat.mod_mul, hlow, hhigh, Nat.add_comm]

/-! ## Indices and sub-slices -/

/-- `s[i]`. -/
def index (s : Bytes) (i : Nat) : Run UInt8 :=
  match s[i]? with
  | some b => .ok b
  | none => .error .outOfRange

/-- `&s[i..j]`. -/
def slice (s : Bytes) (i j : Nat) : Run Bytes :=
  if i ≤ j ∧ j ≤ s.length then .ok ((s.take j).drop i) else .error .outOfRange

/-- `&s[i..]`. -/
def sliceFrom (s : Bytes) (i : Nat) : Run Bytes :=
  if i ≤ s.length then .ok (s.drop i) else .error .outOfRange

@[simp] theorem index_cons_zero (b : UInt8) (s : Bytes) : index (b :: s) 0 = .ok b := rfl

@[simp] theorem index_cons_succ (b : UInt8) (s : Bytes) (i : Nat) :
    index (b :: s) (i + 1) = index s i := by simp [index]

theorem index_ok {s : Bytes} {i : Nat} (h : i < s.length) : index s i = .ok s[i] := by
  simp [index, List.getElem?_eq_getElem h]

theorem slice_ok {s : Bytes} {i j : Nat} (hij : i ≤ j) (hj : j ≤ s.length) :
    slice s i j = .ok ((s.take j).drop i) := if_pos ⟨hij, hj⟩

theorem slice_eq_ok {s r : Bytes} {i j : Nat} (h : slice s i j = .ok r) :
    i ≤ j ∧ j ≤ s.length ∧ r = (s.take j).drop i := by
  unfold slice at h
  split at h
  · next hij => cases h; exact ⟨hij.1, hij.2, rfl⟩
  · cases h

theorem sliceFrom_ok {s : Bytes} {i : Nat} (h : i ≤ s.length) :
    sliceFrom s i = .ok (s.drop i) := if_pos h

@[simp] theorem sliceFrom_cons_one (b : UInt8) (s : Bytes) : sliceFrom (b :: s) 1 = .ok s := by
  simp [sliceFrom]

/-! ## Sequencing -/

@[simp] theorem Run.pure_eq {α : Type} (a : α) : (pure a : Run α) = .ok a := rfl

@[simp] theorem Run.ok_bind {α β : Type} (a : α) (f : α → Run β) : (Except.ok a >>= f) = f a :=
  rfl

@[simp] theorem Run.error_bind {α β : Type} (p : Panic) (f : α → Run β) :
    (Except.error p >>= f) = .error p := rfl

/-- A sequence returns only when its first part returns and the rest does. -/
theorem Run.bind_eq_ok {α β : Type} {x : Run α} {f : α → Run β} {b : β}
    (h : x >>= f = .ok b) : ∃ a, x = .ok a ∧ f a = .ok b := by
  cases x with
  | error p => cases h
  | ok a => exact ⟨a, rfl, h⟩

/-- The call does not panic. -/
def Run.Returns {α : Type} (x : Run α) : Prop := ∃ a, x = .ok a

theorem Run.returns_ok {α : Type} (a : α) : Run.Returns (.ok a) := ⟨a, rfl⟩

theorem Run.not_returns_error {α : Type} (p : Panic) :
    ¬ Run.Returns (Except.error p : Run α) := by
  rintro ⟨a, ha⟩
  cases ha

/-- A sequence that returns has a first part that returns. -/
theorem Run.Returns.of_bind {α β : Type} {x : Run α} {f : α → Run β}
    (h : Run.Returns (x >>= f)) : Run.Returns x := by
  obtain ⟨b, hb⟩ := h
  obtain ⟨a, ha, -⟩ := Run.bind_eq_ok hb
  exact ⟨a, ha⟩

theorem Run.Returns.bind {α β : Type} {x : Run α} {f : α → Run β} (hx : Run.Returns x)
    (hf : ∀ a, Run.Returns (f a)) : Run.Returns (x >>= f) := by
  obtain ⟨a, rfl⟩ := hx
  exact hf a

end ProvenoOracle
