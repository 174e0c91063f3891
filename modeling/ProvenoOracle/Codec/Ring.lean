import Mathlib.Data.List.DropRight
import Mathlib.Tactic

/-! # Ring buffers

The last elements of a sequence in a fixed number of slots: the element with index `i` is written
to slot `i % w`, over what is there. `RingOf` says what the slots hold after some elements. Writing
the next one keeps it (`RingOf.put`), and the first slots hold the last elements, in some order
(`RingOf.filled`, `RingOf.mem_last`).
-/

set_option autoImplicit false

namespace Codec

variable {α : Type}

/-- The slots hold the last `w` elements, each at its index modulo `w`. -/
def RingOf (w : Nat) (xs : List α) (slots : Nat → Option α) : Prop :=
  ∀ j x, slots j = some x ↔ ∃ i, xs[i]? = some x ∧ i % w = j ∧ xs.length ≤ i + w

variable {w : Nat} {xs : List α} {slots : Nat → Option α}

theorem ringOf_nil (w : Nat) : RingOf w ([] : List α) fun _ => none := by
  intro j x
  simp

/-- Two indices in one window that share a slot are the same. -/
theorem eq_of_mod_eq_of_lt {i n : Nat} (hmod : i % w = n % w) (hle : i ≤ n) (hlt : n < i + w) :
    i = n :=
  Nat.ModEq.eq_of_abs_lt hmod (by rw [abs_lt]; omega)

/-- **Writing the next element.** -/
theorem RingOf.put (h : RingOf w xs slots) (hw : 0 < w) (x : α) :
    RingOf w (xs ++ [x]) (Function.update slots (xs.length % w) (some x)) := by
  intro j y
  rw [List.length_append, List.length_singleton]
  by_cases hj : j = xs.length % w
  · rw [hj, Function.update_self]
    constructor
    · intro hy
      obtain rfl := Option.some.inj hy
      exact ⟨xs.length, by simp, rfl, by omega⟩
    · rintro ⟨i, hi, hmod, hlast⟩
      have hle : i ≤ xs.length := by
        obtain ⟨hlt, -⟩ := List.getElem?_eq_some_iff.mp hi
        rw [List.length_append, List.length_singleton] at hlt
        omega
      obtain rfl := eq_of_mod_eq_of_lt hmod hle (by omega)
      simpa using hi
  · rw [Function.update_of_ne hj, h j y]
    have hindex : ∀ i, i % w = j → i ≠ xs.length := fun i hi he => hj (by rw [← hi, he])
    constructor
    · rintro ⟨i, hi, hmod, hlast⟩
      obtain ⟨hlt, -⟩ := List.getElem?_eq_some_iff.mp hi
      refine ⟨i, by rw [List.getElem?_append_left hlt, hi], hmod, ?_⟩
      -- the element that is written over would be in this slot
      have hne : xs.length ≠ i + w := fun he => hj (by rw [he, Nat.add_mod_right, hmod])
      omega
    · rintro ⟨i, hi, hmod, hlast⟩
      have hlt : i < xs.length := by
        obtain ⟨hlt, -⟩ := List.getElem?_eq_some_iff.mp hi
        rw [List.length_append, List.length_singleton] at hlt
        have := hindex i hmod
        omega
      rw [List.getElem?_append_left hlt] at hi
      exact ⟨i, hi, hmod, by omega⟩

theorem mem_rtake_iff {x : α} : x ∈ xs.rtake w ↔ ∃ i, xs[i]? = some x ∧ xs.length ≤ i + w := by
  rw [List.rtake, List.mem_iff_getElem?]
  constructor
  · rintro ⟨k, hk⟩
    rw [List.getElem?_drop] at hk
    exact ⟨xs.length - w + k, hk, by omega⟩
  · rintro ⟨i, hi, hlast⟩
    refine ⟨i - (xs.length - w), ?_⟩
    rw [List.getElem?_drop, Nat.add_sub_cancel' (by omega), hi]

/-- The first slots hold some of the last elements. -/
theorem RingOf.filled (h : RingOf w xs slots) {j : Nat} (hj : j < w) (hlength : j < xs.length) :
    ∃ x ∈ xs.rtake w, slots j = some x := by
  -- the last index of this slot
  have hdiv := Nat.div_add_mod (xs.length - 1 - j) w
  have hmod := Nat.mod_lt (xs.length - 1 - j) (by omega : 0 < w)
  have hindex : j + w * ((xs.length - 1 - j) / w) < xs.length := by omega
  obtain ⟨x, hx⟩ : ∃ x, xs[j + w * ((xs.length - 1 - j) / w)]? = some x :=
    ⟨_, List.getElem?_eq_getElem hindex⟩
  refine ⟨x, mem_rtake_iff.mpr ⟨_, hx, by omega⟩, (h j x).mpr ⟨_, hx, ?_, by omega⟩⟩
  rw [Nat.add_mul_mod_self_left, Nat.mod_eq_of_lt hj]

/-- The first slots hold all of the last elements. -/
theorem RingOf.mem_last (h : RingOf w xs slots) (hw : 0 < w) {x : α} (hx : x ∈ xs.rtake w) :
    ∃ j, j < w ∧ j < xs.length ∧ slots j = some x := by
  obtain ⟨i, hi, hlast⟩ := mem_rtake_iff.mp hx
  obtain ⟨hlt, -⟩ := List.getElem?_eq_some_iff.mp hi
  have hmod : i % w ≤ i := Nat.mod_le i w
  exact ⟨i % w, Nat.mod_lt i hw, by omega, (h _ x).mpr ⟨i, hi, rfl, hlast⟩⟩

end Codec
