import Mathlib.Tactic

/-! # Numbers in a text

A scanner that goes through a text one character at a time, adds digits up to numbers below a
bound and hands each number on where the first character after it comes. What it hands on is given
by an action on a state of its own, which may fail.

`scan_blank` and `scan_number` are its rules: a part without digits is skipped, and a printed
number between such parts is handed on as it is.
-/

set_option autoImplicit false

namespace Codec

section Scan

variable {σ : Type} (bound : Nat) (act : σ → Nat → Option σ)

/-- One character. The state comes with the number that the scanner is inside of, if it is. -/
def scanChar (s : σ × Option Nat) (c : Char) : Option (σ × Option Nat) :=
  if c.isDigit then
    let n := s.2.getD 0 * 10 + (c.toNat - '0'.toNat)
    if n < bound then some (s.1, some n) else none
  else
    match s.2 with
    | none => some s
    | some n => (act s.1 n).map fun s' => (s', none)

/-- A text. -/
def scan (s : σ × Option Nat) (text : List Char) : Option (σ × Option Nat) :=
  text.foldlM (scanChar bound act) s

variable {bound act}

theorem scan_append (s : σ × Option Nat) (text rest : List Char) :
    scan bound act s (text ++ rest) = (scan bound act s text).bind (scan bound act · rest) :=
  List.foldlM_append

/-- A part without digits is skipped. -/
theorem scan_blank {text : List Char} (h : ∀ c ∈ text, c.isDigit = false) (s : σ) :
    scan bound act (s, none) text = some (s, none) := by
  induction text with
  | nil => rfl
  | cons c text ih =>
      have hc : c.isDigit = false := h c (by simp)
      have hstep : scanChar bound act (s, none) c = some (s, none) := by
        rw [scanChar, hc]
        rfl
      rw [scan, List.foldlM_cons, hstep]
      exact ih fun d hd => h d (by simp [hd])

/-- The first character after a number. -/
theorem scanChar_end {c : Char} (h : c.isDigit = false) (s : σ) (n : Nat) :
    scanChar bound act (s, some n) c = (act s n).map fun s' => (s', none) := by
  rw [scanChar, h]
  rfl

/-- Digits are added up, from the number so far. By induction on them; the number only grows, so
it stays below the bound if it is there at the end. -/
theorem scan_digits {digits : List Char} (s : σ) : ∀ {pending : Option Nat}, digits ≠ [] →
    (∀ c ∈ digits, c.isDigit) → Nat.ofDigitChars 10 digits (pending.getD 0) < bound →
    scan bound act (s, pending) digits
      = some (s, some (Nat.ofDigitChars 10 digits (pending.getD 0))) := by
  induction digits with
  | nil => exact fun h => absurd rfl h
  | cons c digits ih =>
      intro pending _ hdigits hbound
      have hc : c.isDigit = true := hdigits c (by simp)
      rw [Nat.ofDigitChars_cons, Nat.mul_comm] at hbound ⊢
      have hgrows : pending.getD 0 * 10 + (c.toNat - '0'.toNat)
          ≤ Nat.ofDigitChars 10 digits (pending.getD 0 * 10 + (c.toNat - '0'.toNat)) := by
        rw [Nat.ofDigitChars_eq_ofDigitChars_zero]
        have hpow : 1 ≤ 10 ^ digits.length := Nat.one_le_pow _ _ (by omega)
        nlinarith
      have hstep : scanChar bound act (s, pending) c
          = some (s, some (pending.getD 0 * 10 + (c.toNat - '0'.toNat))) := by
        rw [scanChar, if_pos hc]
        exact if_pos (Nat.lt_of_le_of_lt hgrows hbound)
      rw [scan, List.foldlM_cons, hstep]
      show scan bound act (s, some _) digits = _
      cases digits with
      | nil => rfl
      | cons d digits => exact ih (by simp) (fun e he => hdigits e (by simp [he])) hbound

/-- **A printed number** behind a part without digits is handed on at the character after it. -/
theorem scan_number {front : List Char} (hfront : ∀ c ∈ front, c.isDigit = false) {n : Nat}
    (hn : n < bound) {c : Char} (hc : c.isDigit = false) (s : σ) :
    scan bound act (s, none) (front ++ (Nat.toDigits 10 n ++ [c]))
      = (act s n).map fun s' => (s', none) := by
  have hvalue : Nat.ofDigitChars 10 (Nat.toDigits 10 n) 0 = n := Nat.ofDigitChars_ten_toDigits
  have hdigits : scan bound act (s, none) (Nat.toDigits 10 n) = some (s, some
      (Nat.ofDigitChars 10 (Nat.toDigits 10 n) ((none : Option Nat).getD 0))) :=
    scan_digits s Nat.toDigits_ne_nil
      (fun c hc => Nat.isDigit_of_mem_toDigits (by omega) (by omega) hc)
      (by rw [Option.getD_none, hvalue]; exact hn)
  rw [Option.getD_none, hvalue] at hdigits
  rw [scan_append, scan_blank hfront]
  show scan bound act (s, none) (Nat.toDigits 10 n ++ [c]) = _
  rw [scan_append, hdigits]
  show scan bound act (s, some n) [c] = _
  rw [scan, List.foldlM_cons, scanChar_end hc]
  cases act s n <;> rfl

end Scan

end Codec
