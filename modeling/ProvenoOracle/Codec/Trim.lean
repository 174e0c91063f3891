import Mathlib.Data.List.DropRight
import Mathlib.Data.List.Infix

/-! # Blanks at the ends of a list

Removing blanks (elements for which `p` holds) from both ends of a list gives the one part of it
that has no blank at its ends and only blanks around it (`exists_trim`, `trimmed_trim`).
-/

set_option autoImplicit false

namespace Codec

section Trim

variable {α : Type} {p : α → Bool}

variable (p) in
/-- The list without the blanks at its ends. -/
def trim (xs : List α) : List α := (xs.rdropWhile p).dropWhile p

variable (p) in
/-- Every element is blank. -/
def Blank (xs : List α) : Prop := ∀ x ∈ xs, p x = true

variable (p) in
/-- No blank at either end. -/
structure Trimmed (xs : List α) : Prop where
  head : ∀ {x}, xs.head? = some x → p x = false
  last : ∀ {x}, xs.getLast? = some x → p x = false

/-- What has no blank at its ends is left as it is. -/
theorem trim_of_trimmed {xs : List α} (h : Trimmed p xs) : trim p xs = xs := by
  have hright : xs.rdropWhile p = xs := by
    rw [List.rdropWhile_eq_self_iff]
    intro hne hlast
    rw [h.last (List.getLast?_eq_some_getLast hne)] at hlast
    cases hlast
  rw [trim, hright]
  cases xs with
  | nil => rfl
  | cons x xs => rw [List.dropWhile_cons_of_neg (by rw [h.head rfl]; exact Bool.false_ne_true)]

/-- Only blanks are removed. -/
theorem exists_trim (p : α → Bool) (xs : List α) :
    ∃ w w', Blank p w ∧ Blank p w' ∧ xs = w ++ trim p xs ++ w' := by
  refine ⟨(xs.rdropWhile p).takeWhile p, xs.rtakeWhile p, ?_, ?_, ?_⟩
  · intro x hx
    exact List.mem_takeWhile_imp hx
  · intro x hx
    exact List.mem_rtakeWhile_imp hx
  · rw [trim, List.takeWhile_append_dropWhile, List.rdropWhile_append_rtakeWhile]

/-- All blanks at the ends are removed. -/
theorem trimmed_trim (xs : List α) : Trimmed p (trim p xs) := by
  constructor
  · intro x hx
    have hhead := List.head?_dropWhile_not p (xs.rdropWhile p)
    rw [trim] at hx
    rw [hx] at hhead
    exact hhead
  · intro x hx
    -- what is last when both ends are trimmed is last already when the right one is
    have hlast : (xs.rdropWhile p).getLast? = some x := by
      rw [← List.takeWhile_append_dropWhile (p := p) (l := xs.rdropWhile p), List.getLast?_append]
      rw [trim] at hx
      rw [hx, Option.some_or]
    have hne : xs.rdropWhile p ≠ [] := by
      intro hnil
      rw [hnil] at hlast
      cases hlast
    have hnot := List.rdropWhile_last_not p xs hne
    rw [List.getLast?_eq_some_getLast hne, Option.some_inj] at hlast
    rw [hlast] at hnot
    exact Bool.eq_false_iff.mpr hnot

theorem rdropWhile_append_blank (xs : List α) {w : List α} (hw : Blank p w) :
    (xs ++ w).rdropWhile p = xs.rdropWhile p := by
  have hblank : ∀ x ∈ w.reverse, p x = true := by
    intro x hx
    exact hw x (List.mem_reverse.mp hx)
  rw [List.rdropWhile, List.reverse_append, List.dropWhile_append_of_pos hblank]
  rfl

theorem rdropWhile_append_of_ne_nil (xs : List α) {ys : List α} (hys : ys.rdropWhile p ≠ []) :
    (xs ++ ys).rdropWhile p = xs ++ ys.rdropWhile p := by
  have hne : (ys.reverse.dropWhile p).isEmpty = false := by
    rw [List.isEmpty_eq_false_iff]
    intro hnil
    exact hys (congrArg List.reverse hnil)
  rw [List.rdropWhile, List.reverse_append, List.dropWhile_append, hne,
    if_neg Bool.false_ne_true, List.reverse_append, List.reverse_reverse]
  rfl

/-- **Blanks around a list do not matter.** -/
theorem trim_append {w w' : List α} (hw : Blank p w) (hw' : Blank p w') (xs : List α) :
    trim p (w ++ xs ++ w') = trim p xs := by
  rw [trim, rdropWhile_append_blank _ hw', trim]
  by_cases hxs : xs.rdropWhile p = []
  · -- nothing but blanks
    have hblank : Blank p xs := List.rdropWhile_eq_nil_iff.mp hxs
    have hleft : w.rdropWhile p = [] := List.rdropWhile_eq_nil_iff.mpr hw
    rw [rdropWhile_append_blank w hblank, hleft, hxs]
  · rw [rdropWhile_append_of_ne_nil w hxs, List.dropWhile_append_of_pos hw]

/-- What is left is a part of the list. -/
theorem trim_isInfix (p : α → Bool) (xs : List α) : trim p xs <:+: xs := by
  obtain ⟨w, w', -, -, hsplit⟩ := exists_trim p xs
  exact ⟨w, w', hsplit.symm⟩

end Trim

end Codec
