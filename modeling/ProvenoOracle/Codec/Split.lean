import Mathlib.Data.List.Forall2

/-! # Splitting a list at a separator

The pieces of a list between the occurrences of a separator (`List.splitOn`): which lists have
the same pieces, and what happens to the pieces when every element is mapped.
-/

set_option autoImplicit false

namespace Split

variable {α : Type} [DecidableEq α]

/-- The pieces determine the list. -/
theorem splitOn_inj (sep : α) {xs ys : List α} : xs.splitOn sep = ys.splitOn sep ↔ xs = ys := by
  constructor
  · intro h
    calc xs = [sep].intercalate (xs.splitOn sep) := (List.intercalate_splitOn sep).symm
      _ = [sep].intercalate (ys.splitOn sep) := by rw [h]
      _ = ys := List.intercalate_splitOn sep
  · intro h
    rw [h]

/-- A map that respects the separator maps the pieces. -/
theorem splitOn_map {sep : α} {f : α → α} (hf : ∀ x, f x = sep ↔ x = sep) (xs : List α) :
    (xs.map f).splitOn sep = (xs.splitOn sep).map (List.map f) := by
  induction xs with
  | nil => rfl
  | cons x xs ih =>
      rw [List.map_cons, List.splitOn_cons_eq_if_modifyHead, List.splitOn_cons_eq_if_modifyHead,
        ih]
      -- the image is a separator exactly when the element is one
      by_cases hx : x = sep
      · subst hx
        have hfx : f x = x := (hf x).mpr rfl
        simp [hfx]
      · have hfx : f x ≠ sep := mt (hf x).mp hx
        cases hpieces : xs.splitOn sep with
        | nil => exact absurd hpieces (List.splitOn_ne_nil sep xs)
        | cons piece pieces => simp [hx, hfx]

/-- Two lists agree up to a map that respects the separator iff their pieces do, one by one. -/
theorem map_eq_map_iff_forall₂ {sep : α} {f : α → α} (hf : ∀ x, f x = sep ↔ x = sep)
    (xs ys : List α) :
    xs.map f = ys.map f ↔
      List.Forall₂ (fun a b => a.map f = b.map f) (xs.splitOn sep) (ys.splitOn sep) := by
  rw [← splitOn_inj sep, splitOn_map hf, splitOn_map hf, ← List.forall₂_eq_eq_eq,
    List.forall₂_map_left_iff, List.forall₂_map_right_iff]

/-- A list without the separator is one piece; any other splits at its first separator. -/
theorem exists_first (sep : α) (xs : List α) :
    sep ∉ xs ∧ xs.splitOn sep = [xs] ∨
      ∃ piece rest, sep ∉ piece ∧ xs = piece ++ sep :: rest ∧
        xs.splitOn sep = piece :: rest.splitOn sep := by
  by_cases hmem : sep ∈ xs
  · obtain ⟨piece, rest, rfl, hpiece⟩ := List.eq_append_cons_of_mem hmem
    exact Or.inr ⟨piece, rest, hpiece, rfl, List.splitOn_append_cons_self_of_not_mem hpiece rest⟩
  · exact Or.inl ⟨hmem, List.splitOn_eq_singleton hmem⟩

/-- A piece does not hold the separator. By induction on the length of the list. -/
theorem not_mem_of_mem_splitOn {sep : α} {xs piece : List α} (h : piece ∈ xs.splitOn sep) :
    sep ∉ piece := by
  induction hn : xs.length using Nat.strongRecOn generalizing xs with
  | ind n ih =>
      rcases exists_first sep xs with ⟨hsep, hpieces⟩ | ⟨first, rest, hfirst, hxs, hpieces⟩
      · rw [hpieces, List.mem_singleton] at h
        rwa [h]
      · rw [hpieces, List.mem_cons] at h
        rcases h with rfl | h
        · exact hfirst
        · refine ih rest.length ?_ h rfl
          rw [← hn, hxs, List.length_append, List.length_cons]
          omega

/-- Lines that are each followed by a separator: the pieces are the lines, and nothing after the
last separator. -/
theorem splitOn_flatMap_concat {sep : α} {lines : List (List α)}
    (h : ∀ line ∈ lines, sep ∉ line) :
    (lines.flatMap (· ++ [sep])).splitOn sep = lines ++ [[]] := by
  induction lines with
  | nil => rfl
  | cons line lines ih =>
      have hline : sep ∉ line := h line List.mem_cons_self
      rw [List.flatMap_cons, List.append_assoc, List.singleton_append,
        List.splitOn_append_cons_self_of_not_mem hline, ih fun l hl => h l (by simp [hl])]
      rfl

end Split
