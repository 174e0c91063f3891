import ProvenoOracle.Codec.SelfDelimiting
import Mathlib.Tactic

/-! # Encodings delimited by what follows

A list in a text with headings has no end of its own: it goes on until something follows that
cannot be an entry of it. Such an encoding is not self-delimiting, but it is *delimited before*
what may follow, and this file has the rules for it:

* `SelfDelimiting.terminated`: a list without the terminator, and the terminator;
* `SelfDelimiting.many`: entries that all start with a mark, before what does not start with it;
* `DelimitedBefore.headed`: a list under a heading that is left out with an empty list;
* `DelimitedBefore.append`, `DelimitedBefore.opened`, `DelimitedBefore.closed`: one after the
  other, and fixed symbols in front and behind.
-/

set_option autoImplicit false

namespace Codec

variable {α β γ : Type}

/-- **Delimited on `D` before `F`**: an encoding followed by symbols that satisfy `F` determines
both the value and what follows. -/
def DelimitedBefore (F : List β → Prop) (D : α → Prop) (enc : α → List β) : Prop :=
  ∀ x y s t, D x → D y → F s → F t → enc x ++ s = enc y ++ t → x = y ∧ s = t

variable {F G : List β → Prop} {D : α → Prop} {E : γ → Prop} {enc : α → List β}
  {fnc : γ → List β}

theorem SelfDelimiting.before (he : SelfDelimiting D enc) : DelimitedBefore F D enc :=
  fun x y s t hx hy _ _ => he x y s t hx hy

theorem DelimitedBefore.mono (he : DelimitedBefore G D enc) (h : ∀ s, F s → G s) :
    DelimitedBefore F D enc :=
  fun x y s t hx hy hs ht => he x y s t hx hy (h s hs) (h t ht)

/-! ## Marks -/

/-- Of two lists neither of which starts with the other, one cannot start with the other and go
on. -/
theorem not_prefix_append {mark xs : List β} (h : ¬ mark <+: xs) (h' : ¬ xs <+: mark)
    (ys : List β) : ¬ mark <+: xs ++ ys := by
  intro hmark
  rcases List.prefix_or_prefix_of_prefix hmark (List.prefix_append xs ys) with hm | hx
  · exact h hm
  · exact h' hx

theorem not_append_prefix_append {xs xs' : List β} (h : ¬ xs <+: xs') (h' : ¬ xs' <+: xs)
    (ys ys' : List β) : ¬ xs ++ ys <+: xs' ++ ys' := by
  intro hprefix
  exact not_prefix_append h h' ys' ((List.prefix_append xs ys).trans hprefix)

/-! ## Rules -/

/-- A list without the terminator, and the terminator. -/
theorem SelfDelimiting.terminated (sep : β) :
    SelfDelimiting (fun xs : List β => sep ∉ xs) (fun xs => xs ++ [sep]) := by
  intro xs ys s t hx hy h
  simp only [List.append_assoc, List.singleton_append] at h
  induction xs generalizing ys with
  | nil =>
      cases ys with
      | nil => simpa using h
      | cons y ys =>
          obtain ⟨rfl, -⟩ : sep = y ∧ _ := by simpa using h
          simp at hy
  | cons x xs ih =>
      cases ys with
      | nil =>
          obtain ⟨rfl, -⟩ : x = sep ∧ _ := by simpa using h
          simp at hx
      | cons y ys =>
          obtain ⟨rfl, hrest⟩ : x = y ∧ xs ++ sep :: s = ys ++ sep :: t := by simpa using h
          obtain ⟨rfl, hst⟩ := ih ys (fun hmem => hx (by simp [hmem]))
            (fun hmem => hy (by simp [hmem])) hrest
          exact ⟨rfl, hst⟩

/-- Fixed symbols in front. -/
theorem DelimitedBefore.opened (he : DelimitedBefore F D enc) (front : List β) :
    DelimitedBefore F D (fun x => front ++ enc x) := by
  intro x y s t hx hy hs ht h
  simp only [List.append_assoc, List.append_cancel_left_eq] at h
  exact he x y s t hx hy hs ht h

theorem SelfDelimiting.opened (he : SelfDelimiting D enc) (front : List β) :
    SelfDelimiting D (fun x => front ++ enc x) := by
  intro x y s t hx hy h
  simp only [List.append_assoc, List.append_cancel_left_eq] at h
  exact he x y s t hx hy h

/-- Fixed symbols behind, if they may follow: nothing has to be known of what comes after. -/
theorem DelimitedBefore.closed (he : DelimitedBefore F D enc) {close : List β}
    (hclose : ∀ s, F (close ++ s)) : SelfDelimiting D (fun x => enc x ++ close) := by
  intro x y s t hx hy h
  simp only [List.append_assoc] at h
  obtain ⟨hxy, hst⟩ := he x y _ _ hx hy (hclose s) (hclose t) h
  exact ⟨hxy, List.append_cancel_left hst⟩

/-- One after the other; the second may follow the first. -/
theorem DelimitedBefore.append (he : DelimitedBefore G D enc) (hf : DelimitedBefore F E fnc)
    (hnext : ∀ u s, E u → F s → G (fnc u ++ s)) :
    DelimitedBefore F (fun p : α × γ => D p.1 ∧ E p.2) (fun p => enc p.1 ++ fnc p.2) := by
  rintro ⟨x, u⟩ ⟨y, v⟩ s t ⟨hx, hu⟩ ⟨hy, hv⟩ hs ht h
  simp only [List.append_assoc] at h
  obtain ⟨rfl, h'⟩ := he x y _ _ hx hy (hnext u s hu hs) (hnext v t hv ht) h
  obtain ⟨rfl, hst⟩ := hf u v s t hu hv hs ht h'
  exact ⟨rfl, hst⟩

/-- A list of entries that all start with a mark. By induction on the first list: what is left of
the other one cannot be what follows. -/
theorem SelfDelimiting.many (he : SelfDelimiting D enc) (mark : List β)
    (hmark : ∀ x, mark <+: enc x) :
    DelimitedBefore (fun s => ¬ mark <+: s) (fun xs : List α => ∀ x ∈ xs, D x)
      (fun xs => xs.flatMap enc) := by
  have hstarts : ∀ x (rest : List β), mark <+: enc x ++ rest := fun x rest =>
    (hmark x).trans (List.prefix_append _ _)
  intro xs ys s t hx hy hs ht h
  induction xs generalizing ys with
  | nil =>
      cases ys with
      | nil => exact ⟨rfl, by simpa using h⟩
      | cons y ys =>
          have hst : s = enc y ++ (ys.flatMap enc ++ t) := by simpa using h
          exact absurd (hst ▸ hstarts y _) hs
  | cons x xs ih =>
      cases ys with
      | nil =>
          have hst : enc x ++ (xs.flatMap enc ++ s) = t := by simpa using h
          exact absurd (hst ▸ hstarts x _) ht
      | cons y ys =>
          simp only [List.flatMap_cons, List.append_assoc] at h
          obtain ⟨rfl, h'⟩ := he x y _ _ (hx x (by simp)) (hy y (by simp)) h
          obtain ⟨rfl, hst⟩ := ih ys (fun z hz => hx z (by simp [hz]))
            (fun z hz => hy z (by simp [hz])) h'
          exact ⟨rfl, hst⟩

/-! ## Lists under a heading -/

/-- The entries of a list under a heading; nothing for an empty list. -/
def headed (heading : List β) (enc : α → List β) (xs : List α) : List β :=
  if xs.isEmpty then [] else heading ++ xs.flatMap enc

/-- What follows a list under a heading starts with neither the heading nor an entry. -/
def AfterHeaded (heading mark : List β) (s : List β) : Prop := ¬ heading <+: s ∧ ¬ mark <+: s

theorem DelimitedBefore.headed {mark : List β} (heading : List β)
    (he : DelimitedBefore (fun s => ¬ mark <+: s) (fun xs : List α => ∀ x ∈ xs, D x)
      (fun xs => xs.flatMap enc)) :
    DelimitedBefore (AfterHeaded heading mark) (fun xs : List α => ∀ x ∈ xs, D x)
      (headed heading enc) := by
  intro xs ys s t hx hy hs ht h
  unfold Codec.headed at h
  cases xs with
  | nil =>
      cases ys with
      | nil => exact ⟨rfl, by simpa using h⟩
      | cons y ys =>
          have hst : s = heading ++ ((y :: ys).flatMap enc ++ t) := by simpa using h
          exact absurd (hst ▸ List.prefix_append _ _) hs.1
  | cons x xs =>
      cases ys with
      | nil =>
          have hst : heading ++ ((x :: xs).flatMap enc ++ s) = t := by simpa using h
          exact absurd (hst ▸ List.prefix_append _ _) ht.1
      | cons y ys =>
          have h' : (x :: xs).flatMap enc ++ s = (y :: ys).flatMap enc ++ t := by simpa using h
          exact he _ _ s t hx hy hs.2 ht.2 h'

/-- A list under a heading may follow whatever its heading may follow, where what comes after the
list may too. -/
theorem not_prefix_headed_append {mark heading : List β} (h : ¬ mark <+: heading)
    (h' : ¬ heading <+: mark) {s : List β} (hs : ¬ mark <+: s) (xs : List α) :
    ¬ mark <+: headed heading enc xs ++ s := by
  unfold headed
  cases xs with
  | nil => simpa using hs
  | cons x xs =>
      rw [List.isEmpty_cons, if_neg Bool.false_ne_true, List.append_assoc]
      exact not_prefix_append h h' _

end Codec
