import ProvenoOracle.Codec.BigEndian

/-! # Self-delimiting encodings

An encoding is *self-delimiting* on a domain when the encoded value and the bytes after it
can both be read off a stream that starts with it, whatever those bytes are. This is the
property a length-prefixed format is after; it is closed under the ways such formats are put
together, and this file has one rule for each of them:

* `SelfDelimiting.of_length`: fixed-width fields;
* `SelfDelimiting.append`: one field after another;
* `SelfDelimiting.lengthPrefixed`: a byte string behind its length;
* `SelfDelimiting.counted`: a list of values behind their number.

Its consequences are what one wants of a wire format: no two values share an encoding, no
encoding is a proper prefix of another, and a concatenation splits in only one way.
-/

set_option autoImplicit false

namespace Codec

variable {α β γ : Type}

/-- **Self-delimiting on `D`**: an encoding followed by arbitrary symbols determines both the
value and what follows. -/
def SelfDelimiting (D : α → Prop) (enc : α → List β) : Prop :=
  ∀ x y s t, D x → D y → enc x ++ s = enc y ++ t → x = y ∧ s = t

/-! ## Building self-delimiting encodings -/

/-- A fixed-width encoding only has to be injective. -/
theorem SelfDelimiting.of_length {D : α → Prop} {enc : α → List β} (n : Nat)
    (hlen : ∀ x, (enc x).length = n) (hinj : ∀ x y, D x → D y → enc x = enc y → x = y) :
    SelfDelimiting D enc := by
  intro x y s t hx hy h
  obtain ⟨hxy, hst⟩ := List.append_inj h (by rw [hlen, hlen])
  exact ⟨hinj x y hx hy hxy, hst⟩

theorem SelfDelimiting.append {D : α → Prop} {E : γ → Prop} {enc : α → List β}
    {fnc : γ → List β} (he : SelfDelimiting D enc) (hf : SelfDelimiting E fnc) :
    SelfDelimiting (fun p : α × γ => D p.1 ∧ E p.2) (fun p => enc p.1 ++ fnc p.2) := by
  rintro ⟨x, u⟩ ⟨y, v⟩ s t ⟨hx, hu⟩ ⟨hy, hv⟩ h
  -- for the first field, the second one is part of what follows
  simp only [List.append_assoc] at h
  obtain ⟨rfl, h'⟩ := he x y _ _ hx hy h
  obtain ⟨rfl, hst⟩ := hf u v s t hu hv h'
  exact ⟨rfl, hst⟩

/-- Encoding a value through an injective change of representation. -/
theorem SelfDelimiting.comap {D : α → Prop} {enc : α → List β} (he : SelfDelimiting D enc)
    {f : γ → α} (hf : Function.Injective f) :
    SelfDelimiting (fun x => D (f x)) (fun x => enc (f x)) := by
  intro x y s t hx hy h
  obtain ⟨hxy, hst⟩ := he (f x) (f y) s t hx hy h
  exact ⟨hf hxy, hst⟩

theorem SelfDelimiting.mono {D E : α → Prop} {enc : α → List β} (he : SelfDelimiting D enc)
    (h : ∀ x, E x → D x) : SelfDelimiting E enc :=
  fun x y s t hx hy => he x y s t (h x hx) (h y hy)

/-- A string behind its length. -/
theorem SelfDelimiting.lengthPrefixed {D : Nat → Prop} {len : Nat → List β}
    (hl : SelfDelimiting D len) :
    SelfDelimiting (fun c : List β => D c.length) (fun c => len c.length ++ c) := by
  intro c d s t hc hd h
  simp only [List.append_assoc] at h
  obtain ⟨hlen, h'⟩ := hl _ _ _ _ hc hd h
  exact List.append_inj h' hlen

/-- Concatenations of equally many values. The induction is on the first list; the second one
has to follow it because the lengths agree. -/
theorem SelfDelimiting.flatMap_inj {D : α → Prop} {enc : α → List β}
    (he : SelfDelimiting D enc) {xs ys : List α} {s t : List β}
    (hlen : xs.length = ys.length) (hx : ∀ x ∈ xs, D x) (hy : ∀ y ∈ ys, D y)
    (h : xs.flatMap enc ++ s = ys.flatMap enc ++ t) : xs = ys ∧ s = t := by
  induction xs generalizing ys with
  | nil =>
      cases ys with
      | nil => exact ⟨rfl, by simpa using h⟩
      | cons y ys => simp at hlen
  | cons x xs ih =>
      cases ys with
      | nil => simp at hlen
      | cons y ys =>
          simp only [List.flatMap_cons, List.append_assoc] at h
          obtain ⟨rfl, h'⟩ := he x y _ _ (hx x (by simp)) (hy y (by simp)) h
          obtain ⟨rfl, hst⟩ := ih (by simpa using hlen) (fun z hz => hx z (by simp [hz]))
            (fun z hz => hy z (by simp [hz])) h'
          exact ⟨rfl, hst⟩

/-- A list of values behind their number. -/
theorem SelfDelimiting.counted {D : α → Prop} {enc : α → List β} {C : Nat → Prop}
    {len : Nat → List β} (hl : SelfDelimiting C len) (he : SelfDelimiting D enc) :
    SelfDelimiting (fun xs : List α => C xs.length ∧ ∀ x ∈ xs, D x)
      (fun xs => len xs.length ++ xs.flatMap enc) := by
  intro xs ys s t hx hy h
  simp only [List.append_assoc] at h
  obtain ⟨hlen, h'⟩ := hl _ _ _ _ hx.1 hy.1 h
  exact he.flatMap_inj hlen hx.2 hy.2 h'

/-- Big-endian integers of `n` bytes. -/
theorem selfDelimiting_toBeBytes (n : Nat) :
    SelfDelimiting (fun v => v < 256 ^ n) (toBeBytes n) :=
  SelfDelimiting.of_length n (toBeBytes_length n) fun _ _ => toBeBytes_inj

/-! ## What a self-delimiting encoding gives -/

section Consequences

variable {D : α → Prop} {enc : α → List β} (he : SelfDelimiting D enc)

include he

theorem SelfDelimiting.inj {x y : α} (hx : D x) (hy : D y) (h : enc x = enc y) : x = y :=
  (he x y [] [] hx hy (by simpa using h)).1

/-- No encoding is a proper prefix of another. -/
theorem SelfDelimiting.eq_of_prefix {x y : α} (hx : D x) (hy : D y) (h : enc x <+: enc y) :
    x = y := by
  obtain ⟨s, hs⟩ := h
  exact (he x y s [] hx hy (by simpa using hs)).1

/-- A concatenation of non-empty encodings splits in only one way. -/
theorem SelfDelimiting.concat_inj (hne : ∀ x, D x → enc x ≠ []) {xs ys : List α}
    (hx : ∀ x ∈ xs, D x) (hy : ∀ y ∈ ys, D y) (h : xs.flatMap enc = ys.flatMap enc) :
    xs = ys := by
  induction xs generalizing ys with
  | nil =>
      cases ys with
      | nil => rfl
      | cons y ys =>
          have hnil : enc y ++ ys.flatMap enc = [] := h.symm
          exact absurd (List.append_eq_nil_iff.mp hnil).1 (hne y (hy y (by simp)))
  | cons x xs ih =>
      cases ys with
      | nil =>
          have hnil : enc x ++ xs.flatMap enc = [] := h
          exact absurd (List.append_eq_nil_iff.mp hnil).1 (hne x (hx x (by simp)))
      | cons y ys =>
          simp only [List.flatMap_cons] at h
          obtain ⟨rfl, h'⟩ := he x y _ _ (hx x (by simp)) (hy y (by simp)) h
          rw [ih (fun z hz => hx z (by simp [hz])) (fun z hz => hy z (by simp [hz])) h']

end Consequences

end Codec
