import Mathlib.Tactic

/-! # Certification paths

What a chain of certificates is for, without certificates: some values carry public keys,
some are covered by signatures, and a set of keys is trusted from the start. A path lists
values leaf first; each is issued by the next one, and the last one is either signed by an
anchor key (`rooted`) or accepted because it is taken to be an anchor itself (`pinned`).

`TrustedKey` is the trust that a path transports: an anchor key is trusted, and so is a key
that a trusted key has signed. The two general facts are

* `Path.leaf_signed`: on a path whose pinned values carry only anchor keys, the leaf is signed
  under a trusted key unless the path is a single pinned value;
* `Path.drop_top`: a top that carries only anchor keys can be left out.
-/

set_option autoImplicit false

/-- A public-key infrastructure over certificates `C` and public keys `K`. -/
structure Pki (C K : Type) where
  /-- The certificate carries the key. -/
  holds : C → K → Prop
  /-- The certificate is covered by a signature that verifies under the key. -/
  signed : C → K → Prop
  /-- The keys trusted from the start. -/
  anchor : K → Prop
  /-- The certificates taken to be anchors. -/
  pinned : C → Prop

namespace Pki

variable {C K : Type} (P : Pki C K)

/-- `issuer` carries a key under which `child` is signed. -/
def Issues (issuer child : C) : Prop := ∃ k, P.holds issuer k ∧ P.signed child k

/-- `c` is signed under an anchor key. -/
def AnchorSigned (c : C) : Prop := ∃ k, P.anchor k ∧ P.signed c k

/-- A certification path, leaf first. -/
inductive Path : List C → Prop where
  | pinned {c : C} (h : P.pinned c) : Path [c]
  | rooted {c : C} (h : P.AnchorSigned c) : Path [c]
  | issued {c i : C} {cs : List C} (h : P.Issues i c) (rest : Path (i :: cs)) :
      Path (c :: i :: cs)

/-- The keys that anchors vouch for, directly or through certificates. -/
inductive TrustedKey : K → Prop where
  | anchor {k : K} (h : P.anchor k) : TrustedKey k
  | signed {k k' : K} {c : C} (hk : TrustedKey k) (hs : P.signed c k) (hh : P.holds c k') :
      TrustedKey k'

variable {P}

theorem path_singleton_iff {c : C} : P.Path [c] ↔ P.pinned c ∨ P.AnchorSigned c := by
  constructor
  · intro h
    cases h with
    | pinned h => exact Or.inl h
    | rooted h => exact Or.inr h
  · rintro (h | h)
    · exact .pinned h
    · exact .rooted h

theorem path_cons_cons_iff {c i : C} {cs : List C} :
    P.Path (c :: i :: cs) ↔ P.Issues i c ∧ P.Path (i :: cs) := by
  constructor
  · intro h
    cases h with
    | issued h rest => exact ⟨h, rest⟩
  · rintro ⟨h, rest⟩
    exact .issued h rest

/-- Every certificate of a path above the leaf issues the one before it. -/
theorem Path.issues_getElem {cs : List C} (h : P.Path cs) (i : Nat) (hi : i + 1 < cs.length) :
    P.Issues cs[i + 1] cs[i] := by
  induction h generalizing i with
  | pinned h => simp at hi
  | rooted h => simp at hi
  | issued h rest ih =>
      cases i with
      | zero => exact h
      | succ i => exact ih i (by simpa using hi)

/-- On a path whose pinned certificates carry only anchor keys, every key is trusted. The
induction is on the path: trust comes in at its top and is handed down by each issuer. -/
theorem Path.trustedKey {cs : List C} (h : P.Path cs)
    (hpin : ∀ c ∈ cs, ∀ k, P.pinned c → P.holds c k → P.anchor k) :
    ∀ c ∈ cs, ∀ k, P.holds c k → P.TrustedKey k := by
  induction h with
  | @pinned c h =>
      intro c' hc k hk
      obtain rfl := List.mem_singleton.mp hc
      exact .anchor (hpin c' hc k h hk)
  | rooted h =>
      intro c' hc k hk
      obtain rfl := List.mem_singleton.mp hc
      rcases h with ⟨k', hanchor, hsigned⟩
      exact .signed (.anchor hanchor) hsigned hk
  | @issued c i cs h rest ih =>
      have habove : ∀ c' ∈ i :: cs, ∀ k, P.holds c' k → P.TrustedKey k :=
        ih fun c' hc => hpin c' (by simp [hc])
      intro c' hc k hk
      rcases List.mem_cons.mp hc with rfl | hc
      · -- the new bottom: its issuer's key is trusted already
        rcases h with ⟨k', hholds, hsigned⟩
        exact .signed (habove i (by simp) k' hholds) hsigned hk
      · exact habove c' hc k hk

/-- **The leaf is signed.** Its signature verifies under a trusted key, except on a path that
is a single pinned certificate. -/
theorem Path.leaf_signed {c : C} {cs : List C} (h : P.Path (c :: cs))
    (hpin : ∀ c' ∈ c :: cs, ∀ k, P.pinned c' → P.holds c' k → P.anchor k) :
    (∃ k, P.TrustedKey k ∧ P.signed c k) ∨ (cs = [] ∧ P.pinned c) := by
  cases h with
  | pinned h => exact Or.inr ⟨rfl, h⟩
  | rooted h =>
      rcases h with ⟨k, hanchor, hsigned⟩
      exact Or.inl ⟨k, .anchor hanchor, hsigned⟩
  | @issued _ i cs h rest =>
      rcases h with ⟨k, hholds, hsigned⟩
      have htrusted := rest.trustedKey (fun c' hc => hpin c' (by simp [hc])) i (by simp) k hholds
      exact Or.inl ⟨k, htrusted, hsigned⟩

/-- **The anchor can be left out.** A top certificate that carries only anchor keys adds
nothing to the path below it. The induction is on the path below; only its last step touches
the top. -/
theorem Path.drop_top {cs : List C} {r : C} (hne : cs ≠ []) (h : P.Path (cs ++ [r]))
    (hr : ∀ k, P.holds r k → P.anchor k) : P.Path cs := by
  induction cs with
  | nil => exact absurd rfl hne
  | cons c cs ih =>
      cases cs with
      | nil =>
          obtain ⟨⟨k, hholds, hsigned⟩, -⟩ := path_cons_cons_iff.mp h
          exact .rooted ⟨k, hr k hholds, hsigned⟩
      | cons i cs =>
          obtain ⟨hissues, hrest⟩ := path_cons_cons_iff.mp h
          exact .issued hissues (ih (by simp) hrest)

end Pki
