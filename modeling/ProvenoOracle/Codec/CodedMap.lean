import Mathlib.Data.Set.Function
import Mathlib.Data.List.Induction

/-! # A map behind a codec

A store that keeps its keys and values in a coded form: a write codes both, a read codes the key
and decodes what it finds. `lastWrite` says what a history of writes has left under a key;
`coded_exact_iff` says when the store answers as if nothing were coded: no two keys may share a
code, and every value must survive.
-/

set_option autoImplicit false

namespace Codec

section LastWrite

variable {K V K' V' : Type} [DecidableEq K] [DecidableEq K']

/-- What the last write to a key has stored. -/
def lastWrite (writes : List (K × V)) (k : K) : Option V :=
  (writes.reverse.find? fun w => w.1 = k).map Prod.snd

theorem lastWrite_concat (writes : List (K × V)) (w : K × V) (k : K) :
    lastWrite (writes ++ [w]) k = if w.1 = k then some w.2 else lastWrite writes k := by
  unfold lastWrite
  rw [List.reverse_append, List.reverse_singleton, List.singleton_append, List.find?_cons]
  by_cases hk : w.1 = k
  · simp [hk]
  · simp [hk]

theorem lastWrite_mem {writes : List (K × V)} {k : K} {v : V} (h : lastWrite writes k = some v) :
    (k, v) ∈ writes := by
  rcases Option.map_eq_some_iff.mp h with ⟨w, hfind, rfl⟩
  have hkey : w.1 = k := by simpa using List.find?_some hfind
  rw [← hkey]
  exact List.mem_reverse.mp (List.mem_of_find?_eq_some hfind)

/-- Coding the writes codes the answers, where the keys keep their codes apart. -/
theorem lastWrite_map {codeKey : K → K'} {codeValue : V → V'} {S : Set K}
    (hkeys : S.InjOn codeKey) (writes : List (K × V)) (hwrites : ∀ w ∈ writes, w.1 ∈ S) {k : K}
    (hk : k ∈ S) :
    lastWrite (writes.map (Prod.map codeKey codeValue)) (codeKey k)
      = (lastWrite writes k).map codeValue := by
  induction writes using List.reverseRecOn with
  | nil => rfl
  | append_singleton writes w ih =>
      have hw : w.1 ∈ S := hwrites w (List.mem_append_right _ (List.mem_singleton_self w))
      have hold := ih fun w' hw' => hwrites w' (List.mem_append_left _ hw')
      rw [List.map_append, List.map_singleton, lastWrite_concat, lastWrite_concat]
      show (if codeKey w.1 = codeKey k then some (codeValue w.2) else _) = _
      by_cases hsame : w.1 = k
      · rw [if_pos (congrArg codeKey hsame), if_pos hsame]
        rfl
      · have hcodes : codeKey w.1 ≠ codeKey k := fun h => hsame (hkeys hw hk h)
        rw [if_neg hcodes, if_neg hsame, hold]

theorem lastWrite_singleton (k k' : K) (v : V) :
    lastWrite [(k, v)] k' = if k = k' then some v else none := by
  rw [← List.nil_append [(k, v)], lastWrite_concat]
  rfl

omit [DecidableEq K] in
/-- One write under one key, read under another: what the coded map answers. -/
theorem coded_singleton (codeKey : K → K') (codeValue : V → V') (decode : V' → V) (k k' : K)
    (v : V) :
    (lastWrite ([(k, v)].map (Prod.map codeKey codeValue)) (codeKey k')).map decode
      = if codeKey k = codeKey k' then some (decode (codeValue v)) else none := by
  rw [List.map_singleton, Prod.map_apply, lastWrite_singleton]
  by_cases hcodes : codeKey k = codeKey k'
  · rw [if_pos hcodes, if_pos hcodes]
    rfl
  · rw [if_neg hcodes, if_neg hcodes]
    rfl

/-- **When a coded map is exact**: on the given keys and values, every history is answered as by
the plain map exactly when the keys keep their codes apart and the values survive. -/
theorem coded_exact_iff {codeKey : K → K'} {codeValue : V → V'} {decode : V' → V} {S : Set K}
    {T : Set V} :
    (∀ writes : List (K × V), (∀ w ∈ writes, w.1 ∈ S ∧ w.2 ∈ T) → ∀ k ∈ S,
      (lastWrite (writes.map (Prod.map codeKey codeValue)) (codeKey k)).map decode
        = lastWrite writes k) ↔
      (T.Nonempty → S.InjOn codeKey) ∧ (S.Nonempty → ∀ v ∈ T, decode (codeValue v) = v) := by
  constructor
  · intro hexact
    -- one write is enough to tell a bad key or a bad value
    have hone : ∀ k₁ ∈ S, ∀ v ∈ T, ∀ k₂ ∈ S,
        (if codeKey k₁ = codeKey k₂ then some (decode (codeValue v)) else none)
          = if k₁ = k₂ then some v else none := by
      intro k₁ hk₁ v hv k₂ hk₂
      have h := hexact [(k₁, v)] (by simpa using ⟨hk₁, hv⟩) k₂ hk₂
      rwa [coded_singleton, lastWrite_singleton] at h
    constructor
    · rintro ⟨v, hv⟩ k₁ hk₁ k₂ hk₂ hcodes
      by_contra hne
      have h := hone k₁ hk₁ v hv k₂ hk₂
      rw [if_pos hcodes, if_neg hne] at h
      cases h
    · rintro ⟨k, hk⟩ v hv
      have h := hone k hk v hv k hk
      rw [if_pos rfl, if_pos rfl] at h
      exact Option.some.inj h
  · rintro ⟨hkeys, hvalues⟩ writes hwrites k hk
    rcases T.eq_empty_or_nonempty with rfl | hT
    · -- no value, no write
      have hnone : writes = [] :=
        List.eq_nil_iff_forall_not_mem.mpr fun w hw => (hwrites w hw).2
      rw [hnone]
      rfl
    · rw [lastWrite_map (hkeys hT) writes (fun w hw => (hwrites w hw).1) hk]
      cases hlast : lastWrite writes k with
      | none => rfl
      | some v =>
          have hv : v ∈ T := (hwrites (k, v) (lastWrite_mem hlast)).2
          exact congrArg some (hvalues ⟨k, hk⟩ v hv)

end LastWrite

end Codec
