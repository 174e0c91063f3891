import ProvenoOracle.Tls.DerReader

/-! # The trust anchors' reader

`spki_alg_and_key` has a TLV reader of its own, the local function `tl`. It takes any number of
length octets, none included, and shifts them into a `usize`: its length fields are those of
`LaxLength` at the width of the target. Three lemmas say what it does on every input, in either
build. It answers behind a header that fits (`tl_of_fits`), it panics behind one that does not
(`tl_of_not_fits`), and without a header it answers `None` (`tl_of_no_header`).
-/

set_option autoImplicit false

namespace ProvenoOracle

open Codec

/-- A header with this tag, as `tl` reads it on `w` bits, is harmless: tag octet, length field and
the length it says add up to less than `2 ^ w`. -/
def LaxHeaderFits (w : Nat) (tag : UInt8) (data : Bytes) : Prop :=
  ∀ L n s, LaxLength w L n → data = tag :: (L ++ s) → 1 + L.length + n < 2 ^ w

/-- The end of `tl`: the content behind `hdr` octets, and the remainder. -/
def tlCut (t : Target) (data : Bytes) (hdr len : Nat) : Run (Option (Bytes × Bytes)) := do
  let stop ← usizeAdd t hdr len
  if data.length < stop then return none
  return some (← slice data hdr stop, ← sliceFrom data stop)

/-! ## The header -/

theorem and_0x80_eq_zero (b : UInt8) : b &&& 0x80 = 0 ↔ b.toNat < 128 := by
  rw [← UInt8.toNat_inj, UInt8.toNat_and]
  have h : b.toNat < 256 := b.toNat_lt
  have hbit : ∀ n < 256, n &&& 128 = 0 ↔ n < 128 := by decide +kernel
  exact hbit _ h

variable {t : Target} {tag : UInt8}

/-- Behind a length field, `tl` goes on with the cut. -/
theorem tl_of_lax {L : Bytes} {n : Nat} (hL : LaxLength t.bits L n) (s : Bytes) :
    tl t (tag :: (L ++ s)) tag = tlCut t (tag :: (L ++ s)) (1 + L.length) n := by
  cases hL with
  | short b hb =>
      have hlen : ¬(tag :: ([b] ++ s)).length < 2 := by simp
      rw [tl, if_neg hlen]
      simp [(and_0x80_eq_zero b).mpr hb, tlCut]
  | long b bs hb =>
      -- the header is two octets and the `bs` that the lead octet announces
      have hnum : (b &&& 0x7f).toNat = bs.length := by
        have hmask := and_0x7f_toNat b
        have hb' : b.toNat < 256 := b.toNat_lt
        omega
      have hsmall : 2 + bs.length < 2 ^ 32 := by
        have hb' : b.toNat < 256 := b.toNat_lt
        omega
      have hlen : ¬(tag :: (b :: bs ++ s)).length < 2 := by simp
      have hlong : ¬b &&& 0x80 = 0 := by rw [and_0x80_eq_zero]; omega
      have hthere : ¬(tag :: (b :: bs ++ s)).length < 2 + bs.length := by simp; omega
      have hoct : slice (tag :: (b :: bs ++ s)) 2 (2 + bs.length) = .ok bs := by
        rw [slice_ok (by omega) (by omega)]
        simp [Nat.add_comm 2]
      have hhdr : 1 + (b :: bs).length = 2 + bs.length := by rw [List.length_cons]; omega
      rw [tl, if_neg hlen, hhdr]
      simp only [List.cons_append, index_cons_zero, index_cons_succ, Run.ok_bind, ne_eq,
        not_true_eq_false, if_false] at hthere hoct ⊢
      rw [if_neg hlong, hnum, usizeAdd_small hsmall]
      simp only [Run.ok_bind, if_neg hthere, hoct, Run.pure_eq, foldl_shiftIn_eq, tlCut]

/-- Without a header, `tl` answers `None`: the slice is too short, has another tag, or ends
inside the length field. -/
theorem tl_of_no_header {data : Bytes}
    (hnone : ∀ L n s, LaxLength t.bits L n → data ≠ tag :: (L ++ s)) :
    tl t data tag = .ok none := by
  match data with
  | [] => rfl
  | [_] => rfl
  | a :: b :: rest =>
      have hlen : ¬(a :: b :: rest).length < 2 := by simp
      rw [tl, if_neg hlen]
      by_cases htag : a = tag
      · subst htag
        have hb' : b.toNat < 256 := b.toNat_lt
        have hmask := and_0x7f_toNat b
        have hcut : 128 + rest.length < b.toNat := by
          rcases LaxLength.exists_or_cut t.bits b rest with ⟨L, n, s, hL, hcat⟩ | hcut
          · exact absurd (congrArg (a :: ·) hcat) (hnone L n s hL)
          · exact hcut
        have hshort : (a :: b :: rest).length < 2 + (b &&& 0x7f).toNat := by
          simp only [List.length_cons]
          omega
        have hmore : ¬b &&& 0x80 = 0 := by rw [and_0x80_eq_zero]; omega
        simp only [index_cons_zero, index_cons_succ, Run.ok_bind, ne_eq, not_true_eq_false,
          if_false, if_neg hmore, usizeAdd_small (show 2 + (b &&& 0x7f).toNat < 2 ^ 32 by omega),
          hshort, if_true, Run.pure_eq]
      · simp only [index_cons_zero, Run.ok_bind, ne_eq, htag, not_false_eq_true, if_true,
          Run.pure_eq]

/-! ## The cut -/

/-- The end of a header that fits is added up exactly, and the content is cut out if it is
there. -/
theorem tlCut_of_fits {head s : Bytes} {n : Nat} (hfit : head.length + n < 2 ^ t.bits) :
    tlCut t (head ++ s) head.length n
      = .ok (if s.length < n then none else some (s.take n, s.drop n)) := by
  have hlen : (head ++ s).length < head.length + n ↔ s.length < n := by
    rw [List.length_append]
    omega
  rw [tlCut, usizeAdd_ok hfit, Run.ok_bind]
  simp only [hlen]
  by_cases hshort : s.length < n
  · simp only [hshort, if_true, Run.pure_eq]
  · simp only [hshort, if_false]
    rw [slice_ok (by omega) (by rw [List.length_append]; omega),
      sliceFrom_ok (by rw [List.length_append]; omega), List.take_length_add_append,
      List.drop_left, List.drop_length_add_append]
    rfl

/-- A sum that wraps ends before the content starts: both builds panic. -/
theorem tlCut_of_not_fits {head s : Bytes} {n : Nat} (hhead : head.length < 2 ^ t.bits)
    (hn : n < 2 ^ t.bits) (hfit : ¬ head.length + n < 2 ^ t.bits) :
    ¬ Run.Returns (tlCut t (head ++ s) head.length n) := by
  rintro ⟨o, ho⟩
  obtain ⟨stop, hstop, ho⟩ := Run.bind_eq_ok ho
  have hbound : stop < head.length := usizeAdd_wraps hhead hn hfit hstop
  have hlen : ¬ (head ++ s).length < stop := by
    rw [List.length_append]
    omega
  rw [if_neg hlen] at ho
  obtain ⟨c, hc, -⟩ := Run.bind_eq_ok ho
  have hle := (slice_eq_ok hc).1
  omega

/-! ## What `tl` does -/

/-- **Behind a header that fits `tl` answers**, with the content if it is there. -/
theorem tl_of_fits {L s : Bytes} {n : Nat} (hL : LaxLength t.bits L n)
    (hfit : 1 + L.length + n < 2 ^ t.bits) :
    tl t (tag :: (L ++ s)) tag = .ok (if s.length < n then none else some (s.take n, s.drop n)) := by
  have hhead : (tag :: L).length = 1 + L.length := by rw [List.length_cons, Nat.add_comm]
  rw [tl_of_lax hL, ← List.cons_append, ← hhead]
  exact tlCut_of_fits (by rwa [hhead])

/-- **Behind a header that does not fit `tl` panics.** -/
theorem tl_of_not_fits {L s : Bytes} {n : Nat} (hL : LaxLength t.bits L n)
    (hfit : ¬ 1 + L.length + n < 2 ^ t.bits) : ¬ Run.Returns (tl t (tag :: (L ++ s)) tag) := by
  have hhead : (tag :: L).length = 1 + L.length := by rw [List.length_cons, Nat.add_comm]
  have hbits := t.two_pow_ge
  have hlen := hL.length_le
  have h7 : 7 ≤ t.bits := by
    have := t.bits_ge
    omega
  rw [tl_of_lax hL, ← List.cons_append, ← hhead]
  exact tlCut_of_not_fits (by omega) (hL.lt h7) (by rwa [hhead])

/-- `tl` returns exactly where the header fits. -/
theorem tl_returns_iff {data : Bytes} :
    Run.Returns (tl t data tag) ↔ LaxHeaderFits t.bits tag data := by
  constructor
  · rintro hreturns L n s hL rfl
    by_contra hfit
    exact tl_of_not_fits hL hfit hreturns
  · intro hfit
    by_cases hheader : ∃ L n s, LaxLength t.bits L n ∧ data = tag :: (L ++ s)
    · obtain ⟨L, n, s, hL, rfl⟩ := hheader
      exact ⟨_, tl_of_fits hL (hfit L n s hL rfl)⟩
    · push Not at hheader
      exact ⟨_, tl_of_no_header hheader⟩

/-- What `tl` answers is the TLV at the head of the data, to a lax reader. -/
theorem tl_eq_some_iff {data c r : Bytes} :
    tl t data tag = .ok (some (c, r)) ↔
      LaxHeaderFits t.bits tag data ∧ ∃ s, LaxTlv t.bits tag c s ∧ data = s ++ r := by
  constructor
  · intro h
    have hfit : LaxHeaderFits t.bits tag data := tl_returns_iff.mp ⟨_, h⟩
    refine ⟨hfit, ?_⟩
    by_cases hheader : ∃ L n s, LaxLength t.bits L n ∧ data = tag :: (L ++ s)
    · obtain ⟨L, n, s, hL, rfl⟩ := hheader
      rw [tl_of_fits hL (hfit L n s hL rfl)] at h
      split at h
      · cases h
      · next hthere =>
        cases h
        have hlen : (s.take n).length = n := by rw [List.length_take]; omega
        refine ⟨_, ⟨L, by rwa [hlen], rfl⟩, ?_⟩
        rw [List.cons_append, List.append_assoc, List.take_append_drop]
    · push Not at hheader
      rw [tl_of_no_header hheader] at h
      cases h
  · rintro ⟨hfit, s, ⟨L, hL, rfl⟩, rfl⟩
    have hcat : tag :: (L ++ c) ++ r = tag :: (L ++ (c ++ r)) := by simp
    have hthere : ¬ (c ++ r).length < c.length := by rw [List.length_append]; omega
    rw [hcat] at hfit ⊢
    rw [tl_of_fits hL (hfit L _ _ hL rfl), if_neg hthere, List.take_left, List.drop_left]

/-- The header of a complete TLV fits when its size does. -/
theorem laxHeaderFits_of_laxTlv {w : Nat} {c s : Bytes} (h : LaxTlv w tag c s)
    (hsize : s.length < 2 ^ w) (r : Bytes) : LaxHeaderFits w tag (s ++ r) := by
  obtain ⟨L, hL, rfl⟩ := h
  intro L' n s' hL' hcat
  have hcat' : L ++ (c ++ r) = L' ++ s' := by simpa using hcat
  obtain ⟨rfl, rfl, -⟩ := hL.unique hL' hcat'
  simp only [List.length_cons, List.length_append] at hsize
  omega

/-- **`tl` reads a TLV** with at most four length octets on every target. -/
theorem tl_append {c s : Bytes} (h : IsTlv 4 tag c s) (hsize : s.length < 2 ^ t.bits)
    (r : Bytes) : tl t (s ++ r) tag = .ok (some (c, r)) := by
  have hlax : LaxTlv t.bits tag c s := h.lax t.bits_ge
  exact tl_eq_some_iff.mpr ⟨laxHeaderFits_of_laxTlv hlax hsize r, s, hlax, rfl⟩

end ProvenoOracle
