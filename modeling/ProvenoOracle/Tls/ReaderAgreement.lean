import ProvenoOracle.Tls.AnchorReader
import ProvenoOracle.Tls.NarrowTarget
import ProvenoOracle.Tls.Chain

/-! # The two TLV readers

`der_read_tlv` refuses a length field without length octets or with more than four of them; the
local reader `tl` of `spki_alg_and_key` does not. What `der_read_tlv` finds `tl` finds too, on
every target (`tl_of_derReadTlv`). The converse fails in three ways:

* `tl` takes the indefinite form `0x80` for an empty content;
* `tl` takes five or more length octets, and of more than a word keeps the low bits;
* a length close to the width of a word makes its last addition panic or wrap, and after a wrap
  the sub-slice panics.

`tlv_readers_agree_iff` says that there are no other ways, and when `spki_alg_and_key`, which
reads three TLVs with `tl`, does not panic.
-/

set_option autoImplicit false

namespace ProvenoOracle

open Codec

/-! ## Definitions -/

/-- `tl` finds what `der_read_tlv` finds under the tag, and answers `None` where that finds
nothing under it. -/
structure ReadersAgree (t : Target) (data : Bytes) (tag : UInt8) : Prop where
  found : ∀ content rest, tl t data tag = .ok (some (content, rest)) ↔
    ∃ total, derReadTlv t data = .ok (some (tag, content, total)) ∧
      sliceFrom data total = .ok rest
  missing : (¬ ∃ content total, derReadTlv t data = .ok (some (tag, content, total))) →
    tl t data tag = .ok none

/-- The header with the tag fits, and if its content is there, the length field is of the short
form or has one to four length octets. -/
structure StrictHeader (w : Nat) (tag : UInt8) (data : Bytes) : Prop where
  fits : LaxHeaderFits w tag data
  strict : ∀ c s r, LaxTlv w tag c s → data = s ++ r → IsTlv 4 tag c s

/-- The headers of the content of a SubjectPublicKeyInfo fit: that of the AlgorithmIdentifier, that
of the OID in it, and, where there is an OID, that of the BIT STRING behind it. -/
def SpkiFits (w : Nat) (spkiInner : Bytes) : Prop :=
  LaxHeaderFits w 0x30 spkiInner ∧
    ∀ algSeq s rest, LaxTlv w 0x30 algSeq s → spkiInner = s ++ rest →
      LaxHeaderFits w 0x06 algSeq ∧
        ∀ oidBytes s' r, LaxTlv w 0x06 oidBytes s' → algSeq = s' ++ r → LaxHeaderFits w 0x03 rest

variable {t : Target}

/-! ## One TLV -/

theorem derReadTlv_tlv {tag : UInt8} {c s : Bytes} (hs : IsTlv 4 tag c s)
    (hsize : s.length < 2 ^ t.bits) (r : Bytes) :
    derReadTlv t (s ++ r) = .ok (some (tag, c, s.length)) ∧
      sliceFrom (s ++ r) s.length = .ok r := by
  refine ⟨derReadTlv_of_tlvAt (tlvAt_append hs r) hsize, ?_⟩
  rw [sliceFrom_ok (by rw [List.length_append]; omega), List.drop_left]

/-- **What `der_read_tlv` finds, `tl` finds too**, on every target and every input. -/
theorem tl_of_derReadTlv {data c : Bytes} {tag : UInt8} {total : Nat}
    (h : derReadTlv t data = .ok (some (tag, c, total))) :
    ∃ rest, sliceFrom data total = .ok rest ∧ tl t data tag = .ok (some (c, rest)) := by
  obtain ⟨htlv, hlt⟩ := derReadTlv_sound h
  obtain ⟨s, r, hs, rfl, rfl⟩ := tlvAt_some htlv
  exact ⟨r, (derReadTlv_tlv hs hlt r).2, tl_append hs hlt r⟩

/-- Where the readers agree, the header is a strict one. -/
theorem strictHeader_of_agree {data : Bytes} {tag : UInt8} (h : ReadersAgree t data tag) :
    StrictHeader t.bits tag data := by
  have hfits : LaxHeaderFits t.bits tag data := by
    apply tl_returns_iff.mp
    by_cases hfound : ∃ content total, derReadTlv t data = .ok (some (tag, content, total))
    · obtain ⟨content, total, hread⟩ := hfound
      obtain ⟨rest, -, htl⟩ := tl_of_derReadTlv hread
      exact ⟨_, htl⟩
    · exact ⟨_, h.missing hfound⟩
  refine ⟨hfits, ?_⟩
  intro c s r hs hcat
  have htl : tl t data tag = .ok (some (c, r)) := tl_eq_some_iff.mpr ⟨hfits, s, hs, hcat⟩
  obtain ⟨total, hread, -⟩ := (h.found c r).mp htl
  -- both readers have read the one TLV at the head
  obtain ⟨s', r', hs', -, hcat'⟩ := tlvAt_some (derReadTlv_some hread)
  have hsame : s ++ r = s' ++ r' := by rw [← hcat, hcat']
  obtain ⟨-, -, rfl, -⟩ := hs.unique (hs'.lax t.bits_ge) hsame
  exact hs'

/-- Behind a strict header the readers agree. -/
theorem agree_of_strictHeader {data : Bytes} {tag : UInt8} (h : StrictHeader t.bits tag data) :
    ReadersAgree t data tag := by
  have hread : ∀ content rest, tl t data tag = .ok (some (content, rest)) →
      ∃ total, derReadTlv t data = .ok (some (tag, content, total)) ∧
        sliceFrom data total = .ok rest := by
    intro content rest htl
    obtain ⟨-, s, hs, rfl⟩ := tl_eq_some_iff.mp htl
    have hstrict := h.strict content s rest hs rfl
    have hsize : s.length < 2 ^ t.bits := by
      obtain ⟨L, hL, rfl⟩ := hs
      have hfit := h.fits L content.length (content ++ rest) hL (by simp)
      simp only [List.length_cons, List.length_append]
      omega
    exact ⟨s.length, derReadTlv_tlv hstrict hsize rest⟩
  constructor
  · intro content rest
    refine ⟨hread content rest, ?_⟩
    rintro ⟨total, hfound, hrest⟩
    obtain ⟨rest', hrest', htl⟩ := tl_of_derReadTlv hfound
    rw [hrest] at hrest'
    cases hrest'
    exact htl
  · intro hnone
    obtain ⟨o, ho⟩ := tl_returns_iff.mpr h.fits
    cases o with
    | none => exact ho
    | some x =>
        obtain ⟨content, rest⟩ := x
        obtain ⟨total, hfound, -⟩ := hread content rest ho
        exact absurd ⟨content, total, hfound⟩ hnone

/-! ## `spki_alg_and_key` -/

/-- Once the OID is read, `spki_alg_and_key` returns when its last read does: the BIT STRING is not
empty where its first octet is dropped. -/
theorem spkiAlgAndKey_of_reads (K : Crates) {spkiInner algSeq rest oidBytes r : Bytes}
    (halg : tl t spkiInner 0x30 = .ok (some (algSeq, rest)))
    (hoid : tl t algSeq 0x06 = .ok (some (oidBytes, r))) :
    Run.Returns (spkiAlgAndKey K t spkiInner) ↔ Run.Returns (tl t rest 0x03) := by
  rw [spkiAlgAndKey, halg, Run.ok_bind]
  simp only [hoid, Run.ok_bind]
  refine ⟨Run.Returns.of_bind, ?_⟩
  intro hbits
  apply hbits.bind
  intro o
  match o with
  | none => exact Run.returns_ok _
  | some ([], _) => exact Run.returns_ok _
  | some (b :: bs, _) =>
      simp only [List.isEmpty_cons, Bool.false_eq_true, if_false, sliceFrom_cons_one, Run.ok_bind]
      cases K.oidFromDer (0x06 :: UInt8.ofNat oidBytes.length :: oidBytes) with
      | none => exact Run.returns_ok _
      | some oid => exact Run.returns_ok _

theorem spkiFits_of_returns (K : Crates) {spkiInner : Bytes}
    (hreturns : Run.Returns (spkiAlgAndKey K t spkiInner)) : SpkiFits t.bits spkiInner := by
  have houter : LaxHeaderFits t.bits 0x30 spkiInner :=
    tl_returns_iff.mp (Run.Returns.of_bind hreturns)
  refine ⟨houter, ?_⟩
  intro algSeq s rest hs hcat
  have halg : tl t spkiInner 0x30 = .ok (some (algSeq, rest)) :=
    tl_eq_some_iff.mpr ⟨houter, s, hs, hcat⟩
  have hinner : LaxHeaderFits t.bits 0x06 algSeq := by
    rw [spkiAlgAndKey, halg, Run.ok_bind] at hreturns
    exact tl_returns_iff.mp (Run.Returns.of_bind hreturns)
  refine ⟨hinner, ?_⟩
  intro oidBytes s' r hs' hcat'
  have hoid : tl t algSeq 0x06 = .ok (some (oidBytes, r)) :=
    tl_eq_some_iff.mpr ⟨hinner, s', hs', hcat'⟩
  exact tl_returns_iff.mp ((spkiAlgAndKey_of_reads K halg hoid).mp hreturns)

theorem returns_of_spkiFits (K : Crates) {spkiInner : Bytes} (hfit : SpkiFits t.bits spkiInner) :
    Run.Returns (spkiAlgAndKey K t spkiInner) := by
  obtain ⟨houter, hinner⟩ := hfit
  obtain ⟨o, ho⟩ := tl_returns_iff.mpr houter
  cases o with
  | none =>
      rw [spkiAlgAndKey, ho]
      exact Run.returns_ok _
  | some x =>
      obtain ⟨algSeq, rest⟩ := x
      obtain ⟨-, s, hs, hcat⟩ := tl_eq_some_iff.mp ho
      obtain ⟨hoidFits, hbitsFit⟩ := hinner algSeq s rest hs hcat
      obtain ⟨o', ho'⟩ := tl_returns_iff.mpr hoidFits
      cases o' with
      | none =>
          rw [spkiAlgAndKey, ho, Run.ok_bind]
          simp only [ho', Run.ok_bind]
          exact Run.returns_ok _
      | some y =>
          obtain ⟨oidBytes, r⟩ := y
          obtain ⟨-, s', hs', hcat'⟩ := tl_eq_some_iff.mp ho'
          exact (spkiAlgAndKey_of_reads K ho ho').mpr
            (tl_returns_iff.mpr (hbitsFit oidBytes s' r hs' hcat'))

/-- `spki_alg_and_key` returns exactly where the headers it comes to fit. -/
theorem spkiAlgAndKey_returns_iff (K : Crates) {spkiInner : Bytes} :
    Run.Returns (spkiAlgAndKey K t spkiInner) ↔ SpkiFits t.bits spkiInner :=
  ⟨spkiFits_of_returns K, returns_of_spkiFits K⟩

/-! ## Where the readers agree -/

/-- **Where the two TLV readers agree**: exactly where a header with the tag is a strict one.
`spki_alg_and_key` never panics exactly where the headers it comes to fit. -/
theorem tlv_readers_agree_iff (t : Target) :
    (∀ data tag, ReadersAgree t data tag ↔ StrictHeader t.bits tag data) ∧
    ∀ (K : Crates) spkiInner,
      NeverPanics t (spkiAlgAndKey K · spkiInner) ↔ SpkiFits t.bits spkiInner := by
  constructor
  · intro data tag
    exact ⟨strictHeader_of_agree, agree_of_strictHeader⟩
  · intro K spkiInner
    constructor
    · intro h
      exact (spkiAlgAndKey_returns_iff (t := t.build true) K).mp (h true)
    · intro hfit checks
      exact (spkiAlgAndKey_returns_iff (t := t.build checks) K).mpr hfit

/-- The readers do not agree on every slice, not even on the 64-bit host: `tl` takes the indefinite
form and a length of five octets, and `spki_alg_and_key` panics in both builds on a header of ten
octets that says `2 ^ 64 - 1`. -/
theorem tlv_readers_disagree :
    (¬ ∀ data tag, ReadersAgree .host64 data tag) ∧
    (tl .host64 [0x30, 0x80] 0x30 = .ok (some ([], [])) ∧
      derReadTlv .host64 [0x30, 0x80] = .ok none) ∧
    (tl .host64 [0x30, 0x85, 0, 0, 0, 0, 0] 0x30 = .ok (some ([], [])) ∧
      derReadTlv .host64 [0x30, 0x85, 0, 0, 0, 0, 0] = .ok none) ∧
    ∀ K checks, ¬ Run.Returns (spkiAlgAndKey K (Target.host64.build checks)
      [0x30, 0x88, 0xff, 0xff, 0xff, 0xff, 0xff, 0xff, 0xff, 0xff]) := by
  refine ⟨?_, ⟨by decide, by decide⟩, ⟨by decide, by decide⟩, ?_⟩
  · intro h
    obtain ⟨total, hread, -⟩ := ((h [0x30, 0x80] 0x30).found [] []).mp (by decide)
    cases hread
  · rintro K (- | -) hreturns
    · exact Run.not_returns_error .outOfRange (Run.Returns.of_bind hreturns)
    · exact Run.not_returns_error .overflow (Run.Returns.of_bind hreturns)

end ProvenoOracle
