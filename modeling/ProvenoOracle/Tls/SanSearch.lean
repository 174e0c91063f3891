import ProvenoOracle.Codec.TlvList
import ProvenoOracle.Tls.Hostname

/-! # The search for a DNS name

`san_contains_hostname` walks the entries of a SubjectAltName value: it looks at each TLV and
steps over it. On a 64-bit target the walk finds a dNSName entry that matches exactly when there
is one (`san_search_exact`), whatever other entries stand before it.
-/

set_option autoImplicit false

namespace ProvenoOracle

open Codec

/-- The entry is a dNSName that matches the hostname. -/
def DnsNameEntry (hostname : String) (entry : UInt8 × Bytes) : Prop :=
  entry.1 = 0x82 ∧ ∃ name, strFromUtf8 entry.2 = some name ∧ dnsNameMatches name hostname = true

/-- The test of the loop. -/
theorem dnsNameEntry_iff (hostname : String) (tag : UInt8) (content : Bytes) :
    DnsNameEntry hostname (tag, content) ↔
      tag = 0x82 ∧ (strFromUtf8 content).any (dnsNameMatches · hostname) = true := by
  unfold DnsNameEntry
  cases strFromUtf8 content with
  | none => simp
  | some name => simp

/-! ## One round -/

/-- **One round of the loop**, where reading a TLV does not panic: no TLV ends the search, a
matching entry is an answer, and any other entry is stepped over. -/
theorem sanScan_round {t : Target} {content : Bytes} {hostname : String}
    (hlen : content.length < 2 ^ t.bits) {pos : Nat} (hpos : pos < content.length)
    (hread : derReadTlv t (content.drop pos) = .ok (tlvAt (content.drop pos))) :
    (tlvAt (content.drop pos) = none ∧ sanScan t content hostname hlen pos = .ok false) ∨
    ∃ tag c s r, content.drop pos = s ++ r ∧ IsTlv 4 tag c s ∧
      ((DnsNameEntry hostname (tag, c) ∧ sanScan t content hostname hlen pos = .ok true) ∨
        (¬DnsNameEntry hostname (tag, c) ∧ sanScan t content hostname hlen pos
          = sanScan t content hostname hlen (pos + s.length))) := by
  rw [sanScan, dif_pos hpos]
  split
  · next p htlv =>
    rw [hread] at htlv
    cases htlv
  · next htlv =>
    rw [hread] at htlv
    exact Or.inl ⟨by injection htlv, rfl⟩
  · next tag c total htlv =>
    have hentry := derReadTlv_some htlv
    rcases tlvAt_some hentry with ⟨s, r, hs, rfl, hcat⟩
    refine Or.inr ⟨tag, c, s, r, hcat, hs, ?_⟩
    rw [dnsNameEntry_iff]
    by_cases hmatch : tag = 0x82 ∧ (strFromUtf8 c).any (dnsNameMatches · hostname) = true
    · rw [if_pos hmatch]
      exact Or.inl ⟨hmatch, rfl⟩
    · rw [if_neg hmatch]
      -- the entry lies inside the slice, so its end is a `usize`
      have hcount : content.length - pos = s.length + r.length := by
        rw [← List.length_drop, hcat, List.length_append]
      have hsum : usizeAdd t pos s.length = .ok (pos + s.length) := usizeAdd_ok (by omega)
      refine Or.inr ⟨hmatch, ?_⟩
      split
      · next p hnext =>
        rw [hsum] at hnext
        cases hnext
      · next next hnext =>
        rw [hsum] at hnext
        cases hnext
        rfl

/-- Where an entry stands the round looks at it, on any target. -/
theorem sanScan_entry {t : Target} {content : Bytes} {hostname : String}
    (hlen : content.length < 2 ^ t.bits) {pos : Nat} {tag : UInt8} {c s rest : Bytes}
    (hs : IsTlv 4 tag c s) (hdrop : content.drop pos = s ++ rest) :
    content.drop (pos + s.length) = rest ∧
      ((DnsNameEntry hostname (tag, c) ∧ sanScan t content hostname hlen pos = .ok true) ∨
        (¬DnsNameEntry hostname (tag, c) ∧ sanScan t content hostname hlen pos
          = sanScan t content hostname hlen (pos + s.length))) := by
  have hge := hs.length_ge
  have hcount : content.length - pos = s.length + rest.length := by
    rw [← List.length_drop, hdrop, List.length_append]
  have htlv : tlvAt (content.drop pos) = some (tag, c, s.length) := by
    rw [hdrop, tlvAt_append hs]
  have hread : derReadTlv t (content.drop pos) = .ok (tlvAt (content.drop pos)) := by
    rw [htlv]
    exact derReadTlv_of_tlvAt htlv (by omega)
  have hnext : content.drop (pos + s.length) = rest := by
    rw [← List.drop_drop, hdrop, List.drop_left]
  refine ⟨hnext, ?_⟩
  rcases @sanScan_round t content hostname hlen pos (by omega) hread with
    ⟨hnone, -⟩ | ⟨tag', c', s', r, hcat, hs', hround⟩
  · rw [htlv] at hnone
    cases hnone
  · -- the TLV that the round reads is the entry
    rw [hdrop] at hcat
    rcases hs.unique hs' hcat with ⟨rfl, rfl, rfl, rfl⟩
    exact hround

/-! ## Whole scans -/

/-- **The loop returns** from a position, if reading a TLV does there and wherever the loop goes
from there. By induction on what is left to scan. -/
theorem sanScan_returns_of {t : Target} {content : Bytes} {hostname : String}
    (hlen : content.length < 2 ^ t.bits) {P : Nat → Prop}
    (hread : ∀ pos, P pos → derReadTlv t (content.drop pos) = .ok (tlvAt (content.drop pos)))
    (hstep : ∀ pos tag c s r, P pos → content.drop pos = s ++ r → IsTlv 4 tag c s →
      ¬DnsNameEntry hostname (tag, c) → P (pos + s.length)) {pos : Nat} (hpos : P pos) :
    Run.Returns (sanScan t content hostname hlen pos) := by
  induction hn : content.length - pos using Nat.strong_induction_on generalizing pos with
  | _ n ih =>
      -- a round answers, or goes on at a later position where `P` holds again
      by_cases hlt : pos < content.length
      · rcases @sanScan_round t content hostname hlen pos hlt (hread pos hpos) with
          ⟨-, hscan⟩ | ⟨tag, c, s, r, hcat, hs, ⟨-, hscan⟩ | ⟨hmiss, hscan⟩⟩
        · exact ⟨false, hscan⟩
        · exact ⟨true, hscan⟩
        · have hge := hs.length_ge
          rw [hscan]
          exact ih (content.length - (pos + s.length)) (by omega)
            (hstep pos tag c s r hpos hcat hs hmiss) rfl
      · rw [sanScan, dif_neg hlt]
        exact Run.returns_ok _

/-- From the position of a list of entries on, the scan finds exactly the matching ones. -/
theorem sanScan_isTlvList {t : Target} {content : Bytes} {hostname : String}
    (hlen : content.length < 2 ^ t.bits) {entries : List (UInt8 × Bytes)} {body : Bytes}
    (hbody : IsTlvList 4 entries body) : ∀ pos, content.drop pos = body →
      ∃ b, sanScan t content hostname hlen pos = .ok b ∧
        (b = true ↔ ∃ e ∈ entries, DnsNameEntry hostname e) := by
  induction hbody with
  | nil =>
      intro pos hdrop
      have hend : ¬pos < content.length := by
        have hle : content.length ≤ pos := List.drop_eq_nil_iff.mp hdrop
        omega
      have hscan : sanScan t content hostname hlen pos = .ok false := by
        rw [sanScan, dif_neg hend]
      exact ⟨false, hscan, by simp⟩
  | cons head tail ih =>
      next tag c s body entries =>
      intro pos hdrop
      rcases @sanScan_entry t content hostname hlen pos tag c s body head hdrop with
        ⟨hrest, ⟨hmatch, hscan⟩ | ⟨hmiss, hscan⟩⟩
      · exact ⟨true, hscan, by simp [hmatch]⟩
      · rcases ih (pos + s.length) hrest with ⟨b, hb, hiff⟩
        refine ⟨b, hscan.trans hb, ?_⟩
        rw [hiff]
        simp [hmiss]

/-- **What a positive answer means**, for arbitrary content and on any target: the scan walked
over complete TLVs to a matching entry. -/
theorem sanScan_true {t : Target} {content : Bytes} {hostname : String}
    (hlen : content.length < 2 ^ t.bits) {pos : Nat} (hwalk : WalksTo 4 content pos)
    (h : sanScan t content hostname hlen pos = .ok true) :
    ∃ pos' tag c s r, WalksTo 4 content pos' ∧ content.drop pos' = s ++ r ∧ IsTlv 4 tag c s ∧
      DnsNameEntry hostname (tag, c) := by
  induction hn : content.length - pos using Nat.strong_induction_on generalizing pos with
  | _ n ih =>
      rw [sanScan] at h
      split at h
      · next hpos =>
        split at h
        · cases h
        · cases h
        · next tag c total htlv =>
          rcases tlvAt_some (derReadTlv_some htlv) with ⟨s, r, hs, rfl, hcat⟩
          split at h
          · next hmatch =>
            have hentry : DnsNameEntry hostname (tag, c) := (dnsNameEntry_iff ..).mpr hmatch
            exact ⟨pos, tag, c, s, r, hwalk, hcat, hs, hentry⟩
          · split at h
            · cases h
            · next next hnext =>
              -- the next position is where this TLV ends
              rcases sanScan_advances hlen hpos htlv hnext with ⟨rfl, hadv, hend⟩
              exact ih (content.length - (pos + s.length)) (by omega) (hwalk.next hcat hs) h rfl
      · cases h

/-! ## The search -/

/-- The search for `hostname` is exact on lists of entries, returns on every input, and a positive
answer on any input points at an entry. -/
structure SanSearchExact (t : Target) (hostname : String) : Prop where
  /-- On a SEQUENCE of entries the answer says whether some entry is a matching dNSName. -/
  exact {entries : List (UInt8 × Bytes)} {body san : Bytes} (hbody : IsTlvList 4 entries body)
    (hsan : IsTlv 4 0x30 body san) (junk : Bytes) :
    ∃ b, sanContainsHostname t (san ++ junk) hostname = .ok b ∧
      (b = true ↔ ∃ e ∈ entries, DnsNameEntry hostname e)
  /-- The order of the entries, their encodings and what follows the SEQUENCE are irrelevant. -/
  order {entries entries' : List (UInt8 × Bytes)} {body body' san san' : Bytes}
    (hperm : entries.Perm entries') (hbody : IsTlvList 4 entries body)
    (hbody' : IsTlvList 4 entries' body') (hsan : IsTlv 4 0x30 body san)
    (hsan' : IsTlv 4 0x30 body' san') (junk junk' : Bytes) :
    sanContainsHostname t (san ++ junk) hostname = sanContainsHostname t (san' ++ junk') hostname
  /-- The search returns on every byte string. -/
  returns (bytes : Bytes) : ∃ b, sanContainsHostname t bytes hostname = .ok b
  /-- Each round of the loop moves on by at least two bytes and stays in the slice. -/
  advances {content c : Bytes} {pos total next : Nat} {tag : UInt8}
    (hlen : content.length < 2 ^ t.bits) (hpos : pos < content.length)
    (htlv : derReadTlv t (content.drop pos) = .ok (some (tag, c, total)))
    (hnext : usizeAdd t pos total = .ok next) :
    pos + 2 ≤ next ∧ next ≤ content.length
  /-- A positive answer on any byte string points at an entry that the walk reaches. -/
  sound {bytes : Bytes} (h : sanContainsHostname t bytes hostname = .ok true) :
    ∃ content san junk pos c s r, bytes = san ++ junk ∧ IsTlv 4 0x30 content san ∧
      WalksTo 4 content pos ∧ content.drop pos = s ++ r ∧ IsTlv 4 0x82 c s ∧
      ∃ name, strFromUtf8 c = some name ∧ dnsNameMatches name hostname = true

theorem sanContainsHostname_of_derInner {t : Target} {bytes content : Bytes} {hostname : String}
    (h : derInner t bytes 0x30 = .ok (some content)) :
    sanContainsHostname t bytes hostname
      = sanScan t content hostname (derInner_length_lt h) 0 := by
  unfold sanContainsHostname
  split
  · next p hinner =>
    rw [h] at hinner
    cases hinner
  · next hinner =>
    rw [h] at hinner
    cases hinner
  · next content' hinner =>
    have hsame : some content = some content' := by
      rw [h] at hinner
      injection hinner
    cases hsame
    rfl

/-- The search returns if reading the outer SEQUENCE and scanning its content do. -/
theorem sanContainsHostname_returns_of {t : Target} {bytes : Bytes} {hostname : String}
    (hinner : Run.Returns (derInner t bytes 0x30))
    (hscan : ∀ content (h : derInner t bytes 0x30 = .ok (some content)),
      Run.Returns (sanScan t content hostname (derInner_length_lt h) 0)) :
    Run.Returns (sanContainsHostname t bytes hostname) := by
  unfold sanContainsHostname
  split
  · next p hpanic =>
    obtain ⟨o, ho⟩ := hinner
    rw [ho] at hpanic
    cases hpanic
  · exact Run.returns_ok _
  · next content h => exact hscan content h

section Wide

variable {t : Target} (ht : 34 ≤ t.bits)

include ht

theorem derInner_tlv_append {tag : UInt8} {c s : Bytes} (hs : IsTlv 4 tag c s) (r : Bytes) :
    derInner t (s ++ r) tag = .ok (some c) := by
  have hread : derReadTlv t (s ++ r) = .ok (some (tag, c, s.length)) := by
    rw [derReadTlv_wide ht, tlvAt_append hs r]
  have hhead : (s ++ r).head? = some tag := by
    rcases hs with ⟨L, -, rfl⟩
    rfl
  rw [derInner_eq, if_pos hhead, hread]
  rfl

theorem derInner_returns (data : Bytes) (tag : UInt8) : Run.Returns (derInner t data tag) :=
  derInner_of_fits fun _ => headerFits_wide ht data

/-- On a wide target the search returns on every input. -/
theorem sanContainsHostname_returns (sanDer : Bytes) (hostname : String) :
    Run.Returns (sanContainsHostname t sanDer hostname) := by
  apply sanContainsHostname_returns_of (derInner_returns ht sanDer 0x30)
  intro content h
  apply @sanScan_returns_of t content hostname _ (fun _ => True)
  · intro pos _
    exact derReadTlv_wide ht _
  · intro pos tag c s r _ _ _ _
    trivial
  · trivial

theorem sanContainsHostname_isTlvList {entries : List (UInt8 × Bytes)} {body san : Bytes}
    (hostname : String) (hbody : IsTlvList 4 entries body) (hsan : IsTlv 4 0x30 body san)
    (junk : Bytes) : ∃ b, sanContainsHostname t (san ++ junk) hostname = .ok b ∧
      (b = true ↔ ∃ e ∈ entries, DnsNameEntry hostname e) := by
  have hinner : derInner t (san ++ junk) 0x30 = .ok (some body) :=
    derInner_tlv_append ht hsan junk
  rw [sanContainsHostname_of_derInner hinner]
  exact sanScan_isTlvList (derInner_length_lt hinner) hbody 0 List.drop_zero

end Wide

theorem sanContainsHostname_true {t : Target} {bytes : Bytes} {hostname : String}
    (h : sanContainsHostname t bytes hostname = .ok true) :
    ∃ content san junk pos tag c s r, bytes = san ++ junk ∧ IsTlv 4 0x30 content san ∧
      WalksTo 4 content pos ∧ content.drop pos = s ++ r ∧ IsTlv 4 tag c s ∧
      DnsNameEntry hostname (tag, c) := by
  unfold sanContainsHostname at h
  split at h
  · cases h
  · cases h
  · next content hinner =>
    rcases derInner_some hinner with ⟨san, junk, hsan, hbytes⟩
    rcases sanScan_true _ WalksTo.start h with ⟨pos, tag, c, s, r, hwalk, hcat, hs, hentry⟩
    exact ⟨content, san, junk, pos, tag, c, s, r, hbytes, hsan, hwalk, hcat, hs, hentry⟩

/-- **The search is exact** on every target with 64-bit (at least 34-bit) `usize`. -/
theorem san_search_exact (t : Target) (ht : 34 ≤ t.bits) (hostname : String) :
    SanSearchExact t hostname where
  exact hbody hsan junk := sanContainsHostname_isTlvList ht hostname hbody hsan junk
  order := by
    intro entries entries' body body' san san' hperm hbody hbody' hsan hsan' junk junk'
    rcases sanContainsHostname_isTlvList ht hostname hbody hsan junk with ⟨b, hb, hiff⟩
    rcases sanContainsHostname_isTlvList ht hostname hbody' hsan' junk' with ⟨b', hb', hiff'⟩
    have hsame : b = true ↔ b' = true := by
      rw [hiff, hiff']
      simp only [hperm.mem_iff]
    rw [hb, hb', Bool.eq_iff_iff.mpr hsame]
  returns bytes := sanContainsHostname_returns ht bytes hostname
  advances hlen hpos htlv hnext := (sanScan_advances hlen hpos htlv hnext).2
  sound := by
    intro bytes h
    rcases sanContainsHostname_true h with
      ⟨content, san, junk, pos, tag, c, s, r, hbytes, hsan, hwalk, hcat, hs, htag, hname⟩
    have h82 : tag = 0x82 := htag
    subst h82
    exact ⟨content, san, junk, pos, c, s, r, hbytes, hsan, hwalk, hcat, hs, hname⟩

/-- An e-mail address and a name that matches, in DER, with a byte after them. -/
theorem san_search_exact_second_entry :
    let entries : List (UInt8 × Bytes) := [(0x81, strBytes "x@a.b"), (0x82, strBytes "*.a.b")]
    let san : Bytes := tlv 0x30 (entries.flatMap fun e => tlv e.1 e.2)
    SanSearchExact .host64 "w.a.b" ∧
      sanContainsHostname .host64 (san ++ [0]) "w.a.b" = .ok true := by
  intro entries san
  have hexact : SanSearchExact .host64 "w.a.b" := san_search_exact .host64 (by decide) "w.a.b"
  have hbody : IsTlvList 4 entries (entries.flatMap fun e => tlv e.1 e.2) :=
    isTlvList_flatMap (by decide) (by decide)
  have hsan : IsTlv 4 0x30 (entries.flatMap fun e => tlv e.1 e.2) san :=
    isTlv_tlv 0x30 (by decide +kernel) (by decide)
  rcases hexact.exact hbody hsan [0] with ⟨b, hb, hiff⟩
  have hmatch : DnsNameEntry "w.a.b" (0x82, strBytes "*.a.b") :=
    ⟨rfl, "*.a.b", strFromUtf8_strBytes _, by decide⟩
  have htrue : b = true := hiff.mpr ⟨_, by simp [entries], hmatch⟩
  rw [htrue] at hb
  exact ⟨hexact, hb⟩

end ProvenoOracle
