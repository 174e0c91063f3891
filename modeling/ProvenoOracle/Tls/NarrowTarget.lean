import ProvenoOracle.Tls.SanSearch

/-! # The DER readers on a narrow target

A length field of four octets can say almost `2 ^ 32`, and the readers add the size of the header
to it before they compare the sum with what is there. On a 64-bit target the sum is exact. On a
32-bit one it may not be, and then the build with overflow checks panics at the addition, and the
build without them at the sub-slice whose end lies before its start. This file says exactly on
which inputs each reader returns.
-/

set_option autoImplicit false

namespace ProvenoOracle

open Codec

/-! ## Targets -/

/-- The build of the code for a target, with or without overflow checks. -/
def Target.build (t : Target) (checks : Bool) : Target := { t with overflowChecks := checks }

/-- A 32-bit target such as the zkVM guest, in a debug build. -/
def Target.guest32 : Target := ⟨32, true, Nat.le_refl 32⟩

@[simp] theorem Target.build_checks (t : Target) (checks : Bool) :
    (t.build checks).overflowChecks = checks := rfl

/-- The call never panics on this width: it returns in both builds. In the build with overflow
checks that means that every addition it performs stays below `2 ^ bits`. -/
def NeverPanics {α : Type} (t : Target) (call : Target → Run α) : Prop :=
  ∀ checks, Run.Returns (call (t.build checks))

/-! ## Headers that fit -/

/-- The header of the Certificate fits, and so does that of the TBSCertificate inside it. -/
def TbsFits (w : Nat) (certDer : Bytes) : Prop :=
  SequenceFits w 0x30 certDer ∧
    ∀ inner s r, IsTlv 4 0x30 inner s → certDer = s ++ r → SequenceFits w 0x30 inner

/-- Every header that the search for the hostname comes to fits: those behind complete entries
that do not match. -/
def EntriesFit (w : Nat) (hostname : String) (content : Bytes) : Prop :=
  ∀ entries body rest, content = body ++ rest → IsTlvList 4 entries body →
    (∀ e ∈ entries, ¬ DnsNameEntry hostname e) → HeaderFits w rest

/-- The header of the SubjectAltName value fits, and so do those of the entries. -/
def SanFits (w : Nat) (hostname : String) (sanDer : Bytes) : Prop :=
  SequenceFits w 0x30 sanDer ∧
    ∀ content s r, IsTlv 4 0x30 content s → sanDer = s ++ r → EntriesFit w hostname content

variable {t : Target}

/-- With overflow checks, a header that does not fit is a panic: its size is added without overflow,
the length is not. -/
theorem behindHeader_of_not_fits {α : Type} (hchecks : t.overflowChecks = true) {b : UInt8}
    {rest : Bytes} (hfit : ¬ HeaderFits t.bits (b :: rest))
    (next : Nat → Nat → Run (Option α)) :
    behindHeader t (b :: rest) next = .error .overflow := by
  rw [headerFits_cons] at hfit
  push Not at hfit
  obtain ⟨n, k, hl, hge⟩ := hfit
  obtain ⟨hk, -⟩ := lengthField_bounds hl
  have hstart : usizeAdd t 1 k = .ok (1 + k) := usizeAdd_small (by omega)
  have htotal : usizeAdd t (1 + k) n = .error .overflow := by
    rw [usizeAdd, if_neg (by omega), if_pos hchecks]
  simp only [behindHeader, sliceFrom_cons_one, derReadLength_eq, Run.ok_bind, hl, hstart, htotal,
    Run.error_bind]

/-! ## One TLV -/

theorem derReadTlv_of_not_fits (hchecks : t.overflowChecks = true) {data : Bytes}
    (hfit : ¬ HeaderFits t.bits data) : derReadTlv t data = .error .overflow := by
  cases data with
  | nil => exact absurd (headerFits_nil t.bits) hfit
  | cons b rest =>
      rw [derReadTlv_cons]
      exact behindHeader_of_not_fits hchecks hfit _

theorem headerFits_of_derReadTlv (hchecks : t.overflowChecks = true) {data : Bytes}
    (hreturns : Run.Returns (derReadTlv t data)) : HeaderFits t.bits data := by
  by_contra hfit
  rw [derReadTlv_of_not_fits hchecks hfit] at hreturns
  exact Run.not_returns_error _ hreturns

theorem sequenceFits_of_derInner (hchecks : t.overflowChecks = true) {data : Bytes}
    {tag : UInt8} (hreturns : Run.Returns (derInner t data tag)) :
    SequenceFits t.bits tag data := by
  intro htag
  by_contra hfit
  rw [derInner_eq, if_pos htag, derReadTlv_of_not_fits hchecks hfit] at hreturns
  exact Run.not_returns_error _ hreturns

/-! ## The signed bytes -/

theorem exists_rest_of_not_sequenceFits {w : Nat} {tag : UInt8} {data : Bytes}
    (hfit : ¬ SequenceFits w tag data) :
    ∃ rest, data = tag :: rest ∧ ¬ HeaderFits w (tag :: rest) := by
  rw [SequenceFits, Classical.not_imp] at hfit
  obtain ⟨htag, hheader⟩ := hfit
  cases data with
  | nil => cases htag
  | cons b rest =>
      obtain rfl : b = tag := by simpa using htag
      exact ⟨rest, rfl, hheader⟩

theorem sequenceFits_of_firstSequence (hchecks : t.overflowChecks = true) {inner : Bytes}
    (hreturns : Run.Returns (firstSequence t inner)) : SequenceFits t.bits 0x30 inner := by
  by_contra hfit
  obtain ⟨rest, rfl, hheader⟩ := exists_rest_of_not_sequenceFits hfit
  rw [firstSequence_cons, if_pos rfl, behindHeader_of_not_fits hchecks hheader] at hreturns
  exact Run.not_returns_error _ hreturns

theorem extractTbsDer_of_tbsFits {certDer : Bytes} (hfit : TbsFits t.bits certDer) :
    Run.Returns (extractTbsDer t certDer) := by
  obtain ⟨houter, hinner⟩ := hfit
  refine ⟨_, extractTbsDer_of_fits houter ?_⟩
  intro inner total h
  obtain ⟨s, r, hs, -, hcat⟩ := tlvAt_some h
  exact hinner inner s r hs hcat

theorem tbsFits_of_extractTbsDer (hchecks : t.overflowChecks = true) {certDer : Bytes}
    (hreturns : Run.Returns (extractTbsDer t certDer)) : TbsFits t.bits certDer := by
  have houter : SequenceFits t.bits 0x30 certDer := by
    by_contra hfit
    obtain ⟨rest, rfl, hheader⟩ := exists_rest_of_not_sequenceFits hfit
    rw [extractTbsDer_cons, if_pos rfl, behindHeader_of_not_fits hchecks hheader] at hreturns
    exact Run.not_returns_error _ hreturns
  refine ⟨houter, ?_⟩
  intro inner s r hs hcat
  have hread : tlvAt certDer = some (0x30, inner, s.length) := by rw [hcat, tlvAt_append hs]
  simp only [extractTbsDer_of_outer houter, hread, if_true] at hreturns
  exact sequenceFits_of_firstSequence hchecks hreturns

/-! ## The search for the hostname -/

/-- What lies behind an entry that does not match is fit when the whole is. -/
theorem EntriesFit.tail {w : Nat} {hostname : String} {tag : UInt8} {c s rest : Bytes}
    (hfit : EntriesFit w hostname (s ++ rest)) (hs : IsTlv 4 tag c s)
    (hmiss : ¬ DnsNameEntry hostname (tag, c)) : EntriesFit w hostname rest := by
  intro entries body rest' hcat hlist hall
  have hcat' : s ++ rest = s ++ body ++ rest' := by rw [hcat, List.append_assoc]
  apply hfit ((tag, c) :: entries) (s ++ body) rest' hcat' (.cons hs hlist)
  intro e he
  rcases List.mem_cons.mp he with rfl | he
  · exact hmiss
  · exact hall e he

/-- The loop returns where the headers ahead fit: they still do behind every entry. -/
theorem sanScan_of_fits {content : Bytes} {hostname : String}
    (hlen : content.length < 2 ^ t.bits) (hfit : EntriesFit t.bits hostname content) :
    Run.Returns (sanScan t content hostname hlen 0) := by
  apply @sanScan_returns_of t content hostname hlen
    (fun pos => EntriesFit t.bits hostname (content.drop pos))
  · intro pos hpos
    have hheader : HeaderFits t.bits (content.drop pos) := hpos [] [] _ rfl .nil (by simp)
    exact derReadTlv_of_fits hheader
  · intro pos tag c s r hpos hcat hs hmiss
    have hdrop : content.drop (pos + s.length) = r := by
      rw [← List.drop_drop, hcat, List.drop_left]
    rw [hdrop]
    exact (hcat ▸ hpos).tail hs hmiss
  · exact hfit

/-- With overflow checks, a loop that returns has met a header that fits. -/
theorem headerFits_of_sanScan (hchecks : t.overflowChecks = true) {content : Bytes}
    {hostname : String} (hlen : content.length < 2 ^ t.bits) {pos : Nat}
    (hreturns : Run.Returns (sanScan t content hostname hlen pos)) :
    HeaderFits t.bits (content.drop pos) := by
  by_contra hfit
  have hpos : pos < content.length := by
    by_contra hend
    rw [List.drop_eq_nil_of_le (by omega)] at hfit
    exact hfit (headerFits_nil t.bits)
  have hread := derReadTlv_of_not_fits hchecks hfit
  rw [sanScan, dif_pos hpos] at hreturns
  obtain ⟨b, hb⟩ := hreturns
  split at hb
  · cases hb
  · next htlv =>
    rw [hread] at htlv
    cases htlv
  · next htlv =>
    rw [hread] at htlv
    cases htlv

/-- So have the rounds after it, by induction on the entries that are stepped over. -/
theorem entriesFit_of_sanScan (hchecks : t.overflowChecks = true) {content : Bytes}
    {hostname : String} (hlen : content.length < 2 ^ t.bits) {entries : List (UInt8 × Bytes)}
    {body : Bytes} (hlist : IsTlvList 4 entries body)
    (hmiss : ∀ e ∈ entries, ¬ DnsNameEntry hostname e) : ∀ pos rest,
      content.drop pos = body ++ rest → Run.Returns (sanScan t content hostname hlen pos) →
        HeaderFits t.bits rest := by
  induction hlist with
  | nil =>
      intro pos rest hdrop hreturns
      rw [List.nil_append] at hdrop
      rw [← hdrop]
      exact headerFits_of_sanScan hchecks hlen hreturns
  | cons head tail ih =>
      next tag c s body entries =>
      intro pos rest hdrop hreturns
      rw [List.append_assoc] at hdrop
      rcases @sanScan_entry t content hostname hlen pos tag c s _ head hdrop with
        ⟨hnext, ⟨hmatch, -⟩ | ⟨-, hscan⟩⟩
      · exact absurd hmatch (hmiss _ (by simp))
      · rw [hscan] at hreturns
        exact ih (fun e he => hmiss e (by simp [he])) _ rest hnext hreturns

theorem sanContainsHostname_of_fits {hostname : String} {sanDer : Bytes}
    (hfit : SanFits t.bits hostname sanDer) :
    Run.Returns (sanContainsHostname t sanDer hostname) := by
  obtain ⟨houter, hentries⟩ := hfit
  apply sanContainsHostname_returns_of (derInner_of_fits houter)
  intro content h
  obtain ⟨s, r, hs, hcat⟩ := derInner_some h
  exact sanScan_of_fits _ (hentries content s r hs hcat)

theorem sanFits_of_sanContainsHostname (hchecks : t.overflowChecks = true) {hostname : String}
    {sanDer : Bytes} (hreturns : Run.Returns (sanContainsHostname t sanDer hostname)) :
    SanFits t.bits hostname sanDer := by
  -- a panic of `der_inner` would be one of the search
  have hinner : Run.Returns (derInner t sanDer 0x30) := by
    cases h : derInner t sanDer 0x30 with
    | ok o => exact Run.returns_ok o
    | error p =>
        obtain ⟨b, hb⟩ := hreturns
        unfold sanContainsHostname at hb
        split at hb
        · cases hb
        · next h' =>
          rw [h] at h'
          cases h'
        · next h' =>
          rw [h] at h'
          cases h'
  refine ⟨sequenceFits_of_derInner hchecks hinner, ?_⟩
  intro content s r hs hcat entries body rest hbody hlist hmiss
  obtain ⟨o, ho⟩ := hinner
  have hfits := sequenceFits_of_derInner hchecks ⟨o, ho⟩
  -- the TLV at the head is unique, so its content is what `der_inner` has answered
  have hcontent : o = some content := by
    have hhead : sanDer.head? = some 0x30 := by
      rw [hcat]
      rcases hs with ⟨L, -, rfl⟩
      rfl
    rw [derInner_eq, if_pos hhead, derReadTlv_of_fits (hfits hhead), hcat, tlvAt_append hs] at ho
    injection ho with ho
    exact ho.symm
  subst hcontent
  rw [sanContainsHostname_of_derInner ho] at hreturns
  exact entriesFit_of_sanScan hchecks _ hlist hmiss 0 rest hbody hreturns

/-! ## The four readers -/

/-- None of the four readers panics on the input, in either build. -/
structure ReadersReturn (t : Target) (data : Bytes) (tag : UInt8) (hostname : String) : Prop where
  tlv : NeverPanics t (derReadTlv · data)
  inner : NeverPanics t (derInner · data tag)
  tbs : NeverPanics t (extractTbsDer · data)
  san : NeverPanics t (sanContainsHostname · data hostname)

/-- On the 64-bit host no input makes a reader panic. -/
theorem readersReturn_of_wide (ht : 34 ≤ t.bits) (data : Bytes) (tag : UInt8)
    (hostname : String) : ReadersReturn t data tag hostname where
  tlv checks := ⟨_, derReadTlv_of_fits (t := t.build checks) (headerFits_wide ht data)⟩
  inner checks := derInner_of_fits (t := t.build checks) fun _ => headerFits_wide ht data
  tbs checks := extractTbsDer_of_tbsFits (t := t.build checks)
    ⟨fun _ => headerFits_wide ht data, fun inner _ _ _ _ _ => headerFits_wide ht inner⟩
  san checks := sanContainsHostname_of_fits (t := t.build checks)
    ⟨fun _ => headerFits_wide ht data,
      fun _ _ _ _ _ _ _ rest _ _ _ => headerFits_wide ht rest⟩

/-- **When the DER readers return**: exactly when every header that they add up fits into the
target's `usize`. -/
theorem readers_return_iff (t : Target) (data : Bytes) (tag : UInt8) (hostname : String) :
    (NeverPanics t (derReadTlv · data) ↔ HeaderFits t.bits data) ∧
    (NeverPanics t (derInner · data tag) ↔ SequenceFits t.bits tag data) ∧
    (NeverPanics t (extractTbsDer · data) ↔ TbsFits t.bits data) ∧
    (NeverPanics t (sanContainsHostname · data hostname) ↔ SanFits t.bits hostname data) := by
  refine ⟨⟨?_, ?_⟩, ⟨?_, ?_⟩, ⟨?_, ?_⟩, ⟨?_, ?_⟩⟩
  · intro h
    exact headerFits_of_derReadTlv (t.build_checks true) (h true)
  · intro hfit checks
    exact ⟨_, derReadTlv_of_fits (t := t.build checks) hfit⟩
  · intro h
    exact sequenceFits_of_derInner (t.build_checks true) (h true)
  · intro hfit checks
    exact derInner_of_fits (t := t.build checks) hfit
  · intro h
    exact tbsFits_of_extractTbsDer (t.build_checks true) (h true)
  · intro hfit checks
    exact extractTbsDer_of_tbsFits (t := t.build checks) hfit
  · intro h
    exact sanFits_of_sanContainsHostname (t.build_checks true) (h true)
  · intro hfit checks
    exact sanContainsHostname_of_fits (t := t.build checks) hfit

/-- On the 32-bit guest and the 64-bit host alike, the readers would return on every input; a
header of six octets that says `2 ^ 32 - 1` refutes it on the guest, in both builds. -/
theorem readers_panic_on_guest :
    (¬ ∀ t : Target, t.bits = 32 ∨ t.bits = 64 →
      ∀ data tag hostname, ReadersReturn t data tag hostname) ∧
    ∀ checks, ¬ Run.Returns
      (derReadTlv (Target.guest32.build checks) [0x30, 0x84, 0xff, 0xff, 0xff, 0xff]) := by
  have hpanics : ∀ checks, ¬ Run.Returns
      (derReadTlv (Target.guest32.build checks) [0x30, 0x84, 0xff, 0xff, 0xff, 0xff]) := by
    rintro (- | -)
    · exact Run.not_returns_error .outOfRange
    · exact Run.not_returns_error .overflow
  refine ⟨?_, hpanics⟩
  intro h
  have hreaders := h .guest32 (Or.inl rfl) [0x30, 0x84, 0xff, 0xff, 0xff, 0xff] 0x30 ""
  exact hpanics true (hreaders.tlv true)

end ProvenoOracle
