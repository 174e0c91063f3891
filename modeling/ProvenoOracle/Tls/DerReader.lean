import ProvenoOracle.Rust.Run
import ProvenoOracle.Codec.Der

/-! # The hand-written DER readers

`tls/verify.rs` reads a few DER headers itself instead of going through `x509_cert`:
`der_read_length`, `der_read_tlv`, `der_inner`, `extract_tbs_der`, and the local reader `tl` of
`spki_alg_and_key`. They are modelled with every `usize` addition, index and sub-slice they
perform, on an arbitrary target.

The first four accept at most four length octets, so what they accept is described by
`DefiniteLength 4` and `IsTlv 4` (`Codec/Der.lean`), minimal or not; each has one lemma saying
what an answer means and one saying when there is an answer. The local reader is not as strict;
`Tls/AnchorReader.lean` is about it.
-/

set_option autoImplicit false

namespace ProvenoOracle

open Codec

/-! ## Definitions -/

/-- The loop of `der_read_length`: `len = (len << 8) | data[1 + i]` for the next `n` octets. -/
def derReadOctets (t : Target) (data : Bytes) : Nat → Nat → Nat → Run Nat
  | _, 0, len => pure len
  | i, n + 1, len => do
      derReadOctets t data (i + 1) n (shiftIn t len (← index data (1 + i)))

/-- Parse a DER length field. Returns `(length_value, bytes_consumed)`. -/
def derReadLength (t : Target) (data : Bytes) : Run (Option (Nat × Nat)) := do
  if data.isEmpty then return none
  let first ← index data 0
  if first < 0x80 then return some (first.toNat, 1)
  let numBytes := (first &&& 0x7f).toNat
  let consumed ← usizeAdd t 1 numBytes
  if data.length < consumed ∨ numBytes = 0 ∨ numBytes > 4 then return none
  let len ← derReadOctets t data 0 numBytes 0
  return some (len, consumed)

/-- Read one DER TLV from `data`. Returns `(tag, content, total_bytes_consumed)`. -/
def derReadTlv (t : Target) (data : Bytes) : Run (Option (UInt8 × Bytes × Nat)) := do
  if data.isEmpty then return none
  let tag ← index data 0
  match ← derReadLength t (← sliceFrom data 1) with
  | none => return none
  | some (len, headerLen) =>
      let start ← usizeAdd t 1 headerLen
      let total ← usizeAdd t start len
      if data.length < total then return none
      return some (tag, ← slice data start total, total)

/-- Extract the content bytes of a DER TLV with the given tag. -/
def derInner (t : Target) (data : Bytes) (expectedTag : UInt8) : Run (Option Bytes) := do
  if data.isEmpty then return none
  if (← index data 0) ≠ expectedTag then return none
  match ← derReadLength t (← sliceFrom data 1) with
  | none => return none
  | some (len, headerLen) =>
      let start ← usizeAdd t 1 headerLen
      let stop ← usizeAdd t start len
      if data.length < stop then return none
      return some (← slice data start stop)

/-- Second half of `extract_tbs_der`: the first TLV of the Certificate body, tag and length
included, if it is a SEQUENCE. -/
def firstSequence (t : Target) (inner : Bytes) : Run (Option Bytes) := do
  if inner.length < 2 then return none
  if (← index inner 0) ≠ 0x30 then return none
  match ← derReadLength t (← sliceFrom inner 1) with
  | none => return none
  | some (tbsLen, tbsHdr) =>
      let start ← usizeAdd t 1 tbsHdr
      let tbsTotal ← usizeAdd t start tbsLen
      if inner.length < tbsTotal then return none
      return some (← slice inner 0 tbsTotal)

/-- Extract the raw TBSCertificate bytes from a Certificate encoding. -/
def extractTbsDer (t : Target) (certDer : Bytes) : Run (Option Bytes) := do
  if certDer.length < 2 then return none
  if (← index certDer 0) ≠ 0x30 then return none
  match ← derReadLength t (← sliceFrom certDer 1) with
  | none => return none
  | some (outerLen, outerHdr) =>
      let innerStart ← usizeAdd t 1 outerHdr
      let innerStop ← usizeAdd t innerStart outerLen
      if certDer.length < innerStop then return none
      let inner ← slice certDer innerStart innerStop
      firstSequence t inner

/-- The local TLV reader of `spki_alg_and_key`. Returns `(content, remainder)`; it takes any
number of length octets and shifts them into a `usize`. -/
def tl (t : Target) (data : Bytes) (tag : UInt8) : Run (Option (Bytes × Bytes)) := do
  if data.length < 2 then return none
  if (← index data 0) ≠ tag then return none
  let b ← index data 1
  let header ←
    if b &&& 0x80 = 0 then pure (some (b.toNat, 2))
    else do
      let nb := (b &&& 0x7f).toNat
      let hdr ← usizeAdd t 2 nb
      if data.length < hdr then pure none
      else pure (some ((← slice data 2 hdr).foldl (shiftIn t) 0, hdr))
  match header with
  | none => return none
  | some (len, hdr) =>
      let stop ← usizeAdd t hdr len
      if data.length < stop then return none
      return some (← slice data hdr stop, ← sliceFrom data stop)

/-! ## The length field -/

theorem derReadOctets_eq (t : Target) (data : Bytes) :
    ∀ (n i len : Nat), 1 + i + n ≤ data.length →
      derReadOctets t data i n len
        = .ok (((data.drop (1 + i)).take n).foldl (shiftIn t) len) := by
  intro n
  induction n with
  | zero => intro i len _; simp [derReadOctets]
  | succ n ih =>
      intro i len hle
      have hi : 1 + i < data.length := by omega
      have hnext : data.drop (1 + i) = data[1 + i] :: data.drop (1 + (i + 1)) :=
        List.drop_eq_getElem_cons hi
      calc derReadOctets t data i (n + 1) len
          = derReadOctets t data (i + 1) n (shiftIn t len data[1 + i]) := by
            rw [derReadOctets, index_ok hi, Run.ok_bind]
        _ = .ok (((data.drop (1 + (i + 1))).take n).foldl (shiftIn t)
              (shiftIn t len data[1 + i])) := ih (i + 1) _ (by omega)
        _ = .ok (((data.drop (1 + i)).take (n + 1)).foldl (shiftIn t) len) := by
            rw [hnext, List.take_succ_cons, List.foldl_cons]

/-- Octets shifted into a `usize` are a big-endian number, less the bits shifted out. -/
theorem foldl_shiftIn_eq (t : Target) (bs : Bytes) :
    bs.foldl (shiftIn t) 0 = ofBeBytes bs % 2 ^ t.bits := by
  induction bs using List.reverseRecOn with
  | nil => rfl
  | append_singleton bs b ih =>
      calc (bs ++ [b]).foldl (shiftIn t) 0 = shiftIn t (bs.foldl (shiftIn t) 0) b := by
            rw [List.foldl_append]
            rfl
        _ = (ofBeBytes bs % 2 ^ t.bits * 256 + b.toNat) % 2 ^ t.bits := by
            rw [ih, shiftIn_eq]
        _ = (ofBeBytes bs * 256 + b.toNat) % 2 ^ t.bits := by
            rw [Nat.add_mod, Nat.mod_mul_mod, ← Nat.add_mod]
        _ = ofBeBytes (bs ++ [b]) % 2 ^ t.bits := by rw [ofBeBytes_concat]

/-- Four octets have room in a `usize` on every target. -/
theorem foldl_shiftIn_of_le (t : Target) {bs : Bytes} (h : bs.length ≤ 4) :
    bs.foldl (shiftIn t) 0 = ofBeBytes bs := by
  have hlt : ofBeBytes bs < 2 ^ t.bits := by
    calc ofBeBytes bs < 256 ^ bs.length := ofBeBytes_lt bs
      _ ≤ 256 ^ 4 := Nat.pow_le_pow_right (by decide) h
      _ ≤ 2 ^ t.bits := t.two_pow_ge
  rw [foldl_shiftIn_eq, Nat.mod_eq_of_lt hlt]

/-- The length field of at most four length octets at the head of `data`, with the number of
octets it takes. -/
def lengthField : Bytes → Option (Nat × Nat)
  | [] => none
  | b :: rest =>
      if b.toNat < 128 then some (b.toNat, 1)
      else if rest.length < b.toNat - 128 ∨ b.toNat = 128 ∨ 132 < b.toNat then none
      else some (ofBeBytes (rest.take (b.toNat - 128)), 1 + (b.toNat - 128))

theorem and_0x7f_toNat (b : UInt8) : (b &&& 0x7f).toNat = b.toNat % 128 := by
  rw [UInt8.toNat_and]
  exact Nat.and_two_pow_sub_one_eq_mod b.toNat 7

/-- **`der_read_length` never panics**, on any target, and returns the length field. -/
theorem derReadLength_eq (t : Target) (data : Bytes) :
    derReadLength t data = .ok (lengthField data) := by
  cases data with
  | nil => rfl
  | cons b rest =>
      have hb : b.toNat < 256 := b.toNat_lt
      have hlt : b < 0x80 ↔ b.toNat < 128 := UInt8.lt_iff_toNat_lt
      have hmask := and_0x7f_toNat b
      have hadd : usizeAdd t 1 (b &&& 0x7f).toNat = .ok (1 + (b &&& 0x7f).toNat) :=
        usizeAdd_small (by omega)
      simp only [derReadLength, lengthField, List.isEmpty_cons, Bool.false_eq_true, if_false,
        index_cons_zero, Run.ok_bind, hadd, Run.pure_eq, hlt]
      by_cases h : b.toNat < 128
      · simp only [h, if_true]
      · -- long form: the low seven bits of the lead octet say how many octets follow
        have hnum : (b &&& 0x7f).toNat = b.toNat - 128 := by omega
        -- the three refusals: truncated, indefinite, more than four octets
        have hcond : ((b :: rest).length < 1 + (b.toNat - 128) ∨ b.toNat - 128 = 0
            ∨ b.toNat - 128 > 4)
              ↔ (rest.length < b.toNat - 128 ∨ b.toNat = 128 ∨ 132 < b.toNat) := by
          simp only [List.length_cons]; omega
        simp only [h, if_false, hnum, hcond]
        by_cases hc : rest.length < b.toNat - 128 ∨ b.toNat = 128 ∨ 132 < b.toNat
        · simp only [hc, if_true]
        · have hoct := derReadOctets_eq t (b :: rest) (b.toNat - 128) 0 0
            (by simp only [List.length_cons]; omega)
          have htake : (rest.take (b.toNat - 128)).length ≤ 4 := by
            rw [List.length_take]; omega
          simp only [hc, if_false, hoct, Run.ok_bind, Nat.add_zero, List.drop_succ_cons,
            List.drop_zero, foldl_shiftIn_of_le t htake]

/-- What `der_read_length` answers is a definite-length field at the head of the input. -/
theorem lengthField_some {data : Bytes} {n k : Nat} (h : lengthField data = some (n, k)) :
    ∃ L s, DefiniteLength 4 L n ∧ L.length = k ∧ data = L ++ s := by
  cases data with
  | nil => cases h
  | cons b rest =>
      have hb : b.toNat < 256 := b.toNat_lt
      simp only [lengthField] at h
      split at h
      · next hshort =>
        cases h
        exact ⟨[b], rest, .short b hshort, rfl, rfl⟩
      · split at h
        · cases h
        · next hlong hc =>
          simp only [Option.some.injEq, Prod.mk.injEq] at h
          obtain ⟨rfl, rfl⟩ := h
          have hlen : (rest.take (b.toNat - 128)).length = b.toNat - 128 := by
            rw [List.length_take]; omega
          refine ⟨b :: rest.take (b.toNat - 128), rest.drop (b.toNat - 128),
            .long b _ (by omega) (List.ne_nil_of_length_pos (by omega)) (by omega), ?_, ?_⟩
          · rw [List.length_cons, hlen]; omega
          · rw [List.cons_append, List.take_append_drop]

/-- A definite-length field with at most four length octets is read, whatever follows. -/
theorem lengthField_append {L : Bytes} {n : Nat} (hL : DefiniteLength 4 L n) (s : Bytes) :
    lengthField (L ++ s) = some (n, L.length) := by
  cases hL with
  | short b hb => simp only [List.cons_append, List.nil_append, lengthField, hb, if_true]; rfl
  | long b bs hb hne hw =>
      have hpos : 0 < bs.length := List.length_pos_of_ne_nil hne
      have hnum : b.toNat - 128 = bs.length := by omega
      have hc : ¬((bs ++ s).length < bs.length ∨ b.toNat = 128 ∨ 132 < b.toNat) := by
        rw [List.length_append]; omega
      rw [List.cons_append, lengthField, if_neg (by omega), hnum, if_neg hc, List.take_left,
        List.length_cons, Nat.add_comm]

/-! ## TLVs

The readers share their arithmetic: `start = 1 + header_len`, `total = start + len`. The first
sum is small; if the second one wraps, it falls below `start`, and the sub-slice
`start..total` panics. So a reader that returns content has added exactly. -/

theorem sums_exact {t : Target} {data c : Bytes} {hdr len start stop : Nat} (hhdr : hdr ≤ 5)
    (hlen : len < 2 ^ 32) (hstart : usizeAdd t 1 hdr = .ok start)
    (hstop : usizeAdd t start len = .ok stop) (hc : slice data start stop = .ok c) :
    start = 1 + hdr ∧ stop = 1 + hdr + len := by
  rw [usizeAdd_small (by omega)] at hstart
  cases hstart
  have hbits := t.two_pow_ge
  have hle := (slice_eq_ok hc).1
  rcases usizeAdd_exact_or_wrap (by omega) (by omega) hstop with hexact | hwrap
  · exact ⟨rfl, hexact⟩
  · -- a wrapped end lies before the start, and the sub-slice would have panicked
    omega

/-- The numbers in a length field read by `der_read_length` are small. -/
theorem lengthField_bounds {data : Bytes} {n k : Nat} (h : lengthField data = some (n, k)) :
    k ≤ 5 ∧ n < 2 ^ 32 := by
  obtain ⟨L, s, hL, rfl, -⟩ := lengthField_some h
  exact ⟨hL.length_le, by simpa using hL.lt (by decide)⟩

/-- The TLV with at most four length octets at the head of `data`: its tag, its content and
its size. -/
def tlvAt : Bytes → Option (UInt8 × Bytes × Nat)
  | [] => none
  | tag :: rest =>
      match lengthField rest with
      | none => none
      | some (n, k) =>
          if (tag :: rest).length < 1 + k + n then none
          else some (tag, ((tag :: rest).take (1 + k + n)).drop (1 + k), 1 + k + n)

theorem tlvAt_some {data c : Bytes} {tag : UInt8} {total : Nat}
    (h : tlvAt data = some (tag, c, total)) :
    ∃ s r, IsTlv 4 tag c s ∧ s.length = total ∧ data = s ++ r := by
  cases data with
  | nil => cases h
  | cons b rest =>
      simp only [tlvAt] at h
      cases hl : lengthField rest with
      | none => simp [hl] at h
      | some nk =>
          obtain ⟨n, k⟩ := nk
          obtain ⟨L, s, hL, rfl, rfl⟩ := lengthField_some hl
          simp only [hl] at h
          split at h
          · cases h
          · next hfit =>
            simp only [Option.some.injEq, Prod.mk.injEq] at h
            obtain ⟨rfl, rfl, rfl⟩ := h
            -- `s` is what follows the length field: `n` octets of content, then the rest
            have hn : n ≤ s.length := by
              simp only [List.length_cons, List.length_append] at hfit; omega
            have hlen : (s.take n).length = n := by rw [List.length_take]; omega
            have hcut : (b :: (L ++ s)).take (1 + L.length + n) = b :: (L ++ s.take n) := by
              rw [show 1 + L.length + n = (L.length + n) + 1 by omega, List.take_succ_cons,
                List.take_length_add_append]
            rw [hcut, show 1 + L.length = L.length + 1 by omega, List.drop_succ_cons,
              List.drop_left]
            refine ⟨b :: (L ++ s.take n), s.drop n, ⟨L, by rwa [hlen], rfl⟩, ?_, ?_⟩
            · simp only [List.length_cons, List.length_append, hlen]; omega
            · rw [List.cons_append, List.append_assoc, List.take_append_drop]

theorem tlvAt_append {tag : UInt8} {c s : Bytes} (h : IsTlv 4 tag c s) (r : Bytes) :
    tlvAt (s ++ r) = some (tag, c, s.length) := by
  obtain ⟨L, hL, rfl⟩ := h
  have hfield := lengthField_append hL (c ++ r)
  have hlen : (tag :: (L ++ c)).length = 1 + L.length + c.length := by
    simp only [List.length_cons, List.length_append]; omega
  have hcut : (tag :: (L ++ (c ++ r))).take (1 + L.length + c.length) = tag :: (L ++ c) := by
    rw [show 1 + L.length + c.length = (L.length + c.length) + 1 by omega, List.take_succ_cons,
      List.take_length_add_append, List.take_left]
  have hge : ¬(tag :: (L ++ (c ++ r))).length < 1 + L.length + c.length := by
    simp only [List.length_cons, List.length_append]; omega
  rw [List.cons_append, List.append_assoc, tlvAt, hfield]
  simp only [hge, if_false, hcut, hlen]
  rw [show 1 + L.length = L.length + 1 by omega, List.drop_succ_cons, List.drop_left]

/-- **What `der_read_tlv` answers**, on any target, is the TLV at the head of the input, with a
size that is a `usize`. -/
theorem derReadTlv_sound {t : Target} {data c : Bytes} {tag : UInt8} {total : Nat}
    (h : derReadTlv t data = .ok (some (tag, c, total))) :
    tlvAt data = some (tag, c, total) ∧ total < 2 ^ t.bits := by
  cases data with
  | nil => cases h
  | cons b rest =>
      simp only [derReadTlv, List.isEmpty_cons, Bool.false_eq_true, if_false, index_cons_zero,
        sliceFrom_cons_one, derReadLength_eq, Run.ok_bind, Run.pure_eq] at h
      cases hl : lengthField rest with
      | none => simp [hl] at h
      | some nk =>
          obtain ⟨n, k⟩ := nk
          simp only [hl] at h
          obtain ⟨start, hstart, h⟩ := Run.bind_eq_ok h
          obtain ⟨stop, hstop, h⟩ := Run.bind_eq_ok h
          split at h
          · cases h
          · next hfit =>
            obtain ⟨c', hc, h⟩ := Run.bind_eq_ok h
            cases h
            have hlt := usizeAdd_lt hstop
            obtain ⟨hk, hn⟩ := lengthField_bounds hl
            obtain ⟨rfl, rfl⟩ := sums_exact hk hn hstart hstop hc
            refine ⟨?_, hlt⟩
            simp only [tlvAt, hl, if_neg hfit, (slice_eq_ok hc).2.2]

theorem derReadTlv_some {t : Target} {data c : Bytes} {tag : UInt8} {total : Nat}
    (h : derReadTlv t data = .ok (some (tag, c, total))) : tlvAt data = some (tag, c, total) :=
  (derReadTlv_sound h).1

/-! ### Headers that fit -/

/-- The header at the head of the data is harmless on `w` bits: tag octet, length field and the
length it says add up to less than `2 ^ w`. -/
def HeaderFits (w : Nat) (data : Bytes) : Prop :=
  ∀ L n s, DefiniteLength 4 L n → data.drop 1 = L ++ s → 1 + L.length + n < 2 ^ w

/-- The header fits if it is one with this tag. -/
def SequenceFits (w : Nat) (tag : UInt8) (data : Bytes) : Prop :=
  data.head? = some tag → HeaderFits w data

theorem headerFits_nil (w : Nat) : HeaderFits w [] := by
  intro L n s hL hcat
  have hpos := hL.length_pos
  have hcount := congrArg List.length hcat
  simp only [List.drop_nil, List.length_nil, List.length_append] at hcount
  omega

theorem headerFits_cons {w : Nat} {b : UInt8} {rest : Bytes} :
    HeaderFits w (b :: rest) ↔
      ∀ n k, lengthField rest = some (n, k) → 1 + k + n < 2 ^ w := by
  constructor
  · intro h n k hfield
    rcases lengthField_some hfield with ⟨L, s, hL, rfl, rfl⟩
    exact h L n s hL rfl
  · intro h L n s hL hcat
    have hrest : rest = L ++ s := hcat
    exact h n L.length (hrest ▸ lengthField_append hL s)

/-- On a target wider than 33 bits every header fits. -/
theorem headerFits_wide {w : Nat} (hw : 34 ≤ w) (data : Bytes) : HeaderFits w data := by
  intro L n s hL _
  have hlength := hL.length_le
  have hn : n < 256 ^ 4 := hL.lt (by decide)
  have hbits : 2 ^ 34 ≤ 2 ^ w := Nat.pow_le_pow_right (by decide) hw
  omega

/-- The header of a TLV fits when the size of the TLV does. -/
theorem headerFits_of_tlvAt {w : Nat} {data c : Bytes} {tag : UInt8} {total : Nat}
    (h : tlvAt data = some (tag, c, total)) (hsize : total < 2 ^ w) : HeaderFits w data := by
  cases data with
  | nil => cases h
  | cons b rest =>
      rw [headerFits_cons]
      intro n k hl
      simp only [tlvAt, hl] at h
      split at h
      · cases h
      · simp only [Option.some.injEq, Prod.mk.injEq] at h
        obtain ⟨-, -, rfl⟩ := h
        exact hsize

/-- A header that fits is added up exactly. -/
theorem sums_fit {t : Target} {n k : Nat} (hfit : 1 + k + n < 2 ^ t.bits) :
    usizeAdd t 1 k = .ok (1 + k) ∧ usizeAdd t (1 + k) n = .ok (1 + k + n) :=
  ⟨usizeAdd_ok (by omega), usizeAdd_ok hfit⟩

/-- What the readers have in common: read the length field behind the tag, add the header up, and go
on with the two sums if the whole is there. -/
def behindHeader {α : Type} (t : Target) (data : Bytes) (next : Nat → Nat → Run (Option α)) :
    Run (Option α) := do
  match ← derReadLength t (← sliceFrom data 1) with
  | none => return none
  | some (len, headerLen) =>
      let start ← usizeAdd t 1 headerLen
      let total ← usizeAdd t start len
      if data.length < total then return none
      next start total

/-- Behind a header that fits, the two sums are the bounds of the content. -/
theorem behindHeader_of_fits {α : Type} {t : Target} {b : UInt8} {rest : Bytes}
    (hfit : HeaderFits t.bits (b :: rest)) (next : Nat → Nat → Run (Option α)) :
    behindHeader t (b :: rest) next =
      match tlvAt (b :: rest) with
      | none => .ok none
      | some (_, c, total) => next (total - c.length) total := by
  simp only [behindHeader, tlvAt, sliceFrom_cons_one, derReadLength_eq, Run.ok_bind, Run.pure_eq]
  cases hl : lengthField rest with
  | none => rfl
  | some nk =>
      obtain ⟨n, k⟩ := nk
      obtain ⟨h1, h2⟩ := sums_fit (headerFits_cons.mp hfit n k hl)
      simp only [h1, h2, Run.ok_bind]
      split
      · rfl
      · next hlen =>
        have hstart : 1 + k + n - (((b :: rest).take (1 + k + n)).drop (1 + k)).length = 1 + k := by
          rw [List.length_drop, List.length_take]
          omega
        simp only [hstart]

/-- Behind a single octet there is no length field. -/
theorem behindHeader_singleton {α : Type} (t : Target) (b : UInt8)
    (next : Nat → Nat → Run (Option α)) : behindHeader t [b] next = .ok none := rfl

/-- The sub-slices that the readers take. -/
theorem slice_of_tlvAt {data c : Bytes} {tag : UInt8} {total : Nat}
    (h : tlvAt data = some (tag, c, total)) :
    slice data (total - c.length) total = .ok c ∧ slice data 0 total = .ok (data.take total) := by
  obtain ⟨s, r, ⟨L, -, rfl⟩, rfl, rfl⟩ := tlvAt_some h
  have hlen : (tag :: (L ++ c)).length = (tag :: L).length + c.length := by
    simp only [List.length_cons, List.length_append]
    omega
  have hle : (tag :: (L ++ c)).length ≤ (tag :: (L ++ c) ++ r).length := by
    rw [List.length_append]
    omega
  constructor
  · rw [slice_ok (by omega) hle, List.take_left, hlen, Nat.add_sub_cancel, ← List.cons_append,
      List.drop_left]
  · rw [slice_ok (Nat.zero_le _) hle, List.drop_zero]

theorem tlvAt_tag {b tag : UInt8} {rest c : Bytes} {total : Nat}
    (h : tlvAt (b :: rest) = some (tag, c, total)) : b = tag := by
  obtain ⟨s, r, ⟨L, -, rfl⟩, -, hcat⟩ := tlvAt_some h
  exact (List.cons.inj hcat).1

theorem derReadTlv_cons (t : Target) (b : UInt8) (rest : Bytes) :
    derReadTlv t (b :: rest) = behindHeader t (b :: rest) fun start total => do
      return some (b, ← slice (b :: rest) start total, total) := rfl

/-- **`der_read_tlv` answers** with the TLV at the head of the input when the header fits. -/
theorem derReadTlv_of_fits {t : Target} {data : Bytes} (hfit : HeaderFits t.bits data) :
    derReadTlv t data = .ok (tlvAt data) := by
  cases data with
  | nil => rfl
  | cons b rest =>
      rw [derReadTlv_cons, behindHeader_of_fits hfit]
      cases h : tlvAt (b :: rest) with
      | none => rfl
      | some x =>
          obtain ⟨tag, c, total⟩ := x
          obtain rfl := tlvAt_tag h
          simp only [(slice_of_tlvAt h).1, Run.ok_bind, Run.pure_eq]

theorem derReadTlv_of_tlvAt {t : Target} {data c : Bytes} {tag : UInt8} {total : Nat}
    (h : tlvAt data = some (tag, c, total)) (hsize : total < 2 ^ t.bits) :
    derReadTlv t data = .ok (some (tag, c, total)) := by
  rw [derReadTlv_of_fits (headerFits_of_tlvAt h hsize), h]

/-- **On a wide target `der_read_tlv` never panics.** -/
theorem derReadTlv_wide {t : Target} (ht : 34 ≤ t.bits) (data : Bytes) :
    derReadTlv t data = .ok (tlvAt data) :=
  derReadTlv_of_fits (headerFits_wide ht data)

/-- What is done with the answer can be done behind the header. -/
theorem behindHeader_map {α β : Type} (f : α → β) (t : Target) (data : Bytes)
    (next : Nat → Nat → Run (Option α)) :
    (do
      let o ← behindHeader t data next
      return o.map f) =
    behindHeader t data fun start total => do
      let o ← next start total
      return o.map f := by
  simp only [behindHeader, derReadLength_eq]
  cases sliceFrom data 1 with
  | error p => rfl
  | ok rest =>
      simp only [Run.ok_bind]
      cases lengthField rest with
      | none => rfl
      | some nk =>
          obtain ⟨n, k⟩ := nk
          simp only
          cases usizeAdd t 1 k with
          | error p => rfl
          | ok start =>
              simp only [Run.ok_bind]
              cases usizeAdd t start n with
              | error p => rfl
              | ok total =>
                  simp only [Run.ok_bind]
                  split <;> rfl

theorem derInner_cons (t : Target) (b : UInt8) (rest : Bytes) (tag : UInt8) :
    derInner t (b :: rest) tag =
      if b = tag then behindHeader t (b :: rest) fun start stop => do
        return some (← slice (b :: rest) start stop)
      else .ok none := by
  rw [derInner, index_cons_zero, Run.ok_bind, ite_not]
  rfl

/-- `der_inner` is `der_read_tlv` behind a test of the tag. -/
theorem derInner_eq (t : Target) (data : Bytes) (tag : UInt8) :
    derInner t data tag =
      if data.head? = some tag then do
        let o ← derReadTlv t data
        return o.map (·.2.1)
      else .ok none := by
  cases data with
  | nil => rfl
  | cons b rest =>
      rw [derInner_cons, derReadTlv_cons, behindHeader_map]
      simp only [List.head?_cons, Option.some.injEq]
      congr 2
      funext start stop
      cases slice (b :: rest) start stop <;> rfl

/-- `der_inner` returns when the header fits. -/
theorem derInner_of_fits {t : Target} {data : Bytes} {tag : UInt8}
    (hfit : SequenceFits t.bits tag data) : Run.Returns (derInner t data tag) := by
  rw [derInner_eq]
  by_cases htag : data.head? = some tag
  · rw [if_pos htag, derReadTlv_of_fits (hfit htag)]
    exact Run.returns_ok _
  · rw [if_neg htag]
    exact Run.returns_ok _

/-- What `der_inner` answers, on any target: the content of the TLV at the head. -/
theorem derInner_some {t : Target} {data c : Bytes} {tag : UInt8}
    (h : derInner t data tag = .ok (some c)) :
    ∃ s r, IsTlv 4 tag c s ∧ data = s ++ r := by
  rw [derInner_eq] at h
  split at h
  · next htag =>
    obtain ⟨o, ho, h⟩ := Run.bind_eq_ok h
    cases o with
    | none => cases h
    | some x =>
        obtain ⟨tag', c', total⟩ := x
        cases h
        obtain ⟨s, r, hs, -, rfl⟩ := tlvAt_some (derReadTlv_some ho)
        obtain ⟨L, hL, rfl⟩ := hs
        obtain rfl : tag' = tag := by simpa using htag
        exact ⟨_, r, ⟨L, hL, rfl⟩, rfl⟩
  · cases h

/-- On any target the content that `der_inner` answers has a `usize` length. -/
theorem derInner_length_lt {t : Target} {data c : Bytes} {tag : UInt8}
    (h : derInner t data tag = .ok (some c)) : c.length < 2 ^ t.bits := by
  obtain ⟨s, r, ⟨L, hL, -⟩, -⟩ := derInner_some h
  have hlt := hL.lt (by decide)
  have hbits := t.two_pow_ge
  omega

/-- `der_inner` reads a TLV whose size has 32 bits on every target. -/
theorem derInner_append {t : Target} {tag : UInt8} {c s : Bytes} (h : IsTlv 4 tag c s)
    (hsize : s.length < 2 ^ 32) (r : Bytes) : derInner t (s ++ r) tag = .ok (some c) := by
  have hhead : (s ++ r).head? = some tag := by
    obtain ⟨L, -, rfl⟩ := h
    rfl
  have hbits := t.two_pow_ge
  rw [derInner_eq, if_pos hhead, derReadTlv_of_tlvAt (tlvAt_append h r) (by omega)]
  rfl

/-! ## The signed bytes -/

/-- The TLV at the head of `inner`, header included, if it is a SEQUENCE. -/
def headSequence (inner : Bytes) : Option Bytes :=
  match tlvAt inner with
  | some (tag, _, total) => if tag = 0x30 then some (inner.take total) else none
  | none => none

/-- The outermost SEQUENCE's first element, if that is a SEQUENCE too. -/
def tbsField (certDer : Bytes) : Option Bytes :=
  match tlvAt certDer with
  | some (tag, inner, _) => if tag = 0x30 then headSequence inner else none
  | none => none

theorem firstSequence_cons (t : Target) (b : UInt8) (rest : Bytes) :
    firstSequence t (b :: rest) =
      if b = 0x30 then behindHeader t (b :: rest) fun _ total => do
        return some (← slice (b :: rest) 0 total)
      else .ok none := by
  cases rest with
  | nil =>
      rw [behindHeader_singleton, ite_self]
      rfl
  | cons b' rest =>
      have hlen : ¬ (b :: b' :: rest).length < 2 := by simp
      rw [firstSequence, if_neg hlen, index_cons_zero, Run.ok_bind, ite_not]
      rfl

theorem extractTbsDer_cons (t : Target) (b : UInt8) (rest : Bytes) :
    extractTbsDer t (b :: rest) =
      if b = 0x30 then behindHeader t (b :: rest) fun start stop => do
        firstSequence t (← slice (b :: rest) start stop)
      else .ok none := by
  cases rest with
  | nil =>
      rw [behindHeader_singleton, ite_self]
      rfl
  | cons b' rest =>
      have hlen : ¬ (b :: b' :: rest).length < 2 := by simp
      rw [extractTbsDer, if_neg hlen, index_cons_zero, Run.ok_bind, ite_not]
      rfl

theorem firstSequence_of_fits {t : Target} {inner : Bytes}
    (hfit : SequenceFits t.bits 0x30 inner) :
    firstSequence t inner = .ok (headSequence inner) := by
  cases inner with
  | nil => rfl
  | cons b rest =>
      rw [firstSequence_cons]
      by_cases hb : b = 0x30
      · subst hb
        rw [if_pos rfl, behindHeader_of_fits (hfit rfl), headSequence]
        cases h : tlvAt (0x30 :: rest) with
        | none => rfl
        | some x =>
            obtain ⟨tag, c, total⟩ := x
            obtain rfl := tlvAt_tag h
            simp only [(slice_of_tlvAt h).2, Run.ok_bind, Run.pure_eq, if_true]
      · rw [if_neg hb, headSequence]
        cases h : tlvAt (b :: rest) with
        | none => rfl
        | some x =>
            obtain ⟨tag, c, total⟩ := x
            simp only [← tlvAt_tag h, hb, if_false]

/-- Behind an outer header that fits, `extract_tbs_der` goes on with the content. -/
theorem extractTbsDer_of_outer {t : Target} {certDer : Bytes}
    (hfit : SequenceFits t.bits 0x30 certDer) :
    extractTbsDer t certDer =
      match tlvAt certDer with
      | some (tag, inner, _) => if tag = 0x30 then firstSequence t inner else .ok none
      | none => .ok none := by
  cases certDer with
  | nil => rfl
  | cons b rest =>
      rw [extractTbsDer_cons]
      by_cases hb : b = 0x30
      · subst hb
        rw [if_pos rfl, behindHeader_of_fits (hfit rfl)]
        cases h : tlvAt (0x30 :: rest) with
        | none => rfl
        | some x =>
            obtain ⟨tag, inner, total⟩ := x
            obtain rfl := tlvAt_tag h
            simp only [(slice_of_tlvAt h).1, Run.ok_bind, if_true]
      · rw [if_neg hb]
        cases h : tlvAt (b :: rest) with
        | none => rfl
        | some x =>
            obtain ⟨tag, inner, total⟩ := x
            simp only [← tlvAt_tag h, hb, if_false]

/-- **`extract_tbs_der` answers** with the first element when both headers fit. -/
theorem extractTbsDer_of_fits {t : Target} {certDer : Bytes}
    (houter : SequenceFits t.bits 0x30 certDer)
    (hinner : ∀ inner total, tlvAt certDer = some (0x30, inner, total) →
      SequenceFits t.bits 0x30 inner) :
    extractTbsDer t certDer = .ok (tbsField certDer) := by
  rw [extractTbsDer_of_outer houter, tbsField]
  cases h : tlvAt certDer with
  | none => rfl
  | some x =>
      obtain ⟨tag, inner, total⟩ := x
      by_cases htag : tag = 0x30
      · subst htag
        simp only [if_true]
        exact firstSequence_of_fits (hinner inner total h)
      · simp only [htag, if_false]

/-- **On a wide target `extract_tbs_der` never panics.** -/
theorem extractTbsDer_wide {t : Target} (ht : 34 ≤ t.bits) (certDer : Bytes) :
    extractTbsDer t certDer = .ok (tbsField certDer) :=
  extractTbsDer_of_fits (fun _ => headerFits_wide ht certDer)
    fun inner _ _ _ => headerFits_wide ht inner

theorem tbsField_append {c s r outer : Bytes} (hs : IsTlv 4 0x30 c s)
    (ho : IsTlv 4 0x30 (s ++ r) outer) (junk : Bytes) : tbsField (outer ++ junk) = some s := by
  simp only [tbsField, headSequence, tlvAt_append ho junk, tlvAt_append hs r, if_true,
    List.take_left]

theorem tbsField_some {certDer s : Bytes} (h : tbsField certDer = some s) :
    ∃ c r outer junk, IsTlv 4 0x30 c s ∧ IsTlv 4 0x30 (s ++ r) outer ∧
      certDer = outer ++ junk := by
  unfold tbsField at h
  split at h
  · next tag inner total htlv =>
    split at h
    · next htag =>
      subst htag
      unfold headSequence at h
      split at h
      · next tag' c total' htlv' =>
        split at h
        · next htag' =>
          subst htag'
          obtain ⟨outer, junk, houter, -, rfl⟩ := tlvAt_some htlv
          obtain ⟨s', r, hs, rfl, rfl⟩ := tlvAt_some htlv'
          rw [List.take_left] at h
          obtain rfl : s' = s := by simpa using h
          exact ⟨c, r, outer, junk, hs, houter, rfl⟩
        · cases h
      · cases h
    · cases h
  · cases h

end ProvenoOracle
