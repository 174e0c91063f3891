import ProvenoOracle.Tls.DerReader

/-! # The lengths that `der_read_length` accepts

Every DER length below `2 ^ 32` is accepted, and with it the longer encodings of the same length
with up to four octets: the reader does not ask for the shortest one. So a length has one accepted
encoding of each size, the DER encoding the shortest of them. Everything else is refused: no octet
at all, the indefinite form, more than four length octets, fewer octets than announced
(`Refused`).
-/

set_option autoImplicit false

namespace ProvenoOracle

open Codec

/-- The slice is empty, or its lead octet announces no length octets (the indefinite form), more
than four of them, or more than follow. -/
def Refused (data : Bytes) : Prop :=
  data = [] ∨ ∃ m bs, data = UInt8.ofNat (0x80 + m) :: bs ∧ m < 128 ∧
    (m = 0 ∨ 4 < m ∨ bs.length < m)

/-- `L` encodes the length `n`: the DER encoding, or a longer one with at most four length
octets. -/
def EncodesLength (n : Nat) (L : Bytes) : Prop :=
  L = derLen n ∨ ∃ m ≤ 4, (derLen n).length < 1 + m ∧ L = longLength m n

variable {t : Target}

theorem encodesLength_iff {n : Nat} {L : Bytes} :
    DefiniteLength 4 L n ↔ n < 2 ^ 32 ∧ EncodesLength n L := by
  constructor
  · intro hL
    have hn : n < 256 ^ 4 := hL.lt (by decide)
    exact ⟨hn, (definiteLength_iff (by decide) hn).mp hL⟩
  · rintro ⟨hn, hL⟩
    exact (definiteLength_iff (by decide) hn).mpr hL

/-- What is accepted is an encoded length at the head of the slice. -/
theorem derReadLength_eq_some_iff {data : Bytes} {n k : Nat} :
    derReadLength t data = .ok (some (n, k)) ↔
      n < 2 ^ 32 ∧ k ≤ data.length ∧ EncodesLength n (data.take k) := by
  rw [derReadLength_eq, Except.ok.injEq]
  constructor
  · intro h
    obtain ⟨L, s, hL, rfl, rfl⟩ := lengthField_some h
    obtain ⟨hn, hL⟩ := encodesLength_iff.mp hL
    refine ⟨hn, ?_, ?_⟩
    · rw [List.length_append]
      omega
    · rwa [List.take_left]
  · rintro ⟨hn, hk, hL⟩
    have hfield := lengthField_append (encodesLength_iff.mpr ⟨hn, hL⟩) (data.drop k)
    rwa [List.take_append_drop, List.length_take_of_le hk] at hfield

theorem derReadLength_eq_none_iff {data : Bytes} :
    derReadLength t data = .ok none ↔ Refused data := by
  rw [derReadLength_eq, Except.ok.injEq]
  cases data with
  | nil => simp [lengthField, Refused]
  | cons b rest =>
      have hb : b.toNat < 256 := b.toNat_lt
      have hlead : ∀ m < 128, b = UInt8.ofNat (0x80 + m) ↔ b.toNat = 128 + m := by
        intro m hm
        rw [← UInt8.toNat_inj, UInt8.toNat_ofNat_of_lt' (show 0x80 + m < 256 by omega)]
      simp only [lengthField, Refused, reduceCtorEq, false_or, List.cons.injEq]
      constructor
      · intro h
        have hlong : ¬ b.toNat < 128 := by
          intro hshort
          rw [if_pos hshort] at h
          cases h
        rw [if_neg hlong] at h
        split at h
        · next hc =>
          refine ⟨b.toNat - 128, rest, ⟨(hlead _ (by omega)).mpr (by omega), rfl⟩, by omega, ?_⟩
          omega
        · cases h
      · rintro ⟨m, bs, ⟨hm, rfl⟩, hlt, hc⟩
        rw [hlead m hlt] at hm
        rw [if_neg (by omega), if_pos (by omega)]

/-- **The lengths that `der_read_length` accepts**, on every target: every DER length below `2 ^ 32`
whatever follows it; of the encodings of a length one for each size from the DER encoding's up to
five octets; and nothing else. -/
theorem length_encodings_exact (t : Target) :
    (∀ n < 2 ^ 32, ∀ s, derReadLength t (derLen n ++ s) = .ok (some (n, (derLen n).length))) ∧
    (∀ data n k, derReadLength t data = .ok (some (n, k)) ↔
      n < 2 ^ 32 ∧ k ≤ data.length ∧ EncodesLength n (data.take k)) ∧
    ∀ data, derReadLength t data = .ok none ↔ Refused data := by
  refine ⟨?_, ?_, ?_⟩
  · intro n hn s
    have hfield : DefiniteLength 4 (derLen n) n := encodesLength_iff.mpr ⟨hn, Or.inl rfl⟩
    rw [derReadLength_eq, lengthField_append hfield]
  · intro data n k
    exact derReadLength_eq_some_iff
  · intro data
    exact derReadLength_eq_none_iff

/-- Not only the DER encodings are accepted: `81 05` is read as five, whose DER encoding is
`05`. -/
theorem length_encodings_not_minimal :
    (¬ ∀ data n k, derReadLength .host64 data = .ok (some (n, k)) →
      n < 2 ^ 32 ∧ data.take k = derLen n) ∧
    derReadLength .host64 [0x81, 0x05] = .ok (some (5, 2)) ∧ derLen 5 = [0x05] := by
  have hread : derReadLength .host64 [0x81, 0x05] = .ok (some (5, 2)) := by decide
  refine ⟨?_, hread, rfl⟩
  intro h
  have hminimal := (h [0x81, 0x05] 5 2 hread).2
  cases hminimal

end ProvenoOracle
