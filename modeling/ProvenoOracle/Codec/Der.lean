import ProvenoOracle.Codec.SelfDelimiting

/-! # Definite lengths and TLVs

The framing layer of BER and DER. A *TLV* is a tag octet, a length field and that many
content octets. `DefiniteLength w L n` says that `L` is a definite-length field for `n` with at
most `w` length octets (BER: any number of leading zero octets is allowed), `IsTlv w tag c s`
that `s` is one complete TLV with content `c`; `derLen` and `tlv` are the DER encoders, which
use the shortest form. Both relations are functional on prefixes: a byte string starts with at
most one length field and at most one TLV (`DefiniteLength.unique`, `IsTlv.unique`). The fields
for `n` are `derLen n` and one longer field for each larger number of length octets
(`definiteLength_iff`).

`LaxLength w L n` is what a reader takes for a length field that neither asks for a length octet
nor limits their number, and keeps what it reads in a word of `w` bits.
-/

set_option autoImplicit false

namespace Codec

/-! ## Length fields -/

/-- `L` is a definite-length field saying `n`, with at most `w` octets after a long-form
lead octet. -/
inductive DefiniteLength (w : Nat) : List UInt8 → Nat → Prop where
  | short (b : UInt8) (hb : b.toNat < 128) : DefiniteLength w [b] b.toNat
  | long (b : UInt8) (bs : List UInt8) (hb : b.toNat = 128 + bs.length) (hne : bs ≠ [])
      (hw : bs.length ≤ w) : DefiniteLength w (b :: bs) (ofBeBytes bs)

/-- `L` is a length field saying `n` to a reader that takes any number of length octets, none
included, and keeps the `w` low bits of the number. -/
inductive LaxLength (w : Nat) : List UInt8 → Nat → Prop where
  | short (b : UInt8) (hb : b.toNat < 128) : LaxLength w [b] b.toNat
  | long (b : UInt8) (bs : List UInt8) (hb : b.toNat = 128 + bs.length) :
      LaxLength w (b :: bs) (ofBeBytes bs % 2 ^ w)

/-- The DER length field of `n`: one octet below 128, else the shortest long form. -/
def derLen (n : Nat) : List UInt8 :=
  if n < 128 then [UInt8.ofNat n]
  else UInt8.ofNat (128 + byteCount n) :: toBeBytes (byteCount n) n

/-- The long form with `m` length octets, zeros in front included. -/
def longLength (m n : Nat) : List UInt8 := UInt8.ofNat (128 + m) :: toBeBytes m n

theorem DefiniteLength.length_pos {w n : Nat} {L : List UInt8} (h : DefiniteLength w L n) :
    0 < L.length := by
  cases h <;> simp

theorem DefiniteLength.length_le {w n : Nat} {L : List UInt8} (h : DefiniteLength w L n) :
    L.length ≤ 1 + w := by
  cases h with
  | short b hb => simp
  | long b bs hb hne hw => simp only [List.length_cons]; omega

theorem DefiniteLength.lt {w n : Nat} {L : List UInt8} (hw : 1 ≤ w) (h : DefiniteLength w L n) :
    n < 256 ^ w := by
  cases h with
  | short b hb =>
      have h256 : 256 ^ 1 ≤ 256 ^ w := Nat.pow_le_pow_right (by decide) hw
      omega
  | long b bs hb hne hw' =>
      exact Nat.lt_of_lt_of_le (ofBeBytes_lt bs) (Nat.pow_le_pow_right (by decide) hw')

theorem LaxLength.length_le {w n : Nat} {L : List UInt8} (h : LaxLength w L n) :
    L.length ≤ 128 := by
  cases h with
  | short b hb => simp
  | long b bs hb =>
      have hb' : b.toNat < 256 := b.toNat_lt
      simp only [List.length_cons]
      omega

theorem LaxLength.lt {w n : Nat} {L : List UInt8} (hw : 7 ≤ w) (h : LaxLength w L n) :
    n < 2 ^ w := by
  cases h with
  | short b hb =>
      have h128 : 2 ^ 7 ≤ 2 ^ w := Nat.pow_le_pow_right (by decide) hw
      omega
  | long b bs hb => exact Nat.mod_lt _ (Nat.two_pow_pos w)

/-- A definite-length field is read as it is when the word has room for its length octets. -/
theorem DefiniteLength.lax {w bits n : Nat} {L : List UInt8} (h : DefiniteLength w L n)
    (hbits : 8 * w ≤ bits) : LaxLength bits L n := by
  cases h with
  | short b hb => exact .short b hb
  | long b bs hb hne hw =>
      have hlt : ofBeBytes bs < 2 ^ bits := by
        calc ofBeBytes bs < 256 ^ bs.length := ofBeBytes_lt bs
          _ ≤ 256 ^ w := Nat.pow_le_pow_right (by decide) hw
          _ = 2 ^ (8 * w) := by rw [pow_mul]; rfl
          _ ≤ 2 ^ bits := Nat.pow_le_pow_right (by decide) hbits
      have hfield := LaxLength.long (w := bits) b bs hb
      rwa [Nat.mod_eq_of_lt hlt] at hfield

/-- A byte string starts with a length field to a lax reader unless it ends inside of it. -/
theorem LaxLength.exists_or_cut (w : Nat) (b : UInt8) (rest : List UInt8) :
    (∃ L n s, LaxLength w L n ∧ b :: rest = L ++ s) ∨ 128 + rest.length < b.toNat := by
  by_cases hshort : b.toNat < 128
  · exact Or.inl ⟨[b], _, rest, .short b hshort, rfl⟩
  · by_cases hcut : 128 + rest.length < b.toNat
    · exact Or.inr hcut
    · have htake : (rest.take (b.toNat - 128)).length = b.toNat - 128 := by
        rw [List.length_take]
        omega
      refine Or.inl ⟨b :: rest.take (b.toNat - 128), _, rest.drop (b.toNat - 128),
        .long b _ (by omega), ?_⟩
      rw [List.cons_append, List.take_append_drop]

/-- A byte string starts with at most one length field, also to a lax reader. -/
theorem LaxLength.unique {w n m : Nat} {L M s t : List UInt8} (hL : LaxLength w L n)
    (hM : LaxLength w M m) (h : L ++ s = M ++ t) : L = M ∧ n = m ∧ s = t := by
  cases hL with
  | short b hb =>
      cases hM with
      | short c hc =>
          obtain ⟨rfl, hst⟩ : b = c ∧ s = t := by simpa using h
          exact ⟨rfl, rfl, hst⟩
      | long c cs hc =>
          -- the lead octet is below 128 in one field and not in the other
          obtain ⟨rfl, -⟩ : b = c ∧ s = cs ++ t := by simpa using h
          omega
  | long b bs hb =>
      cases hM with
      | short c hc =>
          obtain ⟨rfl, -⟩ : b = c ∧ bs ++ s = t := by simpa using h
          omega
      | long c cs hc =>
          -- the same lead octet announces equally many length octets
          obtain ⟨rfl, h'⟩ : b = c ∧ bs ++ s = cs ++ t := by simpa using h
          rcases List.append_inj h' (by omega) with ⟨rfl, hst⟩
          exact ⟨rfl, rfl, hst⟩

theorem DefiniteLength.unique {w n m : Nat} {L M s t : List UInt8} (hL : DefiniteLength w L n)
    (hM : DefiniteLength w M m) (h : L ++ s = M ++ t) : L = M ∧ n = m ∧ s = t :=
  (hL.lax (Nat.le_refl _)).unique (hM.lax (Nat.le_refl _)) h

@[simp] theorem longLength_length (m n : Nat) : (longLength m n).length = 1 + m := by
  rw [longLength, List.length_cons, toBeBytes_length, Nat.add_comm]

theorem definiteLength_longLength {w m n : Nat} (hpos : 0 < m) (hm : m ≤ w) (hw : w < 127)
    (hn : n < 256 ^ m) : DefiniteLength w (longLength m n) n := by
  have hlead : (UInt8.ofNat (128 + m)).toNat = 128 + m :=
    UInt8.toNat_ofNat_of_lt' (show 128 + m < 256 by omega)
  have hlong := DefiniteLength.long (w := w) (UInt8.ofNat (128 + m)) (toBeBytes m n)
    (by rw [hlead, toBeBytes_length])
    (List.ne_nil_of_length_pos (by rw [toBeBytes_length]; exact hpos))
    (by rw [toBeBytes_length]; exact hm)
  rwa [ofBeBytes_toBeBytes_of_lt hn] at hlong

theorem derLen_short {n : Nat} (hn : n < 128) : derLen n = [UInt8.ofNat n] := if_pos hn

theorem derLen_long {n : Nat} (hn : ¬ n < 128) : derLen n = longLength (byteCount n) n :=
  if_neg hn

/-- The DER length field is a definite-length field. -/
theorem definiteLength_derLen {w n : Nat} (hn : n < 256 ^ w) (hw : w < 127) :
    DefiniteLength w (derLen n) n := by
  by_cases hshort : n < 128
  · have hnat : (UInt8.ofNat n).toNat = n :=
      UInt8.toNat_ofNat_of_lt' (show n < 256 by omega)
    have hfield := DefiniteLength.short (w := w) (UInt8.ofNat n) (by omega)
    rw [derLen_short hshort]
    rwa [hnat] at hfield
  · rw [derLen_long hshort]
    exact definiteLength_longLength (byteCount_pos (by omega)) (byteCount_le_iff.mpr hn) hw
      (lt_pow_byteCount n)

/-- A long form that is longer than the DER field has room for the number. -/
theorem room_of_derLen_lt {m n : Nat} (h : (derLen n).length < 1 + m) :
    0 < m ∧ n < 256 ^ m := by
  by_cases hshort : n < 128
  · rw [derLen_short hshort, List.length_singleton] at h
    have hpow : 256 ^ 1 ≤ 256 ^ m := Nat.pow_le_pow_right (by decide) (by omega)
    omega
  · rw [derLen_long hshort, longLength_length] at h
    exact ⟨by omega, byteCount_le_iff.mp (by omega)⟩

/-- **The definite-length fields for `n`**: the DER field, and a longer one for each larger number
of length octets. -/
theorem definiteLength_iff {w n : Nat} {L : List UInt8} (hw : w < 127) (hn : n < 256 ^ w) :
    DefiniteLength w L n ↔
      L = derLen n ∨ ∃ m ≤ w, (derLen n).length < 1 + m ∧ L = longLength m n := by
  constructor
  · intro h
    cases h with
    | short b hb =>
        left
        rw [derLen_short hb, UInt8.ofNat_toNat]
    | long b bs hb hne hbs =>
        have hpos : 0 < bs.length := List.length_pos_of_ne_nil hne
        have hfield : b :: bs = longLength bs.length (ofBeBytes bs) := by
          rw [longLength, toBeBytes_ofBeBytes rfl, ← hb, UInt8.ofNat_toNat]
        by_cases hshort : ofBeBytes bs < 128
        · -- one octet would have been enough
          right
          refine ⟨bs.length, hbs, ?_, hfield⟩
          rw [derLen_short hshort, List.length_singleton]
          omega
        · have hcount : byteCount (ofBeBytes bs) ≤ bs.length :=
            byteCount_le_iff.mpr (ofBeBytes_lt bs)
          rcases Nat.lt_or_eq_of_le hcount with hlt | heq
          · right
            refine ⟨bs.length, hbs, ?_, hfield⟩
            rw [derLen_long hshort, longLength_length]
            omega
          · left
            rw [derLen_long hshort, heq, hfield]
  · rintro (rfl | ⟨m, hm, hlonger, rfl⟩)
    · exact definiteLength_derLen hn hw
    · obtain ⟨hpos, hroom⟩ := room_of_derLen_lt hlonger
      exact definiteLength_longLength hpos hm hw hroom

/-! ## TLVs -/

/-- `s` is exactly one TLV with tag `tag` and content `c`. -/
def IsTlv (w : Nat) (tag : UInt8) (c s : List UInt8) : Prop :=
  ∃ L, DefiniteLength w L c.length ∧ s = tag :: (L ++ c)

/-- The DER encoding of a TLV. -/
def tlv (tag : UInt8) (c : List UInt8) : List UInt8 := tag :: (derLen c.length ++ c)

/-- `s` is one TLV with tag `tag` and content `c` to a lax reader. -/
def LaxTlv (w : Nat) (tag : UInt8) (c s : List UInt8) : Prop :=
  ∃ L, LaxLength w L c.length ∧ s = tag :: (L ++ c)

theorem IsTlv.lax {w bits : Nat} {tag : UInt8} {c s : List UInt8} (h : IsTlv w tag c s)
    (hbits : 8 * w ≤ bits) : LaxTlv bits tag c s := by
  obtain ⟨L, hL, rfl⟩ := h
  exact ⟨L, hL.lax hbits, rfl⟩

theorem isTlv_tlv {w : Nat} (tag : UInt8) {c : List UInt8} (hc : c.length < 256 ^ w)
    (hw : w < 127) : IsTlv w tag c (tlv tag c) :=
  ⟨derLen c.length, definiteLength_derLen hc hw, rfl⟩

theorem IsTlv.length_ge {w : Nat} {tag : UInt8} {c s : List UInt8} (h : IsTlv w tag c s) :
    2 + c.length ≤ s.length := by
  rcases h with ⟨L, hL, rfl⟩
  have hpos : 0 < L.length := hL.length_pos
  calc 2 + c.length ≤ L.length + c.length + 1 := by omega
    _ = (tag :: (L ++ c)).length := by rw [List.length_cons, List.length_append]

/-- The header of a DER TLV with 32-bit content takes at most six octets. -/
theorem tlv_length_le (tag : UInt8) {c : List UInt8} (hc : c.length < 2 ^ 32) :
    (tlv tag c).length ≤ 6 + c.length := by
  have hfield : DefiniteLength 4 (derLen c.length) c.length :=
    definiteLength_derLen (by simpa using hc) (by decide)
  have hlen : (derLen c.length).length ≤ 1 + 4 := hfield.length_le
  calc (tlv tag c).length = (derLen c.length).length + c.length + 1 := by
        rw [tlv, List.length_cons, List.length_append]
    _ ≤ 6 + c.length := by omega

/-- A byte string starts with at most one TLV, also to a lax reader. -/
theorem LaxTlv.unique {w : Nat} {tag tag' : UInt8} {c c' s s' r r' : List UInt8}
    (h : LaxTlv w tag c s) (h' : LaxTlv w tag' c' s') (hr : s ++ r = s' ++ r') :
    tag = tag' ∧ c = c' ∧ s = s' ∧ r = r' := by
  rcases h with ⟨L, hL, rfl⟩
  rcases h' with ⟨M, hM, rfl⟩
  obtain ⟨rfl, hr'⟩ : tag = tag' ∧ L ++ (c ++ r) = M ++ (c' ++ r') := by simpa using hr
  rcases hL.unique hM hr' with ⟨rfl, hlen, hcr⟩
  rcases List.append_inj hcr hlen with ⟨rfl, rfl⟩
  exact ⟨rfl, rfl, rfl, rfl⟩

theorem IsTlv.unique {w : Nat} {tag tag' : UInt8} {c c' s s' r r' : List UInt8}
    (h : IsTlv w tag c s) (h' : IsTlv w tag' c' s') (hr : s ++ r = s' ++ r') :
    tag = tag' ∧ c = c' ∧ s = s' ∧ r = r' :=
  (h.lax (Nat.le_refl _)).unique (h'.lax (Nat.le_refl _)) hr

end Codec
