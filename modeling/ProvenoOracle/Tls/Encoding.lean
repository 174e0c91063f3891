import ProvenoOracle.Codec.SelfDelimiting
import ProvenoOracle.Rust.Str
import ProvenoOracle.Tls.Attestation

/-! # The opaque attestation blob

`TlsAttestationRecord::to_attestation_bytes` is a flag, a fixed-width timestamp, a
length-prefixed hostname and a counted list of length-prefixed certificates. As long as the
lengths fit their 32-bit prefixes it is a self-delimiting encoding, by the rules of
`Codec/SelfDelimiting.lean`: one rule for each field, in the order of the format.
-/

set_option autoImplicit false

namespace ProvenoOracle

open Codec

/-! ## The format -/

/-- `(len as u32).to_be_bytes()` -/
def u32BeBytes (len : Nat) : Bytes := toBeBytes 4 (len % 2 ^ 32)

/-- `u8::from(bool)` -/
def boolByte (b : Bool) : UInt8 := if b then 1 else 0

/-- A byte string behind its 32-bit length. -/
def lengthPrefixed (c : Bytes) : Bytes := u32BeBytes c.length ++ c

/-- `TlsAttestationRecord::to_attestation_bytes` -/
def toAttestationBytes (r : TlsAttestationRecord) : Bytes :=
  [boolByte r.p256Verified]
    ++ toBeBytes 8 r.certNotAfter.toNat
    ++ lengthPrefixed (strBytes r.hostname)
    ++ u32BeBytes r.certChainDer.length
    ++ r.certChainDer.flatMap lengthPrefixed

/-- The hostname, the chain and every certificate have lengths of 32 bits. -/
structure TlsAttestationRecord.FitsU32 (r : TlsAttestationRecord) : Prop where
  hostname : (strBytes r.hostname).length < 2 ^ 32
  chain : r.certChainDer.length < 2 ^ 32
  certs : ∀ c ∈ r.certChainDer, c.length < 2 ^ 32

/-! ## Its fields -/

theorem selfDelimiting_flag :
    SelfDelimiting (fun _ => True) (fun b : Bool => [boolByte b]) := by
  refine .of_length 1 (fun _ => rfl) fun b b' _ _ h => ?_
  cases b <;> cases b' <;> simp [boolByte] at h ⊢

theorem selfDelimiting_timestamp :
    SelfDelimiting (fun _ => True) (fun v : UInt64 => toBeBytes 8 v.toNat) := by
  have hinj : Function.Injective UInt64.toNat := fun _ _ => UInt64.toNat_inj.mp
  have hwidth := (selfDelimiting_toBeBytes 8).comap hinj
  exact hwidth.mono fun v _ => by simpa using v.toNat_lt

theorem selfDelimiting_u32BeBytes : SelfDelimiting (fun n => n < 2 ^ 32) u32BeBytes := by
  intro n m s s' hn hm h
  rw [u32BeBytes, u32BeBytes, Nat.mod_eq_of_lt hn, Nat.mod_eq_of_lt hm] at h
  exact selfDelimiting_toBeBytes 4 n m s s' (by simpa using hn) (by simpa using hm) h

theorem selfDelimiting_lengthPrefixed :
    SelfDelimiting (fun c => c.length < 2 ^ 32) lengthPrefixed :=
  selfDelimiting_u32BeBytes.lengthPrefixed

theorem selfDelimiting_hostname :
    SelfDelimiting (fun s => (strBytes s).length < 2 ^ 32) (fun s => lengthPrefixed (strBytes s)) :=
  selfDelimiting_lengthPrefixed.comap strBytes_injective

theorem selfDelimiting_chain :
    SelfDelimiting (fun cs => cs.length < 2 ^ 32 ∧ ∀ c ∈ cs, c.length < 2 ^ 32)
      (fun cs : List Bytes => u32BeBytes cs.length ++ cs.flatMap lengthPrefixed) :=
  selfDelimiting_u32BeBytes.counted selfDelimiting_lengthPrefixed

/-! ## The whole record -/

/-- The fields of a record in the order of the format. -/
def recordFields (r : TlsAttestationRecord) : Bool × UInt64 × String × List Bytes :=
  (r.p256Verified, r.certNotAfter, r.hostname, r.certChainDer)

theorem recordFields_injective : Function.Injective recordFields := by
  rintro ⟨chain, ver, host, na⟩ ⟨chain', ver', host', na'⟩ h
  obtain ⟨rfl, rfl, rfl, rfl⟩ : ver = ver' ∧ na = na' ∧ host = host' ∧ chain = chain' := by
    simpa [recordFields] using h
  rfl

/-- The format is self-delimiting, field after field. -/
theorem selfDelimiting_toAttestationBytes :
    SelfDelimiting TlsAttestationRecord.FitsU32 toAttestationBytes := by
  have hfields := (selfDelimiting_flag.append (selfDelimiting_timestamp.append
    (selfDelimiting_hostname.append selfDelimiting_chain))).comap recordFields_injective
  intro r r' s s' hr hr' h
  refine hfields r r' s s' ⟨trivial, trivial, hr.hostname, hr.chain, hr.certs⟩
    ⟨trivial, trivial, hr'.hostname, hr'.chain, hr'.certs⟩ ?_
  simpa only [toAttestationBytes, recordFields, List.append_assoc] using h

theorem toAttestationBytes_ne_nil (r : TlsAttestationRecord) : toAttestationBytes r ≠ [] := by
  simp [toAttestationBytes]

/-- **The attestation blob is self-delimiting**: it is read off any stream that starts with it,
so no two records share a blob, no blob is a proper prefix of another one, and a concatenation of
blobs splits in only one way. -/
theorem toAttestationBytes_uniquely_decodable :
    (∀ (r r' : TlsAttestationRecord) (s s' : Bytes), r.FitsU32 → r'.FitsU32 →
        toAttestationBytes r ++ s = toAttestationBytes r' ++ s' → r = r' ∧ s = s') ∧
      (∀ r r' : TlsAttestationRecord, r.FitsU32 → r'.FitsU32 →
        toAttestationBytes r = toAttestationBytes r' → r = r') ∧
      (∀ r r' : TlsAttestationRecord, r.FitsU32 → r'.FitsU32 →
        toAttestationBytes r <+: toAttestationBytes r' → r = r') ∧
      (∀ rs rs' : List TlsAttestationRecord, (∀ r ∈ rs, r.FitsU32) → (∀ r ∈ rs', r.FitsU32) →
        rs.flatMap toAttestationBytes = rs'.flatMap toAttestationBytes → rs = rs') := by
  have henc := selfDelimiting_toAttestationBytes
  refine ⟨?_, ?_, ?_, ?_⟩
  · intro r r' s s' hr hr' h
    exact henc r r' s s' hr hr' h
  · intro r r' hr hr' h
    exact henc.inj hr hr' h
  · intro r r' hr hr' h
    exact henc.eq_of_prefix hr hr' h
  · intro rs rs' hrs hrs' h
    exact henc.concat_inj (fun r _ => toAttestationBytes_ne_nil r) hrs hrs' h

end ProvenoOracle
