import ProvenoOracle.Codec.Der

/-! # Lists of TLVs

A list of tagged contents, encoded as one TLV after another (`IsTlvList`), and the offsets that a
reader reaches which steps over complete TLVs from the start (`WalksTo`).
-/

set_option autoImplicit false

namespace Codec

/-- `body` is one TLV for each entry, in order. -/
inductive IsTlvList (w : Nat) : List (UInt8 × List UInt8) → List UInt8 → Prop where
  | nil : IsTlvList w [] []
  | cons {tag : UInt8} {c s body : List UInt8} {entries : List (UInt8 × List UInt8)}
      (head : IsTlv w tag c s) (tail : IsTlvList w entries body) :
      IsTlvList w ((tag, c) :: entries) (s ++ body)

/-- `pos` is reached by stepping over complete TLVs. -/
inductive WalksTo (w : Nat) (bytes : List UInt8) : Nat → Prop where
  | start : WalksTo w bytes 0
  | next {pos : Nat} {tag : UInt8} {c s r : List UInt8} (before : WalksTo w bytes pos)
      (found : bytes.drop pos = s ++ r) (complete : IsTlv w tag c s) :
      WalksTo w bytes (pos + s.length)

/-- The DER encodings of the entries are such a list. -/
theorem isTlvList_flatMap {w : Nat} (hw : w < 127) {entries : List (UInt8 × List UInt8)}
    (hfit : ∀ e ∈ entries, e.2.length < 256 ^ w) :
    IsTlvList w entries (entries.flatMap fun e => tlv e.1 e.2) := by
  induction entries with
  | nil => exact .nil
  | cons e entries ih =>
      have hhead : IsTlv w e.1 e.2 (tlv e.1 e.2) := isTlv_tlv e.1 (hfit e (by simp)) hw
      exact .cons hhead (ih fun e' he' => hfit e' (by simp [he']))

end Codec
