import ProvenoOracle.Prove.Artifacts
import ProvenoOracle.Rust.Utf8

/-! # Reading hex words back

The demo server gets the public inputs of a proof as hex words and reads the two numbers among
them back (`runner.rs`): `parse_bytes32` turns a word into 32 bytes, `parse_u32_bytes32` and
`parse_i64_bytes32` read the low bytes of a word as a number. They undo `bytes32_hex`,
`u32_to_bytes32_hex` and `i64_to_bytes32_hex` of the orchestrator.
-/

set_option autoImplicit false

namespace ProvenoOracle

open Codec

/-! ## Parsing -/

/-- The value of a hexadecimal digit. -/
def hexValue (b : UInt8) : Option Nat :=
  if 0x30 ≤ b ∧ b ≤ 0x39 then some (b.toNat - 0x30)
  else if 0x61 ≤ b ∧ b ≤ 0x66 then some (b.toNat - 0x57)
  else if 0x41 ≤ b ∧ b ≤ 0x46 then some (b.toNat - 0x37)
  else none

/-- One more digit of a `u8`. -/
def pushHexDigit (acc : UInt8) (b : UInt8) : Except String UInt8 :=
  match hexValue b with
  | none => .error "invalid digit found in string"
  | some d =>
      if acc.toNat * 16 + d < 256 then .ok (UInt8.ofNat (acc.toNat * 16 + d))
      else .error "number too large to fit in target type"

/-- `u8::from_str_radix(_, 16)`: a leading plus sign is allowed before the digits. -/
def u8FromStrRadix16 (src : Bytes) : Except String UInt8 :=
  match src with
  | [] => .error "cannot parse integer from empty string"
  | [b] => pushHexDigit 0 b
  | 0x2b :: digits => digits.foldlM pushHexDigit 0
  | digits => digits.foldlM pushHexDigit 0

/-- `chunks(2)` -/
def chunks2 : Bytes → List Bytes
  | [] => []
  | [b] => [[b]]
  | a :: b :: rest => [a, b] :: chunks2 rest

/-- One chunk of `parse_bytes32`. -/
def parseHexChunk (chunk : Bytes) : Except String UInt8 :=
  match strFromUtf8 chunk with
  | none => .error (utf8ErrorText chunk)
  | some byteStr => u8FromStrRadix16 (strBytes byteStr)

/-- `out[i] = byte` on an array. -/
def ByteArr.set {n : Nat} (out : ByteArr n) (i : Nat) (byte : UInt8) : ByteArr n :=
  ⟨out.val.set i byte, by rw [List.length_set, out.property]⟩

/-- The loop of `parse_bytes32`, from chunk `i` on. -/
def parseChunks : List Bytes → Nat → ByteArr 32 → Except String (ByteArr 32)
  | [], _, out => .ok out
  | chunk :: chunks, i, out => do
      let byte ← parseHexChunk chunk
      parseChunks chunks (i + 1) (ByteArr.set out i byte)

/-- `parse_bytes32` -/
def parseBytes32 (hexWithPrefix : String) : Except String (ByteArr 32) :=
  let s := (stripPrefix hexWithPrefix "0x").getD hexWithPrefix
  let len := (strBytes s).length
  if len ≠ 64 then .error s!"bytes32 hex must be 64 chars, got {len}"
  else parseChunks (chunks2 (strBytes s)) 0 zero32

/-- `parse_u32_bytes32`: the last four bytes. -/
def parseU32Bytes32 (hexWithPrefix : String) : Except String UInt32 := do
  let bytes ← parseBytes32 hexWithPrefix
  return UInt32.ofNat (ofBeBytes (bytes.val.drop 28))

/-- `parse_i64_bytes32`: the last eight bytes. -/
def parseI64Bytes32 (hexWithPrefix : String) : Except String Int64 := do
  let bytes ← parseBytes32 hexWithPrefix
  return (UInt64.ofNat (ofBeBytes (bytes.val.drop 24))).toInt64

/-! ## Bytes -/

/-- A digit that `{:02x}` prints is one byte long and has its value. -/
theorem hexValue_digitChar : ∀ d < 16, ∃ x : UInt8,
    String.utf8EncodeChar (Nat.digitChar d) = [x] ∧ x ≠ 0x2b ∧ hexValue x = some d := by
  intro d hd
  interval_cases d <;> exact ⟨_, rfl, by decide, rfl⟩

/-- A chunk of two digits, the first of which is no plus sign. -/
theorem parseHexChunk_values {x y : UInt8} {d e : Nat} {byteStr : String}
    (htext : strFromUtf8 [x, y] = some byteStr) (hplus : x ≠ 0x2b) (hd : d < 16) (he : e < 16)
    (hx : hexValue x = some d) (hy : hexValue y = some e) :
    parseHexChunk [x, y] = .ok (UInt8.ofNat (d * 16 + e)) := by
  have hfirst : pushHexDigit 0 x = .ok (UInt8.ofNat d) := by
    have hfits : d < 256 := by omega
    simp [pushHexDigit, hx, hfits]
  have hsecond : pushHexDigit (UInt8.ofNat d) y = .ok (UInt8.ofNat (d * 16 + e)) := by
    have hnat : (UInt8.ofNat d).toNat = d := UInt8.toNat_ofNat_of_lt' (show d < 256 by omega)
    have hfits : d * 16 + e < 256 := by omega
    simp only [pushHexDigit, hy, hnat, hfits, if_true]
  have hdigits : u8FromStrRadix16 [x, y] = [x, y].foldlM pushHexDigit 0 := by
    unfold u8FromStrRadix16
    split
    · cases ‹[x, y] = []›
    · cases ‹[x, y] = [_]›
    · next h => exact absurd (List.cons.inj h).1 hplus
    · rfl
  calc parseHexChunk [x, y] = u8FromStrRadix16 [x, y] := by
        rw [parseHexChunk, htext]
        exact congrArg u8FromStrRadix16 (strFromUtf8_eq_some_iff.mp htext)
    _ = .ok (UInt8.ofNat (d * 16 + e)) := by
        rw [hdigits, List.foldlM_cons, hfirst]
        show [y].foldlM pushHexDigit (UInt8.ofNat d) = _
        rw [List.foldlM_cons, hsecond]
        rfl

/-- The text of a byte is two bytes long and reads back as the byte. -/
theorem parseHexChunk_hexByte (b : UInt8) :
    ∃ x y, charBytes (hexByte b) = [x, y] ∧ parseHexChunk [x, y] = .ok b := by
  have hb : b.toNat < 256 := b.toNat_lt
  obtain ⟨x, hx, hplus, hhigh⟩ := hexValue_digitChar (b.toNat / 16) (by omega)
  obtain ⟨y, hy, -, hlow⟩ := hexValue_digitChar (b.toNat % 16) (by omega)
  have hbytes : charBytes (hexByte b) = [x, y] := by
    simp [charBytes, hexByte, hx, hy]
  have htext : strFromUtf8 [x, y] = some (String.ofList (hexByte b)) := by
    rw [strFromUtf8_eq_some_iff, strBytes_ofList, hbytes]
  have hsum : b.toNat / 16 * 16 + b.toNat % 16 = b.toNat := by omega
  have hread := parseHexChunk_values htext hplus (by omega) (by omega) hhigh hlow
  rw [hsum, UInt8.ofNat_toNat] at hread
  exact ⟨x, y, hbytes, hread⟩

/-- The chunks are read, one by one, as the bytes. -/
def ReadAs (chunks : List Bytes) (bytes : Bytes) : Prop :=
  List.Forall₂ (fun chunk b => parseHexChunk chunk = .ok b) chunks bytes

theorem readAs_hexBytes (bytes : Bytes) :
    ReadAs (chunks2 (charBytes (bytes.flatMap hexByte))) bytes := by
  induction bytes with
  | nil => exact .nil
  | cons b bytes ih =>
      obtain ⟨x, y, hbytes, hparse⟩ := parseHexChunk_hexByte b
      rw [List.flatMap_cons, charBytes_append, hbytes]
      exact .cons hparse ih

/-- After a byte is set, the bytes up to it are those before it and the new one. -/
theorem ByteArr.take_set {n i : Nat} (hi : i < n) (out : ByteArr n) (b : UInt8) :
    (ByteArr.set out i b).val.take (i + 1) = out.val.take i ++ [b] := by
  have hlength : i < (out.val.set i b).length := by
    rw [List.length_set, out.property]
    exact hi
  show (out.val.set i b).take (i + 1) = _
  rw [List.take_succ_eq_append_getElem hlength, List.getElem_set_self,
    List.take_set_of_le (Nat.le_refl i)]

/-- **The loop** fills the rest of the array with what the chunks are read as. -/
theorem parseChunks_eq_ok_iff {chunks : List Bytes} {i : Nat} {out filled : ByteArr 32}
    (hfit : i + chunks.length = 32) :
    parseChunks chunks i out = .ok filled ↔
      ∃ bytes, ReadAs chunks bytes ∧ filled.val = out.val.take i ++ bytes := by
  induction chunks generalizing i out with
  | nil =>
      have hi : out.val.take i = out.val := by
        apply List.take_of_length_le
        rw [out.property]
        simp at hfit
        omega
      rw [hi]
      constructor
      · intro h
        cases h
        exact ⟨[], .nil, by rw [List.append_nil]⟩
      · rintro ⟨bytes, hread, hfilled⟩
        cases hread
        rw [List.append_nil] at hfilled
        exact congrArg Except.ok (Subtype.ext hfilled.symm)
  | cons chunk chunks ih =>
      have hlength : i + 1 + chunks.length = 32 := by
        rw [List.length_cons] at hfit
        omega
      have htake : ∀ b, (ByteArr.set out i b).val.take (i + 1) = out.val.take i ++ [b] :=
        ByteArr.take_set (by omega) out
      rw [parseChunks]
      constructor
      · intro h
        cases hparse : parseHexChunk chunk with
        | error e =>
            rw [hparse] at h
            cases h
        | ok b =>
            rw [hparse] at h
            -- the chunk is read, and the loop goes on behind it
            obtain ⟨bytes, hread, hfilled⟩ := (ih hlength).mp h
            rw [htake, List.append_assoc] at hfilled
            exact ⟨b :: bytes, .cons hparse hread, hfilled⟩
      · rintro ⟨bytes, hread, hfilled⟩
        cases hread with
        | cons hparse hread =>
            rw [hparse]
            refine (ih hlength).mpr ⟨_, hread, ?_⟩
            rw [htake, hfilled, List.append_assoc]
            rfl

theorem chunks2_length {bs : Bytes} {k : Nat} (h : bs.length = 2 * k) :
    (chunks2 bs).length = k := by
  induction k generalizing bs with
  | zero =>
      obtain rfl : bs = [] := List.eq_nil_of_length_eq_zero h
      rfl
  | succ k ih =>
      match bs, h with
      | [_], h => simp at h; omega
      | _ :: _ :: rest, h =>
          have hrest : rest.length = 2 * k := by
            simp only [List.length_cons] at h
            omega
          rw [chunks2, List.length_cons, ih hrest]

/-- **When a word is accepted, and as what.** -/
theorem parseBytes32_eq_ok_iff {s : String} {bytes : ByteArr 32} :
    parseBytes32 s = .ok bytes ↔
      (strBytes ((stripPrefix s "0x").getD s)).length = 64 ∧
        ReadAs (chunks2 (strBytes ((stripPrefix s "0x").getD s))) bytes.val := by
  rw [parseBytes32]
  by_cases hlength : (strBytes ((stripPrefix s "0x").getD s)).length = 64
  · have hchunks := chunks2_length (k := 32) hlength
    have hloop : parseChunks (chunks2 (strBytes ((stripPrefix s "0x").getD s))) 0 zero32
        = .ok bytes ↔ _ := parseChunks_eq_ok_iff (by omega)
    simp only [hlength, ne_eq, not_true_eq_false, if_false, hloop, List.take_zero,
      List.nil_append, true_and]
    constructor
    · rintro ⟨filled, hread, hfilled⟩
      rwa [hfilled]
    · intro hread
      exact ⟨bytes.val, hread, rfl⟩
  · simp only [hlength, ne_eq, not_false_eq_true, if_true, false_and, iff_false]
    intro h
    cases h

theorem charBytes_flatMap_hexByte_length (bytes : Bytes) :
    (charBytes (bytes.flatMap hexByte)).length = 2 * bytes.length := by
  induction bytes with
  | nil => rfl
  | cons b bytes ih =>
      obtain ⟨x, y, hbytes, -⟩ := parseHexChunk_hexByte b
      rw [List.flatMap_cons, charBytes_append]
      calc (charBytes (hexByte b) ++ charBytes (bytes.flatMap hexByte)).length
          = 2 + 2 * bytes.length := by rw [List.length_append, hbytes, ih]; rfl
        _ = 2 * (b :: bytes).length := by rw [List.length_cons]; omega

/-- A printed word is a list of digits behind the `0x`. -/
theorem bytes32Hex_eq (bytes : ByteArr 32) :
    bytes32Hex bytes = "0x" ++ String.ofList (bytes.val.flatMap hexByte) := by
  apply String.toList_inj.mp
  rw [String.toList_append, bytes32Hex, String.toList_ofList]
  exact congrArg (fun cs => '0' :: 'x' :: cs) String.toList_ofList.symm

/-- **Reading a word back.** -/
theorem parseBytes32_bytes32Hex (bytes : ByteArr 32) :
    parseBytes32 (bytes32Hex bytes) = .ok bytes := by
  have hstrip : stripPrefix (bytes32Hex bytes) "0x"
      = some (String.ofList (bytes.val.flatMap hexByte)) :=
    stripPrefix_eq_some_iff.mpr (bytes32Hex_eq bytes)
  have hlen : (charBytes (bytes.val.flatMap hexByte)).length = 64 := by
    rw [charBytes_flatMap_hexByte_length, bytes.property]
  rw [parseBytes32_eq_ok_iff, hstrip, Option.getD_some, strBytes_ofList]
  exact ⟨hlen, readAs_hexBytes bytes.val⟩

/-! ## Numbers -/

/-- **`parse_u32_bytes32` undoes `u32_to_bytes32_hex`.** -/
theorem parseU32Bytes32_u32ToBytes32Hex (v : UInt32) :
    parseU32Bytes32 (u32ToBytes32Hex v) = .ok v := by
  have hv : v.toNat < 256 ^ 4 := v.toNat_lt
  have hlow : (List.replicate 28 (0 : UInt8) ++ toBeBytes 4 v.toNat).drop 28
      = toBeBytes 4 v.toNat := rfl
  rw [parseU32Bytes32, u32ToBytes32Hex, parseBytes32_bytes32Hex]
  show Except.ok (UInt32.ofNat (ofBeBytes _)) = _
  rw [hlow, ofBeBytes_toBeBytes_of_lt hv, UInt32.ofNat_toNat]

/-- **`parse_i64_bytes32` undoes `i64_to_bytes32_hex`**, for negative numbers too: the sign
extension is in the bytes that are not read. -/
theorem parseI64Bytes32_i64ToBytes32Hex (v : Int64) :
    parseI64Bytes32 (i64ToBytes32Hex v) = .ok v := by
  have hv : v.toUInt64.toNat < 256 ^ 8 := v.toUInt64.toNat_lt
  have hlow : ∀ fill : UInt8,
      (List.replicate 24 fill ++ toBeBytes 8 v.toUInt64.toNat).drop 24
        = toBeBytes 8 v.toUInt64.toNat := fun _ => rfl
  rw [parseI64Bytes32, i64ToBytes32Hex, parseBytes32_bytes32Hex]
  show Except.ok (UInt64.ofNat (ofBeBytes _)).toInt64 = _
  rw [hlow, ofBeBytes_toBeBytes_of_lt hv, UInt64.ofNat_toNat]
  rfl

example : parseBytes32 "0x00" = .error "bytes32 hex must be 64 chars, got 2" := by
  decide +kernel

end ProvenoOracle
