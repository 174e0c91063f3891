import ProvenoOracle.Demo.Words

/-! # Which words are accepted

`parse_bytes32` leaves the syntax of a word to `from_str_radix`, one pair of bytes at a time, and
the two number readers look at the low bytes of the word only. This file says which strings are
accepted, as what, and when a word is the one that the orchestrator prints for the number read
from it. Strings with a plus sign, which `from_str_radix` lets pass before a digit, are left out.
-/

set_option autoImplicit false

namespace ProvenoOracle

open Codec

/-! ## Words -/

/-- The hexadecimal digits, in both cases. -/
def hexDigits : List Char := "0123456789abcdefABCDEF".toList

/-- The characters of a word, behind at most one `0x`. -/
def wordDigits (s : String) : List Char := ((stripPrefix s "0x").getD s).toList

/-- Exactly 64 hexadecimal digits, behind at most one `0x`. -/
def IsHexWord (s : String) : Prop :=
  (wordDigits s).length = 64 ∧ ∀ c ∈ wordDigits s, c ∈ hexDigits

instance (s : String) : Decidable (IsHexWord s) :=
  decidable_of_iff ((wordDigits s).length = 64 ∧ (wordDigits s).all (· ∈ hexDigits) = true) (by
    rw [IsHexWord, List.all_eq_true]
    simp only [decide_eq_true_eq])

theorem wordDigits_eq (s : String) :
    s.toList = ['0', 'x'] ++ wordDigits s ∨ s.toList = wordDigits s := by
  rcases hs : stripPrefix s "0x" with - | rest
  · right
    rw [wordDigits, hs, Option.getD_none]
  · left
    rw [wordDigits, hs, Option.getD_some, stripPrefix_eq_some_iff.mp hs, String.toList_append]
    rfl

/-! ## Digits and bytes -/

/-- A digit is one byte, which has a value and is printed back as the digit in lower case. -/
theorem hexDigit_byte : ∀ c ∈ hexDigits, ∃ (x : UInt8) (d : Nat),
    String.utf8EncodeChar c = [x] ∧ x ≠ 0x2b ∧ d < 16 ∧ hexValue x = some d ∧
      Nat.digitChar d = c.toLower := by
  have hall : hexDigits.all (fun c => String.utf8EncodeChar c == [c.val.toUInt8] &&
      c.val.toUInt8 != 0x2b && (hexValue c.val.toUInt8).any fun d =>
        d < 16 && Nat.digitChar d == c.toLower) = true := by decide +kernel
  intro c hc
  have hchar := List.all_eq_true.mp hall c hc
  simp only [Bool.and_eq_true, beq_iff_eq, bne_iff_ne, Option.any_eq_true, decide_eq_true_eq]
    at hchar
  obtain ⟨⟨hx, hplus⟩, d, hvalue, hd, hlower⟩ := hchar
  exact ⟨c.val.toUInt8, d, hx, hplus, hd, hvalue, hlower⟩

/-- A byte with a value is a digit. -/
theorem exists_hexDigit {x : UInt8} (h : (hexValue x).isSome = true) :
    ∃ c ∈ hexDigits, String.utf8EncodeChar c = [x] := by
  have hall : ∀ n < 256, (hexValue (UInt8.ofNat n)).isSome = true →
      hexDigits.any (fun c => String.utf8EncodeChar c = [UInt8.ofNat n]) = true := by
    decide +kernel
  have hx := hall x.toNat x.toNat_lt
  rw [UInt8.ofNat_toNat] at hx
  obtain ⟨c, hc, hbytes⟩ := List.any_eq_true.mp (hx h)
  exact ⟨c, hc, of_decide_eq_true hbytes⟩

/-! ## One chunk -/

/-- Two digits are read as the byte that they print. -/
theorem parseHexChunk_digits {c c' : Char} (hc : c ∈ hexDigits) (hc' : c' ∈ hexDigits) :
    ∃ x y b, charBytes [c, c'] = [x, y] ∧ parseHexChunk [x, y] = .ok b ∧
      hexByte b = [c.toLower, c'.toLower] := by
  obtain ⟨x, d, hx, hplus, hd, hvalue, hlower⟩ := hexDigit_byte c hc
  obtain ⟨y, e, hy, -, he, hvalue', hlower'⟩ := hexDigit_byte c' hc'
  have hbytes : charBytes [c, c'] = [x, y] := by simp [charBytes, hx, hy]
  have htext : strFromUtf8 [x, y] = some (String.ofList [c, c']) := by
    rw [strFromUtf8_eq_some_iff, strBytes_ofList, hbytes]
  have hread := parseHexChunk_values htext hplus hd he hvalue hvalue'
  refine ⟨x, y, UInt8.ofNat (d * 16 + e), hbytes, hread, ?_⟩
  have hnat : (UInt8.ofNat (d * 16 + e)).toNat = d * 16 + e :=
    UInt8.toNat_ofNat_of_lt' (show d * 16 + e < 256 by omega)
  have hhigh : (d * 16 + e) / 16 = d := by omega
  have hlow : (d * 16 + e) % 16 = e := by omega
  rw [hexByte, hnat, hhigh, hlow, hlower, hlower']

theorem isSome_of_pushHexDigit {acc x b : UInt8} (h : pushHexDigit acc x = .ok b) :
    (hexValue x).isSome = true := by
  cases hvalue : hexValue x with
  | none => simp [pushHexDigit, hvalue] at h
  | some d => rfl

/-- Pushing more digits starts with the first one. -/
theorem foldlM_pushHexDigit_cons {acc x b : UInt8} {xs : Bytes}
    (h : (x :: xs).foldlM pushHexDigit acc = .ok b) :
    ∃ r, pushHexDigit acc x = .ok r ∧ xs.foldlM pushHexDigit r = .ok b := by
  rw [List.foldlM_cons] at h
  rcases hx : pushHexDigit acc x with e | r
  · rw [hx] at h
    cases h
  · rw [hx] at h
    exact ⟨r, rfl, h⟩

/-- An accepted chunk of two bytes is a digit behind a digit or a plus sign. -/
theorem bytes_of_parseHexChunk {x y b : UInt8} (h : parseHexChunk [x, y] = .ok b) :
    (x = 0x2b ∨ (hexValue x).isSome = true) ∧ (hexValue y).isSome = true := by
  unfold parseHexChunk at h
  split at h
  · cases h
  · next byteStr htext =>
    rw [strFromUtf8_eq_some_iff.mp htext] at h
    by_cases hplus : x = 0x2b
    · subst hplus
      have hdigit : [y].foldlM pushHexDigit 0 = .ok b := h
      obtain ⟨r, hy, -⟩ := foldlM_pushHexDigit_cons hdigit
      exact ⟨Or.inl rfl, isSome_of_pushHexDigit hy⟩
    · have hdigits : [x, y].foldlM pushHexDigit 0 = .ok b := by
        rw [← h]
        unfold u8FromStrRadix16
        split
        · cases ‹[x, y] = []›
        · cases ‹[x, y] = [_]›
        · next heq => exact absurd (List.cons.inj heq).1 hplus
        · rfl
      obtain ⟨r, hx, hlast⟩ := foldlM_pushHexDigit_cons hdigits
      obtain ⟨r', hy, -⟩ := foldlM_pushHexDigit_cons hlast
      exact ⟨Or.inr (isSome_of_pushHexDigit hx), isSome_of_pushHexDigit hy⟩

/-- So it is the bytes of two characters. -/
theorem chars_of_parseHexChunk {x y b : UInt8} (h : parseHexChunk [x, y] = .ok b) :
    ∃ c c', charBytes [c, c'] = [x, y] ∧ (c = '+' ∨ c ∈ hexDigits) ∧ c' ∈ hexDigits := by
  obtain ⟨hx, hy⟩ := bytes_of_parseHexChunk h
  obtain ⟨c', hc', hby⟩ := exists_hexDigit hy
  have hfirst : ∃ c, String.utf8EncodeChar c = [x] ∧ (c = '+' ∨ c ∈ hexDigits) := by
    rcases hx with rfl | hx
    · exact ⟨'+', by decide, Or.inl rfl⟩
    · obtain ⟨c, hc, hbx⟩ := exists_hexDigit hx
      exact ⟨c, hbx, Or.inr hc⟩
  obtain ⟨c, hbx, hc⟩ := hfirst
  exact ⟨c, c', by simp [charBytes, hbx, hby], hc, hc'⟩

/-! ## All chunks -/

theorem charBytes_injective : Function.Injective charBytes :=
  Function.LeftInverse.injective lossyChars_charBytes

/-- A chunk is read in one way only. -/
theorem ReadAs.unique {chunks : List Bytes} {bytes bytes' : Bytes} (h : ReadAs chunks bytes)
    (h' : ReadAs chunks bytes') : bytes = bytes' := by
  apply List.right_unique_forall₂' _ h h'
  intro chunk b b' hb hb'
  exact Except.ok.inj (hb.symm.trans hb')

/-- Digits are read, pair by pair, as the bytes that print them in lower case. -/
theorem readAs_digits {cs : List Char} {k : Nat} (hlength : cs.length = 2 * k)
    (hdigits : ∀ c ∈ cs, c ∈ hexDigits) :
    (charBytes cs).length = 2 * k ∧
      ∃ bytes, ReadAs (chunks2 (charBytes cs)) bytes ∧ bytes.length = k ∧
        bytes.flatMap hexByte = cs.map Char.toLower := by
  induction k generalizing cs with
  | zero =>
      obtain rfl : cs = [] := List.eq_nil_of_length_eq_zero hlength
      exact ⟨rfl, [], .nil, rfl, rfl⟩
  | succ k ih =>
      match cs, hlength with
      | [_], h => simp at h; omega
      | c :: c' :: rest, h =>
          have hrest : rest.length = 2 * k := by
            simp only [List.length_cons] at h
            omega
          obtain ⟨hcount, bytes, hread, hbytes, hprint⟩ :=
            ih hrest fun d hd => hdigits d (by simp [hd])
          obtain ⟨x, y, b, hxy, hparse, hlower⟩ :=
            parseHexChunk_digits (hdigits c (by simp)) (hdigits c' (by simp))
          have hcat : charBytes (c :: c' :: rest) = x :: y :: charBytes rest := by
            rw [show c :: c' :: rest = [c, c'] ++ rest from rfl, charBytes_append, hxy]
            rfl
          refine ⟨?_, b :: bytes, ?_, ?_, ?_⟩
          · rw [hcat, List.length_cons, List.length_cons, hcount]
            omega
          · rw [hcat]
            exact .cons hparse hread
          · rw [List.length_cons, hbytes]
          · rw [List.flatMap_cons, hlower, hprint]
            rfl

/-- Bytes that are accepted are digits and plus signs. -/
theorem exists_digits_of_readAs {bs bytes : Bytes} {k : Nat} (hlength : bs.length = 2 * k)
    (hread : ReadAs (chunks2 bs) bytes) :
    ∃ cs, charBytes cs = bs ∧ cs.length = 2 * k ∧ ∀ c ∈ cs, c = '+' ∨ c ∈ hexDigits := by
  induction k generalizing bs bytes with
  | zero =>
      obtain rfl : bs = [] := List.eq_nil_of_length_eq_zero hlength
      exact ⟨[], rfl, rfl, by simp⟩
  | succ k ih =>
      match bs, hlength, hread with
      | [_], h, _ => simp at h; omega
      | x :: y :: rest, h, .cons hparse hread =>
          have hrest : rest.length = 2 * k := by
            simp only [List.length_cons] at h
            omega
          obtain ⟨cs, hcs, hcount, hall⟩ := ih hrest hread
          obtain ⟨c, c', hfirst, hc, hc'⟩ := chars_of_parseHexChunk hparse
          refine ⟨c :: c' :: cs, ?_, ?_, ?_⟩
          · rw [show c :: c' :: cs = [c, c'] ++ cs from rfl, charBytes_append, hfirst, hcs]
            rfl
          · simp only [List.length_cons, hcount]
            omega
          · intro d hd
            simp only [List.mem_cons] at hd
            rcases hd with rfl | rfl | hd
            · exact hc
            · exact Or.inr hc'
            · exact hall d hd

/-! ## Words and numbers -/

theorem bytes32Hex_injective : Function.Injective bytes32Hex := by
  intro b b' h
  have hparse := parseBytes32_bytes32Hex b
  rw [h, parseBytes32_bytes32Hex] at hparse
  exact (Except.ok.inj hparse).symm

theorem plus_mem_iff (s : String) : '+' ∈ s.toList ↔ '+' ∈ wordDigits s := by
  rcases wordDigits_eq s with h | h
  · rw [h]
    simp
  · rw [h]

theorem strBytes_word (s : String) :
    strBytes ((stripPrefix s "0x").getD s) = charBytes (wordDigits s) :=
  strBytes_eq_charBytes _

/-- An accepted string without a plus sign is a word. -/
theorem isHexWord_of_accepted {s : String} {b : ByteArr 32} (hparse : parseBytes32 s = .ok b)
    (hplus : '+' ∉ s.toList) : IsHexWord s := by
  rw [parseBytes32_eq_ok_iff, strBytes_word] at hparse
  obtain ⟨hlength, hread⟩ := hparse
  obtain ⟨cs, hcs, hcount, hall⟩ := exists_digits_of_readAs (k := 32) hlength hread
  obtain rfl : cs = wordDigits s := charBytes_injective hcs
  refine ⟨hcount, ?_⟩
  intro c hc
  rcases hall c hc with rfl | hdigit
  · exact absurd ((plus_mem_iff s).mpr hc) hplus
  · exact hdigit

/-- A word is accepted, as the bytes whose hex text is the word in lower case. -/
theorem accepted_of_isHexWord {s : String} (hword : IsHexWord s) :
    ∃ b, parseBytes32 s = .ok b ∧
      bytes32Hex b = String.ofList ('0' :: 'x' :: (wordDigits s).map Char.toLower) := by
  obtain ⟨hlength, bytes, hread, hcount, hprint⟩ := readAs_digits (k := 32) hword.1 hword.2
  refine ⟨⟨bytes, hcount⟩, ?_, ?_⟩
  · rw [parseBytes32_eq_ok_iff, strBytes_word]
    exact ⟨hlength, hread⟩
  · rw [bytes32Hex, hprint]

theorem not_plus_of_isHexWord {s : String} (hword : IsHexWord s) : '+' ∉ s.toList := by
  rw [plus_mem_iff]
  intro hplus
  have hnot : '+' ∉ hexDigits := by decide
  exact hnot (hword.2 '+' hplus)

/-- The 64 bits of a number are those of a word of eight bytes iff the number is the word's value
in two's complement. -/
theorem toInt_eq_bmod_iff {v : Int64} {k : Nat} (hk : k < 256 ^ 8) :
    v.toInt = (k : Int).bmod (2 ^ 64) ↔ v.toUInt64.toNat = k := by
  constructor
  · intro h
    have hv : v = Int64.ofNat k := Int64.toInt_inj.mp (h.trans Int64.toInt_ofNat'.symm)
    have hbits : v.toUInt64 = UInt64.ofNat k := by
      rw [hv]
      rfl
    rw [hbits]
    exact UInt64.toNat_ofNat_of_lt' (show k < 2 ^ 64 by omega)
  · rintro rfl
    exact BitVec.toInt_eq_toNat_bmod v.toBitVec

/-- A word splits into its high bytes and the bytes of a number. -/
theorem bytes32Hex_eq_iff {b : ByteArr 32} {high : Bytes} {n v : Nat}
    (hhigh : high.length + n = 32) (hv : v < 256 ^ n)
    (hlength : (high ++ toBeBytes n v).length = 32) :
    bytes32Hex b = bytes32Hex ⟨high ++ toBeBytes n v, hlength⟩ ↔
      v = ofBeBytes (b.val.drop high.length) ∧ b.val.take high.length = high := by
  have hdrop : (b.val.drop high.length).length = n := by
    rw [List.length_drop, b.property]
    omega
  rw [bytes32Hex_injective.eq_iff, Subtype.ext_iff]
  constructor
  · intro h
    have hb : b.val = high ++ toBeBytes n v := h
    rw [hb, List.drop_left, List.take_left, ofBeBytes_toBeBytes_of_lt hv]
    exact ⟨rfl, rfl⟩
  · rintro ⟨rfl, htake⟩
    show b.val = high ++ toBeBytes n (ofBeBytes (b.val.drop high.length))
    calc b.val = b.val.take high.length ++ b.val.drop high.length :=
          (List.take_append_drop _ _).symm
      _ = high ++ toBeBytes n (ofBeBytes (b.val.drop high.length)) := by
          rw [htake, toBeBytes_ofBeBytes hdrop]

/-- What `parse_u32_bytes32` answers is the value of the last four bytes. -/
theorem parseU32Bytes32_eq_ok_iff {s : String} {n : UInt32} :
    parseU32Bytes32 s = .ok n ↔
      ∃ b, parseBytes32 s = .ok b ∧ n.toNat = ofBeBytes (b.val.drop 28) := by
  rw [parseU32Bytes32]
  rcases hparse : parseBytes32 s with e | b
  · constructor
    · intro h
      cases h
    · rintro ⟨b, hb, -⟩
      cases hb
  · have hlow : ofBeBytes (b.val.drop 28) < 2 ^ 32 := by
      have hlt := ofBeBytes_lt (b.val.drop 28)
      rw [List.length_drop, b.property] at hlt
      exact hlt
    have hanswer : (UInt32.ofNat (ofBeBytes (b.val.drop 28))).toNat
        = ofBeBytes (b.val.drop 28) := UInt32.toNat_ofNat_of_lt' hlow
    constructor
    · intro h
      obtain rfl := Except.ok.inj h
      exact ⟨b, rfl, hanswer⟩
    · rintro ⟨b', hb', hn⟩
      obtain rfl := Except.ok.inj hb'
      exact congrArg Except.ok (UInt32.toNat_inj.mp (hanswer.trans hn.symm))

/-- What `parse_i64_bytes32` answers is the value of the last eight bytes in two's complement. -/
theorem parseI64Bytes32_eq_ok_iff {s : String} {v : Int64} :
    parseI64Bytes32 s = .ok v ↔
      ∃ b, parseBytes32 s = .ok b ∧
        v.toInt = (ofBeBytes (b.val.drop 24) : Int).bmod (2 ^ 64) := by
  rw [parseI64Bytes32]
  rcases hparse : parseBytes32 s with e | b
  · constructor
    · intro h
      cases h
    · rintro ⟨b, hb, -⟩
      cases hb
  · have hanswer : (UInt64.ofNat (ofBeBytes (b.val.drop 24))).toInt64.toInt
        = (ofBeBytes (b.val.drop 24) : Int).bmod (2 ^ 64) := Int64.toInt_ofNat'
    constructor
    · intro h
      obtain rfl := Except.ok.inj h
      exact ⟨b, rfl, hanswer⟩
    · rintro ⟨b', hb', hv⟩
      obtain rfl := Except.ok.inj hb'
      exact congrArg Except.ok (Int64.toInt_inj.mp (hanswer.trans hv.symm))

/-- **What the word readers accept and answer.** A string without a plus sign is accepted iff it
is a word, and then as the bytes that print it in lower case. The number readers look at the low
bytes of the word; it is the word that the orchestrator prints for their answer iff the bytes
before these are zero or, for the signed one, repeat the sign. -/
theorem word_readers_exact (s : String) (b : ByteArr 32) (n : UInt32) (v : Int64) :
    (parseBytes32 s = .ok b ∧ '+' ∉ s.toList ↔ IsHexWord s ∧
      bytes32Hex b = String.ofList ('0' :: 'x' :: (wordDigits s).map Char.toLower)) ∧
    (parseU32Bytes32 s = .ok n ↔
      ∃ b, parseBytes32 s = .ok b ∧ n.toNat = ofBeBytes (b.val.drop 28)) ∧
    (bytes32Hex b = u32ToBytes32Hex n ↔
      n.toNat = ofBeBytes (b.val.drop 28) ∧ b.val.take 28 = List.replicate 28 0) ∧
    (parseI64Bytes32 s = .ok v ↔
      ∃ b, parseBytes32 s = .ok b ∧
        v.toInt = (ofBeBytes (b.val.drop 24) : Int).bmod (2 ^ 64)) ∧
    (bytes32Hex b = i64ToBytes32Hex v ↔
      v.toInt = (ofBeBytes (b.val.drop 24) : Int).bmod (2 ^ 64) ∧
        b.val.take 24 = List.replicate 24 (if v < 0 then 0xff else 0x00)) := by
  refine ⟨⟨?_, ?_⟩, parseU32Bytes32_eq_ok_iff, ?_, parseI64Bytes32_eq_ok_iff, ?_⟩
  · rintro ⟨hparse, hplus⟩
    have hword := isHexWord_of_accepted hparse hplus
    obtain ⟨b', hparse', hprint⟩ := accepted_of_isHexWord hword
    rw [hparse] at hparse'
    obtain rfl := Except.ok.inj hparse'
    exact ⟨hword, hprint⟩
  · rintro ⟨hword, hprint⟩
    obtain ⟨b', hparse', hprint'⟩ := accepted_of_isHexWord hword
    have hsame : b' = b := bytes32Hex_injective (hprint'.trans hprint.symm)
    exact ⟨hsame ▸ hparse', not_plus_of_isHexWord hword⟩
  · have hn : n.toNat < 256 ^ 4 := n.toNat_lt
    exact @bytes32Hex_eq_iff b (List.replicate 28 0) 4 n.toNat rfl hn _
  · have hv : v.toUInt64.toNat < 256 ^ 8 := v.toUInt64.toNat_lt
    have hlow : ofBeBytes (b.val.drop 24) < 256 ^ 8 := by
      have hlt := ofBeBytes_lt (b.val.drop 24)
      rw [List.length_drop, b.property] at hlt
      exact hlt
    rw [toInt_eq_bmod_iff hlow]
    exact @bytes32Hex_eq_iff b (List.replicate 24 (if v < 0 then 0xff else 0x00)) 8
      v.toUInt64.toNat rfl hv _

/-- A string of plus signs and digits is accepted, and so is a word whose high bytes are lost. -/
theorem word_readers_not_exact :
    (¬ ∀ (s : String) (b : ByteArr 32), parseBytes32 s = .ok b ↔ IsHexWord s ∧
      bytes32Hex b = String.ofList ('0' :: 'x' :: (wordDigits s).map Char.toLower)) ∧
    ¬ ∀ (s : String) (b : ByteArr 32) (n : UInt32), parseBytes32 s = .ok b →
      parseU32Bytes32 s = .ok n → bytes32Hex b = u32ToBytes32Hex n := by
  constructor
  · intro h
    have hparse : parseBytes32 (String.ofList (List.replicate 32 ['+', 'f']).flatten)
        = .ok ⟨List.replicate 32 0x0f, rfl⟩ := by decide +kernel
    have hnot : ¬ IsHexWord (String.ofList (List.replicate 32 ['+', 'f']).flatten) := by
      decide +kernel
    exact hnot ((h _ _).mp hparse).1
  · intro h
    have hparse : parseBytes32 (bytes32Hex ⟨0x01 :: List.replicate 31 0, rfl⟩)
        = .ok ⟨0x01 :: List.replicate 31 0, rfl⟩ := parseBytes32_bytes32Hex _
    have hnumber : parseU32Bytes32 (bytes32Hex ⟨0x01 :: List.replicate 31 0, rfl⟩) = .ok 0 := by
      decide +kernel
    have hsame := bytes32Hex_injective (h _ _ _ hparse hnumber)
    cases congrArg (fun b : ByteArr 32 => b.val.head?) hsame

end ProvenoOracle
