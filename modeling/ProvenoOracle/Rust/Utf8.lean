import ProvenoOracle.Rust.Str

/-! # Decoding UTF-8

Two ways of reading bytes as text. `str::from_utf8` refuses bytes that are not UTF-8 and says
where they stop being it (`utf8ErrorText`); `String::from_utf8_lossy` accepts all bytes and puts
U+FFFD in the place of each invalid sequence (`fromUtf8Lossy`).

The lossy reading keeps the bytes it was given exactly when they are UTF-8
(`strBytes_fromUtf8Lossy_iff`). A sub-string is cut at a number of bytes, and only at the end of
a character (`strSliceTo`).
-/

set_option autoImplicit false

namespace ProvenoOracle

/-! ## The front of a byte string -/

/-- The character whose encoding the bytes start with. -/
def firstChar (b : Bytes) : Option Char := ByteArray.utf8DecodeChar? ⟨b.toArray⟩ 0

/-- `utf8_char_width`: how long the sequence is that a lead byte opens, zero for a byte that
opens none. -/
def charWidth (lead : UInt8) : Nat :=
  if lead < 0x80 then 1
  else if lead < 0xc2 then 0
  else if lead < 0xe0 then 2
  else if lead < 0xf0 then 3
  else if lead < 0xf5 then 4
  else 0

/-- The second bytes that may follow a lead byte. -/
def secondByteOk (lead second : UInt8) : Bool :=
  match lead.toNat with
  | 0xe0 => 0xa0 ≤ second && second ≤ 0xbf
  | 0xed => 0x80 ≤ second && second ≤ 0x9f
  | 0xf0 => 0x90 ≤ second && second ≤ 0xbf
  | 0xf4 => 0x80 ≤ second && second ≤ 0x8f
  | _ => charWidth lead != 0 && 0x80 ≤ second && second ≤ 0xbf

/-- A continuation byte. -/
def isContinuation (b : UInt8) : Bool := 0x80 ≤ b && b ≤ 0xbf

/-- How many bytes after the lead byte still belong to an invalid sequence: those that could have
gone on to a character. -/
def invalidTail (lead : UInt8) : Bytes → Nat
  | [] => 0
  | [second] => if secondByteOk lead second then 1 else 0
  | second :: third :: _ =>
      if secondByteOk lead second then if isContinuation third then 2 else 1 else 0

/-! ## Lossy decoding -/

/-- The characters of the bytes, with one U+FFFD for each invalid sequence. -/
def lossyChars : Bytes → List Char
  | [] => []
  | lead :: rest =>
      match firstChar (lead :: rest) with
      | some c => c :: lossyChars (rest.drop (c.utf8Size - 1))
      | none => '\uFFFD' :: lossyChars (rest.drop (invalidTail lead rest))
termination_by b => b.length

/-- `String::from_utf8_lossy` -/
def fromUtf8Lossy (b : Bytes) : String := String.ofList (lossyChars b)

/-- The bytes of a list of characters. -/
def charBytes (cs : List Char) : Bytes := cs.flatMap String.utf8EncodeChar

theorem strBytes_ofList (cs : List Char) : strBytes (String.ofList cs) = charBytes cs := by
  show cs.utf8Encode.data.toList = cs.flatMap String.utf8EncodeChar
  simp [List.utf8Encode]

theorem strBytes_eq_charBytes (s : String) : strBytes s = charBytes s.toList := by
  rw [← strBytes_ofList, String.ofList_toList]

/-- A character is found at the front of its own encoding. -/
theorem firstChar_encode_append (c : Char) (b : Bytes) :
    firstChar (String.utf8EncodeChar c ++ b) = some c := by
  have hsplit : (⟨(String.utf8EncodeChar c ++ b).toArray⟩ : ByteArray)
      = (String.utf8EncodeChar c).toByteArray ++ ⟨b.toArray⟩ := by
    apply ByteArray.ext
    simp
  rw [firstChar, hsplit]
  exact ByteArray.utf8DecodeChar?_utf8EncodeChar_append

/-- Where a character is found, its encoding is at the front. -/
theorem firstChar_eq_some_iff {b : Bytes} {c : Char} :
    firstChar b = some c ↔ String.utf8EncodeChar c <+: b := by
  constructor
  · intro h
    obtain ⟨rest, hrest⟩ := ByteArray.exists_of_utf8DecodeChar?_eq_some h
    refine ⟨rest.data.toList, ?_⟩
    have hlist := congrArg (fun bytes : ByteArray => bytes.data.toList) hrest
    simpa using hlist.symm
  · rintro ⟨rest, rfl⟩
    exact firstChar_encode_append c rest

/-- Lossy decoding reads one encoded character, then the rest. -/
theorem lossyChars_encode_append (c : Char) (b : Bytes) :
    lossyChars (String.utf8EncodeChar c ++ b) = c :: lossyChars b := by
  have hlength : (String.utf8EncodeChar c).length = c.utf8Size := String.length_utf8EncodeChar c
  have hfound := firstChar_encode_append c b
  cases hbytes : String.utf8EncodeChar c with
  | nil => exact absurd hbytes String.utf8EncodeChar_ne_nil
  | cons lead rest =>
      rw [hbytes, List.cons_append] at hfound
      have hrest : rest.length = c.utf8Size - 1 := by
        rw [← hlength, hbytes, List.length_cons, Nat.add_sub_cancel]
      rw [List.cons_append, lossyChars, hfound]
      show c :: lossyChars ((rest ++ b).drop (c.utf8Size - 1)) = c :: lossyChars b
      rw [← hrest, List.drop_left]

theorem lossyChars_charBytes (cs : List Char) : lossyChars (charBytes cs) = cs := by
  induction cs with
  | nil => simp [charBytes, lossyChars]
  | cons c cs ih =>
      have hcons : charBytes (c :: cs) = String.utf8EncodeChar c ++ charBytes cs := rfl
      rw [hcons, lossyChars_encode_append, ih]

/-- **Lossy decoding is exact on UTF-8.** -/
@[simp] theorem fromUtf8Lossy_strBytes (s : String) : fromUtf8Lossy (strBytes s) = s := by
  rw [fromUtf8Lossy, strBytes_eq_charBytes, lossyChars_charBytes, String.ofList_toList]

/-- The bytes are UTF-8. -/
def IsUtf8 (b : Bytes) : Prop := ∃ s, strBytes s = b

/-- Exactly the bytes of a string survive lossy decoding. -/
theorem strBytes_fromUtf8Lossy_iff {b : Bytes} : strBytes (fromUtf8Lossy b) = b ↔ IsUtf8 b := by
  constructor
  · intro h
    exact ⟨fromUtf8Lossy b, h⟩
  · rintro ⟨s, rfl⟩
    rw [fromUtf8Lossy_strBytes]

/-- `str::from_utf8` accepts exactly UTF-8. -/
theorem strFromUtf8_eq_some_iff {b : Bytes} {s : String} :
    strFromUtf8 b = some s ↔ strBytes s = b := by
  constructor
  · intro h
    unfold strFromUtf8 String.fromUTF8? at h
    split at h
    · next hvalid =>
      obtain rfl := Option.some.inj h
      rfl
    · cases h
  · rintro rfl
    exact strFromUtf8_strBytes s

/-! ## Sub-strings -/

/-- The characters at the front that take exactly `n` bytes. -/
def takeBytes : List Char → Nat → Option (List Char)
  | _, 0 => some []
  | [], _ + 1 => none
  | c :: cs, n + 1 =>
      if c.utf8Size ≤ n + 1 then (takeBytes cs (n + 1 - c.utf8Size)).map (c :: ·) else none

/-- `&s[..n]`, which panics unless `n` bytes end with a character. -/
def strSliceTo (s : String) (n : Nat) : Run String :=
  match takeBytes s.toList n with
  | some cs => .ok (String.ofList cs)
  | none => .error .outOfRange

/-- `str::is_char_boundary`: some of the characters at the front take `n` bytes. -/
def IsCharBoundary (s : String) (n : Nat) : Prop :=
  ∃ cs, cs <+: s.toList ∧ (charBytes cs).length = n

theorem charBytes_append (cs cs' : List Char) :
    charBytes (cs ++ cs') = charBytes cs ++ charBytes cs' := List.flatMap_append

theorem charBytes_cons_length (c : Char) (cs : List Char) :
    (charBytes (c :: cs)).length = c.utf8Size + (charBytes cs).length := by
  rw [charBytes, List.flatMap_cons, List.length_append, String.length_utf8EncodeChar]
  rfl

theorem takeBytes_cons {c : Char} {cs p : List Char} {n : Nat} (hn : 0 < n) :
    takeBytes (c :: cs) n = some p ↔
      ∃ q, takeBytes cs (n - c.utf8Size) = some q ∧ c.utf8Size ≤ n ∧ p = c :: q := by
  obtain ⟨n, rfl⟩ := Nat.exists_eq_succ_of_ne_zero (Nat.ne_of_gt hn)
  rw [takeBytes]
  constructor
  · intro h
    split at h
    · next hsize =>
      obtain ⟨q, hq, hp⟩ := Option.map_eq_some_iff.mp h
      exact ⟨q, hq, hsize, hp.symm⟩
    · cases h
  · rintro ⟨q, hq, hsize, rfl⟩
    rw [if_pos hsize, hq]
    rfl

/-- No characters take no bytes. -/
theorem charBytes_length_eq_zero {cs : List Char} (h : (charBytes cs).length = 0) : cs = [] := by
  cases cs with
  | nil => rfl
  | cons c cs =>
      have hpos : 0 < c.utf8Size := c.utf8Size_pos
      rw [charBytes_cons_length] at h
      omega

/-- **What is at the front**: the prefix that takes so many bytes. -/
theorem takeBytes_eq_some_iff {cs p : List Char} {n : Nat} :
    takeBytes cs n = some p ↔ p <+: cs ∧ (charBytes p).length = n := by
  induction cs generalizing n p with
  | nil =>
      rw [List.prefix_nil]
      cases n with
      | zero =>
          rw [takeBytes, Option.some_inj, eq_comm]
          exact ⟨fun h => ⟨h, by rw [h]; rfl⟩, And.left⟩
      | succ n =>
          refine iff_of_false nofun ?_
          rintro ⟨rfl, h⟩
          cases h
  | cons c cs ih =>
      -- no bytes are the empty prefix; some bytes start with the first character
      rcases Nat.eq_zero_or_pos n with rfl | hn
      · have hfront : takeBytes (c :: cs) 0 = some [] := rfl
        rw [hfront, Option.some_inj]
        constructor
        · rintro rfl
          exact ⟨List.nil_prefix, rfl⟩
        · rintro ⟨-, hlength⟩
          exact (charBytes_length_eq_zero hlength).symm
      · rw [takeBytes_cons hn]
        constructor
        · rintro ⟨q, hq, hsize, rfl⟩
          obtain ⟨hfront, hlength⟩ := ih.mp hq
          rw [List.cons_prefix_cons, charBytes_cons_length]
          exact ⟨⟨rfl, hfront⟩, by omega⟩
        · rintro ⟨hfront, hlength⟩
          -- a prefix that takes some bytes starts with the same character
          cases p with
          | nil =>
              rw [← hlength] at hn
              cases hn
          | cons d q =>
              rw [List.cons_prefix_cons] at hfront
              obtain ⟨rfl, hfront⟩ := hfront
              rw [charBytes_cons_length] at hlength
              exact ⟨q, ih.mpr ⟨hfront, by omega⟩, by omega, rfl⟩

/-- No boundary lies inside the last character. -/
theorem not_isCharBoundary_concat {cs : List Char} {c : Char} {n : Nat}
    (hlow : (charBytes cs).length < n) (hhigh : n < (charBytes cs).length + c.utf8Size) :
    ¬ IsCharBoundary (String.ofList (cs ++ [c])) n := by
  rintro ⟨p, hfront, hlength⟩
  rw [String.toList_ofList, List.prefix_concat_iff] at hfront
  rcases hfront with rfl | ⟨rest, rfl⟩
  · have hone : (charBytes [c]).length = c.utf8Size := by rw [charBytes_cons_length]; rfl
    rw [charBytes_append, List.length_append, hone] at hlength
    omega
  · rw [charBytes_append, List.length_append] at hlow
    omega

/-- A slice from the start returns exactly at a character boundary. -/
theorem strSliceTo_ok_iff {s : String} {n : Nat} :
    (∃ r, strSliceTo s n = .ok r) ↔ IsCharBoundary s n := by
  constructor
  · rintro ⟨r, h⟩
    unfold strSliceTo at h
    split at h
    · next cs hcs => exact ⟨cs, takeBytes_eq_some_iff.mp hcs⟩
    · cases h
  · rintro ⟨cs, hcs⟩
    exact ⟨String.ofList cs, by rw [strSliceTo, takeBytes_eq_some_iff.mpr hcs]⟩

theorem strSliceTo_error {s : String} {n : Nat} (h : ¬ IsCharBoundary s n) :
    strSliceTo s n = .error .outOfRange := by
  unfold strSliceTo
  cases htake : takeBytes s.toList n with
  | none => rfl
  | some cs => exact absurd ⟨cs, takeBytes_eq_some_iff.mp htake⟩ h

/-- What a slice from the start is: a prefix, in characters and so in bytes, of `n` bytes. -/
theorem strSliceTo_ok {s r : String} {n : Nat} (h : strSliceTo s n = .ok r) :
    strBytes r <+: strBytes s ∧ (strBytes r).length = n := by
  unfold strSliceTo at h
  split at h
  · next cs hcs =>
    obtain ⟨⟨rest, hrest⟩, hlength⟩ := takeBytes_eq_some_iff.mp hcs
    cases h
    rw [strBytes_ofList, strBytes_eq_charBytes, ← hrest, charBytes_append]
    exact ⟨List.prefix_append _ _, hlength⟩
  · cases h

/-! ## Errors -/

/-- How many bytes `str::from_utf8` has accepted when it stops. -/
def validUpTo : Bytes → Nat
  | [] => 0
  | lead :: rest =>
      match firstChar (lead :: rest) with
      | some c => c.utf8Size + validUpTo (rest.drop (c.utf8Size - 1))
      | none => 0
termination_by b => b.length

/-- `Display` of a `Utf8Error`: the bytes are invalid, or they stop inside a character. -/
def utf8ErrorText (b : Bytes) : String :=
  match b.drop (validUpTo b) with
  | [] => ""
  | lead :: rest =>
      let found := 1 + invalidTail lead rest
      if found = 1 + rest.length && found < charWidth lead then
        s!"incomplete utf-8 byte sequence from index {validUpTo b}"
      else s!"invalid utf-8 sequence of {found} bytes from index {validUpTo b}"

example : fromUtf8Lossy [0x61, 0xff, 0xe2, 0x82, 0x62, 0xc3, 0xa9] = "a\uFFFD\uFFFDbé" := by
  decide +kernel

example : utf8ErrorText [0x61, 0xe2, 0x82] = "incomplete utf-8 byte sequence from index 1" := by
  decide +kernel

end ProvenoOracle
