import ProvenoOracle.Codec.Trim
import ProvenoOracle.Rust.Run

/-! # Rust strings

A Rust `String` is a sequence of Unicode scalar values stored as UTF-8, and so is a Lean
`String`. This file has the conversions between strings and bytes, and the few `str` methods
the code uses.
-/

set_option autoImplicit false

namespace ProvenoOracle

/-- `str::as_bytes` -/
def strBytes (s : String) : Bytes := s.toByteArray.data.toList

/-- `str::from_utf8` -/
def strFromUtf8 (b : Bytes) : Option String := String.fromUTF8? ⟨b.toArray⟩

theorem strBytes_injective : Function.Injective strBytes := by
  intro s s' h
  have hdata : s.toByteArray.data = s'.toByteArray.data := Array.toList_inj.mp h
  exact String.toByteArray_inj.mp (ByteArray.ext hdata)

/-- Decoding the bytes of a string gives the string back. -/
theorem strFromUtf8_strBytes (s : String) : strFromUtf8 (strBytes s) = some s := by
  have hbytes : (⟨(strBytes s).toArray⟩ : ByteArray) = s.toByteArray := rfl
  rw [strFromUtf8, hbytes, String.fromUTF8?, dif_pos s.isValidUTF8]
  rfl

/-- `char::is_whitespace`: the Unicode property White_Space. -/
def isWhitespace (c : Char) : Bool :=
  let n := c.toNat
  (0x09 ≤ n && n ≤ 0x0d) || n = 0x20 || n = 0x85 || n = 0xa0 || n = 0x1680 ||
    (0x2000 ≤ n && n ≤ 0x200a) || n = 0x2028 || n = 0x2029 || n = 0x202f || n = 0x205f ||
    n = 0x3000

/-- `str::trim` -/
def strTrim (s : String) : String :=
  String.ofList ((s.toList.rdropWhile isWhitespace).dropWhile isWhitespace)

/-- `str::trim_start` -/
def strTrimStart (s : String) : String := String.ofList (s.toList.dropWhile isWhitespace)

/-- `str::split_whitespace` -/
def splitWhitespace (s : String) : List String :=
  ((s.toList.splitOnP isWhitespace).filter (· ≠ [])).map String.ofList

/-- `str::contains`, for a string pattern. -/
def strContains (s pattern : String) : Bool := pattern.toList <:+: s.toList

/-- `str::strip_prefix` -/
def stripPrefix (s pattern : String) : Option String :=
  if pattern.toList <+: s.toList then some (String.ofList (s.toList.drop pattern.length)) else none

/-- `str::strip_suffix` -/
def stripSuffix (s pattern : String) : Option String :=
  if pattern.toList <:+ s.toList then
    some (String.ofList (s.toList.take (s.length - pattern.length)))
  else none

theorem stripPrefix_eq_some_iff {s pattern rest : String} :
    stripPrefix s pattern = some rest ↔ s = pattern ++ rest := by
  rw [← String.toList_inj, String.toList_append, stripPrefix]
  constructor
  · intro h
    split at h
    · next hfront =>
      obtain ⟨cs, hcs⟩ := hfront
      obtain rfl := Option.some.inj h
      rw [← hcs, String.toList_ofList, ← String.length_toList, List.drop_left]
    · cases h
  · intro h
    rw [h, if_pos (List.prefix_append _ _), ← String.length_toList, List.drop_left,
      String.ofList_toList]

theorem stripSuffix_eq_some_iff {s pattern rest : String} :
    stripSuffix s pattern = some rest ↔ s = rest ++ pattern := by
  rw [← String.toList_inj, String.toList_append, stripSuffix, ← String.length_toList,
    ← String.length_toList]
  constructor
  · intro h
    split at h
    · next hback =>
      obtain ⟨cs, hcs⟩ := hback
      obtain rfl := Option.some.inj h
      rw [← hcs, String.toList_ofList, List.length_append, Nat.add_sub_cancel, List.take_left]
    · cases h
  · intro h
    rw [h, if_pos (List.suffix_append _ _), List.length_append, Nat.add_sub_cancel, List.take_left,
      String.ofList_toList]

/-- A line without the carriage return of its line ending. -/
def stripCr (line : List Char) : List Char :=
  if line.getLast? = some '\r' then line.dropLast else line

/-- `str::lines`: the lines that a line ending closes, then what follows the last one. -/
def strLines (s : String) : List String :=
  let pieces := s.toList.splitOn '\n'
  let closed := pieces.dropLast.map stripCr
  let rest := pieces.drop (pieces.length - 1)
  (closed ++ rest.filter (· ≠ [])).map String.ofList

/-- The string is one line. -/
def OneLine (s : String) : Prop := '\n' ∉ s.toList

instance (s : String) : Decidable (OneLine s) := inferInstanceAs (Decidable ('\n' ∉ s.toList))

theorem OneLine.append {s s' : String} (h : OneLine s) (h' : OneLine s') : OneLine (s ++ s') := by
  unfold OneLine at *
  simp [h, h']

theorem oneLine_nat (n : Nat) : OneLine (toString n) := by
  intro h
  rw [Nat.toString_eq_repr, Nat.toList_repr] at h
  exact absurd (Nat.isDigit_of_mem_toDigits (by decide) (by decide) h) (by decide)

end ProvenoOracle
