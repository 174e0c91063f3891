import Mathlib
import ProvenoOracle.Prove.TapeHash
import ProvenoOracle.Rust.Utf8

/-! # What the output hash binds

`pipeline.rs`: the output hash of a report is taken of the text of the returned value
(`format_value`). A table is printed as indented JSON, any other value by its `Display`, and the
two share one space of texts with the strings, which are printed without quotes. So the text
binds a string among strings and any other value among the others, but not a string against a
value that is printed the same (`output_text_unbound`).
-/

set_option autoImplicit false

namespace ProvenoOracle

/-! ## Values and their text -/

/-- `LuaValue`, for the values that are data; a `LuaString` is its bytes. -/
inductive LuaValue (Table : Type) where
  | nil
  | boolean (b : Bool)
  | integer (n : Int64)
  | string (s : Bytes)
  | table (t : Table)

/-- What kind of value it is, and of the booleans which one. -/
inductive LuaKind where
  | nil
  | boolean (b : Bool)
  | integer
  | string
  | table
  deriving DecidableEq

/-- The kind of a value. -/
def LuaValue.kind {Table : Type} : LuaValue Table → LuaKind
  | .nil => .nil
  | .boolean b => .boolean b
  | .integer _ => .integer
  | .string _ => .string
  | .table _ => .table

/-- The parts of the Lua machine and of `serde_json` that printing a value goes through. -/
structure PrintCrates where
  /-- `LuaTable` -/
  Table : Type
  /-- `serde_json::Value` -/
  Json : Type
  /-- `Display` of a `LuaValue` -/
  display : LuaValue Table → String
  /-- `canonical_serialize` -/
  canonicalSerialize : LuaValue Table → Except String Bytes
  /-- `serde_json::from_str` -/
  fromStr : String → Except String Json
  /-- `serde_json::to_string_pretty` -/
  toStringPretty : Json → Except String String
  /-- The text of a JSON value without spaces. -/
  compact : Json → String
  /-- The JSON value is an object or an array. -/
  isContainer : Json → Bool

/-- `format_value`: the text of a value for display. -/
def formatValue (X : PrintCrates) (v : LuaValue X.Table) : String :=
  match v with
  | .table _ =>
      match X.canonicalSerialize v with
      | .ok bytes =>
          -- `canonical_serialize` produces compact JSON, which is printed with indentation
          let compact := fromUtf8Lossy bytes
          match X.fromStr compact with
          | .ok parsed =>
              match X.toStringPretty parsed with
              | .ok pretty => pretty
              | .error _ => compact
          | .error _ => compact
      | .error _ => X.display v
  | _ => X.display v

/-- What printing relies on: `Display` prints a string's characters as they are and an integer in
decimal; a table is serialized, differently from any other, as the compact text of a JSON object
or array, which `serde_json` reads and prints without loss. -/
structure PrintCrates.PrintLaws (X : PrintCrates) : Prop where
  display_nil : X.display .nil = "nil"
  display_boolean : ∀ b, X.display (.boolean b) = if b then "true" else "false"
  display_integer : ∀ n, X.display (.integer n) = n.toInt.repr
  display_string : ∀ s, X.display (.string (strBytes s)) = s
  canonical_injective : ∀ t t' b, X.canonicalSerialize (.table t) = .ok b →
    X.canonicalSerialize (.table t') = .ok b → t = t'
  canonical_json : ∀ t, ∃ json pretty, X.isContainer json = true ∧
    X.canonicalSerialize (.table t) = .ok (strBytes (X.compact json)) ∧
    X.fromStr (X.compact json) = .ok json ∧
    X.toStringPretty json = .ok pretty ∧ X.fromStr pretty = .ok json
  pretty_container : ∀ json pretty, X.isContainer json = true →
    X.toStringPretty json = .ok pretty →
    ∃ c rest, (c = '\x7b' ∨ c = '[') ∧ pretty.toList = c :: rest

/-! ## The text of one value -/

/-- The text of an integer begins with a digit or a minus sign. -/
theorem repr_head (a : Int) :
    ∃ c rest, (c = '-' ∨ c.isDigit = true) ∧ a.repr.toList = c :: rest := by
  rw [Int.repr_eq_if]
  by_cases hsign : 0 ≤ a
  · rw [if_pos hsign, Nat.toList_repr]
    cases hdigits : Nat.toDigits 10 a.toNat with
    | nil =>
        have hpos : 0 < (Nat.toDigits 10 a.toNat).length := Nat.length_toDigits_pos
        rw [hdigits] at hpos
        cases hpos
    | cons c rest =>
        have hmem : c ∈ Nat.toDigits 10 a.toNat := by
          rw [hdigits]
          exact List.mem_cons_self
        exact ⟨c, rest, Or.inr (Nat.isDigit_of_mem_toDigits (by decide) (by decide) hmem), rfl⟩
  · rw [if_neg hsign]
    exact ⟨'-', _, Or.inl rfl, String.toList_append⟩

/-- The kind of value, among those that are no strings, whose text begins with the character. -/
def kindOfHead (c : Char) : LuaKind :=
  if c = 'n' then .nil
  else if c = 't' then .boolean true
  else if c = 'f' then .boolean false
  else if c = '\x7b' ∨ c = '[' then .table
  else .integer

theorem kindOfHead_number {c : Char} (hc : c = '-' ∨ c.isDigit = true) :
    kindOfHead c = .integer := by
  rcases hc with rfl | hdigit
  · rfl
  · have hne : ∀ d : Char, d.isDigit = false → c ≠ d := by
      rintro d hd rfl
      rw [hdigit] at hd
      cases hd
    rw [kindOfHead, if_neg (hne 'n' rfl), if_neg (hne 't' rfl), if_neg (hne 'f' rfl),
      if_neg (not_or.mpr ⟨hne '\x7b' rfl, hne '[' rfl⟩)]

section Laws

variable {X : PrintCrates} (hX : X.PrintLaws)

include hX

/-- A table is printed as the indented text of its JSON value. -/
theorem formatValue_table (t : X.Table) :
    ∃ json, X.isContainer json = true ∧
      X.canonicalSerialize (.table t) = .ok (strBytes (X.compact json)) ∧
      X.toStringPretty json = .ok (formatValue X (.table t)) ∧
      X.fromStr (formatValue X (.table t)) = .ok json := by
  obtain ⟨json, pretty, hcontainer, hcanonical, hread, hpretty, hback⟩ := hX.canonical_json t
  have htext : formatValue X (.table t) = pretty := by
    simp only [formatValue, hcanonical, fromUtf8Lossy_strBytes, hread, hpretty]
  rw [htext]
  exact ⟨json, hcontainer, hcanonical, hpretty, hback⟩

/-- Tables with the same text are the same. -/
theorem table_eq_of_formatValue {t t' : X.Table}
    (h : formatValue X (.table t) = formatValue X (.table t')) : t = t' := by
  obtain ⟨json, -, hcanonical, -, hread⟩ := formatValue_table hX t
  obtain ⟨json', -, hcanonical', -, hread'⟩ := formatValue_table hX t'
  rw [h, hread'] at hread
  obtain rfl : json' = json := Except.ok.inj hread
  exact hX.canonical_injective t t' _ hcanonical hcanonical'

/-- The first character of a text tells the values that are no strings apart by their kinds. -/
theorem formatValue_head (v : LuaValue X.Table) (hv : v.kind ≠ .string) :
    ∃ c rest, (formatValue X v).toList = c :: rest ∧ kindOfHead c = v.kind := by
  cases v with
  | nil =>
      have htext : formatValue X .nil = "nil" := hX.display_nil
      rw [htext]
      exact ⟨'n', ['i', 'l'], rfl, rfl⟩
  | boolean b =>
      have htext : formatValue X (.boolean b) = if b then "true" else "false" :=
        hX.display_boolean b
      rw [htext]
      cases b with
      | true => exact ⟨'t', ['r', 'u', 'e'], rfl, rfl⟩
      | false => exact ⟨'f', ['a', 'l', 's', 'e'], rfl, rfl⟩
  | integer n =>
      have htext : formatValue X (.integer n) = n.toInt.repr := hX.display_integer n
      rw [htext]
      obtain ⟨c, rest, hc, hlist⟩ := repr_head n.toInt
      exact ⟨c, rest, hlist, kindOfHead_number hc⟩
  | string s => exact absurd rfl hv
  | table t =>
      obtain ⟨json, hcontainer, -, hpretty, -⟩ := formatValue_table hX t
      obtain ⟨c, rest, hc, hlist⟩ := hX.pretty_container _ _ hcontainer hpretty
      refine ⟨c, rest, hlist, ?_⟩
      rcases hc with rfl | rfl
      · rfl
      · rfl

/-- Values that are no strings have one kind if they have one text. -/
theorem kind_eq_of_formatValue {v v' : LuaValue X.Table} (hv : v.kind ≠ .string)
    (hv' : v'.kind ≠ .string) (h : formatValue X v = formatValue X v') : v.kind = v'.kind := by
  obtain ⟨c, rest, hlist, hc⟩ := formatValue_head hX v hv
  obtain ⟨c', rest', hlist', hc'⟩ := formatValue_head hX v' hv'
  rw [h, hlist'] at hlist
  have hsame : c' = c := (List.cons.inj hlist).1
  rw [← hc, ← hc', hsame]

/-- **What the text of a value binds.** Two strings, or two values that are no strings, with the
same text are equal. -/
theorem output_text_binds (v v' : LuaValue X.Table)
    (hkinds : (∃ s s', v = .string (strBytes s) ∧ v' = .string (strBytes s')) ∨
      v.kind ≠ .string ∧ v'.kind ≠ .string)
    (h : formatValue X v = formatValue X v') : v = v' := by
  rcases hkinds with ⟨s, s', rfl, rfl⟩ | ⟨hv, hv'⟩
  · have htext : s = s' := by
      calc s = formatValue X (.string (strBytes s)) := (hX.display_string s).symm
        _ = formatValue X (.string (strBytes s')) := h
        _ = s' := hX.display_string s'
    rw [htext]
  · have hkind := kind_eq_of_formatValue hX hv hv' h
    -- of one kind, an integer and a table are told apart by the rest of the text
    cases v with
    | nil =>
        cases v' with
        | nil => rfl
        | boolean _ | integer _ | string _ | table _ => cases hkind
    | boolean b =>
        cases v' with
        | boolean b' =>
            cases hkind
            rfl
        | nil | integer _ | string _ | table _ => cases hkind
    | integer n =>
        cases v' with
        | integer n' =>
            have hrepr : n.toInt.repr = n'.toInt.repr := by
              calc n.toInt.repr = formatValue X (.integer n) := (hX.display_integer n).symm
                _ = formatValue X (.integer n') := h
                _ = n'.toInt.repr := hX.display_integer n'
            rw [Int64.toInt_inj.mp (Int.repr_injective hrepr)]
        | nil | boolean _ | string _ | table _ => cases hkind
    | string s => exact absurd rfl hv
    | table t =>
        cases v' with
        | table t' => rw [table_eq_of_formatValue hX h]
        | nil | boolean _ | integer _ | string _ => cases hkind

end Laws

/-! ## One text for two values -/

/-- Two tables: the empty one, and `ok = true`. -/
inductive TinyTable where
  | empty
  | flag
  deriving DecidableEq

/-- The JSON text of a table, without spaces. -/
def TinyTable.compact : TinyTable → String
  | .empty => "\x7b\x7d"
  | .flag => "\x7b\"ok\":true\x7d"

/-- The indented JSON text. -/
def TinyTable.pretty : TinyTable → String
  | .empty => "\x7b\x7d"
  | .flag => "\x7b\n  \"ok\": true\n\x7d"

/-- Reading either text. -/
def TinyTable.read (s : String) : Except String TinyTable :=
  if s = TinyTable.empty.compact then .ok .empty
  else if s = TinyTable.flag.compact ∨ s = TinyTable.flag.pretty then .ok .flag
  else .error "expected value at line 1 column 1"

theorem TinyTable.read_compact (t : TinyTable) : TinyTable.read t.compact = .ok t := by
  cases t <;> decide

theorem TinyTable.read_pretty (t : TinyTable) : TinyTable.read t.pretty = .ok t := by
  cases t <;> decide

theorem TinyTable.compact_injective : Function.Injective TinyTable.compact := by
  intro t t' h
  have hread := TinyTable.read_compact t
  rw [h, TinyTable.read_compact] at hread
  exact (Except.ok.inj hread).symm

/-- Printing with these tables. -/
def tinyPrint : PrintCrates where
  Table := TinyTable
  Json := TinyTable
  display
    | .nil => "nil"
    | .boolean b => if b then "true" else "false"
    | .integer n => n.toInt.repr
    | .string s => fromUtf8Lossy s
    | .table _ => "table"
  canonicalSerialize
    | .table t => .ok (strBytes t.compact)
    | _ => .error "not a table"
  fromStr := TinyTable.read
  toStringPretty t := .ok t.pretty
  compact := TinyTable.compact
  isContainer _ := true

theorem tinyPrint_printLaws : tinyPrint.PrintLaws where
  display_nil := rfl
  display_boolean _ := rfl
  display_integer _ := rfl
  display_string := fromUtf8Lossy_strBytes
  canonical_injective := by
    intro t t' b ht ht'
    have hbytes : strBytes t.compact = strBytes t'.compact := by
      rw [Except.ok.inj ht, Except.ok.inj ht']
    exact TinyTable.compact_injective (strBytes_injective hbytes)
  canonical_json t :=
    ⟨t, t.pretty, rfl, rfl, TinyTable.read_compact t, rfl, TinyTable.read_pretty t⟩
  pretty_container json pretty _ h := by
    obtain rfl := Except.ok.inj h
    cases json with
    | empty => exact ⟨'\x7b', ['\x7d'], Or.inl rfl, rfl⟩
    | flag => exact ⟨'\x7b', _, Or.inl rfl, rfl⟩

/-- The text of the number one is not that of a table. -/
theorem output_text_binds_one :
    formatValue tinyPrint (.integer 1) ≠ formatValue tinyPrint (.table .flag) := by
  intro h
  have hsame := output_text_binds tinyPrint_printLaws (.integer 1) (.table .flag)
    (Or.inr ⟨by decide, by decide⟩) h
  cases hsame

/-- The report of a run that returns this value. -/
def valueReport (v : LuaValue TinyTable) : PipelineResult (VmOutput (LuaValue TinyTable)) :=
  ⟨"", "", "", ⟨v, []⟩, ⟨200000, 16777216, 16, 65536⟩, 1, ⟨0, 0⟩⟩

/-- The string `1` and the number one have one text, and so one output hash, whatever the hash
function is; the string `nil` and `nil` do too. -/
theorem output_text_unbound :
    (∀ sha256Hex, (computeHashes sha256Hex (formatValue tinyPrint)
        (valueReport (.string (strBytes "1")))).outputHash
      = (computeHashes sha256Hex (formatValue tinyPrint) (valueReport (.integer 1))).outputHash) ∧
    formatValue tinyPrint (.string (strBytes "nil")) = formatValue tinyPrint .nil ∧
    ¬ ∀ X : PrintCrates, X.PrintLaws → ∀ v v' : LuaValue X.Table,
      formatValue X v = formatValue X v' → v = v' := by
  have hone : formatValue tinyPrint (.string (strBytes "1"))
      = formatValue tinyPrint (.integer 1) := by
    calc formatValue tinyPrint (.string (strBytes "1")) = "1" := fromUtf8Lossy_strBytes "1"
      _ = formatValue tinyPrint (.integer 1) := by decide +kernel
  refine ⟨?_, fromUtf8Lossy_strBytes "nil", ?_⟩
  · intro sha256Hex
    exact congrArg (fun text => sha256Hex (strBytes text)) hone
  · intro hbinds
    cases hbinds tinyPrint tinyPrint_printLaws _ _ hone

end ProvenoOracle
