import ProvenoOracle.Codec.Double
import ProvenoOracle.Rust.Str

/-! # JSON between the server and the page

`serde_json` writes integers in full, and on one line (`JsonValue.oneLine_text`), and `JSON.parse`
reads them as doubles. What the page gets of a JSON value is the value with its integers rounded
(`JsonValue.parsed`), which is the same value as long as these are at most `2 ^ 53`
(`JsonValue.parsed_eq`).
-/

set_option autoImplicit false

namespace ProvenoOracle.Demo

open Codec

/-! ## Values -/

mutual

/-- `serde_json::Value`, without fractions: there are none in Lua values. -/
inductive JsonValue where
  | null
  | bool (b : Bool)
  | number (n : Int)
  | string (s : String)
  | array (items : JsonItems)
  | object (fields : JsonFields)
  deriving DecidableEq

inductive JsonItems where
  | nil
  | cons (item : JsonValue) (items : JsonItems)
  deriving DecidableEq

inductive JsonFields where
  | nil
  | cons (key : String) (value : JsonValue) (fields : JsonFields)
  deriving DecidableEq

end

/-- The fields of an object, from a list of them. -/
def JsonFields.ofList : List (String × JsonValue) → JsonFields
  | [] => .nil
  | (key, value) :: fields => .cons key value (.ofList fields)

/-- An `Option<String>`. -/
def JsonValue.ofOption : Option String → JsonValue
  | none => .null
  | some s => .string s

/-! ## Reading -/

/-- An integer in the JSON text, as a double. -/
def parsedInt (n : Int) : Int := if n < 0 then -roundDouble n.natAbs else roundDouble n.natAbs

mutual

/-- `JSON.parse`, on the text of a value. -/
def JsonValue.parsed : JsonValue → JsonValue
  | .number n => .number (parsedInt n)
  | .array items => .array items.parsed
  | .object fields => .object fields.parsed
  | .null => .null
  | .bool b => .bool b
  | .string s => .string s

def JsonItems.parsed : JsonItems → JsonItems
  | .nil => .nil
  | .cons item items => .cons item.parsed items.parsed

def JsonFields.parsed : JsonFields → JsonFields
  | .nil => .nil
  | .cons key value fields => .cons key value.parsed fields.parsed

end

mutual

/-- All integers are at most `2 ^ 53` in magnitude. -/
def JsonValue.Small : JsonValue → Prop
  | .number n => n.natAbs ≤ 2 ^ 53
  | .array items => items.Small
  | .object fields => fields.Small
  | _ => True

def JsonItems.Small : JsonItems → Prop
  | .nil => True
  | .cons item items => item.Small ∧ items.Small

def JsonFields.Small : JsonFields → Prop
  | .nil => True
  | .cons _ value fields => value.Small ∧ fields.Small

end

theorem parsedInt_of_small {n : Int} (h : n.natAbs ≤ 2 ^ 53) : parsedInt n = n := by
  unfold parsedInt
  rw [roundDouble_of_le h]
  split <;> omega

mutual

/-- **Small integers get through.** -/
theorem JsonValue.parsed_eq : ∀ {v : JsonValue}, v.Small → v.parsed = v
  | .number _, h => congrArg JsonValue.number (parsedInt_of_small h)
  | .array _, h => congrArg JsonValue.array (JsonItems.parsed_eq h)
  | .object _, h => congrArg JsonValue.object (JsonFields.parsed_eq h)
  | .null, _ => rfl
  | .bool _, _ => rfl
  | .string _, _ => rfl

theorem JsonItems.parsed_eq : ∀ {items : JsonItems}, items.Small → items.parsed = items
  | .nil, _ => rfl
  | .cons _ _, h => congrArg₂ JsonItems.cons (JsonValue.parsed_eq h.1) (JsonItems.parsed_eq h.2)

theorem JsonFields.parsed_eq : ∀ {fields : JsonFields}, fields.Small → fields.parsed = fields
  | .nil, _ => rfl
  | .cons key _ _, h =>
      congrArg₂ (JsonFields.cons key) (JsonValue.parsed_eq h.1) (JsonFields.parsed_eq h.2)

end

/-! ## Writing -/

/-- A number as JavaScript prints it. -/
def numberText (n : Int) : String :=
  if n < 0 then "-" ++ toString (shortestDecimal n.natAbs) else toString (shortestDecimal n.natAbs)

/-- A character between the quotes of a JSON string. -/
def quotedChar (c : Char) : List Char :=
  if c = '"' then ['\\', '"']
  else if c = '\\' then ['\\', '\\']
  else if c = '\x08' then ['\\', 'b']
  else if c = '\t' then ['\\', 't']
  else if c = '\n' then ['\\', 'n']
  else if c = '\x0c' then ['\\', 'f']
  else if c = '\r' then ['\\', 'r']
  else if c.toNat < 32 then
    ['\\', 'u', '0', '0', Nat.digitChar (c.toNat / 16), Nat.digitChar (c.toNat % 16)]
  else [c]

/-- A JSON string. -/
def quoted (s : String) : String := "\"" ++ String.ofList (s.toList.flatMap quotedChar) ++ "\""

/-- The number that a key is an array index for. -/
def arrayIndex (key : String) : Option Nat :=
  let digits := key.toList
  let n := Nat.ofDigitChars 10 digits 0
  if digits.all Char.isDigit ∧ toString n = key ∧ n < 2 ^ 32 - 1 then some n else none

/-- The fields of an object in the order in which JavaScript lists them: array indices come
first. -/
def listed (fields : List (String × String)) : List (String × String) :=
  (fields.filter fun f => (arrayIndex f.1).isSome).insertionSort
      (fun f g => (arrayIndex f.1).getD 0 ≤ (arrayIndex g.1).getD 0) ++
    fields.filter fun f => (arrayIndex f.1).isNone

section Render

variable (number : Int → String) (order : List (String × String) → List (String × String))

mutual

/-- The text of a value, given the text of a number and the order of the fields of an object. -/
def JsonValue.render : JsonValue → String
  | .null => "null"
  | .bool b => if b then "true" else "false"
  | .number n => number n
  | .string s => quoted s
  | .array items => "[" ++ ",".intercalate items.render ++ "]"
  | .object fields =>
      "\x7b" ++ ",".intercalate ((order fields.render).map fun f => quoted f.1 ++ ":" ++ f.2) ++
        "\x7d"

def JsonItems.render : JsonItems → List String
  | .nil => []
  | .cons item items => item.render :: items.render

def JsonFields.render : JsonFields → List (String × String)
  | .nil => []
  | .cons key value fields => (key, value.render) :: fields.render

end

end Render

/-- `JSON.stringify` -/
def JsonValue.stringify (v : JsonValue) : String := v.render numberText listed

/-- `serde_json::to_string` -/
def JsonValue.text (v : JsonValue) : String := v.render toString id

/-- Keys change places, and a large integer is shown rounded twice. -/
example : (JsonValue.object (.cons "a" (.number 9223372036854775807)
    (.cons "10" .null (.cons "9" (.string "\"") .nil)))).parsed.stringify
      = "\x7b\"9\":\"\\\"\",\"10\":null,\"a\":9223372036854776000\x7d" := by decide +kernel

/-! ## Lines -/

theorem oneLine_int (n : Int) : OneLine (toString n) := by
  cases n with
  | ofNat n => exact oneLine_nat n
  | negSucc n => exact (show OneLine "-" by decide).append (oneLine_nat (n + 1))

/-- A line feed is escaped. -/
theorem oneLine_quoted (s : String) : OneLine (quoted s) := by
  have hdigit : ∀ d < 16, '\n' ≠ Nat.digitChar d := by decide
  have hchar : ∀ c, '\n' ∉ quotedChar c := by
    intro c
    unfold quotedChar
    split_ifs with _ _ _ _ hfeed _ _ hcontrol
    iterate 7
      · decide
    · have hhigh := hdigit (c.toNat / 16) (by omega)
      have hlow := hdigit (c.toNat % 16) (by omega)
      simp [hhigh, hlow]
    · exact fun h => hfeed (List.mem_singleton.mp h).symm
  have hall : OneLine (String.ofList (s.toList.flatMap quotedChar)) := by
    unfold OneLine
    simp [hchar]
  exact ((show OneLine "\"" by decide).append hall).append (by decide)

theorem oneLine_intercalate {pieces : List String} (h : ∀ s ∈ pieces, OneLine s) :
    OneLine (",".intercalate pieces) := by
  induction pieces with
  | nil => decide
  | cons s pieces ih =>
      obtain ⟨hs, hrest⟩ := List.forall_mem_cons.mp h
      cases pieces with
      | nil => rwa [String.intercalate_singleton]
      | cons s' pieces =>
          rw [String.intercalate_cons_cons]
          exact (hs.append (show OneLine "," by decide)).append (ih hrest)

mutual

/-- **What `serde_json` writes is one line.** -/
theorem JsonValue.oneLine_text : ∀ v : JsonValue, OneLine (v.render toString id)
  | .null => show OneLine "null" by decide
  | .bool true => show OneLine "true" by decide
  | .bool false => show OneLine "false" by decide
  | .number n => oneLine_int n
  | .string s => oneLine_quoted s
  | .array items =>
      ((show OneLine "[" by decide).append (oneLine_intercalate items.oneLine_text)).append
        (show OneLine "]" by decide)
  | .object fields =>
      ((show OneLine "\x7b" by decide).append (oneLine_intercalate fields.oneLine_text)).append
        (show OneLine "\x7d" by decide)

theorem JsonItems.oneLine_text :
    ∀ items : JsonItems, ∀ s ∈ items.render toString id, OneLine s
  | .nil => List.forall_mem_nil _
  | .cons item items => List.forall_mem_cons.mpr ⟨item.oneLine_text, items.oneLine_text⟩

theorem JsonFields.oneLine_text : ∀ fields : JsonFields,
    ∀ s ∈ (fields.render toString id).map fun f => quoted f.1 ++ ":" ++ f.2, OneLine s
  | .nil => List.forall_mem_nil _
  | .cons key value fields =>
      List.forall_mem_cons.mpr
        ⟨((oneLine_quoted key).append (show OneLine ":" by decide)).append value.oneLine_text,
          fields.oneLine_text⟩

end

end ProvenoOracle.Demo
