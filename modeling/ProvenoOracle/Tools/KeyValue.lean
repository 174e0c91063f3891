import ProvenoOracle.Codec.CodedMap
import ProvenoOracle.Rust.Utf8

/-! # The key-value tool

`tools.rs`: `LiveHost` answers the tool calls of a Lua program. Two of its tools keep a map for
the program, `kv_set` and `kv_get`. Lua strings are byte strings, the map is one from `String` to
`String`, and every key and every value passes through `from_utf8_lossy` on its way in.

So the tool is a map behind a codec, and it is an exact map on byte strings just where that codec
is: `kv_exact_iff`.
-/

set_option autoImplicit false

namespace ProvenoOracle

open Codec

/-! ## Lua values -/

/-- The values and tables of the Lua machine, as far as the tools look into them. The keys of the
tables are strings. -/
structure LuaCrate where
  /-- `LuaValue` -/
  Value : Type
  /-- `LuaTable` -/
  Table : Type
  /-- `LuaValue::Nil` -/
  nil : Value
  /-- `LuaValue::String` -/
  string : Bytes → Value
  /-- The bytes of a `LuaValue::String`. -/
  asString : Value → Option Bytes
  /-- `LuaTable::new` -/
  empty : Table
  /-- `LuaTable::get` -/
  get : Table → Bytes → Option Value
  /-- `LuaTable::rawset` -/
  rawset : Table → Bytes → Value → Table

/-- What the tools rely on. -/
structure LuaCrate.TableLaws (L : LuaCrate) : Prop where
  asString_string : ∀ b, L.asString (L.string b) = some b
  get_empty : ∀ k, L.get L.empty k = none
  get_rawset_string : ∀ t k b, L.get (L.rawset t k (L.string b)) k = some (L.string b)
  get_rawset_nil : ∀ k, L.get (L.rawset L.empty k L.nil) k = none
  get_rawset_of_ne : ∀ t k k' v, k ≠ k' → L.get (L.rawset t k v) k' = L.get t k'

/-! ## The host -/

/-- `LiveHost`, without its clients. -/
structure LiveHost where
  kv : String → Option String

/-- `LiveHost::new` -/
def LiveHost.new : LiveHost := ⟨fun _ => none⟩

section Tools

variable (L : LuaCrate)

/-- `get_str` -/
def getStr (args : L.Table) (key : String) : Except String String :=
  match L.get args (strBytes key) with
  | some value =>
      match L.asString value with
      | some s => .ok (fromUtf8Lossy s)
      | none => .error s!"expected string arg '{key}'"
  | none => .error s!"missing required arg '{key}'"

/-- `tool_kv_get` -/
def toolKvGet (host : LiveHost) (args : L.Table) : Except String L.Table := do
  let key ← getStr L args "key"
  match host.kv key with
  | some val => return L.rawset L.empty (strBytes "value") (L.string (strBytes val))
  | none => return L.rawset L.empty (strBytes "value") L.nil

/-- `tool_kv_set` -/
def toolKvSet (host : LiveHost) (args : L.Table) : Except String L.Table × LiveHost :=
  match getStr L args "key" with
  | .error e => (.error e, host)
  | .ok key =>
      match getStr L args "value" with
      | .error e => (.error e, host)
      | .ok value => (.ok L.empty, { host with kv := Function.update host.kv key (some value) })

/-- A tool call. The tools that only ask the outside world answer with what it says. -/
structure Request where
  name : String
  args : L.Table
  outside : Except String L.Table

/-- `call_tool` -/
def callTool (host : LiveHost) (r : Request L) : Except String L.Table × LiveHost :=
  match r.name with
  | "http_get" => (r.outside, host)
  | "http_post" => (r.outside, host)
  | "kv_get" => (toolKvGet L host r.args, host)
  | "kv_set" => toolKvSet L host r.args
  | "llm_query" => (r.outside, host)
  | "time_now" => (r.outside, host)
  | other => (.error s!"unknown tool '{other}'", host)

/-- The host after a sequence of calls. -/
def hostAfter (requests : List (Request L)) : LiveHost :=
  requests.foldl (fun host r => (callTool L host r).2) LiveHost.new

/-! ## What is asked for -/

/-- The string under a key of the arguments. -/
def stringArg (args : L.Table) (key : String) : Option Bytes :=
  (L.get args (strBytes key)).bind L.asString

/-- The key and the value of a `kv_set` that has both. -/
def Request.write (r : Request L) : Option (Bytes × Bytes) :=
  if r.name = "kv_set" then
    (stringArg L r.args "key").bind fun key =>
      (stringArg L r.args "value").map fun value => (key, value)
  else none

/-- The writes of a sequence of calls. -/
def writesOf (requests : List (Request L)) : List (Bytes × Bytes) :=
  requests.filterMap (Request.write L)

/-- The value that a `kv_get` of this key returns. -/
def LiveHost.answer (host : LiveHost) (key : Bytes) : Option Bytes :=
  (host.kv (fromUtf8Lossy key)).map strBytes

/-- **The tool is an exact map** on the given keys and values: a `kv_get` returns what the last
successful `kv_set` of its key has stored, and no other call changes a stored value. -/
structure KvExact (K V : Set Bytes) : Prop where
  get : ∀ requests : List (Request L), (∀ w ∈ writesOf L requests, w.1 ∈ K ∧ w.2 ∈ V) →
    ∀ (args : L.Table) (outside : Except String L.Table) (key : Bytes),
      stringArg L args "key" = some key → key ∈ K →
      ∃ table, (callTool L (hostAfter L requests) ⟨"kv_get", args, outside⟩).1 = .ok table ∧
        L.get table (strBytes "value") = (lastWrite (writesOf L requests) key).map L.string
  otherKey : ∀ (requests : List (Request L)) (r : Request L),
    (∀ w ∈ writesOf L (requests ++ [r]), w.1 ∈ K ∧ w.2 ∈ V) → ∀ key ∈ K,
      (∀ w, r.write L = some w → w.1 ≠ key) →
      (hostAfter L (requests ++ [r])).answer key = (hostAfter L requests).answer key
  read : ∀ (host : LiveHost) (r : Request L), r.name ≠ "kv_set" → (callTool L host r).2 = host
  failed : ∀ (host : LiveHost) (r : Request L) (e : String), (callTool L host r).1 = .error e →
    (callTool L host r).2 = host

variable {L}

/-! ## One call -/

theorem getStr_eq (args : L.Table) (key : String) {s : Bytes}
    (h : stringArg L args key = some s) : getStr L args key = .ok (fromUtf8Lossy s) := by
  rcases Option.bind_eq_some_iff.mp h with ⟨value, hget, hstring⟩
  rw [getStr, hget]
  show (match L.asString value with
    | some s => _
    | none => _) = _
  rw [hstring]

theorem getStr_error {args : L.Table} {key : String} (h : stringArg L args key = none) :
    ∃ e, getStr L args key = .error e := by
  unfold getStr
  cases hget : L.get args (strBytes key) with
  | none => exact ⟨_, rfl⟩
  | some value =>
      have hstring : L.asString value = none := by
        rw [stringArg, hget] at h
        exact h
      simp only [hstring]
      exact ⟨_, rfl⟩

/-- A `kv_set` with both arguments stores them, coded; any other `kv_set` fails. -/
theorem toolKvSet_eq (host : LiveHost) (args : L.Table) :
    (∃ key value, stringArg L args "key" = some key ∧ stringArg L args "value" = some value ∧
      toolKvSet L host args = (.ok L.empty,
        ⟨Function.update host.kv (fromUtf8Lossy key) (some (fromUtf8Lossy value))⟩)) ∨
    ((stringArg L args "key" = none ∨ stringArg L args "value" = none) ∧
      ∃ e, toolKvSet L host args = (.error e, host)) := by
  unfold toolKvSet
  cases hkey : stringArg L args "key" with
  | none =>
      rcases getStr_error hkey with ⟨e, he⟩
      rw [he]
      exact Or.inr ⟨Or.inl rfl, e, rfl⟩
  | some key =>
      rw [getStr_eq args "key" hkey]
      cases hvalue : stringArg L args "value" with
      | none =>
          rcases getStr_error hvalue with ⟨e, he⟩
          rw [he]
          exact Or.inr ⟨Or.inr rfl, e, rfl⟩
      | some value =>
          rw [getStr_eq args "value" hvalue]
          exact Or.inl ⟨key, value, rfl, rfl, rfl⟩

/-- Only `kv_set` touches the map. -/
theorem callTool_of_ne (host : LiveHost) (r : Request L) (h : r.name ≠ "kv_set") :
    (callTool L host r).2 = host := by
  unfold callTool
  split <;> first | rfl | contradiction

theorem callTool_kvSet (host : LiveHost) (r : Request L) (h : r.name = "kv_set") :
    callTool L host r = toolKvSet L host r.args := by
  rw [callTool, h]
  rfl

theorem Request.write_of_ne {r : Request L} (h : r.name ≠ "kv_set") : r.write L = none := if_neg h

theorem Request.write_kvSet {r : Request L} (h : r.name = "kv_set") :
    r.write L = (stringArg L r.args "key").bind fun key =>
      (stringArg L r.args "value").map fun value => (key, value) := if_pos h

theorem Request.write_missing {r : Request L} (h : r.name = "kv_set")
    (hmissing : stringArg L r.args "key" = none ∨ stringArg L r.args "value" = none) :
    r.write L = none := by
  rw [Request.write_kvSet h]
  rcases hmissing with hkey | hvalue
  · rw [hkey]
    rfl
  · rw [hvalue]
    cases stringArg L r.args "key" <;> rfl

/-- **What a call does to the map**: it makes the coded write that it asks for, if any. -/
theorem callTool_kv (host : LiveHost) (r : Request L) :
    (callTool L host r).2.kv =
      match r.write L with
      | some w => Function.update host.kv (fromUtf8Lossy w.1) (some (fromUtf8Lossy w.2))
      | none => host.kv := by
  by_cases hname : r.name = "kv_set"
  · rw [callTool_kvSet host r hname]
    rcases toolKvSet_eq host r.args with ⟨key, value, hkey, hvalue, hset⟩ | ⟨hmissing, e, hfail⟩
    · rw [hset, Request.write_kvSet hname, hkey, hvalue]
      rfl
    · rw [hfail, Request.write_missing hname hmissing]
  · rw [callTool_of_ne host r hname, Request.write_of_ne hname]

/-- A call that fails leaves the host as it is. -/
theorem callTool_failed (host : LiveHost) (r : Request L) {e : String}
    (h : (callTool L host r).1 = .error e) : (callTool L host r).2 = host := by
  by_cases hname : r.name = "kv_set"
  · rw [callTool_kvSet host r hname] at h ⊢
    rcases toolKvSet_eq host r.args with ⟨key, value, -, -, hset⟩ | ⟨-, e', hfail⟩
    · rw [hset] at h
      cases h
    · rw [hfail]
  · exact callTool_of_ne host r hname

/-- A `kv_set` succeeds exactly when it writes. -/
theorem kvSet_ok_iff (host : LiveHost) {r : Request L} (hname : r.name = "kv_set") :
    (callTool L host r).1.isOk = true ↔ (r.write L).isSome = true := by
  rw [callTool_kvSet host r hname]
  rcases toolKvSet_eq host r.args with ⟨key, value, hkey, hvalue, hset⟩ | ⟨hmissing, e, hfail⟩
  · rw [hset, Request.write_kvSet hname, hkey, hvalue]
    exact iff_of_true rfl rfl
  · rw [hfail, Request.write_missing hname hmissing]
    exact iff_of_false Bool.false_ne_true Bool.false_ne_true

/-! ## A run of calls -/

/-- **The map after a run** answers for the last coded write. -/
theorem hostAfter_kv (requests : List (Request L)) (s : String) :
    (hostAfter L requests).kv s
      = lastWrite ((writesOf L requests).map (Prod.map fromUtf8Lossy fromUtf8Lossy)) s := by
  induction requests using List.reverseRecOn with
  | nil => rfl
  | append_singleton requests r ih =>
      have hstep : hostAfter L (requests ++ [r]) = (callTool L (hostAfter L requests) r).2 := by
        rw [hostAfter, List.foldl_append]
        rfl
      rw [hstep, callTool_kv, writesOf, List.filterMap_append]
      cases hwrite : r.write L with
      | none =>
          rw [List.filterMap_cons_none hwrite, List.filterMap_nil, List.append_nil]
          exact ih
      | some w =>
          rw [List.filterMap_cons_some hwrite, List.filterMap_nil, List.map_append,
            List.map_singleton, lastWrite_concat]
          show Function.update _ _ _ s = if fromUtf8Lossy w.1 = s then _ else _
          by_cases hs : fromUtf8Lossy w.1 = s
          · rw [← hs, Function.update_self, if_pos rfl]
            rfl
          · rw [Function.update_of_ne (Ne.symm hs), if_neg hs]
            exact ih

/-- A `kv_get` answers with the stored value, or with a table without one. -/
theorem kvGet_response (hL : L.TableLaws) (host : LiveHost) {args : L.Table}
    (outside : Except String L.Table) {key : Bytes} (hkey : stringArg L args "key" = some key) :
    ∃ table, (callTool L host ⟨"kv_get", args, outside⟩).1 = .ok table ∧
      L.get table (strBytes "value") = (host.answer key).map L.string := by
  have hcall : (callTool L host ⟨"kv_get", args, outside⟩).1 = toolKvGet L host args := rfl
  rw [hcall, toolKvGet, getStr_eq args "key" hkey, LiveHost.answer]
  cases hstored : host.kv (fromUtf8Lossy key) with
  | none =>
      refine ⟨L.rawset L.empty (strBytes "value") L.nil, ?_, hL.get_rawset_nil _⟩
      show (match host.kv (fromUtf8Lossy key) with
        | some val => _
        | none => _) = _
      rw [hstored]
      rfl
  | some val =>
      refine ⟨L.rawset L.empty (strBytes "value") (L.string (strBytes val)), ?_,
        hL.get_rawset_string _ _ _⟩
      show (match host.kv (fromUtf8Lossy key) with
        | some val => _
        | none => _) = _
      rw [hstored]
      rfl

/-! ## When the map is exact -/

/-- The arguments `{key = .., value = ..}`. -/
def setArgs (L : LuaCrate) (key value : Bytes) : L.Table :=
  L.rawset (L.rawset L.empty (strBytes "key") (L.string key)) (strBytes "value") (L.string value)

/-- A `kv_set` of a key and a value. -/
def setRequest (L : LuaCrate) (w : Bytes × Bytes) : Request L :=
  ⟨"kv_set", setArgs L w.1 w.2, .ok L.empty⟩

theorem arg_names_ne : strBytes "value" ≠ strBytes "key" := by decide

theorem stringArg_setArgs_key (hL : L.TableLaws) (key value : Bytes) :
    stringArg L (setArgs L key value) "key" = some key := by
  rw [stringArg, setArgs, hL.get_rawset_of_ne _ _ _ _ arg_names_ne, hL.get_rawset_string]
  exact hL.asString_string key

theorem stringArg_setArgs_value (hL : L.TableLaws) (key value : Bytes) :
    stringArg L (setArgs L key value) "value" = some value := by
  rw [stringArg, setArgs, hL.get_rawset_string]
  exact hL.asString_string value

theorem writesOf_setRequests (hL : L.TableLaws) (writes : List (Bytes × Bytes)) :
    writesOf L (writes.map (setRequest L)) = writes := by
  have hwrite : ∀ w, (setRequest L w).write L = some w := by
    intro w
    rw [Request.write_kvSet rfl]
    show (stringArg L (setArgs L w.1 w.2) "key").bind _ = _
    rw [stringArg_setArgs_key hL, Option.bind_some]
    show (stringArg L (setArgs L w.1 w.2) "value").map _ = _
    rw [stringArg_setArgs_value hL]
    rfl
  rw [writesOf, List.filterMap_map]
  calc writes.filterMap (Request.write L ∘ setRequest L)
      = writes.filterMap some := List.filterMap_congr fun w _ => hwrite w
    _ = writes := List.filterMap_some

theorem string_injective (hL : L.TableLaws) : Function.Injective L.string := by
  intro b b' h
  exact Option.some.inj ((hL.asString_string b).symm.trans ((congrArg L.asString h).trans
    (hL.asString_string b')))

/-- The tool answers like a plain map on byte strings. -/
theorem answer_exact_iff (hL : L.TableLaws) (K V : Set Bytes) :
    (∀ requests : List (Request L), (∀ w ∈ writesOf L requests, w.1 ∈ K ∧ w.2 ∈ V) → ∀ key ∈ K,
      (hostAfter L requests).answer key = lastWrite (writesOf L requests) key) ↔
      (V.Nonempty → K.InjOn fromUtf8Lossy) ∧ (K.Nonempty → ∀ v ∈ V, IsUtf8 v) := by
  have hcoded : (∀ writes : List (Bytes × Bytes), (∀ w ∈ writes, w.1 ∈ K ∧ w.2 ∈ V) →
      ∀ key ∈ K, (lastWrite (writes.map (Prod.map fromUtf8Lossy fromUtf8Lossy))
        (fromUtf8Lossy key)).map strBytes = lastWrite writes key) ↔
      (V.Nonempty → K.InjOn fromUtf8Lossy) ∧
        (K.Nonempty → ∀ v ∈ V, strBytes (fromUtf8Lossy v) = v) := coded_exact_iff
  simp only [strBytes_fromUtf8Lossy_iff] at hcoded
  rw [← hcoded]
  constructor
  · intro hanswer writes hwrites key hkey
    have h := hanswer (writes.map (setRequest L)) (by rwa [writesOf_setRequests hL]) key hkey
    rwa [LiveHost.answer, hostAfter_kv, writesOf_setRequests hL] at h
  · intro hexact requests hwithin key hkey
    rw [LiveHost.answer, hostAfter_kv]
    exact hexact (writesOf L requests) hwithin key hkey

/-- **When the key-value tool is an exact map**: no two of the keys may decode to the same text,
and the values must be UTF-8. -/
theorem kv_exact_iff (hL : L.TableLaws) (K V : Set Bytes) :
    KvExact L K V ↔
      (V.Nonempty → K.InjOn fromUtf8Lossy) ∧ (K.Nonempty → ∀ v ∈ V, IsUtf8 v) := by
  rw [← answer_exact_iff hL]
  constructor
  · intro hexact requests hwithin key hkey
    rcases hexact.get requests hwithin (setArgs L key key) (.ok L.empty) key
      (stringArg_setArgs_key hL key key) hkey with ⟨table, htable, hvalue⟩
    rcases kvGet_response hL (hostAfter L requests) (.ok L.empty)
      (stringArg_setArgs_key hL key key) with ⟨table', htable', hvalue'⟩
    have hsame : table = table' := Except.ok.inj (htable.symm.trans htable')
    rw [hsame, hvalue'] at hvalue
    exact Option.map_injective (string_injective hL) hvalue
  · intro hanswer
    refine ⟨?_, ?_, callTool_of_ne, fun host r e => callTool_failed host r⟩
    · intro requests hwithin args outside key harg hkey
      rw [← hanswer requests hwithin key hkey]
      exact kvGet_response hL (hostAfter L requests) outside harg
    · intro requests r hwithin key hkey hother
      have happend : writesOf L (requests ++ [r])
          = writesOf L requests ++ (r.write L).toList := by
        rw [writesOf, List.filterMap_append]
        cases hwrite : r.write L <;> simp [writesOf, hwrite]
      have hbefore : ∀ w ∈ writesOf L requests, w.1 ∈ K ∧ w.2 ∈ V := by
        intro w hw
        apply hwithin w
        rw [happend]
        exact List.mem_append_left _ hw
      rw [hanswer _ hwithin key hkey, hanswer _ hbefore key hkey, happend]
      cases hwrite : r.write L with
      | none => rw [Option.toList_none, List.append_nil]
      | some w => rw [Option.toList_some, lastWrite_concat, if_neg (hother w hwrite)]

end Tools

/-- On UTF-8 the codec is one-to-one, so a run that only uses UTF-8 is served exactly. -/
theorem fromUtf8Lossy_injOn : Set.InjOn fromUtf8Lossy {b | IsUtf8 b} := by
  intro b hb b' hb' h
  rw [← strBytes_fromUtf8Lossy_iff.mpr hb, h, strBytes_fromUtf8Lossy_iff.mpr hb']

/-! ## Two keys for one -/

/-- Tables as functions, with strings and `nil` for values. -/
def plainLua : LuaCrate where
  Value := Option Bytes
  Table := Bytes → Option (Option Bytes)
  nil := none
  string := some
  asString v := v
  empty _ := none
  get t k := t k
  rawset t k v := Function.update t k (v.map some)

theorem plainLua_tableLaws : plainLua.TableLaws where
  asString_string _ := rfl
  get_empty _ := rfl
  get_rawset_string _ _ _ := Function.update_self _ _ _
  get_rawset_nil _ := Function.update_self _ _ _
  get_rawset_of_ne _ _ _ _ h := Function.update_of_ne (Ne.symm h) _ _

theorem kv_exact_iff_utf8 :
    KvExact plainLua {b | IsUtf8 b} {b | IsUtf8 b} :=
  (kv_exact_iff plainLua_tableLaws _ _).mpr ⟨fun _ => fromUtf8Lossy_injOn, fun _ _ hv => hv⟩

/-- `kv_set("\xff", "a")`, then `kv_get("\xfe")`: the key was never set, and the answer is `"a"`.
Also `kv_set("k", "\xff")`, then `kv_get("k")`: the answer is another byte string. -/
theorem kv_not_exact :
    (hostAfter plainLua [setRequest plainLua ([0xff], [0x61])]).answer [0xfe] = some [0x61] ∧
      lastWrite (writesOf plainLua [setRequest plainLua ([0xff], [0x61])]) [0xfe] = none ∧
      (hostAfter plainLua [setRequest plainLua ([0x6b], [0xff])]).answer [0x6b]
        = some [0xef, 0xbf, 0xbd] ∧
      ¬KvExact plainLua Set.univ Set.univ := by
  have hkeys : (hostAfter plainLua [setRequest plainLua ([0xff], [0x61])]).answer [0xfe]
      = some [0x61] := by
    decide +kernel
  have hnever : lastWrite (writesOf plainLua [setRequest plainLua ([0xff], [0x61])]) [0xfe]
      = none := by
    decide +kernel
  refine ⟨hkeys, hnever, by decide +kernel, ?_⟩
  intro hexact
  rcases hexact.get [setRequest plainLua ([0xff], [0x61])]
    (fun w _ => ⟨Set.mem_univ w.1, Set.mem_univ w.2⟩) (setArgs plainLua [0xfe] [])
    (.ok plainLua.empty) [0xfe] (stringArg_setArgs_key plainLua_tableLaws _ _) (Set.mem_univ _)
    with ⟨table, htable, hvalue⟩
  rcases kvGet_response plainLua_tableLaws (hostAfter plainLua
    [setRequest plainLua ([0xff], [0x61])]) (.ok plainLua.empty)
    (stringArg_setArgs_key plainLua_tableLaws [0xfe] []) with ⟨table', htable', hvalue'⟩
  have hsame : table = table' := Except.ok.inj (htable.symm.trans htable')
  rw [hsame, hvalue', hkeys, hnever] at hvalue
  cases hvalue

end ProvenoOracle
