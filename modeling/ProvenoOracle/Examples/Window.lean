import ProvenoOracle.Codec.DigitRuns
import ProvenoOracle.Codec.Ring
import ProvenoOracle.Rust.Utf8

/-! # The window programs

`examples/window_max_breach.lua` is the task that the benchmarks prove: has the price reached a
threshold within the last observations? `examples/bench/gen.py` generates it for any number of
observations in two modes. In the mode `harness` a builtin decodes the observations, as in the
example. In the mode `inlua` the program reads the bytes itself and keeps the prices of the window
in a ring.

`window_max_breach_verdict` says what the example returns, and `bench_modes_agree` that the two
modes compute the same. Times, prices and windows are natural numbers: the mode `inlua` does not
read signs.
-/

set_option autoImplicit false

namespace ProvenoOracle.Examples

open Codec

/-! ## The programs -/

/-- An observation: its time and its price. -/
structure Observation where
  t : Nat
  p : Nat
  deriving DecidableEq

/-- The loop over the window: the first observation with the highest price so far. -/
def better (best : Option Observation) (obs : Observation) : Option Observation :=
  match best with
  | none => some obs
  | some b => if b.p < obs.p then some obs else some b

/-- `start`, from which on the observations are in the window. -/
def windowStart (n window : Nat) : Int :=
  let start : Int := n - window + 1
  if start < 1 then 1 else start

/-- `for i = start, n`. An index without an observation is an error. -/
def windowBest (observations : List Observation) (window : Nat) : Option (Option Observation) :=
  let n := observations.length
  let start := (windowStart n window).toNat
  (List.range' start (n + 1 - start)).foldlM
    (fun best i => (observations[i - 1]?).map (better best)) none

/-- The table that `window_max_breach.lua` returns. -/
structure Verdict where
  breached : Bool
  decidingValue : Nat
  decidingT : Nat
  threshold : Int
  window : Nat
  samples : Nat
  deriving DecidableEq

/-- `window_max_breach.lua`, from the decoded observations on. Comparing `nil` is an error. -/
def windowMaxBreach (observations : List Observation) (window : Nat) (threshold : Int) :
    Option Verdict := do
  let best ← windowBest observations window
  let b ← best
  return ⟨threshold ≤ b.p, b.p, b.t, threshold, window, observations.length⟩

/-- The program of `gen_harness`, with `json.decode`. -/
def harness (decode : String → Option (List Observation)) (raw : String) (window : Nat)
    (threshold : Int) : Option Int := do
  let observations ← decode raw
  let best ← windowBest observations window
  let b ← best
  if threshold ≤ b.p then return b.p
  return 0

/-- What the finished integers change: the table `buf`, the number of prices and the index of the
current integer. -/
structure Prices where
  buf : Nat → Option Nat
  count : Nat
  idx : Nat

/-- The variables of the byte scanner. -/
structure Scanner where
  prices : Prices
  inNum : Bool
  cur : Nat

/-- An integer is finished: every second one is a price. A window of zero has no slots. -/
def finishInteger (window : Nat) (prices : Prices) (cur : Nat) : Option Prices :=
  if prices.idx % 2 = 1 then
    let count := prices.count + 1
    if window = 0 then none
    else
      let slot := (count - 1) % window + 1
      some { prices with count := count, buf := Function.update prices.buf slot (some cur) }
  else some prices

/-- One more byte. The model ends where an integer leaves the 64 bits of the machine. -/
def scanByte (window : Nat) (s : Scanner) (b : Nat) : Option Scanner :=
  if 48 ≤ b ∧ b ≤ 57 then
    let cur := s.cur * 10 + (b - 48)
    if cur < 2 ^ 63 then some { s with cur := cur, inNum := true } else none
  else if s.inNum then
    (finishInteger window s.prices s.cur).map fun prices =>
      { prices := { prices with idx := prices.idx + 1 }, inNum := false, cur := 0 }
  else some s

/-- The loop over the slots: the highest value so far. -/
def higher (best : Option Nat) (v : Nat) : Option Nat :=
  match best with
  | none => some v
  | some m => if m < v then some v else some m

/-- The maximum of the retained slots, from the first one on. -/
def slotsMax (buf : Nat → Option Nat) (kept : Nat) : Option (Option Nat) :=
  (List.range' 1 kept).foldlM (fun best k => (buf k).map (higher best)) none

/-- The program of `gen_inlua`. -/
def inlua (raw : String) (window : Nat) (threshold : Int) : Option Int := do
  let start : Scanner := ⟨⟨fun _ => none, 0, 0⟩, false, 0⟩
  let s ← (strBytes raw).foldlM (fun s b => scanByte window s b.toNat) start
  let prices ← if s.inNum then finishInteger window s.prices s.cur else some s.prices
  let kept := if window < prices.count then window else prices.count
  let best ← slotsMax prices.buf kept
  let windowMax := best.getD 0
  if threshold ≤ windowMax then return windowMax
  return 0

/-- One observation in `observations_json`. -/
def observationJson (o : Observation) : String := s!"\x7b\"t\":{o.t},\"p\":{o.p}\x7d"

/-- `observations_json`, of any observations. -/
def observationsJson (observations : List Observation) : String :=
  "[" ++ ",".intercalate (observations.map observationJson) ++ "]"

/-- The string between the long brackets. Its first line break is left out by Lua. -/
def rawText (observations : List Observation) : String := observationsJson observations ++ "\n"

/-- `prices`, in `gen.py` -/
def genPrice (i : Nat) : Nat := 10000 + i * 37 % 500 - 250 + i * i % 91

/-- The observations of `gen.py`. -/
def genObservations (n : Nat) : List Observation :=
  (List.range n).map fun i => ⟨1718750000 + i * 60, genPrice i⟩

/-! ## The window -/

/-- A loop over indices goes over the elements. By induction on their number. -/
theorem foldlM_indices {α β : Type} (f : β → α → β) (xs : List α) (n : Nat) : ∀ (k : Nat) (b : β),
    k + n = xs.length →
    (List.range' (k + 1) n).foldlM (fun b i => (xs[i - 1]?).map (f b)) b
      = some ((xs.drop k).foldl f b) := by
  induction n with
  | zero =>
      intro k b hk
      rw [List.drop_eq_nil_of_le (by omega)]
      rfl
  | succ n ih =>
      intro k b hk
      have hlt : k < xs.length := by omega
      rw [List.range'_succ, List.foldlM_cons, Nat.add_sub_cancel, List.getElem?_eq_getElem hlt,
        List.drop_eq_getElem_cons hlt, List.foldl_cons]
      exact ih (k + 1) (f b xs[k]) (by omega)

theorem windowStart_toNat (n window : Nat) :
    (windowStart n window).toNat = n - window + 1 := by
  unfold windowStart
  simp only
  split <;> omega

/-- The loop goes over the last observations. -/
theorem windowBest_eq (observations : List Observation) (window : Nat) :
    windowBest observations window
      = some ((observations.rtake window).foldl better none) := by
  unfold windowBest
  simp only [windowStart_toNat, List.rtake]
  rw [show observations.length + 1 - (observations.length - window + 1)
    = observations.length - (observations.length - window) by omega]
  exact foldlM_indices better observations _ _ none (by omega)

/-- The first observation with the highest price. -/
def Earliest (observations : List Observation) (o : Observation) : Prop :=
  ∃ front back, observations = front ++ o :: back ∧ (∀ x ∈ front, x.p < o.p) ∧
    ∀ x ∈ back, x.p ≤ o.p

theorem Earliest.mem {observations : List Observation} {o : Observation}
    (h : Earliest observations o) : o ∈ observations := by
  obtain ⟨front, back, rfl, -, -⟩ := h
  simp

theorem Earliest.le {observations : List Observation} {o x : Observation}
    (h : Earliest observations o) (hx : x ∈ observations) : x.p ≤ o.p := by
  obtain ⟨front, back, rfl, hfront, hback⟩ := h
  rcases List.mem_append.mp hx with hx | hx
  · exact Nat.le_of_lt (hfront x hx)
  · rcases List.mem_cons.mp hx with rfl | hx
    · exact Nat.le_refl _
    · exact hback x hx

/-- **What the loop finds**, by induction from the last observation on. -/
theorem foldl_better (observations : List Observation) :
    (observations = [] ∧ observations.foldl better none = none) ∨
      ∃ o, Earliest observations o ∧ observations.foldl better none = some o := by
  induction observations using List.reverseRecOn with
  | nil => exact Or.inl ⟨rfl, rfl⟩
  | append_singleton observations x ih =>
      rw [List.foldl_append]
      rcases ih with ⟨rfl, hnone⟩ | ⟨o, ⟨front, back, rfl, hfront, hback⟩, hsome⟩
      · exact Or.inr ⟨x, ⟨[], [], rfl, by simp, by simp⟩, rfl⟩
      · rw [hsome]
        by_cases hlt : o.p < x.p
        · -- a new maximum: everything before it is lower
          refine Or.inr ⟨x, ⟨front ++ o :: back, [], rfl, ?_, by simp⟩, if_pos hlt⟩
          intro y hy
          have hle : y.p ≤ o.p := Earliest.le ⟨front, back, rfl, hfront, hback⟩ hy
          omega
        · refine Or.inr ⟨o, ⟨front, back ++ [x], by simp, hfront, ?_⟩, if_neg hlt⟩
          intro y hy
          rcases List.mem_append.mp hy with hy | hy
          · exact hback y hy
          · obtain rfl := List.mem_singleton.mp hy
            omega

/-- What `window_max_breach.lua` returns for some observations. -/
structure VerdictOf (observations : List Observation) (window : Nat) (threshold : Int)
    (v : Verdict) : Prop where
  breached : v.breached = true ↔ ∃ o ∈ observations.rtake window, threshold ≤ o.p
  deciding : Earliest (observations.rtake window) ⟨v.decidingT, v.decidingValue⟩
  inputs : v.threshold = threshold ∧ v.window = window ∧ v.samples = observations.length

/-- **The verdict of the example**: it fails where the window holds no observation, and otherwise
reports a breach exactly when a price in the window reaches the threshold, with the highest price
of the window and the first time at which it was seen. -/
theorem window_max_breach_verdict (observations : List Observation) (window : Nat)
    (threshold : Int) :
    (windowMaxBreach observations window threshold = none ↔ observations = [] ∨ window = 0) ∧
      ∀ v, windowMaxBreach observations window threshold = some v →
        VerdictOf observations window threshold v := by
  have hempty : observations.rtake window = [] ↔ observations = [] ∨ window = 0 := by
    rw [List.rtake, List.drop_eq_nil_iff, ← List.length_eq_zero_iff]
    omega
  unfold windowMaxBreach
  rw [windowBest_eq]
  rcases foldl_better (observations.rtake window) with ⟨hnil, hnone⟩ | ⟨o, ho, hsome⟩
  · rw [hnone]
    exact ⟨⟨fun _ => hempty.mp hnil, fun _ => rfl⟩, by simp⟩
  · rw [hsome]
    have hne : observations.rtake window ≠ [] := List.ne_nil_of_mem ho.mem
    refine ⟨⟨by simp, fun h => absurd (hempty.mpr h) hne⟩, ?_⟩
    intro v hv
    obtain rfl : (⟨threshold ≤ o.p, o.p, o.t, threshold, window, observations.length⟩ : Verdict)
        = v := by simpa using hv
    refine ⟨?_, ho, rfl, rfl, rfl⟩
    constructor
    · intro hbreached
      exact ⟨o, ho.mem, by simpa using hbreached⟩
    · rintro ⟨x, hx, hle⟩
      have hmax := ho.le hx
      show decide (threshold ≤ o.p) = true
      exact decide_eq_true (by omega)

/-- The observations of the example. -/
example : windowMaxBreach [⟨1718750000, 9980⟩, ⟨1718750060, 10010⟩, ⟨1718750120, 10005⟩,
    ⟨1718750180, 10240⟩, ⟨1718750240, 10120⟩, ⟨1718750300, 10075⟩] 4 10200
    = some ⟨true, 10240, 1718750180, 10200, 4, 6⟩ := by decide

/-! ## The maximum of the ring -/

/-- A highest value, if there is any. -/
def Highest (values : Nat → Prop) (best : Option Nat) : Prop :=
  (best = none ∧ ∀ v, ¬ values v) ∨ ∃ m, best = some m ∧ values m ∧ ∀ v, values v → v ≤ m

theorem Highest.unique {values : Nat → Prop} {best best' : Option Nat} (h : Highest values best)
    (h' : Highest values best') : best = best' := by
  rcases h with ⟨rfl, hnone⟩ | ⟨m, rfl, hm, hmax⟩ <;>
    rcases h' with ⟨rfl, hnone'⟩ | ⟨m', rfl, hm', hmax'⟩
  · rfl
  · exact absurd hm' (hnone m')
  · exact absurd hm (hnone' m)
  · rw [Nat.le_antisymm (hmax' m hm) (hmax m' hm')]

theorem Highest.congr {values values' : Nat → Prop} {best : Option Nat} (h : Highest values best)
    (hv : ∀ v, values v ↔ values' v) : Highest values' best := by
  obtain rfl : values = values' := funext fun v => propext (hv v)
  exact h

theorem Highest.some_of_mem {values : Nat → Prop} {best : Option Nat} (h : Highest values best)
    {v : Nat} (hv : values v) : ∃ m, best = some m ∧ values m ∧ ∀ w, values w → w ≤ m := by
  rcases h with ⟨-, hnone⟩ | hsome
  · exact absurd hv (hnone v)
  · exact hsome

theorem Highest.eq_none {values : Nat → Prop} {best : Option Nat} (h : Highest values best)
    (hv : ∀ v, ¬ values v) : best = none := by
  rcases h with ⟨hnone, -⟩ | ⟨m, -, hm, -⟩
  · exact hnone
  · exact absurd hm (hv m)

/-- The loop over the slots, by induction on their number. -/
theorem slotsMax_spec {buf : Nat → Option Nat} {kept : Nat}
    (hfilled : ∀ k < kept, ∃ v, buf (k + 1) = some v) :
    ∃ best, slotsMax buf kept = some best ∧
      Highest (fun v => ∃ k < kept, buf (k + 1) = some v) best := by
  unfold slotsMax
  induction kept with
  | zero => exact ⟨none, rfl, Or.inl ⟨rfl, by simp⟩⟩
  | succ kept ih =>
      obtain ⟨best, hbest, hhighest⟩ := ih fun k hk => hfilled k (by omega)
      obtain ⟨v, hv⟩ := hfilled kept (by omega)
      rw [List.range'_1_concat, List.foldlM_append, hbest]
      have hvalues : ∀ w, (∃ k < kept + 1, buf (k + 1) = some w) ↔
          (∃ k < kept, buf (k + 1) = some w) ∨ w = v := by
        intro w
        constructor
        · rintro ⟨k, hk, hw⟩
          by_cases hlast : k = kept
          · rw [hlast, hv] at hw
            exact Or.inr (Option.some.inj hw).symm
          · exact Or.inl ⟨k, by omega, hw⟩
        · rintro (⟨k, hk, hw⟩ | rfl)
          · exact ⟨k, by omega, hw⟩
          · exact ⟨kept, by omega, hv⟩
      have hlast : ([1 + kept].foldlM (fun best k => (buf k).map (higher best)) best)
          = some (higher best v) := by
        rw [List.foldlM_cons, Nat.add_comm, hv]
        rfl
      refine ⟨higher best v, hlast, Highest.congr ?_ fun w => (hvalues w).symm⟩
      rcases hhighest with ⟨rfl, hnone⟩ | ⟨m, rfl, hm, hmax⟩
      · refine Or.inr ⟨v, rfl, Or.inr rfl, ?_⟩
        rintro w (hw | rfl)
        · exact absurd hw (hnone w)
        · exact Nat.le_refl w
      · by_cases hlt : m < v
        · refine Or.inr ⟨v, if_pos hlt, Or.inr rfl, ?_⟩
          rintro w (hw | rfl)
          · exact Nat.le_of_lt (Nat.lt_of_le_of_lt (hmax w hw) hlt)
          · exact Nat.le_refl w
        · refine Or.inr ⟨m, if_neg hlt, Or.inl hm, ?_⟩
          rintro w (hw | rfl)
          · exact hmax w hw
          · omega

/-- The prices that a ring of the last prices retains. -/
theorem ring_values {window : Nat} (hwindow : 0 < window) {ps : List Nat}
    {buf : Nat → Option Nat} (hring : RingOf window ps fun j => buf (j + 1)) {kept : Nat}
    (hkept : kept = min window ps.length) :
    ∃ best, slotsMax buf kept = some best ∧ Highest (fun v => v ∈ ps.rtake window) best := by
  have hfilled : ∀ k < kept, ∃ v ∈ ps.rtake window, buf (k + 1) = some v := by
    intro k hk
    exact hring.filled (by omega) (by omega)
  obtain ⟨best, hbest, hhighest⟩ := slotsMax_spec fun k hk => by
    obtain ⟨v, -, hv⟩ := hfilled k hk
    exact ⟨v, hv⟩
  refine ⟨best, hbest, hhighest.congr ?_⟩
  intro v
  constructor
  · rintro ⟨k, hk, hv⟩
    obtain ⟨w, hw, hslot⟩ := hfilled k hk
    rw [hv] at hslot
    exact Option.some.inj hslot ▸ hw
  · intro hv
    obtain ⟨j, hj, hlt, hslot⟩ := hring.mem_last hwindow hv
    exact ⟨j, by omega, hslot⟩

/-! ## The byte scanner -/

/-- An integer that is not the last one. -/
def nextInteger (window : Nat) (prices : Prices) (n : Nat) : Option Prices :=
  (finishInteger window prices n).map fun prices => { prices with idx := prices.idx + 1 }

/-- The variables of the scanner, from the number that it is inside of. -/
def scannerAt (x : Prices × Option Nat) : Scanner := ⟨x.1, x.2.isSome, x.2.getD 0⟩

/-- **The byte scanner is the scanner of numbers.** -/
theorem scanByte_scannerAt (window : Nat) (x : Prices × Option Nat) (c : Char) :
    scanByte window (scannerAt x) c.toNat
      = (scanChar (2 ^ 63) (nextInteger window) x c).map scannerAt := by
  unfold scanByte scanChar
  have hdigit : c.isDigit = true ↔ 48 ≤ c.toNat ∧ c.toNat ≤ 57 := Char.isDigit_iff_toNat
  by_cases hc : c.isDigit = true
  · rw [if_pos hc, if_pos (hdigit.mp hc)]
    show (if x.2.getD 0 * 10 + (c.toNat - 48) < 2 ^ 63 then _ else none)
      = Option.map _ (if x.2.getD 0 * 10 + (c.toNat - 48) < 2 ^ 63 then _ else none)
    split <;> rfl
  · rw [if_neg hc, if_neg (mt hdigit.mpr hc)]
    rcases x with ⟨prices, - | n⟩
    · rfl
    · show (finishInteger window prices n).map _
        = Option.map _ (Option.map _ ((finishInteger window prices n).map _))
      cases finishInteger window prices n <;> rfl

/-- The bytes of a text of ASCII characters are their numbers. -/
theorem foldlM_charBytes {σ : Type} (f : σ → Nat → Option σ) {cs : List Char} :
    (∀ c ∈ cs, c.toNat < 128) → ∀ s,
      (charBytes cs).foldlM (fun s b => f s b.toNat) s = cs.foldlM (fun s c => f s c.toNat) s := by
  induction cs with
  | nil => exact fun _ _ => rfl
  | cons c cs ih =>
      intro h s
      have hc : c.toNat < 128 := h c (by simp)
      have hsize : c.utf8Size = 1 := by
        rw [Char.utf8Size_eq_one_iff, UInt32.le_iff_toNat_le]
        exact Nat.le_of_lt_succ hc
      have hbyte : c.val.toUInt8.toNat = c.toNat := by
        rw [UInt32.toNat_toUInt8]
        exact Nat.mod_eq_of_lt (by rw [Char.toNat_val]; omega)
      rw [charBytes, List.flatMap_cons, String.utf8EncodeChar_eq_singleton hsize,
        List.singleton_append, List.foldlM_cons, List.foldlM_cons, hbyte]
      cases f s c.toNat with
      | none => rfl
      | some s' => exact ih (fun d hd => h d (by simp [hd])) s'

theorem scanBytes_eq (window : Nat) {text : String} (h : ∀ c ∈ text.toList, c.toNat < 128)
    (x : Prices × Option Nat) :
    (strBytes text).foldlM (fun s b => scanByte window s b.toNat) (scannerAt x)
      = (scan (2 ^ 63) (nextInteger window) x text.toList).map scannerAt := by
  rw [strBytes_eq_charBytes, foldlM_charBytes (scanByte window) h]
  generalize text.toList = cs
  induction cs generalizing x with
  | nil => rfl
  | cons c cs ih =>
      rw [List.foldlM_cons, scanByte_scannerAt, scan, List.foldlM_cons]
      cases scanChar (2 ^ 63) (nextInteger window) x c with
      | none => rfl
      | some x' => exact ih x'

/-! ## The text of the observations -/

/-- One observation, behind the character before it. -/
def entryText (lead : Char) (o : Observation) : List Char :=
  (lead :: "\x7b\"t\":".toList ++ (Nat.toDigits 10 o.t ++ [','])) ++
    ("\"p\":".toList ++ (Nat.toDigits 10 o.p ++ ['\x7d']))

theorem observationJson_toList (o : Observation) (lead : Char) :
    lead :: (observationJson o).toList = entryText lead o := by
  simp [observationJson, entryText, toString, Nat.toList_repr]

theorem rawText_nil : (rawText []).toList = "[]\n".toList := by decide

theorem rawText_cons (o : Observation) (observations : List Observation) :
    (rawText (o :: observations)).toList
      = entryText '[' o ++ observations.flatMap (entryText ',') ++ "]\n".toList := by
  have hjoin : ∀ (x : String) (xs : List String), (",".intercalate (x :: xs)).toList
      = x.toList ++ xs.flatMap fun y => ',' :: y.toList := by
    intro x xs
    induction xs generalizing x with
    | nil => simp
    | cons y ys ih => simp [String.intercalate_cons_cons, ih]
  rw [rawText, observationsJson, List.map_cons]
  have hentries : entryText ',' = fun a => ',' :: (observationJson a).toList :=
    funext fun a => (observationJson_toList a ',').symm
  rw [hentries, ← observationJson_toList]
  simp only [String.toList_append, hjoin, List.flatMap_map]
  simp

theorem isDigit_lt {c : Char} (h : c.isDigit = true) : c.toNat < 128 := by
  have hbound : c.toNat ≤ 57 := (Char.isDigit_iff_toNat.mp h).2
  omega

theorem entryText_ascii {lead : Char} (hlead : lead.toNat < 128) (o : Observation) :
    ∀ c ∈ entryText lead o, c.toNat < 128 := by
  have hdigits : ∀ n, ∀ c ∈ Nat.toDigits 10 n, c.toNat < 128 := fun n c hc =>
    isDigit_lt (Nat.isDigit_of_mem_toDigits (by omega) (by omega) hc)
  have hfront : ∀ c ∈ "\x7b\"t\":".toList, c.toNat < 128 := by simp
  have hmiddle : ∀ c ∈ "\"p\":".toList, c.toNat < 128 := by simp
  intro c hc
  simp only [entryText, List.mem_append, List.mem_cons, List.not_mem_nil, or_false] at hc
  rcases hc with ((rfl | hc) | hc | rfl) | hc | hc | rfl
  · exact hlead
  · exact hfront c hc
  · exact hdigits _ c hc
  · decide
  · exact hmiddle c hc
  · exact hdigits _ c hc
  · decide

theorem rawText_ascii (observations : List Observation) :
    ∀ c ∈ (rawText observations).toList, c.toNat < 128 := by
  cases observations with
  | nil =>
      rw [rawText_nil]
      simp
  | cons o observations =>
      rw [rawText_cons]
      intro c hc
      simp only [List.mem_append, List.mem_flatMap] at hc
      rcases hc with (hc | ⟨o', -, hc⟩) | hc
      · exact entryText_ascii (by decide) o c hc
      · exact entryText_ascii (by decide) o' c hc
      · revert c
        simp

/-! ## Scanning the observations -/

/-- An observation whose integers fit. -/
def Observation.Fits (o : Observation) : Prop := o.t < 2 ^ 63 ∧ o.p < 2 ^ 63

/-- What an observation changes. -/
def record (window : Nat) (prices : Prices) (o : Observation) : Prices where
  buf := Function.update prices.buf (prices.count % window + 1) (some o.p)
  count := prices.count + 1
  idx := prices.idx + 2

/-- **The state after some observations**: every second integer was a price, and the last prices
are in the ring. -/
structure Recorded (window : Nat) (observations : List Observation) (prices : Prices) : Prop where
  idx : prices.idx = 2 * observations.length
  count : prices.count = observations.length
  ring : RingOf window (observations.map Observation.p) fun j => prices.buf (j + 1)

theorem Recorded.record {window : Nat} (hwindow : 0 < window) {observations : List Observation}
    {prices : Prices} (h : Recorded window observations prices) (o : Observation) :
    Recorded window (observations ++ [o]) (record window prices o) where
  idx := by
    show prices.idx + 2 = _
    rw [h.idx, List.length_append, List.length_singleton]
    omega
  count := by
    show prices.count + 1 = _
    rw [h.count, List.length_append, List.length_singleton]
  ring := by
    have hput := h.ring.put hwindow o.p
    rw [List.length_map] at hput
    rw [List.map_append]
    have hslots : (fun j => (Examples.record window prices o).buf (j + 1))
        = Function.update (fun j => prices.buf (j + 1)) (observations.length % window)
          (some o.p) := by
      funext j
      show Function.update prices.buf (prices.count % window + 1) (some o.p) (j + 1) = _
      rw [h.count]
      by_cases hj : j = observations.length % window
      · rw [hj, Function.update_self, Function.update_self]
      · rw [Function.update_of_ne hj, Function.update_of_ne (by omega)]
    rw [hslots]
    exact hput

/-- The time of an observation is skipped. -/
theorem nextInteger_time (window : Nat) {prices : Prices} (hidx : prices.idx % 2 = 0) (n : Nat) :
    nextInteger window prices n = some { prices with idx := prices.idx + 1 } := by
  rw [nextInteger, finishInteger, if_neg (by omega)]
  rfl

/-- The two integers of an observation; a window of zero has no slot for the price. -/
theorem nextInteger_observation (window : Nat) {prices : Prices} (hidx : prices.idx % 2 = 0)
    (o : Observation) :
    ((nextInteger window prices o.t).bind fun prices' => nextInteger window prices' o.p)
      = if window = 0 then none else some (record window prices o) := by
  rw [nextInteger_time window hidx]
  show nextInteger window { prices with idx := prices.idx + 1 } o.p = _
  rw [nextInteger, finishInteger, if_pos (by show (prices.idx + 1) % 2 = 1; omega)]
  by_cases hwindow : window = 0
  · rw [if_pos hwindow]
    simp only [if_pos hwindow]
    rfl
  · rw [if_neg hwindow]
    simp only [if_neg hwindow, Nat.add_sub_cancel]
    rfl

/-- An entry of the text is its two integers. -/
theorem scan_entry (window : Nat) {lead : Char} (hlead : lead.isDigit = false) {o : Observation}
    (ho : o.Fits) (prices : Prices) :
    scan (2 ^ 63) (nextInteger window) (prices, none) (entryText lead o)
      = ((nextInteger window prices o.t).bind fun prices' => nextInteger window prices' o.p).map
        fun prices' => (prices', none) := by
  have hfront : ∀ c ∈ lead :: "\x7b\"t\":".toList, c.isDigit = false := by
    have hfixed : ∀ c ∈ "\x7b\"t\":".toList, c.isDigit = false := by simp
    intro c hc
    rcases List.mem_cons.mp hc with rfl | hc
    · exact hlead
    · exact hfixed c hc
  rw [entryText, scan_append, scan_number hfront ho.1 (by decide)]
  cases nextInteger window prices o.t with
  | none => rfl
  | some prices' => exact scan_number (by simp) ho.2 (by decide) prices'

/-- The entries behind the first one, by induction on them. -/
theorem scan_entries {window : Nat} (hwindow : 0 < window) (rest : List Observation) :
    ∀ {observations : List Observation} {prices : Prices}, Recorded window observations prices →
      (∀ o ∈ rest, o.Fits) → ∃ prices', Recorded window (observations ++ rest) prices' ∧
        scan (2 ^ 63) (nextInteger window) (prices, none) (rest.flatMap (entryText ','))
          = some (prices', none) := by
  induction rest with
  | nil =>
      intro observations prices h _
      exact ⟨prices, by rwa [List.append_nil], rfl⟩
  | cons o rest ih =>
      intro observations prices h hfits
      have hidx : prices.idx % 2 = 0 := by
        rw [h.idx]
        omega
      obtain ⟨prices', hrecorded, hscan⟩ := ih (h.record hwindow o) fun o' ho' =>
        hfits o' (List.mem_cons_of_mem o ho')
      refine ⟨prices', by rwa [List.append_assoc] at hrecorded, ?_⟩
      rw [List.flatMap_cons, scan_append,
        scan_entry window (by decide) (hfits o List.mem_cons_self) prices,
        nextInteger_observation window hidx, if_neg (Nat.ne_of_gt hwindow)]
      exact hscan

/-- The variables before the first byte. -/
def noPrices : Prices := ⟨fun _ => none, 0, 0⟩

theorem recorded_nil (window : Nat) : Recorded window [] noPrices :=
  ⟨rfl, rfl, ringOf_nil window⟩

/-- The whole text: all observations are recorded, and the scanner is outside of a number. -/
theorem scan_rawText {window : Nat} (hwindow : 0 < window) {observations : List Observation}
    (hfits : ∀ o ∈ observations, o.Fits) : ∃ prices, Recorded window observations prices ∧
      scan (2 ^ 63) (nextInteger window) (noPrices, none) (rawText observations).toList
        = some (prices, none) := by
  cases observations with
  | nil =>
      refine ⟨noPrices, recorded_nil window, ?_⟩
      rw [rawText_nil]
      exact scan_blank (by simp) noPrices
  | cons o rest =>
      obtain ⟨prices, hrecorded, hscan⟩ := scan_entries hwindow rest
        ((recorded_nil window).record hwindow o) fun o' ho' => hfits o' (List.mem_cons_of_mem o ho')
      refine ⟨prices, hrecorded, ?_⟩
      have hfirst : scan (2 ^ 63) (nextInteger window) (noPrices, none) (entryText '[' o)
          = some (record window noPrices o, none) := by
        rw [scan_entry window (by decide) (hfits o List.mem_cons_self),
          nextInteger_observation window (by decide), if_neg (Nat.ne_of_gt hwindow)]
        rfl
      rw [rawText_cons, scan_append, scan_append, hfirst]
      show ((scan _ _ (record window noPrices o, none) _).bind _) = _
      rw [hscan]
      exact scan_blank (by simp) prices

/-- With a window of zero the scanner stops at the first price. -/
theorem scan_rawText_zero (o : Observation) (rest : List Observation) (ho : o.Fits) :
    scan (2 ^ 63) (nextInteger 0) (noPrices, none) (rawText (o :: rest)).toList = none := by
  rw [rawText_cons, scan_append, scan_append, scan_entry 0 (by decide) ho,
    nextInteger_observation 0 (by decide), if_pos rfl]
  rfl

/-! ## The two modes -/

/-- The value that both programs return for a maximum. -/
def returned (threshold : Int) (m : Nat) : Int := if threshold ≤ m then m else 0

/-- The prices in the window. -/
def windowPrices (observations : List Observation) (window : Nat) : List Nat :=
  (observations.map Observation.p).rtake window

theorem windowPrices_eq (observations : List Observation) (window : Nat) :
    windowPrices observations window = (observations.rtake window).map Observation.p := by
  rw [windowPrices, List.rtake, List.rtake, List.length_map, List.map_drop]

variable {decode : String → Option (List Observation)} {observations : List Observation}

/-- What the program of the mode `harness` returns. -/
theorem harness_eq (hdecode : decode (rawText observations) = some observations) (window : Nat)
    (threshold : Int) : ∃ best, Highest (fun v => v ∈ windowPrices observations window) best ∧
      harness decode (rawText observations) window threshold = best.map (returned threshold) := by
  rw [harness, hdecode, windowPrices_eq]
  simp only [Option.bind_eq_bind, Option.bind_some, windowBest_eq]
  rcases foldl_better (observations.rtake window) with ⟨hnil, hnone⟩ | ⟨o, ho, hsome⟩
  · exact ⟨none, Or.inl ⟨rfl, by simp [hnil]⟩, by rw [hnone]; rfl⟩
  · refine ⟨some o.p, Or.inr ⟨o.p, rfl, List.mem_map_of_mem ho.mem, ?_⟩, ?_⟩
    · intro v hv
      obtain ⟨x, hx, rfl⟩ := List.mem_map.mp hv
      exact ho.le hx
    · rw [hsome]
      show (if threshold ≤ o.p then some (o.p : Int) else some 0) = some (returned threshold o.p)
      unfold returned
      split <;> rfl

/-- The program of the mode `inlua`, from the end of the scan on. -/
theorem inlua_of_scan {window : Nat} {prices : Prices}
    (hscan : scan (2 ^ 63) (nextInteger window) (noPrices, none) (rawText observations).toList
      = some (prices, none)) (threshold : Int) :
    inlua (rawText observations) window threshold
      = (slotsMax prices.buf (min window prices.count)).map fun best =>
        returned threshold (best.getD 0) := by
  have hbytes := scanBytes_eq window (rawText_ascii observations) (noPrices, none)
  rw [hscan] at hbytes
  have hkept : (if window < prices.count then window else prices.count)
      = min window prices.count := by
    split <;> omega
  unfold inlua
  show Option.bind ((strBytes (rawText observations)).foldlM
    (fun s b => scanByte window s b.toNat) (scannerAt (noPrices, none))) _ = _
  rw [hbytes, ← hkept]
  show Option.bind (slotsMax prices.buf
    (if window < prices.count then window else prices.count)) _ = _
  cases slotsMax prices.buf (if window < prices.count then window else prices.count) with
  | none => rfl
  | some best =>
      show (if threshold ≤ (best.getD 0 : Nat) then some ((best.getD 0 : Nat) : Int) else some 0)
        = some (returned threshold (best.getD 0))
      unfold returned
      split <;> rfl

/-- What the program of the mode `inlua` returns. -/
theorem inlua_eq (hfits : ∀ o ∈ observations, o.Fits) {window : Nat} (hwindow : 0 < window)
    (threshold : Int) : ∃ best, Highest (fun v => v ∈ windowPrices observations window) best ∧
      inlua (rawText observations) window threshold
        = some (returned threshold (best.getD 0)) := by
  obtain ⟨prices, hrecorded, hscan⟩ := scan_rawText hwindow hfits
  have hkept : min window prices.count = min window (observations.map Observation.p).length := by
    rw [hrecorded.count, List.length_map]
  obtain ⟨best, hbest, hhighest⟩ := ring_values hwindow hrecorded.ring hkept
  refine ⟨best, hhighest, ?_⟩
  rw [inlua_of_scan hscan, hbest]
  rfl

/-- Without observations the maximum of the mode `inlua` is zero. -/
theorem inlua_nil (window : Nat) (threshold : Int) :
    inlua (rawText []) window threshold = some (returned threshold 0) := by
  have hscan : scan (2 ^ 63) (nextInteger window) (noPrices, none) (rawText []).toList
      = some (noPrices, none) := by
    rw [rawText_nil]
    exact scan_blank (by simp) _
  rw [inlua_of_scan hscan, show noPrices.count = 0 from rfl, Nat.min_zero]
  rfl

/-- With a window of zero the mode `inlua` fails at the first price. -/
theorem inlua_zero {o : Observation} {rest : List Observation} (ho : o.Fits) (threshold : Int) :
    inlua (rawText (o :: rest)) 0 threshold = none := by
  have hbytes := scanBytes_eq 0 (rawText_ascii (o :: rest)) (noPrices, none)
  rw [scan_rawText_zero o rest ho] at hbytes
  unfold inlua
  show Option.bind ((strBytes (rawText (o :: rest))).foldlM
    (fun s b => scanByte 0 s b.toNat) (scannerAt (noPrices, none))) _ = _
  rw [hbytes]
  rfl

/-- A window holds a price, unless it is zero or there is none. -/
theorem windowPrices_mem {window : Nat} (hwindow : 0 < window) (hne : observations ≠ []) :
    ∃ v, v ∈ windowPrices observations window := by
  have hlength : 0 < observations.length := List.length_pos_iff.mpr hne
  apply List.exists_mem_of_ne_nil
  rw [windowPrices_eq, ne_eq, List.map_eq_nil_iff, List.rtake, List.drop_eq_nil_iff]
  omega

/-- **The two modes agree**, whatever the times and prices below `2 ^ 63`, the window and the
threshold, unless there are no observations at all: then the program that decodes fails, and the
one that scans returns zero. Where the window holds a price, both return its highest price if that
reaches the threshold and zero otherwise; with a window of zero both fail. -/
theorem bench_modes_agree (hdecode : decode (rawText observations) = some observations)
    (hfits : ∀ o ∈ observations, o.Fits) (window : Nat) (threshold : Int) :
    (harness decode (rawText observations) window threshold
        = inlua (rawText observations) window threshold ↔ observations ≠ []) ∧
      (observations ≠ [] → 0 < window → ∃ m ∈ windowPrices observations window,
        (∀ v ∈ windowPrices observations window, v ≤ m) ∧
          inlua (rawText observations) window threshold = some (returned threshold m)) := by
  obtain ⟨best, hhighest, hharness⟩ := harness_eq hdecode window threshold
  rw [hharness]
  cases observations with
  | nil =>
      obtain rfl : best = none := hhighest.eq_none (by simp [windowPrices])
      rw [inlua_nil]
      simp
  | cons o rest =>
      by_cases hwindow : window = 0
      · subst hwindow
        obtain rfl : best = none := hhighest.eq_none (by simp [windowPrices])
        rw [inlua_zero (hfits o List.mem_cons_self)]
        simp
      · have hpos : 0 < window := Nat.pos_of_ne_zero hwindow
        obtain ⟨best', hhighest', hinlua⟩ := inlua_eq hfits hpos threshold
        obtain rfl := hhighest.unique hhighest'
        obtain ⟨v, hv⟩ := windowPrices_mem hpos (List.cons_ne_nil o rest)
        obtain ⟨m, rfl, hm, hmax⟩ := hhighest.some_of_mem hv
        rw [hinlua]
        exact ⟨by simp, fun _ _ => ⟨m, hm, hmax, rfl⟩⟩

/-- The generated observations fit as long as their times do. -/
theorem genObservations_fits {n : Nat} (hn : 1718750000 + n * 60 < 2 ^ 63) :
    ∀ o ∈ genObservations n, o.Fits := by
  intro o ho
  obtain ⟨i, hi, rfl⟩ := List.mem_map.mp ho
  rw [List.mem_range] at hi
  have hwave := Nat.mod_lt (i * 37) (by omega : 0 < 500)
  have hsquare := Nat.mod_lt (i * i) (by omega : 0 < 91)
  refine ⟨?_, ?_⟩
  · show 1718750000 + i * 60 < 2 ^ 63
    omega
  · show 10000 + i * 37 % 500 - 250 + i * i % 91 < 2 ^ 63
    omega

theorem bench_modes_agree_gen :
    inlua (rawText (genObservations 6)) 4 10200 = some 0 ∧
      (harness (fun _ => some (genObservations 6)) (rawText (genObservations 6)) 4 10200
        = inlua (rawText (genObservations 6)) 4 10200 ↔ genObservations 6 ≠ []) :=
  ⟨by decide +kernel,
    (bench_modes_agree rfl (genObservations_fits (by omega)) 4 10200).1⟩

end ProvenoOracle.Examples
