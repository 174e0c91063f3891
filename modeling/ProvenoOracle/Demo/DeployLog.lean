import ProvenoOracle.Demo.OnChain
import ProvenoOracle.Rust.Utf8

/-! # The address in a deployment log

The demo server deploys its contracts with `forge` and takes the address of the verifier from
what `forge` prints (`chain.rs`): `parse_address` goes through the lines from the last one on and
looks behind a marker. A marker line whose last token is no address is passed over, but at one
without any token the function returns, and an address further up stays hidden
(`parseAddress_eq_lastAddress_iff`).
-/

set_option autoImplicit false

namespace ProvenoOracle.Demo

/-- What `forge` has done. -/
structure ForgeOutput where
  success : Bool
  stdout : Bytes
  stderr : Bytes

section Parse

variable {Address : Type} (parse : String → Option Address)

/-! ## The code -/

/-- The loop of `parse_address`, on the lines from the last one on. -/
def parseAddressIn (marker : String) : List String → Option Address
  | [] => none
  | line :: lines =>
      match stripPrefix (strTrimStart line) marker with
      | some rest =>
          match (splitWhitespace rest).getLast? with
          -- the `?` leaves the function, not the line
          | none => none
          | some token =>
              match parse token with
              | some addr => some addr
              -- `if let Ok(addr)`: no address, on to the line above
              | none => parseAddressIn marker lines
      | none => parseAddressIn marker lines

/-- `parse_address`; `parse` is `str::parse::<Address>`. -/
def parseAddress (haystack marker : String) : Option Address :=
  parseAddressIn parse marker (strLines haystack).reverse

/-- `deploy_contracts`, after `forge` has been called. -/
def deployContracts (forge : Except String ForgeOutput) : Except ChainError Address :=
  match forge with
  | .error e => .error (.io s!"failed to invoke forge: {e}")
  | .ok output =>
      let stdout := fromUtf8Lossy output.stdout
      let stderr := fromUtf8Lossy output.stderr
      if output.success then
        match parseAddress parse stdout "ProvenoVerifier:" with
        | some addr => .ok addr
        | none => .error (.deploy
            s!"could not parse ProvenoVerifier address from forge output:\n{stdout}")
      else .error (.deploy
        s!"forge script failed:\n--- stdout ---\n{stdout}\n--- stderr ---\n{stderr}")

/-! ## The address that is asked for -/

/-- The address of a marker line: its last token behind the marker, if that is one. -/
def lineAddress (marker line : String) : Option Address := do
  let rest ← stripPrefix (strTrimStart line) marker
  let token ← (splitWhitespace rest).getLast?
  parse token

/-- The address of the last line that has one. -/
def lastAddress (haystack marker : String) : Option Address :=
  (strLines haystack).reverse.findSome? (lineAddress parse marker)

/-- A marker line with nothing but whitespace behind the marker. -/
def Tokenless (marker line : String) : Prop :=
  (stripPrefix (strTrimStart line) marker).map splitWhitespace = some []

instance (marker line : String) : Decidable (Tokenless marker line) :=
  inferInstanceAs (Decidable (_ = _))

theorem lastAddress_eq_some_iff {haystack marker : String} {addr : Address} :
    lastAddress parse haystack marker = some addr ↔ ∃ before line after,
      strLines haystack = before ++ line :: after ∧ lineAddress parse marker line = some addr ∧
        ∀ l ∈ after, lineAddress parse marker l = none := by
  rw [lastAddress, List.findSome?_eq_some_iff]
  constructor
  · rintro ⟨after, line, before, hlines, hline, hafter⟩
    refine ⟨before.reverse, line, after.reverse, ?_, hline, ?_⟩
    · rw [← List.reverse_inj, hlines]
      simp
    · intro l hl
      exact hafter l (List.mem_reverse.mp hl)
  · rintro ⟨before, line, after, hlines, hline, hafter⟩
    refine ⟨after.reverse, line, before.reverse, ?_, hline, ?_⟩
    · rw [hlines]
      simp
    · intro l hl
      exact hafter l (List.mem_reverse.mp hl)

theorem lastAddress_eq_none_iff {haystack marker : String} :
    lastAddress parse haystack marker = none ↔
      ∀ l ∈ strLines haystack, lineAddress parse marker l = none := by
  rw [lastAddress, List.findSome?_eq_none_iff]
  simp only [List.mem_reverse]

/-! ## One line -/

section Line

variable {parse} {marker line : String} (lines : List String)

/-- A line with an address ends the search. -/
theorem parseAddressIn_of_some {addr : Address}
    (h : lineAddress parse marker line = some addr) :
    parseAddressIn parse marker (line :: lines) = some addr := by
  rcases Option.bind_eq_some_iff.mp h with ⟨rest, hrest, h⟩
  rcases Option.bind_eq_some_iff.mp h with ⟨token, htoken, haddr⟩
  rw [parseAddressIn, hrest]
  dsimp only
  rw [htoken]
  dsimp only
  rw [haddr]

/-- So does a marker line without a token, which has no address. -/
theorem parseAddressIn_of_tokenless (h : Tokenless marker line) :
    parseAddressIn parse marker (line :: lines) = none ∧ lineAddress parse marker line = none := by
  rcases Option.map_eq_some_iff.mp h with ⟨rest, hrest, htokens⟩
  rw [parseAddressIn, lineAddress, hrest]
  dsimp only [Option.bind_eq_bind, Option.bind_some]
  rw [htokens]
  exact ⟨rfl, rfl⟩

/-- Every other line is passed over. -/
theorem parseAddressIn_of_none (h : lineAddress parse marker line = none)
    (htoken : ¬ Tokenless marker line) :
    parseAddressIn parse marker (line :: lines) = parseAddressIn parse marker lines := by
  rw [parseAddressIn]
  rcases hrest : stripPrefix (strTrimStart line) marker with - | rest
  · rfl
  · dsimp only
    rcases hlast : (splitWhitespace rest).getLast? with - | token
    · have hempty : Tokenless marker line := by
        rw [Tokenless, hrest, Option.map_some, List.getLast?_eq_none_iff.mp hlast]
      exact absurd hempty htoken
    · have hparse : parse token = none := by
        rw [lineAddress, hrest] at h
        dsimp only [Option.bind_eq_bind, Option.bind_some] at h
        rw [hlast] at h
        exact h
      dsimp only
      rw [hparse]

end Line

/-! ## The log -/

variable (marker : String)

/-- Every token-less marker line that has a line with an address on one side has one on the
other side, too. -/
def NoneHidden (lines : List String) : Prop :=
  ∀ below line above, lines = below ++ line :: above → Tokenless marker line →
    (∃ l ∈ above, (lineAddress parse marker l).isSome) →
    ∃ l ∈ below, (lineAddress parse marker l).isSome

variable {parse marker}

theorem noneHidden_of_some {first : String} {addr : Address}
    (h : lineAddress parse marker first = some addr) (lines : List String) :
    NoneHidden parse marker (first :: lines) := by
  intro below line above hlines htoken _
  cases below with
  | nil =>
      cases hlines
      rw [(parseAddressIn_of_tokenless [] htoken).2] at h
      cases h
  | cons b below =>
      obtain ⟨rfl, -⟩ := List.cons.inj hlines
      exact ⟨first, by simp, by rw [h]; rfl⟩

theorem noneHidden_of_tokenless {first : String} (h : Tokenless marker first)
    (lines : List String) :
    NoneHidden parse marker (first :: lines) ↔
      ∀ l ∈ lines, lineAddress parse marker l = none := by
  constructor
  · intro hhidden l hl
    by_contra hsome
    -- nothing is below the first line
    obtain ⟨l', hl', -⟩ := hhidden [] first lines rfl h ⟨l, hl, Option.isSome_iff_ne_none.mpr hsome⟩
    cases hl'
  · rintro hnone below line above hlines - ⟨l, hl, hsome⟩
    have hmem : l ∈ lines := by
      cases below with
      | nil =>
          cases hlines
          exact hl
      | cons b below =>
          obtain ⟨-, rfl⟩ := List.cons.inj hlines
          simp [hl]
    rw [hnone l hmem] at hsome
    cases hsome

theorem noneHidden_of_none {first : String} (h : lineAddress parse marker first = none)
    (htoken : ¬ Tokenless marker first) (lines : List String) :
    NoneHidden parse marker (first :: lines) ↔ NoneHidden parse marker lines := by
  constructor
  · rintro hhidden below line above rfl hline habove
    obtain ⟨l, hl, hsome⟩ := hhidden (first :: below) line above rfl hline habove
    rcases List.mem_cons.mp hl with rfl | hl
    · rw [h] at hsome
      cases hsome
    · exact ⟨l, hl, hsome⟩
  · intro hhidden below line above hlines hline habove
    cases below with
    | nil =>
        cases hlines
        exact absurd hline htoken
    | cons b below =>
        obtain ⟨-, hlines⟩ := List.cons.inj hlines
        obtain ⟨l, hl, hsome⟩ := hhidden below line above hlines hline habove
        exact ⟨l, by simp [hl], hsome⟩

/-- The loop finds the first line that has an address iff none is hidden. By induction on the
lines. -/
theorem parseAddressIn_eq_iff (lines : List String) :
    parseAddressIn parse marker lines = lines.findSome? (lineAddress parse marker) ↔
      NoneHidden parse marker lines := by
  induction lines with
  | nil =>
      refine iff_of_true rfl ?_
      intro below line above hlines
      exact absurd hlines.symm (List.append_ne_nil_of_right_ne_nil _ (List.cons_ne_nil _ _))
  | cons first lines ih =>
      rcases hfirst : lineAddress parse marker first with - | addr
      · rw [List.findSome?_cons, hfirst]
        -- without a token the search is over, and every line that is left is hidden
        by_cases htoken : Tokenless marker first
        · rw [(parseAddressIn_of_tokenless lines htoken).1, noneHidden_of_tokenless htoken, eq_comm]
          exact List.findSome?_eq_none_iff
        · rw [parseAddressIn_of_none lines hfirst htoken, noneHidden_of_none hfirst htoken]
          exact ih
      · rw [parseAddressIn_of_some lines hfirst, List.findSome?_cons, hfirst]
        exact iff_of_true rfl (noneHidden_of_some hfirst lines)

variable (parse)

/-- **When the last address is found**: every token-less marker line that has a line with an
address above it has one below it, too. -/
theorem parseAddress_eq_lastAddress_iff (haystack marker : String) :
    parseAddress parse haystack marker = lastAddress parse haystack marker ↔
      ∀ above line below, strLines haystack = above ++ line :: below → Tokenless marker line →
        (∃ l ∈ above, (lineAddress parse marker l).isSome) →
        ∃ l ∈ below, (lineAddress parse marker l).isSome := by
  rw [parseAddress, lastAddress, parseAddressIn_eq_iff]
  constructor
  · intro h above line below hlines htoken habove
    have hreverse : (strLines haystack).reverse = below.reverse ++ line :: above.reverse := by
      rw [hlines]
      simp
    simpa using h below.reverse line above.reverse hreverse htoken (by simpa using habove)
  · intro h below line above hlines htoken habove
    have hreverse : strLines haystack = above.reverse ++ line :: below.reverse := by
      rw [← List.reverse_inj, hlines]
      simp
    simpa using h above.reverse line below.reverse hreverse htoken (by simpa using habove)

/-- A deployment returns the address that is found in the output of a successful `forge`. -/
theorem deployContracts_eq_ok_iff {forge : Except String ForgeOutput} {addr : Address} :
    deployContracts parse forge = .ok addr ↔ ∃ output, forge = .ok output ∧
      output.success = true ∧
      parseAddress parse (fromUtf8Lossy output.stdout) "ProvenoVerifier:" = some addr := by
  constructor
  · intro h
    rcases forge with e | output
    · cases h
    · unfold deployContracts at h
      dsimp only at h
      split at h
      · next hsuccess =>
        split at h
        · next found hfound =>
          cases h
          exact ⟨output, rfl, hsuccess, hfound⟩
        · cases h
      · cases h
  · rintro ⟨output, rfl, hsuccess, hfound⟩
    unfold deployContracts
    dsimp only
    rw [if_pos hsuccess, hfound]

end Parse

/-- `Address::from_str`: twenty bytes in hexadecimal, with or without `0x` or `0X`. -/
def hexAddress (s : String) : Option Bytes :=
  let digits := strBytes (((stripPrefix s "0x").or (stripPrefix s "0X")).getD s)
  if digits.length = 40 then
    (chunks2 digits).mapM fun chunk => do
      let high ← chunk[0]?.bind hexValue
      let low ← chunk[1]?.bind hexValue
      return UInt8.ofNat (16 * high + low)
  else none

/-- The address of the verifier is followed by a marker line that has been cut off. -/
theorem parseAddress_hidden :
    let log := "ProvenoVerifier: 0xe7f1725E7734CE288F8367e1Bb143E90bb3F0512\nProvenoVerifier:\n"
    parseAddress hexAddress log "ProvenoVerifier:" = none ∧
      lastAddress hexAddress log "ProvenoVerifier:" = some [0xe7, 0xf1, 0x72, 0x5e, 0x77, 0x34,
        0xce, 0x28, 0x8f, 0x83, 0x67, 0xe1, 0xbb, 0x14, 0x3e, 0x90, 0xbb, 0x3f, 0x05, 0x12] ∧
      ¬ ∀ (Address : Type) (parse : String → Option Address) (haystack marker : String),
        parseAddress parse haystack marker = lastAddress parse haystack marker := by
  intro log
  have hnone : parseAddress hexAddress log "ProvenoVerifier:" = none := by decide +kernel
  have hlast : lastAddress hexAddress log "ProvenoVerifier:" = some [0xe7, 0xf1, 0x72, 0x5e, 0x77,
      0x34, 0xce, 0x28, 0x8f, 0x83, 0x67, 0xe1, 0xbb, 0x14, 0x3e, 0x90, 0xbb, 0x3f, 0x05,
      0x12] := by decide +kernel
  refine ⟨hnone, hlast, ?_⟩
  intro h
  have hequal := h Bytes hexAddress log "ProvenoVerifier:"
  rw [hnone, hlast] at hequal
  cases hequal

end ProvenoOracle.Demo
