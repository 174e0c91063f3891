import ProvenoOracle.Prove.Compile

/-! # The program in an answer

`strip_code_fences` decides which part of an answer is compiled, hashed and proven. It looks at
the trimmed answer only: a Lua fence, else a bare fence, else all of it is the program. Fences
inside the program are part of it (`stripCodeFences_exact`).
-/

set_option autoImplicit false

namespace ProvenoOracle

open Codec

/-! ## Trimming -/

/-- Nothing but whitespace. -/
def IsBlank (s : String) : Prop := Blank isWhitespace s.toList

instance (s : String) : Decidable (IsBlank s) :=
  decidable_of_iff (s.toList.all isWhitespace = true) List.all_eq_true

theorem strTrim_toList (s : String) : (strTrim s).toList = trim isWhitespace s.toList :=
  String.toList_ofList

theorem strTrim_append {w w' : String} (hw : IsBlank w) (hw' : IsBlank w') (s : String) :
    strTrim (w ++ s ++ w') = strTrim s := by
  rw [← String.toList_inj, strTrim_toList, strTrim_toList, String.toList_append,
    String.toList_append]
  exact trim_append hw hw' s.toList

theorem strTrim_of_trimmed {s : String} (h : Trimmed isWhitespace s.toList) : strTrim s = s := by
  rw [← String.toList_inj, strTrim_toList, trim_of_trimmed h]

/-! ## Fences -/

/-- The code between an opening fence and three backticks. -/
def FencedBy (opening code s : String) : Prop := s = opening ++ code ++ "```"

theorem unfence_eq_some_iff {s opening code : String} :
    (stripPrefix s opening).bind (fun rest => stripSuffix rest "```") = some code ↔
      FencedBy opening code s := by
  rw [Option.bind_eq_some_iff, FencedBy, String.append_assoc]
  constructor
  · rintro ⟨rest, hrest, hcode⟩
    rw [stripPrefix_eq_some_iff.mp hrest, stripSuffix_eq_some_iff.mp hcode]
  · intro h
    exact ⟨code ++ "```", stripPrefix_eq_some_iff.mpr h, stripSuffix_eq_some_iff.mpr rfl⟩

theorem unfence_eq_none_iff {s opening : String} :
    (stripPrefix s opening).bind (fun rest => stripSuffix rest "```") = none ↔
      ∀ code, ¬ FencedBy opening code s := by
  rw [Option.eq_none_iff_forall_ne_some]
  constructor
  · intro h code hcode
    exact h code (unfence_eq_some_iff.mpr hcode)
  · intro h code hcode
    exact h code (unfence_eq_some_iff.mp hcode)

/-- **What the program of an answer is**: the text in a Lua fence, else the text in a bare fence,
else the answer, each of them trimmed. -/
theorem stripCodeFences_cases (raw : String) :
    (∃ code, FencedBy "```lua" code (strTrim raw) ∧ stripCodeFences raw = strTrim code) ∨
      ((∀ code, ¬ FencedBy "```lua" code (strTrim raw)) ∧
        ∃ code, FencedBy "```" code (strTrim raw) ∧ stripCodeFences raw = strTrim code) ∨
      ((∀ code, ¬ FencedBy "```" code (strTrim raw)) ∧ stripCodeFences raw = strTrim raw) := by
  unfold stripCodeFences
  dsimp only
  split
  · next code hlua => exact .inl ⟨code, unfence_eq_some_iff.mp hlua, rfl⟩
  · next hlua =>
    have hnotLua := unfence_eq_none_iff.mp hlua
    split
    · next code hbare => exact .inr (.inl ⟨hnotLua, code, unfence_eq_some_iff.mp hbare, rfl⟩)
    · next hbare => exact .inr (.inr ⟨unfence_eq_none_iff.mp hbare, rfl⟩)

theorem FencedBy.unique {opening code code' s : String} (h : FencedBy opening code s)
    (h' : FencedBy opening code' s) : code = code' :=
  Option.some.inj ((unfence_eq_some_iff.mpr h).symm.trans (unfence_eq_some_iff.mpr h'))

/-- A Lua fence is a bare fence, with the tag in front of the code. -/
theorem FencedBy.bare {code s : String} (h : FencedBy "```lua" code s) :
    FencedBy "```" ("lua" ++ code) s := by
  have hopening : "```lua" = "```" ++ "lua" := by decide +kernel
  rw [FencedBy, hopening] at h
  rw [FencedBy, h, ← String.append_assoc]

theorem stripCodeFences_lua {raw code : String} (h : FencedBy "```lua" code (strTrim raw)) :
    stripCodeFences raw = strTrim code := by
  rcases stripCodeFences_cases raw with ⟨code', h', hresult⟩ | ⟨hnot, -⟩ | ⟨hnot, -⟩
  · rw [hresult, h.unique h']
  · exact absurd h (hnot code)
  · exact absurd h.bare (hnot _)

theorem stripCodeFences_bare {raw code : String} (h : FencedBy "```" code (strTrim raw))
    (hlua : ∀ code, ¬ FencedBy "```lua" code (strTrim raw)) :
    stripCodeFences raw = strTrim code := by
  rcases stripCodeFences_cases raw with ⟨code', h', -⟩ | ⟨-, code', h', hresult⟩ | ⟨hnot, -⟩
  · exact absurd h' (hlua code')
  · rw [hresult, h.unique h']
  · exact absurd h (hnot code)

/-- The program has blank lines around it. -/
theorem strTrim_lines (c : String) : strTrim ("\n" ++ c ++ "\n") = strTrim c :=
  strTrim_append (by decide) (by decide) c

/-! ## The program -/

section Program

variable {w w' : String} (hw : IsBlank w) (hw' : IsBlank w') (c : String)

include hw hw'

/-- Backticks are no whitespace, so trimming an answer stops at its fences. -/
theorem strTrim_fence {opening : String} (hopening : opening.toList.head? = some '`') :
    FencedBy opening ("\n" ++ c ++ "\n")
      (strTrim (w ++ (opening ++ "\n") ++ c ++ "\n```" ++ w')) := by
  have hclosing : "\n```" = "\n" ++ "```" := by decide +kernel
  have htext : w ++ (opening ++ "\n") ++ c ++ "\n```" ++ w'
      = w ++ (opening ++ ("\n" ++ c ++ "\n") ++ "```") ++ w' := by
    rw [hclosing]
    simp only [String.append_assoc]
  have hback : isWhitespace '`' = false := by decide
  rw [htext, strTrim_append hw hw']
  apply strTrim_of_trimmed
  rw [String.toList_append, String.toList_append]
  constructor
  · intro x hx
    rw [List.append_assoc, List.head?_append, hopening] at hx
    cases hx
    exact hback
  · intro x hx
    have hlast : "```".toList.getLast? = some '`' := by decide
    rw [List.getLast?_append, hlast] at hx
    cases hx
    exact hback

/-- **A Lua fence**, whatever it contains. -/
theorem stripCodeFences_luaFence :
    stripCodeFences (w ++ "```lua\n" ++ c ++ "\n```" ++ w') = strTrim c := by
  have hopening : "```lua\n" = "```lua" ++ "\n" := by decide +kernel
  have hfenced := @strTrim_fence w w' hw hw' c "```lua" (by decide)
  rw [hopening, stripCodeFences_lua hfenced, strTrim_lines]

/-- **A bare fence**, whatever it contains. -/
theorem stripCodeFences_bareFence :
    stripCodeFences (w ++ "```\n" ++ c ++ "\n```" ++ w') = strTrim c := by
  have hopening : "```\n" = "```" ++ "\n" := by decide +kernel
  have hfenced := @strTrim_fence w w' hw hw' c "```" (by decide)
  -- behind the backticks stands a line feed, not the tag
  have hnotLua : ∀ code, ¬ FencedBy "```lua" code
      (strTrim (w ++ ("```" ++ "\n") ++ c ++ "\n```" ++ w')) := by
    intro code h
    rw [hfenced, FencedBy, ← String.toList_inj] at h
    simp at h
  rw [hopening, stripCodeFences_bare hfenced hnotLua, strTrim_lines]

/-- **No fence**: an answer that does not both start and end with one. -/
theorem stripCodeFences_unfenced
    (hc : ¬ ("```".toList <+: (strTrim c).toList ∧ "```".toList <:+ (strTrim c).toList)) :
    stripCodeFences (w ++ c ++ w') = strTrim c := by
  have htrimmed := strTrim_append hw hw' c
  have hnot : ∀ code, ¬ FencedBy "```" code (strTrim (w ++ c ++ w')) := by
    intro code h
    rw [htrimmed, FencedBy, ← String.toList_inj, String.toList_append, String.toList_append] at h
    apply hc
    rw [h]
    exact ⟨(List.prefix_append _ _).trans (List.prefix_append _ _), List.suffix_append _ _⟩
  rcases stripCodeFences_cases (w ++ c ++ w') with ⟨code, h, -⟩ | ⟨-, code, h, -⟩ | ⟨-, hresult⟩
  · exact absurd h.bare (hnot _)
  · exact absurd h (hnot code)
  · rw [hresult, htrimmed]

end Program

/-- The program is a part of the trimmed answer, trimmed. -/
theorem stripCodeFences_eq_trim (raw : String) :
    ∃ code, code.toList <:+: (strTrim raw).toList ∧ stripCodeFences raw = strTrim code := by
  have hinside : ∀ {opening code : String}, FencedBy opening code (strTrim raw) →
      code.toList <:+: (strTrim raw).toList := by
    intro opening code h
    rw [h, String.toList_append, String.toList_append]
    exact ⟨_, _, rfl⟩
  rcases stripCodeFences_cases raw with ⟨code, h, hresult⟩ | ⟨-, code, h, hresult⟩ | ⟨-, hresult⟩
  · exact ⟨code, hinside h, hresult⟩
  · exact ⟨code, hinside h, hresult⟩
  · have hagain : strTrim (strTrim raw) = strTrim raw := by
      apply strTrim_of_trimmed
      rw [strTrim_toList]
      exact trimmed_trim _
    exact ⟨strTrim raw, List.infix_refl _, by rw [hresult, hagain]⟩

/-- **The program is a part of the answer** without whitespace at its ends. -/
theorem stripCodeFences_part (raw : String) :
    (stripCodeFences raw).toList <:+: raw.toList ∧
      Trimmed isWhitespace (stripCodeFences raw).toList := by
  obtain ⟨code, hcode, hresult⟩ := stripCodeFences_eq_trim raw
  rw [hresult, strTrim_toList]
  rw [strTrim_toList] at hcode
  exact ⟨(trim_isInfix _ _).trans (hcode.trans (trim_isInfix _ _)), trimmed_trim _⟩

/-- **The program of an answer.** Inside a Lua fence or a bare one it is what the fence contains,
without fences around it it is the answer, each of them trimmed. It always is a part of the
answer without whitespace at its ends. -/
theorem stripCodeFences_exact :
    (∀ w w' c : String, IsBlank w → IsBlank w' →
      stripCodeFences (w ++ "```lua\n" ++ c ++ "\n```" ++ w') = strTrim c ∧
      stripCodeFences (w ++ "```\n" ++ c ++ "\n```" ++ w') = strTrim c ∧
      (¬ ("```".toList <+: (strTrim c).toList ∧ "```".toList <:+ (strTrim c).toList) →
        stripCodeFences (w ++ c ++ w') = strTrim c)) ∧
    ∀ raw, (stripCodeFences raw).toList <:+: raw.toList ∧
      Trimmed isWhitespace (stripCodeFences raw).toList := by
  refine ⟨?_, stripCodeFences_part⟩
  intro w w' c hw hw'
  exact ⟨stripCodeFences_luaFence hw hw' c, stripCodeFences_bareFence hw hw' c,
    stripCodeFences_unfenced hw hw' c⟩

/-- A fence inside the program stays where it is. -/
theorem stripCodeFences_exact_nested :
    stripCodeFences (" " ++ "```lua\n" ++ "return [[\n```\n]]" ++ "\n```" ++ "\n\n")
      = "return [[\n```\n]]" := by
  have htrim : strTrim "return [[\n```\n]]" = "return [[\n```\n]]" := by decide +kernel
  exact (stripCodeFences_exact.1 " " "\n\n" "return [[\n```\n]]" (by decide)
    (by decide)).1.trans htrim

end ProvenoOracle
