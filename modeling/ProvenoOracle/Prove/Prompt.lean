import ProvenoOracle.Codec.Delimited
import ProvenoOracle.Prove.Client

/-! # The system prompt

`prompt.rs`: the model is told what the language is and which tools there are. Each tool is a
section of the prompt, with lists of its arguments and of the fields of its answer that are left
out when they are empty.

`system_prompt_injective` says that the prompt tells all of it: two catalogues with the same prompt
are the same, if their names are free of backticks and their descriptions free of line breaks.
-/

set_option autoImplicit false

namespace ProvenoOracle

open Codec

/-- `ToolDescription` -/
structure ToolDescription where
  name : String
  description : String
  args : List (String × String)
  returns : List (String × String)
  deriving DecidableEq

/-- `SYSTEM_PREAMBLE` -/
def systemPreamble : String :=
  "You are a Lua program generator. You write Lua programs that execute in a sandboxed, " ++
  "deterministic VM.\n" ++
  "\n" ++
  "## Language subset\n" ++
  "- **Types:** nil, boolean, integer (signed 64-bit), string, table, function\n" ++
  "- **No floats** — all arithmetic is integer-only. Division is floor division (`//`).\n" ++
  "- **Variables:** `local` declarations, globals\n" ++
  "- **Control flow:** `if`/`elseif`/`else`/`end`, `while`/`end`, numeric `for i = start, stop " ++
  "[, step] do`, generic `for k, v in pairs_sorted(t) do` and `for i, v in ipairs(t) do`\n" ++
  "- **Functions:** `function(args) ... end`, closures with upvalues, `return`\n" ++
  "- **Tables:** `\x7b\x7d` literals, `t.field`, `t[key]`, `#t` for array length\n" ++
  "- **Operators:** `+`, `-`, `*`, `//` (floor div), `%` (mod), `==`, `~=`, `<`, `<=`, `>`, " ++
  "`>=`, `not`, `and`, `or`, `..` (concat), `#` (length)\n" ++
  "- **Strings:** double-quoted or single-quoted, escape sequences\n" ++
  "- **Comments:** `--` single line\n" ++
  "\n" ++
  "## Standard library\n" ++
  "- `string.len(s)`, `string.sub(s, i [, j])`, `string.find(s, pattern [, init])`, " ++
  "`string.find_literal(s, needle [, init])`, `string.upper(s)`, `string.lower(s)`, " ++
  "`string.rep(s, n)`, `string.byte(s [, i])`, `string.char(...)`, `string.format(fmt, ...)`\n" ++
  "- `math.abs(x)`, `math.min(...)`, `math.max(...)`, `math.scale_div(num, denom, scale)`\n" ++
  "- `table.insert(t [, i], v)`, `table.remove(t [, i])`, `table.concat(t [, sep])`, " ++
  "`table.move(src, a, b, t)`, `table.sort(t [, comp])`\n" ++
  "- `json.encode(v)` — serialize to JSON string; `json.decode(s)` — parse JSON (integer-only; " ++
  "errors on any fractional number anywhere in the payload); `json.decode_strings(s)` — parse " ++
  "JSON returning every number as its raw source string (use this for API responses containing " ++
  "floats; then split on `.` and scale to an integer per the Numeric gotchas section)\n" ++
  "- `type(v)`, `tostring(v)`, `tonumber(s)`, `select(i, ...)`, `unpack(t)`, `pcall(f, ...)`, " ++
  "`error(msg)`, `log(msg)`, `print(msg)`\n" ++
  "- `pairs_sorted(t)` — iterate table keys in deterministic order; `ipairs(t)` — iterate " ++
  "array portion\n" ++
  "\n" ++
  "## Tool calls\n" ++
  "- Call external tools with: `tool.call(\"tool_name\", \x7barg1 = val1, arg2 = val2\x7d)`\n" ++
  "- Tool calls return a result table\n" ++
  "- Use `pcall` to handle tool errors: `local ok, err = pcall(function() tool.call(...) " ++
  "end)`\n" ++
  "\n" ++
  "## Important constraints\n" ++
  "- No floating-point numbers. Use integers only. For money, use cents. For percentages, use " ++
  "basis points.\n" ++
  "- No `require`, `io`, `os`, `debug`, `load`, `dofile`, or `setmetatable`\n" ++
  "- No coroutines or metatables\n" ++
  "- All programs are single-shot: receive input, do work, return a result\n" ++
  "- The input is available as the first parameter to the top-level chunk\n" ++
  "\n" ++
  "## Numeric gotchas (read this!)\n" ++
  "- `tonumber(\"3245.67\")` returns **`nil`**, not `3246`. The VM is integer-only, so any " ++
  "string containing a `.` fails to parse.\n" ++
  "- If `nil` ends up as a value in a returned table, JSON encoding silently drops the field — " ++
  "your run will look \"successful\" but be missing data. Always sanity-check:\n" ++
  "  `if value == nil then error(\"failed to parse price from \" .. raw) end`\n" ++
  "- `string.find` rejects all Lua pattern metacharacters (`.`, `*`, `+`, `?`, `^`, `$`, `(`, " ++
  "`)`, `%`, `[`, `]`, `-`) even when you want them as literals. Use `string.find_literal(s, " ++
  "needle [, init])` whenever you need to search for one of these characters or any substring " ++
  "containing them.\n" ++
  "- For decimal API responses (prices, rates, percentages), parse them into integers at a " ++
  "fixed scale:\n" ++
  "    1. Get the raw string. If the value lives inside a JSON payload that also contains any " ++
  "other fractional fields (e.g. an open-meteo or coingecko response), parse the whole payload " ++
  "with `json.decode_strings(body)` rather than `json.decode(body)` — the latter errors on the " ++
  "first float it sees anywhere in the document, even fields you don't care about. " ++
  "`json.decode_strings` returns every number as its verbatim source string (e.g. " ++
  "`\"3245.67\"`, `\"-2.5E-3\"`).\n" ++
  "    2. Find the dot with `local dot = string.find_literal(raw, \".\")`.\n" ++
  "    3. Take the integer and fractional parts with `string.sub(raw, 1, dot - 1)` and " ++
  "`string.sub(raw, dot + 1)`.\n" ++
  "    4. Pad or truncate the fractional part to a fixed scale (e.g. 8 digits for " ++
  "satoshi-style, or 2 for cents).\n" ++
  "    5. Concatenate and `tonumber` *that*. Document the scale in your returned value (e.g. " ++
  "`price_scale = 8`).\n" ++
  "- Prefer API endpoints that return integer-valued fields when one is available (e.g. a " ++
  "price already quoted in cents, or a Coingecko endpoint with `precision=0` for whole units). " ++
  "When that's not an option, reach for `json.decode_strings` and the split-on-dot recipe " ++
  "above.\n"

/-- The first lines of `OUTPUT_INSTRUCTIONS`. -/
def outputHeading : String := "\n## Output format\n"

/-- The other lines of `OUTPUT_INSTRUCTIONS`. -/
def outputRules : String :=
  "- Respond with ONLY the Lua program. No markdown fences, no explanation, no commentary.\n" ++
  "- The program must end with a `return` statement that returns the result.\n" ++
  "- Use `log()` for debug output that should appear in logs.\n"

/-- `OUTPUT_INSTRUCTIONS` -/
def outputInstructions : String := outputHeading ++ outputRules

/-- The loop over the arguments, or over the fields of the answer. -/
def pushFields (prompt : String) (fields : List (String × String)) : String :=
  fields.foldl (fun prompt field => prompt ++ s!"- `{field.1}` — {field.2}\n") prompt

/-- A list with its heading, unless it is empty. -/
def pushSection (prompt heading : String) (fields : List (String × String)) : String :=
  if fields.isEmpty then prompt else pushFields (prompt ++ heading) fields

/-- One round of the loop over the tools. -/
def pushTool (prompt : String) (tool : ToolDescription) : String :=
  let prompt := prompt ++ s!"### `{tool.name}`\n"
  let prompt := prompt ++ s!"{tool.description}\n"
  let prompt := pushSection prompt "**Args:**\n" tool.args
  let prompt := pushSection prompt "**Returns:**\n" tool.returns
  prompt ++ "\n"

/-- `build_system_prompt` -/
def buildSystemPrompt (toolDescriptions : List ToolDescription) : String :=
  let prompt := systemPreamble
  let prompt := if toolDescriptions.isEmpty then prompt
    else
      let prompt := prompt ++ "\n## Available tools\n\n"
      let prompt := prompt ++ "Call tools with: `tool.call(\"name\", \x7barg1 = val1, ...\x7d)`\n"
      let prompt := prompt ++ "Tool calls return a table with the result fields.\n\n"
      toolDescriptions.foldl pushTool prompt
  prompt ++ outputInstructions

/-! ## The text of the prompt -/

/-- The line of an argument, or of a field of the answer. -/
def fieldText (field : String × String) : List Char :=
  "- `".toList ++ ((field.1.toList ++ ['`']) ++ (" — ".toList ++ (field.2.toList ++ ['\n'])))

def argsHeading : List Char := "**Args:**\n".toList

def returnsHeading : List Char := "**Returns:**\n".toList

/-- The section of a tool. -/
def toolText (tool : ToolDescription) : List Char :=
  "### `".toList ++ (((tool.name.toList ++ ['`']) ++
    ("\n".toList ++ (tool.description.toList ++ ['\n']))) ++
    ((headed argsHeading fieldText tool.args ++ headed returnsHeading fieldText tool.returns)
      ++ "\n".toList))

/-- What stands before the first tool. -/
def toolsHeading : List Char :=
  "\n## Available tools\n\n".toList ++
    ("Call tools with: `tool.call(\"name\", \x7barg1 = val1, ...\x7d)`\n"
      ++ "Tool calls return a table with the result fields.\n\n").toList

theorem pushFields_toList (prompt : String) (fields : List (String × String)) :
    (pushFields prompt fields).toList = prompt.toList ++ fields.flatMap fieldText := by
  unfold pushFields
  induction fields generalizing prompt with
  | nil => simp
  | cons field fields ih =>
      rw [List.foldl_cons, ih]
      simp [fieldText, toString]

theorem pushSection_toList (prompt heading : String) (fields : List (String × String)) :
    (pushSection prompt heading fields).toList
      = prompt.toList ++ headed heading.toList fieldText fields := by
  unfold pushSection headed
  cases fields with
  | nil => simp
  | cons field fields => simp [pushFields_toList]

theorem pushTool_toList (prompt : String) (tool : ToolDescription) :
    (pushTool prompt tool).toList = prompt.toList ++ toolText tool := by
  unfold pushTool toolText argsHeading returnsHeading
  simp only [String.toList_append, pushSection_toList, toString, List.append_assoc]
  rfl

theorem pushTools_toList (prompt : String) (tools : List ToolDescription) :
    (tools.foldl pushTool prompt).toList = prompt.toList ++ tools.flatMap toolText := by
  induction tools generalizing prompt with
  | nil => simp
  | cons tool tools ih => simp [ih, pushTool_toList]

/-- The text of a prompt, whatever its fixed parts are. -/
theorem assemble_toList (preamble title usage answer instructions : String)
    (tools : List ToolDescription) :
    ((if tools.isEmpty then preamble
        else tools.foldl pushTool (preamble ++ title ++ usage ++ answer)) ++ instructions).toList
      = preamble.toList ++
        (headed (title.toList ++ (usage ++ answer).toList) toolText tools ++
          instructions.toList) := by
  unfold headed
  cases tools with
  | nil => simp
  | cons tool tools => simp [pushTools_toList, pushTool_toList]

theorem buildSystemPrompt_toList (tools : List ToolDescription) :
    (buildSystemPrompt tools).toList = systemPreamble.toList ++
      (headed toolsHeading toolText tools ++ outputInstructions.toList) :=
  assemble_toList systemPreamble _ _ _ outputInstructions tools

/-! ## Reading the prompt -/

/-- A description that can be told from what surrounds it. -/
structure ToolDescription.Clean (tool : ToolDescription) : Prop where
  name : '`' ∉ tool.name.toList
  description : '\n' ∉ tool.description.toList
  args : ∀ field ∈ tool.args, '`' ∉ field.1.toList ∧ '\n' ∉ field.2.toList
  returns : ∀ field ∈ tool.returns, '`' ∉ field.1.toList ∧ '\n' ∉ field.2.toList

theorem selfDelimiting_fieldText :
    SelfDelimiting (fun field : String × String => '`' ∉ field.1.toList ∧ '\n' ∉ field.2.toList)
      fieldText := by
  have hinj : Function.Injective
      fun field : String × String => (field.1.toList, field.2.toList) := by
    rintro ⟨name, desc⟩ ⟨name', desc'⟩ h
    simpa [String.toList_inj] using h
  exact (((SelfDelimiting.terminated '`').append
    ((SelfDelimiting.terminated '\n').opened " — ".toList)).opened "- `".toList).comap hinj

/-- The lists of a tool, before an empty line. -/
theorem selfDelimiting_lists :
    SelfDelimiting (fun p : List (String × String) × List (String × String) =>
        (∀ field ∈ p.1, '`' ∉ field.1.toList ∧ '\n' ∉ field.2.toList) ∧
          ∀ field ∈ p.2, '`' ∉ field.1.toList ∧ '\n' ∉ field.2.toList)
      (fun p => (headed argsHeading fieldText p.1 ++ headed returnsHeading fieldText p.2)
        ++ "\n".toList) := by
  have hmany := selfDelimiting_fieldText.many "- `".toList
    fun field => List.prefix_append _ _
  have hargs := hmany.headed argsHeading
  have hreturns : DelimitedBefore
      (fun s => AfterHeaded returnsHeading "- `".toList s ∧ ¬ argsHeading <+: s) _ _ :=
    (hmany.headed returnsHeading).mono fun s hs => hs.1
  refine (hargs.append hreturns ?_).closed ?_
  · -- the fields of the answer may follow the arguments
    intro fields s _ hs
    exact ⟨not_prefix_headed_append (by decide) (by decide) hs.2 fields,
      not_prefix_headed_append (by decide) (by decide) hs.1.2 fields⟩
  · intro s
    exact ⟨⟨not_prefix_append (by decide) (by decide) s,
      not_prefix_append (by decide) (by decide) s⟩, not_prefix_append (by decide) (by decide) s⟩

theorem selfDelimiting_toolText : SelfDelimiting ToolDescription.Clean toolText := by
  have hinj : Function.Injective fun tool : ToolDescription =>
      ((tool.name.toList, tool.description.toList), (tool.args, tool.returns)) := by
    rintro ⟨name, desc, args, returns⟩ ⟨name', desc', args', returns'⟩ h
    simpa [String.toList_inj, and_assoc] using h
  have hhead := (SelfDelimiting.terminated '`').append
    ((SelfDelimiting.terminated '\n').opened "\n".toList)
  exact (((hhead.append selfDelimiting_lists).opened "### `".toList).comap hinj).mono
    fun tool h => ⟨⟨h.name, h.description⟩, h.args, h.returns⟩

/-- Two catalogues with the same prompt are the same. -/
theorem buildSystemPrompt_inj {tools tools' : List ToolDescription}
    (hclean : ∀ tool ∈ tools, tool.Clean) (hclean' : ∀ tool ∈ tools', tool.Clean)
    (h : buildSystemPrompt tools = buildSystemPrompt tools') : tools = tools' := by
  have htext := congrArg String.toList h
  rw [buildSystemPrompt_toList, buildSystemPrompt_toList, List.append_cancel_left_eq] at htext
  have htools := (selfDelimiting_toolText.many "### `".toList
    fun tool => List.prefix_append _ _).headed toolsHeading
  have houtput : ∀ s, AfterHeaded toolsHeading "### `".toList (outputInstructions.toList ++ s) := by
    intro s
    rw [outputInstructions, outputHeading, String.toList_append, List.append_assoc]
    exact ⟨not_append_prefix_append (by decide) (by decide) _ _,
      not_prefix_append (by decide) (by decide) _⟩
  exact (htools.closed houtput).inj hclean hclean' htext

/-! ## The requests of a run -/

/-- A request of a run starts with the prompt. -/
theorem runRequests_system {C : ProvenoCrates} {w : Session C} {api : Nat → Api}
    {client : LlmClient} {system : String} {r : ApiRequest}
    (h : r ∈ runRequests w api client system) :
    ∃ messages, r.body.conversation = ⟨"system", system⟩ :: messages := by
  obtain ⟨messages, -, rfl⟩ := List.mem_map.mp h
  exact ⟨messages, client.request_conversation system messages⟩

/-- **The model is told which tools there are**: runs with different catalogues, whatever their
tasks and their providers, never send the same conversation, neither at the start nor in any
retry. -/
theorem requests_tell_tools {C C' : ProvenoCrates} (w : Session C) (w' : Session C')
    (api api' : Nat → Api) (client client' : LlmClient) {tools tools' : List ToolDescription}
    (hclean : ∀ tool ∈ tools, tool.Clean) (hclean' : ∀ tool ∈ tools', tool.Clean)
    (hne : tools ≠ tools') :
    ∀ r ∈ runRequests w api client (buildSystemPrompt tools),
      ∀ r' ∈ runRequests w' api' client' (buildSystemPrompt tools'),
        r.body.conversation ≠ r'.body.conversation := by
  intro r hr r' hr' h
  obtain ⟨messages, hmessages⟩ := runRequests_system hr
  obtain ⟨messages', hmessages'⟩ := runRequests_system hr'
  rw [hmessages, hmessages'] at h
  have hprompt : buildSystemPrompt tools = buildSystemPrompt tools' := by
    injection h with hhead
    injection hhead
  exact hne (buildSystemPrompt_inj hclean hclean' hprompt)

/-- A tool with an argument and an answer. -/
def echoTool : ToolDescription :=
  ⟨"echo", "Echoes the message back", [("message", "string to echo")],
    [("message", "the echoed string")]⟩

/-- A tool with neither. -/
def noopTool : ToolDescription := ⟨"noop", "Does nothing", [], []⟩

/-- The requests of a session that adds, with these tools. -/
def addRequests (tools : List ToolDescription) : List ApiRequest :=
  runRequests (addSession true ⟨0, 0⟩ ⟨0, 0⟩) forgetfulApi anthropicClient (buildSystemPrompt tools)

theorem requests_tell_tools_add : (addRequests [echoTool]).length = 2 ∧
    ∀ r ∈ addRequests [echoTool, noopTool], ∀ r' ∈ addRequests [echoTool],
      r.body.conversation ≠ r'.body.conversation := by
  have hecho : echoTool.Clean := ⟨by decide, by decide, by decide, by decide⟩
  have hnoop : noopTool.Clean := ⟨by decide, by decide, by decide, by decide⟩
  exact ⟨by decide +kernel, requests_tell_tools _ _ _ _ _ _ (by simp [hecho, hnoop])
    (by simp [hecho]) (by decide)⟩

end ProvenoOracle
