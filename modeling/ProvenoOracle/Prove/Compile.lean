import ProvenoOracle.Prove.Pipeline
import ProvenoOracle.Prove.TapeHash

/-! # From an answer to a program

What the orchestrator and the demo do with an answer of the language model: `strip_code_fences`
takes the Lua source out of it (`llm.rs`), `compile_and_verify` turns the source into a program
(`pipeline.rs`), and `format_error_for_retry` tells the model what went wrong. The Lua parser, the
compiler and the bytecode verifier are the record `LuaCompiler`.
-/

set_option autoImplicit false

namespace ProvenoOracle

/-! ## Messages -/

/-- `Message` -/
structure Message where
  role : String
  content : String
  deriving DecidableEq

/-- `LlmResponse` -/
structure LlmResponse where
  text : String
  usage : TokenUsage

/-- `strip_code_fences` -/
def stripCodeFences (raw : String) : String :=
  let trimmed := strTrim raw
  match (stripPrefix trimmed "```lua").bind fun rest => stripSuffix rest "```" with
  | some code => strTrim code
  | none =>
      match (stripPrefix trimmed "```").bind fun rest => stripSuffix rest "```" with
      | some code => strTrim code
      | none => trimmed

example : stripCodeFences "  ```lua\n  local x = 1\n  return x\n  ```  "
    = "local x = 1\n  return x" := by decide +kernel

/-! ## Compiling -/

/-- The three passes over a source, each with the `Debug` text of its error. -/
structure LuaCompiler (C : ProvenoCrates) where
  /-- The syntax tree. -/
  Ast : Type
  /-- `parser::parse` -/
  parse : String → Except String Ast
  /-- `compiler::compile` -/
  compile : Ast → Except String C.Program
  /-- `bytecode::verify` -/
  verify : C.Program → Except String Unit

section Compile

variable {C : ProvenoCrates}

/-- `compile_and_verify` -/
def compileAndVerify (lua : LuaCompiler C) (source : String) :
    Except (PipelineError C.Value) C.Program := do
  let ast ← (lua.parse source).mapError .parse
  let program ← (lua.compile ast).mapError .compile
  (lua.verify program).mapError .verify
  return program

/-- `Display` of a `PipelineError`. -/
def PipelineError.text {Value : Type} : PipelineError Value → String
  | .parse msg => s!"Parse error: {msg}"
  | .compile msg => s!"Compile error: {msg}"
  | .verify msg => s!"Verify error: {msg}"
  | .runtime msg _ => s!"Runtime error: {msg}"

/-- `format_error_for_retry` -/
def formatErrorForRetry {Value : Type} (source : String) (err : PipelineError Value) : String :=
  "Your previous Lua program failed.\n\n" ++ "## Previous program\n```lua\n" ++ source
    ++ "\n```\n\n" ++ "## Error\n" ++ err.text
    ++ "\n\nPlease fix the program. Respond with ONLY the corrected Lua program."

end Compile

end ProvenoOracle
