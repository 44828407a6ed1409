import Rootmode.Core.Protocol
import Rootmode.Desktop.Pot
import Rootmode.Gateway.Peel
import Rootmode.Lib.Object

namespace Rootmode.Gateway

open Lib Lib.Text Lib.Checked Protocol Desktop Worker

/-- What a worker hands over for a job. -/
structure JobResult where
  sha256 : Text := []
  text : Option Text := none
  toolCalls : List ToolCall := []
  thinking : Option Text := none
  metadata : Json := .null

inductive WorkerMessage
  | delta (text : Text)
  | result (r : JobResult)
  | failed (error : Option String)
  /-- A status that is no failure, an invoice, an announcement, or one of a later version. -/
  | other

structure Usage where
  input : ℕ := 0
  output : ℕ := 0
  cached : ℕ := 0
  reasoning : ℕ := 0

def Usage.ofTokens (u : TokenUsage) : Usage :=
  { input := u.prompt, output := u.completion, cached := u.cached, reasoning := u.reasoning }

structure Answer where
  text : Text := []
  toolCalls : List ToolCall := []
  usage : Usage := {}
  finish : Option Text := none

def Answer.truncated (a : Answer) : Bool := a.finish = some "length".toList

def Answer.acted (a : Answer) : Bool := !a.toolCalls.isEmpty

/-- What a result is measured by: the hash of bytes, and the tokenizer. -/
structure Measures where
  sha256Hex : Bytes → Text
  tokens : Protocol.LlmParams → Text → Option Text → List ToolCall → TokenUsage

def readU64 : Json → Option ℕ
  | .num (.int n) => if 0 ≤ n ∧ n < 2 ^ 64 then some n.toNat else none
  | _ => none

def readText : Json → Option Text
  | .str t => some t
  | _ => none

theorem readText_str (t : Text) : readText (.str t) = some t := rfl

theorem readText_word (s : String) : readText (Json.word s) = some s.toList := rfl

def metaOf (v : Json) : Meta := fun k => (v.get k).map readU64

variable (M : Measures) (params : Protocol.LlmParams)

def Usage.billed (text : Text) (thinking : Option Text) (calls : List ToolCall) (metadata : Json) :
    Usage :=
  .ofTokens ((M.tokens params text thinking calls).reconcile (usageFromMeta (metaOf metadata)))

def buildAnswer (r : JobResult) : Except AppError Answer := do
  let raw := r.text.getD []
  require (¬ (raw = [] ∧ r.toolCalls.isEmpty)) (.invalid "provider returned no answer")
  let actual := M.sha256Hex (Hex.utf8 raw)
  let claimed := r.sha256.str
  let hash := actual.str
  require (r.sha256 = [] ∨ eqIgnoreAsciiCase actual r.sha256)
    (.invalid s!"hash mismatch: provider claimed {claimed}, bytes hash to {hash}")
  let text := peelThinking raw
  require (¬ (text = [] ∧ r.toolCalls.isEmpty))
    (.invalid "provider returned only reasoning, no answer")
  return {
    text
    toolCalls := r.toolCalls
    usage := .billed M params raw r.thinking r.toolCalls r.metadata
    finish := (r.metadata.get "finish_reason").bind readText }

/-- How the task that drives the provider ends. -/
inductive Runner
  | finished
  | refused (e : AppError)
  | panicked (e : String)

/-- What a caller that does not stream gets to see of the messages: the last answer, and the last
failure. -/
def gather : List WorkerMessage → Option Answer × Option String →
    Except AppError (Option Answer × Option String)
  | [], seen => .ok seen
  | .result r :: msgs, seen => do
    let answer ← buildAnswer M params r
    gather msgs (some answer, seen.2)
  | .failed error :: msgs, seen => gather msgs (seen.1, some (error.getD "provider failed the job"))
  | .delta _ :: msgs, seen | .other :: msgs, seen => gather msgs seen

def run (msgs : List WorkerMessage) (runner : Runner) : Except AppError Answer := do
  let (answer, failure) ← gather M params msgs (none, none)
  match answer, failure, runner with
  | some a, _, _ => .ok a
  | none, some e, _ => .error (.net e)
  | none, none, .refused e => .error e
  | none, none, .panicked e => .error (.net s!"provider task failed: {e}")
  | none, none, .finished => .error (.net "provider closed the connection without answering")

section Build

variable {M params} {r : JobResult} {a : Answer}

/-- What an answer says is what is left of the result's text. -/
theorem buildAnswer_text (h : buildAnswer M params r = .ok a) :
    a.text = peelThinking (r.text.getD []) ∧ a.toolCalls = r.toolCalls := by
  simp only [buildAnswer, bind_eq_ok, require_eq_ok] at h
  obtain ⟨-, -, -, -, -, -, h⟩ := h
  cases h
  exact ⟨rfl, rfl⟩

/-- An answer says something or asks for something. -/
theorem buildAnswer_speaks (h : buildAnswer M params r = .ok a) : a.text ≠ [] ∨ a.toolCalls ≠ [] := by
  obtain ⟨htext, hcalls⟩ := buildAnswer_text h
  simp only [buildAnswer, bind_eq_ok, require_eq_ok] at h
  obtain ⟨-, -, -, -, -, hspeaks, -⟩ := h
  rw [htext, hcalls]
  rw [List.isEmpty_iff] at hspeaks
  exact not_and_or.mp hspeaks

/-- A text that is not all reasoning, and whose hash is not claimed. -/
theorem buildAnswer_unclaimed (hsha : r.sha256 = []) (hspeaks : peelThinking (r.text.getD []) ≠ []) :
    buildAnswer M params r = .ok {
      text := peelThinking (r.text.getD [])
      toolCalls := r.toolCalls
      usage := .billed M params (r.text.getD []) r.thinking r.toolCalls r.metadata
      finish := (r.metadata.get "finish_reason").bind readText } := by
  have hraw : r.text.getD [] ≠ [] := by
    intro hnil
    rw [hnil] at hspeaks
    exact hspeaks rfl
  simp only [buildAnswer, bind_eq_ok, require_eq_ok]
  exact ⟨⟨⟩, fun h => hraw h.1, ⟨⟩, .inl hsha, ⟨⟩, fun h => hspeaks h.1, rfl⟩

end Build

end Rootmode.Gateway
