import Rootmode.Desktop.Routing
import Rootmode.Gateway.Live
import Rootmode.Gateway.Requests
import Rootmode.Lib.Search

namespace Rootmode.Gateway

open Lib Lib.Text Lib.Checked Lib.Ieee Lib.Json Protocol Desktop

section Payload

def maxImageChars : ℕ := 20_000_000

def reasoningEfforts : List String := ["none", "minimal", "low", "medium", "high", "xhigh"]

def minAnswerTokens : ℕ := 8192

def withWorkableCeiling (p : Protocol.LlmParams) : Protocol.LlmParams :=
  { p with maxTokens := max p.maxTokens minAnswerTokens }

/-- Whether a number lies between zero and two. -/
def upToTwo : Number binary32 → Bool
  | .finite x => (!x.neg || x.mant == 0) && x.mant * 2 ^ x.exp.toNat ≤ 2 * 2 ^ (-x.exp).toNat
  | .infinite _ | .nan => false

def broken (message : String) : AppError := .core (.invalid message)

def checkImage (image : Text) : Except AppError Unit := do
  let image := trim image
  require (image ≠ []) (broken "a message image is empty")
  let lower := lower image
  require (ofString "data:" <+: lower ∨ Search.contains (ofString "://") lower = false)
    (broken "message images must be base64 or a data: URL, not a link")
  require (byteLen image ≤ maxImageChars)
    (broken s!"a message image is larger than {maxImageChars / 1_000_000} MB encoded")

def validate (p : Protocol.LlmParams) : Except AppError Unit := do
  require (!p.messages.isEmpty) (broken "llm job has no messages")
  require (!p.messages.all fun m => (trim m.content).isEmpty && m.toolCalls.isEmpty && m.images.isEmpty)
    (broken "llm job has no prompt text")
  p.messages.forM fun m => m.images.forM checkImage
  p.tools.forM fun t => require (trim t.name ≠ []) (broken "a tool has no name")
  require (p.maxTokens ≠ 0 ∧ p.maxTokens ≤ 131_072) (broken "max_tokens out of range (1..=131072)")
  require (upToTwo p.temperature) (broken "temperature out of range (0.0..=2.0)")
  let efforts := ", ".intercalate reasoningEfforts
  require (p.reasoningEffort.all fun effort => effort.str ∈ reasoningEfforts)
    (broken s!"reasoning_effort must be one of {efforts}")

end Payload

section Messages

/-- What a provider sends. -/
inductive Told
  | delta (text thinking : Text)
  | result (r : JobResult)
  | failed (error : Option String)
  | other

def Told.message : Told → WorkerMessage
  | .delta text _ => .delta text
  | .result r => .result r
  | .failed error => .failed error
  | .other => .other

def Told.speaks : Told → Bool
  | .delta text thinking => !(text.isEmpty && thinking.isEmpty)
  | .result _ | .failed _ | .other => false

def JobResult.saysNothing (r : JobResult) : Bool := (trim (r.text.getD [])).isEmpty && r.toolCalls.isEmpty

/-- Why a message is a provider's failure rather than the request's. -/
def Told.nothing : Told → Option String
  | .failed error => some (error.getD "the provider failed without saying why")
  | .result r => if r.saysNothing then some "the provider returned no answer" else none
  | .delta _ _ | .other => none

/-- What reached the client of what a provider sent. -/
structure Forwarded where
  sent : List Told
  spoke : Bool
  withheld : Option (String × Told)

/-- Before anything has reached the client, a failure is held back. -/
def forward : Bool → List Told → Forwarded
  | spoke, [] => { sent := [], spoke, withheld := none }
  | spoke, msg :: msgs =>
    let held := if spoke then none else msg.nothing
    match held with
    | some why => { sent := [], spoke, withheld := some (why, msg) }
    | none =>
      let rest := forward (spoke || msg.speaks) msgs
      { rest with sent := msg :: rest.sent }

/-- All that a provider sends for a job, and how the task that drives it ends. -/
structure Exchange where
  messages : List Told
  ending : Runner

end Messages

/-- How a job that is handed on ends for who handed it on. -/
def Runner.out : Runner → Except AppError Unit
  | .finished => .ok ⟨⟩
  | .refused e => .error e
  | .panicked e => .error (.net s!"provider task failed: {e}")

def Runner.of : Except AppError Unit → Runner
  | .ok _ => .finished
  | .error e => .refused e

/-- A provider that is asked for a model, and how many were asked before. -/
structure Try where
  n : ℕ
  peer : Peer
  model : Text

/-- What asking comes to. -/
inductive Attempt
  | unreachable (e : AppError)
  /-- No other provider fixes it. -/
  | refused (e : AppError)
  | ran (x : Exchange)

/-- Where a request is sent from: the stored providers and settings, the wallet, and the providers
themselves. -/
structure Network where
  listPeers : Except AppError (List Peer)
  getPeer : Text → Except AppError (Option Peer)
  getSetting : Text → Option Text
  draws : ℕ → Rng
  peerId : Text
  jobId : ℕ → Uuid
  transportFor : ℕ → Peer → Except AppError Unit
  /-- The paying wallet, where there is one and a chain to pay on. -/
  client : ℕ → Option Text
  issueTicket : ℕ → Peer → Price → Protocol.LlmParams → Text →
    Except AppError (Protocol.JobPay × Option Protocol.ReservePost)
  runJob : ℕ → Peer → Protocol.JobSubmit → Exchange

namespace Network

variable (W : Network)

def substitutes : Bool := W.getSetting (ofString "gateway_substitute") ≠ some (ofString "false")

def chosenModel : Option Text :=
  ((W.getSetting (ofString "gateway_model")).map trim).filter fun s => !s.isEmpty

def providerFor (peers : List Peer) (model : Text) : Option ModelOption :=
  (modelOptions (W.draws 0) peers .llm).find? fun o => o.model == model

/-- Who serves the model, or what is served in its place. -/
def choose (peers : List Peer) (model : Text) : Except AppError ModelOption :=
  match W.providerFor peers model with
  | some exact => .ok exact
  | none =>
    match modelOptions (W.draws 1) peers .llm with
    | [] => .error (.notFound
        "no provider is online right now — open rootmode and wait for one to appear")
    | cheapest :: others =>
      if W.substitutes then
        .ok ((W.chosenModel.bind fun want => (cheapest :: others).find? fun o => o.model == want).getD cheapest)
      else
        let asked := model.str
        let names := ", ".intercalate ((cheapest :: others).map fun o => o.model.str)
        .error (.notFound s!"no provider serves '{asked}'. Currently on offer: {names}")

/-- The choice, and who is asked: the provider chosen, then its alternates. -/
def line (req : ChatRequest) : Except AppError (ModelOption × List Try) := do
  let peers ← W.listPeers
  let choice ← W.choose peers req.model
  let found ← W.getPeer choice.peerId
  let missing := choice.peerId.str
  let peer ← demand found (.notFound s!"peer {missing}")
  let alternates := fallbacks (W.draws 2) peers .llm choice.model peer.id
  let tries := (peer, choice.model) :: alternates.filterMap fun f =>
    match W.getPeer f.peerId with
    | .ok (some p) => some (p, f.model)
    | _ => none
  return (choice, tries.zipIdx.map fun t => ⟨t.2, t.1.1, t.1.2⟩)

/-- The job with what pays for it, where the model has a price. -/
def paid (t : Try) (params : Protocol.LlmParams) (submit : Protocol.JobSubmit) :
    Except AppError Protocol.JobSubmit :=
  match gatewayPrice t.peer.models t.model, W.client t.n with
  | some price, some client => do
    let (bond, reserve) ← W.issueTicket t.n t.peer price params client
    return { submit with payer := some client, bond := some bond, reserve }
  | _, _ => .ok submit

def attempt (params : Protocol.LlmParams) (t : Try) : Attempt :=
  let params := withWorkableCeiling { params with modelId := some t.model }
  match validate params with
  | .error e => .refused e
  | .ok _ =>
    match W.transportFor t.n t.peer with
    | .error e => .unreachable e
    | .ok _ =>
      match W.paid t params {
          v := protocolVersion, jobId := W.jobId t.n, from_ := W.peerId, payload := .llm params
          sig := none, spend := none, payer := none, bond := none, reserve := none } with
      | .error e => .refused e
      | .ok submit => .ran (W.runJob t.n t.peer submit)

/-- The providers asked one after the other: what reaches the client and from whom, and how it ends. -/
def serve (params : Protocol.LlmParams) : List Try → String → List (Try × Told) × Except AppError Unit
  | [], last => ([], .error (.net last))
  | t :: tries, _ =>
    match W.attempt params t with
    | .refused e => ([], .error e)
    | .unreachable e => serve params tries e.text
    | .ran x =>
      let f := forward false x.messages
      let sent := f.sent.map (t, ·)
      let next := fun why => (sent ++ (serve params tries why).1, (serve params tries why).2)
      match f.withheld, x.ending.out with
      | some (why, msg), _ => if tries.isEmpty then (sent ++ [(t, msg)], .ok ⟨⟩) else next why
      | none, .error e => if f.spoke || tries.isEmpty then (sent, .error e) else next e.text
      | none, .ok _ => (sent, .ok ⟨⟩)

/-- What a caller gets to work with: the model served, the messages, and how they end. -/
structure Submitted where
  served : Text
  heard : List (Try × Told)
  runner : Runner

def Submitted.messages (s : Submitted) : List WorkerMessage := s.heard.map fun e => e.2.message

def submit (req : ChatRequest) : Except AppError Submitted := do
  let (choice, tries) ← W.line req
  let (heard, out) := W.serve req.params tries "no provider could run this request"
  return { served := choice.model, heard, runner := .of out }

variable (M : Measures)

/-- The answer, and the model it is said to be of. -/
def run (req : ChatRequest) : Except AppError (Answer × Text) := do
  let s ← W.submit req
  let answer ← Gateway.run M req.params s.messages s.runner
  return (answer, s.served)

end Network

section Reply

variable (S : SerdeJson) (id model : Text) (created : ℤ) (a : Answer)

def parseArguments (arguments : Text) : Json :=
  match S.fromStr arguments with
  | some (.obj entries) => .obj entries
  | _ => object [("_raw", str arguments)]

def anthropicContent : List Json :=
  (if a.text = [] then [] else [object [("type", word "text"), ("text", str a.text)]]) ++
    a.toolCalls.map fun call => object [
      ("type", word "tool_use"), ("id", str call.id), ("name", str call.name),
      ("input", parseArguments S call.arguments)]

def Usage.anthropicJson (u : Usage) : Json := object [
  ("input_tokens", count u.input), ("output_tokens", count u.output),
  ("cache_read_input_tokens", count u.cached)]

def anthropicMessage : Json := object [
  ("id", str id), ("type", word "message"), ("role", word "assistant"), ("model", str model),
  ("content", arr (anthropicContent S a)), ("stop_reason", stopReason a), ("stop_sequence", null),
  ("usage", a.usage.anthropicJson)]

def openaiToolCalls : List Json := a.toolCalls.map fun call => object [
  ("id", str call.id), ("type", word "function"),
  ("function", object [("name", str call.name), ("arguments", str call.arguments)])]

def openaiCompletion : Json :=
  let content := if a.acted ∧ a.text = [] then null else str a.text
  let message := object ([("role", word "assistant"), ("content", content)] ++
    if a.acted then [("tool_calls", arr (openaiToolCalls a))] else [])
  object [
    ("id", str id), ("object", word "chat.completion"), ("created", num (.int created)),
    ("model", str model),
    ("choices", arr [object [("index", count 0), ("message", message), ("finish_reason", openaiFinish a)]]),
    ("usage", a.usage.openaiJson)]

def respond : Shape → Json
  | .anthropic => anthropicMessage S id model a
  | .openAi => openaiCompletion id model created a
  | .responses => openaiResponse id model created a

end Reply

end Rootmode.Gateway
