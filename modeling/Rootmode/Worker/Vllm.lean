import Rootmode.Gateway.Billed
import Rootmode.Lib.Lines
import Rootmode.Lib.Lossy
import Rootmode.Worker.Salvage

namespace Rootmode.Worker.Vllm

open Lib Lib.Lines Lib.Lossy Lib.Text Lib.Json Lib.Entries Protocol
open Gateway (Measures readText writeInto)

structure Usage where
  promptTokens : ℕ := 0
  completionTokens : ℕ := 0
  totalTokens : ℕ := 0
  cachedTokens : Option ℕ := none
  reasoningTokens : Option ℕ := none
  cost : Option Lib.Num := none
  webSearchRequests : Option ℕ := none

def Usage.tokens (u : Usage) : TokenUsage where
  prompt := u.promptTokens
  completion := if u.completionTokens = 0 then u.totalTokens - u.promptTokens else u.completionTokens
  cached := min (u.cachedTokens.getD 0) u.promptTokens
  reasoning := u.reasoningTokens.getD 0

structure DeltaFunction where
  name : Option Text := none
  arguments : Option Text := none

structure DeltaToolCall where
  index : ℕ := 0
  id : Option Text := none
  function : Option DeltaFunction := none

structure Delta where
  content : Option Text := none
  reasoningContent : Option Text := none
  toolCalls : Option (List DeltaToolCall) := none

structure StreamChoice where
  delta : Delta := {}
  finishReason : Option Text := none

structure StreamChunk where
  choices : List StreamChoice := []
  error : Option Json := none
  usage : Option Usage := none

/-- A tool call that is put together from fragments. -/
structure PartialCall where
  id : Text := []
  name : Text := []
  arguments : Text := []

/-- What came of the stream so far. -/
structure Heard where
  text : Text := []
  reasoning : Text := []
  /-- What was shown of it on the way, words and thoughts. -/
  deltas : List (Text × Text) := []
  finishReason : Option Text := none
  streamError : Option Text := none
  usage : Option Usage := none
  calls : List (ℕ × PartialCall) := []

section Stream

variable (S : SerdeJson) (fromStr : Text → Option StreamChunk)

def compact (value : Json) : Text :=
  (((value.get "message").bind readText).getD (S.toString value)).take 300

def takeFragment (calls : List (ℕ × PartialCall)) (part : DeltaToolCall) : List (ℕ × PartialCall) :=
  let slot := (lookup part.index calls).getD {}
  let name := part.function.bind (·.name)
  let arguments := part.function.bind (·.arguments)
  put part.index
    { id := part.id.getD slot.id, name := name.getD slot.name
      arguments := slot.arguments ++ arguments.getD [] } calls

def hearChoice (h : Heard) (choice : StreamChoice) : Heard :=
  let content := choice.delta.content.getD []
  let thinking := choice.delta.reasoningContent.getD []
  { h with
    text := h.text ++ content
    reasoning := h.reasoning ++ thinking
    deltas := h.deltas ++ [(markupVisibleDelta h.text content, thinking)]
    calls := (choice.delta.toolCalls.getD []).foldl takeFragment h.calls
    finishReason := choice.finishReason.or h.finishReason }

def hearChunk (h : Heard) (chunk : StreamChunk) : Heard :=
  match chunk.error with
  | some error => { h with streamError := some (compact S error) }
  | none => chunk.choices.foldl hearChoice { h with usage := chunk.usage.or h.usage }

def dataPrefix : Text := "data:".toList

def done : Text := "[DONE]".toList

/-- The data of a line, if it has some. -/
def dataOf (line : Text) : Option Text :=
  let line := trim line
  if dataPrefix.isPrefixOf line then
    let data := trim (line.drop dataPrefix.length)
    if data = [] ∨ data = done then none else some data
  else none

def readLine (h : Heard) (line : Text) : Heard :=
  match (dataOf line).bind fromStr with
  | some chunk => hearChunk S h chunk
  | none => h

/-- The whole lines of what is buffered, up to one that reports an error, and the tail that is held back. -/
def drain (h : Heard) (buffer : Text) : Heard × Text :=
  match _hcut : cut '\n' buffer with
  | none => (h, buffer)
  | some (line, rest) =>
    let heard := readLine S fromStr h line
    if heard.streamError.isSome then (heard, rest) else drain heard rest
termination_by buffer.length
decreasing_by
  rw [(cut_eq_some _hcut).1, List.length_append, List.length_cons]
  omega

/-- Nothing is read after an error. -/
def readChunk (s : Heard × Text) (bytes : Bytes) : Heard × Text :=
  if s.1.streamError.isSome then s else drain S fromStr s.1 (s.2 ++ lossy bytes)

def readStream (chunks : List Bytes) : Heard := (chunks.foldl (readChunk S fromStr) ({}, [])).1

end Stream

section Finish

def emptyCompletion (reasoning : Text) (finishReason : Option Text) (maxTokens : ℕ) : String :=
  let outOfRoom := finishReason = some "length".toList
  let thought := reasoning.length
  let finish := (finishReason.getD "none".toList).str
  if 0 < thought then
    if outOfRoom then
      s!"the model spent all {maxTokens} tokens reasoning ({thought} characters of it) " ++
        "and never got to an answer — raise max_tokens"
    else
      s!"the model produced {thought} characters of reasoning but no answer (finish_reason: {finish})"
  else if outOfRoom then
    s!"the model hit the max_tokens limit ({maxTokens}) without producing any output"
  else s!"the server returned an empty completion (finish_reason: {finish})"

variable (uuid : ℕ → Text)

/-- The calls that have a name. One without an id gets one that is fresh. -/
def toolCalls (calls : List (ℕ × PartialCall)) : List ToolCall :=
  ((calls.map Prod.snd).filter fun c => c.name ≠ []).mapIdx fun i c =>
    { id := if c.id = [] then "call_".toList ++ uuid i else c.id
      name := c.name
      arguments := if trim c.arguments = [] then emptyArguments else c.arguments }

variable (S : SerdeJson) (M : Measures) (params : Protocol.LlmParams) (model : Text)

def metadata (h : Heard) (finishReason : Option Text) (billed : TokenUsage) : Json :=
  let told : Json := object [("model", .str model), ("backend", word "vllm"),
    ("finish_reason", finishReason.elim .null .str), ("reasoning_chars", count h.reasoning.length)]
  let told := writeInto billed told
  let told := match h.usage.bind (·.cost) with
    | some cost => told.insert "upstream_cost" (.num cost)
    | none => told
  match (h.usage.bind (·.webSearchRequests)).filter (0 < ·) with
  | some n => told.insert "web_search_requests" (count n)
  | none => told

/-- What the backend hands back of a stream that has ended. -/
def reply (h : Heard) : Except String Gateway.JobResult :=
  match h.streamError with
  | some error =>
    let error := error.str
    .error s!"the server reported: {error}"
  | none =>
    let (text, salvaged) := salvageToolMarkup S h.text
    let assembled := toolCalls uuid h.calls
    let recovered := assembled.isEmpty && !salvaged.isEmpty
    let calls := if recovered then salvaged else assembled
    let finishReason := if recovered then some "tool_calls".toList else h.finishReason
    if text = [] ∧ calls.isEmpty then
      .error (emptyCompletion h.reasoning finishReason params.maxTokens)
    else
      let thinking := if h.reasoning = [] then none else some h.reasoning
      let billed := (M.tokens params text thinking calls).reconcile (h.usage.map (·.tokens))
      .ok {
        sha256 := M.sha256Hex (Hex.utf8 text)
        text := some text
        toolCalls := calls
        thinking
        metadata := metadata model h finishReason billed }

def run (fromStr : Text → Option StreamChunk) (chunks : List Bytes) : Except String Gateway.JobResult :=
  reply uuid S M params model (readStream S fromStr chunks)

end Finish

section Buffer

variable {S : SerdeJson} {fromStr : Text → Option StreamChunk} {h : Heard} {line rest buffer more : Text}
  {chunks chunks' : List Bytes}

theorem drain_of_none (hcut : cut '\n' buffer = none) : drain S fromStr h buffer = (h, buffer) := by
  unfold drain
  split
  · rfl
  · next hsome => rw [hcut] at hsome; cases hsome

theorem drain_of_some (hcut : cut '\n' buffer = some (line, rest)) : drain S fromStr h buffer =
    if (readLine S fromStr h line).streamError.isSome then (readLine S fromStr h line, rest)
    else drain S fromStr (readLine S fromStr h line) rest := by
  rw [drain]
  split
  · next hnone => rw [hcut] at hnone; cases hnone
  · next hsome =>
    rw [hcut] at hsome
    cases hsome
    rfl

/-- What is left of a buffer that reported no error is a line that has not ended. -/
theorem cut_drain (hok : (drain S fromStr h buffer).1.streamError = none) :
    cut '\n' (drain S fromStr h buffer).2 = none := by
  induction hn : buffer.length using Nat.strong_induction_on generalizing h buffer with
  | _ n ih =>
    cases hcut : cut '\n' buffer with
    | none =>
      rw [drain_of_none hcut]
      exact hcut
    | some found =>
      obtain ⟨line, rest⟩ := found
      have hlength := congrArg List.length (cut_eq_some hcut).1
      rw [List.length_append, List.length_cons] at hlength
      rw [drain_of_some hcut] at hok ⊢
      split at hok
      · next herror => rw [hok] at herror; cases herror
      · next herror =>
        rw [if_neg herror]
        exact ih rest.length (by omega) hok rfl

/-- A buffer is drained as far as it is filled, and then on. -/
theorem drain_append (hok : h.streamError = none) (buffer more : Text) :
    drain S fromStr h (buffer ++ more) =
      let s := drain S fromStr h buffer
      if s.1.streamError.isSome then (s.1, s.2 ++ more) else drain S fromStr s.1 (s.2 ++ more) := by
  induction hn : buffer.length using Nat.strong_induction_on generalizing h buffer with
  | _ n ih =>
    cases hcut : cut '\n' buffer with
    | none =>
      rw [drain_of_none hcut]
      simp only [hok, Option.isSome_none, Bool.false_eq_true, if_false]
    | some found =>
      obtain ⟨line, rest⟩ := found
      have hlength := congrArg List.length (cut_eq_some hcut).1
      rw [List.length_append, List.length_cons] at hlength
      rw [drain_of_some hcut, drain_of_some (cut_append_of_some hcut)]
      split
      · next herror => simp only [herror, if_true]
      · next herror =>
        exact ih rest.length (by omega) (Option.not_isSome_iff_eq_none.mp herror) rest rfl

theorem foldl_of_error (herror : h.streamError.isSome) (chunks : List Bytes) (buffer : Text) :
    chunks.foldl (readChunk S fromStr) (h, buffer) = (h, buffer) := by
  induction chunks with
  | nil => rfl
  | cons bytes chunks ih => rw [List.foldl_cons, readChunk, if_pos herror, ih]

/-- The pieces of a stream are heard as their texts are, one after the other. -/
theorem foldl_readChunk (hok : h.streamError = none) (hbuffer : cut '\n' buffer = none) :
    (chunks.foldl (readChunk S fromStr) (h, buffer)).1 =
      (drain S fromStr h (buffer ++ chunks.flatMap lossy)).1 := by
  induction chunks generalizing h buffer with
  | nil => rw [List.flatMap_nil, List.append_nil, drain_of_none hbuffer, List.foldl_nil]
  | cons bytes chunks ih =>
    have hopen : ¬ h.streamError.isSome := by
      rw [hok]
      exact Bool.false_ne_true
    have happend := @drain_append S fromStr h hok (buffer ++ lossy bytes) (chunks.flatMap lossy)
    rw [List.foldl_cons, readChunk, if_neg hopen, List.flatMap_cons, ← List.append_assoc, happend]
    dsimp only
    generalize hs : drain S fromStr h (buffer ++ lossy bytes) = s
    split
    · next herror =>
      have hsame := @foldl_of_error S fromStr s.1 herror chunks s.2
      exact (congrArg Prod.fst hsame :)
    · next herror =>
      have hnone := Option.not_isSome_iff_eq_none.mp herror
      rw [← hs] at hnone
      exact ih (Option.not_isSome_iff_eq_none.mp herror) (hs ▸ cut_drain hnone)

theorem readStream_eq (chunks : List Bytes) :
    readStream S fromStr chunks = (drain S fromStr {} (chunks.flatMap lossy)).1 :=
  foldl_readChunk rfl rfl

/-- A stream of one line. -/
theorem readStream_line (hchunks : chunks.flatMap lossy = line ++ ['\n']) (hline : '\n' ∉ line) :
    readStream S fromStr chunks = readLine S fromStr {} line := by
  rw [readStream_eq, hchunks, drain_of_some (cut_line hline), drain_of_none rfl]
  split <;> rfl

/-- Two ways to cut a stream, neither within a character, are heard alike. -/
theorem readStream_of_whole (hflatten : chunks'.flatten = chunks.flatten) (h : Whole chunks)
    (h' : Whole chunks') : readStream S fromStr chunks' = readStream S fromStr chunks := by
  rw [readStream_eq, readStream_eq, lossy_flatMap_of_whole h, lossy_flatMap_of_whole h', hflatten]

end Buffer

/-- The stream is read as the text of its bytes exactly when no piece of it ends within a character, and
what comes of it is then the same for every such way to cut it. -/
theorem run_law (uuid : ℕ → Text) (S : SerdeJson) (M : Measures) (params : Protocol.LlmParams) (model : Text)
    (fromStr : Text → Option StreamChunk) (chunks : List Bytes) :
    (readStream S fromStr chunks = (drain S fromStr {} (chunks.flatMap lossy)).1) ∧
    (chunks.flatMap lossy = lossy chunks.flatten ↔ Whole chunks) ∧
    (Whole chunks → ∀ chunks', chunks'.flatten = chunks.flatten → Whole chunks' →
      run uuid S M params model fromStr chunks' = run uuid S M params model fromStr chunks) := by
  refine ⟨readStream_eq chunks, lossy_flatMap_iff, fun h chunks' hflatten h' => ?_⟩
  rw [run, run, readStream_of_whole hflatten h h']

section Frame

variable {uuid : ℕ → Text} {S : SerdeJson} {M : Measures} {params : Protocol.LlmParams} {model : Text}
  {fromStr : Text → Option StreamChunk} {chunks : List Bytes} {line data content : Text}

/-- What a stream of one piece of text comes to. -/
theorem run_content (hchunks : chunks.flatMap lossy = line ++ ['\n']) (hline : '\n' ∉ line)
    (hdata : dataOf line = some data)
    (hchunk : fromStr data = some { choices := [{ delta := { content := some content } }] })
    (hmarkup : salvageToolMarkup S content = (content, [])) (hne : content ≠ []) :
    (run uuid S M params model fromStr chunks).map (·.text) = .ok (some content) := by
  have hheard : (readLine S fromStr {} line).text = content ∧
      (readLine S fromStr {} line).streamError = none := by
    rw [readLine, hdata, Option.bind_some, hchunk]
    exact ⟨rfl, rfl⟩
  rw [run, readStream_line hchunks hline, reply, hheard.2]
  dsimp only
  rw [hheard.1, hmarkup, if_neg fun hempty => hne hempty.1]
  rfl

/-- The text that a frame of nothing else carries. -/
def contentOf (data : Text) : Option StreamChunk :=
  let before := "\x7b\"choices\":[\x7b\"delta\":\x7b\"content\":\"".toList
  let behind := "\"\x7d\x7d]\x7d".toList
  let content := (data.drop before.length).take (data.length - before.length - behind.length)
  if before.isPrefixOf data ∧ behind.isSuffixOf data then
    some { choices := [{ delta := { content := some content } }] }
  else none

def frame (content : Text) : Text :=
  "data: \x7b\"choices\":[\x7b\"delta\":\x7b\"content\":\"".toList ++ content ++ "\"\x7d\x7d]\x7d".toList

end Frame

/-- A letter of two bytes, with a piece that ends between them. -/
theorem run_depends : ¬ ∀ (uuid : ℕ → Text) (S : SerdeJson) (M : Measures) (params : Protocol.LlmParams)
    (model : Text) (fromStr : Text → Option StreamChunk) (chunks chunks' : List Bytes),
    chunks'.flatten = chunks.flatten →
      run uuid S M params model fromStr chunks' = run uuid S M params model fromStr chunks := by
  intro hsame
  let stream := Hex.utf8 (frame ['é'] ++ ['\n'])
  let S : SerdeJson := ⟨fun _ => [], fun _ => none⟩
  let M : Measures := ⟨fun _ => [], fun _ _ _ _ => {}⟩
  let params : Protocol.LlmParams := {
    modelHash := none, modelId := none, messages := [], tools := [], maxTokens := defaultMaxTokens
    temperature := defaultTemperature, reasoningEffort := none }
  let results (chunks : List Bytes) := run (fun _ => []) S M params [] contentOf chunks
  have hone : (results [stream]).map (·.text) = .ok (some ['é']) :=
    @run_content _ _ _ _ _ _ _ (frame ['é']) _ _ (by decide) (by decide) rfl rfl rfl (by decide)
  have htwo : (results [stream.take 40, stream.drop 40]).map (·.text) = .ok (some [replacement, replacement]) :=
    @run_content _ _ _ _ _ _ _ (frame [replacement, replacement]) _ _ (by decide) (by decide) rfl rfl rfl
      (by decide)
  have hcut := hsame (fun _ => []) S M params [] contentOf [stream] [stream.take 40, stream.drop 40] (by decide)
  have hmap := congrArg (Except.map (·.text)) hcut
  have hbroken := htwo.symm.trans (hmap.trans hone)
  exact absurd (Option.some.inj (Except.ok.inj hbroken)) (by decide)

end Rootmode.Worker.Vllm
