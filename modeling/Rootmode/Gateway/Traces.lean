import Rootmode.Gateway.Heard
import Rootmode.Lib.Blocks

namespace Rootmode.Gateway

open Lib Lib.Json Lib.Entries Protocol

/-- What a client's bookkeeping takes from an event. -/
structure Trace where
  /-- The content block or output item it is about. -/
  block : Mark ℕ := .other
  /-- The content part it is about. -/
  part : Mark (ℕ × ℕ) := .other
  /-- The item it announces, and where in the output. -/
  announces : Option (ℕ × Text) := none
  /-- The items of the finished output. -/
  output : Option (List (Option Text)) := none

def readIndex : Json → Option ℕ
  | .num (.int n) => some n.toNat
  | _ => none

def indexAt (v : Json) (k : String) : Option ℕ := (v.get k).bind readIndex

def idOf (item : Json) : Option Text := (item.get "id").bind readText

def itemsOf : Json → Option (List Json)
  | .arr items => some items
  | _ => none

def onIndex {κ : Type} (k : Option κ) (mark : κ → Mark κ) : Mark κ := (k.map mark).getD .other

def anthropicMark (e : Event) : Mark ℕ :=
  let index := indexAt e.2 "index"
  if e.1 = "content_block_start" then onIndex index .opens
  else if e.1 = "content_block_delta" then onIndex index .inside
  else if e.1 = "content_block_stop" then onIndex index .closes
  else if e.1 = "message_stop" ∨ e.1 = "error" then .ends
  else .other

def responsesMark (e : Event) : Mark ℕ :=
  let index := indexAt e.2 "output_index"
  if e.1 = "response.output_item.added" then onIndex index .opens
  else if e.1 = "response.output_item.done" then onIndex index .closes
  else if e.1 = "response.completed" ∨ e.1 = "response.failed" then .ends
  else onIndex index .inside

def partMark (e : Event) : Mark (ℕ × ℕ) :=
  let index := (indexAt e.2 "output_index").bind fun i => (indexAt e.2 "content_index").map (i, ·)
  if e.1 = "response.content_part.added" then onIndex index .opens
  else if e.1 = "response.content_part.done" then onIndex index .closes
  else onIndex index .inside

def announced (e : Event) : Option (ℕ × Text) :=
  if e.1 = "response.output_item.added" then
    (indexAt e.2 "output_index").bind fun i => ((e.2.get "item").bind idOf).map (i, ·)
  else none

def outputIds (e : Event) : Option (List (Option Text)) :=
  if e.1 = "response.completed" then
    (((e.2.get "response").bind fun r => r.get "output").bind itemsOf).map (·.map idOf)
  else none

def trace : Shape → Event → Trace
  | .anthropic, e => { block := anthropicMark e }
  | .responses, e =>
    { block := responsesMark e, part := partMark e, announces := announced e, output := outputIds e }
  | .openAi, _ => {}

theorem trace_anthropic (e : Event) : trace .anthropic e = { block := anthropicMark e } := rfl

theorem trace_responses (e : Event) : trace .responses e =
    { block := responsesMark e, part := partMark e, announces := announced e, output := outputIds e } := rfl

theorem readIndex_count (n : ℕ) : readIndex (count n) = some n := by
  simp [readIndex, count]

section Anthropic

variable (i : ℕ)

theorem trace_blockStart (block : Json) :
    trace .anthropic (blockStart i block) = { block := .opens i } := by
  rw [trace_anthropic]
  unfold anthropicMark blockStart indexAt onIndex
  simp only [get_object, List.reverse_cons, List.reverse_nil, List.nil_append, List.cons_append,
    lookup_cons, String.reduceEq, if_true, if_false, Option.bind_some, readIndex_count, Option.map_some,
    Option.getD_some]

theorem trace_blockDelta (delta : Json) :
    trace .anthropic (blockDelta i delta) = { block := .inside i } := by
  rw [trace_anthropic]
  unfold anthropicMark blockDelta indexAt onIndex
  simp only [get_object, List.reverse_cons, List.reverse_nil, List.nil_append, List.cons_append,
    lookup_cons, String.reduceEq, if_true, if_false, Option.bind_some, readIndex_count, Option.map_some,
    Option.getD_some]

theorem trace_blockStop : trace .anthropic (blockStop i) = { block := .closes i } := by
  rw [trace_anthropic]
  unfold anthropicMark blockStop indexAt onIndex
  simp only [get_object, List.reverse_cons, List.reverse_nil, List.nil_append, List.cons_append,
    lookup_cons, String.reduceEq, if_true, if_false, Option.bind_some, readIndex_count, Option.map_some,
    Option.getD_some]

theorem trace_messageStart (id model : Text) (usage : Json) :
    trace .anthropic (messageStart id model usage) = {} := by
  rw [trace_anthropic]
  unfold anthropicMark messageStart
  simp only [String.reduceEq, if_false, or_self]

theorem trace_messageDelta (a : Answer) : trace .anthropic (messageDelta a) = {} := by
  rw [trace_anthropic]
  unfold anthropicMark messageDelta
  simp only [String.reduceEq, if_false, or_self]

theorem trace_messageStop : trace .anthropic messageStop = { block := .ends } := by
  rw [trace_anthropic]
  unfold anthropicMark messageStop
  simp only [String.reduceEq, if_false, true_or, if_true]

theorem trace_anthropicLiveError (message : String) :
    trace .anthropic (anthropicLiveError message) = { block := .ends } := by
  rw [trace_anthropic]
  unfold anthropicMark anthropicLiveError
  simp only [String.reduceEq, if_false, or_true, if_true]

end Anthropic

section Responses

variable (id model : Text) (created : ℤ) (i k : ℕ)

theorem trace_responsesLiveStart : trace .responses (responsesLiveStart id model created) = {} := by
  rw [trace_responses]
  unfold responsesMark partMark announced outputIds responsesLiveStart indexAt onIndex
  simp only [get_object, List.reverse_cons, List.reverse_nil, List.nil_append, List.cons_append,
    lookup_cons, lookup_nil, String.reduceEq, if_false, or_self, Option.bind_none, Option.map_none,
    Option.getD_none]

theorem trace_responsesLiveInProgress :
    trace .responses (responsesLiveInProgress id model created) = {} := by
  rw [trace_responses]
  unfold responsesMark partMark announced outputIds responsesLiveInProgress indexAt onIndex
  simp only [get_object, List.reverse_cons, List.reverse_nil, List.nil_append, List.cons_append,
    lookup_cons, lookup_nil, String.reduceEq, if_false, or_self, Option.bind_none, Option.map_none,
    Option.getD_none]

theorem trace_itemAdded (item : Json) : trace .responses (itemAdded k item) =
    { block := .opens k, announces := (idOf item).map (k, ·) } := by
  rw [trace_responses]
  unfold responsesMark partMark announced outputIds itemAdded indexAt onIndex
  simp only [get_object, List.reverse_cons, List.reverse_nil, List.nil_append, List.cons_append,
    lookup_cons, lookup_nil, String.reduceEq, if_true, if_false, Option.bind_some, Option.bind_none,
    readIndex_count, Option.map_none, Option.map_some, Option.getD_none, Option.getD_some]

theorem trace_itemDone (item : Json) :
    trace .responses (itemDone k item) = { block := .closes k } := by
  rw [trace_responses]
  unfold responsesMark partMark announced outputIds itemDone indexAt onIndex
  simp only [get_object, List.reverse_cons, List.reverse_nil, List.nil_append, List.cons_append,
    lookup_cons, lookup_nil, String.reduceEq, if_true, if_false, Option.bind_some, Option.bind_none,
    readIndex_count, Option.map_none, Option.map_some, Option.getD_none, Option.getD_some]

theorem idOf_messageItem (status : String) (content : List Json) :
    idOf (messageItem id status content) = some (responsesMessageId id) := by
  unfold idOf messageItem
  simp only [get_object, List.reverse_cons, List.reverse_nil, List.nil_append, List.cons_append,
    lookup_cons, String.reduceEq, if_true, if_false, Option.bind_some, readText_str]

theorem idOf_callItem (call : ToolCall) (arguments : Text) (status : String) :
    idOf (callItem id i call arguments status) = some (responsesFunctionId id i) := by
  unfold idOf callItem
  simp only [get_object, List.reverse_cons, List.reverse_nil, List.nil_append, List.cons_append,
    lookup_cons, String.reduceEq, if_true, if_false, Option.bind_some, readText_str]

/-- What is about the text is about its part of the first item. -/
theorem trace_partEvent (name key : String) (v : Json) (hkey : key ≠ "output_index" ∧ key ≠ "content_index")
    (hname : name ≠ "response.output_item.added" ∧ name ≠ "response.output_item.done" ∧
      name ≠ "response.completed" ∧ name ≠ "response.failed") :
    trace .responses (partEvent id name [(key, v)]) =
      { block := .inside 0
        part := if name = "response.content_part.added" then .opens (0, 0)
          else if name = "response.content_part.done" then .closes (0, 0) else .inside (0, 0) } := by
  rw [trace_responses]
  unfold responsesMark partMark announced outputIds partEvent indexAt onIndex
  simp only [get_object, List.reverse_cons, List.reverse_nil, List.nil_append, List.cons_append,
    lookup_cons, hkey.1, hkey.2, hname.1, hname.2.1, hname.2.2.1, hname.2.2.2, or_self, if_true,
    if_false, Option.bind_some, readIndex_count, Option.map_some, Option.getD_some, String.reduceEq]

theorem trace_argumentsEvent (name key : String) (v : Json)
    (hkey : key ≠ "output_index" ∧ key ≠ "content_index")
    (hname : name ≠ "response.output_item.added" ∧ name ≠ "response.output_item.done" ∧
      name ≠ "response.completed" ∧ name ≠ "response.failed") :
    trace .responses (argumentsEvent id name i k (key, v)) = { block := .inside k } := by
  rw [trace_responses]
  unfold responsesMark partMark announced outputIds argumentsEvent indexAt onIndex
  simp only [get_object, List.reverse_cons, List.reverse_nil, List.nil_append, List.cons_append,
    lookup_cons, lookup_nil, hkey.1, hkey.2, hname.1, hname.2.1, hname.2.2.1, hname.2.2.2, or_self,
    if_true, if_false, Option.bind_some, Option.bind_none, Option.map_none, readIndex_count,
    Option.map_some, Option.getD_some, Option.getD_none, String.reduceEq, ite_self]

theorem trace_responseCompleted (a : Answer) : trace .responses (responseCompleted id model created a) =
    { block := .ends, output := some ((responsesOutputItems id a).map idOf) } := by
  rw [trace_responses]
  unfold responsesMark partMark announced outputIds responseCompleted openaiResponse indexAt itemsOf onIndex
  simp only [get_object, List.reverse_cons, List.reverse_nil, List.nil_append, List.cons_append,
    lookup_cons, lookup_nil, String.reduceEq, if_true, if_false, true_or, Option.bind_some,
    Option.bind_none, Option.map_none, Option.map_some, Option.getD_none]

theorem trace_responsesLiveError (message : String) :
    trace .responses (responsesLiveError message) = { block := .ends } := by
  rw [trace_responses]
  unfold responsesMark partMark announced outputIds responsesLiveError indexAt onIndex
  simp only [get_object, List.reverse_cons, List.reverse_nil, List.nil_append, List.cons_append,
    lookup_cons, lookup_nil, String.reduceEq, if_true, if_false, or_true, Option.bind_none,
    Option.map_none, Option.getD_none]

end Responses

section Blocks

variable (id model : Text) (created : ℤ)

/-- The text's block as it is opened. -/
def opening (id : Text) : Shape → List Trace
  | .responses => [
    { block := .opens 0, announces := some (0, responsesMessageId id) },
    { block := .inside 0, part := .opens (0, 0) }]
  | _ => [{ block := .opens 0 }]

/-- A piece of the text. -/
def piece : Shape → Trace
  | .responses => { block := .inside 0, part := .inside (0, 0) }
  | _ => { block := .inside 0 }

def closing : Shape → List Trace
  | .responses => [
    { block := .inside 0, part := .inside (0, 0) }, { block := .inside 0, part := .closes (0, 0) },
    { block := .closes 0 }]
  | _ => [{ block := .closes 0 }]

def callTrace (id : Text) (shape : Shape) (k i : ℕ) : List Trace :=
  match shape with
  | .responses => [
    { block := .opens k, announces := some (k, responsesFunctionId id i) }, { block := .inside k },
    { block := .inside k }, { block := .closes k }]
  | _ => [{ block := .opens k }, { block := .inside k }, { block := .closes k }]

/-- The calls of an answer, the first of them at an index. -/
def callTraces (id : Text) (shape : Shape) (next : ℕ) : ℕ → ℕ → List Trace
  | _, 0 => []
  | i, n + 1 => callTrace id shape (next + i) i ++ callTraces id shape next (i + 1) n

theorem trace_anthropicText (text : Text) :
    [anthropicLiveTextStart 0, anthropicLiveTextDelta 0 text].map (trace .anthropic) =
      opening id .anthropic ++ [piece .anthropic] := by
  simp only [List.map_cons, List.map_nil, anthropicLiveTextStart, anthropicLiveTextDelta,
    trace_blockStart, trace_blockDelta]
  rfl

theorem trace_toolUses (i : ℕ) (next : ℕ) (calls : List ToolCall) :
    (toolUses (next + i) calls).map (trace .anthropic) =
      callTraces id .anthropic next i calls.length := by
  induction calls generalizing i with
  | nil => rfl
  | cons call calls ih =>
    rw [toolUses, List.map_append, Nat.add_assoc, ih, toolUse]
    simp only [List.map_cons, List.map_nil, trace_blockStart, trace_blockDelta, trace_blockStop]
    rfl

theorem trace_responsesLiveTextStart : (responsesLiveTextStart id).map (trace .responses) =
    opening id .responses := by
  simp only [responsesLiveTextStart, List.map_cons, List.map_nil, trace_itemAdded, idOf_messageItem]
  rw [trace_partEvent _ _ _ _ (by decide) (by decide)]
  rfl

theorem trace_responsesLiveDelta (text : Text) :
    trace .responses (responsesLiveDelta id text) = piece .responses := by
  rw [responsesLiveDelta, trace_partEvent _ _ _ _ (by decide) (by decide)]
  rfl

theorem trace_responsesLiveTextClose (text : Text) :
    (responsesLiveTextClose id text).map (trace .responses) = closing .responses := by
  simp only [responsesLiveTextClose, List.map_cons, List.map_nil, trace_itemDone]
  rw [trace_partEvent _ _ _ _ (by decide) (by decide), trace_partEvent _ _ _ _ (by decide) (by decide)]
  rfl

theorem trace_functionCalls (next i : ℕ) (calls : List ToolCall) :
    (functionCalls id next i calls).map (trace .responses) =
      callTraces id .responses next i calls.length := by
  induction calls generalizing i with
  | nil => rfl
  | cons call calls ih =>
    rw [functionCalls, List.map_append, ih, responsesLiveFunctionCall]
    simp only [List.map_cons, List.map_nil, trace_itemAdded, idOf_callItem, trace_itemDone]
    rw [trace_argumentsEvent _ _ _ _ _ _ (by decide) (by decide),
      trace_argumentsEvent _ _ _ _ _ _ (by decide) (by decide)]
    rfl

end Blocks

end Rootmode.Gateway
