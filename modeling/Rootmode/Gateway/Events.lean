import Rootmode.Gateway.Answer

namespace Rootmode.Gateway

open Lib Lib.Json Protocol

/-- The name of an event, and its data. -/
abbrev Event := String × Json

section Anthropic

def stopReason (a : Answer) : Json :=
  if a.acted then word "tool_use" else if a.truncated then word "max_tokens" else word "end_turn"

def messageStart (id model : Text) (usage : Json) : Event :=
  ("message_start", object [
    ("type", word "message_start"),
    ("message", object [
      ("id", str id), ("type", word "message"), ("role", word "assistant"), ("model", str model),
      ("content", arr []), ("stop_reason", null), ("stop_sequence", null), ("usage", usage)])])

def blockStart (index : ℕ) (block : Json) : Event :=
  ("content_block_start", object [
    ("type", word "content_block_start"), ("index", count index), ("content_block", block)])

def blockDelta (index : ℕ) (delta : Json) : Event :=
  ("content_block_delta", object [
    ("type", word "content_block_delta"), ("index", count index), ("delta", delta)])

def blockStop (index : ℕ) : Event :=
  ("content_block_stop", object [("type", word "content_block_stop"), ("index", count index)])

def messageDelta (a : Answer) : Event :=
  ("message_delta", object [
    ("type", word "message_delta"),
    ("delta", object [("stop_reason", stopReason a), ("stop_sequence", null)]),
    ("usage", object [("output_tokens", count a.usage.output)])])

def messageStop : Event := ("message_stop", object [("type", word "message_stop")])

def anthropicLiveStart (id model : Text) : Event :=
  messageStart id model (object [("input_tokens", count 0), ("output_tokens", count 0)])

def anthropicLiveTextStart (index : ℕ) : Event :=
  blockStart index (object [("type", word "text"), ("text", str [])])

def anthropicLiveTextDelta (index : ℕ) (text : Text) : Event :=
  blockDelta index (object [("type", word "text_delta"), ("text", str text)])

def toolUse (index : ℕ) (call : ToolCall) : List Event := [
  blockStart index (object [
    ("type", word "tool_use"), ("id", str call.id), ("name", str call.name), ("input", object [])]),
  blockDelta index (object [("type", word "input_json_delta"), ("partial_json", str call.arguments)]),
  blockStop index]

def toolUses : ℕ → List ToolCall → List Event
  | _, [] => []
  | index, call :: calls => toolUse index call ++ toolUses (index + 1) calls

/-- All that comes after the text. -/
def anthropicLiveEnd (a : Answer) (textIndex : Option ℕ) : List Event :=
  let index := (textIndex.map (· + 1)).getD 0
  (textIndex.map blockStop).toList ++ toolUses index a.toolCalls ++ [messageDelta a, messageStop]

/-- The events of an answer that is there as a whole. -/
def anthropicStream (id model : Text) (a : Answer) : List Event :=
  let usage := object [
    ("input_tokens", count a.usage.input), ("output_tokens", count 0),
    ("cache_read_input_tokens", count a.usage.cached)]
  let text := if a.text = [] then []
    else [anthropicLiveTextStart 0, anthropicLiveTextDelta 0 a.text, blockStop 0]
  let index := if a.text = [] then 0 else 1
  messageStart id model usage :: text ++ toolUses index a.toolCalls ++ [messageDelta a, messageStop]

def anthropicError (kind : String) (message : String) : Json :=
  object [("type", word "error"), ("error", object [("type", word kind), ("message", word message)])]

def anthropicLiveError (message : String) : Event := ("error", anthropicError "overloaded_error" message)

end Anthropic

section OpenAi

variable (id model : Text) (created : ℤ)

def openaiFinish (a : Answer) : Json :=
  if a.acted then word "tool_calls" else if a.truncated then word "length" else word "stop"

def Usage.total (u : Usage) : ℕ := (u.input + u.output) % 2 ^ 64

def Usage.openaiJson (u : Usage) : Json := object [
  ("prompt_tokens", count u.input), ("completion_tokens", count u.output),
  ("total_tokens", count u.total),
  ("prompt_tokens_details", object [("cached_tokens", count u.cached)]),
  ("completion_tokens_details", object [("reasoning_tokens", count u.reasoning)])]

def chunk (choices : List Json) (more : List (String × Json)) : Json := object ([
  ("id", str id), ("object", word "chat.completion.chunk"), ("created", num (.int created)),
  ("model", str model), ("choices", arr choices)] ++ more)

def deltaChunk (delta finish : Json) : Json :=
  chunk id model created [object [("index", count 0), ("delta", delta), ("finish_reason", finish)]] []

def openaiLiveStart : Json :=
  deltaChunk id model created (object [("role", word "assistant"), ("content", str [])]) null

def openaiLiveDelta (text : Text) : Json :=
  deltaChunk id model created (object [("content", str text)]) null

def chunkCall (i : ℕ) (call : ToolCall) : Json := object [
  ("index", count i), ("id", str call.id), ("type", word "function"),
  ("function", object [("name", str call.name), ("arguments", str call.arguments)])]

def openaiLiveEnd (a : Answer) : List Json :=
  (if a.acted then
    [deltaChunk id model created (object [("tool_calls", arr (a.toolCalls.mapIdx chunkCall))]) null]
  else []) ++ [
    deltaChunk id model created (object []) (openaiFinish a),
    chunk id model created [] [("usage", a.usage.openaiJson)]]

def openaiError (kind message : String) : Json := object [
  ("error", object [("type", word kind), ("message", word message), ("code", word kind)])]

def openaiLiveError (message : String) : Json := openaiError "api_error" message

end OpenAi

section Responses

variable (id model : Text) (created : ℤ)

def responsesMessageId : Text := "msg_".toList ++ id

def responsesFunctionId (i : ℕ) : Text := "fc_".toList ++ id ++ '_' :: (toString i).toList

def responsesTextPart (text : Text) : Json := object [
  ("type", word "output_text"), ("text", str text), ("annotations", arr [])]

def messageItem (status : String) (content : List Json) : Json := object [
  ("id", str (responsesMessageId id)), ("type", word "message"), ("status", word status),
  ("role", word "assistant"), ("content", arr content)]

def callItem (i : ℕ) (call : ToolCall) (arguments : Text) (status : String) : Json := object [
  ("type", word "function_call"), ("id", str (responsesFunctionId id i)), ("call_id", str call.id),
  ("name", str call.name), ("arguments", str arguments), ("status", word status)]

def responsesOutputItems (a : Answer) : List Json :=
  (if a.text ≠ [] ∨ ¬ a.acted then [messageItem id "completed" [responsesTextPart a.text]] else []) ++
    a.toolCalls.mapIdx fun i call => callItem id i call call.arguments "completed"

def responsesStatus (a : Answer) : Json :=
  if a.truncated then word "incomplete" else word "completed"

def openaiResponse (a : Answer) : Json := object [
  ("id", str id), ("object", word "response"), ("created_at", num (.int created)),
  ("status", responsesStatus a), ("model", str model), ("output", arr (responsesOutputItems id a)),
  ("output_text", str a.text),
  ("usage", object [
    ("input_tokens", count a.usage.input), ("output_tokens", count a.usage.output),
    ("total_tokens", count a.usage.total),
    ("input_tokens_details", object [("cached_tokens", count a.usage.cached)]),
    ("output_tokens_details", object [("reasoning_tokens", count a.usage.reasoning)])])]

def responsesSkeleton (status : String) : Json := object [
  ("id", str id), ("object", word "response"), ("created_at", num (.int created)),
  ("status", word status), ("error", null), ("model", str model), ("output", arr [])]

def responsesLiveStart : Event := ("response.created", object [
  ("type", word "response.created"), ("response", responsesSkeleton id model created "in_progress")])

def responsesLiveInProgress : Event := ("response.in_progress", object [
  ("type", word "response.in_progress"), ("response", responsesSkeleton id model created "in_progress")])

def itemAdded (index : ℕ) (item : Json) : Event := ("response.output_item.added", object [
  ("type", word "response.output_item.added"), ("output_index", count index), ("item", item)])

def itemDone (index : ℕ) (item : Json) : Event := ("response.output_item.done", object [
  ("type", word "response.output_item.done"), ("output_index", count index), ("item", item)])

/-- An event about the text part of the message item. -/
def partEvent (name : String) (more : List (String × Json)) : Event := (name, object ([
  ("type", word name), ("item_id", str (responsesMessageId id)), ("output_index", count 0),
  ("content_index", count 0)] ++ more))

def responsesLiveTextStart : List Event := [
  itemAdded 0 (messageItem id "in_progress" []),
  partEvent id "response.content_part.added" [("part", responsesTextPart [])]]

def responsesLiveDelta (text : Text) : Event :=
  partEvent id "response.output_text.delta" [("delta", str text)]

def responsesLiveTextClose (text : Text) : List Event := [
  partEvent id "response.output_text.done" [("text", str text)],
  partEvent id "response.content_part.done" [("part", responsesTextPart text)],
  itemDone 0 (messageItem id "completed" [responsesTextPart text])]

/-- An event about the arguments of a call. -/
def argumentsEvent (name : String) (i outputIndex : ℕ) (more : String × Json) : Event := (name, object [
  ("type", word name), ("item_id", str (responsesFunctionId id i)),
  ("output_index", count outputIndex), more])

def responsesLiveFunctionCall (i outputIndex : ℕ) (call : ToolCall) : List Event := [
  itemAdded outputIndex (callItem id i call [] "in_progress"),
  argumentsEvent id "response.function_call_arguments.delta" i outputIndex ("delta", str call.arguments),
  argumentsEvent id "response.function_call_arguments.done" i outputIndex
    ("arguments", str call.arguments),
  itemDone outputIndex (callItem id i call call.arguments "completed")]

def functionCalls (next : ℕ) : ℕ → List ToolCall → List Event
  | _, [] => []
  | i, call :: calls => responsesLiveFunctionCall id i (next + i) call ++ functionCalls next (i + 1) calls

def responseCompleted (a : Answer) : Event := ("response.completed", object [
  ("type", word "response.completed"), ("response", openaiResponse id model created a)])

/-- Close the text, or open and close one that comes only now, and make the calls. -/
def responsesLiveEnd (a : Answer) (textOpened : Bool) : List Event :=
  let text :=
    if textOpened then responsesLiveTextClose id a.text
    else if a.text ≠ [] then
      responsesLiveTextStart id ++ responsesLiveDelta id a.text :: responsesLiveTextClose id a.text
    else []
  let next := if textOpened ∨ a.text ≠ [] then 1 else 0
  text ++ functionCalls id next 0 a.toolCalls ++ [responseCompleted id model created a]

/-- The events of an answer that is there as a whole. -/
def openaiResponseStream (a : Answer) : List Event :=
  let text := if a.text = [] then [] else responsesLiveTextStart id ++ [responsesLiveDelta id a.text]
  responsesLiveStart id model created :: responsesLiveInProgress id model created :: text ++
    responsesLiveEnd id model created a (a.text ≠ [])

def responsesLiveError (message : String) : Event := ("response.failed", object [
  ("type", word "response.failed"),
  ("response", object [("status", word "failed"), ("error", object [("message", word message)])])])

end Responses

end Rootmode.Gateway
