import Rootmode.Gateway.Answer

namespace Rootmode.Gateway

open Lib Lib.Checked Lib.Ieee Lib.Json Protocol

abbrev BadRequest := String

def defaultMaxTokensOf : ℕ := 16_384

structure ChatRequest where
  model : Text
  params : Protocol.LlmParams
  stream : Bool

/-- What stands between two texts that become one. -/
def paragraph : Text := ['\n', '\n']

def role (s : String) : Text := s.toList

def message (r content : Text) : ChatMessage := ⟨r, content, [], none, []⟩

def typeOf (v : Json) : Option Text := (v.get "type").bind readText

def textAt (v : Json) (k : String) : Option Text := (v.get k).bind readText

def zero32 : Number binary32 := .finite ⟨false, 0, -149, by decide, by decide, by decide, by decide⟩

def efforts : List Text := ["none", "minimal", "low", "medium", "high", "xhigh"].map String.toList

def reasoningEffort (raw : Option Text) : Option Text :=
  (raw.map fun e => (e.trim).lower).filter (efforts.contains ·)

section Late

def wrapSystem (text : Text) : Text :=
  "<system-reminder>\n".toList ++ text.trim ++ "\n</system-reminder>".toList

/-- The turns after the opening ones, of which some are done. -/
def foldLate (before : List ChatMessage) : List ChatMessage → List ChatMessage
  | [] => before
  | m :: rest =>
    if m.role ≠ role "system" then foldLate (before ++ [m]) rest
    else
      let text := wrapSystem m.content
      match before.getLast?.filter (·.role = role "user"), rest with
      | some prev, rest =>
        foldLate (before.dropLast ++ [{ prev with content := prev.content ++ paragraph ++ text }]) rest
      | none, next :: rest =>
        if next.role = role "user" then
          foldLate (before ++ [{ next with content := text ++ paragraph ++ next.content }]) rest
        else foldLate (before ++ [message (role "user") text]) (next :: rest)
      | none, [] => before ++ [message (role "user") text]

/-- An instruction that comes late goes to the turn of the user next to it. -/
def foldLateSystemMessages (messages : List ChatMessage) : List ChatMessage :=
  messages.takeWhile (·.role = role "system") ++
    foldLate [] (messages.dropWhile (·.role = role "system"))

end Late

section Content

variable (S : SerdeJson)

def flattenWith (read : Json → Option Text) (blocks : List Json) : Text :=
  paragraph.intercalate ((blocks.filterMap read).filter (· ≠ []))

def flattenText : Json → Text
  | .str s => s
  | .arr blocks => flattenWith
      (fun b => if typeOf b = some "text".toList then textAt b "text" else readText b) blocks
  | .null => []
  | other => S.toString other

def isData (url : Text) : Bool := "data:".toList.isPrefixOf url

def imageIn (b : Json) : Option Text :=
  if typeOf b = some "image".toList then
    (b.get "source").bind fun source =>
      if typeOf source = some "base64".toList then
        (textAt source "data").map fun data =>
          let media := (textAt source "media_type").getD "image/png".toList
          "data:".toList ++ media ++ ";base64,".toList ++ data
      else (textAt source "url").filter isData
  else if typeOf b = some "image_url".toList then
    (((b.get "image_url").bind (·.get "url")).bind readText).filter isData
  else none

def imagesIn : Json → List Text
  | .arr blocks => blocks.filterMap imageIn
  | _ => []

/-- The names the Responses API has for a text. -/
def responsesTextTypes : List Text := ["input_text", "output_text", "text"].map String.toList

def flattenResponsesText : Json → Text
  | .arr blocks => flattenWith
      (fun b => if (typeOf b).any (responsesTextTypes.contains ·) then textAt b "text" else readText b)
      blocks
  | other => flattenText S other

def responsesImagesIn : Json → List Text
  | .arr blocks => blocks.filterMap fun b =>
    if typeOf b = some "input_image".toList then (textAt b "image_url").filter isData else none
  | _ => []

end Content

section Anthropic

variable (S : SerdeJson)

structure AnthropicMessage where
  role : Text
  content : Json

structure AnthropicRequest where
  model : Text
  maxTokens : Option ℕ := none
  system : Option Json := none
  messages : List AnthropicMessage := []
  tools : List Json := []
  stream : Bool := false
  temperature : Option (Number binary32) := none

def anthropicTool (t : Json) : Option ToolDef := do
  let name ← textAt t "name"
  let schema ← t.get "input_schema"
  match schema with
  | .obj _ => some ⟨name, textAt t "description", ⟨schema.value, isValue_value schema⟩⟩
  | _ => none

/-- What is read of a turn so far: its results are out. -/
structure TurnRead where
  out : List ChatMessage
  text : Text := []
  calls : List ToolCall := []

def TurnRead.block (t : TurnRead) (b : Json) : TurnRead :=
  let kind := (typeOf b).getD "text".toList
  if kind = "text".toList then
    match (textAt b "text").filter (· ≠ []) with
    | some s => { t with text := if t.text = [] then s else t.text ++ paragraph ++ s }
    | none => t
  else if kind = "tool_use".toList then
    { t with
      calls := t.calls ++ [{
        id := (textAt b "id").getD []
        name := (textAt b "name").getD "tool".toList
        arguments := ((b.get "input").map S.toString).getD "\x7b\x7d".toList }] }
  else if kind = "tool_result".toList then
    { t with
      out := t.out ++ [{
        message (role "tool") (((b.get "content").map (flattenText S)).getD []) with
        toolCallId := textAt b "tool_use_id" }] }
  else t

def pushAnthropicTurn (out : List ChatMessage) (m : AnthropicMessage) : List ChatMessage :=
  let blocks := match m.content with
    | .arr blocks => blocks
    | other => [object [("type", word "text"), ("text", .str (flattenText S other))]]
  let t := blocks.foldl (TurnRead.block S) { out }
  let images := imagesIn m.content
  if t.text ≠ [] ∨ ¬ t.calls.isEmpty ∨ images ≠ [] then
    t.out ++ [⟨m.role, t.text, t.calls, none, images⟩]
  else t.out

/-- A message that says something or calls a tool. -/
def actual (m : ChatMessage) : Bool := m.content.trim ≠ [] ∨ ¬ m.toolCalls.isEmpty

/-- An instruction for the whole conversation, unless it is blank. -/
def opener (system : Option Text) : List ChatMessage :=
  match system with
  | some text => if text.trim = [] then [] else [message (role "system") text]
  | none => []

def AnthropicRequest.gathered (r : AnthropicRequest) : List ChatMessage :=
  r.messages.foldl (pushAnthropicTurn S) (opener (r.system.map (flattenText S)))

def AnthropicRequest.intoChat (r : AnthropicRequest) : Except BadRequest ChatRequest := do
  let messages := r.gathered S
  require (messages.any fun m => m.role ≠ role "system" ∧ actual m)
    "request has no user or assistant turns"
  return {
    model := r.model
    params := {
      modelHash := none
      modelId := some r.model
      messages := foldLateSystemMessages messages
      tools := r.tools.filterMap anthropicTool
      maxTokens := r.maxTokens.getD defaultMaxTokensOf
      temperature := r.temperature.getD zero32
      reasoningEffort := none }
    stream := r.stream }

end Anthropic

section OpenAi

variable (S : SerdeJson)

structure OpenAiMessage where
  role : Text
  content : Json := .null
  toolCalls : List Json := []
  toolCallId : Option Text := none

structure OpenAiRequest where
  model : Text
  messages : List OpenAiMessage := []
  tools : List Json := []
  maxTokens : Option ℕ := none
  maxCompletionTokens : Option ℕ := none
  stream : Bool := false
  temperature : Option (Number binary32) := none
  reasoningEffort : Option Text := none

def schemaOr (t : Json) : { j : Json // j.IsValue } :=
  let schema := (t.get "parameters").getD (object [("type", word "object")])
  ⟨schema.value, isValue_value schema⟩

def openaiTool (t : Json) : Option ToolDef := do
  let f ← t.get "function"
  let name ← textAt f "name"
  return ⟨name, textAt f "description", schemaOr f⟩

def openaiCall (c : Json) : ToolCall where
  id := (textAt c "id").getD []
  name := ((c.get "function").bind (textAt · "name")).getD "tool".toList
  arguments := ((c.get "function").bind (textAt · "arguments")).getD "\x7b\x7d".toList

def openaiMessage (m : OpenAiMessage) : ChatMessage :=
  ⟨m.role, flattenText S m.content, m.toolCalls.map openaiCall, m.toolCallId, imagesIn m.content⟩

def OpenAiRequest.gathered (r : OpenAiRequest) : List ChatMessage :=
  (r.messages.map (openaiMessage S)).filter actual

def OpenAiRequest.intoChat (r : OpenAiRequest) : Except BadRequest ChatRequest := do
  let messages := r.gathered S
  require (messages.any fun m => m.role ≠ role "system") "request has no user or assistant turns"
  return {
    model := r.model
    params := {
      modelHash := none
      modelId := some r.model
      messages := foldLateSystemMessages messages
      tools := r.tools.filterMap openaiTool
      maxTokens := (r.maxTokens.or r.maxCompletionTokens).getD defaultMaxTokensOf
      temperature := r.temperature.getD zero32
      reasoningEffort := Gateway.reasoningEffort r.reasoningEffort }
    stream := r.stream }

end OpenAi

section Responses

variable (S : SerdeJson)

structure ResponsesRequest where
  model : Text
  input : Json := .null
  instructions : Option Text := none
  tools : List Json := []
  maxOutputTokens : Option ℕ := none
  stream : Bool := false
  temperature : Option (Number binary32) := none
  reasoning : Option Json := none

def responsesTool (t : Json) : Option ToolDef := do
  if typeOf t = some "function".toList then
    let name ← textAt t "name"
    return ⟨name, textAt t "description", schemaOr t⟩
  else none

def pushResponsesItem (out : List ChatMessage) (item : Json) : List ChatMessage :=
  match typeOf item with
  | none => pushMessage out item
  | some kind =>
    if kind = "message".toList then pushMessage out item
    else if kind = "function_call".toList then
      out ++ [{
        message (role "assistant") [] with
        toolCalls := [{
          id := (((item.get "call_id").or (item.get "id")).bind readText).getD []
          name := (textAt item "name").getD "tool".toList
          arguments := (textAt item "arguments").getD "\x7b\x7d".toList }] }]
    else if kind = "function_call_output".toList then
      let output := match item.get "output" with
        | some (.str s) => s
        | some other => flattenResponsesText S other
        | none => []
      out ++ [{ message (role "tool") output with toolCallId := some ((textAt item "call_id").getD []) }]
    else out
where
  pushMessage (out : List ChatMessage) (item : Json) : List ChatMessage :=
    let named := (textAt item "role").getD (role "user")
    let named := if named = role "developer" then role "system" else named
    let content := (item.get "content").getD .null
    let text := flattenResponsesText S content
    let images := responsesImagesIn content
    if text = [] ∧ images = [] then out else out ++ [{ message named text with images }]

def ResponsesRequest.gathered (r : ResponsesRequest) : List ChatMessage :=
  match r.input with
  | .str s => opener r.instructions ++ [message (role "user") s]
  | .arr items => items.foldl (pushResponsesItem S) (opener r.instructions)
  | _ => opener r.instructions

def ResponsesRequest.intoChat (r : ResponsesRequest) : Except BadRequest ChatRequest := do
  let messages := r.gathered S
  require (messages.any fun m => m.role ≠ role "system") "request has no input"
  return {
    model := r.model
    params := {
      modelHash := none
      modelId := some r.model
      messages := foldLateSystemMessages messages
      tools := r.tools.filterMap responsesTool
      maxTokens := r.maxOutputTokens.getD defaultMaxTokensOf
      temperature := r.temperature.getD zero32
      reasoningEffort := Gateway.reasoningEffort (r.reasoning.bind (textAt · "effort")) }
    stream := r.stream }

end Responses

end Rootmode.Gateway
