import Rootmode.Gateway.Requests

namespace Rootmode.Gateway

open Lib Lib.Checked Lib.Entries Lib.Json Protocol

inductive Part
  | text (t : Text)
  | picture (media data : Text)

/-- What the model did with a tool, its arguments a value. -/
structure ToolUse where
  id : Text
  name : Text
  input : Json

structure ToolResult where
  id : Text
  content : Text

inductive Turn
  | user (results : List ToolResult) (parts : List Part)
  | assistant (parts : List Part) (calls : List ToolUse)

structure Conversation where
  model : Text
  system : Text
  turns : List Turn

def dataUrl (media data : Text) : Text := "data:".toList ++ media ++ ";base64,".toList ++ data

def Part.text? : Part → Option Text
  | .text t => some t
  | .picture _ _ => none

def Part.url? : Part → Option Text
  | .text _ => none
  | .picture media data => some (dataUrl media data)

/-- The words of a turn, and its pictures. -/
def words (parts : List Part) : Text :=
  paragraph.intercalate ((parts.filterMap Part.text?).filter (· ≠ []))

def pictures (parts : List Part) : List Text := parts.filterMap Part.url?

section Write

variable (S : SerdeJson)

def textPart (kind : String) (t : Text) : Json := object [("type", word kind), ("text", str t)]

def anthropicPart : Part → Json
  | .text t => textPart "text" t
  | .picture media data => object [("type", word "image"),
      ("source", object [("type", word "base64"), ("media_type", str media), ("data", str data)])]

def openaiPart : Part → Json
  | .text t => textPart "text" t
  | .picture media data => object [("type", word "image_url"),
      ("image_url", object [("url", str (dataUrl media data))])]

def responsesPart (kind : String) : Part → Json
  | .text t => textPart kind t
  | .picture media data => object [("type", word "input_image"), ("image_url", str (dataUrl media data))]

def anthropicResult (r : ToolResult) : Json :=
  object [("type", word "tool_result"), ("tool_use_id", str r.id), ("content", str r.content)]

def anthropicUse (c : ToolUse) : Json :=
  object [("type", word "tool_use"), ("id", str c.id), ("name", str c.name), ("input", c.input)]

def openaiUse (c : ToolUse) : Json := object [("id", str c.id), ("type", word "function"),
  ("function", object [("name", str c.name), ("arguments", str (S.toString c.input))])]

def responsesUse (c : ToolUse) : Json := object [("type", word "function_call"), ("call_id", str c.id),
  ("name", str c.name), ("arguments", str (S.toString c.input))]

def responsesResult (r : ToolResult) : Json := object [("type", word "function_call_output"),
  ("call_id", str r.id), ("output", str r.content)]

def responsesMessage (named kind : String) (parts : List Part) : List Json :=
  if parts.isEmpty then []
  else [object [("type", word "message"), ("role", word named),
    ("content", arr (parts.map (responsesPart kind)))]]

def Turn.anthropic : Turn → AnthropicMessage
  | .user results parts => ⟨role "user", arr (results.map anthropicResult ++ parts.map anthropicPart)⟩
  | .assistant parts calls => ⟨role "assistant", arr (parts.map anthropicPart ++ calls.map anthropicUse)⟩

def Turn.openAi : Turn → List OpenAiMessage
  | .user results parts =>
    results.map (fun r => { role := role "tool", content := str r.content, toolCallId := some r.id }) ++
      if parts.isEmpty then [] else [{ role := role "user", content := arr (parts.map openaiPart) }]
  | .assistant parts calls =>
    [{ role := role "assistant", content := arr (parts.map openaiPart)
       toolCalls := calls.map (openaiUse S) }]

def Turn.responses : Turn → List Json
  | .user results parts => results.map responsesResult ++ responsesMessage "user" "input_text" parts
  | .assistant parts calls =>
    responsesMessage "assistant" "output_text" parts ++ calls.map (responsesUse S)

/-- A conversation as each dialect has it. -/
def Conversation.anthropic (c : Conversation) : AnthropicRequest :=
  { model := c.model, system := some (str c.system), messages := c.turns.map Turn.anthropic }

def Conversation.openAi (c : Conversation) : OpenAiRequest :=
  { model := c.model
    messages := { role := role "system", content := str c.system } :: c.turns.flatMap (Turn.openAi S) }

def Conversation.responses (c : Conversation) : ResponsesRequest :=
  { model := c.model, instructions := some c.system
    input := arr (c.turns.flatMap (Turn.responses S)) }

end Write

section Read

variable (S : SerdeJson)

def toolMessage (r : ToolResult) : ChatMessage :=
  { message (role "tool") r.content with toolCallId := some r.id }

def useCall (c : ToolUse) : ToolCall := ⟨c.id, c.name, S.toString c.input⟩

def speech (named : String) (parts : List Part) (calls : List ToolCall) : ChatMessage :=
  ⟨role named, words parts, calls, none, pictures parts⟩

/-- Nothing is said and nothing shown. -/
def Mute (parts : List Part) : Prop := words parts = [] ∧ pictures parts = []

instance (parts : List Part) : Decidable (Mute parts) := inferInstanceAs (Decidable (_ ∧ _))

/-- What a turn becomes in each dialect. -/
def Turn.inAnthropic : Turn → List ChatMessage
  | .user results parts =>
    results.map toolMessage ++ if Mute parts then [] else [speech "user" parts []]
  | .assistant parts calls =>
    if Mute parts ∧ calls.isEmpty then [] else [speech "assistant" parts (calls.map (useCall S))]

def Turn.inOpenAi : Turn → List ChatMessage
  | .user results parts =>
    (results.map toolMessage).filter actual ++ [speech "user" parts []].filter actual
  | .assistant parts calls => [speech "assistant" parts (calls.map (useCall S))].filter actual

def Turn.inResponses : Turn → List ChatMessage
  | .user results parts =>
    results.map toolMessage ++ if Mute parts then [] else [speech "user" parts []]
  | .assistant parts calls =>
    (if Mute parts then [] else [speech "assistant" parts []]) ++
      calls.map fun c => { message (role "assistant") [] with toolCalls := [useCall S c] }

end Read

section Words

/-- Two texts as one, an empty one left out. -/
def join (acc s : Text) : Text := if s = [] then acc else if acc = [] then s else acc ++ paragraph ++ s

theorem intercalate_cons_cons (a b : Text) (ts : List Text) :
    paragraph.intercalate (a :: b :: ts) = a ++ (paragraph ++ paragraph.intercalate (b :: ts)) := by
  simp [List.intercalate]

theorem intercalate_append_cons (a b : Text) (ts : List Text) :
    paragraph.intercalate ((a ++ b) :: ts) = a ++ paragraph.intercalate (b :: ts) := by
  cases ts with
  | nil => simp [List.intercalate]
  | cons c ts => rw [intercalate_cons_cons, intercalate_cons_cons, List.append_assoc]

/-- Texts taken in one by one are joined as all of them at once. -/
theorem foldl_join (ts : List Text) (acc : Text) :
    ts.foldl join acc = paragraph.intercalate ((acc :: ts).filter (· ≠ [])) := by
  induction ts generalizing acc with
  | nil =>
    by_cases hacc : acc = []
    · simp [hacc, List.intercalate]
    · simp [hacc, List.intercalate]
  | cons s ts ih =>
    rw [List.foldl_cons, ih]
    unfold join
    by_cases hs : s = []
    · simp [hs, List.filter_cons]
    · by_cases hacc : acc = []
      · simp [hs, hacc]
      · have hmore : acc ++ paragraph ++ s ≠ [] := by simp [hs]
        simp only [hs, hacc, if_false, List.filter_cons, ne_eq, hmore, not_false_eq_true, decide_true,
          if_true]
        rw [List.append_assoc, intercalate_append_cons, intercalate_append_cons, intercalate_cons_cons]

end Words

section Parts

variable (S : SerdeJson)

theorem imageIn_anthropicPart (p : Part) : imageIn (anthropicPart p) = p.url? := by
  cases p with
  | text t =>
    simp only [imageIn, anthropicPart, textPart, typeOf, get_object, List.reverse_cons,
      List.reverse_nil, List.nil_append, List.cons_append, lookup_cons, String.reduceEq, if_true, if_false,
      Option.bind_some, readText_word, Option.some.injEq, String.toList_inj, Part.url?]
  | picture media data =>
    simp only [imageIn, anthropicPart, typeOf, textAt, get_object, List.reverse_cons, List.reverse_nil,
      List.nil_append, List.cons_append, lookup_cons, String.reduceEq, if_true, if_false,
      Option.bind_some, readText_word, readText_str, Option.map_some, Option.getD_some, Part.url?, dataUrl]

theorem imageIn_anthropicResult (r : ToolResult) : imageIn (anthropicResult r) = none := by
  simp only [imageIn, anthropicResult, typeOf, get_object, List.reverse_cons,
    List.reverse_nil, List.nil_append, List.cons_append, lookup_cons, String.reduceEq, if_true, if_false,
    Option.bind_some, readText_word, Option.some.injEq, String.toList_inj]

theorem imageIn_anthropicUse (c : ToolUse) : imageIn (anthropicUse c) = none := by
  simp only [imageIn, anthropicUse, typeOf, get_object, List.reverse_cons,
    List.reverse_nil, List.nil_append, List.cons_append, lookup_cons, String.reduceEq, if_true, if_false,
    Option.bind_some, readText_word, Option.some.injEq, String.toList_inj]

theorem isData_dataUrl (media data : Text) : isData (dataUrl media data) = true := by
  rw [isData, List.isPrefixOf_iff_prefix, dataUrl, List.append_assoc, List.append_assoc]
  exact List.prefix_append _ _

theorem imageIn_openaiPart (p : Part) : imageIn (openaiPart p) = p.url? := by
  cases p with
  | text t =>
    simp only [imageIn, openaiPart, textPart, typeOf, get_object, List.reverse_cons,
      List.reverse_nil, List.nil_append, List.cons_append, lookup_cons, String.reduceEq, if_true, if_false,
      Option.bind_some, readText_word, Option.some.injEq, String.toList_inj, Part.url?]
  | picture media data =>
    simp only [imageIn, openaiPart, typeOf, get_object, List.reverse_cons, List.reverse_nil,
      List.nil_append, List.cons_append, lookup_cons, String.reduceEq, if_true, if_false,
      Option.bind_some, readText_word, readText_str, Option.some.injEq, String.toList_inj,
      Option.filter_some, isData_dataUrl, Part.url?]

/-- Where the words of a part are read. -/
theorem text_openaiPart (p : Part) :
    (if typeOf (openaiPart p) = some "text".toList then textAt (openaiPart p) "text"
      else readText (openaiPart p)) = p.text? := by
  cases p with
  | text t =>
    simp only [openaiPart, textPart, typeOf, textAt, get_object, List.reverse_cons,
      List.reverse_nil, List.nil_append, List.cons_append, lookup_cons, String.reduceEq, if_true, if_false,
      Option.bind_some, readText_word, readText_str, Part.text?]
  | picture media data =>
    simp only [openaiPart, typeOf, get_object, List.reverse_cons, List.reverse_nil,
      List.nil_append, List.cons_append, lookup_cons, String.reduceEq, if_true, if_false,
      Option.bind_some, readText_word, Option.some.injEq, String.toList_inj, Part.text?]
    rfl

theorem words_openai (parts : List Part) : flattenText S (arr (parts.map openaiPart)) = words parts := by
  rw [flattenText, flattenWith, List.filterMap_map]
  have hread : (fun b => if typeOf b = some "text".toList then textAt b "text" else readText b) ∘ openaiPart =
      Part.text? := funext text_openaiPart
  rw [hread, words]

theorem pictures_openai (parts : List Part) : imagesIn (arr (parts.map openaiPart)) = pictures parts := by
  have hread : imageIn ∘ openaiPart = Part.url? := funext imageIn_openaiPart
  rw [imagesIn, List.filterMap_map, hread, pictures]

/-- The names a text has in the input of the Responses API. -/
def IsTextKind (kind : String) : Prop := responsesTextTypes.contains kind.toList = true

theorem text_responsesPart {kind : String} (hkind : IsTextKind kind) (p : Part) :
    (if (typeOf (responsesPart kind p)).any (responsesTextTypes.contains ·) then
      textAt (responsesPart kind p) "text" else readText (responsesPart kind p)) = p.text? := by
  cases p with
  | text t =>
    have htype : typeOf (responsesPart kind (.text t)) = some kind.toList := by
      simp only [responsesPart, textPart, typeOf, get_object, List.reverse_cons,
        List.reverse_nil, List.nil_append, List.cons_append, lookup_cons, String.reduceEq, if_true,
        if_false, Option.bind_some, readText_word]
    rw [htype, Option.any_some, hkind, if_pos rfl]
    simp only [responsesPart, textPart, textAt, get_object, List.reverse_cons,
      List.reverse_nil, List.nil_append, List.cons_append, lookup_cons, if_true,
      Option.bind_some, readText_str, Part.text?]
  | picture media data =>
    have htype : typeOf (responsesPart kind (.picture media data)) = some "input_image".toList := by
      simp only [responsesPart, typeOf, get_object, List.reverse_cons,
        List.reverse_nil, List.nil_append, List.cons_append, lookup_cons, String.reduceEq, if_true,
        if_false, Option.bind_some, readText_word]
    have himage : responsesTextTypes.contains "input_image".toList = false := by decide
    rw [htype, Option.any_some, himage, if_neg Bool.false_ne_true]
    rfl

theorem image_responsesPart (kind : String) (hkind : kind ≠ "input_image") (p : Part) :
    (if typeOf (responsesPart kind p) = some "input_image".toList then
      (textAt (responsesPart kind p) "image_url").filter isData else none) = p.url? := by
  cases p with
  | text t =>
    simp only [responsesPart, textPart, typeOf, get_object, List.reverse_cons,
      List.reverse_nil, List.nil_append, List.cons_append, lookup_cons, String.reduceEq, if_true, if_false,
      Option.bind_some, readText_word, Option.some.injEq, String.toList_inj, hkind, Part.url?]
  | picture media data =>
    simp only [responsesPart, typeOf, textAt, get_object, List.reverse_cons,
      List.reverse_nil, List.nil_append, List.cons_append, lookup_cons, String.reduceEq, if_true, if_false,
      Option.bind_some, readText_word, readText_str, Option.filter_some, isData_dataUrl, Part.url?]

theorem words_responses {kind : String} (hkind : IsTextKind kind) (parts : List Part) :
    flattenResponsesText S (arr (parts.map (responsesPart kind))) = words parts := by
  rw [flattenResponsesText, flattenWith, List.filterMap_map]
  have hread : (fun b => if (typeOf b).any (responsesTextTypes.contains ·) then textAt b "text"
      else readText b) ∘ responsesPart kind = Part.text? := funext (text_responsesPart hkind)
  rw [hread, words]

theorem pictures_responses {kind : String} (hkind : kind ≠ "input_image") (parts : List Part) :
    responsesImagesIn (arr (parts.map (responsesPart kind))) = pictures parts := by
  rw [responsesImagesIn, List.filterMap_map]
  have hread : (fun b => if typeOf b = some "input_image".toList then
      (textAt b "image_url").filter isData else none) ∘ responsesPart kind = Part.url? :=
    funext (image_responsesPart kind hkind)
  rw [hread, pictures]

end Parts

section Anthropic

variable (S : SerdeJson) (t : TurnRead)

theorem block_part (p : Part) : t.block S (anthropicPart p) =
    { t with text := (p.text?.map (join t.text)).getD t.text } := by
  cases p with
  | text s =>
    have hget : textAt (anthropicPart (.text s)) "text" = some s := by
      simp only [anthropicPart, textPart, textAt, get_object, List.reverse_cons,
        List.reverse_nil, List.nil_append, List.cons_append, lookup_cons, if_true,
        Option.bind_some, readText_str]
    have htype : typeOf (anthropicPart (.text s)) = some "text".toList := by
      simp only [anthropicPart, textPart, typeOf, get_object, List.reverse_cons,
        List.reverse_nil, List.nil_append, List.cons_append, lookup_cons, String.reduceEq, if_true,
        if_false, Option.bind_some, readText_word]
    unfold TurnRead.block
    simp only [htype, hget, Option.getD_some, if_true, Part.text?, Option.map_some, join]
    rw [Option.filter_some]
    by_cases hs : s = []
    · simp [hs]
    · simp [hs]
  | picture media data =>
    have htype : typeOf (anthropicPart (.picture media data)) = some "image".toList := by
      simp only [anthropicPart, typeOf, get_object, List.reverse_cons,
        List.reverse_nil, List.nil_append, List.cons_append, lookup_cons, String.reduceEq, if_true,
        if_false, Option.bind_some, readText_word]
    unfold TurnRead.block
    simp only [htype, Option.getD_some, String.toList_inj, String.reduceEq, if_false, Part.text?,
      Option.map_none, Option.getD_none]

theorem block_result (r : ToolResult) : t.block S (anthropicResult r) =
    { t with out := t.out ++ [toolMessage r] } := by
  unfold TurnRead.block
  simp only [anthropicResult, typeOf, textAt, get_object, List.reverse_cons,
    List.reverse_nil, List.nil_append, List.cons_append, lookup_cons, String.reduceEq, if_true, if_false,
    Option.bind_some, readText_word, readText_str, Option.getD_some, String.toList_inj, Option.map_some,
    flattenText]
  rfl

theorem block_use (c : ToolUse) : t.block S (anthropicUse c) =
    { t with calls := t.calls ++ [useCall S c] } := by
  unfold TurnRead.block
  simp only [anthropicUse, typeOf, textAt, get_object, List.reverse_cons,
    List.reverse_nil, List.nil_append, List.cons_append, lookup_cons, String.reduceEq, if_true, if_false,
    Option.bind_some, readText_word, readText_str, Option.getD_some, String.toList_inj, Option.map_some,
    useCall]

theorem blocks_results (results : List ToolResult) :
    (results.map anthropicResult).foldl (TurnRead.block S) t =
      { t with out := t.out ++ results.map toolMessage } := by
  induction results generalizing t with
  | nil => simp
  | cons r results ih =>
    rw [List.map_cons, List.foldl_cons, block_result, ih]
    simp

theorem blocks_uses (calls : List ToolUse) :
    (calls.map anthropicUse).foldl (TurnRead.block S) t =
      { t with calls := t.calls ++ calls.map (useCall S) } := by
  induction calls generalizing t with
  | nil => simp
  | cons c calls ih =>
    rw [List.map_cons, List.foldl_cons, block_use, ih]
    simp

theorem blocks_parts (parts : List Part) : (parts.map anthropicPart).foldl (TurnRead.block S) t =
    { t with text := (parts.filterMap Part.text?).foldl join t.text } := by
  induction parts generalizing t with
  | nil => rfl
  | cons p parts ih =>
    rw [List.map_cons, List.foldl_cons, block_part, ih]
    cases p with
    | text s => rfl
    | picture media data => rfl

theorem words_anthropic (parts : List Part) : (parts.filterMap Part.text?).foldl join [] = words parts := by
  rw [foldl_join]
  rfl

theorem pictures_anthropic (results : List ToolResult) (parts : List Part) (calls : List ToolUse) :
    imagesIn (arr (results.map anthropicResult ++ parts.map anthropicPart)) = pictures parts ∧
    imagesIn (arr (parts.map anthropicPart ++ calls.map anthropicUse)) = pictures parts := by
  have hparts : imageIn ∘ anthropicPart = Part.url? := funext imageIn_anthropicPart
  have hresults : imageIn ∘ anthropicResult = fun _ => none := funext imageIn_anthropicResult
  have huses : imageIn ∘ anthropicUse = fun _ => none := funext imageIn_anthropicUse
  simp only [imagesIn, List.filterMap_append, List.filterMap_map, hparts, hresults, huses, pictures,
    List.filterMap_none, List.nil_append, List.append_nil, and_self]

theorem pushAnthropicTurn_eq (out : List ChatMessage) (turn : Turn) :
    pushAnthropicTurn S out turn.anthropic = out ++ turn.inAnthropic S := by
  cases turn with
  | user results parts =>
    have himages := (pictures_anthropic results parts []).1
    simp only [pushAnthropicTurn, Turn.anthropic, List.foldl_append, blocks_results, blocks_parts,
      words_anthropic, himages, Turn.inAnthropic]
    by_cases hmute : Mute parts
    · simp [hmute, hmute.1, hmute.2]
    · have hor : words parts ≠ [] ∨ pictures parts ≠ [] := not_and_or.mp hmute
      simp only [List.isEmpty_nil, not_true_eq_false, false_or, if_pos hor, if_neg hmute,
        List.append_assoc]
      rfl
  | assistant parts calls =>
    have himages := (pictures_anthropic [] parts calls).2
    simp only [pushAnthropicTurn, Turn.anthropic, List.foldl_append, blocks_uses, blocks_parts,
      words_anthropic, himages, Turn.inAnthropic, List.nil_append]
    by_cases hquiet : Mute parts ∧ calls.isEmpty
    · have hcalls : calls = [] := List.isEmpty_iff.mp hquiet.2
      simp [hquiet.1.1, hquiet.1.2, hcalls, Mute]
    · have hor : words parts ≠ [] ∨ ¬ (calls.map (useCall S)).isEmpty = true ∨ pictures parts ≠ [] := by
        by_contra hnone
        simp only [not_or, not_not, List.isEmpty_iff, List.map_eq_nil_iff] at hnone
        exact hquiet ⟨⟨hnone.1, hnone.2.2⟩, List.isEmpty_iff.mpr hnone.2.1⟩
      rw [if_pos hor, if_neg hquiet]
      rfl

theorem anthropic_messages (turns : List Turn) (out : List ChatMessage) :
    (turns.map Turn.anthropic).foldl (pushAnthropicTurn S) out = out ++ turns.flatMap (Turn.inAnthropic S) := by
  induction turns generalizing out with
  | nil => simp
  | cons turn turns ih =>
    rw [List.map_cons, List.foldl_cons, pushAnthropicTurn_eq, ih, List.flatMap_cons, List.append_assoc]

end Anthropic

section OpenAi

variable (S : SerdeJson)

theorem openaiCall_openaiUse (c : ToolUse) : openaiCall (openaiUse S c) = useCall S c := by
  simp only [openaiCall, openaiUse, textAt, get_object, List.reverse_cons,
    List.reverse_nil, List.nil_append, List.cons_append, lookup_cons, String.reduceEq, if_true, if_false,
    Option.bind_some, readText_str, Option.getD_some, useCall]

theorem openAi_messages (turn : Turn) :
    ((turn.openAi S).map (openaiMessage S)).filter actual = turn.inOpenAi S := by
  cases turn with
  | user results parts =>
    have hresults : (openaiMessage S ∘ fun r : ToolResult =>
        { role := role "tool", content := str r.content, toolCallId := some r.id }) = toolMessage := rfl
    rw [Turn.openAi, List.map_append, List.filter_append, List.map_map, hresults, Turn.inOpenAi]
    congr 1
    cases parts with
    | nil => rfl
    | cons p parts =>
      simp only [List.isEmpty_cons, Bool.false_eq_true, if_false, List.map_singleton, openaiMessage,
        words_openai, pictures_openai, List.map_nil]
      rfl
  | assistant parts calls =>
    have hcalls : openaiCall ∘ openaiUse S = useCall S := funext (openaiCall_openaiUse S)
    simp only [Turn.openAi, List.map_singleton, openaiMessage, words_openai, pictures_openai,
      List.map_map, hcalls]
    rfl

end OpenAi

section Responses

variable (S : SerdeJson)

theorem pushMessage_eq (out : List ChatMessage) {named kind : String} (hkind : IsTextKind kind)
    (hrole : named ≠ "developer") (parts : List Part) :
    (responsesMessage named kind parts).foldl (pushResponsesItem S) out =
      out ++ if Mute parts then [] else [speech named parts []] := by
  have hinput : kind ≠ "input_image" := by
    rintro rfl
    exact absurd (show responsesTextTypes.contains "input_image".toList = true from hkind)
      (by decide)
  cases parts with
  | nil => simp [responsesMessage, Mute, words, pictures, List.intercalate]
  | cons p parts =>
    rw [responsesMessage, List.isEmpty_cons, if_neg Bool.false_ne_true, List.foldl_cons, List.foldl_nil]
    unfold pushResponsesItem
    simp only [typeOf, textAt, pushResponsesItem.pushMessage, get_object, List.reverse_cons,
      List.reverse_nil, List.nil_append, List.cons_append, lookup_cons, String.reduceEq, if_true, if_false,
      Option.bind_some, readText_word, Option.getD_some, words_responses S hkind,
      pictures_responses hinput]
    have hname : named.toList ≠ role "developer" := fun h => hrole (String.toList_inj.mp h)
    rw [if_neg hname]
    by_cases hmute : words (p :: parts) = [] ∧ pictures (p :: parts) = []
    · rw [if_pos hmute, if_pos (show Mute (p :: parts) from hmute), List.append_nil]
    · rw [if_neg hmute, if_neg (show ¬ Mute (p :: parts) from hmute)]
      rfl

theorem responses_use (out : List ChatMessage) (c : ToolUse) :
    pushResponsesItem S out (responsesUse S c) =
      out ++ [{ message (role "assistant") [] with toolCalls := [useCall S c] }] := by
  unfold pushResponsesItem
  simp only [responsesUse, typeOf, textAt, get_object, List.reverse_cons,
    List.reverse_nil, List.nil_append, List.cons_append, lookup_cons, String.reduceEq, if_true, if_false,
    Option.bind_some, readText_word, readText_str, Option.getD_some, String.toList_inj, Option.some_or,
    useCall]

theorem responses_result (out : List ChatMessage) (r : ToolResult) :
    pushResponsesItem S out (responsesResult r) = out ++ [toolMessage r] := by
  unfold pushResponsesItem
  simp only [responsesResult, typeOf, textAt, get_object, List.reverse_cons,
    List.reverse_nil, List.nil_append, List.cons_append, lookup_cons, String.reduceEq, if_true, if_false,
    Option.bind_some, readText_word, readText_str, Option.getD_some, String.toList_inj, toolMessage]

theorem isTextKind_input : IsTextKind "input_text" := by
  unfold IsTextKind
  decide

theorem isTextKind_output : IsTextKind "output_text" := by
  unfold IsTextKind
  decide

theorem responses_items (out : List ChatMessage) (turn : Turn) :
    (turn.responses S).foldl (pushResponsesItem S) out = out ++ turn.inResponses S := by
  cases turn with
  | user results parts =>
    have hresults : ∀ out, (results.map responsesResult).foldl (pushResponsesItem S) out =
        out ++ results.map toolMessage := by
      induction results with
      | nil => simp
      | cons r results ih =>
        intro out
        rw [List.map_cons, List.foldl_cons, responses_result, ih]
        simp
    rw [Turn.responses, List.foldl_append, hresults,
      pushMessage_eq S _ isTextKind_input (by decide), Turn.inResponses, List.append_assoc]
  | assistant parts calls =>
    have huses : ∀ out, (calls.map (responsesUse S)).foldl (pushResponsesItem S) out =
        out ++ calls.map fun c => { message (role "assistant") [] with toolCalls := [useCall S c] } := by
      induction calls with
      | nil => simp
      | cons c calls ih =>
        intro out
        rw [List.map_cons, List.foldl_cons, responses_use, ih]
        simp
    rw [Turn.responses, List.foldl_append, huses,
      pushMessage_eq S _ isTextKind_output (by decide), Turn.inResponses, List.append_assoc]

theorem responses_messages (turns : List Turn) (out : List ChatMessage) :
    (turns.flatMap (Turn.responses S)).foldl (pushResponsesItem S) out =
      out ++ turns.flatMap (Turn.inResponses S) := by
  induction turns generalizing out with
  | nil => simp
  | cons turn turns ih =>
    rw [List.flatMap_cons, List.foldl_append, responses_items, ih, List.flatMap_cons, List.append_assoc]

end Responses

end Rootmode.Gateway
