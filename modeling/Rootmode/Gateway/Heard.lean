import Rootmode.Gateway.Live

namespace Rootmode.Gateway

open Lib Lib.Json Lib.Entries Protocol Desktop Worker

def firstOf : Json → Option Json
  | .arr (v :: _) => some v
  | _ => none

def textDelta (v : Json) : Option Text :=
  (v.get "delta").bind fun delta =>
    if (delta.get "type").bind readText = some "text_delta".toList then (delta.get "text").bind readText
    else none

def contentDelta (v : Json) : Option Text :=
  ((((v.get "choices").bind firstOf).bind fun choice => choice.get "delta").bind fun delta =>
    delta.get "content").bind readText

/-- The text a caller reads in a frame. -/
def said (shape : Shape) : Frame → Text
  | (_, .raw _) => []
  | (name, .json v) =>
    match shape with
    | .anthropic => if name = some "content_block_delta" then (textDelta v).getD [] else []
    | .openAi => (contentDelta v).getD []
    | .responses =>
      if name = some "response.output_text.delta" then ((v.get "delta").bind readText).getD [] else []

/-- The text a caller puts together from a stream. -/
def heard (shape : Shape) (frames : List Frame) : Text := frames.flatMap (said shape)

variable {shape : Shape} {frames more : List Frame}

@[simp] theorem heard_append : heard shape (frames ++ more) = heard shape frames ++ heard shape more :=
  List.flatMap_append

@[simp] theorem heard_nil : heard shape [] = [] := rfl

@[simp] theorem heard_cons {f : Frame} : heard shape (f :: frames) = said shape f ++ heard shape frames :=
  rfl

section Anthropic

variable (a : Answer) (i : ℕ) (textIndex : Option ℕ)

theorem said_anthropic_of_ne {e : Event} (h : e.1 ≠ "content_block_delta") :
    said .anthropic (wrap e) = [] := by
  have hname : some e.1 ≠ some "content_block_delta" := fun heq => h (Option.some.inj heq)
  rw [wrap, said]
  exact if_neg hname

theorem textDelta_blockDelta (delta : Json) : textDelta (blockDelta i delta).2 =
    if (delta.get "type").bind readText = some "text_delta".toList then (delta.get "text").bind readText
    else none := by
  have hget : (blockDelta i delta).2.get "delta" = some delta := by
    simp only [blockDelta, get_object, List.reverse_cons, List.reverse_nil, List.nil_append,
      List.cons_append, lookup_cons, if_true]
  rw [textDelta, hget, Option.bind_some]

theorem said_anthropicLiveTextDelta (text : Text) :
    said .anthropic (wrap (anthropicLiveTextDelta i text)) = text := by
  have hread : textDelta (anthropicLiveTextDelta i text).2 = some text := by
    rw [anthropicLiveTextDelta, textDelta_blockDelta]
    simp only [get_object, List.reverse_cons, List.reverse_nil, List.nil_append, List.cons_append,
      lookup_cons, String.reduceEq, if_true, if_false, Option.bind_some, readText_word, readText_str]
  rw [wrap, said, hread]
  exact if_pos rfl

theorem said_input_json_delta (arguments : Text) :
    said .anthropic (wrap (blockDelta i (object [("type", word "input_json_delta"),
      ("partial_json", str arguments)]))) = [] := by
  have hread : textDelta (blockDelta i (object [("type", word "input_json_delta"),
      ("partial_json", str arguments)])).2 = none := by
    rw [textDelta_blockDelta]
    simp only [get_object, List.reverse_cons, List.reverse_nil, List.nil_append, List.cons_append,
      lookup_cons, String.reduceEq, if_true, if_false, Option.bind_some, readText_word,
      Option.some.injEq, String.toList_inj]
  rw [wrap, said, hread]
  exact if_pos rfl

theorem heard_toolUses (calls : List ToolCall) :
    heard .anthropic ((toolUses i calls).map wrap) = [] := by
  induction calls generalizing i with
  | nil => rfl
  | cons call calls ih =>
    rw [toolUses, List.map_append, heard_append, ih, List.append_nil, toolUse]
    simp only [List.map_cons, List.map_nil, heard_cons, heard_nil, said_input_json_delta,
      said_anthropic_of_ne (show (blockStart i _).1 ≠ _ from (by decide : "content_block_start" ≠ _)),
      said_anthropic_of_ne (show (blockStop i).1 ≠ _ from (by decide : "content_block_stop" ≠ _)),
      List.append_nil]

theorem heard_anthropicLiveEnd :
    heard .anthropic ((anthropicLiveEnd a textIndex).map wrap) = [] := by
  have hstop : heard .anthropic ((textIndex.map blockStop).toList.map wrap) = [] := by
    cases textIndex with
    | none => rfl
    | some i => rfl
  rw [anthropicLiveEnd, List.map_append, List.map_append, heard_append, heard_append, hstop,
    heard_toolUses]
  rfl

end Anthropic

section OpenAi

variable (id model : Text) (created : ℤ)

theorem contentDelta_deltaChunk (delta finish : Json) :
    contentDelta (deltaChunk id model created delta finish) = (delta.get "content").bind readText := by
  simp only [contentDelta, deltaChunk, chunk, get_object, List.reverse_cons, List.reverse_nil,
    List.append_nil, List.nil_append, List.cons_append, lookup_cons, String.reduceEq, if_true, if_false,
    Option.bind_some, firstOf]

theorem said_openaiLiveDelta (text : Text) :
    said .openAi (none, .json (openaiLiveDelta id model created text)) = text := by
  have hread : contentDelta (openaiLiveDelta id model created text) = some text := by
    rw [openaiLiveDelta, contentDelta_deltaChunk]
    rfl
  rw [said, hread]
  rfl

theorem said_openaiLiveStart : said .openAi (none, .json (openaiLiveStart id model created)) = [] := by
  have hread : contentDelta (openaiLiveStart id model created) = some [] := by
    rw [openaiLiveStart, contentDelta_deltaChunk]
    simp only [get_object, List.reverse_cons, List.reverse_nil, List.nil_append, List.cons_append,
      lookup_cons, if_true, Option.bind_some, readText_str]
  rw [said, hread]
  rfl

theorem heard_openaiLiveEnd (a : Answer) :
    heard .openAi ((openaiLiveEnd id model created a).map fun v => (none, .json v)) = [] := by
  have hquiet : ∀ delta finish, delta.get "content" = none →
      said .openAi (none, .json (deltaChunk id model created delta finish)) = [] := by
    intro delta finish hnone
    rw [said, contentDelta_deltaChunk, hnone]
    rfl
  have husage : ∀ usage,
      said .openAi (none, .json (chunk id model created [] [("usage", usage)])) = [] := by
    intro usage
    have hread : contentDelta (chunk id model created [] [("usage", usage)]) = none := by
      simp only [contentDelta, chunk, get_object, List.reverse_cons, List.reverse_nil, List.nil_append,
        List.cons_append, lookup_cons, String.reduceEq, if_true, if_false, Option.bind_some, firstOf,
        Option.bind_none]
    rw [said, hread]
    rfl
  rw [openaiLiveEnd, List.map_append, heard_append]
  have hcalls : ∀ calls : List Json, (object [("tool_calls", arr calls)]).get "content" = none := by
    intro calls
    simp only [get_object, List.reverse_cons, List.reverse_nil, List.nil_append, lookup_cons,
      String.reduceEq, if_false, lookup_nil]
  split
  · simp only [List.map_cons, List.map_nil, heard_cons, heard_nil, hquiet _ _ (hcalls _),
      hquiet (object []) _ rfl, husage, List.append_nil]
  · simp only [List.map_cons, List.map_nil, heard_cons, heard_nil, hquiet (object []) _ rfl, husage,
      List.append_nil]

end OpenAi

section Responses

variable (id model : Text) (created : ℤ)

theorem said_responses_of_ne {e : Event} (h : e.1 ≠ "response.output_text.delta") :
    said .responses (wrap e) = [] := by
  have hname : some e.1 ≠ some "response.output_text.delta" := fun heq => h (Option.some.inj heq)
  rw [wrap, said]
  exact if_neg hname

theorem said_responsesLiveDelta (text : Text) :
    said .responses (wrap (responsesLiveDelta id text)) = text := by
  have hread : (responsesLiveDelta id text).2.get "delta" = some (str text) := by
    simp only [responsesLiveDelta, partEvent, get_object, List.reverse_cons, List.reverse_nil,
      List.nil_append, List.cons_append, lookup_cons, if_true]
  rw [wrap, said, hread]
  exact if_pos rfl

/-- A caller reads the same in a numbered event. -/
theorem said_numbered (e : Event) (seq : Json) :
    said .responses (wrap (e.1, e.2.insert "sequence_number" seq)) = said .responses (wrap e) := by
  rw [wrap, wrap, said, said, get_insert_of_ne _ (by decide)]

theorem heard_responsesLiveTextStart :
    heard .responses ((responsesLiveTextStart id).map wrap) = [] := rfl

theorem heard_functionCalls (next i : ℕ) (calls : List ToolCall) :
    heard .responses ((functionCalls id next i calls).map wrap) = [] := by
  induction calls generalizing i with
  | nil => rfl
  | cons call calls ih =>
    rw [functionCalls, List.map_append, heard_append, ih]
    rfl

theorem heard_responsesLiveEnd (a : Answer) (textOpened : Bool) :
    heard .responses ((responsesLiveEnd id model created a textOpened).map wrap) =
      if textOpened then [] else a.text := by
  have hclose : ∀ text, heard .responses ((responsesLiveTextClose id text).map wrap) = [] :=
    fun _ => rfl
  have hdone : heard .responses [wrap (responseCompleted id model created a)] = [] := rfl
  rw [responsesLiveEnd]
  simp only [List.map_append, List.map_cons, List.map_nil, heard_append, heard_functionCalls, hdone,
    List.append_nil]
  cases textOpened with
  | true => exact hclose a.text
  | false =>
    by_cases htext : a.text = []
    · simp [htext]
    · simp only [Bool.false_eq_true, if_false, ne_eq, htext, not_false_eq_true, if_true, List.map_append,
        List.map_cons, heard_append, heard_cons, hclose, said_responsesLiveDelta,
        heard_responsesLiveTextStart, List.nil_append, List.append_nil]

end Responses

end Rootmode.Gateway
