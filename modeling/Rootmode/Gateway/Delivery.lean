import Rootmode.Gateway.Streamed
import Rootmode.Gateway.WellFormed

namespace Rootmode.Gateway

open Lib Lib.Text Lib.Mark Protocol Desktop

/-- The event a frame is, where its dialect has events. -/
def eventOf : Frame → Option Event
  | (some name, .json v) => some (name, v)
  | _ => none

theorem trace_numbered (e : Event) (seq : Json) :
    trace .responses (e.1, e.2.insert "sequence_number" seq) = trace .responses e := by
  simp only [trace, responsesMark, partMark, announced, outputIds, indexAt,
    Json.get_insert_of_ne _ (show "sequence_number" ≠ "output_index" by decide),
    Json.get_insert_of_ne _ (show "sequence_number" ≠ "content_index" by decide),
    Json.get_insert_of_ne _ (show "sequence_number" ≠ "item" by decide),
    Json.get_insert_of_ne _ (show "sequence_number" ≠ "response" by decide)]

namespace LiveState

/-- What a client's bookkeeping has of a stream so far. -/
def traces (C : Call) (st : LiveState) : List Trace := (st.pending.filterMap eventOf).map (trace C.shape)

variable {C : Call} {M : Measures} {st : LiveState} {text : Text} {deltas : List Text} {a : Answer}

theorem traces_push (events : List Event) :
    (st.push (events.map wrap)).traces C = st.traces C ++ events.map (trace C.shape) := by
  have hevents : (events.map wrap).filterMap eventOf = events := by
    rw [List.filterMap_map]
    exact List.filterMap_some
  rw [traces, push_pending, List.filterMap_append, hevents, List.map_append]
  rfl

theorem traces_push_one (st : LiveState) (e : Event) : (st.push [wrap e]).traces C = st.traces C ++ [trace C.shape e] :=
  traces_push [e]

theorem traces_pushResponses (hshape : C.shape = .responses) (events : List Event) :
    (st.pushResponses events).traces C = st.traces C ++ events.map (trace .responses) := by
  induction events generalizing st with
  | nil => rw [List.map_nil, List.append_nil]; rfl
  | cons e events ih =>
    have hone : (st.pushNumbered e).traces C = st.traces C ++ [trace .responses e] := by
      have hpush : (st.pushNumbered e).traces C = _ :=
        traces_push_one st (e.1, e.2.insert "sequence_number" (Json.count (st.seq + 1)))
      rw [hpush, hshape, trace_numbered]
    have hstep : st.pushResponses (e :: events) = (st.pushNumbered e).pushResponses events := rfl
    rw [hstep, ih, hone, List.map_cons, List.append_assoc, List.singleton_append]

/-- A stream before its end: nothing was opened, or the text was and goes on. -/
structure Stage (C : Call) (st : LiveState) : Prop where
  silent : st.textIndex = none → ∀ t ∈ st.traces C, t = {}
  telling : st.textIndex ≠ none → st.textIndex = some 0 ∧ ∃ pre pieces, (∀ t ∈ pre, t = {}) ∧
    st.traces C = pre ++ (opening C.id C.shape ++ List.replicate pieces (piece C.shape))

theorem start_stage (hshape : C.shape ≠ .openAi) : Stage C (start C) := by
  have hindex := (start_fresh C).textIndex
  refine ⟨fun _ => ?_, fun h => absurd hindex h⟩
  unfold start
  cases hs : C.shape with
  | openAi => exact absurd hs hshape
  | anthropic =>
    intro t ht
    simp only [traces_push_one, hs, anthropicLiveStart, trace_messageStart] at ht
    exact List.mem_singleton.mp ht
  | responses =>
    intro t ht
    simp only [traces_pushResponses hs, List.map_cons, List.map_nil, trace_responsesLiveStart,
      trace_responsesLiveInProgress] at ht
    simpa [traces] using ht

/-- A piece of the text opens its block, if nothing did, and goes on in it. -/
theorem say_traces (st : LiveState) (hshape : C.shape ≠ .openAi) (fresh : Text) :
    (st.say C fresh).traces C = st.traces C ++ ((if st.textIndex = none then opening C.id C.shape else []) ++
      [piece C.shape]) ∧
    (st.say C fresh).textIndex = some (st.textIndex.getD 0) := by
  unfold say
  cases hs : C.shape with
  | openAi => exact absurd hs hshape
  | anthropic =>
    cases hindex : st.textIndex with
    | none =>
      refine ⟨?_, rfl⟩
      simp only [traces_push_one, hs, anthropicLiveTextStart, trace_blockStart, anthropicLiveTextDelta,
        trace_blockDelta, List.append_assoc, if_true]
      rfl
    | some i =>
      refine ⟨?_, hindex⟩
      simp only [traces_push_one, hs, anthropicLiveTextDelta, trace_blockDelta, reduceCtorEq, if_false]
      rfl
  | responses =>
    cases hindex : st.textIndex with
    | none =>
      refine ⟨?_, rfl⟩
      simp only [traces_pushResponses hs, trace_responsesLiveTextStart, List.map_cons, List.map_nil,
        trace_responsesLiveDelta, List.append_assoc, if_true]
      rfl
    | some i =>
      refine ⟨?_, hindex⟩
      simp only [traces_pushResponses hs, List.map_cons, List.map_nil, trace_responsesLiveDelta,
        reduceCtorEq, if_false]
      rfl

theorem say_stage (hshape : C.shape ≠ .openAi) (h : Stage C st) (fresh : Text) :
    Stage C (st.say C fresh) := by
  obtain ⟨htraces, hindex⟩ := say_traces st hshape fresh
  refine ⟨fun hnone => ?_, fun _ => ?_⟩
  · rw [hindex] at hnone
    cases hnone
  · cases hold : st.textIndex with
    | none =>
      rw [hold] at hindex
      refine ⟨hindex, st.traces C, 1, h.silent hold, ?_⟩
      rw [htraces, hold, if_pos rfl, List.replicate_one]
    | some i =>
      have hopen : st.textIndex ≠ none := fun hnone => Option.some_ne_none i (hold.symm.trans hnone)
      obtain ⟨hzero, pre, pieces, hpre, hold'⟩ := h.telling hopen
      rw [hzero] at hindex
      refine ⟨hindex, pre, pieces + 1, hpre, ?_⟩
      rw [htraces, if_neg hopen, hold', List.replicate_succ', List.nil_append]
      simp only [List.append_assoc]

theorem onDelta_stage (hshape : C.shape ≠ .openAi) (h : Stage C st) : Stage C (st.onDelta C text) := by
  have hsame : ∀ raw emitted, Stage C { st with raw, emitted } := fun _ _ => ⟨h.silent, h.telling⟩
  unfold onDelta
  cases hfresh : st.fresh (peelThinking (st.raw ++ text)) with
  | none =>
    simp only [hfresh]
    exact hsame _ _
  | some fresh =>
    simp only [hfresh]
    exact say_stage hshape (hsame _ _) fresh

theorem tell_stage (hshape : C.shape ≠ .openAi) (h : Stage C st) : Stage C (st.tell C deltas) := by
  induction deltas generalizing st with
  | nil => exact h
  | cons d deltas ih => exact ih (onDelta_stage hshape h)

section Opened

/-- What is opened stays so. -/
theorem onDelta_textIndex (hshape : C.shape ≠ .openAi) (h : st.textIndex ≠ none) :
    (st.onDelta C text).textIndex ≠ none := by
  obtain ⟨-, -, ⟨-, heq⟩ | ⟨fresh, -, hsaid⟩⟩ := onDelta_cases C st text
  · rw [heq]
    exact h
  · exact hsaid.opened hshape

theorem tell_opened (hshape : C.shape ≠ .openAi) (h : st.textIndex ≠ none) :
    (st.tell C deltas).textIndex ≠ none := by
  induction deltas generalizing st with
  | nil => exact h
  | cons d deltas ih => exact ih (onDelta_textIndex hshape h)

/-- The text is opened by the first delta that leaves something of it. -/
theorem tell_textIndex (st : LiveState) (hshape : C.shape ≠ .openAi) (hindex : st.textIndex = none)
    (hemitted : st.emitted = 0) (hraw : peelThinking st.raw = []) :
    (st.tell C deltas).textIndex ≠ none ↔
      ∃ i, peelThinking (st.raw ++ (deltas.take i).flatten) ≠ [] := by
  induction deltas generalizing st with
  | nil => simp [tell, hindex, hraw]
  | cons d deltas ih =>
    have htell : st.tell C (d :: deltas) = (st.onDelta C d).tell C deltas := rfl
    by_cases hpeel : peelThinking (st.raw ++ d) = []
    · have hquiet : st.onDelta C d = { st with raw := st.raw ++ d } := by
        unfold onDelta
        have hfresh : st.fresh (peelThinking (st.raw ++ d)) = none := by
          rw [hpeel, fresh, hemitted, byteLen_nil, if_neg (lt_irrefl 0)]
        simp only [hfresh]
      rw [htell, hquiet, ih { st with raw := st.raw ++ d } hindex hemitted hpeel]
      constructor
      · rintro ⟨i, hi⟩
        refine ⟨i + 1, ?_⟩
        rwa [List.take_succ_cons, List.flatten_cons, ← List.append_assoc]
      · rintro ⟨i, hi⟩
        cases i with
        | zero =>
          rw [List.take_zero, List.flatten_nil, List.append_nil] at hi
          exact absurd hraw hi
        | succ i =>
          rw [List.take_succ_cons, List.flatten_cons, ← List.append_assoc] at hi
          exact ⟨i, hi⟩
    · have hopened : (st.onDelta C d).textIndex ≠ none := by
        obtain ⟨-, -, ⟨hfresh, -⟩ | ⟨fresh, -, hsaid⟩⟩ := onDelta_cases C st d
        · rw [fresh, hemitted, if_pos (byteLen_pos.mpr hpeel), dropBytes] at hfresh
          cases hfresh
        · exact hsaid.opened hshape
      rw [htell]
      refine ⟨fun _ => ⟨1, ?_⟩, fun _ => tell_opened hshape hopened⟩
      simpa using hpeel

end Opened

/-- The end of a stream whose result is an answer makes it whole. -/
theorem finish_anthropic (hs : C.shape = .anthropic) (h : Stage C st) :
    ∃ pre pieces, (∀ t ∈ pre, t = {}) ∧ (st.finish C a).traces C =
      wholeTraces C.id .anthropic pre [{}] st.textIndex.isSome pieces a.toolCalls.length none := by
  have hend : ∀ textIndex, (anthropicLiveEnd a textIndex).map (trace .anthropic) =
      (textIndex.map fun i => ({ block := .closes i } : Trace)).toList ++
        (callTraces C.id .anthropic ((textIndex.map (· + 1)).getD 0) 0 a.toolCalls.length ++
          ([{}, { block := .ends }] : List Trace)) := by
    intro textIndex
    have hstop : (textIndex.map blockStop).toList.map (trace .anthropic) =
        (textIndex.map fun i => ({ block := .closes i } : Trace)).toList := by
      cases textIndex with
      | none => rfl
      | some i => exact congrArg (fun t => [t]) (trace_blockStop i)
    have hcalls := trace_toolUses C.id 0 ((textIndex.map (· + 1)).getD 0) a.toolCalls
    rw [Nat.add_zero] at hcalls
    unfold anthropicLiveEnd
    simp only [List.map_append, hstop, hcalls, List.map_cons, List.map_nil, trace_messageDelta,
      trace_messageStop, List.append_assoc]
  have hfinish : (st.finish C a).traces C =
      st.traces C ++ (anthropicLiveEnd a st.textIndex).map (trace .anthropic) := by
    unfold finish
    simp only [hs, traces_push]
  rw [hfinish, hend]
  cases hindex : st.textIndex with
  | none => exact ⟨st.traces C, 0, h.silent hindex, rfl⟩
  | some i =>
    obtain ⟨hzero, pre, pieces, hpre, htraces⟩ := h.telling (by rw [hindex]; exact Option.some_ne_none i)
    cases hindex.symm.trans hzero
    refine ⟨pre, pieces, hpre, ?_⟩
    rw [htraces, hs]
    simp [wholeTraces, textTraces, closing]

theorem finish_responses (hs : C.shape = .responses) (h : Stage C st) :
    ∃ pre pieces, (∀ t ∈ pre, t = {}) ∧ (st.finish C a).traces C =
      wholeTraces C.id .responses pre [] (st.textIndex.isSome || decide (a.text ≠ [])) pieces
        a.toolCalls.length (some ((responsesOutputItems C.id a).map idOf)) := by
  have hfinish : (st.finish C a).traces C = st.traces C ++
      (responsesLiveEnd C.id C.served C.created a st.textIndex.isSome).map (trace .responses) := by
    unfold finish
    simp only [hs, traces_pushResponses hs]
  rw [hfinish, trace_responsesLiveEnd]
  cases hindex : st.textIndex with
  | none =>
    refine ⟨st.traces C, 1, h.silent hindex, ?_⟩
    by_cases htext : a.text = []
    · simp [wholeTraces, htext]
    · simp [wholeTraces, htext]
  | some i =>
    obtain ⟨-, pre, pieces, hpre, htraces⟩ := h.telling (by rw [hindex]; exact Option.some_ne_none i)
    refine ⟨pre, pieces, hpre, ?_⟩
    rw [htraces, hs]
    simp [wholeTraces, textTraces]

theorem pushError_traces (hshape : C.shape ≠ .openAi) (message : String) :
    (st.pushError C message).traces C = st.traces C ++ [{ block := .ends }] := by
  unfold pushError
  cases hs : C.shape with
  | openAi => exact absurd hs hshape
  | anthropic => simp only [traces_push_one, hs, trace_anthropicLiveError]
  | responses =>
    simp only [traces_pushResponses hs, List.map_cons, List.map_nil, trace_responsesLiveError]

/-- A text that is opened and goes on is not closed. -/
theorem not_proper_of_open {id : Text} {shape : Shape} {pre : List Trace} (pieces : ℕ)
    {last : Trace} (hpre : ∀ t ∈ pre, t = {}) (hlast : last.block ≠ .closes 0) :
    ¬ Proper (pre ++ (opening id shape ++ List.replicate pieces (piece shape)) ++ [last]) := by
  intro hproper
  have hopens : Mark.opens 0 ∈ (pre ++ (opening id shape ++ List.replicate pieces (piece shape)) ++
      [last]).map Trace.block := by
    cases shape <;> simp [opening]
  refine not_framed ?_ (hproper.blocks.framed _ hopens 0 rfl)
  intro hcloses
  obtain ⟨t, ht, hblock⟩ := List.mem_map.mp hcloses
  simp only [List.mem_append, List.mem_singleton] at ht
  rcases ht with (ht | ht | ht) | rfl
  · rw [hpre t ht] at hblock
    cases hblock
  · cases shape with
    | responses =>
      simp only [opening, List.mem_cons, List.not_mem_nil, or_false] at ht
      rcases ht with rfl | rfl <;> cases hblock
    | anthropic | openAi =>
      rw [List.mem_singleton.mp ht] at hblock
      cases hblock
  · rw [List.eq_of_mem_replicate ht] at hblock
    cases shape <;> cases hblock
  · exact hlast hblock

/-- A failure is a proper end of a stream that has opened nothing, and of no other. -/
theorem pushError_proper (hshape : C.shape ≠ .openAi) (h : Stage C st) (message : String) :
    Proper ((st.pushError C message).traces C) ↔ st.textIndex = none := by
  rw [pushError_traces hshape]
  cases hindex : st.textIndex with
  | none =>
    have hwhole : st.traces C ++ [{ block := .ends }] =
        wholeTraces C.id C.shape (st.traces C) [] false 0 0 none := rfl
    rw [hwhole]
    refine iff_of_true (wholeTraces_proper false (h.silent hindex) (by simp) ?_ ?_) rfl
    · exact fun hfalse => absurd hfalse Bool.false_ne_true
    · exact fun ids hids => by cases hids
  | some i =>
    obtain ⟨-, pre, pieces, hpre, htraces⟩ := h.telling (by rw [hindex]; exact Option.some_ne_none i)
    rw [htraces]
    refine iff_of_false (not_proper_of_open pieces hpre ?_) (Option.some_ne_none i)
    intro h
    cases h

theorem finish_proper_anthropic (hs : C.shape = .anthropic) (h : Stage C st) :
    Proper ((st.finish C a).traces C) := by
  obtain ⟨pre, pieces, hpre, htraces⟩ := finish_anthropic (a := a) hs h
  rw [htraces]
  exact wholeTraces_proper _ hpre (by simp) (fun _ ids hids => by cases hids)
    (fun ids hids => by cases hids)

theorem responsesFunctionId_ne (id : Text) (i : ℕ) : responsesFunctionId id i ≠ responsesMessageId id := by
  intro h
  have hhead := congrArg List.head? h
  simp [responsesFunctionId, responsesMessageId] at hhead

/-- An answer is a proper end of a stream, but for one that opened a text of which nothing is left and
goes on with calls: those are first in the output then. -/
theorem finish_proper_responses (hs : C.shape = .responses) (h : Stage C st) :
    Proper ((st.finish C a).traces C) ↔
      ¬ (st.textIndex ≠ none ∧ a.text = [] ∧ a.toolCalls ≠ []) := by
  obtain ⟨pre, pieces, hpre, htraces⟩ := finish_responses (a := a) hs h
  rw [htraces]
  have hopened : st.textIndex.isSome = true ↔ st.textIndex ≠ none := by
    rw [Option.isSome_iff_ne_none]
  constructor
  · rintro hproper ⟨hindex, htext, hcalls⟩
    have hsome : (st.textIndex.isSome || decide (a.text ≠ [])) = true := by
      rw [hopened.mpr hindex, Bool.true_or]
    have hpos : 0 < a.toolCalls.length := List.length_pos_iff.mpr hcalls
    have hfirst : ((responsesOutputItems C.id a).map idOf)[0 + 0]? =
        some (some (responsesFunctionId C.id 0)) := by
      apply output_call _ hpos
      rw [if_neg]
      exact not_or.mpr ⟨not_not.mpr htext, hcalls⟩
    rw [hsome] at hproper
    have hplaced := hproper.placed
      { block := .opens 0, announces := some (0, responsesMessageId C.id) }
      (by simp [wholeTraces, textTraces, opening]) 0 _ rfl
      { block := .ends, output := some ((responsesOutputItems C.id a).map idOf) }
      (by simp [wholeTraces]) _ rfl
    rw [hfirst] at hplaced
    exact responsesFunctionId_ne C.id 0 (Option.some.inj (Option.some.inj hplaced))
  · intro hgood
    have hplaced : a.toolCalls = [] ∨
        ((st.textIndex.isSome || decide (a.text ≠ [])) = true ↔ a.text ≠ []) := by
      by_cases hcalls : a.toolCalls = []
      · exact .inl hcalls
      · right
        rw [Bool.or_eq_true, decide_eq_true_iff, hopened]
        refine ⟨fun hor => hor.elim (fun hindex htext => hgood ⟨hindex, htext, hcalls⟩) id, .inr⟩
    refine wholeTraces_proper _ hpre (by simp) ?_ ?_
    · exact fun hspeaks ids hids => (output_placed C.id a hplaced hids).1 hspeaks
    · exact fun ids hids => (output_placed C.id a hplaced hids).2

end LiveState

open LiveState

/-- The events of a live stream, as a client's bookkeeping has them. -/
def liveTraces (C : Call) (M : Measures) (msgs : List WorkerMessage) (runner : Runner) : List Trace :=
  ((streamAnswer C M msgs runner).filterMap eventOf).map (trace C.shape)

theorem liveTraces_proper {C : Call} {M : Measures} {deltas : List Text} {r : JobResult}
    {runner : Runner} (hshape : C.shape ≠ .openAi) :
    Proper (liveTraces C M (messages deltas r) runner) ↔
      ¬ ((∃ i, peelThinking (deltas.take i).flatten ≠ []) ∧
        ((∀ a, buildAnswer M C.params r ≠ .ok a) ∨
          C.shape = .responses ∧ peelThinking (r.text.getD []) = [] ∧ r.toolCalls ≠ [])) := by
  have hfresh := start_fresh C
  have hstage : Stage C ((start C).tell C deltas) := tell_stage hshape (start_stage hshape)
  have hopened : ((start C).tell C deltas).textIndex ≠ none ↔
      ∃ i, peelThinking (deltas.take i).flatten ≠ [] := by
    rw [tell_textIndex (start C) hshape hfresh.textIndex hfresh.emitted (by rw [hfresh.raw]; rfl),
      hfresh.raw]
    rfl
  have hlive : liveTraces C M (messages deltas r) runner =
      (((start C).tell C deltas).onResult C M r).traces C := by
    rw [liveTraces, streamAnswer, messages, drain_messages r hfresh.done]
    rfl
  rw [hlive, ← hopened, onResult]
  cases hbuild : buildAnswer M C.params r with
  | error e =>
    simp only
    rw [pushError_proper hshape hstage]
    simp
  | ok a =>
    obtain ⟨htext, hcalls⟩ := buildAnswer_text hbuild
    have hnot : ¬ ∀ a', (Except.ok a : Except AppError Answer) ≠ .ok a' := fun h => h a rfl
    simp only [hnot, false_or]
    rw [← htext, ← hcalls]
    cases hs : C.shape with
    | openAi => exact absurd hs hshape
    | anthropic =>
      refine iff_of_true (finish_proper_anthropic hs hstage) ?_
      rintro ⟨-, h, -⟩
      cases h
    | responses =>
      rw [finish_proper_responses hs hstage]
      simp

/-- Which streams a client can rely on: those of an answer that is there as a whole, and a live one but
where a text was opened of which the result leaves nothing. -/
theorem streams_proper (C : Call) (M : Measures) (deltas : List Text) (r : JobResult) (runner : Runner)
    (hshape : C.shape ≠ .openAi) :
    (∀ a, Proper ((anthropicStream C.id C.served a).map (trace .anthropic)) ∧
      Proper ((openaiResponseStream C.id C.served C.created a).map (trace .responses))) ∧
    (Proper (liveTraces C M (messages deltas r) runner) ↔
      ¬ ((∃ i, peelThinking (deltas.take i).flatten ≠ []) ∧
        ((∀ a, buildAnswer M C.params r ≠ .ok a) ∨
          C.shape = .responses ∧ peelThinking (r.text.getD []) = [] ∧ r.toolCalls ≠ []))) :=
  ⟨fun a => ⟨anthropicStream_proper _ _ a, openaiResponseStream_proper _ _ _ a⟩,
    liveTraces_proper hshape⟩

section Example

theorem streams_proper_hi :
    Proper (liveTraces (callIn .responses) uncounted (messages ["Hi".toList] (resultOf "Hi")) .finished) := by
  refine (streams_proper (callIn .responses) uncounted ["Hi".toList] (resultOf "Hi") .finished
    (by decide)).2.mpr ?_
  rintro ⟨-, hrefused | ⟨-, hnothing, -⟩⟩
  · exact hrefused _ (@buildAnswer_resultOf .responses "Hi" "Hi" (by decide) (by decide))
  · exact absurd hnothing (by decide)

def planned : Text := "<think>plan</think>".toList

/-- The deltas cut the tag. -/
def planning : List Text := ["<thi".toList, "nk>plan</think>".toList]

def lsCall : ToolCall := ⟨"call_1".toList, "ls".toList, "\x7b\x7d".toList⟩

/-- A text that is opened with a piece of a tag, and of which nothing is left: before a call its item
has no place in the output, and without one the stream fails with its block open. -/
theorem streams_not_proper :
    ¬ Proper (liveTraces (callIn .responses) uncounted
      (messages planning { text := some planned, toolCalls := [lsCall] }) .finished) ∧
    ∀ shape, shape ≠ .openAi →
      ¬ Proper (liveTraces (callIn shape) uncounted (messages planning { text := some planned })
        .finished) := by
  have hopened : ∃ i, peelThinking (planning.take i).flatten ≠ [] := ⟨1, by decide⟩
  have hnothing : peelThinking planned = [] := by decide
  constructor
  · rw [liveTraces_proper (by decide), not_not]
    exact ⟨hopened, .inr ⟨rfl, hnothing, List.cons_ne_nil _ _⟩⟩
  · intro shape hshape
    rw [liveTraces_proper hshape, not_not]
    refine ⟨hopened, .inl fun a ha => ?_⟩
    obtain ⟨htext, hcalls⟩ := buildAnswer_text ha
    rcases buildAnswer_speaks ha with h | h
    · exact h (htext.trans hnothing)
    · exact h hcalls

end Example

end Rootmode.Gateway
