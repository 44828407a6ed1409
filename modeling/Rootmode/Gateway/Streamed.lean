import Rootmode.Gateway.Heard

namespace Rootmode.Gateway

open Lib Lib.Text Protocol Desktop Worker

namespace LiveState

variable {C : Call} {M : Measures} {runner : Runner} {st : LiveState}

section Push

variable {frames : List Frame} {events : List Event}

theorem push_pending : (st.push frames).pending = st.pending ++ frames := rfl

theorem pushResponses_same (st : LiveState) (events : List Event) : (st.pushResponses events).raw = st.raw ∧
    (st.pushResponses events).emitted = st.emitted ∧
    (st.pushResponses events).textIndex = st.textIndex ∧ (st.pushResponses events).done = st.done := by
  induction events generalizing st with
  | nil => exact ⟨rfl, rfl, rfl, rfl⟩
  | cons e events ih => exact ih (st.pushNumbered e)

theorem heard_pushResponses : heard .responses (st.pushResponses events).pending =
    heard .responses st.pending ++ heard .responses (events.map wrap) := by
  induction events generalizing st with
  | nil => rw [List.map_nil, heard_nil, List.append_nil]; rfl
  | cons e events ih =>
    have hstep : st.pushResponses (e :: events) = (st.pushNumbered e).pushResponses events := rfl
    rw [hstep, ih, pushNumbered, heard_append, heard_cons, heard_nil, said_numbered, List.append_nil,
      List.map_cons, heard_cons, List.append_assoc]

end Push

/-- What a caller has heard so far. -/
def told (C : Call) (st : LiveState) : Text := heard C.shape st.pending

structure Fresh (C : Call) (st : LiveState) : Prop where
  told : st.told C = []
  raw : st.raw = []
  emitted : st.emitted = 0
  textIndex : st.textIndex = none
  done : st.done = false

theorem start_fresh (C : Call) : Fresh C (start C) := by
  unfold start
  cases hshape : C.shape with
  | anthropic =>
    refine ⟨?_, rfl, rfl, rfl, rfl⟩
    rw [told, hshape]
    rfl
  | openAi =>
    refine ⟨?_, rfl, rfl, rfl, rfl⟩
    rw [told, hshape]
    simp only [push_pending, heard_append, heard_cons, heard_nil, said_openaiLiveStart, List.append_nil]
  | responses =>
    refine ⟨?_, rfl, rfl, rfl, rfl⟩
    rw [told, hshape, heard_pushResponses]
    rfl

/-- What a piece of the text does to a stream. -/
structure Said (C : Call) (st st' : LiveState) (fresh : Text) : Prop where
  told : st'.told C = st.told C ++ fresh
  raw : st'.raw = st.raw
  emitted : st'.emitted = st.emitted
  done : st'.done = st.done
  opened : C.shape ≠ .openAi → st'.textIndex ≠ none

theorem say_said (st : LiveState) (fresh : Text) : Said C st (st.say C fresh) fresh := by
  unfold say
  cases hshape : C.shape with
  | anthropic =>
    cases hindex : st.textIndex with
    | none =>
      refine ⟨?_, rfl, rfl, rfl, fun _ => Option.some_ne_none 0⟩
      have hstart : said .anthropic (wrap (anthropicLiveTextStart 0)) = [] :=
        said_anthropic_of_ne (show "content_block_start" ≠ _ by decide)
      rw [told, told, hshape]
      simp only [push_pending, heard_append, heard_cons, heard_nil, said_anthropicLiveTextDelta, hstart,
        List.append_nil]
    | some i =>
      refine ⟨?_, rfl, rfl, rfl, fun _ => ?_⟩
      · rw [told, told, hshape]
        simp only [push_pending, heard_append, heard_cons, heard_nil, said_anthropicLiveTextDelta,
          List.append_nil]
      · exact fun hnone => Option.some_ne_none i (hindex.symm.trans hnone)
  | openAi =>
    refine ⟨?_, rfl, rfl, rfl, fun hne => absurd hshape hne⟩
    rw [told, told, hshape]
    simp only [push_pending, heard_append, heard_cons, heard_nil, said_openaiLiveDelta,
      List.append_nil]
  | responses =>
    have hdelta : heard .responses ([responsesLiveDelta C.id fresh].map wrap) = fresh := by
      rw [List.map_singleton, heard_cons, said_responsesLiveDelta, heard_nil, List.append_nil]
    cases hindex : st.textIndex with
    | none =>
      refine ⟨?_, rfl, rfl, rfl, fun _ => Option.some_ne_none 0⟩
      rw [told, told, hshape]
      simp only [heard_pushResponses, hdelta, heard_responsesLiveTextStart, List.append_nil]
    | some i =>
      refine ⟨?_, rfl, rfl, rfl, fun _ => ?_⟩
      · rw [told, told, hshape]
        simp only [heard_pushResponses, hdelta]
      · exact fun hnone => Option.some_ne_none i (hindex.symm.trans hnone)

/-- What the end of a stream says: the text where the dialect has it there and no piece went out. -/
theorem told_finish (st : LiveState) (a : Answer) : (st.finish C a).told C =
    st.told C ++ if C.shape = .responses ∧ st.textIndex = none then a.text else [] := by
  unfold finish told
  cases hshape : C.shape with
  | anthropic => simp [push, heard_anthropicLiveEnd]
  | openAi => simp [push, heard_openaiLiveEnd, said]
  | responses =>
    simp only [heard_pushResponses, heard_responsesLiveEnd, true_and]
    cases st.textIndex with
    | none => rfl
    | some i => rfl

/-- A stream that has told a beginning of a text, and nothing else. -/
structure Telling (C : Call) (t : Text) (st : LiveState) : Prop where
  told : st.told C <+: t
  emitted : st.emitted = byteLen (st.told C)
  opened : C.shape ≠ .openAi → st.told C ≠ [] → st.textIndex ≠ none

variable {t text : Text}

theorem Fresh.telling (h : Fresh C st) : Telling C t st where
  told := h.told ▸ List.nil_prefix
  emitted := by rw [h.told, h.emitted, byteLen_nil]
  opened _ hne := absurd h.told hne

/-- What a delta does to a stream: it is taken in, and a piece may go out. -/
theorem onDelta_cases (C : Call) (st : LiveState) (text : Text) :
    (st.onDelta C text).raw = st.raw ++ text ∧ (st.onDelta C text).done = st.done ∧
    (st.fresh (peelThinking (st.raw ++ text)) = none ∧ st.onDelta C text = { st with raw := st.raw ++ text } ∨
      ∃ fresh, st.fresh (peelThinking (st.raw ++ text)) = some fresh ∧
        Said C { st with raw := st.raw ++ text, emitted := byteLen (peelThinking (st.raw ++ text)) }
          (st.onDelta C text) fresh) := by
  unfold onDelta
  cases hfresh : st.fresh (peelThinking (st.raw ++ text)) with
  | none =>
    refine ⟨?_, ?_, .inl ⟨rfl, ?_⟩⟩
    · simp only [hfresh]
    · simp only [hfresh]
    · simp only [hfresh]
  | some fresh =>
    have hsay := say_said (C := C)
      { st with raw := st.raw ++ text, emitted := byteLen (peelThinking (st.raw ++ text)) } fresh
    simp only [hfresh]
    exact ⟨hsay.raw, hsay.done, .inr ⟨fresh, rfl, hsay⟩⟩

/-- What is heard is never taken back. -/
theorem told_onDelta : st.told C <+: (st.onDelta C text).told C := by
  obtain ⟨-, -, ⟨-, heq⟩ | ⟨fresh, -, hsaid⟩⟩ := onDelta_cases C st text
  · rw [heq]
    exact List.prefix_refl _
  · rw [hsaid.told]
    exact List.prefix_append _ _

/-- A delta whose text is part of what is told in the end. -/
theorem Telling.onDelta (h : Telling C t st) (hkept : peelThinking (st.raw ++ text) <+: t) :
    Telling C t (st.onDelta C text) ∧
      peelThinking (st.raw ++ text) <+: (st.onDelta C text).told C := by
  obtain ⟨-, -, ⟨hfresh, heq⟩ | ⟨fresh, hfresh, hsaid⟩⟩ := onDelta_cases C st text
  · -- nothing is longer than what is told
    have htold : peelThinking (st.raw ++ text) <+: st.told C := by
      apply prefix_of_byteLen_le hkept h.told
      by_contra hlonger
      have hlt : st.emitted < byteLen (peelThinking (st.raw ++ text)) := by
        rw [h.emitted]
        omega
      obtain ⟨s, hs⟩ := prefix_of_byteLen_le h.told hkept (by omega)
      rw [LiveState.fresh, if_pos hlt, h.emitted, ← hs, dropBytes_byteLen] at hfresh
      cases hfresh
    rw [heq]
    exact ⟨⟨h.told, h.emitted, h.opened⟩, htold⟩
  · have hlt : st.emitted < byteLen (peelThinking (st.raw ++ text)) := by
      by_contra hge
      rw [LiveState.fresh, if_neg hge] at hfresh
      cases hfresh
    rw [h.emitted] at hlt
    obtain ⟨s, hs⟩ := prefix_of_byteLen_le h.told hkept (by omega)
    rw [LiveState.fresh, h.emitted, if_pos hlt, ← hs, dropBytes_byteLen] at hfresh
    cases hfresh
    have htold : (st.onDelta C text).told C = peelThinking (st.raw ++ text) := hsaid.told.trans hs
    refine ⟨⟨htold ▸ hkept, ?_, fun hshape _ => hsaid.opened hshape⟩, htold ▸ List.prefix_refl _⟩
    rw [htold]
    exact hsaid.emitted

/-- The first delta is told as it is peeled. -/
theorem Fresh.told_onDelta (h : Fresh C st) (text : Text) :
    (st.onDelta C text).told C = peelThinking text := by
  have hstart : Telling C (peelThinking text) st := h.telling
  have hraw : peelThinking (st.raw ++ text) <+: peelThinking text := by rw [h.raw, List.nil_append]
  obtain ⟨htelling, htold⟩ := hstart.onDelta hraw
  rw [h.raw, List.nil_append] at htold
  exact htelling.told.eq_of_length_le htold.length_le

/-- The deltas of a stream, in their order. -/
def tell (C : Call) (st : LiveState) (deltas : List Text) : LiveState := deltas.foldl (onDelta C) st

variable {d : Text} {deltas : List Text}

theorem tell_nil : st.tell C [] = st := by rw [tell, List.foldl_nil]

theorem tell_cons : st.tell C (d :: deltas) = (st.onDelta C d).tell C deltas := by
  rw [tell, List.foldl_cons, tell]

theorem tell_done : (st.tell C deltas).done = st.done := by
  induction deltas generalizing st with
  | nil => rw [tell_nil]
  | cons d deltas ih => rw [tell_cons, ih, (onDelta_cases C st d).2.1]

theorem told_tell : st.told C <+: (st.tell C deltas).told C := by
  induction deltas generalizing st with
  | nil => rw [tell_nil]
  | cons d deltas ih =>
    rw [tell_cons]
    exact told_onDelta.trans ih

theorem Telling.tell (h : Telling C t st)
    (hkept : ∀ i, peelThinking (st.raw ++ (deltas.take i).flatten) <+: t) :
    Telling C t (st.tell C deltas) ∧
      (deltas ≠ [] → peelThinking (st.raw ++ deltas.flatten) <+: (st.tell C deltas).told C) := by
  induction deltas generalizing st with
  | nil => exact ⟨h, fun hne => absurd rfl hne⟩
  | cons d deltas ih =>
    have hfirst : peelThinking (st.raw ++ d) <+: t := by simpa using hkept 1
    obtain ⟨hstep, htold⟩ := h.onDelta hfirst
    have hraw : (st.onDelta C d).raw = st.raw ++ d := (onDelta_cases C st d).1
    obtain ⟨hrest, hlast⟩ := ih hstep fun i => by
      have hi := hkept (i + 1)
      rwa [List.take_succ_cons, List.flatten_cons, ← List.append_assoc, ← hraw] at hi
    rw [tell_cons]
    refine ⟨hrest, fun _ => ?_⟩
    by_cases hnil : deltas = []
    · subst hnil
      rw [List.flatten_cons, List.flatten_nil, List.append_nil, tell_nil]
      exact htold
    · have := hlast hnil
      rwa [hraw, List.append_assoc, ← List.flatten_cons] at this

/-- A stream of deltas and a result. -/
theorem drain_messages (r : JobResult) (hdone : st.done = false) :
    st.drain C M runner (deltas.map .delta ++ [.result r]) =
      (st.tell C deltas).recv C M runner (some (.result r)) := by
  induction deltas generalizing st with
  | nil =>
    have hlast : (st.recv C M runner (some (.result r))).done = true := rfl
    rw [tell_nil, List.map_nil, List.nil_append, drain]
    exact if_pos hlast
  | cons d deltas ih =>
    have hstep : (st.onDelta C d).done = false := (onDelta_cases C st d).2.1.trans hdone
    rw [List.map_cons, List.cons_append, drain, tell_cons]
    simp only [recv, hstep, Bool.false_eq_true, if_false]
    exact ih hstep

end LiveState

/-- What a worker sends for a job: its deltas, and the result. -/
def messages (deltas : List Text) (r : JobResult) : List WorkerMessage :=
  deltas.map .delta ++ [.result r]

section Run

variable {C : Call} {M : Measures} {params : Protocol.LlmParams} {runner : Runner} {deltas : List Text}
  {r : JobResult} {a : Answer}

theorem gather_messages (seen : Option Answer × Option String) :
    gather M params (messages deltas r) seen = (buildAnswer M params r).map fun a => (some a, seen.2) := by
  unfold messages
  induction deltas with
  | nil =>
    rw [List.map_nil, List.nil_append, gather]
    cases buildAnswer M params r <;> rfl
  | cons d deltas ih => exact ih

theorem run_messages : run M params (messages deltas r) runner = buildAnswer M params r := by
  rw [run, gather_messages]
  cases buildAnswer M params r <;> rfl

theorem heard_messages (h : buildAnswer M C.params r = .ok a) :
    heard C.shape (streamAnswer C M (messages deltas r) runner) =
      (((LiveState.start C).tell C deltas).finish C a).told C := by
  rw [streamAnswer, messages, LiveState.drain_messages r (LiveState.start_fresh C).done, LiveState.recv,
    LiveState.onResult, h]
  rfl

open LiveState

theorem heard_none (h : buildAnswer M C.params r = .ok a) :
    heard C.shape (streamAnswer C M (messages [] r) runner) =
      if C.shape = .responses then a.text else [] := by
  have hfresh := start_fresh C
  rw [heard_messages h, told_finish, tell_nil, hfresh.told, hfresh.textIndex]
  simp

/-- What is told of a first delta stays told. -/
theorem peelThinking_prefix_heard (d : Text) (h : buildAnswer M C.params r = .ok a) :
    peelThinking d <+: heard C.shape (streamAnswer C M (messages (d :: deltas) r) runner) := by
  rw [heard_messages h, told_finish, tell_cons, ← (start_fresh C).told_onDelta d]
  exact told_tell.trans (List.prefix_append _ _)

theorem heard_of_kept (h : buildAnswer M C.params r = .ok a) (hdeltas : deltas ≠ [])
    (htext : r.text.getD [] = deltas.flatten)
    (hkept : ∀ i, peelThinking (deltas.take i).flatten <+: a.text) :
    heard C.shape (streamAnswer C M (messages deltas r) runner) = a.text := by
  have hfresh := start_fresh C
  have htell : Telling C a.text (start C) := hfresh.telling
  obtain ⟨htelling, htold⟩ := htell.tell fun i => by
    rw [hfresh.raw, List.nil_append]
    exact hkept i
  have hall : ((start C).tell C deltas).told C = a.text := by
    apply htelling.told.eq_of_length_le
    have := htold hdeltas
    rw [hfresh.raw, List.nil_append, ← htext, ← (buildAnswer_text h).1] at this
    exact this.length_le
  rw [heard_messages h, told_finish, hall]
  split
  · next hclosed =>
    have hnothing : a.text = [] := by
      by_contra hne
      exact htelling.opened (by rw [hclosed.1]; decide) (hall ▸ hne) hclosed.2
    rw [hnothing, List.append_nil]
  · exact List.append_nil _

/-- A text no delta of which ends within an opening tag is told as it is. -/
theorem heard_of_whole (h : buildAnswer M C.params r = .ok a) (hdeltas : deltas ≠ [])
    (htext : r.text.getD [] = deltas.flatten) (hwhole : ∀ i, Whole (deltas.take i).flatten) :
    heard C.shape (streamAnswer C M (messages deltas r) runner) = a.text := by
  apply heard_of_kept h hdeltas htext
  intro i
  have happ := (hwhole i).peelThinking_append (deltas.drop i).flatten
  rwa [← List.flatten_append, List.take_append_drop, ← htext, ← (buildAnswer_text h).1] at happ

/-- When a caller that streams reads the text one that waits gets. -/
theorem heard_streamAnswer (C : Call) (M : Measures) (r : JobResult) (a : Answer) (runner : Runner)
    (deltas : List Text) (hrun : run M C.params (messages deltas r) runner = .ok a) :
    (deltas = [] → (heard C.shape (streamAnswer C M (messages deltas r) runner) = a.text ↔
      C.shape = .responses ∨ a.text = [])) ∧
    (deltas ≠ [] → r.text.getD [] = deltas.flatten →
      (∀ i, peelThinking (deltas.take i).flatten <+: peelThinking deltas.flatten) →
      heard C.shape (streamAnswer C M (messages deltas r) runner) = a.text) ∧
    (∀ d d', deltas = [d, d'] → r.text.getD [] = d ++ d' →
      (heard C.shape (streamAnswer C M (messages deltas r) runner) = a.text ↔
        peelThinking d <+: peelThinking (d ++ d'))) := by
  rw [run_messages] at hrun
  have htext := (buildAnswer_text hrun).1
  refine ⟨?_, ?_, ?_⟩
  · rintro rfl
    rw [heard_none hrun]
    split
    · next hshape => simp [hshape]
    · next hshape => simp [hshape, eq_comm]
  · intro hne hflat hkept
    rw [hflat] at htext
    exact heard_of_kept hrun hne hflat fun i => htext ▸ hkept i
  · rintro d d' rfl hflat
    rw [hflat] at htext
    have hall : r.text.getD [] = [d, d'].flatten := by rw [hflat]; simp
    constructor
    · intro heard
      rw [← htext, ← heard]
      exact peelThinking_prefix_heard d hrun
    · intro hkept
      refine heard_of_kept hrun (List.cons_ne_nil _ _) hall ?_
      rw [htext]
      rintro (_ | _ | i)
      · exact List.nil_prefix
      · simpa using hkept
      · simp

end Run

section Example

/-- A worker whose hashes are not checked, and nothing is counted. -/
def uncounted : Measures := ⟨fun _ => [], fun _ _ _ _ => {}⟩

def callIn (shape : Shape) : Call where
  shape := shape
  served := "qwen3".toList
  id := "msg_1".toList
  created := 1767225600
  params := ⟨none, some "qwen3".toList, [], [], defaultMaxTokens, defaultTemperature, none⟩

def resultOf (text : String) : JobResult := { text := some text.toList }

def answerOf (text : String) : Answer :=
  { text := text.toList, usage := .ofTokens (TokenUsage.reconcile {} none) }

theorem buildAnswer_resultOf {shape : Shape} {text peeled : String}
    (hpeeled : peelThinking text.toList = peeled.toList) (hne : peeled.toList ≠ []) :
    buildAnswer uncounted (callIn shape).params (resultOf text) = .ok (answerOf peeled) := by
  have htext : (resultOf text).text.getD [] = text.toList := rfl
  rw [buildAnswer_unclaimed rfl (by rwa [htext, hpeeled]), htext, hpeeled]
  rfl

theorem heard_streamAnswer_hello : heard .anthropic (streamAnswer (callIn .anthropic) uncounted
    (messages ["<think>x</think>Hel".toList, "lo".toList] (resultOf "<think>x</think>Hello")) .finished) =
    "Hello".toList := by
  refine ((heard_streamAnswer (callIn .anthropic) uncounted (resultOf "<think>x</think>Hello")
    (answerOf "Hello") .finished _ ?_).2.1 (List.cons_ne_nil _ _) rfl ?_)
  · rw [run_messages]
    exact buildAnswer_resultOf (by decide) (by decide)
  · rintro (_ | _ | i)
    · exact List.nil_prefix
    · decide
    · simp

/-- A tag that is cut, and a result nothing came before. -/
theorem heard_streamAnswer_ne :
    (∀ shape, run uncounted (callIn shape).params
        (messages ["<thi".toList, "nk>x</think>Hello".toList] (resultOf "<think>x</think>Hello")) .finished =
          .ok (answerOf "Hello") ∧
      heard shape (streamAnswer (callIn shape) uncounted
        (messages ["<thi".toList, "nk>x</think>Hello".toList] (resultOf "<think>x</think>Hello"))
        .finished) ≠ "Hello".toList) ∧
    (∀ shape, shape ≠ .responses →
      run uncounted (callIn shape).params (messages [] (resultOf "Hi")) .finished = .ok (answerOf "Hi") ∧
      heard shape (streamAnswer (callIn shape) uncounted (messages [] (resultOf "Hi")) .finished) ≠
        "Hi".toList) := by
  constructor
  · intro shape
    have hbuild : buildAnswer uncounted (callIn shape).params (resultOf "<think>x</think>Hello") =
        .ok (answerOf "Hello") := buildAnswer_resultOf (by decide) (by decide)
    refine ⟨run_messages.trans hbuild, fun hequal => ?_⟩
    have hprefix := @peelThinking_prefix_heard (callIn shape) uncounted .finished
      ["nk>x</think>Hello".toList] (resultOf "<think>x</think>Hello") (answerOf "Hello") "<thi".toList hbuild
    rw [show (callIn shape).shape = shape from rfl, hequal] at hprefix
    revert hprefix
    decide
  · intro shape hshape
    have hbuild : buildAnswer uncounted (callIn shape).params (resultOf "Hi") = .ok (answerOf "Hi") :=
      buildAnswer_resultOf (by decide) (by decide)
    refine ⟨run_messages.trans hbuild, fun hequal => ?_⟩
    have hnone := @heard_none (callIn shape) uncounted .finished (resultOf "Hi") (answerOf "Hi") hbuild
    rw [show (callIn shape).shape = shape from rfl, if_neg hshape, hequal] at hnone
    revert hnone
    decide

end Example

end Rootmode.Gateway
