import Rootmode.Gateway.Asked

namespace Rootmode.Gateway

open Lib Lib.Text Lib.Checked Lib.Json Lib.Entries Protocol Desktop

/-- The model a body names. -/
def modelIn (v : Json) : Option Text := (v.get "model").bind readText

/-- The model a frame names, itself or in the message or the response it is about. -/
def namedIn : Frame → Option Text
  | (_, .raw _) => none
  | (_, .json v) => ((modelIn v).or ((v.get "message").bind modelIn)).or ((v.get "response").bind modelIn)

section Body

variable {id model : Text} {created : ℤ} {a : Answer}

theorem get_object_absent {k : String} {es : List (String × Json)} (h : ∀ e ∈ es, e.1 ≠ k) :
    (object es).get k = none := by
  rw [get_object, lookup, List.find?_eq_none.mpr, Option.map_none]
  intro e he
  simpa using h e (List.mem_reverse.mp he)

/-- Whatever the dialect, a body names the model it was made for. -/
theorem modelIn_respond (S : SerdeJson) (shape : Shape) : modelIn (respond S id model created a shape) = some model := by
  cases shape with
  | anthropic =>
    simp [modelIn, respond, anthropicMessage, get_object, readText_str]
  | openAi =>
    simp [modelIn, respond, openaiCompletion, get_object, readText_str]
  | responses =>
    simp [modelIn, respond, openaiResponse, get_object, readText_str]

end Body

section Frames

/-- A frame that names no other model. -/
def Names (served : Text) (f : Frame) : Prop := ∀ m, namedIn f = some m → m = served

variable {served id : Text} {created : ℤ} {a : Answer} {name : Option String} {es : List (String × Json)}
  {textIndex : Option ℕ}

theorem names_of_some {f : Frame} (h : namedIn f = some served) : Names served f :=
  fun _ hm => Option.some.inj (hm.symm.trans h)

theorem names_of_none {f : Frame} (h : namedIn f = none) : Names served f :=
  fun _ hm => absurd (hm.symm.trans h) (Option.some_ne_none _)

/-- What has nothing to say of a model. -/
def Unnamed (es : List (String × Json)) : Prop :=
  ∀ e ∈ es, e.1 ≠ "model" ∧ e.1 ≠ "message" ∧ e.1 ≠ "response"

theorem namedIn_unnamed (h : Unnamed es) : namedIn (name, .json (object es)) = none := by
  rw [namedIn, modelIn, get_object_absent fun e he => (h e he).1, get_object_absent fun e he => (h e he).2.1,
    get_object_absent fun e he => (h e he).2.2]
  rfl

theorem names_unnamed (h : Unnamed es) : Names served (name, .json (object es)) := names_of_none (namedIn_unnamed h)

theorem namedIn_numbered (e : Event) (n : ℕ) :
    namedIn (wrap (e.1, e.2.insert "sequence_number" (count n))) = namedIn (wrap e) := by
  simp only [wrap, namedIn, modelIn, get_insert_of_ne e.2 (show "sequence_number" ≠ "model" by decide),
    get_insert_of_ne e.2 (show "sequence_number" ≠ "message" by decide),
    get_insert_of_ne e.2 (show "sequence_number" ≠ "response" by decide)]

section Anthropic

theorem namedIn_anthropicLiveStart : namedIn (wrap (anthropicLiveStart id served)) = some served := by
  simp [wrap, namedIn, modelIn, anthropicLiveStart, messageStart, get_object, readText_str]

theorem unnamed_toolUse (i : ℕ) (call : ToolCall) : ∀ e ∈ toolUse i call, namedIn (wrap e) = none := by
  simp only [toolUse, List.forall_mem_cons]
  refine ⟨namedIn_unnamed ?_, namedIn_unnamed ?_, namedIn_unnamed ?_, List.forall_mem_nil _⟩
  · simp [Unnamed]
  · simp [Unnamed]
  · simp [Unnamed]

theorem unnamed_toolUses (i : ℕ) (calls : List ToolCall) : ∀ e ∈ toolUses i calls, namedIn (wrap e) = none := by
  induction calls generalizing i with
  | nil => exact List.forall_mem_nil _
  | cons call calls ih =>
    rw [toolUses]
    exact List.forall_mem_append.mpr ⟨unnamed_toolUse i call, ih (i + 1)⟩

theorem unnamed_anthropicLiveEnd : ∀ e ∈ anthropicLiveEnd a textIndex, namedIn (wrap e) = none := by
  have hstop : ∀ e ∈ (textIndex.map blockStop).toList, namedIn (wrap e) = none := by
    intro e he
    obtain ⟨i, -, rfl⟩ := Option.map_eq_some_iff.mp (Option.mem_toList.mp he)
    exact namedIn_unnamed (by simp [Unnamed])
  rw [anthropicLiveEnd]
  refine List.forall_mem_append.mpr ⟨List.forall_mem_append.mpr ⟨hstop, unnamed_toolUses _ _⟩, ?_⟩
  simp only [List.forall_mem_cons]
  refine ⟨namedIn_unnamed ?_, namedIn_unnamed ?_, List.forall_mem_nil _⟩
  · simp [Unnamed]
  · simp [Unnamed]

end Anthropic

section OpenAi

theorem namedIn_chunk {choices : List Json} {more : List (String × Json)} (hmore : Unnamed more) :
    namedIn (name, .json (chunk id served created choices more)) = some served := by
  have hlookup : (chunk id served created choices more).get "model" = some (Json.str served) := by
    have hnone : lookup "model" more.reverse = none := by
      rw [← get_object]
      exact get_object_absent fun e he => (hmore e he).1
    unfold lookup at hnone
    unfold chunk
    rw [get_object, List.reverse_append, lookup, List.find?_append, Option.map_eq_none_iff.mp hnone]
    simp
  rw [namedIn, modelIn, hlookup, Option.bind_some, readText_str]
  rfl

theorem namedIn_openaiLiveEnd : ∀ v ∈ openaiLiveEnd id served created a,
    namedIn (none, .json v) = some served := by
  have hlast : ∀ v ∈ [deltaChunk id served created (object []) (openaiFinish a),
      chunk id served created [] [("usage", a.usage.openaiJson)]], namedIn (none, .json v) = some served := by
    simp only [List.forall_mem_cons]
    refine ⟨namedIn_chunk (List.forall_mem_nil _), namedIn_chunk ?_, List.forall_mem_nil _⟩
    simp [Unnamed]
  rw [openaiLiveEnd]
  refine List.forall_mem_append.mpr ⟨?_, hlast⟩
  split
  · exact List.forall_mem_singleton.mpr (namedIn_chunk (List.forall_mem_nil _))
  · exact List.forall_mem_nil _

end OpenAi

section Responses

theorem namedIn_responsesLiveStart : namedIn (wrap (responsesLiveStart id served created)) = some served := by
  simp [wrap, namedIn, modelIn, responsesLiveStart, responsesSkeleton, get_object, readText_str]

theorem namedIn_responsesLiveInProgress :
    namedIn (wrap (responsesLiveInProgress id served created)) = some served := by
  simp [wrap, namedIn, modelIn, responsesLiveInProgress, responsesSkeleton, get_object, readText_str]

theorem unnamed_partEvent {event : String} {more : List (String × Json)} (h : Unnamed more) :
    namedIn (wrap (partEvent id event more)) = none := by
  refine namedIn_unnamed (List.forall_mem_append.mpr ⟨?_, h⟩)
  simp

theorem unnamed_responsesLiveTextStart : ∀ e ∈ responsesLiveTextStart id, namedIn (wrap e) = none := by
  simp only [responsesLiveTextStart, List.forall_mem_cons]
  refine ⟨namedIn_unnamed ?_, unnamed_partEvent ?_, List.forall_mem_nil _⟩
  · simp [Unnamed]
  · simp [Unnamed]

theorem unnamed_responsesLiveDelta (text : Text) : namedIn (wrap (responsesLiveDelta id text)) = none := by
  refine unnamed_partEvent ?_
  simp [Unnamed]

theorem unnamed_responsesLiveTextClose (text : Text) : ∀ e ∈ responsesLiveTextClose id text, namedIn (wrap e) = none := by
  simp only [responsesLiveTextClose, List.forall_mem_cons]
  refine ⟨unnamed_partEvent ?_, unnamed_partEvent ?_, namedIn_unnamed ?_, List.forall_mem_nil _⟩
  · simp [Unnamed]
  · simp [Unnamed]
  · simp [Unnamed]

theorem unnamed_responsesLiveFunctionCall (i next : ℕ) (call : ToolCall) :
    ∀ e ∈ responsesLiveFunctionCall id i next call, namedIn (wrap e) = none := by
  simp only [responsesLiveFunctionCall, List.forall_mem_cons]
  refine ⟨namedIn_unnamed ?_, namedIn_unnamed ?_, namedIn_unnamed ?_, namedIn_unnamed ?_, List.forall_mem_nil _⟩
  · simp [Unnamed]
  · simp [Unnamed]
  · simp [Unnamed]
  · simp [Unnamed]

theorem unnamed_functionCalls (next i : ℕ) (calls : List ToolCall) :
    ∀ e ∈ functionCalls id next i calls, namedIn (wrap e) = none := by
  induction calls generalizing i with
  | nil => exact List.forall_mem_nil _
  | cons call calls ih =>
    rw [functionCalls]
    exact List.forall_mem_append.mpr ⟨unnamed_responsesLiveFunctionCall i (next + i) call, ih (i + 1)⟩

theorem namedIn_responseCompleted : namedIn (wrap (responseCompleted id served created a)) = some served := by
  simp [wrap, namedIn, modelIn, responseCompleted, openaiResponse, get_object, readText_str]

theorem names_responsesLiveEnd (opened : Bool) :
    ∀ e ∈ responsesLiveEnd id served created a opened, Names served (wrap e) := by
  have htext : ∀ e ∈ (if opened = true then responsesLiveTextClose id a.text
      else if a.text ≠ [] then
        responsesLiveTextStart id ++ responsesLiveDelta id a.text :: responsesLiveTextClose id a.text
      else []), namedIn (wrap e) = none := by
    split
    · exact unnamed_responsesLiveTextClose a.text
    · split
      · refine List.forall_mem_append.mpr ⟨unnamed_responsesLiveTextStart, ?_⟩
        exact List.forall_mem_cons.mpr ⟨unnamed_responsesLiveDelta a.text, unnamed_responsesLiveTextClose a.text⟩
      · exact List.forall_mem_nil _
  rw [responsesLiveEnd]
  refine List.forall_mem_append.mpr ⟨List.forall_mem_append.mpr ⟨?_, ?_⟩, ?_⟩
  · exact fun e he => names_of_none (htext e he)
  · exact fun e he => names_of_none (unnamed_functionCalls _ 0 a.toolCalls e he)
  · exact List.forall_mem_singleton.mpr (names_of_some namedIn_responseCompleted)

theorem unnamed_responsesLiveError (message : String) : namedIn (wrap (responsesLiveError message)) = none := by
  simp [wrap, namedIn, modelIn, responsesLiveError, get_object]

end Responses

end Frames

namespace LiveState

variable {C : Call} {M : Measures} {runner : Runner} {st : LiveState}

/-- A stream that names one model and no other. -/
structure NamesServed (C : Call) (st : LiveState) : Prop where
  all : ∀ f ∈ st.pending, Names C.served f
  opened : ∃ f ∈ st.pending, namedIn f = some C.served

theorem NamesServed.push {frames : List Frame} (h : NamesServed C st) (hframes : ∀ f ∈ frames, Names C.served f) :
    NamesServed C (st.push frames) where
  all := List.forall_mem_append.mpr ⟨h.all, hframes⟩
  opened := by
    obtain ⟨f, hf, hnamed⟩ := h.opened
    exact ⟨f, List.mem_append_left _ hf, hnamed⟩

theorem NamesServed.pushResponses {events : List Event} (h : NamesServed C st)
    (hevents : ∀ e ∈ events, Names C.served (wrap e)) : NamesServed C (st.pushResponses events) := by
  induction events generalizing st with
  | nil => exact h
  | cons e events ih =>
    obtain ⟨he, hrest⟩ := List.forall_mem_cons.mp hevents
    refine @ih (st.pushNumbered e) ⟨List.forall_mem_append.mpr ⟨h.all, ?_⟩, ?_⟩ hrest
    · refine List.forall_mem_singleton.mpr fun m hm => he m ?_
      rwa [namedIn_numbered] at hm
    · obtain ⟨f, hf, hnamed⟩ := h.opened
      exact ⟨f, List.mem_append_left _ hf, hnamed⟩

theorem namesServed_start (C : Call) : NamesServed C (start C) := by
  unfold start
  cases C.shape with
  | anthropic =>
    exact ⟨List.forall_mem_singleton.mpr (names_of_some namedIn_anthropicLiveStart),
      _, List.mem_singleton_self _, namedIn_anthropicLiveStart⟩
  | openAi =>
    have hnamed : namedIn (none, .json (openaiLiveStart C.id C.served C.created)) = some C.served :=
      namedIn_chunk (List.forall_mem_nil _)
    exact ⟨List.forall_mem_singleton.mpr (names_of_some hnamed), _, List.mem_singleton_self _, hnamed⟩
  | responses =>
    have hfirst := namedIn_numbered (responsesLiveStart C.id C.served C.created) 1
    have hsecond := namedIn_numbered (responsesLiveInProgress C.id C.served C.created) 2
    rw [namedIn_responsesLiveStart] at hfirst
    rw [namedIn_responsesLiveInProgress] at hsecond
    exact ⟨List.forall_mem_cons.mpr ⟨names_of_some hfirst, List.forall_mem_singleton.mpr (names_of_some hsecond)⟩,
      _, List.mem_cons_self, hfirst⟩

theorem NamesServed.pushError (h : NamesServed C st) (message : String) : NamesServed C (st.pushError C message) := by
  unfold LiveState.pushError
  cases C.shape with
  | anthropic =>
    refine h.push (List.forall_mem_singleton.mpr (names_unnamed ?_))
    simp [Unnamed]
  | openAi =>
    refine h.push (List.forall_mem_singleton.mpr (names_unnamed ?_))
    simp [Unnamed]
  | responses => exact h.pushResponses (List.forall_mem_singleton.mpr (names_of_none (unnamed_responsesLiveError message)))

theorem NamesServed.say (h : NamesServed C st) (fresh : Text) : NamesServed C (st.say C fresh) := by
  unfold LiveState.say
  cases C.shape with
  | anthropic =>
    have hdelta : ∀ f ∈ [wrap (anthropicLiveTextDelta 0 fresh)], Names C.served f := by
      refine List.forall_mem_singleton.mpr (names_unnamed ?_)
      simp [Unnamed]
    cases st.textIndex with
    | none =>
      refine NamesServed.push (NamesServed.push ⟨h.all, h.opened⟩ ?_) hdelta
      refine List.forall_mem_singleton.mpr (names_unnamed ?_)
      simp [Unnamed]
    | some i => exact h.push hdelta
  | openAi =>
    exact h.push (List.forall_mem_singleton.mpr (names_of_some (namedIn_chunk (List.forall_mem_nil _))))
  | responses =>
    have hdelta : ∀ e ∈ [responsesLiveDelta C.id fresh], Names C.served (wrap e) :=
      List.forall_mem_singleton.mpr (names_of_none (unnamed_responsesLiveDelta fresh))
    cases st.textIndex with
    | none =>
      refine NamesServed.pushResponses (NamesServed.pushResponses ⟨h.all, h.opened⟩ ?_) hdelta
      exact fun e he => names_of_none (unnamed_responsesLiveTextStart e he)
    | some i => exact h.pushResponses hdelta

theorem NamesServed.finish (h : NamesServed C st) (a : Answer) : NamesServed C (st.finish C a) := by
  unfold LiveState.finish
  cases C.shape with
  | anthropic =>
    refine h.push fun f hf => ?_
    obtain ⟨e, he, rfl⟩ := List.mem_map.mp hf
    exact names_of_none (unnamed_anthropicLiveEnd e he)
  | openAi =>
    refine NamesServed.push (h.push fun f hf => ?_) (List.forall_mem_singleton.mpr (names_of_none rfl))
    obtain ⟨v, hv, rfl⟩ := List.mem_map.mp hf
    exact names_of_some (namedIn_openaiLiveEnd v hv)
  | responses => exact h.pushResponses (names_responsesLiveEnd st.textIndex.isSome)

theorem NamesServed.onDelta (h : NamesServed C st) (text : Text) : NamesServed C (st.onDelta C text) := by
  simp only [LiveState.onDelta]
  cases st.fresh (peelThinking (st.raw ++ text)) with
  | none => exact ⟨h.all, h.opened⟩
  | some fresh =>
    refine NamesServed.say ?_ fresh
    exact ⟨h.all, h.opened⟩

theorem NamesServed.onResult (h : NamesServed C st) (r : JobResult) : NamesServed C (st.onResult C M r) := by
  unfold LiveState.onResult
  cases buildAnswer M C.params r with
  | ok a => exact h.finish a
  | error e => exact h.pushError e.text

/-- Whatever comes, a stream goes on naming what it named. -/
theorem NamesServed.recv (h : NamesServed C st) (msg : Option WorkerMessage) :
    NamesServed C (st.recv C M runner msg) := by
  cases msg with
  | none => exact ⟨(h.pushError runner.closed).all, (h.pushError runner.closed).opened⟩
  | some msg =>
    cases msg with
    | delta text => exact h.onDelta text
    | result r => exact ⟨(h.onResult r).all, (h.onResult r).opened⟩
    | failed error =>
      have herror := h.pushError (error.getD "provider failed the job")
      exact ⟨herror.all, herror.opened⟩
    | other => exact h

theorem NamesServed.drain {msgs : List WorkerMessage} (h : NamesServed C st) :
    NamesServed C (st.drain C M runner msgs) := by
  induction msgs generalizing st with
  | nil => exact h.recv none
  | cons msg msgs ih =>
    rw [LiveState.drain]
    have hstep := @NamesServed.recv C M runner st h (some msg)
    split
    · exact hstep
    · exact ih hstep

/-- What answers a stream is the first result of its messages, where no failure comes before. -/
theorem drain_delivered {before after : List WorkerMessage} {r : JobResult} {a : Answer} (hdone : st.done = false)
    (hbefore : ∀ msg ∈ before, ∀ r error, msg ≠ .result r ∧ msg ≠ .failed error)
    (hbuild : buildAnswer M C.params r = .ok a) :
    ∃ st', st.drain C M runner (before ++ .result r :: after) = { finish C st' a with done := true } := by
  induction before generalizing st with
  | nil => exact ⟨st, by rw [List.nil_append, drain, LiveState.recv, onResult, hbuild]; rfl⟩
  | cons msg before ih =>
    obtain ⟨hmsg, hrest⟩ := List.forall_mem_cons.mp hbefore
    have hopen : (st.recv C M runner (some msg)).done = false := by
      cases msg with
      | delta text => exact (onDelta_cases C st text).2.1.trans hdone
      | result r => exact absurd rfl (hmsg r none).1
      | failed error => exact absurd rfl (hmsg {} error).2
      | other => exact hdone
    obtain ⟨st', heq⟩ := ih hopen hrest
    refine ⟨st', ?_⟩
    rw [List.cons_append, drain]
    simp only [hopen, Bool.false_eq_true, if_false]
    exact heq

end LiveState

/-- Every frame of a stream that names a model names the one it was opened for, and some do. -/
theorem names_streamAnswer (C : Call) (M : Measures) (msgs : List WorkerMessage) (runner : Runner) :
    (∀ f ∈ streamAnswer C M msgs runner, Names C.served f) ∧
      ∃ f ∈ streamAnswer C M msgs runner, namedIn f = some C.served :=
  have hnames := (LiveState.namesServed_start C).drain
  ⟨hnames.all, hnames.opened⟩

theorem DeliveredLive.finishes {C : Call} {M : Measures} {heard : List (Try × Told)} {a : Answer} {t : Try}
    {runner : Runner} (h : DeliveredLive M C.params heard a t) :
    ∃ st, streamAnswer C M (heard.map fun e => e.2.message) runner = (LiveState.finish C st a).pending := by
  obtain ⟨before, r, after, rfl, hbefore, hbuild⟩ := h
  have hkept : ∀ msg ∈ before.map fun e => e.2.message, ∀ r error, msg ≠ .result r ∧ msg ≠ .failed error := by
    intro msg hmsg r error
    obtain ⟨⟨t, told⟩, he, rfl⟩ := List.mem_map.mp hmsg
    obtain ⟨hresult, hfailed⟩ := hbefore _ he r error
    cases told with
    | delta text thinking => exact ⟨WorkerMessage.noConfusion, WorkerMessage.noConfusion⟩
    | result r' => exact ⟨fun heq => hresult (congrArg _ (WorkerMessage.result.inj heq)), WorkerMessage.noConfusion⟩
    | failed error' => exact ⟨WorkerMessage.noConfusion, fun heq => hfailed (congrArg _ (WorkerMessage.failed.inj heq))⟩
    | other => exact ⟨WorkerMessage.noConfusion, WorkerMessage.noConfusion⟩
  obtain ⟨st, heq⟩ := @LiveState.drain_delivered C M runner _ _ (after.map fun e => e.2.message) r a
    (LiveState.start_fresh C).done hkept hbuild
  refine ⟨st, ?_⟩
  rw [streamAnswer, List.map_append, List.map_cons]
  exact (congrArg LiveState.pending heq :)

section Law

variable {S : SerdeJson} {W : Network} {M : Measures} {req : ChatRequest} {choice : ModelOption} {tries : List Try}

/-- Those asked that answer. -/
def answering (W : Network) (req : ChatRequest) (tries : List Try) : List Try :=
  (Failover.asked (fun t => (W.attempt req.params t).gives) tries).filter fun t => (W.attempt req.params t).answers

theorem submit_eq (hline : W.line req = .ok (choice, tries)) : W.submit req = .ok {
    served := choice.model
    heard := (W.serve req.params tries "no provider could run this request").1
    runner := .of (W.serve req.params tries "no provider could run this request").2 } := by
  rw [Network.submit, hline]
  rfl

theorem heard_filter (last : String) :
    ((((W.serve req.params tries last).1.filter (Told.answers ·.2)).head?).map Prod.fst =
      (answering W req tries).head?) ∧
    (((W.serve req.params tries last).1.filter (Told.answers ·.2)).getLast?).map Prod.fst =
      (answering W req tries).getLast? := by
  have hfinal : (fun t => (W.outcome req.params t).final) = fun t => (W.attempt req.params t).gives :=
    funext fun _ => final_outcome
  have hsaid : (fun t => (W.outcome req.params t).said.any Told.answers) =
      fun t => (W.attempt req.params t).answers := funext fun _ => any_outcome_said
  rw [serve_heard, Failover.head?_heard outcome_held, Failover.getLast?_heard outcome_held, hfinal, hsaid]
  exact ⟨rfl, rfl⟩

/-- A reply names the model of the provider whose answer it is exactly where, of those asked, the last
that answers, or in a stream the first, is asked for the model of the choice. -/
theorem reply_named_iff (hline : W.line req = .ok (choice, tries)) (shape : Shape) (id : Text) (created : ℤ) :
    (∀ a named, W.run M req = .ok (a, named) → ∃ s t, W.submit req = .ok s ∧ Delivered M req.params s.heard a t ∧
      (modelIn (respond S id named created a shape) = some t.model ↔
        ∃ u ∈ (answering W req tries).getLast?, u.model = choice.model)) ∧
    ∀ s a t, W.submit req = .ok s → DeliveredLive M req.params s.heard a t →
      let C : Call := ⟨shape, s.served, id, created, req.params⟩
      (∃ st, streamAnswer C M s.messages s.runner = (LiveState.finish C st a).pending) ∧
      ((∀ f ∈ streamAnswer C M s.messages s.runner, Names t.model f) ↔
        ∃ u ∈ (answering W req tries).head?, u.model = choice.model) := by
  have hsubmit := submit_eq hline
  obtain ⟨hfirst, hlast⟩ := @heard_filter W req tries "no provider could run this request"
  constructor
  · intro a named hrun
    simp only [Network.run, hsubmit, bind_eq_ok, Except.ok.injEq] at hrun
    obtain ⟨s, rfl, answer, hrun, hpair⟩ := hrun
    cases hpair
    obtain ⟨t, ht⟩ := run_delivered hrun
    refine ⟨_, t, hsubmit, ht, ?_⟩
    rw [modelIn_respond, ← hlast, ht.last, Option.some.injEq]
    constructor
    · exact fun hnamed => ⟨t, rfl, hnamed.symm⟩
    · rintro ⟨u, hu, hmodel⟩
      rw [Option.mem_some.mp hu, hmodel]
  · intro s a t hs hdelivered C
    cases hsubmit.symm.trans hs
    refine ⟨@DeliveredLive.finishes C M _ a t _ hdelivered, ?_⟩
    rw [← hfirst, hdelivered.first]
    obtain ⟨hall, f, hf, hserved⟩ := names_streamAnswer C M _ _
    constructor
    · exact fun hnames => ⟨t, rfl, (hnames f hf _ hserved).symm⟩
    · rintro ⟨u, hu, hmodel⟩ f hf
      rw [Option.mem_some.mp hu, hmodel]
      exact hall f hf

/-- Nothing goes wrong where everyone asked is asked for the model of the choice. -/
theorem answering_same (hsame : ∀ t ∈ tries, t.model = choice.model) {t : Try} (h : t ∈ answering W req tries) :
    t.model = choice.model :=
  hsame t ((Failover.asked_prefix tries).subset (List.mem_filter.mp h).1)

end Law

section Cases

def lone (id model : String) : Peer :=
  { id := ofString id, label := ofString id, models := [{ id := ofString model, kind := .llm }] }

def pair (second : String) : List Peer := [lone "a" "alpha", lone "b" second]

def steady : Rng := fun _ => 1

/-- Two free providers.  The first is out of quota. -/
def network (second : String) : Network where
  listPeers := .ok (pair second)
  getPeer id := .ok ((pair second).find? fun p => p.id == id)
  getSetting _ := none
  draws _ := steady
  peerId := []
  jobId _ := 0
  transportFor _ _ := .ok ⟨⟩
  client _ := none
  issueTicket _ _ _ _ _ := .error (.invalid "no wallet")
  runJob _ peer _ :=
    if peer.id = ofString "a" then ⟨[.failed (some "out of quota")], .finished⟩
    else ⟨[.result (resultOf "Hi")], .finished⟩

def request : ChatRequest :=
  { model := ofString "alpha"
    params := ⟨none, none, [message (role "user") (ofString "hello")], [], defaultMaxTokens, defaultTemperature, none⟩
    stream := false }

def offered (id model : String) (providers : ℕ) : ModelOption :=
  { model := ofString model, kind := .llm, providers, peerId := ofString id, peerLabel := ofString id, price := 0,
    latencyMs := none, unpriced := true }

def triesOf (second : String) : List Try :=
  [⟨0, lone "a" "alpha", ofString "alpha"⟩, ⟨1, lone "b" second, ofString second⟩]

theorem modelOptions_alpha : modelOptions steady (pair "alpha") .llm = [offered "a" "alpha" 2] := by
  rw [modelOptions, List.mergeSort_of_pairwise]
  · rfl
  · decide

theorem modelOptions_beta :
    modelOptions steady (pair "beta") .llm = [offered "a" "alpha" 1, offered "b" "beta" 1] := by
  rw [modelOptions, List.mergeSort_of_pairwise]
  · rfl
  · decide

theorem fallbacks_alpha : fallbacks steady (pair "alpha") .llm (ofString "alpha") (ofString "a") =
    [⟨ofString "b", ofString "b", ofString "alpha"⟩] := by
  simp only [fallbacks]
  rw [List.mergeSort_of_pairwise, List.mergeSort_of_pairwise]
  · rfl
  · decide
  · decide

theorem fallbacks_beta : fallbacks steady (pair "beta") .llm (ofString "alpha") (ofString "a") =
    [⟨ofString "b", ofString "b", ofString "beta"⟩] := by
  simp only [fallbacks]
  rw [List.mergeSort_of_pairwise, List.mergeSort_of_pairwise]
  · rfl
  · decide
  · decide

theorem line_network {second : String} {choice : ModelOption} (hchoose :
      (network second).choose (pair second) request.model = .ok choice)
    (hpeer : (pair second).find? (fun p => p.id == choice.peerId) = some (lone "a" "alpha"))
    (hmodel : choice.model = ofString "alpha")
    (hfallbacks : fallbacks steady (pair second) .llm (ofString "alpha") (ofString "a") =
      [⟨ofString "b", ofString "b", ofString second⟩]) :
    (network second).line request = .ok (choice, triesOf second) := by
  simp only [Network.line, bind_eq_ok, demand_eq_ok]
  refine ⟨pair second, rfl, choice, hchoose, _, rfl, lone "a" "alpha", hpeer, ?_⟩
  rw [show (lone "a" "alpha").id = ofString "a" from rfl, hmodel, show (network second).draws 2 = steady from rfl,
    hfallbacks]
  rfl

theorem line_alpha : (network "alpha").line request = .ok (offered "a" "alpha" 2, triesOf "alpha") := by
  refine line_network ?_ rfl rfl fallbacks_alpha
  rw [Network.choose, Network.providerFor, show (network "alpha").draws 0 = steady from rfl, modelOptions_alpha]
  rfl

theorem line_beta : (network "beta").line request = .ok (offered "a" "alpha" 1, triesOf "beta") := by
  refine line_network ?_ rfl rfl fallbacks_beta
  rw [Network.choose, Network.providerFor, show (network "beta").draws 0 = steady from rfl, modelOptions_beta]
  rfl

/-- What a client gets from a network whose second provider answers. -/
def answered (second : String) : Network.Submitted where
  served := ofString "alpha"
  heard := [(⟨1, lone "b" second, ofString second⟩, .result (resultOf "Hi"))]
  runner := .finished

theorem submit_alpha : (network "alpha").submit request = .ok (answered "alpha") := by
  rw [submit_eq line_alpha]
  rfl

theorem submit_beta : (network "beta").submit request = .ok (answered "beta") := by
  rw [submit_eq line_beta]
  rfl

theorem build_hi : buildAnswer uncounted request.params (resultOf "Hi") = .ok (answerOf "Hi") :=
  @buildAnswer_resultOf .anthropic "Hi" "Hi" (by decide) (by decide)

theorem run_answered {second : String} (h : (network second).submit request = .ok (answered second)) :
    (network second).run uncounted request = .ok (answerOf "Hi", ofString "alpha") := by
  have hgather : gather uncounted request.params (answered second).messages (none, none) =
      .ok (some (answerOf "Hi"), none) := by
    rw [Network.Submitted.messages, answered, List.map_singleton, Told.message, gather, build_hi]
    rfl
  rw [Network.run, h]
  simp only [bind_eq_ok]
  refine ⟨answered second, rfl, answerOf "Hi", ?_, rfl⟩
  rw [run, hgather]
  rfl

theorem delivered_answered (second : String) :
    Delivered uncounted request.params (answered second).heard (answerOf "Hi")
      ⟨1, lone "b" second, ofString second⟩ :=
  ⟨[], resultOf "Hi", [], rfl, List.forall_mem_nil _, build_hi⟩

/-- A provider that answers in another's place, for the same model. -/
theorem reply_named_alpha :
    ∃ s t, (network "alpha").submit request = .ok s ∧ Delivered uncounted request.params s.heard (answerOf "Hi") t ∧
      modelIn (respond ⟨fun _ => [], fun _ => none⟩ [] (ofString "alpha") 0 (answerOf "Hi") .anthropic) = some t.model := by
  obtain ⟨hbuffered, -⟩ := @reply_named_iff ⟨fun _ => [], fun _ => none⟩ (network "alpha") uncounted request _ _
    line_alpha .anthropic [] 0
  obtain ⟨s, t, hs, ht, hiff⟩ := hbuffered _ _ (run_answered submit_alpha)
  exact ⟨s, t, hs, ht, hiff.mpr ⟨⟨1, lone "b" "alpha", ofString "alpha"⟩, rfl, rfl⟩⟩

/-- One that answers with another model. -/
theorem reply_misnamed : ¬ ∀ a named s t, (network "beta").run uncounted request = .ok (a, named) →
    (network "beta").submit request = .ok s → Delivered uncounted request.params s.heard a t →
    ∀ S shape id created, modelIn (respond S id named created a shape) = some t.model := by
  intro h
  have hnamed := h _ _ _ _ (run_answered submit_beta) submit_beta (delivered_answered "beta")
    ⟨fun _ => [], fun _ => none⟩ .anthropic [] 0
  rw [modelIn_respond] at hnamed
  revert hnamed
  decide

end Cases

end Rootmode.Gateway
