import Rootmode.Gateway.Events

namespace Rootmode.Gateway

open Lib Lib.Text Lib.Json Protocol Desktop

inductive Shape
  | anthropic | openAi | responses
  deriving DecidableEq

inductive FrameData
  | json (v : Json)
  | raw (s : String)

/-- The name of an event, where its dialect has one, and its data. -/
abbrev Frame := Option String × FrameData

def wrap (e : Event) : Frame := (some e.1, .json e.2)

/-- What stays the same over a stream. -/
structure Call where
  shape : Shape
  served : Text
  id : Text
  created : ℤ
  params : Protocol.LlmParams

structure LiveState where
  /-- The frames of the stream up to here. -/
  pending : List Frame := []
  raw : Text := []
  emitted : ℕ := 0
  textIndex : Option ℕ := none
  done : Bool := false
  seq : ℕ := 0

/-- Why a stream ends whose messages do. -/
def Runner.closed : Runner → String
  | .finished => "provider closed the connection without answering"
  | .refused e => e.text
  | .panicked e => s!"provider task failed: {e}"

namespace LiveState

def push (st : LiveState) (frames : List Frame) : LiveState := { st with pending := st.pending ++ frames }

def pushNumbered (st : LiveState) (e : Event) : LiveState :=
  { st with
    seq := st.seq + 1
    pending := st.pending ++ [wrap (e.1, e.2.insert "sequence_number" (count (st.seq + 1)))] }

def pushResponses (st : LiveState) (events : List Event) : LiveState := events.foldl pushNumbered st

variable (C : Call) (M : Measures) (runner : Runner)

def pushError (st : LiveState) (message : String) : LiveState :=
  match C.shape with
  | .anthropic => st.push [wrap (anthropicLiveError message)]
  | .openAi => st.push [(none, .json (openaiLiveError message))]
  | .responses => st.pushResponses [responsesLiveError message]

/-- The stream as it opens. -/
def start : LiveState :=
  match C.shape with
  | .anthropic => push {} [wrap (anthropicLiveStart C.id C.served)]
  | .openAi => push {} [(none, .json (openaiLiveStart C.id C.served C.created))]
  | .responses => pushResponses {}
      [responsesLiveStart C.id C.served C.created, responsesLiveInProgress C.id C.served C.created]

/-- A piece of the text goes out. -/
def say (st : LiveState) (fresh : Text) : LiveState :=
  match C.shape with
  | .anthropic =>
    let st := match st.textIndex with
      | none => { st with textIndex := some 0 }.push [wrap (anthropicLiveTextStart 0)]
      | some _ => st
    st.push [wrap (anthropicLiveTextDelta 0 fresh)]
  | .openAi => st.push [(none, .json (openaiLiveDelta C.id C.served C.created fresh))]
  | .responses =>
    let st := match st.textIndex with
      | none => { st with textIndex := some 0 }.pushResponses (responsesLiveTextStart C.id)
      | some _ => st
    st.pushResponses [responsesLiveDelta C.id fresh]

def finish (st : LiveState) (a : Answer) : LiveState :=
  match C.shape with
  | .anthropic => st.push ((anthropicLiveEnd a st.textIndex).map wrap)
  | .openAi => (st.push ((openaiLiveEnd C.id C.served C.created a).map fun v => (none, .json v))).push
      [(none, .raw "[DONE]")]
  | .responses => st.pushResponses
      (responsesLiveEnd C.id C.served C.created a st.textIndex.isSome)

/-- What the text is longer by than what has gone out of it; nothing where that ends within a
character. -/
def fresh (st : LiveState) (peeled : Text) : Option Text :=
  if st.emitted < byteLen peeled then dropBytes st.emitted peeled else none

def onDelta (st : LiveState) (text : Text) : LiveState :=
  let raw := st.raw ++ text
  let peeled := peelThinking raw
  match st.fresh peeled with
  | some fresh => { st with raw, emitted := byteLen peeled }.say C fresh
  | none => { st with raw }

def onResult (st : LiveState) (r : JobResult) : LiveState :=
  match buildAnswer M C.params r with
  | .ok a => st.finish C a
  | .error e => st.pushError C e.text

/-- The next message, or that there is none. -/
def recv (st : LiveState) : Option WorkerMessage → LiveState
  | some (.delta text) => st.onDelta C text
  | some (.result r) => { st.onResult C M r with done := true }
  | some (.failed error) =>
    { st.pushError C (error.getD "provider failed the job") with done := true }
  | some .other => st
  | none => { st.pushError C runner.closed with done := true }

def drain : LiveState → List WorkerMessage → LiveState
  | st, [] => st.recv C M runner none
  | st, msg :: msgs =>
    let st := st.recv C M runner (some msg)
    if st.done then st else drain st msgs

end LiveState

/-- The frames of a stream. -/
def streamAnswer (C : Call) (M : Measures) (msgs : List WorkerMessage) (runner : Runner) : List Frame :=
  ((LiveState.start C).drain C M runner msgs).pending

end Rootmode.Gateway
