import Rootmode.Core.Job
import Rootmode.Core.Payments
import Rootmode.Lib.Record

namespace Rootmode.Protocol

open Lib Lib.Ieee Payments

abbrev Uuid := BitVec 128

/-- How a job id is written, and which texts are read as one. -/
structure UuidFormat where
  text : Uuid → Text
  parse : Text → Option Uuid
  parse_text : ∀ id, parse (text id) = some id

def UuidFormat.codec (U : UuidFormat) : Codec Uuid where
  encode id := .str (U.text id)
  decode
    | .str s => U.parse s
    | _ => none
  Fits _ := True
  Whole _ := True
  isValue _ := rfl
  decode_encode id _ _ := U.parse_text id
  fits _ _ _ := trivial
  stable j x h := by
    cases j with
    | str s => exact h
    | null | bool | num | arr | obj => nomatch h

def optionalText : FieldCodec (Option Text) := .optional .text rfl

structure ToolCall where
  id : Text
  name : Text
  arguments : Text

def ToolCall.codec : Codec ToolCall :=
  .record
    (.and "id" (.required .text) <| .and "name" (.required .text) <|
      .and "arguments" (.required .text) .done)
    (by decide)
    ⟨fun c => (c.id, c.name, c.arguments, ()), fun r => ⟨r.1, r.2.1, r.2.2.1⟩,
      fun _ => rfl, fun _ => rfl⟩

structure ToolDef where
  name : Text
  description : Option Text
  inputSchema : { j : Json // j.IsValue }

def ToolDef.codec : Codec ToolDef :=
  .record
    (.and "name" (.required .text) <| .and "description" optionalText <|
      .and "input_schema" (.required .any) .done)
    (by decide)
    ⟨fun d => (d.name, d.description, d.inputSchema, ()), fun r => ⟨r.1, r.2.1, r.2.2.1⟩,
      fun _ => rfl, fun _ => rfl⟩

structure ChatMessage where
  role : Text
  content : Text
  toolCalls : List ToolCall
  toolCallId : Option Text
  images : List Text

def ChatMessage.codec : Codec ChatMessage :=
  .record
    (.and "role" (.required .text) <| .and "content" (.required .text) <|
      .and "tool_calls" (.listed ToolCall.codec) <| .and "tool_call_id" optionalText <|
      .and "images" (.listed .text) .done)
    (by decide)
    ⟨fun m => (m.role, m.content, m.toolCalls, m.toolCallId, m.images, ()),
      fun r => ⟨r.1, r.2.1, r.2.2.1, r.2.2.2.1, r.2.2.2.2.1⟩, fun _ => rfl, fun _ => rfl⟩

structure LlmParams where
  modelHash : Option Text
  modelId : Option Text
  messages : List ChatMessage
  tools : List ToolDef
  maxTokens : ℕ
  temperature : Number binary32
  reasoningEffort : Option Text

def defaultMaxTokens : ℕ := 512

/-- `0.7`, to the nearest. -/
def defaultTemperature : Number binary32 :=
  .finite ⟨false, 11744051, -24, by decide, by decide, by decide, by decide⟩

def LlmParams.codec : Codec LlmParams :=
  .record
    (.and "model_hash" optionalText <| .and "model_id" optionalText <|
      .and "messages" (.required (.list ChatMessage.codec)) <|
      .and "tools" (.listed ToolDef.codec) <|
      .and "max_tokens" (.defaulted (.uint 32) defaultMaxTokens (by norm_num [Codec.uint, defaultMaxTokens])) <|
      .and "temperature" (.defaulted .float32 defaultTemperature trivial) <|
      .and "reasoning_effort" optionalText .done)
    (by decide)
    ⟨fun p => (p.modelHash, p.modelId, p.messages, p.tools, p.maxTokens, p.temperature,
        p.reasoningEffort, ()),
      fun r => ⟨r.1, r.2.1, r.2.2.1, r.2.2.2.1, r.2.2.2.2.1, r.2.2.2.2.2.1, r.2.2.2.2.2.2.1⟩,
      fun _ => rfl, fun _ => rfl⟩

structure ImageParams where
  modelHash : Option Text
  checkpointId : Option Text
  prompt : Text
  fromImage : Option Text
  change : Option (Number binary32)
  mask : Option Text

def ImageParams.codec : Codec ImageParams :=
  .record
    (.and "model_hash" optionalText <| .and "checkpoint_id" optionalText <|
      .and "prompt" (.required .text) <| .and "from_image" optionalText <|
      .and "change" (.optional .float32 rfl) <| .and "mask" optionalText .done)
    (by decide)
    ⟨fun p => (p.modelHash, p.checkpointId, p.prompt, p.fromImage, p.change, p.mask, ()),
      fun r => ⟨r.1, r.2.1, r.2.2.1, r.2.2.2.1, r.2.2.2.2.1, r.2.2.2.2.2.1⟩,
      fun _ => rfl, fun _ => rfl⟩

structure VideoParams where
  modelHash : Option Text
  checkpointId : Option Text
  prompt : Text
  fromImage : Option Text
  seconds : Option ℕ
  resolution : Option Text
  aspectRatio : Option Text
  audio : Option Bool

def VideoParams.codec : Codec VideoParams :=
  .record
    (.and "model_hash" optionalText <| .and "checkpoint_id" optionalText <|
      .and "prompt" (.required .text) <| .and "from_image" optionalText <|
      .and "seconds" (.optional (.uint 32) rfl) <| .and "resolution" optionalText <|
      .and "aspect_ratio" optionalText <| .and "audio" (.optional .bool rfl) .done)
    (by decide)
    ⟨fun p => (p.modelHash, p.checkpointId, p.prompt, p.fromImage, p.seconds, p.resolution,
        p.aspectRatio, p.audio, ()),
      fun r => ⟨r.1, r.2.1, r.2.2.1, r.2.2.2.1, r.2.2.2.2.1, r.2.2.2.2.2.1, r.2.2.2.2.2.2.1,
        r.2.2.2.2.2.2.2.1⟩,
      fun _ => rfl, fun _ => rfl⟩

inductive JobPayload
  | llm (params : LlmParams)
  | image (params : ImageParams)
  | video (params : VideoParams)

def kindText : JobKind → String
  | .llm => "llm"
  | .image => "image"
  | .video => "video"

/-- The kind a tag names.  Below the outermost tag a variant is also known by its index. -/
def kindOf : Json → Option JobKind
  | .str s =>
    if s = "llm".toList then some .llm
    else if s = "image".toList then some .image
    else if s = "video".toList then some .video
    else none
  | .num (.int n) =>
    if n = 0 then some .llm else if n = 1 then some .image else if n = 2 then some .video else none
  | _ => none

theorem kindOf_kindText (kind : JobKind) : kindOf (.str (kindText kind).toList) = some kind := by
  cases kind with
  | llm | image | video => rfl

theorem kindOf_value (t : Json) : kindOf t.value = kindOf t := by
  cases t with
  | null | bool | num | str | arr | obj => rfl

namespace JobPayload

def kind : JobPayload → JobKind
  | llm _ => .llm
  | image _ => .image
  | video _ => .video

/-- The payload without its kind. -/
def encodeParams : JobPayload → Json
  | llm p => LlmParams.codec.encode p
  | image p => ImageParams.codec.encode p
  | video p => VideoParams.codec.encode p

def decodeParams (rest : Json) : JobKind → Option JobPayload
  | .llm => (LlmParams.codec.decode rest).map llm
  | .image => (ImageParams.codec.decode rest).map image
  | .video => (VideoParams.codec.decode rest).map video

def encode (p : JobPayload) : Json := withTag "kind" (kindText p.kind) p.encodeParams

def decode (j : Json) : Option JobPayload := do
  let (tag, rest) ← splitTag "kind" j
  let kind ← kindOf tag
  decodeParams rest kind

def Fits : JobPayload → Prop
  | llm p => LlmParams.codec.Fits p
  | image p => ImageParams.codec.Fits p
  | video p => VideoParams.codec.Fits p

/-- No temperature or change is other than finite. -/
def Whole : JobPayload → Prop
  | llm p => LlmParams.codec.Whole p
  | image p => ImageParams.codec.Whole p
  | video p => VideoParams.codec.Whole p

theorem decode_some {j : Json} {p : JobPayload} (h : decode j = some p) :
    ∃ tag rest kind, splitTag "kind" j = some (tag, rest) ∧ kindOf tag = some kind ∧
      decodeParams rest kind = some p := by
  obtain ⟨⟨tag, rest⟩, hsplit, hrest⟩ := Option.bind_eq_some_iff.mp h
  obtain ⟨kind, hkind, hparams⟩ := Option.bind_eq_some_iff.mp hrest
  exact ⟨tag, rest, kind, hsplit, hkind, hparams⟩

theorem encodeParams_obj (p : JobPayload) :
    ∃ es, p.encodeParams = .obj es ∧ Entries.Ordered es ∧ "kind" ∉ Entries.keys es ∧
      (Json.obj es).IsValue := by
  have hne : ∀ {names : List String}, "kind" ∉ names → ∀ es : List (String × Json),
      (∀ k ∈ Entries.keys es, k ∈ names) → "kind" ∉ Entries.keys es :=
    fun hnot es hsub hmem => hnot (hsub _ hmem)
  cases p with
  | llm p =>
    obtain ⟨es, hes, hord, hkeys⟩ := Codec.record_encode _ _ _ p
    exact ⟨es, hes, hord, hne (by decide) es hkeys, hes ▸ LlmParams.codec.isValue p⟩
  | image p =>
    obtain ⟨es, hes, hord, hkeys⟩ := Codec.record_encode _ _ _ p
    exact ⟨es, hes, hord, hne (by decide) es hkeys, hes ▸ ImageParams.codec.isValue p⟩
  | video p =>
    obtain ⟨es, hes, hord, hkeys⟩ := Codec.record_encode _ _ _ p
    exact ⟨es, hes, hord, hne (by decide) es hkeys, hes ▸ VideoParams.codec.isValue p⟩

theorem decodeParams_encodeParams {p : JobPayload} (hfits : p.Fits) (hwhole : p.Whole) :
    decodeParams p.encodeParams p.kind = some p := by
  cases p with
  | llm p => exact congrArg (Option.map llm) (LlmParams.codec.decode_encode p hfits hwhole)
  | image p => exact congrArg (Option.map image) (ImageParams.codec.decode_encode p hfits hwhole)
  | video p => exact congrArg (Option.map video) (VideoParams.codec.decode_encode p hfits hwhole)

theorem decodeParams_fits {rest : Json} {kind : JobKind} {p : JobPayload}
    (h : decodeParams rest kind = some p) : p.Fits := by
  cases kind with
  | llm =>
    obtain ⟨x, hx, rfl⟩ := Option.map_eq_some_iff.mp h
    exact LlmParams.codec.fits rest x hx
  | image =>
    obtain ⟨x, hx, rfl⟩ := Option.map_eq_some_iff.mp h
    exact ImageParams.codec.fits rest x hx
  | video =>
    obtain ⟨x, hx, rfl⟩ := Option.map_eq_some_iff.mp h
    exact VideoParams.codec.fits rest x hx

theorem decodeParams_value {rest : Json} {kind : JobKind} {p : JobPayload}
    (h : decodeParams rest kind = some p) : decodeParams rest.value kind = some p := by
  cases kind with
  | llm =>
    obtain ⟨x, hx, rfl⟩ := Option.map_eq_some_iff.mp h
    exact congrArg (Option.map llm) (LlmParams.codec.stable rest x hx)
  | image =>
    obtain ⟨x, hx, rfl⟩ := Option.map_eq_some_iff.mp h
    exact congrArg (Option.map image) (ImageParams.codec.stable rest x hx)
  | video =>
    obtain ⟨x, hx, rfl⟩ := Option.map_eq_some_iff.mp h
    exact congrArg (Option.map video) (VideoParams.codec.stable rest x hx)

/-- A payload is an object that says its kind among its fields. -/
def codec : Codec JobPayload where
  encode := encode
  decode := decode
  Fits := Fits
  Whole := Whole
  isValue p := by
    obtain ⟨es, hes, hord, -, hvalue⟩ := p.encodeParams_obj
    rw [encode, hes]
    exact isValue_withTag hord hvalue
  decode_encode p hfits hwhole := by
    obtain ⟨es, hes, hord, hnew, -⟩ := p.encodeParams_obj
    have hsplit : splitTag "kind" p.encode = some (.str (kindText p.kind).toList, p.encodeParams) := by
      rw [encode, hes]
      exact splitTag_withTag hord hnew
    rw [decode, hsplit, Option.bind_eq_bind, Option.bind_some]
    dsimp only
    rw [kindOf_kindText, Option.bind_eq_bind, Option.bind_some]
    exact decodeParams_encodeParams hfits hwhole
  fits j p h := by
    obtain ⟨tag, rest, kind, -, -, hparams⟩ := decode_some h
    exact decodeParams_fits hparams
  stable j p h := by
    obtain ⟨tag, rest, kind, hsplit, hkind, hparams⟩ := decode_some h
    rw [decode, splitTag_value hsplit, Option.bind_eq_bind, Option.bind_some]
    dsimp only
    rw [kindOf_value, hkind, Option.bind_eq_bind, Option.bind_some]
    exact decodeParams_value hparams

end JobPayload

def spendingAuthCodec : Codec SpendingAuth :=
  .record
    (.and "channel_id" (.required .text) <| .and "client" (.required .text) <|
      .and "cumulative" (.required (.uint 64)) <| .and "metadata_hash" (.required .text) <|
      .and "sig" optionalText .done)
    (by decide)
    ⟨fun a => (a.channelId, a.client, a.cumulative, a.metadataHash, a.sig, ()),
      fun r => ⟨r.1, r.2.1, r.2.2.1, r.2.2.2.1, r.2.2.2.2.1⟩, fun _ => rfl, fun _ => rfl⟩

def reserveTicketCodec : Codec ReserveTicket :=
  .record
    (.and "client" (.required .text) <| .and "worker_payout" (.required .text) <|
      .and "max_amount" (.required (.uint 64)) <| .and "deadline" (.required (.uint 64)) .done)
    (by decide)
    ⟨fun t => (t.client, t.workerPayout, t.maxAmount, t.deadline, ()),
      fun r => ⟨r.1, r.2.1, r.2.2.1, r.2.2.2.1⟩, fun _ => rfl, fun _ => rfl⟩

def spendTicketCodec : Codec SpendTicket :=
  .record
    (.and "client" (.required .text) <| .and "worker_payout" (.required .text) <|
      .and "cumulative" (.required (.uint 64)) <| .and "deadline" (.required (.uint 64)) .done)
    (by decide)
    ⟨fun t => (t.client, t.workerPayout, t.cumulative, t.deadline, ()),
      fun r => ⟨r.1, r.2.1, r.2.2.1, r.2.2.2.1⟩, fun _ => rfl, fun _ => rfl⟩

def protocolVersion : ℕ := 1

def version : FieldCodec ℕ :=
  .defaulted (.uint 32) protocolVersion (by norm_num [Codec.uint, protocolVersion])

variable (U : UuidFormat)

/-- The client's signed spend ticket for one job. -/
structure JobPay where
  v : ℕ
  jobId : Uuid
  ticket : SpendTicket
  sig : Text

def JobPay.codec : Codec JobPay :=
  .record
    (.and "v" version <| .and "job_id" (.required U.codec) <|
      .and "ticket" (.required spendTicketCodec) <| .and "sig" (.required .text) .done)
    (by simp [Fields.names])
    ⟨fun p => (p.v, p.jobId, p.ticket, p.sig, ()),
      fun r => ⟨r.1, r.2.1, r.2.2.1, r.2.2.2.1⟩, fun _ => rfl, fun _ => rfl⟩

structure ReservePost where
  ticket : ReserveTicket
  sig : Text

def ReservePost.codec : Codec ReservePost :=
  .record
    (.and "ticket" (.required reserveTicketCodec) <| .and "sig" (.required .text) .done)
    (by decide)
    ⟨fun p => (p.ticket, p.sig, ()), fun r => ⟨r.1, r.2.1⟩, fun _ => rfl, fun _ => rfl⟩

structure JobSubmit where
  v : ℕ
  jobId : Uuid
  from_ : Text
  payload : JobPayload
  sig : Option Text
  spend : Option SpendingAuth
  payer : Option Text
  bond : Option JobPay
  reserve : Option ReservePost

def JobSubmit.codec : Codec JobSubmit :=
  .record
    (.and "v" version <| .and "job_id" (.required U.codec) <| .and "from" (.required .text) <|
      .and "payload" (.required JobPayload.codec) <| .and "sig" optionalText <|
      .and "spend" (.optional spendingAuthCodec rfl) <| .and "payer" optionalText <|
      .and "bond" (.optional (JobPay.codec U) rfl) <|
      .and "reserve" (.optional ReservePost.codec rfl) .done)
    (by simp [Fields.names])
    ⟨fun s => (s.v, s.jobId, s.from_, s.payload, s.sig, s.spend, s.payer, s.bond, s.reserve, ()),
      fun r => ⟨r.1, r.2.1, r.2.2.1, r.2.2.2.1, r.2.2.2.2.1, r.2.2.2.2.2.1, r.2.2.2.2.2.2.1,
        r.2.2.2.2.2.2.2.1, r.2.2.2.2.2.2.2.2.1⟩,
      fun _ => rfl, fun _ => rfl⟩

structure JobCancel where
  jobId : Uuid

def JobCancel.codec : Codec JobCancel :=
  .record (.and "job_id" (.required U.codec) .done) (by simp [Fields.names])
    ⟨fun c => (c.jobId, ()), fun r => ⟨r.1⟩, fun _ => rfl, fun _ => rfl⟩

structure PeerHello where
  v : ℕ
  peerId : Text

def PeerHello.codec : Codec PeerHello :=
  .record (.and "v" version <| .and "peer_id" (.required .text) .done) (by decide)
    ⟨fun h => (h.v, h.peerId, ()), fun r => ⟨r.1, r.2.1⟩, fun _ => rfl, fun _ => rfl⟩

end Rootmode.Protocol
