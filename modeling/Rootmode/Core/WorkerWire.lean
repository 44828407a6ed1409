import Rootmode.Core.Messages

namespace Rootmode.WorkerWire

open Lib Lib.Ieee Lib.Checked Protocol

inductive JobStatus
  | queued | running | done | failed
  deriving DecidableEq

def statusText : JobStatus → String
  | .queued => "queued"
  | .running => "running"
  | .done => "done"
  | .failed => "failed"

def statusOf (s : Text) : Option JobStatus :=
  if s = "queued".toList then some .queued
  else if s = "running".toList then some .running
  else if s = "done".toList then some .done
  else if s = "failed".toList then some .failed
  else none

theorem statusOf_statusText (status : JobStatus) : statusOf (statusText status).toList = some status := by
  cases status with
  | queued | running | done | failed => rfl

def JobStatus.codec : Codec JobStatus := .variant statusText statusOf statusOf_statusText

def jobKindCodec : Codec JobKind := .variant kindText (fun s => kindOf (.str s)) kindOf_kindText

/-- Whether clips have sound, and whether that is up to the client. -/
inductive AudioOffer
  | never | always | optional
  deriving DecidableEq

def audioText : AudioOffer → String
  | .never => "never"
  | .always => "always"
  | .optional => "optional"

def audioOf (s : Text) : Option AudioOffer :=
  if s = "never".toList then some .never
  else if s = "always".toList then some .always
  else if s = "optional".toList then some .optional
  else none

theorem audioOf_audioText (audio : AudioOffer) : audioOf (audioText audio).toList = some audio := by
  cases audio with
  | never | always | optional => rfl

def AudioOffer.codec : Codec AudioOffer := .variant audioText audioOf audioOf_audioText

/-- What an operator asks for a model, as it is written. -/
structure Price where
  amount : Number binary64
  currency : Text
  input : Option (Number binary64)
  output : Option (Number binary64)
  cache : Option (Number binary64)
  cacheWrite : Option (Number binary64)

def defaultCurrency : Text := "USD".toList

def rate : FieldCodec (Option (Number binary64)) := .optional .float64 rfl

def Price.codec : Codec Price :=
  .record
    (.and "amount" (.required .float64) <| .and "currency" (.defaulted .text defaultCurrency trivial) <|
      .and "input" rate <| .and "output" rate <| .and "cache" rate <| .and "cache_write" rate .done)
    (by decide)
    ⟨fun p => (p.amount, p.currency, p.input, p.output, p.cache, p.cacheWrite, ()),
      fun r => ⟨r.1, r.2.1, r.2.2.1, r.2.2.2.1, r.2.2.2.2.1, r.2.2.2.2.2.1⟩, fun _ => rfl, fun _ => rfl⟩

structure VideoRate where
  resolution : Option Text
  audio : Bool
  fromImage : Bool
  usdPerSecond : Number binary64
  minimumUsd : Number binary64

def VideoRate.codec : Codec VideoRate :=
  .record
    (.and "resolution" optionalText <| .and "audio" (.required .bool) <| .and "from_image" (.required .bool) <|
      .and "usd_per_second" (.required .float64) <|
      .and "minimum_usd" (.defaulted .float64 (.ofInt binary64 0) trivial) .done)
    (by decide)
    ⟨fun r => (r.resolution, r.audio, r.fromImage, r.usdPerSecond, r.minimumUsd, ()),
      fun r => ⟨r.1, r.2.1, r.2.2.1, r.2.2.2.1, r.2.2.2.2.1⟩, fun _ => rfl, fun _ => rfl⟩

/-- A list that is written even when it is empty. -/
def shelf {α : Type} (c : Codec α) : FieldCodec (List α) := .defaulted c.list [] fun _ hx => nomatch hx

structure VideoOffer where
  durations : List ℕ
  defaultSeconds : ℕ
  resolutions : List Text
  defaultResolution : Option Text
  aspectRatios : List Text
  defaultAspect : Option Text
  audio : AudioOffer
  firstFrame : Bool
  rates : List VideoRate

def VideoOffer.codec : Codec VideoOffer :=
  .record
    (.and "durations" (shelf (.uint 32)) <| .and "default_seconds" (.required (.uint 32)) <|
      .and "resolutions" (shelf .text) <| .and "default_resolution" optionalText <|
      .and "aspect_ratios" (shelf .text) <| .and "default_aspect" optionalText <|
      .and "audio" (.required AudioOffer.codec) <| .and "first_frame" (.defaulted .bool true trivial) <|
      .and "rates" (.required (.list VideoRate.codec)) .done)
    (by decide)
    ⟨fun o => (o.durations, o.defaultSeconds, o.resolutions, o.defaultResolution, o.aspectRatios, o.defaultAspect,
        o.audio, o.firstFrame, o.rates, ()),
      fun r => ⟨r.1, r.2.1, r.2.2.1, r.2.2.2.1, r.2.2.2.2.1, r.2.2.2.2.2.1, r.2.2.2.2.2.2.1, r.2.2.2.2.2.2.2.1,
        r.2.2.2.2.2.2.2.2.1⟩,
      fun _ => rfl, fun _ => rfl⟩

structure ModelDescriptor where
  id : Text
  sha256 : Option Text
  kind : JobKind
  price : Option Price
  video : Option VideoOffer

def ModelDescriptor.codec : Codec ModelDescriptor :=
  .record
    (.and "id" (.required .text) <| .and "sha256" optionalText <| .and "kind" (.required jobKindCodec) <|
      .and "price" (.optional Price.codec rfl) <| .and "video" (.optional VideoOffer.codec rfl) .done)
    (by decide)
    ⟨fun m => (m.id, m.sha256, m.kind, m.price, m.video, ()),
      fun r => ⟨r.1, r.2.1, r.2.2.1, r.2.2.2.1, r.2.2.2.2.1⟩, fun _ => rfl, fun _ => rfl⟩

structure PeerAnnounce where
  v : ℕ
  peerId : Text
  label : Option Text
  country : Option Text
  caps : List Text
  models : List ModelDescriptor
  maxConcurrent : ℕ
  payout : Option Text

def defaultMaxConcurrent : ℕ := 1

theorem fits_defaultMaxConcurrent : (Codec.uint 32).Fits defaultMaxConcurrent := show 1 < 2 ^ 32 by norm_num

def PeerAnnounce.codec : Codec PeerAnnounce :=
  .record
    (.and "v" version <| .and "peer_id" (.required .text) <| .and "label" optionalText <|
      .and "country" optionalText <| .and "caps" (shelf .text) <| .and "models" (shelf ModelDescriptor.codec) <|
      .and "max_concurrent" (.defaulted (.uint 32) defaultMaxConcurrent fits_defaultMaxConcurrent) <|
      .and "payout" optionalText .done)
    (by decide)
    ⟨fun a => (a.v, a.peerId, a.label, a.country, a.caps, a.models, a.maxConcurrent, a.payout, ()),
      fun r => ⟨r.1, r.2.1, r.2.2.1, r.2.2.2.1, r.2.2.2.2.1, r.2.2.2.2.2.1, r.2.2.2.2.2.2.1, r.2.2.2.2.2.2.2.1⟩,
      fun _ => rfl, fun _ => rfl⟩

variable (U : UuidFormat) (S : SerdeJson)

structure JobStatusUpdate where
  v : ℕ
  jobId : Uuid
  status : JobStatus
  progress : Number binary32
  error : Option Text

theorem text_null : Codec.text.decode .null = none := rfl

def JobStatusUpdate.codec : Codec JobStatusUpdate :=
  .record
    (.and "v" version <| .and "job_id" (.required U.codec) <| .and "status" (.required JobStatus.codec) <|
      .and "progress" (.defaulted .float32 (.ofInt binary32 0) trivial) <|
      .and "error" (.nullable .text text_null) .done)
    (by simp [Fields.names])
    ⟨fun u => (u.v, u.jobId, u.status, u.progress, u.error, ()),
      fun r => ⟨r.1, r.2.1, r.2.2.1, r.2.2.2.1, r.2.2.2.2.1⟩, fun _ => rfl, fun _ => rfl⟩

structure JobResult where
  v : ℕ
  jobId : Uuid
  kind : JobKind
  sha256 : Text
  text : Option Text
  toolCalls : List ToolCall
  imagePathOrB64 : Option Text
  thinking : Option Text
  meta_ : { j : Json // j.IsValue }

def JobResult.codec : Codec JobResult :=
  .record
    (.and "v" version <| .and "job_id" (.required U.codec) <| .and "kind" (.required jobKindCodec) <|
      .and "sha256" (.required .text) <| .and "text" optionalText <| .and "tool_calls" (.listed ToolCall.codec) <|
      .and "image_path_or_b64" optionalText <| .and "thinking" optionalText <|
      .and "meta" (.defaulted .any ⟨.null, rfl⟩ trivial) .done)
    (by simp [Fields.names])
    ⟨fun r => (r.v, r.jobId, r.kind, r.sha256, r.text, r.toolCalls, r.imagePathOrB64, r.thinking, r.meta_, ()),
      fun r => ⟨r.1, r.2.1, r.2.2.1, r.2.2.2.1, r.2.2.2.2.1, r.2.2.2.2.2.1, r.2.2.2.2.2.2.1, r.2.2.2.2.2.2.2.1,
        r.2.2.2.2.2.2.2.2.1⟩,
      fun _ => rfl, fun _ => rfl⟩

structure JobDelta where
  v : ℕ
  jobId : Uuid
  text : Text
  thinking : Text

def JobDelta.codec : Codec JobDelta :=
  .record
    (.and "v" version <| .and "job_id" (.required U.codec) <| .and "text" .unlessEmpty <|
      .and "thinking" .unlessEmpty .done)
    (by simp [Fields.names])
    ⟨fun d => (d.v, d.jobId, d.text, d.thinking, ()), fun r => ⟨r.1, r.2.1, r.2.2.1, r.2.2.2.1⟩,
      fun _ => rfl, fun _ => rfl⟩

structure JobInvoice where
  v : ℕ
  jobId : Uuid
  amount : ℕ
  sha256 : Text
  promptTokens : ℕ
  completionTokens : ℕ
  cachedTokens : ℕ
  topUp : Bool

def tokens : FieldCodec ℕ := .defaulted (.uint 64) 0 (by norm_num [Codec.uint])

def JobInvoice.codec : Codec JobInvoice :=
  .record
    (.and "v" version <| .and "job_id" (.required U.codec) <| .and "amount" (.required (.uint 64)) <|
      .and "sha256" (.required .text) <| .and "prompt_tokens" tokens <| .and "completion_tokens" tokens <|
      .and "cached_tokens" tokens <| .and "top_up" (.defaulted .bool false trivial) .done)
    (by simp [Fields.names])
    ⟨fun i => (i.v, i.jobId, i.amount, i.sha256, i.promptTokens, i.completionTokens, i.cachedTokens, i.topUp, ()),
      fun r => ⟨r.1, r.2.1, r.2.2.1, r.2.2.2.1, r.2.2.2.2.1, r.2.2.2.2.2.1, r.2.2.2.2.2.2.1, r.2.2.2.2.2.2.2.1⟩,
      fun _ => rfl, fun _ => rfl⟩

/-- What a worker sends a client. -/
inductive WorkerMessage
  | jobStatus (m : JobStatusUpdate)
  | jobResult (m : JobResult)
  | jobDelta (m : JobDelta)
  | peerAnnounce (m : PeerAnnounce)
  | jobInvoice (m : JobInvoice)
  | unknown

namespace WorkerMessage

def encode : WorkerMessage → Json
  | jobStatus m => withTag "type" "job.status" ((JobStatusUpdate.codec U).encode m)
  | jobResult m => withTag "type" "job.result" ((JobResult.codec U).encode m)
  | jobDelta m => withTag "type" "job.delta" ((JobDelta.codec U).encode m)
  | peerAnnounce m => withTag "type" "peer.announce" (PeerAnnounce.codec.encode m)
  | jobInvoice m => withTag "type" "job.invoice" ((JobInvoice.codec U).encode m)
  | unknown => withTag "type" "Unknown" (.obj [])

def decodeAs (rest : Json) (variant : Text) : Option WorkerMessage :=
  if variant = "job.status".toList then ((JobStatusUpdate.codec U).decode rest).map jobStatus
  else if variant = "job.result".toList then ((JobResult.codec U).decode rest).map jobResult
  else if variant = "job.delta".toList then ((JobDelta.codec U).decode rest).map jobDelta
  else if variant = "peer.announce".toList then (PeerAnnounce.codec.decode rest).map peerAnnounce
  else if variant = "job.invoice".toList then ((JobInvoice.codec U).decode rest).map jobInvoice
  else some unknown

def decode (tree : Json) : Option WorkerMessage :=
  match splitTag "type" tree with
  | some (.str variant, rest) => decodeAs U rest variant
  | _ => none

def checkVersions : WorkerMessage → Except CoreError Unit
  | jobStatus m => checkVersion m.v
  | jobResult m => checkVersion m.v
  | jobDelta m => checkVersion m.v
  | peerAnnounce m => checkVersion m.v
  | jobInvoice m => checkVersion m.v
  | unknown => .ok ⟨⟩

/-- A message of a known type with another version or a malformed body is refused, one of another type is not. -/
def parse (raw : Text) : Except CoreError WorkerMessage := do
  require ((Hex.utf8 raw).length ≤ maxMessageBytes) (.invalid s!"message exceeds {maxMessageBytes} bytes")
  let tree ← demand (S.fromStr raw) .json
  let msg ← demand (decode U tree) .json
  msg.checkVersions
  return msg

end WorkerMessage

section Frees

theorem frees_status : (JobStatusUpdate.codec U).Frees "type" := Codec.frees_record _ _ _ (by simp [Fields.names])

theorem frees_result : (JobResult.codec U).Frees "type" := Codec.frees_record _ _ _ (by simp [Fields.names])

theorem frees_delta : (JobDelta.codec U).Frees "type" := Codec.frees_record _ _ _ (by simp [Fields.names])

theorem frees_announce : PeerAnnounce.codec.Frees "type" := Codec.frees_record _ _ _ (by simp [Fields.names])

theorem frees_invoice : (JobInvoice.codec U).Frees "type" := Codec.frees_record _ _ _ (by simp [Fields.names])

end Frees

namespace WorkerMessage

variable {U S} {m : WorkerMessage}

def Fits (U : UuidFormat) : WorkerMessage → Prop
  | jobStatus m => (JobStatusUpdate.codec U).Fits m
  | jobResult m => (JobResult.codec U).Fits m
  | jobDelta m => (JobDelta.codec U).Fits m
  | peerAnnounce m => PeerAnnounce.codec.Fits m
  | jobInvoice m => (JobInvoice.codec U).Fits m
  | unknown => True

def Whole (U : UuidFormat) : WorkerMessage → Prop
  | jobStatus m => (JobStatusUpdate.codec U).Whole m
  | jobResult m => (JobResult.codec U).Whole m
  | jobDelta m => (JobDelta.codec U).Whole m
  | peerAnnounce m => PeerAnnounce.codec.Whole m
  | jobInvoice m => (JobInvoice.codec U).Whole m
  | unknown => True

theorem decode_encode (hfits : m.Fits U) (hwhole : m.Whole U) : decode U (encode U m) = some m := by
  cases m with
  | jobStatus m =>
    rw [encode, decode, (frees_status U).splitTag]
    dsimp only
    rw [decodeAs, if_pos rfl, (JobStatusUpdate.codec U).decode_encode m hfits hwhole]
    rfl
  | jobResult m =>
    rw [encode, decode, (frees_result U).splitTag]
    dsimp only
    rw [decodeAs, if_neg (by decide), if_pos rfl, (JobResult.codec U).decode_encode m hfits hwhole]
    rfl
  | jobDelta m =>
    rw [encode, decode, (frees_delta U).splitTag]
    dsimp only
    rw [decodeAs, if_neg (by decide), if_neg (by decide), if_pos rfl, (JobDelta.codec U).decode_encode m hfits hwhole]
    rfl
  | peerAnnounce m =>
    rw [encode, decode, frees_announce.splitTag]
    dsimp only
    rw [decodeAs, if_neg (by decide), if_neg (by decide), if_neg (by decide), if_pos rfl,
      PeerAnnounce.codec.decode_encode m hfits hwhole]
    rfl
  | jobInvoice m =>
    rw [encode, decode, (frees_invoice U).splitTag]
    dsimp only
    rw [decodeAs, if_neg (by decide), if_neg (by decide), if_neg (by decide), if_neg (by decide), if_pos rfl,
      (JobInvoice.codec U).decode_encode m hfits hwhole]
    rfl
  | unknown => rfl

/-- A message that can go over the wire. -/
structure Sendable (U : UuidFormat) (S : SerdeJson) (m : WorkerMessage) : Prop where
  fits : m.Fits U
  whole : m.Whole U
  versions : m.checkVersions = .ok ⟨⟩
  short : (Hex.utf8 (wireJson S (encode U m))).length ≤ maxMessageBytes
  reads : S.ReadsBack (encode U m)

theorem Sendable.parse (h : m.Sendable U S) : parse U S (wireJson S (encode U m)) = .ok m :=
  parse_eq_ok h.short h.reads (decode_encode h.fits h.whole) h.versions

end WorkerMessage

end Rootmode.WorkerWire
