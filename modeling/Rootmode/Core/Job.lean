import Rootmode.Core.Price
import Rootmode.Lib.Text

namespace Rootmode

open Lib Lib.Text

inductive JobKind
  | llm | image | video
  deriving DecidableEq

structure LlmParams where
  modelHash : Option Text := none
  modelId : Option Text := none
  /-- What the messages and tools of the request measure at, in tokens. -/
  promptTokens : ℕ
  maxTokens : ℕ := 512
  deriving DecidableEq

structure ImageParams where
  modelHash : Option Text := none
  checkpointId : Option Text := none
  deriving DecidableEq

structure VideoParams where
  modelHash : Option Text := none
  checkpointId : Option Text := none
  fromImage : Option Text := none
  seconds : Option ℕ := none
  resolution : Option Text := none
  aspectRatio : Option Text := none
  audio : Option Bool := none
  deriving DecidableEq

inductive JobPayload
  | llm (params : LlmParams)
  | image (params : ImageParams)
  | video (params : VideoParams)
  deriving DecidableEq

def JobPayload.kind : JobPayload → JobKind
  | .llm _ => .llm
  | .image _ => .image
  | .video _ => .video

/-- Whether a provider's clips have sound, and whether that is up to the client. -/
inductive AudioOffer
  | never | always | optional
  deriving DecidableEq

structure VideoRate where
  resolution : Option Text
  audio : Bool
  fromImage : Bool
  usdPerSecond : ℚ
  minimumUsd : ℚ
  deriving DecidableEq

/-- The menu for a video model. -/
structure VideoOffer where
  durations : List ℕ
  defaultSeconds : ℕ
  resolutions : List Text
  defaultResolution : Option Text
  aspectRatios : List Text
  defaultAspect : Option Text
  audio : AudioOffer
  firstFrame : Bool
  rates : List VideoRate
  deriving DecidableEq

structure VideoShape where
  seconds : ℕ
  resolution : Option Text
  aspectRatio : Option Text
  audio : Bool
  fromImage : Bool
  deriving DecidableEq

def listOf (items : List String) : String := String.intercalate ", " items

namespace VideoOffer

variable (o : VideoOffer)

def secondsFor (p : VideoParams) : Except String ℕ :=
  let seconds := p.seconds.getD o.defaultSeconds
  let default := o.defaultSeconds
  let offered := listOf (o.durations.map toString)
  if o.durations ≠ [] then
    if seconds ∈ o.durations then .ok seconds
    else .error s!"{seconds} s is not offered; this model makes {offered} s clips"
  else if seconds ≠ default then .error s!"this model only makes {default} s clips"
  else .ok seconds

/-- The entry of a menu a choice names, the default when there is no choice. -/
def choose (what : String) (same : Text → Text → Bool) (menu : List Text) (default : Option Text) :
    Option Text → Except String (Option Text)
  | none => .ok default
  | some want =>
    let shown := want.str
    let offered := listOf (menu.map Text.str)
    match menu.find? (same · want) with
    | some found => .ok (some found)
    | none =>
      if menu = [] then .error s!"this model offers no choice of {what}"
      else .error s!"{shown} is not offered; this model makes {offered}"

def audioFor (p : VideoParams) : Except String Bool :=
  match o.audio with
  | .never => if p.audio = some true then .error "this model makes silent clips" else .ok false
  | .always =>
    if p.audio = some false then .error "sound cannot be switched off on this model" else .ok true
  | .optional => .ok (p.audio.getD false)

/-- The shape a request resolves to: its own choices, and the offer's defaults where it made
none. -/
def shapeFor (p : VideoParams) : Except String VideoShape := do
  let seconds ← o.secondsFor p
  let resolution ← choose "resolution" eqIgnoreAsciiCase o.resolutions o.defaultResolution p.resolution
  let aspectRatio ← choose "aspect ratio" (· == ·) o.aspectRatios o.defaultAspect p.aspectRatio
  let audio ← o.audioFor p
  let fromImage := p.fromImage.any fun s => trim s ≠ []
  if fromImage && !o.firstFrame then .error "this model cannot start from a picture"
  else return { seconds, resolution, aspectRatio, audio, fromImage }

def fits (shape : VideoShape) (r : VideoRate) : Bool :=
  r.audio == shape.audio &&
    match r.resolution, shape.resolution with
    | some a, some b => eqIgnoreAsciiCase a b
    | none, _ => true
    | some _, none => false

/-- The dearest of a list, the earliest of equals. -/
def dearest (rates : List VideoRate) : Option VideoRate :=
  rates.foldl (fun best r =>
    match best with
    | some m => if r.usdPerSecond ≤ m.usdPerSecond then some m else some r
    | none => some r) none

/-- The rate for a shape, by preference one that knows of its first frame. -/
def rateFor (shape : VideoShape) : Option VideoRate :=
  let fitting := o.rates.filter (fits shape)
  (dearest (fitting.filter fun r => r.fromImage == shape.fromImage)).or (dearest fitting)

def quoteUsd (shape : VideoShape) : Option ℚ :=
  (o.rateFor shape).map fun rate =>
    ceilCents (max (rate.usdPerSecond * shape.seconds) rate.minimumUsd)

end VideoOffer

/-- What a peer advertises of one model. -/
structure ModelDescriptor where
  id : Text
  sha256 : Option Text := none
  kind : JobKind
  price : Option Price := none
  video : Option VideoOffer := none
  deriving DecidableEq

/-- What a model counts as in a ranking.  Unpriced is free. -/
def ModelDescriptor.amount (m : ModelDescriptor) : ℚ :=
  (m.price.map fun p => ceilCents (max p.amount p.maxRate)).getD 0

theorem ModelDescriptor.amount_nonneg (m : ModelDescriptor) : 0 ≤ m.amount := by
  cases h : m.price with
  | none => simp [amount, h]
  | some p => simpa [amount, h] using ceilCents_nonneg _

end Rootmode
