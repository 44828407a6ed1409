import Rootmode.Core.Video
import Rootmode.Lib.Decimal
import Rootmode.Lib.Json
import Rootmode.Lib.Search

namespace Rootmode

open Lib Lib.Text

/-- What is chosen of an offer when nothing is. -/
def VideoOffer.defaultShape (o : VideoOffer) : VideoShape where
  seconds := o.defaultSeconds
  resolution := o.defaultResolution
  aspectRatio := o.defaultAspect
  audio := o.audio = .always
  fromImage := false

namespace OpenRouter

/-- What a clip is priced by, and the text of the price. -/
abbrev Skus := List (Text × Text)

/-- An entry of the catalogue of video models.  `null` is there, and is not the same as nothing, where it says which
frames a model takes. -/
structure ListedVideo where
  id : Text
  supportedDurations : Option (List ℕ) := none
  supportedResolutions : Option (List Text) := none
  supportedAspectRatios : Option (List Text) := none
  pricingSkus : Option Skus := none
  generateAudio : Option Bool := none
  supportedFrameImages : Option Json := none

def videoSeconds : ℕ := 5

def videoResolution : Text := "720p".toList

def videoAspect : Text := "16:9".toList

/-- Resolution names as they appear inside the keys of SKUs. -/
def resolutionTags : List Text := ["480p", "720p", "1024p", "1080p", "2k", "4k"].map String.toList

/-- A quote has this much room for providers that count a few more tokens. -/
def videoTokenHeadroom : ℚ := 104 / 100

/-- Pixels per frame at a resolution. -/
def pixels (resolution : Text) : ℚ :=
  let r := lower resolution
  if r = "480p".toList then 854 * 480
  else if r = "1024p".toList ∨ r = "1080p".toList then 1920 * 1080
  else if r = "2k".toList then 2560 * 1440
  else if r = "4k".toList then 3840 * 2160
  else 1280 * 720

def mentions (key : Text) (word : String) : Bool := Search.contains word.toList key

/-- SKUs that price no clip. -/
def notClips : List String :=
  ["continuation", "megapixel", "with_video_input", "reference_images", "image_input", "cents_per_image"]

/-- A SKU is for another clip than one of this resolution, with this sound and beginning. -/
def contradicts (res : Text) (audio fromImage : Bool) (key : Text) : Bool :=
  let k := lower key
  notClips.any (mentions k) ||
    resolutionTags.any (fun t =>
      Search.contains t k && t ≠ res && !(res = "1080p".toList && t = "1024p".toList)) ||
    (audio && mentions k "without_audio") || (!audio && mentions k "with_audio") ||
    (fromImage && mentions k "text_to_video") || (!fromImage && mentions k "image_to_video")

/-- The prices of the SKUs a dialect speaks in that a clip does not contradict. -/
def prices (skus : Skus) (res : Text) (audio fromImage : Bool) (dialect : Text → Bool) : List ℚ :=
  ((skus.filter fun e => dialect e.1 && !contradicts res audio fromImage e.1).filterMap fun e =>
    Decimal.parse (trim e.2)).filter (0 < ·)

/-- The dearest of them. -/
def pickPrice (skus : Skus) (res : Text) (audio fromImage : Bool) (dialect : Text → Bool) : Option ℚ :=
  (prices skus res audio fromImage dialect).foldl (fun m v =>
    match m with
    | some m => some (max m v)
    | none => some v) none

/-- How a catalogue says what a clip costs, in the order they are tried. -/
inductive Dialect
  | seconds | cents | tokens
  deriving DecidableEq

namespace Dialect

def speaks : Dialect → Text → Bool
  | seconds, key => mentions key "duration_seconds"
  | cents, key => mentions key "cents_per_second" || mentions key "cents_per_video_output_second"
  | tokens, key => "video_tokens".toList.isPrefixOf key

/-- What a price comes to by the second, in dollars. -/
def perSecond (res : Text) : Dialect → ℚ → ℚ
  | seconds, usdPerS => usdPerS
  | cents, centsPerS => centsPerS / 100
  | tokens, usdPerToken => usdPerToken * pixels res * 24 / 1024 * videoTokenHeadroom

/-- What a clip costs however short, in dollars. -/
def minimum (skus : Skus) : Dialect → ℚ
  | seconds | tokens => 0
  | cents =>
    let entry := skus.find? fun e => e.1 = "minimum_cents_per_generation".toList
    let floor := entry.bind fun e => Decimal.parse (trim e.2)
    floor.getD 0 / 100

end Dialect

/-- What one second of a shape costs upstream, and the least a generation costs. -/
def shapeRateUsd (skus : Skus) (resolution : Option Text) (audio fromImage : Bool) : Option (ℚ × ℚ) :=
  let res := lower (resolution.getD videoResolution)
  let pick (d : Dialect) : Option (ℚ × ℚ) :=
    (pickPrice skus res audio fromImage d.speaks).map fun price => (d.perSecond res price, d.minimum skus)
  match pick .seconds with
  | some rate => some rate
  | none =>
    match pick .cents with
    | some rate => some rate
    | none => pick .tokens

/-- A markup that says nothing is none. -/
def marked (markup : ℚ) : ℚ := if 0 < markup then markup else 1

def isFirstFrame : Json → Bool
  | .str s => s = "first_frame".toList
  | _ => false

namespace ListedVideo

variable (v : ListedVideo)

def durations : List ℕ := v.supportedDurations.getD []

def resolutions : List Text := v.supportedResolutions.getD []

def aspectRatios : List Text := v.supportedAspectRatios.getD []

def skus : Skus := v.pricingSkus.getD []

/-- The length asked for when none is chosen: the shortest that is long enough, else the longest. -/
def duration : ℕ :=
  if v.durations = [] ∨ videoSeconds ∈ v.durations then videoSeconds
  else (((v.durations.filter (videoSeconds < ·)).min?).or v.durations.max?).getD videoSeconds

def resolution : Option Text := (v.resolutions.find? fun r => r = videoResolution).or v.resolutions.head?

def aspect : Option Text := (v.aspectRatios.find? fun r => r = videoAspect).or v.aspectRatios.head?

/-- Whether sound is the client's to choose. -/
def audioOffer : AudioOffer :=
  if v.generateAudio ≠ some true then .never
  else if v.skus.any fun e => mentions e.1 "audio" then .optional
  else .always

/-- Whether a first frame may be supplied. -/
def takesFirstFrame : Bool :=
  match v.supportedFrameImages with
  | none => true
  | some (.arr frames) => frames.any isFirstFrame
  | some .null => false
  | some _ => true

def sounds : List Bool :=
  match v.audioOffer with
  | .never => [false]
  | .always => [true]
  | .optional => [false, true]

def resChoices : List (Option Text) := if v.resolutions = [] then [none] else v.resolutions.map some

def froms : List Bool := if v.takesFirstFrame then [false, true] else [false]

/-- The rates of all the shapes there are. -/
def rates (markup : ℚ) : List VideoRate :=
  v.resChoices.flatMap fun res => v.sounds.flatMap fun sound => v.froms.filterMap fun fromImage =>
    (shapeRateUsd v.skus res sound fromImage).map fun (perSecond, minimum) =>
      { resolution := res, audio := sound, fromImage
        usdPerSecond := perSecond * marked markup, minimumUsd := minimum * marked markup }

/-- The menu, none where the catalogue names no rate for a clip. -/
def offer (markup : ℚ) : Option VideoOffer :=
  if v.rates markup = [] then none
  else some
    { durations := (v.durations.insertionSort (· ≤ ·)).destutter (· ≠ ·)
      defaultSeconds := v.duration
      resolutions := v.resolutions
      defaultResolution := v.resolution
      aspectRatios := v.aspectRatios
      defaultAspect := v.aspect
      audio := v.audioOffer
      firstFrame := v.takesFirstFrame
      rates := v.rates markup }

/-- The price of a clip of the default shape, from a picture or not. -/
def perClip (markup : ℚ) : Option Price := do
  let offer ← v.offer markup
  let shape := offer.defaultShape
  let text ← offer.quoteUsd shape
  let image := (offer.quoteUsd { shape with fromImage := true }).getD text
  return Price.new (max text image)

end ListedVideo

/-- The least a job may be billed: what it cost upstream, and the margin. -/
def billFloorMicros (upstreamCostUsd markup : ℚ) : ℕ :=
  castWord 64 (max ⌈upstreamCostUsd * marked markup * 1_000_000⌉ 0 : ℤ)

end OpenRouter

end Rootmode
