import Rootmode.Core.Job
import Rootmode.Lib.FirstHit
import Rootmode.Lib.Pointer
import Rootmode.Lib.Search

namespace Rootmode.Worker.Comfy

open Lib Lib.Text Lib.Entries Ieee

inductive ComfyError
  | config (why : Text)
  | rejected (why : Text)

/-- Which inputs of a graph the worker fills in: by their names, where they are. -/
structure Slots where
  entries : List (String × Text)
  ordered : Ordered entries

/-- Where the built-in graph has them. -/
def defaultSlots : Slots :=
  ⟨[("prompt", ofString "6.inputs.text"), ("seed", ofString "3.inputs.seed")], List.pairwise_pair.mpr (by decide)⟩

/-- A graph of the operator's for one model. -/
structure LoadedWorkflow where
  model : Text
  template : Json
  slots : Slots

section Names

variable (L : Text → Text)

def stripAll (p : Text) : ℕ → Text → Text
  | 0, t => t
  | n + 1, t => if p.isPrefixOf t then stripAll p n (t.drop p.length) else t

/-- Without any `suffix`es at the end. -/
def trimEndMatches (suffix t : Text) : Text := (stripAll suffix.reverse t.length t.reverse).reverse

/-- A checkpoint's file name as a name someone would type. -/
def tidyModelName (filename : Text) : Text :=
  trimEndMatches (ofString ".sft") (trimEndMatches (ofString ".ckpt") (trimEndMatches (ofString ".safetensors")
    ((split ['/'] filename).getLastD filename)))

/-- Which of the installed checkpoints a name refers to: a file's name, a tidied one, or how a file's name begins. -/
def matchCheckpoint (available : List Text) (wanted : Text) : Option Text :=
  let wanted := L (trim wanted)
  if wanted = [] then available.head?
  else ((available.find? fun name => L name == wanted).or
    (available.find? fun name => L (tidyModelName name) == wanted)).or
      (available.find? fun name => wanted.isPrefixOf (L name))

/-- What the operator named, or else the first installed. -/
def pickCheckpoint (available : List Text) (configured : Text) : Text :=
  match available with
  | [] => if trim configured = [] then ofString "image" else configured
  | first :: _ => (matchCheckpoint L available configured).getD first

/-- The price for one advertised model. -/
def lookupPrice (modelId : Text) (default : Option ℚ) (prices : List (Text × ℚ)) : Option ℚ :=
  let wanted := L modelId
  let tidyWanted := L (tidyModelName modelId)
  (((prices.find? fun (key, _) =>
      L key == wanted || L (tidyModelName (L key)) == wanted || L (tidyModelName (L key)) == tidyWanted).or
    (prices.find? fun (key, _) =>
      let key := L (tidyModelName key)
      !key.isEmpty && (key.isPrefixOf wanted || key.isPrefixOf tidyWanted))).map Prod.snd).or default

end Names

section Graphs

theorem one_fits : 4503599627370496 < 2 ^ binary64.prec ∧ binary64.emin ≤ -52 ∧ -52 ≤ binary64.emax ∧
    (-52 = binary64.emin ∨ 2 ^ (binary64.prec - 1) ≤ 4503599627370496) := by decide

theorem six_fits : 6755399441055744 < 2 ^ binary64.prec ∧ binary64.emin ≤ -50 ∧ -50 ≤ binary64.emax ∧
    (-50 = binary64.emin ∨ 2 ^ (binary64.prec - 1) ≤ 6755399441055744) := by decide

/-- The numbers 1.0 and 6.0. -/
def one : Finite binary64 :=
  ⟨false, 4503599627370496, -52, one_fits.1, one_fits.2.1, one_fits.2.2.1, one_fits.2.2.2⟩

def six : Finite binary64 :=
  ⟨false, 6755399441055744, -50, six_fits.1, six_fits.2.1, six_fits.2.2.1, six_fits.2.2.2⟩

variable (L : Text → Text)

/-- How hard to push the prompt, for a checkpoint of which only the name is known. -/
def guidanceFor (checkpoint : Text) : Finite binary64 :=
  if ["flux", "schnell", "sd3", "sd35", "sd3.5", "turbo", "lightning"].any fun hint =>
    Search.contains (ofString hint) (L checkpoint) then one
  else six

def wire (node : String) (slot : ℕ) : Json := .arr [Json.word node, Json.count slot]

def graphNode (type : String) (inputs : List (String × Json)) : Json :=
  .obj [("class_type", Json.word type), ("inputs", .obj inputs)]

/-- The built-in graph. -/
def defaultGraph (checkpoint : Text) : Json :=
  .obj [
    ("3", graphNode "KSampler" [("cfg", .num (.float (guidanceFor L checkpoint))), ("denoise", .num (.float one)),
      ("latent_image", wire "5" 0), ("model", wire "4" 0), ("negative", wire "7" 0), ("positive", wire "6" 0),
      ("sampler_name", Json.word "euler"), ("scheduler", Json.word "normal"), ("seed", Json.count 0),
      ("steps", Json.count 25)]),
    ("4", graphNode "CheckpointLoaderSimple" [("ckpt_name", .str checkpoint)]),
    ("5", graphNode "EmptyLatentImage" [("batch_size", Json.count 1), ("height", Json.count 1024),
      ("width", Json.count 1024)]),
    ("6", graphNode "CLIPTextEncode" [("clip", wire "4" 1), ("text", Json.word "")]),
    ("7", graphNode "CLIPTextEncode" [("clip", wire "4" 1), ("text", Json.word "")]),
    ("8", graphNode "VAEDecode" [("samples", wire "3" 0), ("vae", wire "4" 2)]),
    ("9", graphNode "SaveImage" [("filename_prefix", Json.word "rootmode"), ("images", wire "8" 0)])]

/-- Something else in a place that is there already. -/
def navigateFrom (path : Text) (value : Json) : List Text → Json → Except ComfyError Json
  | [], _ => .ok value
  | segment :: rest, cursor =>
    match cursor.get (Text.str segment) with
    | none => .error (.config (ofString "workflow has no '" ++ segment ++ ofString "' in '" ++ path ++ ofString "'"))
    | some inner => (navigateFrom path value rest inner).map (cursor.insert (Text.str segment))

def segments (path : Text) : List Text := split ['.'] path

def navigate (path : Text) (value root : Json) : Except ComfyError Json := navigateFrom path value (segments path) root

/-- The prompt and the seed go where they belong, and nothing else goes anywhere. -/
def fillSlots (prompt : Text) (seed : ℕ) : List (String × Text) → Json → Except ComfyError Json
  | [], graph => .ok graph
  | (field, path) :: slots, graph =>
    if field = "prompt" then (navigate path (.str prompt) graph).bind (fillSlots prompt seed slots)
    else if field = "seed" then (navigate path (Json.count seed) graph).bind (fillSlots prompt seed slots)
    else .error (.config (ofString "unknown slot '" ++ field.toList ++ ofString "'"))

end Graphs

section Backend

/-- A workflow file that goes with a model. -/
structure WorkflowChoice where
  model : Text
  file : Json
  shown : Text
  slots : Slots

structure ComfyConfig where
  endpoint : Text
  workflow : Option Json
  workflowFor : List WorkflowChoice
  checkpointId : Text
  modelHash : Option Text
  price : Option ℚ
  prices : List (Text × ℚ)
  slots : Slots

structure ComfyBackend where
  config : ComfyConfig
  modelId : Text
  installed : List Text
  template : Json
  slots : Slots
  perModel : List LoadedWorkflow
  saved : List LoadedWorkflow

def loadWorkflow (file : Json) : Except ComfyError Json :=
  match file with
  | .obj _ => .ok file
  | _ => .error (.config (ofString "workflow must be a ComfyUI API-format object (use 'Save (API Format)')"))

/-- Every slot has to lead somewhere. -/
def checkSlots (why : Text → Text → Text) (template : Json) : List (String × Text) → Except ComfyError Unit
  | [] => .ok ()
  | (field, path) :: slots =>
    match navigate path .null template with
    | .error _ => .error (.config (why field.toList path))
    | .ok _ => checkSlots why template slots

def loadChoice (choice : WorkflowChoice) : Except ComfyError LoadedWorkflow := do
  let template ← loadWorkflow choice.file
  let slots := if choice.slots.entries = [] then defaultSlots else choice.slots
  checkSlots (fun field path => ofString "workflow for '" ++ choice.model ++ ofString "': slot '" ++ field ++
    ofString "' points at '" ++ path ++ ofString "', which does not exist in " ++ choice.shown) template slots.entries
  return ⟨trim choice.model, template, slots⟩

variable (L : Text → Text)

/-- The graph a backend runs, with its slots, and what it found when it had to build the graph itself. -/
def standardGraph (config : ComfyConfig) (found : List Text) :
    Except ComfyError (Json × Slots × List Text × Option Text) :=
  match config.workflow with
  | some file => (loadWorkflow file).map fun template => (template, config.slots, [], none)
  | none =>
    let checkpoint := pickCheckpoint L found config.checkpointId
    .ok (defaultGraph L checkpoint, defaultSlots, found, some checkpoint)

def shownId (config : ComfyConfig) (discovered : Option Text) : Text :=
  if trim config.checkpointId ≠ [] then trim config.checkpointId
  else (discovered.map tidyModelName).getD (ofString "image")

/-- A backend as it starts. `found` is what the server lists, nothing while it does not answer. -/
def ComfyBackend.new (config : ComfyConfig) (found : List Text) : Except ComfyError ComfyBackend :=
  (standardGraph L config found).bind fun (template, slots, installed, discovered) => do
    checkSlots (fun field path => ofString "slot '" ++ field ++ ofString "' points at '" ++ path ++
      ofString "', which does not exist in the workflow") template slots.entries
    let perModel ← config.workflowFor.mapM loadChoice
    return { config, modelId := shownId config discovered, installed, template, slots, perModel, saved := [] }

namespace ComfyBackend

variable (b : ComfyBackend)

/-- The checkpoint that the built-in graph loads. -/
def loadedCheckpoint : Option Text :=
  if b.config.workflow.isSome then none
  else (b.template.pointer (ofString "/4/inputs/ckpt_name")).bind Json.asText

/-- The graph the operator saved for a model in the editor. -/
def savedFor (params : ImageParams) : Option LoadedWorkflow :=
  params.checkpointId.bind fun id =>
    let asked := L (trim id)
    if asked = [] then none
    else (b.saved.find? fun w => L w.model == asked).or (b.saved.find? fun w => asked.isPrefixOf (L w.model))

/-- The graph the operator exported for it. -/
def workflowFor (params : ImageParams) : Option LoadedWorkflow :=
  let asked := trim (params.checkpointId.getD [])
  if asked = [] then b.perModel.head?
  else (b.perModel.find? fun w => L w.model == L asked).or
    (b.perModel.find? fun w => (L asked).isPrefixOf (L w.model))

/-- The checkpoint a job runs against, where there is a place for it. -/
def checkpointFor (params : ImageParams) : Except ComfyError (Option Text) :=
  match b.loadedCheckpoint with
  | none => .ok none
  | some default =>
    match params.checkpointId.map trim with
    | none => .ok (some default)
    | some asked =>
      if asked = [] then .ok (some default)
      else
        match matchCheckpoint L b.installed asked with
        | some found => .ok (some found)
        | none => .error (.rejected (ofString "checkpoint '" ++ asked ++ ofString "' is not installed here (have: " ++
            (ofString ", ").intercalate (b.installed.map tidyModelName) ++ ofString ")"))

/-- The graph for one job. -/
def graphFor (params : ImageParams) (prompt : Text) (seed : ℕ) : Except ComfyError Json :=
  match b.savedFor L params with
  | some saved => fillSlots prompt seed saved.slots.entries saved.template
  | none =>
    match b.workflowFor L params with
    | some chosen => fillSlots prompt seed chosen.slots.entries chosen.template
    | none => do
      let graph ← fillSlots prompt seed b.slots.entries b.template
      -- only the built-in graph has a place for another checkpoint
      match ← b.checkpointFor L params with
      | some checkpoint => navigate (ofString "4.inputs.ckpt_name") (.str checkpoint) graph
      | none => return graph

def advertisedPrice (modelId : Text) : Option Price :=
  (lookupPrice L modelId b.config.price b.config.prices).map fun amount => ({ amount } : Price).roundProtocol

def describe (w : LoadedWorkflow) : ModelDescriptor :=
  { id := w.model, kind := .image, price := b.advertisedPrice L w.model }

end ComfyBackend

/-- What the server and the box say when a backend looks for its models. -/
structure Listing where
  available : List Text
  saved : List LoadedWorkflow
  videos : List Text
  retired : List (Text × Text)

namespace ComfyBackend

variable (b : ComfyBackend) (listing : Listing)

def named (ws : List LoadedWorkflow) (id : Text) : Bool := ws.any fun w => eqIgnoreAsciiCase w.model id

/-- A file as it is offered, unless the operator gave its model a graph or it has proven unservable. -/
def describeFile (filename : Text) : Option ModelDescriptor :=
  let id := tidyModelName filename
  if named b.perModel id || named listing.saved id then none
  else if (listing.retired.find? fun (model, _) => model = id).isSome then none
  else some
    { id
      -- only the operator's own default can carry the hash they attested to
      sha256 := if filename = pickCheckpoint L listing.available b.config.checkpointId then b.config.modelHash
        else none
      kind := .image
      price := b.advertisedPrice L id }

def describeVideo (filename : Text) : ModelDescriptor :=
  { id := tidyModelName filename, kind := .video, price := b.advertisedPrice L (tidyModelName filename) }

def pushVideo (out : List ModelDescriptor) (filename : Text) : List ModelDescriptor :=
  if out.any fun m => eqIgnoreAsciiCase m.id (tidyModelName filename) then out else out ++ [b.describeVideo L filename]

/-- The one model of an operator's own workflow. -/
def describeSingle : ModelDescriptor :=
  { id := b.modelId, sha256 := b.config.modelHash, kind := .image, price := b.advertisedPrice L b.modelId }

/-- What is advertised, and the backend that has taken note of it. -/
def discoverModels : Except ComfyError (List ModelDescriptor × ComfyBackend) :=
  let out := b.perModel.map (b.describe L)
  if b.config.workflow.isSome then
    .ok (out ++ [b.describeSingle L], b)
  else if listing.available = [] then
    .error (.config (b.config.endpoint ++
      ofString " has no checkpoints installed — put one in ComfyUI/models/checkpoints"))
  else
    let out := out ++ listing.saved.map (b.describe L)
    let out := listing.videos.foldl (b.pushVideo L) out
    .ok (out ++ listing.available.filterMap (b.describeFile L listing),
      { b with installed := listing.available, saved := listing.saved })

end ComfyBackend

end Backend

end Rootmode.Worker.Comfy
