import Rootmode.Worker.Advertised

namespace Rootmode.Worker.Comfy

open Lib Lib.Text Lib.Entries Lib.Json

section Choice

variable (L : Text → Text) (b : ComfyBackend) (t : Text)

/-- A workflow is for the asked model, or its name begins with it. -/
def nameIs (w : LoadedWorkflow) : Bool := L w.model == L t

def nameBegins (w : LoadedWorkflow) : Bool := (L t).isPrefixOf (L w.model)

/-- No workflow has a name that is or begins with the asked one. -/
def NoneBegins (ws : List LoadedWorkflow) : Prop := ∀ w ∈ ws, nameBegins L t w = false

/-- The ways in which a file can be the asked one, in their order. -/
def fileTests : List (Text → Bool) :=
  if L (trim t) = [] then [fun _ => true]
  else [fun f => L f == L (trim t), fun f => L (tidyModelName f) == L (trim t), fun f => (L (trim t)).isPrefixOf (L f)]

/-- Which entry a name without outer blanks stands for. -/
def Chosen : Entry → Prop
  | .saved w => L t ≠ [] ∧ FirstBy b.saved w [nameIs L t, nameBegins L t]
  | .perModel w => (L t = [] ∨ NoneBegins L t b.saved) ∧
      if t = [] then b.perModel.head? = some w else FirstBy b.perModel w [nameIs L t, nameBegins L t]
  | .file f => (L t = [] ∨ NoneBegins L t b.saved) ∧ (if t = [] then b.perModel = [] else NoneBegins L t b.perModel) ∧
      b.config.workflow = none ∧
      if t = [] then b.loadedCheckpoint = some f else FirstBy b.installed f (fileTests L t)
  | .single => (L t = [] ∨ NoneBegins L t b.saved) ∧ (if t = [] then b.perModel = [] else NoneBegins L t b.perModel) ∧
      b.config.workflow.isSome

end Choice

variable {L : Text → Text} {b b₀ : ComfyBackend} {config : ComfyConfig} {found : List Text} {listing : Listing}
  {ds : List ModelDescriptor} {d : ModelDescriptor} {e : Entry} {m t : Text} {ws : List LoadedWorkflow}
  {w : LoadedWorkflow}

/-- A backend that has no workflow of the operator's runs the built-in graph. -/
def Started (L : Text → Text) (b : ComfyBackend) : Prop :=
  b.config.workflow = none → ∃ c, b.template = defaultGraph L c ∧ b.slots = defaultSlots

theorem started_new (h : ComfyBackend.new L config found = .ok b) : Started L b := by
  obtain ⟨⟨template, slots, installed, discovered⟩, hgraph, hrest⟩ := (Checked.bind_eq_ok _ _ _).mp h
  obtain ⟨-, -, hrest⟩ := (Checked.bind_eq_ok _ _ _).mp hrest
  obtain ⟨perModel, -, hrest⟩ := (Checked.bind_eq_ok _ _ _).mp hrest
  obtain rfl := Except.ok.inj hrest
  intro hnone
  dsimp only at hnone
  rw [standardGraph, hnone] at hgraph
  obtain ⟨rfl, rfl, -⟩ := Prod.mk.inj (Except.ok.inj hgraph)
  exact ⟨_, rfl, rfl⟩

section Choosing

theorem none_of_named : firstBy [nameIs L t, nameBegins L t] ws = none ↔ NoneBegins L t ws := by
  rw [firstBy_eq_none]
  constructor
  · exact fun h w hw => h _ (by simp) w hw
  · intro h p hp w hw
    simp only [List.mem_cons, List.not_mem_nil, or_false] at hp
    rcases hp with rfl | rfl
    · by_contra hnot
      have hsame : L w.model = L t := by simpa [nameIs] using hnot
      have hbegins := h w hw
      rw [nameBegins, hsame] at hbegins
      exact absurd (List.isPrefixOf_iff_prefix.mpr (List.prefix_refl _)) (by rw [hbegins]; exact Bool.false_ne_true)
    · exact h w hw

theorem savedFor_eq : b.savedFor L { checkpointId := some m } =
    if L (trim m) = [] then none else firstBy [nameIs L (trim m), nameBegins L (trim m)] b.saved := by
  rw [firstBy, firstBy, firstBy, Option.or_none]
  rfl

theorem workflowFor_eq : b.workflowFor L { checkpointId := some m } =
    if trim m = [] then b.perModel.head? else firstBy [nameIs L (trim m), nameBegins L (trim m)] b.perModel := by
  rw [firstBy, firstBy, firstBy, Option.or_none]
  rfl

theorem matchCheckpoint_eq (available : List Text) : matchCheckpoint L available t =
    firstBy (fileTests L t) available := by
  unfold matchCheckpoint fileTests
  dsimp only
  split
  · cases available <;> simp [firstBy]
  · simp [firstBy, Option.or_assoc]

theorem saved_none : b.savedFor L { checkpointId := some m } = none ↔
    L (trim m) = [] ∨ NoneBegins L (trim m) b.saved := by
  rw [savedFor_eq]
  split
  · next h => simp [h]
  · next h => simp [h, none_of_named]

theorem perModel_none : b.workflowFor L { checkpointId := some m } = none ↔
    if trim m = [] then b.perModel = [] else NoneBegins L (trim m) b.perModel := by
  rw [workflowFor_eq]
  split
  · exact List.head?_eq_none_iff
  · exact none_of_named

theorem loadedCheckpoint_started (h : Started L b) : b.loadedCheckpoint = none ↔ b.config.workflow.isSome := by
  unfold ComfyBackend.loadedCheckpoint
  cases hworkflow : b.config.workflow with
  | some file => exact iff_of_true rfl rfl
  | none =>
    obtain ⟨c, htemplate, -⟩ := h hworkflow
    rw [htemplate]
    exact ⟨fun hnone => (by cases hnone), fun hsome => (by cases hsome)⟩

theorem chosen_saved : Chosen L b (trim m) (.saved w) ↔ b.savedFor L { checkpointId := some m } = some w := by
  rw [savedFor_eq, Chosen]
  split
  · next h => simp [h]
  · next h => simp [h, firstBy_eq_some]

theorem chosen_perModel : Chosen L b (trim m) (.perModel w) ↔ b.savedFor L { checkpointId := some m } = none ∧
    b.workflowFor L { checkpointId := some m } = some w := by
  rw [Chosen, saved_none, workflowFor_eq]
  split
  · rfl
  · rw [firstBy_eq_some]

/-- Of the checkpoints, the one that is found. -/
theorem checkpointFor_some {f : Text} : b.checkpointFor L { checkpointId := some m } = .ok (some f) ↔
    b.loadedCheckpoint.isSome ∧
      if trim m = [] then b.loadedCheckpoint = some f else FirstBy b.installed f (fileTests L (trim m)) := by
  unfold ComfyBackend.checkpointFor
  cases hloaded : b.loadedCheckpoint with
  | none => simp
  | some default =>
    dsimp only [Option.map_some]
    split
    · simp
    · rw [← firstBy_eq_some, ← matchCheckpoint_eq]
      cases matchCheckpoint L b.installed (trim m) <;> simp

theorem checkpointFor_none : b.checkpointFor L { checkpointId := some m } = .ok none ↔ b.loadedCheckpoint = none := by
  unfold ComfyBackend.checkpointFor
  cases hloaded : b.loadedCheckpoint with
  | none => simp
  | some default =>
    dsimp only [Option.map_some]
    split
    · simp
    · cases matchCheckpoint L b.installed (trim m) <;> simp

theorem chosen_file (h : Started L b) {f : Text} : Chosen L b (trim m) (.file f) ↔
    b.savedFor L { checkpointId := some m } = none ∧ b.workflowFor L { checkpointId := some m } = none ∧
      b.checkpointFor L { checkpointId := some m } = .ok (some f) := by
  have hworkflow : b.loadedCheckpoint.isSome ↔ b.config.workflow = none := by
    rw [← not_iff_not, Option.not_isSome_iff_eq_none, loadedCheckpoint_started h, Option.isSome_iff_ne_none]
  rw [Chosen, saved_none, perModel_none, checkpointFor_some, hworkflow]

theorem chosen_single (h : Started L b) : Chosen L b (trim m) .single ↔
    b.savedFor L { checkpointId := some m } = none ∧ b.workflowFor L { checkpointId := some m } = none ∧
      b.checkpointFor L { checkpointId := some m } = .ok none := by
  rw [Chosen, saved_none, perModel_none, checkpointFor_none, loadedCheckpoint_started h]

/-- The entry that a job is served from is the chosen one. -/
theorem servedBy_iff (h : Started L b) :
    servedBy L b { checkpointId := some m } = .ok e ↔ Chosen L b (trim m) e := by
  unfold servedBy
  cases hsaved : b.savedFor L { checkpointId := some m } with
  | some v => cases e <;> simp [chosen_saved, chosen_perModel, chosen_file h, chosen_single h, hsaved]
  | none =>
    cases hworkflow : b.workflowFor L { checkpointId := some m } with
    | some v => cases e <;> simp [chosen_saved, chosen_perModel, chosen_file h, chosen_single h, hsaved, hworkflow]
    | none =>
      cases hcheckpoint : b.checkpointFor L { checkpointId := some m } with
      | error err =>
        cases e <;>
          simp [chosen_saved, chosen_perModel, chosen_file h, chosen_single h, hsaved, hworkflow, hcheckpoint, Except.map]
      | ok c =>
        cases c <;> cases e <;>
          simp [chosen_saved, chosen_perModel, chosen_file h, chosen_single h, hsaved, hworkflow, hcheckpoint, Except.map]

end Choosing

section Law

variable (L b) in
/-- A job for a model is served from what the model is advertised for. -/
structure Serves (e : Entry) (m : Text) : Prop where
  very : servedBy L b { checkpointId := some m } = .ok e
  /-- The graph is the entry's with its slots filled in, and nothing else of it changed. -/
  builds : ∀ prompt seed, ∃ g base, b.graphFor L { checkpointId := some m } prompt seed = .ok g ∧
    entryGraph b prompt seed e = .ok g ∧ baseGraph b e = some base ∧
      ∀ q, (∀ s ∈ (entrySlots b e).entries, Apart (keysOf s.2) q) → reach q g = reach q base

/-- The slots of an entry can be filled in. The built-in graph's always can. -/
def EntryFillable (b : ComfyBackend) : Entry → Prop
  | .saved w | .perModel w => Fillable w.slots w.template
  | .file _ => True
  | .single => Fillable b.slots b.template

theorem keysOf_checkpoint : keysOf (ofString "4.inputs.ckpt_name") = ["4", "inputs", "ckpt_name"] := by decide

/-- Apart from its slots the graph of an entry stays as it is. -/
theorem reach_entryGraph {prompt : Text} {seed : ℕ} {g base : Json} {q : List String}
    (h : entryGraph b prompt seed e = .ok g) (hbase : baseGraph b e = some base)
    (hq : ∀ s ∈ (entrySlots b e).entries, Apart (keysOf s.2) q) : reach q g = reach q base := by
  cases e with
  | saved w =>
    obtain rfl := Option.some.inj hbase
    exact reach_fill h hq
  | perModel w =>
    obtain rfl := Option.some.inj hbase
    exact reach_fill h hq
  | single =>
    obtain rfl := Option.some.inj hbase
    exact reach_fill h hq
  | file f =>
    obtain ⟨filled, hfill, hnavigate⟩ := (Checked.bind_eq_ok _ _ _).mp h
    have hset := navigate_ok.mp hnavigate
    rw [keysOf_checkpoint] at hset
    exact reach_setAt_congr hset hbase (reach_fill hfill hq)

theorem fillable_default (c : Text) : Fillable defaultSlots (defaultGraph L c) := by
  have hpaths : ∀ e ∈ defaultSlots.entries, e = ("prompt", ofString "6.inputs.text") ∨
      e = ("seed", ofString "3.inputs.seed") := by decide
  refine ⟨by decide, ?_, by decide⟩
  intro e he
  rcases hpaths e he with rfl | rfl
  · exact Option.isSome_iff_exists.mpr ⟨.str [], rfl⟩
  · exact Option.isSome_iff_exists.mpr ⟨Json.count 0, rfl⟩

/-- The built-in graph takes its prompt, its seed and its checkpoint. -/
theorem entryGraph_file (hstarted : Started L b) (hworkflow : b.config.workflow = none) (f prompt : Text) (seed : ℕ) :
    (∃ g, entryGraph b prompt seed (.file f) = .ok g) ∧ ∃ base, baseGraph b (.file f) = some base := by
  obtain ⟨c, htemplate, hslots⟩ := hstarted hworkflow
  have hcheckpoint : reach ["4", "inputs", "ckpt_name"] (defaultGraph L c) = some (.str c) := rfl
  have hset : ∀ {v : Json}, reach ["4", "inputs", "ckpt_name"] v = some (.str c) →
      ∃ w, setAt (.str f) ["4", "inputs", "ckpt_name"] v = some w := by
    intro v hv
    rw [← Option.isSome_iff_exists, isSome_setAt, hv]
    rfl
  rw [entryGraph, baseGraph, htemplate, hslots]
  refine ⟨?_, hset hcheckpoint⟩
  obtain ⟨filled, hfilled⟩ := (@fillable_iff prompt seed _ _).mpr (fillable_default (L := L) c)
  have hthere := (reach_fill (q := ["4", "inputs", "ckpt_name"]) hfilled (by decide)).trans hcheckpoint
  obtain ⟨g, hg⟩ := hset hthere
  rw [hfilled]
  exact ⟨g, navigate_ok.mpr (keysOf_checkpoint ▸ hg)⟩

/-- With another checkpoint the built-in graph keeps the guidance of the one it was built for. -/
theorem guidance_kept {c f : Text} {base : Json} (h : b.template = defaultGraph L c)
    (hbase : baseGraph b (.file f) = some base) :
    reach ["3", "inputs", "cfg"] base = some (.num (.float (guidanceFor L c))) := by
  have hkept := reach_setAt_of_apart (q := ["3", "inputs", "cfg"]) hbase (by decide)
  rw [hkept, h]
  rfl

theorem serves_iff (h : Started L b) : Serves L b e m ↔ Chosen L b (trim m) e ∧ EntryFillable b e := by
  constructor
  · intro hserves
    refine ⟨(servedBy_iff h).mp hserves.very, ?_⟩
    obtain ⟨g, base, -, hentry, -⟩ := hserves.builds [] 0
    cases e with
    | saved w => exact fillable_iff.mp ⟨g, hentry⟩
    | perModel w => exact fillable_iff.mp ⟨g, hentry⟩
    | file f => exact trivial
    | single => exact fillable_iff.mp ⟨g, hentry⟩
  · rintro ⟨hchosen, hfillable⟩
    have hvery := (servedBy_iff h).mpr hchosen
    refine ⟨hvery, fun prompt seed => ?_⟩
    have hentry : (∃ g, entryGraph b prompt seed e = .ok g) ∧ ∃ base, baseGraph b e = some base := by
      cases e with
      | saved w => exact ⟨fillable_iff.mpr hfillable, _, rfl⟩
      | perModel w => exact ⟨fillable_iff.mpr hfillable, _, rfl⟩
      | file f => exact entryGraph_file h hchosen.2.2.1 f prompt seed
      | single => exact ⟨fillable_iff.mpr hfillable, _, rfl⟩
    obtain ⟨⟨g, hg⟩, base, hbase⟩ := hentry
    exact ⟨g, base, graphFor_ok.mpr ⟨e, hvery, hg⟩, hg, hbase, fun q hq => reach_entryGraph hg hbase hq⟩

/-- Of every picture model that a backend advertises: it is advertised for something, and served from that exactly where
its name stands for that and nothing before it. -/
theorem served_iff (hnew : ComfyBackend.new L config found = .ok b₀) (h : b₀.discoverModels L listing = .ok (ds, b))
    (hd : d ∈ ds) (himage : d.kind = .image) : (∃ e, Offered L b₀ listing e d) ∧ ∀ e, Offered L b₀ listing e d →
      (Serves L b e d.id ↔ Chosen L b (trim d.id) e ∧ EntryFillable b e) := by
  refine ⟨(mem_discoverModels h himage).mp hd, fun e _ => serves_iff fun hnone => ?_⟩
  obtain ⟨hconfig, htemplate, hslots⟩ := discoverModels_state h
  rw [htemplate, hslots]
  exact started_new hnew (hconfig ▸ hnone)

end Law

section Cases

/-- A backend without a workflow of its own. -/
def plainConfig (choices : List WorkflowChoice) : ComfyConfig where
  endpoint := ofString "http://127.0.0.1:8188"
  workflow := none
  workflowFor := choices
  checkpointId := []
  modelHash := none
  price := none
  prices := []
  slots := ⟨[], List.Pairwise.nil⟩

def files : List Text := ["sdxl.safetensors", "flux1-dev.safetensors"].map ofString

def plainBackend (perModel : List LoadedWorkflow) (choices : List WorkflowChoice) : ComfyBackend where
  config := plainConfig choices
  modelId := ofString "sdxl"
  installed := files
  template := defaultGraph lower (ofString "sdxl.safetensors")
  slots := defaultSlots
  perModel := perModel
  saved := []

def fluxModel : ModelDescriptor := { id := ofString "flux1-dev", kind := .image }

def sdxlModel : ModelDescriptor := { id := ofString "sdxl", kind := .image }

/-- The second of two checkpoints is served under its own name. -/
theorem served_iff_flux : Serves lower (plainBackend [] []) (.file (ofString "flux1-dev.safetensors"))
    (ofString "flux1-dev") := by
  have hnew : ComfyBackend.new lower (plainConfig []) files = .ok (plainBackend [] []) := rfl
  have hdiscover : (plainBackend [] []).discoverModels lower ⟨files, [], [], []⟩ =
      .ok ([sdxlModel, fluxModel], plainBackend [] []) := rfl
  have hserved := served_iff hnew hdiscover (.tail _ (.head _)) rfl
  refine (hserved.2 (.file (ofString "flux1-dev.safetensors")) (.file rfl (.tail _ (.head _)) rfl)).mpr ⟨?_, trivial⟩
  refine ⟨.inr fun w hw => absurd hw List.not_mem_nil, ?_, rfl, ?_⟩
  · rw [if_neg (by decide)]
    exact fun w hw => absurd hw List.not_mem_nil
  · rw [if_neg (by decide)]
    exact firstBy_eq_some.mp (by decide)

def turboFile : Json :=
  .obj [("3", graphNode "KSampler" [("seed", Json.count 0)]), ("6", graphNode "CLIPTextEncode" [("text", Json.word "")])]

def turboChoice : WorkflowChoice := ⟨ofString "sdxl-turbo", turboFile, ofString "turbo.json", ⟨[], List.Pairwise.nil⟩⟩

def turbo : LoadedWorkflow := ⟨ofString "sdxl-turbo", turboFile, defaultSlots⟩

def turboModel : ModelDescriptor := { id := ofString "sdxl-turbo", kind := .image }

/-- With a graph for sdxl-turbo on the box, a job for the checkpoint sdxl is served from that. -/
theorem turbo_serves_sdxl : ComfyBackend.new lower (plainConfig [turboChoice]) files =
      .ok (plainBackend [turbo] [turboChoice]) ∧
    (plainBackend [turbo] [turboChoice]).discoverModels lower ⟨files, [], [], []⟩ =
      .ok ([turboModel, sdxlModel, fluxModel], plainBackend [turbo] [turboChoice]) ∧
    Offered lower (plainBackend [turbo] [turboChoice]) ⟨files, [], [], []⟩ (.file (ofString "sdxl.safetensors"))
      sdxlModel ∧
    ¬ Serves lower (plainBackend [turbo] [turboChoice]) (.file (ofString "sdxl.safetensors")) sdxlModel.id := by
  refine ⟨rfl, rfl, .file rfl (.head _) rfl, fun h => ?_⟩
  obtain ⟨g, base, hfor, hentry, -, -⟩ := h.builds [] 0
  -- one loads a checkpoint, the other does not
  let loads (r : Except ComfyError Json) : Bool := r.toOption.any fun g => (reach ["4"] g).isSome
  have hleft : loads ((plainBackend [turbo] [turboChoice]).graphFor lower
      { checkpointId := some sdxlModel.id } [] 0) = false := by decide +kernel
  have hright : loads (entryGraph (plainBackend [turbo] [turboChoice]) [] 0
      (.file (ofString "sdxl.safetensors"))) = true := by decide +kernel
  rw [hfor] at hleft
  rw [hentry, hleft] at hright
  cases hright

end Cases

end Rootmode.Worker.Comfy
