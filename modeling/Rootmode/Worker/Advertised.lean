import Rootmode.Worker.Filling

namespace Rootmode.Worker.Comfy

open Lib Lib.Text Lib.Entries Lib.Json

/-- What a model is advertised for: a workflow saved in the editor, one exported for a model, a checkpoint's file, or
the one workflow of the operator's. -/
inductive Entry
  | saved (w : LoadedWorkflow)
  | perModel (w : LoadedWorkflow)
  | file (filename : Text)
  | single

variable {L : Text → Text} {b b' : ComfyBackend} {listing : Listing} {ds : List ModelDescriptor} {d : ModelDescriptor}
  {e : Entry} {params : ImageParams} {prompt t m : Text} {seed : ℕ} {g : Json}

section Offers

/-- What is advertised as what. -/
inductive Offered (L : Text → Text) (b : ComfyBackend) (listing : Listing) : Entry → ModelDescriptor → Prop
  | perModel {w : LoadedWorkflow} : w ∈ b.perModel → Offered L b listing (.perModel w) (b.describe L w)
  | saved {w : LoadedWorkflow} : b.config.workflow = none → w ∈ listing.saved →
      Offered L b listing (.saved w) (b.describe L w)
  | file {filename : Text} {d : ModelDescriptor} : b.config.workflow = none → filename ∈ listing.available →
      b.describeFile L listing filename = some d → Offered L b listing (.file filename) d
  | single : b.config.workflow.isSome → Offered L b listing .single (b.describeSingle L)

/-- Clips come after, and are no pictures. -/
theorem mem_pushVideos {videos : List Text} (himage : d.kind = .image) :
    d ∈ videos.foldl (b.pushVideo L) ds ↔ d ∈ ds := by
  induction videos generalizing ds with
  | nil => rfl
  | cons filename videos ih =>
    rw [List.foldl_cons, ih, ComfyBackend.pushVideo]
    split
    · rfl
    · have hne : d ≠ b.describeVideo L filename := by
        rintro rfl
        cases himage
      simp [hne]

theorem describeFile_image {filename : Text} (h : b.describeFile L listing filename = some d) : d.kind = .image := by
  simp only [ComfyBackend.describeFile, Option.ite_none_left_eq_some, Option.some.injEq] at h
  obtain ⟨-, -, rfl⟩ := h
  rfl

theorem discoverModels_state (h : b.discoverModels L listing = .ok (ds, b')) :
    b'.config = b.config ∧ b'.template = b.template ∧ b'.slots = b.slots := by
  unfold ComfyBackend.discoverModels at h
  split at h
  · cases h
    exact ⟨rfl, rfl, rfl⟩
  · split at h
    · cases h
    · cases h
      exact ⟨rfl, rfl, rfl⟩

/-- The advertised picture models are these. -/
theorem mem_discoverModels (h : b.discoverModels L listing = .ok (ds, b')) (himage : d.kind = .image) :
    d ∈ ds ↔ ∃ e, Offered L b listing e d := by
  unfold ComfyBackend.discoverModels at h
  split at h
  · next hworkflow =>
    cases h
    rw [List.mem_append, List.mem_map, List.mem_singleton]
    constructor
    · rintro (⟨w, hw, rfl⟩ | rfl)
      · exact ⟨_, .perModel hw⟩
      · exact ⟨_, .single hworkflow⟩
    · rintro ⟨e, hoffer⟩
      cases hoffer with
      | perModel hw => exact .inl ⟨_, hw, rfl⟩
      | saved hnone => simp [hnone] at hworkflow
      | file hnone => simp [hnone] at hworkflow
      | single => exact .inr rfl
  · next hworkflow =>
    have hnone : b.config.workflow = none := by simpa using hworkflow
    split at h
    · cases h
    · cases h
      rw [List.mem_append, mem_pushVideos himage, List.mem_append, List.mem_map, List.mem_map, List.mem_filterMap]
      constructor
      · rintro ((⟨w, hw, rfl⟩ | ⟨w, hw, rfl⟩) | ⟨filename, hfile, hd⟩)
        · exact ⟨_, .perModel hw⟩
        · exact ⟨_, .saved hnone hw⟩
        · exact ⟨_, .file hnone hfile hd⟩
      · rintro ⟨e, hoffer⟩
        cases hoffer with
        | perModel hw => exact .inl (.inl ⟨_, hw, rfl⟩)
        | saved _ hw => exact .inl (.inr ⟨_, hw, rfl⟩)
        | file _ hfile hd => exact .inr ⟨_, hfile, hd⟩
        | single hsome => simp [hnone] at hsome

end Offers

section Serving

/-- Which entry a job is served from. -/
def servedBy (L : Text → Text) (b : ComfyBackend) (params : ImageParams) : Except ComfyError Entry :=
  match b.savedFor L params with
  | some w => .ok (.saved w)
  | none =>
    match b.workflowFor L params with
    | some w => .ok (.perModel w)
    | none => (b.checkpointFor L params).map fun
      | some filename => .file filename
      | none => .single

/-- The graph of an entry, with its prompt and its seed filled in. -/
def entryGraph (b : ComfyBackend) (prompt : Text) (seed : ℕ) : Entry → Except ComfyError Json
  | .saved w | .perModel w => fillSlots prompt seed w.slots.entries w.template
  | .file filename => (fillSlots prompt seed b.slots.entries b.template).bind
      (navigate (ofString "4.inputs.ckpt_name") (.str filename))
  | .single => fillSlots prompt seed b.slots.entries b.template

/-- The graph of an entry as it stands. -/
def baseGraph (b : ComfyBackend) : Entry → Option Json
  | .saved w | .perModel w => some w.template
  | .file filename => setAt (.str filename) ["4", "inputs", "ckpt_name"] b.template
  | .single => some b.template

def entrySlots (b : ComfyBackend) : Entry → Slots
  | .saved w | .perModel w => w.slots
  | .file _ | .single => b.slots

theorem graphFor_ok : b.graphFor L params prompt seed = .ok g ↔
    ∃ e, servedBy L b params = .ok e ∧ entryGraph b prompt seed e = .ok g := by
  unfold ComfyBackend.graphFor servedBy
  cases b.savedFor L params with
  | some w => simp [entryGraph]
  | none =>
    cases b.workflowFor L params with
    | some w => simp [entryGraph]
    | none =>
      dsimp only
      cases hfill : fillSlots prompt seed b.slots.entries b.template with
      | error err =>
        refine ⟨fun h => (by cases h), ?_⟩
        rintro ⟨e, he, hg⟩
        cases hcheckpoint : b.checkpointFor L params with
        | error err' =>
          rw [hcheckpoint] at he
          cases he
        | ok c =>
          rw [hcheckpoint] at he
          obtain rfl := Except.ok.inj he
          cases c with
          | none =>
            dsimp only [entryGraph] at hg
            rw [hfill] at hg
            cases hg
          | some filename =>
            dsimp only [entryGraph] at hg
            rw [hfill] at hg
            cases hg
      | ok graph =>
        cases b.checkpointFor L params with
        | error err' =>
          refine ⟨fun h => (by cases h), ?_⟩
          rintro ⟨e, he, -⟩
          cases he
        | ok c =>
          cases c with
          | none =>
            refine ⟨fun h => ⟨.single, rfl, hfill.trans h⟩, ?_⟩
            rintro ⟨e, he, hg⟩
            obtain rfl := Except.ok.inj he
            exact hfill.symm.trans hg
          | some filename =>
            have hgraph : entryGraph b prompt seed (.file filename) =
                navigate (ofString "4.inputs.ckpt_name") (.str filename) graph := by
              rw [entryGraph, hfill]
              rfl
            refine ⟨fun h => ⟨.file filename, rfl, hgraph.trans h⟩, ?_⟩
            rintro ⟨e, he, hg⟩
            obtain rfl := Except.ok.inj he
            exact hgraph.symm.trans hg

end Serving

end Rootmode.Worker.Comfy
