import Rootmode.Lib.FirstHit
import Rootmode.Worker.Catalogue

namespace Rootmode.Desktop

open Lib Lib.Text Worker

/-- How a job's model is shown. -/
def modelLabel (payload : JobPayload) : Text :=
  let (hash, id) := match payload with
    | .llm p => (p.modelHash, p.modelId)
    | .image p => (p.modelHash, p.checkpointId)
    | .video p => (p.modelHash, p.checkpointId)
  (id.or (hash.map fun h => ofString "sha256:" ++ h.take 12)).getD (ofString "peer default")

/-- A model asked for by a longer name still belongs to the provider listing the shorter one. -/
def serves (model : Text) (m : ModelDescriptor) : Bool := m.id == model || m.id.isPrefixOf model

section Entries

variable (models : List ModelDescriptor)

/-- Where the chat screen looks a price up. -/
def chatEntry (payload : JobPayload) : Option ModelDescriptor :=
  models.find? (serves (modelLabel payload))

/-- What the chat screen bonds a job at. -/
def chatPrice (payload : JobPayload) : Option Price :=
  ((chatEntry models payload).bind fun m =>
    match clipQuote payload m with
    | some quote => some (Price.new quote)
    | none => m.price).filter fun p => 0 < p.amount

/-- Where the gateway looks a price up. -/
def gatewayEntry (model : Text) : Option ModelDescriptor := models.find? fun m => m.id == model

def gatewayPrice (model : Text) : Option Price :=
  ((gatewayEntry models model).bind (·.price)).filter fun p => 0 < p.amount

/-- Where the worker looks a price up. -/
def listedEntry (payload : JobPayload) : Option ModelDescriptor :=
  ((JobPayload.model payload).bind fun model => models.find? (named model)).or
    (match models with
      | [m] => some m
      | _ => none)

end Entries

variable {cfg : Config} {models : List ModelDescriptor} {reg : Registry} {params : LlmParams}
  {model : Text}

/-- A chat is admitted at the list price of its entry. -/
theorem listedPrice_entry : listedPrice cfg (.llm params) =
    (listedEntry cfg.models (.llm params)).map modelPrice := by
  unfold listedPrice listedEntry
  cases (JobPayload.model (.llm params)).bind fun model => cfg.models.find? (named model) with
  | some found => rfl
  | none =>
    rcases cfg.models with _ | ⟨m, _ | ⟨_, _⟩⟩ <;> rfl

/-- A chat for a model by name. -/
def chatFor (params : LlmParams) (model : Text) : JobPayload :=
  .llm { params with modelId := some model }

/-- The three sides price a chat by one entry. -/
def LookupsAgree (models : List ModelDescriptor) (params : LlmParams) (model : Text) : Prop :=
  chatEntry models (chatFor params model) = gatewayEntry models model ∧
    gatewayEntry models model = listedEntry models (chatFor params model)

/-- Whatever name the worker routes is priced by one entry. -/
def PricesAgree (reg : Registry) (params : LlmParams) (model : Text) : Prop :=
  ∀ e, reg.route (chatFor params model) = .ok e → LookupsAgree reg.models params model

/-- No entry before the one called so has a name that begins the requested one or that it begins, and
a worker of a single model is asked for it by its name. -/
structure PlainName (models : List ModelDescriptor) (model : Text) : Prop where
  unshadowed : Unshadowed (fun m => m.id == model) (named model) models
  ofMany : ∀ m, models = [m] → named model m

theorem lookups_agree_iff : LookupsAgree models params model ↔ PlainName models model := by
  have hserves : ∀ m : ModelDescriptor, (m.id == model) = true → serves model m := by
    intro m hm
    simp [serves, hm]
  have hnamed : ∀ m : ModelDescriptor, serves model m → named model m := by
    intro m hm
    have hm' : (m.id == model || m.id.isPrefixOf model) = true := hm
    simp [named, hm']
  have hboth : models.find? (serves model) = models.find? (fun m => m.id == model) ∧
      models.find? (fun m => m.id == model) = models.find? (named model) ↔ _ :=
    Unshadowed.find?_eq_both_iff hserves hnamed
  change models.find? (serves model) = models.find? (fun m => m.id == model) ∧
    models.find? (fun m => m.id == model) = (models.find? (named model)).or _ ↔ _
  cases hfound : models.find? (named model) with
  | some found =>
    rw [hfound] at hboth
    rw [Option.some_or, hboth]
    refine ⟨fun h => ⟨h, ?_⟩, PlainName.unshadowed⟩
    rintro m rfl
    obtain rfl := List.mem_singleton.mp (List.mem_of_find?_eq_some hfound)
    exact List.find?_some hfound
  | none =>
    -- no name is near the requested one: only the worker may still find an entry
    have hnone := List.find?_eq_none.mp hfound
    have hserved : models.find? (serves model) = none :=
      List.find?_eq_none.mpr fun m hm h => hnone m hm (hnamed m h)
    have hexact : models.find? (fun m => m.id == model) = none :=
      List.find?_eq_none.mpr fun m hm h => hnone m hm (hnamed m (hserves m h))
    rw [Option.none_or, hserved, hexact]
    constructor
    · rintro ⟨-, h⟩
      refine ⟨hboth.mp ⟨hserved.trans hexact.symm, hexact.trans hfound.symm⟩, ?_⟩
      rintro m rfl
      cases h
    · intro h
      refine ⟨rfl, ?_⟩
      rcases models with _ | ⟨m, _ | ⟨_, _⟩⟩
      · rfl
      · exact absurd (h.ofMany m rfl) (hnone m List.mem_cons_self)
      · rfl

/-- What the two sides of the client bond a chat at is then the same. -/
theorem chatPrice_of_agree (h : LookupsAgree models params model) :
    chatPrice models (chatFor params model) = gatewayPrice models model := by
  rw [chatPrice, gatewayPrice, h.1]
  cases gatewayEntry models model <;> rfl

/-- The three sides price every chat a worker routes by one entry exactly where its name is plain. -/
theorem prices_agree_iff : PricesAgree reg params model ↔
    ∀ e, reg.route (chatFor params model) = .ok e → PlainName reg.models model :=
  forall_congr' fun _ => forall_congr' fun _ => lookups_agree_iff

/-- The screen and the worker price the longer name as the shorter one, the gateway does not. -/
theorem llamas_disagree :
    ¬ PricesAgree llamas { promptTokens := 1 } (ofString "llama-70b") := by
  intro h
  exact absurd (h _ rfl).1 (by decide)

end Rootmode.Desktop
