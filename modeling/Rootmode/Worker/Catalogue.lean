import Rootmode.Worker.LocalNode

namespace Rootmode.Worker

open Lib Lib.Checked Lib.Text Payments

/-- One backend, and the models it has now. -/
structure Entry where
  kind : JobKind
  models : List ModelDescriptor
  deriving DecidableEq

structure Registry where
  entries : List Entry
  deriving DecidableEq

namespace Registry

variable (reg : Registry)

def models : List ModelDescriptor := reg.entries.flatMap Entry.models

def ofKind (kind : JobKind) : List Entry :=
  reg.entries.filter fun e => e.kind == kind || e.models.any fun m => m.kind == kind

/-- A model goes by its id or by its digest. -/
def goesBy (model : Text) (m : ModelDescriptor) : Bool := m.id == model || m.sha256 == some model

def kindText : JobKind → String
  | .llm => "llm"
  | .image => "image"
  | .video => "video"

/-- The backend for a job.  One that advertises nothing still gets a chance at a model nobody
advertises. -/
def route (payload : JobPayload) : Except WorkerError Entry :=
  match reg.ofKind payload.kind, JobPayload.model payload with
  | [], _ =>
    let kind := kindText payload.kind
    .error (.rejected s!"this worker has no {kind} backend")
  | first :: _, none => .ok first
  | first :: rest, some model =>
    let found := (first :: rest).find? fun e => e.models.any (goesBy model)
    let silent := (first :: rest).find? fun e => e.models.isEmpty
    let asked := model.str
    let offered := listOf (reg.models.map fun m => m.id.str)
    demand (found.or silent) (.rejected s!"model '{asked}' is not served here (have: {offered})")

end Registry

/-- Tokens, as a chat is billed. -/
structure TokenUsage where
  prompt : ℕ := 0
  completion : ℕ := 0
  cached : ℕ := 0
  reasoning : ℕ := 0
  deriving DecidableEq

namespace TokenUsage

def isZero (u : TokenUsage) : Bool := u.prompt == 0 && u.completion == 0

/-- The larger of what was counted here and what the provider reports. -/
def reconcile (ours : TokenUsage) (reported : Option TokenUsage) : TokenUsage :=
  match reported.filter fun r => !r.isZero with
  | none => ours
  | some theirs =>
    let prompt := max ours.prompt theirs.prompt
    let completion := max ours.completion theirs.completion
    { prompt, completion, cached := min theirs.cached prompt
      reasoning := min (max ours.reasoning theirs.reasoning) completion }

end TokenUsage

/-- What a backend hands back. -/
structure JobResult where
  kind : JobKind
  /-- The model its meta names. -/
  model : Option Text
  /-- What prompt and answer of a chat measure at. -/
  measured : TokenUsage
  /-- What its meta reports. -/
  reported : Option TokenUsage
  minBillMicros : Option ℕ
  deriving DecidableEq

variable (cfg : Config)

/-- What this node charges for whatever produced a result. -/
def priceOf (result : JobResult) : Price :=
  match result.model with
  | none => {}
  | some model => ((cfg.models.find? fun m => m.id == model).bind (·.price)).getD {}

/-- A clip is billed at the quote for its shape. -/
def billPrice (payload : JobPayload) (result : JobResult) : Price :=
  match result.kind with
  | .video => advertisedPrice cfg payload
  | _ => priceOf cfg result

def billMicros (payload : JobPayload) (result : JobResult) : Micros :=
  let price := billPrice cfg payload result
  if price.isFree then 0
  else
    match result.kind with
    | .llm =>
      let ours := match payload with
        | .llm _ => result.measured
        | _ => {}
      let usage := ours.reconcile result.reported
      max (price.chargeLlmMicros usage.prompt usage.completion usage.cached)
        (result.minBillMicros.getD 0)
    | .image | .video =>
      let flat := castWord 64 (max (roundAway (price.amount * 1_000_000)) 1)
      match result.minBillMicros with
      | some floor => max (min floor flat) 1
      | none => flat

section Priced

variable (reg : Registry) (payload : JobPayload) (m : ModelDescriptor)

/-- What a model is advertised at for a job: the quote for a clip on its menu, its price otherwise. -/
def modelQuote : Price :=
  match clipQuote payload m with
  | some quote => Price.new quote
  | none => modelPrice m

/-- The job asks for this model, or for none in particular. -/
def Asks : Prop := ∀ model ∈ JobPayload.model payload, Registry.goesBy model m

/-- The job is admitted, and billed when its result names the model, at the model's price. -/
structure PricedAs (cfg : Config) (payload : JobPayload) (m : ModelDescriptor) : Prop where
  listed : listedPrice cfg payload = some (modelQuote payload m)
  billed : ∀ result : JobResult, result.kind = payload.kind → result.model = some m.id →
    billPrice cfg payload result = modelQuote payload m

/-- Whatever model of the backend a job is routed to serves it, its price is the job's. -/
def ServedAsPriced (cfg : Config) (reg : Registry) (payload : JobPayload) : Prop :=
  ∀ e, reg.route payload = .ok e → ∀ m ∈ e.models, Asks payload m →
    PricedAs { cfg with models := reg.models } payload m

/-- The model a name finds first, among all the models of the node. -/
def firstNamed : Option ModelDescriptor :=
  (JobPayload.model payload).bind fun model => reg.models.find? (named model)

/-- The first model the job's name finds costs what the job's model does.  A job whose name finds none
must be for the only model there is, at its list price.  A bill goes by the first model of the same
id. -/
structure RightPrice : Prop where
  first : ∀ found, firstNamed reg payload = some found → modelQuote payload found = modelQuote payload m
  only : firstNamed reg payload = none → reg.models = [m] ∧ modelPrice m = modelQuote payload m
  sameId : payload.kind ≠ .video → ∀ other, (reg.models.find? fun x => x.id == m.id) = some other →
    other.price.getD {} = modelQuote payload m

variable {reg} {payload} {m}

theorem route_mem {e : Entry} (h : reg.route payload = .ok e) : e ∈ reg.entries := by
  have hfilter : e ∈ reg.ofKind payload.kind := by
    unfold Registry.route at h
    split at h
    · cases h
    · next first rest _ hkind _ =>
      cases h
      rw [hkind]
      exact List.mem_cons_self
    · next first rest model hkind _ =>
      rw [demand_eq_ok, Option.or_eq_some_iff] at h
      rw [hkind]
      cases h with
      | inl hfound => exact List.mem_of_find?_eq_some hfound
      | inr hsilent => exact List.mem_of_find?_eq_some hsilent.2
  exact List.mem_of_mem_filter hfilter

theorem listedPrice_eq : listedPrice { cfg with models := reg.models } payload =
    match firstNamed reg payload with
    | some found => some (modelQuote payload found)
    | none =>
      match reg.models with
      | [x] => some (modelPrice x)
      | _ => none := by
  unfold listedPrice firstNamed
  cases (JobPayload.model payload).bind fun model => reg.models.find? (named model) with
  | none => rfl
  | some found =>
    simp only [modelQuote]
    cases clipQuote payload found <;> rfl

theorem listed_iff (hm : m ∈ reg.models) :
    listedPrice { cfg with models := reg.models } payload = some (modelQuote payload m) ↔
      (∀ found, firstNamed reg payload = some found →
        modelQuote payload found = modelQuote payload m) ∧
      (firstNamed reg payload = none →
        reg.models = [m] ∧ modelPrice m = modelQuote payload m) := by
  rw [listedPrice_eq]
  cases firstNamed reg payload with
  | some found => simp
  | none =>
    simp only [reduceCtorEq, false_implies, implies_true, true_and, true_implies]
    constructor
    · intro h
      split at h
      · next x hmodels =>
        rw [hmodels, List.mem_singleton] at hm
        subst hm
        exact ⟨hmodels, Option.some.inj h⟩
      · cases h
    · rintro ⟨hmodels, hprice⟩
      rw [hmodels]
      exact congrArg some hprice

theorem priceOf_first (result : JobResult) (hresult : result.model = some m.id)
    (hm : m ∈ reg.models) : ∃ other, (reg.models.find? fun x => x.id == m.id) = some other ∧
      priceOf { cfg with models := reg.models } result = other.price.getD {} := by
  obtain ⟨other, hother⟩ : ∃ other, (reg.models.find? fun x => x.id == m.id) = some other :=
    Option.isSome_iff_exists.mp (List.find?_isSome.mpr ⟨m, hm, beq_self_eq_true m.id⟩)
  refine ⟨other, hother, ?_⟩
  rw [priceOf, hresult]
  simp only [hother, Option.bind_some]

theorem billPrice_of_ne_video {result : JobResult} (h : result.kind ≠ .video) :
    billPrice cfg payload result = priceOf cfg result := by
  unfold billPrice
  cases hkind : result.kind with
  | video => exact absurd hkind h
  | llm => rfl
  | image => rfl

theorem pricedAs_iff (hm : m ∈ reg.models) :
    PricedAs { cfg with models := reg.models } payload m ↔ RightPrice reg payload m := by
  constructor
  · rintro ⟨hlisted, hbilled⟩
    obtain ⟨hfirst, honly⟩ := (listed_iff cfg hm).mp hlisted
    refine ⟨hfirst, honly, ?_⟩
    intro hkind other hother
    let result : JobResult :=
      { kind := payload.kind, model := some m.id, measured := {}, reported := none
        minBillMicros := none }
    have hbill := hbilled result rfl rfl
    rw [billPrice_of_ne_video _ hkind] at hbill
    obtain ⟨first, hsome, hprice⟩ := priceOf_first cfg result rfl hm
    obtain rfl : first = other := Option.some.inj (hsome.symm.trans hother)
    exact hprice.symm.trans hbill
  · rintro ⟨hfirst, honly, hsame⟩
    have hlisted := (listed_iff cfg hm).mpr ⟨hfirst, honly⟩
    refine ⟨hlisted, ?_⟩
    intro result hkind hmodel
    by_cases hvideo : result.kind = .video
    · rw [billPrice, hvideo]
      exact congrArg (·.getD {}) hlisted
    · rw [billPrice_of_ne_video _ hvideo]
      obtain ⟨other, hother, hprice⟩ := priceOf_first cfg result hmodel hm
      exact hprice.trans (hsame (hkind ▸ hvideo) other hother)

/-- A node serves every job at the price of the model that serves it exactly where the job's name
finds a model of that price first. -/
theorem served_as_priced_iff : ServedAsPriced cfg reg payload ↔
    ∀ e, reg.route payload = .ok e → ∀ m ∈ e.models, Asks payload m → RightPrice reg payload m := by
  refine forall_congr' fun e => forall_congr' fun hroute => forall_congr' fun m =>
    forall_congr' fun hm => forall_congr' fun _ => ?_
  exact pricedAs_iff cfg (List.mem_flatMap.mpr ⟨e, route_mem hroute, hm⟩)

/-- Two models of one backend, the shorter name free. -/
def llamas : Registry where
  entries :=
    [{ kind := .llm
       models :=
        [{ id := ofString "llama", kind := .llm },
         { id := ofString "llama-70b", kind := .llm, price := some (Price.new 10) }] }]

def chatWith (model : String) : JobPayload := .llm { modelId := some (ofString model), promptTokens := 1 }

/-- The dear one is admitted as the free one. -/
theorem served_unpriced : ¬ ServedAsPriced LocalNode.config llamas (chatWith "llama-70b") := by
  intro h
  have hpriced := h _ rfl { id := ofString "llama-70b", kind := .llm, price := some (Price.new 10) }
    (by decide +kernel) (by rintro _ ⟨⟩; decide +kernel)
  exact absurd hpriced.listed (by decide +kernel)

end Priced

end Rootmode.Worker
