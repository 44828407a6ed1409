import Rootmode.Desktop.Menu

namespace Rootmode.Desktop

open Lib Lib.Text

variable {rng : Rng} {peers : List Peer} {kind : JobKind} {model firstPeerId : Text} {first p : ℚ}
  {f : Fallback} {offer : Peer × ModelDescriptor} {rest : List (Peer × ModelDescriptor)} {lists : Drawn}

/-- What goes in either list. -/
def Taken (kind : JobKind) (model : Text) (first : ℚ) (offer : Peer × ModelDescriptor) : Prop :=
  (serves model offer.2 = true ∧ offer.2.amount ≤ first) ∨
    (serves model offer.2 = false ∧ first ≤ 0 ∧ offer.2.amount ≤ 0 ∧ kind = .llm)

def Drawn.names (lists : Drawn) : List Fallback := lists.same.map (·.2.2) ++ lists.otherFree.map (·.2)

theorem Drawn.mem_names_add : f ∈ (Drawn.add rng kind model first lists offer).names ↔
    f ∈ lists.names ∨ (Taken kind model first offer ∧ asFallback offer = f) := by
  unfold Drawn.add Taken
  dsimp only
  cases hserves : serves model offer.2 with
  | true =>
    rw [if_pos rfl]
    split
    · next hle =>
      simp only [names, hle, List.map_append, List.mem_append, List.map_cons, List.map_nil, List.mem_singleton]
      tauto
    · next hle => simp [hle]
  | false =>
    rw [if_neg (by simp)]
    split
    · next hfree =>
      simp only [names, hfree, List.map_append, List.mem_append, List.map_cons, List.map_nil, List.mem_singleton]
      tauto
    · next hfree => simp [hfree]

theorem Drawn.mem_names_foldl : f ∈ (rest.foldl (Drawn.add rng kind model first) lists).names ↔
    f ∈ lists.names ∨ ∃ offer ∈ rest, Taken kind model first offer ∧ asFallback offer = f := by
  induction rest generalizing lists with
  | nil => simp
  | cons offer rest ih =>
    rw [List.foldl_cons, ih, mem_names_add, or_assoc]
    simp

/-- What others than the first choice offer online. -/
def othersThan (peers : List Peer) (kind : JobKind) (firstPeerId : Text) : List (Peer × ModelDescriptor) :=
  offers (peers.filter fun p => p.id != firstPeerId) kind

theorem mem_othersThan : offer ∈ othersThan peers kind firstPeerId ↔
    offer ∈ offers peers kind ∧ offer.1.id ≠ firstPeerId := by
  obtain ⟨peer, m⟩ := offer
  rw [othersThan, mem_offers, mem_offers, List.mem_filter, bne_iff_ne]
  tauto

/-- Whatever is drawn, the fallbacks are the offers that were taken. -/
theorem mem_fallbacks : f ∈ fallbacks rng peers kind model firstPeerId ↔
    ∃ offer ∈ othersThan peers kind firstPeerId,
      Taken kind model (firstPrice peers kind model firstPeerId) offer ∧ asFallback offer = f := by
  have hrun := @Drawn.mem_names_foldl rng kind model (firstPrice peers kind model firstPeerId) f
    (othersThan peers kind firstPeerId) {}
  rw [Drawn.names] at hrun
  simpa [fallbacks, othersThan, Drawn.names] using hrun

/-- An offer one chose, and what it asks. -/
def Chosen (peers : List Peer) (kind : JobKind) (model firstPeerId : Text) (p : ℚ) : Prop :=
  ∃ peer ∈ peers, peer.id = firstPeerId ∧ ∃ m ∈ peer.models, m.kind = kind ∧ m.id = model ∧ m.amount = p

/-- An online peer offers what a fallback names for no more than that. -/
def OfferedAt (peers : List Peer) (kind : JobKind) (p : ℚ) (f : Fallback) : Prop :=
  ∃ offer ∈ offers peers kind, asFallback offer = f ∧ offer.2.amount ≤ p

/-- The fallbacks respect a choice at a price. -/
structure Respects (peers : List Peer) (kind : JobKind) (model firstPeerId : Text) (p : ℚ)
    (fs : List Fallback) : Prop where
  noDearer : ∀ f ∈ fs, OfferedAt peers kind p f
  sameModel : 0 < p → ∀ f ∈ fs, f.model = model
  staysFree : p ≤ 0 → ∀ f ∈ fs, OfferedAt peers kind 0 f
  complete : ∀ offer ∈ offers peers kind, offer.1.id ≠ firstPeerId → offer.2.id = model →
    offer.2.amount ≤ p → asFallback offer ∈ fs

/-- No other offer shows that the first choice was priced by an entry that is not it, and for a paid
choice none has a name that begins the chosen one. -/
structure Unmistaken (peers : List Peer) (kind : JobKind) (model firstPeerId : Text) (p : ℚ) : Prop where
  notAbove : ∀ offer ∈ othersThan peers kind firstPeerId, serves model offer.2 = true →
    offer.2.amount ≤ firstPrice peers kind model firstPeerId → OfferedAt peers kind p (asFallback offer)
  notBelow : ∀ offer ∈ othersThan peers kind firstPeerId, offer.2.id = model → offer.2.amount ≤ p →
    OfferedAt peers kind (firstPrice peers kind model firstPeerId) (asFallback offer)
  named : 0 < p → ∀ offer ∈ othersThan peers kind firstPeerId, serves model offer.2 = true →
    offer.2.amount ≤ firstPrice peers kind model firstPeerId → offer.2.id = model
  notFree : 0 < p → kind = .llm → firstPrice peers kind model firstPeerId ≤ 0 →
    ∀ offer ∈ othersThan peers kind firstPeerId, offer.2.amount ≤ 0 → serves model offer.2 = true

theorem serves_self (m : ModelDescriptor) : serves m.id m = true := by simp [serves]

theorem Chosen.nonneg (h : Chosen peers kind model firstPeerId p) : 0 ≤ p := by
  obtain ⟨_, -, -, m, -, -, -, rfl⟩ := h
  exact m.amount_nonneg

theorem respects_of_unmistaken (hchosen : Chosen peers kind model firstPeerId p)
    (h : Unmistaken peers kind model firstPeerId p) (rng : Rng) :
    Respects peers kind model firstPeerId p (fallbacks rng peers kind model firstPeerId) := by
  have hdearer : ∀ f ∈ fallbacks rng peers kind model firstPeerId, OfferedAt peers kind p f := by
    intro f hf
    obtain ⟨offer, hoffer, ⟨hserves, hle⟩ | ⟨-, -, hfree, -⟩, rfl⟩ := mem_fallbacks.mp hf
    · exact h.notAbove offer hoffer hserves hle
    · exact ⟨offer, (mem_othersThan.mp hoffer).1, rfl, hfree.trans hchosen.nonneg⟩
  constructor
  · exact hdearer
  · intro hpaid f hf
    obtain ⟨offer, hoffer, ⟨hserves, hle⟩ | ⟨hserves, hfirst, hfree, hkind⟩, rfl⟩ := mem_fallbacks.mp hf
    · exact h.named hpaid offer hoffer hserves hle
    · have hserves' := h.notFree hpaid hkind hfirst offer hoffer hfree
      rw [hserves] at hserves'
      cases hserves'
  · intro hfree
    rw [← le_antisymm hfree hchosen.nonneg]
    exact hdearer
  · intro offer hoffer hother hmodel hle
    obtain ⟨offer', hoffer', hsame, hle'⟩ :=
      h.notBelow offer (mem_othersThan.mpr ⟨hoffer, hother⟩) hmodel hle
    have hid : offer'.1.id = offer.1.id := congrArg Fallback.peerId hsame
    have hmodel' : offer'.2.id = model := (congrArg Fallback.model hsame).trans hmodel
    refine mem_fallbacks.mpr ⟨offer', mem_othersThan.mpr ⟨hoffer', hid ▸ hother⟩, .inl ⟨?_, hle'⟩, hsame⟩
    exact hmodel' ▸ serves_self offer'.2

theorem unmistaken_of_respects
    (h : Respects peers kind model firstPeerId p (fallbacks rng peers kind model firstPeerId)) :
    Unmistaken peers kind model firstPeerId p := by
  have htaken : ∀ offer ∈ othersThan peers kind firstPeerId,
      Taken kind model (firstPrice peers kind model firstPeerId) offer →
      asFallback offer ∈ fallbacks rng peers kind model firstPeerId :=
    fun offer hoffer htaken => mem_fallbacks.mpr ⟨offer, hoffer, htaken, rfl⟩
  constructor
  · intro offer hoffer hserves hle
    exact h.noDearer _ (htaken offer hoffer (.inl ⟨hserves, hle⟩))
  · intro offer hoffer hmodel hle
    obtain ⟨hmem, hother⟩ := mem_othersThan.mp hoffer
    obtain ⟨offer', hoffer', htook, hsame⟩ := mem_fallbacks.mp (h.complete offer hmem hother hmodel hle)
    have hmodel' : offer'.2.id = model := (congrArg Fallback.model hsame).trans hmodel
    refine ⟨offer', (mem_othersThan.mp hoffer').1, hsame, ?_⟩
    rcases htook with ⟨-, hle'⟩ | ⟨hserves, -⟩
    · exact hle'
    · rw [← hmodel', serves_self] at hserves
      cases hserves
  · intro hpaid offer hoffer hserves hle
    exact h.sameModel hpaid _ (htaken offer hoffer (.inl ⟨hserves, hle⟩))
  · intro hpaid hkind hfirst offer hoffer hfree
    by_contra hserves
    have hfalse := Bool.eq_false_iff.mpr hserves
    have hmodel : offer.2.id = model :=
      h.sameModel hpaid _ (htaken offer hoffer (.inr ⟨hfalse, hfirst, hfree, hkind⟩))
    exact hserves (hmodel ▸ serves_self offer.2)

/-- Whatever is drawn, the fallbacks respect a choice exactly where the loose match does not mistake
another entry for the chosen one. -/
theorem fallbacks_law (h : Chosen peers kind model firstPeerId p) :
    (∀ rng, Respects peers kind model firstPeerId p (fallbacks rng peers kind model firstPeerId)) ↔
      Unmistaken peers kind model firstPeerId p :=
  ⟨fun hrespects => unmistaken_of_respects (hrespects fun _ => 0), respects_of_unmistaken h⟩

/-- The entry the first choice is priced by is the chosen one's, and nobody else's name begins it. -/
theorem unmistaken_of_plain (hprice : firstPrice peers kind model firstPeerId = p)
    (hnames : ∀ offer ∈ othersThan peers kind firstPeerId, serves model offer.2 = true → offer.2.id = model) :
    Unmistaken peers kind model firstPeerId p := by
  have hself : ∀ offer ∈ othersThan peers kind firstPeerId, offer.2.amount ≤ p →
      OfferedAt peers kind p (asFallback offer) :=
    fun offer hoffer hle => ⟨offer, (mem_othersThan.mp hoffer).1, rfl, hle⟩
  constructor
  · intro offer hoffer _ hle
    exact hself offer hoffer (hprice ▸ hle)
  · intro offer hoffer _ hle
    exact hprice ▸ hself offer hoffer hle
  · intro _ offer hoffer hserves _
    exact hnames offer hoffer hserves
  · intro hpaid _ hfirst
    exact absurd (hprice ▸ hfirst) (not_le.mpr hpaid)

/-- A node with a paid small model and a free large one, whose name the small one's begins, and one
that asks for the large one. -/
def llamaNodes : List Peer :=
  [ { id := ofString "a", label := ofString "a"
      models := [{ id := ofString "llama", kind := .llm, price := some { amount := 1 / 2 } },
        { id := ofString "llama-70b", kind := .llm }] },
    { id := ofString "b", label := ofString "b"
      models := [{ id := ofString "llama-70b", kind := .llm, price := some { amount := 2 / 5 } }] } ]

instance : Decidable (OfferedAt peers kind p f) := inferInstanceAs (Decidable (∃ offer ∈ offers peers kind, _))

instance : Decidable (Chosen peers kind model firstPeerId p) :=
  inferInstanceAs (Decidable (∃ peer ∈ peers, _ ∧ ∃ m ∈ peer.models, _))

/-- What a and b offer, and how a's large model is priced. -/
theorem llamaNodes_offers :
    Chosen llamaNodes .llm (ofString "llama-70b") (ofString "a") 0 ∧
      Chosen llamaNodes .llm (ofString "llama-70b") (ofString "b") (2 / 5) ∧
      ¬ OfferedAt llamaNodes .llm 0 ⟨ofString "b", ofString "b", ofString "llama-70b"⟩ ∧
      ∃ offer ∈ othersThan llamaNodes .llm (ofString "a"), serves (ofString "llama-70b") offer.2 = true ∧
        offer.2.amount ≤ firstPrice llamaNodes .llm (ofString "llama-70b") (ofString "a") ∧
        asFallback offer = ⟨ofString "b", ofString "b", ofString "llama-70b"⟩ := by
  decide +kernel

theorem fallbacks_law_twins :
    (∀ rng, Respects llamaNodes .llm (ofString "llama-70b") (ofString "b") (2 / 5)
      (fallbacks rng llamaNodes .llm (ofString "llama-70b") (ofString "b"))) ↔
    Unmistaken llamaNodes .llm (ofString "llama-70b") (ofString "b") (2 / 5) :=
  fallbacks_law llamaNodes_offers.2.1

/-- The free large one is retried on the paid one. -/
theorem fallbacks_charge :
    Chosen llamaNodes .llm (ofString "llama-70b") (ofString "a") 0 ∧
      ¬ ∀ rng, Respects llamaNodes .llm (ofString "llama-70b") (ofString "a") 0
        (fallbacks rng llamaNodes .llm (ofString "llama-70b") (ofString "a")) := by
  obtain ⟨hchosen, -, hpaid, offer, hmem, hserves, hle, heq⟩ := llamaNodes_offers
  refine ⟨hchosen, fun h => hpaid ?_⟩
  exact heq ▸ (unmistaken_of_respects (h fun _ => 0)).notAbove offer hmem hserves hle

end Rootmode.Desktop
