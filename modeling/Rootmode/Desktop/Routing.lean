import Mathlib.Data.Char
import Mathlib.Data.List.Sort
import Mathlib.Data.List.Lex
import Rootmode.Desktop.Lookup

namespace Rootmode.Desktop

open Lib Lib.Text

/-- A provider the app knows of. -/
structure Peer where
  id : Text
  label : Text
  status : Text := ofString "online"
  latencyMs : Option ℕ := none
  models : List ModelDescriptor
  deriving DecidableEq

def Peer.online (p : Peer) : Bool := p.status == ofString "online"

/-- What a random number generator gives, draw after draw. -/
abbrev Rng := ℕ → ℕ

/-- One model one can ask for, and the provider that would serve it. -/
structure ModelOption where
  model : Text
  kind : JobKind
  providers : ℕ
  peerId : Text
  peerLabel : Text
  price : ℚ
  latencyMs : Option ℕ
  unpriced : Bool
  deriving DecidableEq

section Offers

variable (peers : List Peer) (kind : JobKind)

/-- What is announced online of a kind, in the order the loops meet it. -/
def offers : List (Peer × ModelDescriptor) :=
  (peers.filter Peer.online).flatMap fun peer =>
    (peer.models.filter fun m => m.kind == kind).map (peer, ·)

def candidate (offer : Peer × ModelDescriptor) : ModelOption :=
  { model := offer.2.id
    kind
    providers := 1
    peerId := offer.1.id
    peerLabel := offer.1.label
    price := offer.2.amount
    latencyMs := offer.1.latencyMs
    unpriced := offer.2.price.all fun p => p.isFree }

end Offers

/-- The menu while it is put together: how many tie for the price of each model, and how many draws
were made. -/
structure Menu where
  options : List ModelOption := []
  ties : Text → Option ℕ := fun _ => none
  drawn : ℕ := 0

namespace Menu

/-- The first entry that passes changed in place. -/
def modifyFirst {α : Type*} (p : α → Bool) (f : α → α) : List α → List α
  | [] => []
  | a :: l => if p a then f a :: l else a :: modifyFirst p f l

/-- Whether a newcomer takes the place of who holds its model: always when cheaper, and of `n` at
one price with probability `1/n`. -/
def challenge (rng : Rng) (candidate existing : ModelOption) (menu : Menu) : Bool × Menu :=
  if candidate.price < existing.price then
    (true, { menu with ties := Function.update menu.ties candidate.model (some 1) })
  else if candidate.price = existing.price then
    let n := (menu.ties candidate.model).getD 1 + 1
    (rng menu.drawn % n == 0,
      { menu with ties := Function.update menu.ties candidate.model (some n), drawn := menu.drawn + 1 })
  else (false, menu)

def add (rng : Rng) (menu : Menu) (candidate : ModelOption) : Menu :=
  match menu.options.find? fun o => o.model == candidate.model with
  | some existing =>
    let providers := existing.providers + 1
    let challenged := menu.challenge rng candidate existing
    let now := if challenged.1 then { candidate with providers } else { existing with providers }
    { challenged.2 with
      options := modifyFirst (fun o => o.model == candidate.model) (fun _ => now) menu.options }
  | none =>
    { menu with
      ties := Function.update menu.ties candidate.model (some 1)
      options := menu.options ++ [candidate] }

end Menu

/-- By price, and at one price by name. -/
def cheaperOrFirst (a b : ModelOption) : Bool :=
  a.price < b.price || (a.price == b.price && a.model ≤ b.model)

/-- Every model on offer, with its best provider. -/
def modelOptions (rng : Rng) (peers : List Peer) (kind : JobKind) : List ModelOption :=
  (((offers peers kind).map (candidate kind)).foldl (Menu.add rng) {}).options.mergeSort cheaperOrFirst

/-- Who to try next. -/
structure Fallback where
  peerId : Text
  peerLabel : Text
  model : Text
  deriving DecidableEq

/-- The two lists of fallbacks while they are put together. -/
structure Drawn where
  same : List (ℚ × ℕ × Fallback) := []
  otherFree : List (ℕ × Fallback) := []
  drawn : ℕ := 0

section Fallbacks

variable (rng : Rng) (peers : List Peer) (kind : JobKind) (model firstPeerId : Text)

/-- The first entry of the first choice's provider that its name fits. -/
def firstEntry : Option ModelDescriptor :=
  (peers.find? fun p => p.id == firstPeerId).bind fun p =>
    p.models.find? fun m => m.kind == kind && serves model m

def firstPrice : ℚ := ((firstEntry peers kind model firstPeerId).map ModelDescriptor.amount).getD 0

def asFallback (offer : Peer × ModelDescriptor) : Fallback :=
  { peerId := offer.1.id, peerLabel := offer.1.label, model := offer.2.id }

def Drawn.add (first : ℚ) (lists : Drawn) (offer : Peer × ModelDescriptor) : Drawn :=
  let price := offer.2.amount
  if serves model offer.2 then
    if price ≤ first then
      { lists with
        same := lists.same ++ [(price, rng lists.drawn, asFallback offer)]
        drawn := lists.drawn + 1 }
    else lists
  else if first ≤ 0 ∧ price ≤ 0 ∧ kind = .llm then
    { lists with
      otherFree := lists.otherFree ++ [(rng lists.drawn, asFallback offer)]
      drawn := lists.drawn + 1 }
  else lists

/-- Providers worth trying, in order, after the first choice gave nothing. -/
def fallbacks : List Fallback :=
  let first := firstPrice peers kind model firstPeerId
  let others := offers (peers.filter fun p => p.id != firstPeerId) kind
  let lists := others.foldl (Drawn.add rng kind model first) {}
  let same := lists.same.mergeSort fun a b => a.1 < b.1 || (a.1 == b.1 && a.2.1 ≤ b.2.1)
  let otherFree := lists.otherFree.mergeSort fun a b => a.1 ≤ b.1
  same.map (·.2.2) ++ otherFree.map (·.2)

end Fallbacks

end Rootmode.Desktop
