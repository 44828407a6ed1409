import Rootmode.Core.Job
import Rootmode.Worker.Chain
import Rootmode.Worker.Channels

namespace Rootmode.Worker

open Lib Lib.Checked Lib.Text Payments

abbrev Uuid := BitVec 128

/-- The client's spend ticket for one job. -/
structure JobPay where
  jobId : Uuid
  ticket : SpendTicket
  sig : Text
  deriving DecidableEq

/-- A signed reserve for the worker to post. -/
structure ReservePost where
  ticket : ReserveTicket
  sig : Text
  deriving DecidableEq

structure JobSubmit where
  jobId : Uuid
  payload : JobPayload
  spend : Option SpendingAuth := none
  payer : Option Text := none
  bond : Option JobPay := none
  reserve : Option ReservePost := none
  deriving DecidableEq

/-- A prepaid chunk, held until it is captured. -/
structure Bond where
  pay : JobPay
  delta : Micros
  /-- The account's app key on the chain, empty until the lock was checked. -/
  appKey : Text
  deriving DecidableEq

/-- The bonds held, by the job they are for. -/
abbrev Bonds := Uuid → Option Bond

structure Config where
  payments : PaymentsConfig
  payoutAddress : Text
  /-- What the registry offers. -/
  models : List ModelDescriptor
  deriving DecidableEq

/-- The payout address, if what is configured looks like one. -/
def payoutOf (raw : Text) : Option Text :=
  let address := trim raw
  if address.length = 42 ∧ address.take 2 = ofString "0x" ∧
      (address.drop 2).all fun c => (Hex.val c.toNat).isSome then some address
  else none

/-- An amount in dollars, to so many decimal places. -/
def dollars (places : ℕ) (micros : Micros) : String :=
  let unit := 10 ^ (6 - places)
  let scaled := (micros + unit / 2) / unit
  let whole := scaled / 10 ^ places
  let digits := (toString (scaled % 10 ^ places)).toList
  let fraction := String.ofList (List.replicate (places - digits.length) '0' ++ digits)
  s!"${whole}.{fraction}"

def rejectedAs (what : String) (e : CoreError) : WorkerError :=
  let shown := e.text
  .rejected s!"{what}: {shown}"

variable (cfg : Config)

section Prices

/-- The model a job names. -/
def JobPayload.model : JobPayload → Option Text
  | .llm p => p.modelId.or p.modelHash
  | .image p => p.checkpointId.or p.modelHash
  | .video p => p.checkpointId.or p.modelHash

/-- A name finds a model whose id it begins with, or that begins with it. -/
def named (model : Text) (m : ModelDescriptor) : Bool :=
  m.id == model || m.id.isPrefixOf model || model.isPrefixOf m.id

/-- The quote for a clip on the menu of a model that has one. -/
def clipQuote (payload : JobPayload) (m : ModelDescriptor) : Option ℚ :=
  match payload, m.video with
  | .video p, some offer =>
    match offer.shapeFor p with
    | .ok shape => offer.quoteUsd shape
    | .error _ => none
  | _, _ => none

def modelPrice (m : ModelDescriptor) : Price := (m.price.getD {}).roundProtocol

/-- The price this node lists for the model of a job, none when it is not in the catalogue. -/
def listedPrice (payload : JobPayload) : Option Price :=
  match (JobPayload.model payload).bind fun model => cfg.models.find? (named model) with
  | some found =>
    match clipQuote payload found with
    | some quote => some (Price.new quote)
    | none => some (modelPrice found)
  | none =>
    match cfg.models with
    | [m] => some (modelPrice m)
    | _ => none

def advertisedPrice (payload : JobPayload) : Price := (listedPrice cfg payload).getD {}

/-- This job must be prepaid in chunks before anything is streamed. -/
def holdbackFor (payload : JobPayload) : Prop :=
  cfg.payments.domain.isSome ∧ ¬ (advertisedPrice cfg payload).isFree

instance (payload : JobPayload) : Decidable (holdbackFor cfg payload) :=
  inferInstanceAs (Decidable (_ ∧ _))

/-- The fixed bill of a picture or a clip. -/
def flatMicros (payload : JobPayload) : Micros :=
  castWord 64 (roundAway ((advertisedPrice cfg payload).amount * 1_000_000))

end Prices

variable (C : Crypto)

/-- Bank an earlier kind of authorisation, if one came with the job. -/
def takePayment (chs : Channels) (submit : JobSubmit) (holdback : Bool) (now : ℤ) :
    Except WorkerError Channels :=
  match cfg.payments.domain, submit.spend with
  | none, _ => .ok chs
  | some d, some auth =>
    match chs.accept C auth d now with
    | .ok (_, chs) => .ok chs
    | .error e => .error (.rejected s!"payment authorisation: {e}")
  | some _, none =>
    if cfg.payments.requireAuth && !holdback then
      if (listedPrice cfg submit.payload).any fun price => price.isFree then .ok chs
      else .error (.rejected
        "this node requires a signed spending authorisation with each job")
    else .ok chs

/-- Hold the prepaid chunk of a job.  The answer is what it adds to the channel, what the channel
had authorised before, and the bonds with it. -/
def takeBond (chs : Channels) (bonds : Bonds) (submit : JobSubmit) :
    Except WorkerError (Micros × Micros × Bonds) := do
  let bond ← demand submit.bond
    (.rejected "priced jobs need a signed 1M-token chunk before work")
  require (bond.jobId = submit.jobId) (.rejected "chunk ticket is for a different job")
  let d ← demand cfg.payments.domain (.rejected "this node has no settlement contract")
  let _ ← (bond.ticket.recover C d bond.sig).mapError (rejectedAs "chunk ticket")
  require (∀ payout ∈ payoutOf cfg.payoutAddress,
      eqIgnoreAsciiCase bond.ticket.workerPayout payout)
    (.rejected "chunk ticket is for a different worker")
  require (∀ payer ∈ submit.payer, eqIgnoreAsciiCase bond.ticket.client payer)
    (.rejected "chunk ticket is for a different payer")
  let already := chs.authorisedFor C bond.ticket.client bond.ticket.workerPayout
  require (already < bond.ticket.cumulative)
    (.rejected "chunk ticket does not raise the authorised spend")
  let delta := bond.ticket.cumulative - already
  return (delta, already,
    Function.update bonds submit.jobId (some { pay := bond, delta, appKey := [] }))

/-- What the prompt of a job costs at the input rate. -/
def promptMicros (price : Price) (prompt : ℕ) : Micros :=
  castWord 64 ⌈prompt * max price.llmRates.input price.llmRates.cacheWrite⌉

/-- How many tokens of answer the rest of a bond buys. -/
def roomFor (price : Price) (left : Micros) : ℕ :=
  if 0 < price.llmRates.output then castWord 64 ⌊left / price.llmRates.output⌋ else 2 ^ 64 - 1

/-- Bound generation to what is already prepaid. -/
def clampToChunk (payload : JobPayload) (bondMicros already : Micros) :
    Except WorkerError JobPayload :=
  match payload with
  | .llm params =>
    let price := advertisedPrice cfg payload
    let prompt := params.promptTokens
    let cost := promptMicros price prompt
    if bondMicros ≤ cost then
      let raise := dollars 4 bondMicros
      let shown := dollars 4 cost
      .error (.rejected s!"the prepaid ticket raises this channel by only {raise} (already authorised {already}), and the prompt alone is {prompt} tokens (about {shown} at this model's input rate)")
    else
      let room := roomFor price (bondMicros - cost)
      .ok (.llm { params with maxTokens := min params.maxTokens (min (max room 1) (2 ^ 32 - 1)) })
  | payload => .ok payload

section Lock

variable {κ : Type} (R : Rpc κ)

def readChannel (payer payout : Text) : Effect WorkerError κ (Option ChannelState) :=
  Chain.channelState C R cfg.payments payer payout

/-- Give the chain a few seconds to show a lock of `need`. -/
def awaitLock (payer payout : Text) (need : Micros) :
    ℕ → ChannelState → Effect WorkerError κ ChannelState
  | 0, state => pure state
  | n + 1, state =>
    if state.remaining < need then do
      .modify R.sleep
      let reply ← .attempt (readChannel cfg C R payer payout)
      match reply with
      | .ok (some state) => awaitLock payer payout need n state
      | _ => awaitLock payer payout need n state
    else pure state

/-- Post the raise, and read the channel back. -/
def postReserve (post : ReservePost) (sig : Bytes) (payer payout : Text) (need : Micros) :
    Effect WorkerError κ ChannelState := do
  let posted ← .attempt (Chain.reserve C R cfg.payments post.ticket sig)
  let reply ← readChannel cfg C R payer payout
  let state ← .lift (demand reply
    (.rejected "reserve posted but the channel could not be read back"))
  match posted with
  | .ok _ => pure state
  | .error e => do
    let state ← awaitLock cfg C R payer payout need 8 state
    let shown := e.text
    .lift (require (need ≤ state.remaining) (.rejected s!"could not post reserve: {shown}"))
    pure state

/-- A lock the chain holds already may be short because another job's raise is on its way. -/
def awaitRaise (post : ReservePost) (payer payout : Text) (need : Micros) (state : ChannelState) :
    Effect WorkerError κ ChannelState :=
  if post.ticket.maxAmount ≤ state.reserved ∧ state.remaining < need then
    awaitLock cfg C R payer payout need 8 state
  else pure state

/-- Post a raise whenever the payer signed one above the current lock. -/
def raiseLock (post : ReservePost) (payer payout : Text) (need : Micros) (state : ChannelState) :
    Effect WorkerError κ ChannelState := do
  .lift (require (eqIgnoreAsciiCase post.ticket.workerPayout payout)
    (.rejected "reserve ticket is for a different payout address"))
  .lift (require (eqIgnoreAsciiCase post.ticket.client payer)
    (.rejected "reserve ticket is for a different payer"))
  let sig ← .lift ((Hex.decode (trimStart0x post.sig)).mapError fun e =>
    let shown := e.text
    .rejected s!"reserve signature: {shown}")
  let state ← awaitRaise cfg C R post payer payout need state
  if state.reserved < post.ticket.maxAmount then postReserve cfg C R post sig payer payout need
  else pure state

/-- The channel after the raise that came with the job, if one did. -/
def raised (submit : JobSubmit) (payer payout : Text) (need : Micros) (state : ChannelState) :
    Effect WorkerError κ ChannelState :=
  match submit.reserve with
  | some post => raiseLock cfg C R post payer payout need state
  | none => pure state

/-- A picture or a clip is one bill: it must fit under the channel's cap on a job, if that is
known.  Text is not held to it. -/
def checkFlat (submit : JobSubmit) (state : ChannelState) : Except WorkerError Unit :=
  if 0 < state.maxPerJob ∧ submit.payload.kind ≠ .llm then
    let flat := flatMicros cfg submit.payload
    let what := if submit.payload.kind = .video then "clip" else "picture"
    let cost := dollars 2 flat
    let cap := dollars 2 state.maxPerJob
    require (flat ≤ state.maxPerJob) (.rejected s!"this {what} costs {cost} but the payer's channel allows {cap} per job; nothing above that can settle. Raise the limit in your pot; the channel takes it on its next reserve")
  else .ok ⟨⟩

/-- What a bond raises the chain's total by, one micro at least. -/
def Bond.aboveChain (bond : Bond) (state : ChannelState) : Micros :=
  max (bond.pay.ticket.cumulative - state.earned) 1

/-- How much lock a job needs, by what the chain has recognised. -/
def needOf (bonds : Bonds) (submit : JobSubmit) (state : ChannelState) : Micros :=
  (bonds submit.jobId).elim 1 (·.aboveChain state)

/-- Note the key on the bond, and credit it with no more than its rise over the chain. -/
def Bond.stash (bond : Bond) (state : ChannelState) : Bond :=
  { bond with
    appKey := state.appKey
    delta := min bond.delta (bond.aboveChain state) }

def stash (bonds : Bonds) (submit : JobSubmit) (state : ChannelState) : Bonds :=
  Function.update bonds submit.jobId ((bonds submit.jobId).map (·.stash state))

/-- The chunk that came with a job must be signed by the app key and not be out of date. -/
def checkBond (d : Domain) (bond : Option JobPay) (appKey : Text) (now : ℕ) :
    Except WorkerError Unit :=
  match bond with
  | some bond => (bond.ticket.check C d bond.sig appKey now).mapError (rejectedAs "chunk ticket")
  | none => .ok ⟨⟩

/-- Check that this job will pay: that the payer has lock left and that the prepaid ticket is signed
by the key the chain has for it.  The answer is the channel it was checked on. -/
def checkLock (bonds : Bonds) (submit : JobSubmit) (payout : Text) :
    Effect WorkerError κ ChannelState := do
  let payer ← .lift (demand submit.payer (.rejected
    "priced jobs need a payer address so this node can check the on-chain lock"))
  let d ← .lift (demand cfg.payments.domain (.rejected "this node has no settlement contract"))
  let reply ← readChannel cfg C R payer payout
  let state ← .lift (demand reply (.rejected "this node cannot verify payment without an RPC (set payments.rpc); priced work refused"))
  let need := needOf bonds submit state
  let state ← raised cfg C R submit payer payout need state
  .lift (checkFlat cfg submit state)
  .lift (require (need ≤ state.remaining) (.rejected
    (if submit.reserve = none then "priced job is missing a reserve ticket"
    else "no remaining reserve on this channel; lock funds before sending work")))
  .lift (require (Chain.isZeroAddress state.appKey = false)
    (.rejected "no app key is registered on-chain for this payer"))
  let now ← .read R.now
  .lift (checkBond C d submit.bond state.appKey now)
  return state

def ensureLock (bonds : Bonds) (submit : JobSubmit) : Effect WorkerError κ Bonds :=
  match payoutOf cfg.payoutAddress with
  | none => pure bonds
  | some payout => do
    let state ← checkLock cfg C R bonds submit payout
    return stash bonds submit state

/-- A job that is let through to its backend, and the ledger and the bonds at that moment. -/
structure Admission where
  channels : Channels
  bonds : Bonds
  submit : JobSubmit

/-- Every test of a job that has to do with money, before any work. -/
def admitJob (chs : Channels) (bonds : Bonds) (submit : JobSubmit) (now : ℤ) :
    Effect WorkerError κ Admission := do
  let channels ← .lift (takePayment cfg C chs submit (holdbackFor cfg submit.payload) now)
  if holdbackFor cfg submit.payload then do
    let (delta, already, bonds) ← .lift (takeBond cfg C channels bonds submit)
    let payload ← .lift (clampToChunk cfg submit.payload delta already)
    let bonds ← ensureLock cfg C R bonds { submit with payload }
    return { channels, bonds, submit := { submit with payload } }
  else return { channels, bonds, submit }

end Lock

end Rootmode.Worker
