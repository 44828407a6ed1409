import Rootmode.Desktop.JobLock
import Rootmode.Worker.Catalogue

namespace Rootmode.Desktop

open Function
open Lib Lib.Checked Lib.Text Payments Worker

inductive AppError
  | core (e : CoreError)
  | db (message : String)
  | io (message : String)
  | json (message : String)
  | net (message : String)
  | invalid (message : String)
  | notFound (message : String)
  deriving DecidableEq

def AppError.text : AppError → String
  | .core e => e.text
  | .db message => s!"storage: {message}"
  | .io message => s!"io: {message}"
  | .json message => s!"json: {message}"
  | .net message => s!"network: {message}"
  | .invalid message => message
  | .notFound message => s!"not found: {message}"

/-- The per-job cap of an account that sets none. -/
def defaultMaxJob : Micros := 500_000

def ticketTtlSecs : ℕ := 3600

/-- How many jobs' worth of lock to hold on a channel when topping it up. -/
def reserveHeadroomJobs : ℕ := 4

def reserveHeadroomFloor : Micros := 3_000_000

structure ChainConfig where
  chainId : ℕ
  pot : Text
  deriving DecidableEq

def ChainConfig.domain (cfg : ChainConfig) : Domain where
  chainId := cfg.chainId
  verifyingContract := cfg.pot

/-- The wallet's account on the pot. -/
structure PotStatus where
  client : Option Text
  balanceMicros : Micros
  maxPerJobMicros : Micros
  deriving DecidableEq

/-- The account's limit for a single job. -/
def PotStatus.cap (st : PotStatus) : Micros :=
  if st.maxPerJobMicros = 0 then defaultMaxJob else st.maxPerJobMicros

structure ChannelSnap where
  reserved : Micros
  paid : Micros
  earned : Micros
  /-- The contract settles against this, not the account's live limit.  Zero means no channel yet. -/
  maxPerJob : Micros
  deriving DecidableEq

namespace ChannelSnap

variable (ch : ChannelSnap)

def remaining : Micros := ch.reserved - ch.earned

/-- What the chain has of the client's total on the channel. -/
def onChain : Micros := max ch.paid ch.earned

end ChannelSnap

structure PendingJob where
  price : Price
  kind : JobKind
  paid : Bool
  sha256 : Option Text
  /-- What the job has prepaid. -/
  ceiling : Micros
  /-- The lock for the whole job. -/
  jobCap : Micros
  /-- What the final invoice billed, once paid. -/
  cost : Option Micros
  payout : Text
  bondCumulative : Micros
  deriving DecidableEq

structure LatestTicket where
  ticket : SpendTicket
  sig : Text
  onChainPaid : Micros
  /-- A cumulative only means anything on the pot it was signed for. -/
  pot : Text
  deriving DecidableEq

/-- What a ticket is signed for, and the on-chain total it was signed against. -/
inductive Purpose
  | bond (onChain jobCap : Micros)
  | invoice (onChain amount jobCap : Micros)
  /-- A job that ended without an invoice, for which the client bills itself. -/
  | bill (onChain amount cap : Micros)
  /-- A total that a refusal named. -/
  | adopted
  deriving DecidableEq

structure Signing where
  jobId : Uuid
  pot : Text
  ticket : SpendTicket
  purpose : Purpose
  deriving DecidableEq

/-- The jobs whose bond is out, the latest ticket of every channel, and every ticket the app key has
signed, newest first. -/
structure Wallet where
  jobs : Uuid → Option PendingJob
  latest : Text → Option LatestTicket
  signed : List Signing

namespace Wallet

def empty : Wallet where
  jobs _ := none
  latest _ := none
  signed := []

variable (w : Wallet)

def sign (entry : Signing) : Wallet := { w with signed := entry :: w.signed }

def setJob (jobId : Uuid) (row : Option PendingJob) : Wallet :=
  { w with jobs := update w.jobs jobId row }

def setLatest (key : Text) (t : LatestTicket) : Wallet :=
  { w with latest := update w.latest key (some t) }

end Wallet

/-- What the rest of the machine and the chain answer while a call runs. -/
structure Outside where
  config : Option ChainConfig
  status : Except AppError PotStatus
  /-- The first reading of the channel, by tries. -/
  channel : ℕ → Except AppError ChannelSnap
  again : ℕ → Except AppError ChannelSnap
  /-- The app key signs a digest. -/
  key : Except AppError (Bytes32 → Except String Text)
  now : ℕ

/-- Read the channel, trying a couple of times before giving up. -/
def channelWithRetry (tries : ℕ → Except AppError ChannelSnap) : Except AppError ChannelSnap :=
  match tries 0, tries 1, tries 2 with
  | .ok ch, _, _ | .error _, .ok ch, _ | .error _, .error _, .ok ch => .ok ch
  | .error _, .error _, .error e =>
    let last := e.text
    .error (.net s!"could not read the payment channel on Base ({last}) — try again in a moment")

def addrKey (address : Text) : Text := lower (trimStart0x address)

/-- One latest ticket for a payer and a payout. -/
def channelKey (client worker : Text) : Text := addrKey client ++ '/' :: addrKey worker

/-- The address a priced job locks against. -/
def namedPayout (raw : Option Text) : Except AppError Text :=
  let s := trim (raw.getD [])
  if s = [] ∨ (trimStart0x s).all (· == '0') then
    .error (.invalid "this provider did not name a payout address")
  else .ok s

/-- The highest cumulative on record for a channel on this pot. -/
def cachedCumulative (w : Wallet) (cfg : ChainConfig) (client worker : Text) : Micros :=
  ((((w.latest (channelKey client worker)).filter fun t => eqIgnoreAsciiCase t.pot cfg.pot).filter
    fun t => eqIgnoreAsciiCase t.ticket.client client).map (·.ticket.cumulative)).getD 0

variable (C : Crypto)

/-- A ticket for a new total on a channel, with its signature. -/
def signLatest (o : Outside) (cfg : ChainConfig) (client worker : Text) (cumulative : Micros) :
    Except AppError (SpendTicket × Text) := do
  let key ← o.key
  let ticket : SpendTicket :=
    { client, workerPayout := worker, cumulative, deadline := o.now + ticketTtlSecs }
  let digest ← (ticket.digest C cfg.domain).mapError .core
  let sig ← (key digest).mapError .invalid
  return (ticket, sig)

def jobPay (jobId : Uuid) (signed : SpendTicket × Text) : JobPay where
  jobId
  ticket := signed.1
  sig := ofString "0x" ++ signed.2

section Issue

/-- What a job is billed by: a slice of tokens, or one picture or clip. -/
def chunkMicros (price : Price) : JobKind → Micros
  | .llm => price.chunkMicros
  | .image | .video => castWord 64 (max (roundAway (price.amount * 1_000_000)) 1)

/-- How much to add to the on-chain lock for a job. -/
def reserveExtra (remaining need free : Micros) (raiseCaps : Bool) : Micros :=
  let want := max (min (need * reserveHeadroomJobs) (2 ^ 64 - 1)) reserveHeadroomFloor
  let short := decide (remaining < min (need * 2) (2 ^ 64 - 1)) ||
    decide (remaining < reserveHeadroomFloor / 2)
  if short || raiseCaps then min (max (want - remaining) (if raiseCaps then 1 else 0)) free else 0

/-- A signed lock for the worker to post, if there is anything to lock. -/
def signReserveIfNeeded (o : Outside) (cfg : ChainConfig) (client worker : Text) (ch : ChannelSnap)
    (need free : Micros) (raiseCaps : Bool) : Except AppError (Option ReservePost) := do
  let newMax := satAdd 64 ch.reserved (reserveExtra ch.remaining need free raiseCaps)
  if newMax = 0 then return none
  else do
    let key ← o.key
    let ticket : ReserveTicket :=
      { client, workerPayout := worker, maxAmount := newMax, deadline := o.now + ticketTtlSecs }
    let digest ← (ticket.digest C cfg.domain).mapError .core
    let sig ← (key digest).mapError .invalid
    return some { ticket, sig := ofString "0x" ++ sig }

/-- The channel's cap follows the account's on a reserve that raises the lock. -/
def raisesCap (st : PotStatus) (ch : ChannelSnap) : Bool :=
  decide (0 < ch.maxPerJob) && decide (ch.maxPerJob < st.cap) && decide (0 < st.balanceMicros)

/-- The cap the job is checked against. -/
def channelCap (st : PotStatus) (ch : ChannelSnap) : Micros :=
  if raisesCap st ch then st.cap else ch.maxPerJob

/-- What a job may cost, under the account's cap and the channel's. -/
def jobCap (price : Price) (kind : JobKind) (payload : JobPayload) (st : PotStatus)
    (ch : ChannelSnap) : Except AppError Micros :=
  let lock := max (min (jobLockMicros price kind payload) st.cap) 1
  let limit := channelCap st ch
  if limit = 0 then .ok lock
  else if kind ≠ .llm ∧ limit < chunkMicros price kind then
    let what := if kind = .video then "clip" else "picture"
    let cost := dollars 2 (chunkMicros price kind)
    let shown := dollars 2 limit
    let allowed := dollars 2 st.cap
    .error (.invalid s!"This {what} costs {cost}, more than the {shown} per-job cap on your payment channel. Your account allows {allowed}; the channel takes that limit on its next reserve, which needs unlocked balance in your pot.")
  else .ok (min lock limit)

/-- Lock enough for a job and sign the bond for it. -/
def issueTicket (o : Outside) (jobId : Uuid) (price : Price) (kind : JobKind) (payload : JobPayload)
    (client workerPayout : Text) (w : Wallet) :
    Except AppError ((JobPay × Option ReservePost) × Wallet) := do
  let cfg ← demand o.config (.invalid "no local chain")
  let st ← o.status
  let ch ← channelWithRetry o.channel
  let need ← jobCap price kind payload st ch
  let authorised := max (cachedCumulative w cfg client workerPayout) ch.onChain
  let lockNeed := max (satAdd 64 authorised need - ch.earned) 1
  let extra := reserveExtra ch.remaining lockNeed st.balanceMicros (raisesCap st ch)
  let free := dollars 2 st.balanceMicros
  let lock := dollars 2 lockNeed
  require (lockNeed ≤ satAdd 64 ch.remaining extra)
    (.invalid s!"Your pot does not cover this job. You have {free} free; lock {lock} before sending work.")
  let reserve ← signReserveIfNeeded C o cfg client workerPayout ch lockNeed st.balanceMicros
    (raisesCap st ch)
  let cumulative := satAdd 64 authorised need
  let signed ← signLatest C o cfg client workerPayout cumulative
  let row : PendingJob :=
    { price, kind, paid := false, sha256 := none, ceiling := need, jobCap := need, cost := none
      payout := workerPayout, bondCumulative := cumulative }
  return ((jobPay jobId signed, reserve),
    (w.sign ⟨jobId, cfg.pot, signed.1, .bond ch.onChain need⟩).setJob jobId (some row))

end Issue

/-- A job that ended without a bill after its bond was sent. -/
def abandonJob (jobId : Uuid) (w : Wallet) : Wallet := w.setJob jobId none

section Adopt

/-- The total a worker says it has already authorised, when a refusal names one. -/
def authorisedIn (message : Text) : Option Micros :=
  ((split (ofString "already authorised ") message)[1]?.bind fun rest =>
    parseU64 (rest.takeWhile Char.isDigit)).filter fun n => 0 < n

/-- A node refused a ticket because its ledger is ahead of ours: the next ticket starts there. -/
def adoptAuthorised (o : Outside) (jobId : Uuid) (message : Text) (w : Wallet) : Wallet :=
  match authorisedIn message, w.jobs jobId, o.config, o.status with
  | some theirs, some row, some cfg, .ok st =>
    match st.client with
    | none => w
    | some client =>
      if theirs ≤ cachedCumulative w cfg client row.payout then w
      else
        match signLatest C o cfg client row.payout theirs with
        | .error _ => w
        | .ok (ticket, sig) =>
          let key := channelKey client row.payout
          let onChainPaid := ((w.latest key).map (·.onChainPaid)).getD 0
          (w.sign ⟨jobId, cfg.pot, ticket, .adopted⟩).setLatest key
            { ticket, sig, onChainPaid, pot := cfg.pot }
  | _, _, _, _ => w

end Adopt

/-- What is authorised on a channel, and what of it the chain has. -/
def authorisedSoFar (w : Wallet) (cfg : ChainConfig) (client worker : Text)
    (tries : ℕ → Except AppError ChannelSnap) : Except AppError (Micros × Micros) := do
  let ch ← channelWithRetry tries
  return (max (cachedCumulative w cfg client worker) ch.onChain, ch.onChain)

structure JobInvoice where
  jobId : Uuid
  amount : Micros
  sha256 : Text
  promptTokens : ℕ := 0
  completionTokens : ℕ := 0
  cachedTokens : ℕ := 0
  /-- Another slice, asked for in mid-stream. -/
  topUp : Bool := false
  deriving DecidableEq

section Pay

/-- What the advertised price comes to for what a final invoice reports. -/
def fairMicros (row : PendingJob) (invoice : JobInvoice) : Micros :=
  match row.kind with
  | .llm => row.price.chargeLlmMicros invoice.promptTokens invoice.completionTokens invoice.cachedTokens
  | .image | .video => castWord 64 (roundAway (row.price.amount * 1_000_000))

def checkTopUp (o : Outside) (row : PendingJob) (invoice : JobInvoice) : Except AppError PUnit := do
  let room := row.jobCap - row.ceiling
  if room = 0 ∨ room < invoice.amount then
    let st ← o.status
    let jobCap := dollars 2 row.jobCap
    let cap := dollars 2 st.cap
    throw (.invalid (if st.cap ≤ row.jobCap then
        s!"this reply reached your {jobCap} limit for a single job; raise it in your wallet"
      else
        s!"the worker asked for more than the {jobCap} this reply was prepaid for (its estimated worst case, under your {cap} limit); its token accounting disagrees with ours and the request is refused"))
  else
    require (invoice.amount ≤ chunkMicros row.price row.kind)
      (.invalid "top-up is larger than a 1M-token slice")

/-- A bill may run over the advertised rate by half. -/
def checkBill (row : PendingJob) (invoice : JobInvoice) : Except AppError PUnit := do
  let fair := fairMicros row invoice
  let amount := invoice.amount
  require (invoice.amount ≤ min (fair * 3) (2 ^ 64 - 1) / 2)
    (.invalid s!"worker billed {amount} µUSDC; advertised price only covers {fair}")
  require (invoice.amount ≤ row.ceiling)
    (.invalid "invoice exceeds the prepaid slices for this job")

def checkInvoice (o : Outside) (row : PendingJob) (invoice : JobInvoice) : Except AppError PUnit :=
  if invoice.topUp then checkTopUp o row invoice else checkBill row invoice

/-- What becomes of a job's row when an invoice of it is signed. -/
def PendingJob.signedFor (row : PendingJob) (invoice : JobInvoice) : PendingJob :=
  if invoice.topUp then { row with ceiling := satAdd 64 row.ceiling invoice.amount }
  else { row with paid := true, sha256 := some invoice.sha256, cost := some invoice.amount }

/-- Sign a ticket for an invoice. -/
def payInvoice (o : Outside) (jobId : Uuid) (invoice : JobInvoice) (w : Wallet) :
    Except AppError (JobPay × Wallet) := do
  require (invoice.jobId = jobId) (.invalid "invoice is for a different job")
  require (invoice.amount ≠ 0) (.invalid "invoice has no amount")
  let row ← demand (w.jobs jobId) (.invalid "no lock on file for this job")
  require (row.paid = false) (.invalid "this job is already paid")
  checkInvoice o row invoice
  let cfg ← demand o.config (.invalid "no local chain")
  let st ← o.status
  let client ← demand st.client (.invalid "no funded pot")
  let cap := dollars 2 st.cap
  require (invoice.amount ≤ st.cap) (.invalid s!"invoice exceeds your {cap} per-job cap")
  -- the first reading only tells whether to flush, which the worker does
  let _ ← authorisedSoFar w cfg client row.payout o.channel
  let (authorised, onChain) ← authorisedSoFar w cfg client row.payout o.again
  let extra := if invoice.topUp then satAdd 64 row.ceiling invoice.amount else invoice.amount
  let signed ← signLatest C o cfg client row.payout (satAdd 64 authorised extra)
  let signedW := w.sign ⟨jobId, cfg.pot, signed.1, .invoice onChain extra row.jobCap⟩
  let w := if invoice.topUp then signedW
    else signedW.setLatest (channelKey client row.payout)
      { ticket := signed.1, sig := signed.2, onChainPaid := onChain, pot := cfg.pot }
  return (jobPay jobId signed, w.setJob jobId (some (row.signedFor invoice)))

def expectedSha256 (w : Wallet) (jobId : Uuid) : Option Text := (w.jobs jobId).bind (·.sha256)

end Pay

section Settle

/-- The metadata of a result: what is under a name, if anything is, and its value if that is a number
of 64 bits. -/
abbrev Meta := String → Option (Option ℕ)

/-- What a provider claimed, none when it claimed nothing. -/
def usageFromMeta (m : Meta) : Option TokenUsage :=
  let read (name : String) : ℕ := (m name).join.getD 0
  let prompt := read "prompt_tokens"
  let completion := read "completion_tokens"
  if prompt = 0 ∧ completion = 0 then none
  else some { prompt, completion
              cached := min (read "cached_tokens") prompt
              reasoning := min (read "reasoning_tokens") completion }

def llmChargeMicros (price : Price) (m : Meta) : Micros :=
  let usage := (usageFromMeta m).getD
    { completion := ((m "total_tokens").or (m "completion_tokens")).join.getD 0 }
  if usage.isZero then 0 else price.chargeLlmMicros usage.prompt usage.completion usage.cached

/-- What the client makes of a job that was never invoiced. -/
def meteredMicros (row : PendingJob) (m : Meta) : Micros :=
  match row.kind with
  | .llm => llmChargeMicros row.price m
  | .image | .video => castWord 64 (roundAway (row.price.amount * 1_000_000))

/-- The client's own bill for it. -/
def selfBill (o : Outside) (jobId : Uuid) (row : PendingJob) (amount : Micros) (w : Wallet) :
    Except AppError Wallet := do
  let cfg ← demand o.config (.invalid "no local chain")
  let st ← o.status
  let client ← demand st.client (.invalid "no funded pot")
  let amount := min amount st.cap
  let _ ← authorisedSoFar w cfg client row.payout o.channel
  let (authorised, onChain) ← authorisedSoFar w cfg client row.payout o.again
  let signed ← signLatest C o cfg client row.payout (satAdd 64 authorised amount)
  return (w.sign ⟨jobId, cfg.pot, signed.1, .bill onChain amount st.cap⟩).setLatest
    (channelKey client row.payout)
    { ticket := signed.1, sig := signed.2, onChainPaid := onChain, pot := cfg.pot }

/-- Close a job's books: a job with a result that nobody billed is billed here. -/
def settleJob (o : Outside) (jobId : Uuid) (m : Option Meta) (w : Wallet) : Wallet :=
  match w.jobs jobId with
  | none => w
  | some row =>
    let w := w.setJob jobId none
    if row.paid then w
    else
      match m with
      | none => w
      | some m =>
        if meteredMicros row m = 0 then w
        else
          match selfBill C o jobId row (meteredMicros row m) w with
          | .ok w => w
          | .error _ => w

end Settle

end Rootmode.Desktop
