import Rootmode.Desktop.Exposure

namespace Rootmode.Desktop

open Lib Lib.Text Lib.Transition Payments Worker

inductive JobStatus
  | queued | running | done | failed
  deriving DecidableEq

def JobStatus.isTerminal : JobStatus → Bool
  | .done | .failed => true
  | .queued | .running => false

structure ResultMessage where
  jobId : Uuid
  kind : JobKind
  sha256 : Text
  text : Option Text
  toolCalls : List Text
  metadata : Meta

/-- An empty answer is not an answer. -/
def ResultMessage.saysNothing (r : ResultMessage) : Bool :=
  r.kind = .llm && trim (r.text.getD []) = [] && r.toolCalls.isEmpty

inductive WorkerMessage
  | jobDelta (jobId : Uuid) (text thinking : Text)
  | jobStatus (jobId : Uuid) (status : JobStatus) (error : Option Text)
  | jobResult (r : ResultMessage)
  | jobInvoice (invoice : JobInvoice)
  | peerAnnounce
  | unknown

/-- Where a job stands on the desktop. -/
inductive Phase
  /-- About to be asked of a provider. -/
  | trying
  /-- Whether anything reached the user, whether the job has ended, and the metadata of the last
  result. -/
  | streaming (spoke terminal : Bool) (lastMeta : Option Meta)
  /-- The stream is over. -/
  | settling (lastMeta : Option Meta)
  /-- The provider gave nothing. -/
  | nothing
  /-- What was locked for it is let go. -/
  | deciding
  /-- Failed, which lets go of the lock as well. -/
  | failing (next : Phase)
  | over

variable (id : Uuid)

/-- What a message makes the job ask of the wallet, and where it goes on from there.  `stored` tells
whether what the message changes could be written down, and whether a payment could be sent. -/
def Phase.onMessage (expected : Option Text) (spoke terminal : Bool) (lastMeta : Option Meta)
    (stored : Bool) : WorkerMessage → Option Call × (Bool → Phase)
  | .jobDelta jobId text thinking =>
    let speaks := jobId = id ∧ ¬ (text = [] ∧ thinking = [])
    (none, fun _ => .streaming (spoke || speaks) terminal lastMeta)
  | .jobStatus jobId status error =>
    if jobId = id ∧ status = .failed ∧ spoke = false then
      let why := error.getD (ofString "the provider failed without saying why")
      (some (.adopt why), fun _ => .nothing)
    else if jobId ≠ id then (none, fun _ => .streaming spoke terminal lastMeta)
    else if stored then (none, fun _ => .streaming spoke (terminal || status.isTerminal) lastMeta)
    else (none, fun _ => .failing (.streaming spoke true lastMeta))
  | .jobResult r =>
    if r.jobId = id ∧ spoke = false ∧ r.saysNothing then (none, fun _ => .nothing)
    else if r.jobId ≠ id then (none, fun _ => .streaming spoke terminal (some r.metadata))
    else if stored ∧ ∀ sha256 ∈ expected, sha256 = [] ∨ eqIgnoreAsciiCase sha256 r.sha256 then
      (none, fun _ => .streaming spoke true (some r.metadata))
    else (none, fun _ => .failing (.streaming spoke true (some r.metadata)))
  | .jobInvoice invoice =>
    (some (.pay invoice), fun paid =>
      if paid && stored then .streaming spoke terminal lastMeta
      else .failing (.streaming spoke true lastMeta))
  | .peerAnnounce | .unknown => (none, fun _ => .streaming spoke terminal lastMeta)

/-- What a job may do next, what it asks of the wallet for it, and where it goes on from there. -/
inductive Turn (expected : Option Text) : Phase → Option Call → (Bool → Phase) → Prop
  | unreachable : Turn expected .trying none fun _ => .nothing
  /-- A free provider, or no wallet to pay it from. -/
  | unpriced : Turn expected .trying none fun _ => .streaming false false none
  | unnamed : Turn expected .trying none fun _ => .failing .over
  | bond {price payload client raw payout} : 0 < price.amount → namedPayout raw = .ok payout →
      Turn expected .trying (some (.issue price (JobPayload.kind payload) payload client payout))
        fun bonded => if bonded then .streaming false false none else .failing .over
  | message {spoke terminal lastMeta call next} (m : WorkerMessage) (stored : Bool) :
      Phase.onMessage id expected spoke terminal lastMeta stored m = (call, next) →
      Turn expected (.streaming spoke terminal lastMeta) call next
  -- the stream ends; a job that has not ended by then fails, or is asked of another provider
  | closed {spoke terminal lastMeta} :
      Turn expected (.streaming spoke terminal lastMeta) none fun _ => .settling lastMeta
  | broken {lastMeta} :
      Turn expected (.streaming true false lastMeta) none fun _ => .failing (.settling lastMeta)
  | silent {lastMeta} : Turn expected (.streaming false false lastMeta) none fun _ => .nothing
  | settle {lastMeta} : Turn expected (.settling lastMeta) (some (.settle lastMeta)) fun _ => .over
  | letGo : Turn expected .nothing (some .abandon) fun _ => .deciding
  | fallback : Turn expected .deciding none fun _ => .trying
  | giveUp : Turn expected .deciding none fun _ => .failing .over
  | fails {next} : Turn expected (.failing next) (some .abandon) fun _ => next

/-- A job and the wallet it shares with the others. -/
structure JobState where
  phase : Phase
  wallet : Wallet

inductive JobAct
  | turn (call : Option Call) (o : Outside)
  | others (jobId : Uuid) (call : Call) (o : Outside)

variable (C : Crypto)

def runCall (o : Outside) (w : Wallet) : Option Call → Wallet × Bool
  | none => (w, true)
  | some call => call.run C o id w

inductive JobStep : Labelled JobState JobAct
  | turn {s call next} (o : Outside) : Turn id (expectedSha256 s.wallet id) s.phase call next →
      JobStep s (.turn call o)
        { phase := next (runCall id C o s.wallet call).2, wallet := (runCall id C o s.wallet call).1 }
  | others {s} (jobId : Uuid) (call : Call) (o : Outside) : jobId ≠ id →
      JobStep s (.others jobId call o) { s with wallet := (call.run C o jobId s.wallet).1 }

/-- No other job is in progress on a channel. -/
def NoOther (key : Text) (s : JobState) : JobAct → Prop
  | .turn _ _ => True
  | .others jobId call o => call.about o jobId s.wallet ≠ some key

variable {C} {id} {key : Text} {s t : JobState} {a : JobAct}

/-- A step of the job is a call for it or none. -/
theorem JobStep.wallet (hother : NoOther key s a) (h : JobStep id C s a t) :
    Runs (restrict (Wallet.Step C) (Alone id key)) s.wallet t.wallet := by
  cases h with
  | turn o hturn =>
    rename_i call next
    cases call with
    | none => exact .refl _
    | some call => exact .single ⟨fun hne => absurd rfl hne, .call id call o⟩
  | others jobId call o hne =>
    have halone : Alone id key s.wallet (jobId, call, o) := fun _ => hother
    exact .single ⟨halone, .call jobId call o⟩

section Claim

/-- The cap of the job a ticket was signed for. -/
def Signing.jobCap (x : Signing) : Micros :=
  match x.purpose with
  | .bond _ jobCap | .invoice _ _ jobCap => jobCap
  | .bill _ _ _ | .adopted => 0

/-- A ticket for a job's bond or its invoice. -/
def Purpose.forJob : Purpose → Bool
  | .bond _ _ | .invoice _ _ _ => true
  | .bill _ _ _ | .adopted => false

/-- Every ticket on the channel stays within what the chain had or was signed before, and one cap. -/
def CappedOnce (c : ChannelOn) (before : Micros) : List Signing → Prop
  | [] => True
  | x :: earlier =>
    (x.On c → x.ticket.cumulative ≤
      max before (highest c Signing.onChain (x :: earlier)) + highest c Signing.jobCap (x :: earlier)) ∧
    CappedOnce c before earlier

instance (c : ChannelOn) (before : Micros) : (l : List Signing) → Decidable (CappedOnce c before l)
  | [] => isTrue trivial
  | x :: earlier =>
    have := instDecidableCappedOnce c before earlier
    inferInstanceAs (Decidable ((x.On c → _) ∧ CappedOnce c before earlier))

variable (C) (id)

/-- A job that signs nothing but `P` raises its channel by no more than one cap. -/
def ExposesOnce (c : ChannelOn) (P : Signing → Prop) : Prop :=
  ∀ w s new, Runs (Wallet.Step C) Wallet.empty w →
    Runs (restrict (JobStep id C) (NoOther c.key)) ⟨.trying, w⟩ s →
    s.wallet.signed = new ++ w.signed → (∀ x ∈ new, P x) → CappedOnce c (highestSigned c w.signed) new

end Claim

section Local

/-- A step whose call goes through. -/
theorem JobStep.goes {call : Call} {next : Bool → Phase} (o : Outside)
    (hturn : Turn id (expectedSha256 s.wallet id) s.phase (some call) next)
    (hok : (call.run C o id s.wallet).2 = true) :
    JobStep id C s (.turn (some call) o) ⟨next true, (call.run C o id s.wallet).1⟩ := by
  have hstep := JobStep.turn (C := C) o hturn
  simpa only [runCall, hok] using hstep

/-- A wallet of ten dollars, with three of them locked for the local worker. -/
def outside : Outside where
  config := some ⟨31337, addressText LocalChain.pot⟩
  status := .ok
    { client := some (addressText LocalChain.client), balanceMicros := 10_000_000
      maxPerJobMicros := 500_000 }
  channel _ := .ok { reserved := 3_000_000, paid := 0, earned := 0, maxPerJob := 500_000 }
  again _ := .ok { reserved := 3_000_000, paid := 0, earned := 0, maxPerJob := 500_000 }
  key := .ok fun _ => .ok []
  now := 0

def lockedChannel : ChannelOn where
  pot := addressText LocalChain.pot
  key := channelKey (addressText LocalChain.client) (addressText LocalChain.worker)

/-- A chat of three thousand micros at most. -/
def chat : JobPayload := .llm { promptTokens := 50, maxTokens := 100 }

def chatBond : Call :=
  .issue (Price.new 20) chat.kind chat (addressText LocalChain.client) (addressText LocalChain.worker)

/-- The wallet after some calls for job 7. -/
def afterCalls (calls : List Call) : Wallet :=
  calls.foldl (fun w call => (call.run LocalChain.crypto outside 7 w).1) .empty

variable {phase : Phase} {call : Call} {next : Bool → Phase}

/-- The runs of job 7 with nothing else going on. -/
abbrev LocalRuns : JobState → JobState → Prop :=
  Runs (restrict (JobStep 7 LocalChain.crypto) (NoOther lockedChannel.key))

theorem LocalRuns.idle {w : Wallet} {s₀ : JobState} (h : LocalRuns s₀ ⟨phase, w⟩)
    (hturn : Turn 7 (expectedSha256 w 7) phase none next) : LocalRuns s₀ ⟨next true, w⟩ :=
  h.tail (a := .turn none outside) ⟨trivial, .turn outside hturn⟩

theorem LocalRuns.goes {s₀ : JobState} (calls : List Call) (h : LocalRuns s₀ ⟨phase, afterCalls calls⟩)
    (hturn : Turn 7 (expectedSha256 (afterCalls calls) 7) phase (some call) next)
    (hok : (call.run LocalChain.crypto outside 7 (afterCalls calls)).2 = true) :
    LocalRuns s₀ ⟨next true, afterCalls (calls ++ [call])⟩ := by
  have hstep := JobStep.goes (s := ⟨phase, afterCalls calls⟩) outside hturn hok
  rw [afterCalls, List.foldl_concat]
  exact h.tail (a := .turn (some call) outside) ⟨trivial, hstep⟩

theorem turn_chatBond (expected : Option Text) : Turn 7 expected .trying (some chatBond)
    fun bonded => if bonded then .streaming false false none else .failing .over := by
  have hpriced : 0 < (Price.new 20).amount := by decide +kernel
  have hnamed : namedPayout (some (addressText LocalChain.worker)) =
      .ok (addressText LocalChain.worker) := by decide
  exact .bond hpriced hnamed

theorem bonded_runs :
    LocalRuns ⟨.trying, .empty⟩ ⟨.streaming false false none, afterCalls [chatBond]⟩ :=
  LocalRuns.goes [] (.refl _) (turn_chatBond _) (by decide +kernel)

/-- The worker's refusal names a thousand dollars. -/
def refusal : Text := ofString "rejected: ticket does not clear what is already authorised 1000000000"

def bloated : Call := .adopt refusal

theorem adopted_runs : LocalRuns ⟨.trying, .empty⟩ ⟨.nothing, afterCalls [chatBond, bloated]⟩ :=
  bonded_runs.goes [chatBond] (.message (.jobStatus 7 .failed (some refusal)) true rfl)
    (by decide)

/-- An answer that reports a million tokens and was never billed. -/
def longAnswer : ResultMessage where
  jobId := 7
  kind := .llm
  sha256 := []
  text := some (ofString "Hello.")
  toolCalls := []
  metadata name := if name = "prompt_tokens" then some (some 1_000_000) else none

def selfBilled : Call := .settle (some longAnswer.metadata)

theorem settled_runs : LocalRuns ⟨.trying, .empty⟩ ⟨.over, afterCalls [chatBond, selfBilled]⟩ := by
  have hexpected : expectedSha256 (afterCalls [chatBond]) 7 = none := by decide +kernel
  have hsays : longAnswer.saysNothing = false := by decide
  have hmessage : Phase.onMessage 7 (expectedSha256 (afterCalls [chatBond]) 7) false false none true
      (.jobResult longAnswer) =
        (none, fun _ => .streaming false true (some longAnswer.metadata)) := by
    rw [hexpected]
    simp [Phase.onMessage, hsays, show longAnswer.jobId = 7 from rfl]
  have hanswered := bonded_runs.idle (.message (.jobResult longAnswer) true hmessage)
  exact (hanswered.idle .closed).goes [chatBond] .settle rfl

/-- A bill for all of it. -/
def fullInvoice : JobInvoice where
  jobId := 7
  amount := 3_000
  sha256 := []
  promptTokens := 50
  completionTokens := 100

/-- An answer of nothing. -/
def noAnswer : ResultMessage where
  jobId := 7
  kind := .llm
  sha256 := []
  text := none
  toolCalls := []
  metadata _ := none

theorem retried_runs : LocalRuns ⟨.trying, .empty⟩
    ⟨.streaming false false none, afterCalls [chatBond, .pay fullInvoice, .abandon, chatBond]⟩ := by
  have hpaid := bonded_runs.goes [chatBond] (.message (.jobInvoice fullInvoice) true rfl)
    (by decide +kernel)
  have hsays : noAnswer.saysNothing = true := by decide
  have hmessage (expected : Option Text) : Phase.onMessage 7 expected false false none true
      (.jobResult noAnswer) = (none, fun _ => .nothing) := by
    simp [Phase.onMessage, hsays, show noAnswer.jobId = 7 from rfl]
  have hnothing := hpaid.idle (.message (.jobResult noAnswer) true (hmessage _))
  have hdecided := hnothing.goes [chatBond, .pay fullInvoice] .letGo rfl
  exact (hdecided.idle .fallback).goes [chatBond, .pay fullInvoice, .abandon] (turn_chatBond _)
    (by decide +kernel)

end Local

end Rootmode.Desktop
