import Rootmode.Worker.LocalNode

namespace Rootmode.Worker

open Lib Lib.Checked Lib.Text Lib.Transition Payments

variable {κ : Type} {cfg : Config} {C : Crypto} {R : Rpc κ}

/-- The ticket of a bond was checked against the key the chain has just shown for its payer. -/
def Verified (cfg : Config) (C : Crypto) (R : Rpc κ) (submit : JobSubmit) (bond : Bond)
    (state : ChannelState) (k : κ) : Prop :=
  ∃ payer payout d, submit.payer = some payer ∧ payoutOf cfg.payoutAddress = some payout ∧
    eqIgnoreAsciiCase bond.pay.ticket.client payer = true ∧
    eqIgnoreAsciiCase bond.pay.ticket.workerPayout payout = true ∧
    Reads cfg C R payer payout state k ∧ cfg.payments.domain = some d ∧
    bond.pay.ticket.check C d bond.pay.sig state.appKey (R.now k) = .ok ⟨⟩

/-- What a chat may cost by the ceiling it was given. -/
def ceilingCharge (cfg : Config) (params : LlmParams) : Micros :=
  (advertisedPrice cfg (.llm params)).chargeLlmMicros params.promptTokens params.maxTokens 0

/-- If the job is a priced chat and let through, it is covered to its ceiling by what a verified
ticket can still earn. -/
def CoversJob (cfg : Config) (C : Crypto) (R : Rpc κ) (chs : Channels) (bonds : Bonds)
    (submit : JobSubmit) (k : κ) : Prop :=
  ∀ (now : ℤ) (a : Admission) (k' : κ) (params : LlmParams),
    admitJob cfg C R chs bonds submit now k = (.ok a, k') → holdbackFor cfg submit.payload →
    a.submit.payload = .llm params →
    ∃ bond state, a.bonds submit.jobId = some bond ∧ Verified cfg C R submit bond state k' ∧
      ceilingCharge cfg params ≤ bond.pay.ticket.cumulative -
        max (a.channels.authorisedFor C bond.pay.ticket.client bond.pay.ticket.workerPayout)
          state.earned

/-- What a bond stands for once its job is let through: its ticket's rise over the ledger, and no
more than its rise over the chain. -/
structure Bond.Stands (C : Crypto) (chs : Channels) (bond : Bond) (state : ChannelState) : Prop where
  key : bond.appKey = state.appKey
  overLedger : bond.delta ≤ bond.pay.rise C chs
  overChain : bond.delta ≤ max (bond.pay.ticket.cumulative - state.earned) 1

variable {chs : Channels} {bonds : Bonds} {submit : JobSubmit} {now : ℤ} {a : Admission} {k k' : κ}
  {payout : Text} {params : LlmParams}

theorem stashed_stands (C : Crypto) (chs : Channels) (pay : JobPay) (state : ChannelState) :
    (stashed C chs pay state).Stands C chs state where
  key := rfl
  overLedger := min_le_left _ _
  overChain := min_le_right _ _

theorem clampToChunk_bounds {payload : JobPayload} {micros already : Micros}
    (h : clampToChunk cfg payload micros already = .ok (.llm params)) :
    promptMicros (advertisedPrice cfg (.llm params)) params.promptTokens < micros ∧
      params.maxTokens ≤ ceilingFor (advertisedPrice cfg (.llm params)) params.promptTokens
        micros := by
  cases payload with
  | llm asked =>
    obtain ⟨hcost, hparams⟩ := clampToChunk_llm.mp h
    cases hparams
    exact ⟨hcost, min_le_right _ _⟩
  | image _ => cases h
  | video _ => cases h

/-- A ceiling above its floor of one token is within the chunk. -/
theorem ceilingCharge_le {micros : ℕ}
    (hcost : promptMicros (advertisedPrice cfg (.llm params)) params.promptTokens < micros)
    (hceiling : params.maxTokens ≤
      ceilingFor (advertisedPrice cfg (.llm params)) params.promptTokens micros)
    (hfloor : 1 < params.maxTokens) : ceilingCharge cfg params ≤ micros := by
  refine charge_le hcost ?_
  unfold ceilingFor at hceiling
  omega

/-- A node that knows where it is paid lets a priced chat through on a ticket it verified.  The
prompt costs less than the ticket's rise over the ledger, and so does all of the chat up to its
ceiling, unless that ceiling is at its floor of one token. -/
theorem admission_covers (hpayout : payoutOf cfg.payoutAddress = some payout)
    (h : admitJob cfg C R chs bonds submit now k = (.ok a, k'))
    (hpriced : holdbackFor cfg submit.payload) (hpayload : a.submit.payload = .llm params) :
    ∃ bond state, a.bonds submit.jobId = some bond ∧ Verified cfg C R submit bond state k' ∧
      bond.Stands C a.channels state ∧
      promptMicros (advertisedPrice cfg (.llm params)) params.promptTokens <
        bond.pay.rise C a.channels ∧
      (1 < params.maxTokens → ceilingCharge cfg params ≤ bond.pay.rise C a.channels) := by
  obtain ⟨pay, payer, first, state, k₁, g, hpayer, hbond, hfirst, hmoves, hreads, hguard, hheld⟩ :=
    admit_locked h hpriced hpayout
  obtain ⟨pay', payload, g', hclamp, hsubmit, -⟩ := admit_ok h hpriced
  obtain rfl : pay' = pay := Option.some.inj (g'.carried.symm.trans g.carried)
  obtain ⟨d, hd, hcheck⟩ := hguard.signed pay' hbond
  have hparams : payload = .llm params := by
    rw [hsubmit] at hpayload
    exact hpayload
  subst hparams
  obtain ⟨hcost, hceiling⟩ := clampToChunk_bounds hclamp
  refine ⟨_, state, hheld, ⟨payer, payout, d, hpayer, hpayout, g.samePayer payer hpayer,
    g.sameWorker payout hpayout, hreads, hd, hcheck⟩, stashed_stands C a.channels pay' state,
    hcost, fun hfloor => ceilingCharge_le hcost hceiling hfloor⟩

section Local

open LocalNode

/-- The local chain after another node was paid half of the lock. -/
def ahead : Pot.Chain MockUsdc.Token :=
  LocalChain.settled (lockedUp 1_000_000) ⟨LocalChain.worker, 1_000_000⟩ LocalChain.worker 450_000

theorem ahead_runs : Runs (Pot.Step LocalChain.deployment) LocalChain.start ahead :=
  lockedUp_runs.tail (LocalChain.step_settled 1_003_600 (by decide) (by decide)
    (by decide) (by decide))

theorem ahead_covers : Covers ahead 500_000 1_003_600 :=
  ⟨(LocalChain.start_genesis.runs_typed ahead_runs).channels _ _, by decide,
    by decide, by decide, by decide⟩

/-- The chat as the node lets it through on a chunk. -/
def clamped (cumulative : ℕ) : LlmParams :=
  { hello with
    maxTokens := min hello.maxTokens (ceilingFor (advertisedPrice config (.llm hello)) 0 cumulative) }

/-- The first chat on a lock is covered, all 16,384 tokens of it. -/
theorem admission_covers_hello : ∃ a bond state,
    admitJob config LocalChain.crypto rpc ledger (fun _ => none) (job 1 hello 500_000 1_003_600) 0
      (lockedUp 1_000_000) = (.ok a, lockedUp 1_000_000) ∧
    a.bonds 1 = some bond ∧
    Verified config LocalChain.crypto rpc (job 1 hello 500_000 1_003_600) bond state
      (lockedUp 1_000_000) ∧
    bond.Stands LocalChain.crypto a.channels state ∧
    ceilingCharge config (clamped 500_000) ≤ bond.pay.rise LocalChain.crypto a.channels := by
  obtain ⟨a, hadmitted, -, hpayload, -⟩ := admit_hello (fun _ => none) 1 (by decide : 0 < 500_000)
    (lockedUp_covers 1_003_600 (by decide) (by decide))
  obtain ⟨bond, state, hbond, hverified, hstands, -, hle⟩ :=
    admission_covers config_payout hadmitted hello_priced hpayload
  have hfloor : 1 < (clamped 500_000).maxTokens := by decide +kernel
  exact ⟨a, bond, state, hadmitted, hbond, hverified, hstands, hle hfloor⟩

/-- What it takes for the first chat on a lock to be covered. -/
theorem CoversJob.charge_le {s : Pot.Chain MockUsdc.Token} {cumulative deadline : ℕ}
    (hpos : 0 < cumulative) (hc : Covers s cumulative deadline) (hs : s.world.pot.Typed)
    (h : CoversJob config LocalChain.crypto rpc ledger (fun _ => none)
      (job 1 hello cumulative deadline) s) :
    ceilingCharge config (clamped cumulative) ≤
      cumulative - (Chain.stateOf (lockOf s)).earned := by
  obtain ⟨a, hadmitted, hchannels, hpayload, hheld⟩ := admit_hello (fun _ => none) 1 hpos hc
  obtain ⟨bond, state, hbond, ⟨payer, payout, d, -, -, hpayer, hpayout, ⟨k₀, hread⟩, -⟩, hle⟩ :=
    h 0 a s (clamped cumulative) hadmitted hello_priced hpayload
  have hpay : bond.pay = LocalNode.pay 1 LocalChain.worker cumulative deadline :=
    congrArg Bond.pay (Option.some.inj (hheld.symm.trans hbond)).symm
  rw [hpay] at hpayer hpayout hle
  obtain ⟨hclient, hworker⟩ := named_of_recover (recover_pay 1)
  have hshown := readChannel_shows linked.crypto linked.shows hs hclient hworker hpayer hpayout hread
  have hlock : onChain (id s) (ticket LocalChain.worker cumulative deadline) = lockOf s :=
    lockOf_eq s 1 cumulative deadline
  rw [hshown.2, hlock] at hle
  exact hle.trans (Nat.sub_le_sub_left (le_max_right _ _) _)

/-- The same node, told of no address to be paid at. -/
def unpaid : Config := { config with payoutAddress := [] }

theorem unpaid_payout : payoutOf unpaid.payoutAddress = none := by decide

/-- A node that is paid nowhere lets a chat through without a look at the chain. -/
theorem admit_unpaid (s : Pot.Chain MockUsdc.Token) {cumulative deadline : ℕ} (hpos : 0 < cumulative) :
    ∃ a, admitJob unpaid LocalChain.crypto rpc ledger (fun _ => none) (job 1 hello cumulative deadline)
      0 s = (.ok a, s) ∧ a.submit.payload = .llm (clamped cumulative) := by
  have hpayment : takePayment unpaid LocalChain.crypto ledger (job 1 hello cumulative deadline)
      true 0 = .ok ledger := by
    simp [takePayment, show unpaid.payments.domain = some domain from payments_domain, job]
  have g : BondGuard unpaid LocalChain.crypto ledger (job 1 hello cumulative deadline)
      (LocalNode.pay 1 LocalChain.worker cumulative deadline) := by
    refine ⟨rfl, rfl, ⟨domain, _, payments_domain, recover_pay 1⟩, ?_, ?_, hpos⟩
    · intro payout hpayout
      rw [unpaid_payout] at hpayout
      cases hpayout
    · intro payer hpayer
      cases hpayer
      exact eqIgnoreAsciiCase_refl _
  have hclamp : clampToChunk unpaid (.llm hello)
      ((LocalNode.pay 1 LocalChain.worker cumulative deadline).rise LocalChain.crypto ledger)
      (ledger.authorisedFor LocalChain.crypto (addressText LocalChain.client)
        (addressText LocalChain.worker)) = .ok (.llm (clamped cumulative)) :=
    clampToChunk_llm.mpr ⟨hello_cost.trans_lt hpos, rfl⟩
  have hlock (bonds : Bonds) (submit : JobSubmit) :
      ensureLock unpaid LocalChain.crypto rpc bonds submit s = (.ok bonds, s) := by
    rw [ensureLock, unpaid_payout]
    rfl
  exact ⟨_, admit_of_parts hello_priced hpayment g hclamp (hlock _ _), rfl⟩

/-- A chat is let through on a ticket the chain has all but paid, on one that buys no more than the
floor of one token, and, by a node that is paid nowhere, on one that was never verified. -/
theorem hello_not_covered :
    ¬ CoversJob config LocalChain.crypto rpc ledger (fun _ => none) (job 1 hello 500_000 1_003_600)
      ahead ∧
    ¬ CoversJob config LocalChain.crypto rpc ledger (fun _ => none) (job 1 hello 1 1_003_600)
      (lockedUp 1_000_000) ∧
    ¬ CoversJob unpaid LocalChain.crypto rpc ledger (fun _ => none) (job 1 hello 500_000 1_003_600)
      (lockedUp 1_000_000) := by
  refine ⟨?_, ?_, ?_⟩
  · intro h
    have hle := h.charge_le (by decide) ahead_covers (LocalChain.start_genesis.runs_typed ahead_runs)
    exact absurd hle (by decide +kernel)
  · intro h
    have hle := h.charge_le (by decide) (lockedUp_covers 1_003_600 (by decide) (by decide))
      (LocalChain.start_genesis.runs_typed lockedUp_runs)
    exact absurd hle (by decide +kernel)
  · intro h
    obtain ⟨a, hadmitted, hpayload⟩ := admit_unpaid (lockedUp 1_000_000) (by decide : 0 < 500_000)
    obtain ⟨-, -, -, ⟨-, payout, -, -, hpayout, -⟩, -⟩ := h 0 a _ _ hadmitted hello_priced hpayload
    rw [unpaid_payout] at hpayout
    cases hpayout

end Local

end Rootmode.Worker
