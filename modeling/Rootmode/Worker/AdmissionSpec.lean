import Rootmode.Worker.Admission

namespace Rootmode.Worker

open Lib Lib.Checked Lib.Text Payments Relation

variable {cfg : Config} {C : Crypto} {chs : Channels} {bonds bonds' : Bonds} {submit : JobSubmit}

/-- Everything `takeBond` checks of the chunk that came with a job. -/
structure BondGuard (cfg : Config) (C : Crypto) (chs : Channels) (submit : JobSubmit)
    (bond : JobPay) : Prop where
  carried : submit.bond = some bond
  sameJob : bond.jobId = submit.jobId
  readable : ∃ d signer, cfg.payments.domain = some d ∧ bond.ticket.recover C d bond.sig = .ok signer
  sameWorker : ∀ payout ∈ payoutOf cfg.payoutAddress,
    eqIgnoreAsciiCase bond.ticket.workerPayout payout
  samePayer : ∀ payer ∈ submit.payer, eqIgnoreAsciiCase bond.ticket.client payer
  rises : chs.authorisedFor C bond.ticket.client bond.ticket.workerPayout < bond.ticket.cumulative

/-- What a chunk adds to the ledger. -/
def JobPay.rise (C : Crypto) (chs : Channels) (pay : JobPay) : Micros :=
  pay.ticket.cumulative - chs.authorisedFor C pay.ticket.client pay.ticket.workerPayout

theorem takeBond_eq_ok {delta already : Micros} :
    takeBond cfg C chs bonds submit = .ok (delta, already, bonds') ↔
      ∃ bond, BondGuard cfg C chs submit bond ∧ delta = bond.rise C chs ∧
        already = chs.authorisedFor C bond.ticket.client bond.ticket.workerPayout ∧
        bonds' = Function.update bonds submit.jobId
          (some { pay := bond, delta := bond.rise C chs, appKey := [] }) := by
  simp only [takeBond, bind_eq_ok, demand_eq_ok, require_eq_ok, mapError_eq_ok]
  constructor
  · rintro ⟨bond, hbond, -, hjob, d, hd, signer, hsigner, -, hworker, -, hpayer, -, hrise, h⟩
    cases h
    exact ⟨bond, ⟨hbond, hjob, ⟨d, signer, hd, hsigner⟩, hworker, hpayer, hrise⟩, rfl, rfl, rfl⟩
  · rintro ⟨bond, g, rfl, rfl, rfl⟩
    obtain ⟨d, signer, hd, hsigner⟩ := g.readable
    exact ⟨bond, g.carried, ⟨⟩, g.sameJob, d, hd, signer, hsigner, ⟨⟩, g.sameWorker, ⟨⟩,
      g.samePayer, ⟨⟩, g.rises, rfl⟩

section Clamp

variable {params : LlmParams} {payload payload' : JobPayload} {bondMicros already : Micros}

/-- The most tokens of answer a chunk leaves a job. -/
def ceilingFor (price : Price) (prompt : ℕ) (bondMicros : Micros) : ℕ :=
  min (max (roomFor price (bondMicros - promptMicros price prompt)) 1) (2 ^ 32 - 1)

theorem clampToChunk_llm :
    clampToChunk cfg (.llm params) bondMicros already = .ok payload ↔
      promptMicros (advertisedPrice cfg (.llm params)) params.promptTokens < bondMicros ∧
      payload = .llm { params with
        maxTokens := min params.maxTokens
          (ceilingFor (advertisedPrice cfg (.llm params)) params.promptTokens bondMicros) } := by
  unfold clampToChunk
  dsimp only
  split
  · next h => simp [h]
  · next h =>
    rw [Except.ok.injEq, eq_comm]
    exact ⟨fun hp => ⟨not_le.mp h, hp⟩, And.right⟩

theorem clampToChunk_kind (h : clampToChunk cfg payload bondMicros already = .ok payload') :
    payload'.kind = payload.kind := by
  cases payload with
  | llm params =>
    rw [(clampToChunk_llm.mp h).2]
    rfl
  | image _ => cases h; rfl
  | video _ => cases h; rfl

/-- The cost of a prompt is counted in full unless it is past all bounds. -/
theorem prompt_le {price : Price} {prompt : ℕ} {micros : ℕ} (hmicros : micros < 2 ^ 64)
    (hprompt : promptMicros price prompt < micros) :
    prompt * max price.llmRates.input price.llmRates.cacheWrite ≤ promptMicros price prompt := by
  have hcast := lt_of_castWord_lt (w := 64)
    (x := ⌈(prompt : ℚ) * max price.llmRates.input price.llmRates.cacheWrite⌉)
    (hprompt.trans_le (Nat.le_sub_one_of_lt hmicros))
  rw [Int.floor_intCast] at hcast
  exact (Int.le_ceil _).trans (by exact_mod_cast hcast)

theorem answer_le (price : Price) {tokens : ℕ} {left : ℕ}
    (htokens : tokens ≤ roomFor price left) : tokens * price.llmRates.output ≤ left := by
  unfold roomFor at htokens
  split at htokens
  · next hpos =>
    have hnonneg : (0 : ℚ) ≤ left / price.llmRates.output := by positivity
    have hfloor : (0 : ℚ) ≤ (⌊left / price.llmRates.output⌋ : ℤ) := by
      exact_mod_cast Int.floor_nonneg.mpr hnonneg
    have hcast : (tokens : ℚ) ≤ (castWord 64 (⌊left / price.llmRates.output⌋ : ℤ) : ℕ) := by
      exact_mod_cast htokens
    have hle := (hcast.trans (le_of_lt_castWord hfloor)).trans (Int.floor_le _)
    exact (le_div_iff₀ hpos).mp hle
  · next hpos =>
    have hzero : price.llmRates.output = 0 := le_antisymm (not_lt.mp hpos) (ceilCents_nonneg _)
    rw [hzero, mul_zero]
    positivity

/-- What a prompt and the tokens a chunk has room for come to is within the chunk. -/
theorem charge_le {price : Price} {prompt tokens : ℕ} {micros : ℕ}
    (hprompt : promptMicros price prompt < micros)
    (htokens : tokens ≤ roomFor price (micros - promptMicros price prompt)) :
    price.chargeLlmMicros prompt tokens 0 ≤ micros := by
  by_cases hmicros : 2 ^ 64 ≤ micros
  · exact ((price.chargeLlmMicros_lt prompt tokens 0).trans_le hmicros).le
  rw [not_le] at hmicros
  have hread := prompt_le hmicros hprompt
  have hwrite := answer_le price htokens
  rw [Nat.cast_sub hprompt.le] at hwrite
  have htotal : (((prompt - 0 : ℕ) : ℚ) * max price.llmRates.input price.llmRates.cacheWrite +
      (0 : ℕ) * price.llmRates.cache + tokens * price.llmRates.output) ≤ (micros : ℕ) := by
    rw [Nat.sub_zero, Nat.cast_zero, zero_mul, add_zero]
    linarith
  have hround := roundAway_le htotal
  unfold Price.chargeLlmMicros
  rw [Nat.min_eq_left (Nat.zero_le prompt)]
  exact castWord_le 64 (max_le (by exact_mod_cast hround) (by positivity))

end Clamp

section Lock

variable {κ : Type} {R : Rpc κ} {payer payout : Text} {need : Micros} {state state' : ChannelState}
  {k k' : κ}

/-- One thing the node does to the chain, or one wait. -/
inductive Rpc.Turn (R : Rpc κ) : κ → κ → Prop
  | ethCall (data : Bytes) (k : κ) : R.Turn k (R.ethCall data k).2
  | sendCall (data : Bytes) (k : κ) : R.Turn k (R.sendCall data k).2
  | sleep (k : κ) : R.Turn k (R.sleep k)

theorem readChannel_within : (readChannel cfg C R payer payout).Within R.Turn := by
  unfold readChannel Chain.channelState
  apply Effect.Within.ite
  · exact Effect.within_pure _
  · refine (Effect.within_lift _).bind fun _ => (Effect.within_lift _).bind fun _ => ?_
    refine (Effect.within_of_move (.ethCall _)).bind fun _ => ?_
    exact (Effect.within_lift _).bind fun _ => Effect.within_pure _

theorem reserve_within {ticket : ReserveTicket} {sig : Bytes} :
    (Chain.reserve C R cfg.payments ticket sig).Within R.Turn := by
  unfold Chain.reserve Chain.sendUnless
  refine readChannel_within.attempt.bind fun _ => ?_
  apply Effect.Within.ite
  · exact Effect.within_pure _
  · refine (Effect.within_lift _).bind fun _ => ?_
    exact (Effect.within_of_move (.sendCall _)).bind fun _ => Effect.within_pure _

theorem awaitLock_within (n : ℕ) (state : ChannelState) :
    (awaitLock cfg C R payer payout need n state).Within R.Turn := by
  induction n generalizing state with
  | zero => exact Effect.within_pure _
  | succ n ih =>
    unfold awaitLock
    apply Effect.Within.ite
    · refine (Effect.within_modify .sleep).bind fun _ => ?_
      refine readChannel_within.attempt.bind fun reply => ?_
      cases reply with
      | error _ => exact ih state
      | ok found =>
        cases found with
        | none => exact ih state
        | some found => exact ih found
    · exact Effect.within_pure _

theorem postReserve_within {post : ReservePost} {sig : Bytes} :
    (postReserve cfg C R post sig payer payout need).Within R.Turn := by
  unfold postReserve
  refine reserve_within.attempt.bind fun posted => readChannel_within.bind fun _ => ?_
  refine (Effect.within_lift _).bind fun state => ?_
  cases posted with
  | ok _ => exact Effect.within_pure _
  | error _ =>
    refine (awaitLock_within 8 state).bind fun _ => ?_
    exact (Effect.within_lift _).bind fun _ => Effect.within_pure _

theorem raised_within : (raised cfg C R submit payer payout need state).Within R.Turn := by
  unfold raised
  split
  · unfold raiseLock awaitRaise
    refine (Effect.within_lift _).bind fun _ => (Effect.within_lift _).bind fun _ => ?_
    refine (Effect.within_lift _).bind fun _ => Effect.Within.bind ?_ fun _ => ?_
    · exact (awaitLock_within 8 state).ite (Effect.within_pure _)
    · exact postReserve_within.ite (Effect.within_pure _)
  · exact Effect.within_pure _

/-- The chain has just shown this state of the channel. -/
def Reads (cfg : Config) (C : Crypto) (R : Rpc κ) (payer payout : Text) (state : ChannelState)
    (k : κ) : Prop :=
  ∃ k₀, readChannel cfg C R payer payout k₀ = (.ok (some state), k)

/-- Waiting ends with what the chain has just shown, or short of the lock. -/
theorem awaitLock_reads {n : ℕ}
    (hread : need ≤ state.remaining → Reads cfg C R payer payout state k)
    (h : awaitLock cfg C R payer payout need n state k = (.ok state', k'))
    (hneed : need ≤ state'.remaining) : Reads cfg C R payer payout state' k' := by
  induction n generalizing state k with
  | zero =>
    obtain ⟨rfl, rfl⟩ := Effect.pure_run_ok.mp h
    exact hread hneed
  | succ n ih =>
    unfold awaitLock at h
    split at h
    · next hshort =>
      simp only [Effect.bind_run_ok, Effect.attempt_run_ok] at h
      obtain ⟨-, k₁, -, reply, k₂, hreply, h⟩ := h
      have hstale : need ≤ state.remaining → Reads cfg C R payer payout state k₂ :=
        fun hle => absurd hle (not_le.mpr hshort)
      cases reply with
      | error _ => exact ih hstale h
      | ok found =>
        cases found with
        | none => exact ih hstale h
        | some found => exact ih (fun _ => ⟨k₁, hreply⟩) h
    · obtain ⟨rfl, rfl⟩ := Effect.pure_run_ok.mp h
      exact hread hneed

theorem postReserve_reads {post : ReservePost} {sig : Bytes}
    (h : postReserve cfg C R post sig payer payout need k = (.ok state', k'))
    (hneed : need ≤ state'.remaining) : Reads cfg C R payer payout state' k' := by
  simp only [postReserve, Effect.bind_run_ok, Effect.attempt_run_ok, Effect.lift_run_ok,
    demand_eq_ok] at h
  obtain ⟨posted, k₁, -, reply, k₂, hreply, state, _, ⟨rfl, rfl⟩, h⟩ := h
  cases posted with
  | ok _ =>
    obtain ⟨rfl, rfl⟩ := Effect.pure_run_ok.mp h
    exact ⟨k₁, hreply⟩
  | error _ =>
    simp only [Effect.bind_run_ok, Effect.lift_run_ok, Effect.pure_run_ok, require_eq_ok] at h
    obtain ⟨waited, k₃, hwaited, _, _, ⟨-, rfl⟩, rfl, rfl⟩ := h
    exact awaitLock_reads (fun _ => ⟨k₁, hreply⟩) hwaited hneed

theorem raised_reads (hread : Reads cfg C R payer payout state k)
    (h : raised cfg C R submit payer payout need state k = (.ok state', k'))
    (hneed : need ≤ state'.remaining) : Reads cfg C R payer payout state' k' := by
  unfold raised at h
  cases hpost : submit.reserve with
  | none =>
    rw [hpost] at h
    obtain ⟨rfl, rfl⟩ := Effect.pure_run_ok.mp h
    exact hread
  | some post =>
    rw [hpost] at h
    simp only [raiseLock, awaitRaise, Effect.bind_run_ok, Effect.lift_run_ok] at h
    obtain ⟨_, _, ⟨-, rfl⟩, _, _, ⟨-, rfl⟩, sig, _, ⟨-, rfl⟩, waited, k₁, hwaited, h⟩ := h
    have hwaited' : need ≤ waited.remaining → Reads cfg C R payer payout waited k₁ := by
      split at hwaited
      · exact awaitLock_reads (fun _ => hread) hwaited
      · obtain ⟨rfl, rfl⟩ := Effect.pure_run_ok.mp hwaited
        exact fun _ => hread
    split at h
    · exact postReserve_reads h hneed
    · obtain ⟨rfl, rfl⟩ := Effect.pure_run_ok.mp h
      exact hwaited' hneed

/-- What `checkLock` found of the channel it passed a job on. -/
structure LockGuard (cfg : Config) (C : Crypto) (submit : JobSubmit) (need : Micros)
    (state : ChannelState) (now : ℕ) : Prop where
  fits : checkFlat cfg submit state = .ok ⟨⟩
  locked : need ≤ state.remaining
  hasKey : Chain.isZeroAddress state.appKey = false
  signed : ∀ bond ∈ submit.bond, ∃ d, cfg.payments.domain = some d ∧
    bond.ticket.check C d bond.sig state.appKey now = .ok ⟨⟩

/-- A job that passes is judged by what the chain has shown last; what it needs is measured by what
the chain showed first. -/
theorem checkLock_ok (h : checkLock cfg C R bonds submit payout k = (.ok state, k')) :
    ∃ payer first k₁, submit.payer = some payer ∧
      readChannel cfg C R payer payout k = (.ok (some first), k₁) ∧ ReflTransGen R.Turn k₁ k' ∧
      Reads cfg C R payer payout state k' ∧
      LockGuard cfg C submit (needOf bonds submit first) state (R.now k') := by
  simp only [checkLock, Effect.bind_run_ok, Effect.lift_run_ok, Effect.read_run_ok,
    Effect.pure_run_ok, demand_eq_ok, require_eq_ok] at h
  obtain ⟨payer, _, ⟨hpayer, rfl⟩, d, _, ⟨hd, rfl⟩, reply, k₁, hread, first, _, ⟨rfl, rfl⟩, last, k₂,
    hlast, _, _, ⟨hfits, rfl⟩, _, _, ⟨hlocked, rfl⟩, _, _, ⟨hkey, rfl⟩, now, _, ⟨rfl, rfl⟩, _, _,
    ⟨hsigned, rfl⟩, rfl, rfl⟩ := h
  have hmoves : ReflTransGen R.Turn k₁
      (raised cfg C R submit payer payout (needOf bonds submit first) first k₁).2 :=
    raised_within k₁
  rw [hlast] at hmoves
  refine ⟨payer, first, k₁, hpayer, hread, hmoves, raised_reads ⟨_, hread⟩ hlast hlocked, hfits,
    hlocked, hkey, ?_⟩
  intro bond hbond
  rw [Option.mem_def.mp hbond] at hsigned
  exact ⟨d, hd, (mapError_eq_ok _ _ _).mp hsigned⟩

theorem checkFlat_eq_ok :
    checkFlat cfg submit state = .ok ⟨⟩ ↔
      (0 < state.maxPerJob → submit.payload.kind ≠ .llm →
        flatMicros cfg submit.payload ≤ state.maxPerJob) := by
  unfold checkFlat
  split
  · next h => simp [h]
  · next h =>
    refine ⟨fun _ hcap hkind => absurd ⟨hcap, hkind⟩ h, fun _ => rfl⟩

/-- Without a raise of its own, a job goes through on what the chain shows first. -/
theorem checkLock_of_guard (hpayer : submit.payer = some payer)
    (hdomain : ∃ d, cfg.payments.domain = some d) (hreserve : submit.reserve = none)
    (hread : readChannel cfg C R payer payout k = (.ok (some state), k'))
    (g : LockGuard cfg C submit (needOf bonds submit state) state (R.now k')) :
    checkLock cfg C R bonds submit payout k = (.ok state, k') := by
  obtain ⟨d, hd⟩ := hdomain
  have hbond : checkBond C d submit.bond state.appKey (R.now k') = .ok ⟨⟩ := by
    unfold checkBond
    split
    · next bond hbond =>
      obtain ⟨d', hd', hcheck⟩ := g.signed bond hbond
      obtain rfl : d = d' := Option.some.inj (hd.symm.trans hd')
      exact (mapError_eq_ok _ _ _).mpr hcheck
    · rfl
  have hraised : raised cfg C R submit payer payout (needOf bonds submit state) state k' =
      (.ok state, k') := by
    rw [raised, hreserve]
    rfl
  simp only [checkLock, Effect.bind_run_ok, Effect.lift_run_ok, Effect.read_run_ok,
    Effect.pure_run_ok, demand_eq_ok, require_eq_ok]
  exact ⟨payer, k, ⟨hpayer, rfl⟩, d, k, ⟨hd, rfl⟩, some state, k', hread, state, k', ⟨rfl, rfl⟩,
    state, k', hraised, ⟨⟩, k', ⟨g.fits, rfl⟩, ⟨⟩, k', ⟨g.locked, rfl⟩, ⟨⟩, k', ⟨g.hasKey, rfl⟩, _,
    k', ⟨rfl, rfl⟩, ⟨⟩, k', ⟨hbond, rfl⟩, rfl, rfl⟩

/-- The bond as `ensureLock` leaves it. -/
def stashed (C : Crypto) (chs : Channels) (pay : JobPay) (state : ChannelState) : Bond :=
  { pay
    delta := min (pay.rise C chs) (max (pay.ticket.cumulative - state.earned) 1)
    appKey := state.appKey }

section Admit

variable {now : ℤ} {a : Admission}

/-- What an admission of a priced job went through: its chunk, its ceiling and its lock. -/
theorem admit_ok (h : admitJob cfg C R chs bonds submit now k = (.ok a, k'))
    (hpriced : holdbackFor cfg submit.payload) :
    ∃ bond payload, BondGuard cfg C a.channels submit bond ∧
      clampToChunk cfg submit.payload (bond.rise C a.channels)
        (a.channels.authorisedFor C bond.ticket.client bond.ticket.workerPayout) = .ok payload ∧
      a.submit = { submit with payload } ∧
      ensureLock cfg C R (Function.update bonds submit.jobId
          (some { pay := bond, delta := bond.rise C a.channels, appKey := [] }))
        { submit with payload } k = (.ok a.bonds, k') := by
  simp only [admitJob, if_pos hpriced, Effect.bind_run_ok, Effect.lift_run_ok, Effect.pure_run_ok] at h
  obtain ⟨channels, _, ⟨-, rfl⟩, ⟨delta, already, held⟩, _, ⟨htake, rfl⟩, payload, _,
    ⟨hclamp, rfl⟩, bonds', _, hlock, rfl, rfl⟩ := h
  obtain ⟨bond, g, rfl, rfl, rfl⟩ := takeBond_eq_ok.mp htake
  exact ⟨bond, payload, g, hclamp, rfl, hlock⟩

theorem admit_of_parts {chs' : Channels} {bond : JobPay} {payload : JobPayload} {held : Bonds}
    (hpriced : holdbackFor cfg submit.payload)
    (hpayment : takePayment cfg C chs submit true now = .ok chs')
    (g : BondGuard cfg C chs' submit bond)
    (hclamp : clampToChunk cfg submit.payload (bond.rise C chs')
      (chs'.authorisedFor C bond.ticket.client bond.ticket.workerPayout) = .ok payload)
    (hlock : ensureLock cfg C R (Function.update bonds submit.jobId
        (some { pay := bond, delta := bond.rise C chs', appKey := [] }))
      { submit with payload } k = (.ok held, k')) :
    admitJob cfg C R chs bonds submit now k =
      (.ok { channels := chs', bonds := held, submit := { submit with payload } }, k') := by
  simp only [admitJob, if_pos hpriced, decide_eq_true hpriced, Effect.bind_run_ok, Effect.lift_run_ok,
    Effect.pure_run_ok]
  exact ⟨chs', k, ⟨hpayment, rfl⟩, _, k, ⟨takeBond_eq_ok.mpr ⟨bond, g, rfl, rfl, rfl⟩, rfl⟩, payload,
    k, ⟨hclamp, rfl⟩, held, k', hlock, rfl, rfl⟩

/-- The same where the node knows where it is paid. -/
theorem admit_locked (h : admitJob cfg C R chs bonds submit now k = (.ok a, k'))
    (hpriced : holdbackFor cfg submit.payload) (hpayout : payoutOf cfg.payoutAddress = some payout) :
    ∃ bond payer first state k₁, BondGuard cfg C a.channels submit bond ∧
      submit.payer = some payer ∧ a.submit.bond = some bond ∧
      readChannel cfg C R payer payout k = (.ok (some first), k₁) ∧ ReflTransGen R.Turn k₁ k' ∧
      Reads cfg C R payer payout state k' ∧
      LockGuard cfg C a.submit (max (bond.ticket.cumulative - first.earned) 1) state (R.now k') ∧
      a.bonds submit.jobId = some (stashed C a.channels bond state) := by
  obtain ⟨bond, payload, g, -, hsubmit, hlock⟩ := admit_ok h hpriced
  simp only [ensureLock, hpayout, Effect.bind_run_ok, Effect.pure_run_ok] at hlock
  obtain ⟨state, _, hcheck, hbonds, rfl⟩ := hlock
  obtain ⟨payer, first, k₁, hpayer, hfirst, hmoves, hreads, hguard⟩ := checkLock_ok hcheck
  refine ⟨bond, payer, first, state, k₁, g, hpayer, ?_, hfirst, hmoves, hreads, ?_, ?_⟩
  · rw [hsubmit]
    exact g.carried
  · rw [hsubmit]
    simpa [needOf, Bond.aboveChain] using hguard
  · rw [← hbonds]
    simp [stash, Bond.stash, Bond.aboveChain, stashed]

end Admit

end Lock

end Rootmode.Worker
