import Rootmode.Contracts.LocalChain
import Rootmode.Worker.OnChain

namespace Rootmode.LocalNode

open Lib Lib.Bytes Lib.Checked Lib.Text Lib.Transition Payments Pot Worker

/-- The domain of the local deployment, as a node writes it. -/
def domain : Domain := ⟨31337, addressText LocalChain.pot⟩

theorem serves : Worker.Chain.Serves LocalChain.deployment LocalChain.crypto domain :=
  ⟨rfl, rfl, Worker.Chain.wordAddress_addressText LocalChain.pot⟩

def payments : PaymentsConfig where
  contract := addressText LocalChain.pot
  chainId := 31337
  rpc := ofString "http://127.0.0.1:8545"
  sender := []
  key := []
  requireAuth := true

theorem payments_domain : payments.domain = some domain := by decide

/-- One chat model at twenty dollars for a million tokens. -/
def config : Config where
  payments
  payoutAddress := addressText LocalChain.worker
  models := [{ id := ofString "chat", kind := .llm, price := some (Price.new 20) }]

theorem config_payout : payoutOf config.payoutAddress = some (addressText LocalChain.worker) := by
  decide

section Rpc

/-- The address in the word at `i` of some calldata. -/
def addressAt (data : Bytes) (i : ℕ) : Address :=
  BitVec.ofNat 160 (ofBigEndian ((data.drop i).take 32))

/-- Reads the local chain.  Without a key it cannot send. -/
def rpc : Rpc (Chain MockUsdc.Token) where
  ethCall data := .read fun k =>
    Chain.returnData (k.world.pot.channels (addressAt data 4) (addressAt data 36))
  sendCall _ := .fail (.rejected
    "set payments.key (or ROOTMODE_PAY_KEY) so this node can sign chain calls")
  sleep k := k
  now k := k.now

theorem length_selector (C : Crypto) (signature : String) :
    (Chain.selector C signature).length = 4 := by
  simp [Chain.selector, word]

theorem addressAt_word {p b : Bytes} {i : ℕ} (h : p.length = i) (a : Address) :
    addressAt (p ++ (bigEndian 32 a.toNat ++ b)) i = a := by
  have ha := a.isLt
  rw [addressAt, List.drop_left' h, List.take_left' (length_bigEndian _ _), ofBigEndian_bigEndian,
    Nat.mod_eq_of_lt (by omega), BitVec.ofNat_toNat, BitVec.setWidth_eq]

theorem ethCall_channels (client payout : Address) (k : Chain MockUsdc.Token) :
    rpc.ethCall (Chain.selector LocalChain.crypto "channels(address,address)" ++
        bigEndian 32 client.toNat ++ bigEndian 32 payout.toNat) k =
      (.ok (Chain.returnData (k.world.pot.channels client payout)), k) := by
  have hclient : addressAt (Chain.selector LocalChain.crypto "channels(address,address)" ++
      bigEndian 32 client.toNat ++ bigEndian 32 payout.toNat) 4 = client := by
    rw [List.append_assoc]
    exact addressAt_word (length_selector _ _) client
  have hpayout : addressAt (Chain.selector LocalChain.crypto "channels(address,address)" ++
      bigEndian 32 client.toNat ++ bigEndian 32 payout.toNat) 36 = payout := by
    have hlength : (Chain.selector LocalChain.crypto "channels(address,address)" ++
        bigEndian 32 client.toNat).length = 36 := by
      rw [List.length_append, length_selector, length_bigEndian]
    have hword := addressAt_word (b := []) hlength payout
    rwa [List.append_nil] at hword
  simp only [rpc, Effect.read_run_ok]
  rw [hclient, hpayout]
  exact ⟨rfl, trivial⟩

theorem rpc_shows : rpc.Shows LocalChain.deployment id where
  moves := by
    intro k k' h
    cases h <;> exact .refl _
  reply := by
    intro client payout k k' raw h
    rw [show LocalChain.deployment.crypto = LocalChain.crypto from rfl, ethCall_channels] at h
    obtain ⟨hraw, rfl⟩ := Prod.mk.inj h
    exact (Except.ok.inj hraw).symm

theorem linked : OnPot config LocalChain.crypto rpc LocalChain.deployment id where
  crypto := rfl
  serves := by
    intro d hd
    rw [show config.payments.domain = some domain from payments_domain] at hd
    cases hd
    exact serves
  shows := rpc_shows

end Rpc

section Tickets

variable {payout : Address} {cumulative deadline now : ℕ}

/-- A signature the way it travels. -/
def sigText (sig : Bytes) : Text := ofString "0x" ++ Hex.encode sig

def ticket (payout : Address) (cumulative deadline : ℕ) : Payments.SpendTicket where
  client := addressText LocalChain.client
  workerPayout := addressText payout
  cumulative
  deadline

/-- A spend ticket for a job, signed by the client's app key. -/
def pay (jobId : Uuid) (payout : Address) (cumulative deadline : ℕ) : JobPay where
  jobId
  ticket := ticket payout cumulative deadline
  sig := sigText (LocalChain.sign LocalChain.app
    (ticketDigest LocalChain.deployment ticketTypehash LocalChain.client payout cumulative deadline))

theorem recover_sigText {signer : Address} (h : signer ≠ 0) (digest : Bytes32) :
    Payments.recover LocalChain.crypto digest (sigText (LocalChain.sign signer digest)) =
      .ok (addressText signer) := by
  obtain ⟨hr, hs, hv⟩ := LocalChain.sign_parts signer digest
  have hsigner := signer.isLt
  have hne : signer.toNat ≠ 0 := fun hzero => h (BitVec.eq_of_toNat_eq hzero)
  have hrecover : LocalChain.crypto.recoverSigner digest false signer.toNat
      (digest.toNat % 2 ^ 128 + 1) = some signer := LocalChain.recoverSigner_sign signer digest
  have hrange : ¬ (signer.toNat = 0 ∨ secp256k1n ≤ signer.toNat ∨ digest.toNat % 2 ^ 128 + 1 = 0 ∨
      secp256k1n ≤ digest.toNat % 2 ^ 128 + 1) := by
    unfold secp256k1n
    omega
  have hhalf : ¬ secp256k1nHalf < digest.toNat % 2 ^ 128 + 1 := by
    unfold secp256k1nHalf
    omega
  unfold Payments.recover sigText
  rw [Worker.Chain.strip0x_0x, Hex.decode_encode]
  dsimp only
  rw [if_neg (not_ne_iff.mpr (LocalChain.length_sign _ _)), hv, hr, hs]
  simp only [show parity 27 = some false from rfl, if_neg hrange, if_neg hhalf, hrecover]

theorem addressOf_addressText (a : Address) : Worker.Chain.addressOf (addressText a) = a := by
  have hword := Worker.Chain.wordAddress_addressText a
  obtain ⟨-, -, hw⟩ := Worker.Chain.wordAddress_ok hword
  exact (BitVec.eq_of_toNat_eq (bigEndian_injective (by have := a.isLt; omega)
    (by have := (Worker.Chain.addressOf (addressText a)).isLt; omega) hw)).symm

theorem digest_ticket : (ticket payout cumulative deadline).digest LocalChain.crypto domain =
    .ok (ticketDigest LocalChain.deployment ticketTypehash LocalChain.client payout cumulative
      deadline) := by
  have hreads : ∃ h, (ticket payout cumulative deadline).digest LocalChain.crypto domain = .ok h := by
    simp only [SpendTicket.digest, digestOfNamed, Domain.separatorNamed, bind_eq_ok]
    exact ⟨_, _, Worker.Chain.wordAddress_addressText _, _,
      Worker.Chain.wordAddress_addressText _, _,
      ⟨_, Worker.Chain.wordAddress_addressText _, rfl⟩, rfl⟩
  obtain ⟨h, hh⟩ := hreads
  have hsame := Worker.Chain.digest_eq serves hh
  rw [hh, hsame]
  simp only [ticket, addressOf_addressText]

theorem recover_pay (jobId : Uuid) :
    (ticket payout cumulative deadline).recover LocalChain.crypto domain
      (pay jobId payout cumulative deadline).sig = .ok (addressText LocalChain.app) := by
  simp only [SpendTicket.recover, bind_eq_ok]
  exact ⟨_, digest_ticket, recover_sigText LocalChain.app_ne_zero _⟩

theorem check_pay (jobId : Uuid) (h : now < deadline) :
    (ticket payout cumulative deadline).check LocalChain.crypto domain
      (pay jobId payout cumulative deadline).sig (addressText LocalChain.app) now = .ok ⟨⟩ := by
  simp only [SpendTicket.check, bind_eq_ok, require_eq_ok]
  exact ⟨⟨⟩, h, _, recover_pay jobId, eqIgnoreAsciiCase_refl _⟩

end Tickets

section Admission

variable {chs : Channels} {bonds : Bonds} {jobId : Uuid} {params : LlmParams} {payload : JobPayload}
  {cumulative deadline : ℕ} {s : Chain MockUsdc.Token}

/-- A chat of the client's, with a chunk for it. -/
def job (jobId : Uuid) (params : LlmParams) (cumulative deadline : ℕ) : JobSubmit where
  jobId
  payload := .llm params
  payer := some (addressText LocalChain.client)
  bond := some (pay jobId LocalChain.worker cumulative deadline)

/-- The worker's channel with the client. -/
def lockOf (s : Chain MockUsdc.Token) : Pot.Channel :=
  s.world.pot.channels LocalChain.client LocalChain.worker

theorem lockOf_eq (s : Chain MockUsdc.Token) (jobId : Uuid) (cumulative deadline : ℕ) :
    onChain s (pay jobId LocalChain.worker cumulative deadline).ticket = lockOf s := by
  simp [onChain, onPot, Pot.SpendTicket.channel, pay, ticket, addressOf_addressText, lockOf]

theorem wordAddress_addressText (a : Address) :
    Chain.wordAddress (addressText a) = .ok (bigEndian 32 a.toNat) := by
  have hsplit := bigEndian_add 12 20 (n := a.toNat) (by have := a.isLt; omega)
  unfold Chain.wordAddress addressText
  rw [Worker.Chain.trimStart0x_ofString_encode, Hex.decode_encode]
  simp [hsplit]

theorem readChannel_local (htyped : (lockOf s).Typed) (hwaiting : (lockOf s).closeAt = 0) :
    readChannel config LocalChain.crypto rpc (addressText LocalChain.client)
      (addressText LocalChain.worker) s = (.ok (some (Chain.stateOf (lockOf s))), s) := by
  have hopen : ¬ (trim config.payments.rpc = [] ∨ trim config.payments.contract = []) := by
    decide
  have hdecode := Worker.Chain.decodeChannel_returnData htyped
  rw [if_pos hwaiting] at hdecode
  unfold readChannel Chain.channelState
  rw [if_neg hopen]
  simp only [Effect.bind_run_ok, Effect.lift_run_ok, Effect.pure_run_ok]
  exact ⟨_, s, ⟨wordAddress_addressText _, rfl⟩, _, s, ⟨wordAddress_addressText _, rfl⟩,
    Chain.returnData (lockOf s), s, ethCall_channels _ _ s, _, s, ⟨hdecode, rfl⟩, rfl, rfl⟩

/-- What the chain must hold for a job that comes without a reserve. -/
structure Covers (s : Chain MockUsdc.Token) (cumulative deadline : ℕ) : Prop where
  typed : (lockOf s).Typed
  waiting : (lockOf s).closeAt = 0
  keyed : (lockOf s).appKey = LocalChain.app
  locked : max (cumulative - (Chain.stateOf (lockOf s)).earned) 1 ≤
    (Chain.stateOf (lockOf s)).remaining
  live : s.now < deadline

theorem bondGuard_local
    (hrises : chs.authorisedFor LocalChain.crypto (addressText LocalChain.client)
      (addressText LocalChain.worker) < cumulative) :
    BondGuard config LocalChain.crypto chs (job jobId params cumulative deadline)
      (pay jobId LocalChain.worker cumulative deadline) where
  carried := rfl
  sameJob := rfl
  readable := ⟨domain, _, payments_domain, recover_pay jobId⟩
  sameWorker := by
    intro payout hpayout
    rw [config_payout] at hpayout
    cases hpayout
    exact eqIgnoreAsciiCase_refl _
  samePayer := by
    intro payer hpayer
    cases hpayer
    exact eqIgnoreAsciiCase_refl _
  rises := hrises

/-- A job that brings no earlier authorisation has nothing banked when it comes. -/
theorem takePayment_local (chs : Channels) :
    takePayment config LocalChain.crypto chs (job jobId params cumulative deadline) true 0 = .ok chs := by
  simp [takePayment, show config.payments.domain = some domain from payments_domain, job]

/-- A chat without a reserve passes at its lock where the chain covers it. -/
theorem checkLock_local {held : Bonds} {bond : Bond} (hheld : held jobId = some bond)
    (hpay : bond.pay = pay jobId LocalChain.worker cumulative deadline) (hkind : payload.kind = .llm)
    (hc : Covers s cumulative deadline) :
    checkLock config LocalChain.crypto rpc held { job jobId params cumulative deadline with payload }
      (addressText LocalChain.worker) s = (.ok (Chain.stateOf (lockOf s)), s) := by
  have hkey : Chain.isZeroAddress (Chain.stateOf (lockOf s)).appKey = false := by
    simp only [Chain.stateOf, hc.keyed]
    decide
  have hneed : needOf held { job jobId params cumulative deadline with payload }
      (Chain.stateOf (lockOf s)) = max (cumulative - (Chain.stateOf (lockOf s)).earned) 1 := by
    simp [needOf, job, hheld, Bond.aboveChain, hpay, pay, ticket]
  refine checkLock_of_guard rfl ⟨domain, payments_domain⟩ rfl (readChannel_local hc.typed hc.waiting) ?_
  refine ⟨?_, ?_, hkey, ?_⟩
  · simp [checkFlat, hkind]
  · rw [hneed]
    exact hc.locked
  · intro bond hbond
    cases hbond
    refine ⟨domain, payments_domain, ?_⟩
    simp only [Chain.stateOf, hc.keyed]
    exact check_pay jobId hc.live

/-- A chat without a reserve goes through where the chain covers it. -/
theorem admit_local (hpriced : holdbackFor config (.llm params))
    (hrises : chs.authorisedFor LocalChain.crypto (addressText LocalChain.client)
      (addressText LocalChain.worker) < cumulative)
    (hclamp : clampToChunk config (.llm params)
      ((pay jobId LocalChain.worker cumulative deadline).rise LocalChain.crypto chs)
      (chs.authorisedFor LocalChain.crypto (addressText LocalChain.client)
        (addressText LocalChain.worker)) = .ok payload)
    (hc : Covers s cumulative deadline) :
    ∃ a, admitJob config LocalChain.crypto rpc chs bonds (job jobId params cumulative deadline) 0 s =
        (.ok a, s) ∧ a.channels = chs ∧
      a.submit = { job jobId params cumulative deadline with payload } ∧
      a.bonds jobId = some (stashed LocalChain.crypto chs
        (pay jobId LocalChain.worker cumulative deadline) (Chain.stateOf (lockOf s))) := by
  have g : BondGuard config LocalChain.crypto chs (job jobId params cumulative deadline)
      (pay jobId LocalChain.worker cumulative deadline) := bondGuard_local hrises
  have hlock : ∃ held, ensureLock config LocalChain.crypto rpc
      (Function.update bonds jobId (some
        { pay := pay jobId LocalChain.worker cumulative deadline
          delta := (pay jobId LocalChain.worker cumulative deadline).rise LocalChain.crypto chs
          appKey := [] }))
      { job jobId params cumulative deadline with payload } s = (.ok held, s) ∧
      held jobId = some (stashed LocalChain.crypto chs
        (pay jobId LocalChain.worker cumulative deadline) (Chain.stateOf (lockOf s))) := by
    simp only [ensureLock, config_payout, Effect.bind_run_ok, Effect.pure_run_ok]
    refine ⟨_, ⟨Chain.stateOf (lockOf s), s, checkLock_local (Function.update_self _ _ _) rfl
      (clampToChunk_kind hclamp) hc, rfl, rfl⟩, ?_⟩
    simp [stash, Bond.stash, Bond.aboveChain, stashed, job]
  obtain ⟨held, hlock, hheld⟩ := hlock
  exact ⟨_, admit_of_parts hpriced (takePayment_local _) g hclamp hlock, rfl, rfl, hheld⟩

/-- The ledger of a node nobody has paid yet. -/
def ledger : Channels where
  contract := addressText LocalChain.pot
  opened _ := none

/-- A chat with an empty prompt that may be answered at length. -/
def hello : LlmParams := { promptTokens := 0, maxTokens := 16_384 }

theorem hello_priced : holdbackFor config (.llm hello) := by decide +kernel

theorem hello_cost : promptMicros (advertisedPrice config (.llm hello)) 0 = 0 := by decide +kernel

/-- The first chat a lock covers goes through, as far as its chunk has room. -/
theorem admit_hello (bonds : Bonds) (jobId : Uuid) (hpos : 0 < cumulative) (hc : Covers s cumulative deadline) :
    ∃ a, admitJob config LocalChain.crypto rpc ledger bonds (job jobId hello cumulative deadline) 0 s =
        (.ok a, s) ∧ a.channels = ledger ∧
      a.submit.payload = .llm { hello with
        maxTokens := min hello.maxTokens
          (ceilingFor (advertisedPrice config (.llm hello)) 0 cumulative) } ∧
      a.bonds jobId = some (stashed LocalChain.crypto ledger
        (pay jobId LocalChain.worker cumulative deadline) (Chain.stateOf (lockOf s))) := by
  have hclamp : clampToChunk config (.llm hello)
      ((pay jobId LocalChain.worker cumulative deadline).rise LocalChain.crypto ledger)
      (ledger.authorisedFor LocalChain.crypto (addressText LocalChain.client)
        (addressText LocalChain.worker)) =
      .ok (.llm { hello with
        maxTokens := min hello.maxTokens
          (ceilingFor (advertisedPrice config (.llm hello)) 0 cumulative) }) :=
    clampToChunk_llm.mpr ⟨hello_cost.trans_lt hpos, rfl⟩
  obtain ⟨a, hadmitted, hchannels, hsubmit, hbond⟩ := admit_local hello_priced hpos hclamp hc
  exact ⟨a, hadmitted, hchannels, congrArg JobSubmit.payload hsubmit, hbond⟩

/-- The chain with a lock of so much, where half a dollar is the cap on a job. -/
def lockedUp (maxAmount : ℕ) : Chain MockUsdc.Token :=
  LocalChain.reserved (LocalChain.funded LocalChain.maxDay) ⟨LocalChain.worker, 1_000_000⟩
    LocalChain.worker maxAmount 1_003_600

theorem lockedUp_runs : Runs (Step LocalChain.deployment) LocalChain.start (lockedUp 1_000_000) :=
  (LocalChain.funded_runs LocalChain.maxDay).tail
    (LocalChain.step_reserved (by decide) (by decide) (by decide))

theorem lockedUp_covers (deadline : ℕ) (h : cumulative ≤ 1_000_000) (hlive : 1_000_000 < deadline) :
    Covers (lockedUp 1_000_000) cumulative deadline := by
  have hearned : (Chain.stateOf (lockOf (lockedUp 1_000_000))).earned = 0 := by decide
  have hremaining : (Chain.stateOf (lockOf (lockedUp 1_000_000))).remaining = 1_000_000 := by
    decide
  refine ⟨(LocalChain.start_genesis.runs_typed lockedUp_runs).channels _ _, by decide,
    by decide, ?_, hlive⟩
  rw [hearned, hremaining]
  omega

end Admission

end Rootmode.LocalNode
