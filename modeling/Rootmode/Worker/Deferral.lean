import Rootmode.Worker.LocalJobs

namespace Rootmode.Worker

open Lib Lib.Bytes Lib.Checked Lib.Text Lib.Transition Payments

/-- Settle only once a channel has this much unsettled, or a ticket is about to expire. -/
def settleMinMicros : Micros := 50_000

def settleBeforeDeadlineSecs : ℕ := 20 * 60

variable {κ τ : Type} (cfg : Config) (C : Crypto) (R : Rpc κ) (E : Pot.Deployment τ)

/-- The node has an RPC, and a sender or a key to send transactions from. -/
def canSettle : Prop :=
  trim cfg.payments.rpc ≠ [] ∧ ¬ (trim cfg.payments.sender = [] ∧ trim cfg.payments.key = [])

instance : Decidable (canSettle cfg) := inferInstanceAs (Decidable (_ ∧ _))

/-- Whether to spend a transaction on a ticket now, by what was read of its channel. -/
def worthSettling (now : ℕ) (ticket : SpendTicket)
    (reply : Except WorkerError (Option ChannelState)) : Bool :=
  if ticket.deadline - now < settleBeforeDeadlineSecs then true
  else
    match reply with
    | .ok (some state) =>
      let delta := ticket.cumulative - state.earned
      if delta = 0 then false
      else
        let nearCap := 0 < state.maxPerJob ∧ state.maxPerJob / 2 ≤ delta
        decide (settleMinMicros ≤ delta ∨ nearCap)
    | _ => true

/-- A node at work, and the chain it settles on. -/
structure Till (τ : Type) where
  node : Node
  chain : Pot.Chain τ

/-- A look at a channel: the node's clock, what it reads, and the transaction it would send. -/
structure Look where
  now : ℕ
  reply : Except WorkerError (Option ChannelState)
  m : Pot.Msg

namespace Till

variable (s : Till τ)

/-- The ledger notes what is settled. -/
def settled (id : Text) (upto : Micros) : Till τ :=
  { s with node := { s.node with channels := s.node.channels.settled id upto } }

/-- Settle a ticket.  The contract takes the transaction or turns it down. -/
def settleTicket (id : Text) (pay : JobPay) (look : Look) : Till τ :=
  match Hex.decode (trimStart0x pay.sig) with
  | .error _ => s
  | .ok sig =>
    if sig.length ≠ 65 then s
    else if Chain.shows (fun ch => pay.ticket.cumulative ≤ ch.earned) look.reply then
      s.settled id pay.ticket.cumulative
    else
      match Pot.exec E look.m ((onPot pay.ticket).settle sig) s.chain.world with
      | .ok world =>
        { s.settled id pay.ticket.cumulative with chain := ⟨look.m.timestamp, world⟩ }
      | .error _ => { s with chain := ⟨look.m.timestamp, s.chain.world⟩ }

/-- Settle a ticket if that is worth a transaction. -/
def settleIfWorth (id : Text) (pay : JobPay) (look : Look) : Till τ :=
  if canSettle cfg ∧ worthSettling look.now pay.ticket look.reply then
    s.settleTicket E id pay look
  else s

/-- After a ticket was banked. -/
def settleIfConfigured (pay : JobPay) (look : Look) : Till τ :=
  s.settleIfWorth cfg E
    (s.node.channels.idFor C pay.ticket.client pay.ticket.workerPayout) pay look

/-- The sweep, at one channel it finds redeemable. -/
def settleDue (ch : Channel) (ticket : SpendTicket) (sig : Text) (look : Look) : Till τ :=
  s.settleIfWorth cfg E ch.channelId { jobId := 0, ticket, sig } look

end Till

/-- A look at the channel of a ticket shows it as it is, if it shows it. -/
structure Look.Fair (E : Pot.Deployment τ) (s : Pot.Chain τ) (ticket : SpendTicket) (look : Look) :
    Prop where
  shown : ∀ state, look.reply = .ok (some state) →
    (onChain s ticket).closeAt = 0 ∧ state = Chain.stateOf (onChain s ticket)
  later : s.now ≤ look.m.timestamp
  sender : look.m.sender ≠ E.self

namespace Till

inductive Act
  /-- A job goes on, and no ticket is banked. -/
  | job (e : Event)
  /-- `pay` is banked for job `i`. -/
  | capture (i : ℕ) (paid : Option JobPay) (pay : JobPay) (look : Look)
  | sweep (id : Text) (look : Look)
  | chain (a : Pot.Act)

/-- The node works on prepaid jobs, and settles a ticket as soon as that is due; the chain goes on by
itself. -/
inductive Step (s : Till τ) : Act → Till τ → Prop
  | job {e : Event} {n : Node} :
      Worker.Step cfg C R s.node e n → n.channels = s.node.channels →
      Step s (.job e) { s with node := n }
  | capture {i : ℕ} {task : Task} {bond : Bond} {amount : Micros} {paid : Option JobPay} {now : ℕ}
      {pay : JobPay} {chs : Channels} {look : Look} :
      s.node.tasks i = some task → task.phase = .invoiced bond amount →
      captureChunk cfg C s.node.channels task.submit bond amount paid now = .ok (pay, chs) →
      look.Fair E s.chain pay.ticket →
      Step s (.capture i paid pay look)
        ({ s with node := { s.node.put i none with channels := chs } }.settleIfConfigured cfg C E pay
          look)
  | sweep {id : Text} {ch : Channel} {ticket : SpendTicket} {sig : Text} {look : Look} :
      s.node.channels.opened id = some ch → 0 < ch.owed → ch.spend = some ticket →
      ch.spendSig = some sig → look.Fair E s.chain ticket →
      Step s (.sweep id look) (s.settleDue cfg E ch ticket sig look)
  | chain {a : Pot.Act} {c : Pot.Chain τ} :
      Pot.Step E s.chain a c → Step s (.chain a) { s with chain := c }

end Till

/-- As much as this is never left to be settled later on a channel with such a cap on a job. -/
def threshold (cap : ℕ) : ℕ := max 1 (min settleMinMicros (cap / 2))

/-- The contract has nothing against a settle of the ticket, the cap on a job apart. -/
structure Unopposed (E : Pot.Deployment τ) (s : Pot.Chain τ) (m : Pot.Msg) (ticket : SpendTicket)
    (sig : Bytes) : Prop where
  signed : Pot.recover E (Pot.ticketDigest E Pot.ticketTypehash (onPot ticket).client
    (onPot ticket).workerPayout ticket.cumulative ticket.deadline) sig =
      .ok (onChain s ticket).appKey
  locked : ticket.cumulative ≤ (onChain s ticket).reserved
  decodes : ((onPot ticket).settle sig).Decodes
  live : m.timestamp ≤ ticket.deadline
  room : (onPot ticket).DayRoom s.world.pot m.timestamp

/-- The newest ticket of every channel is within the cap on a job: a settle of it that the contract
has nothing else against goes through. -/
def Unstranded (E : Pot.Deployment τ) (s : Till τ) : Prop :=
  ∀ id ch ticket, s.node.channels.opened id = some ch → ch.spend = some ticket →
    (onPot ticket).delta (onChain s.chain ticket) ≤ (onChain s.chain ticket).maxPerJob ∧
    ∀ m sig, (onChain s.chain ticket).earned < ticket.cumulative → Unopposed E s.chain m ticket sig →
      ∃ world, Pot.exec E m ((onPot ticket).settle sig) s.chain.world = .ok world

/-- What the ledger has for the channel of a ticket, over what the chain has recognised. -/
def deferred (C : Crypto) (s : Till τ) (ticket : SpendTicket) : Micros :=
  s.node.channels.authorisedFor C ticket.client ticket.workerPayout -
    (onChain s.chain ticket).earned

/-- The ticket raises the ledger by no more than the cap on a job. -/
def RaisesWithinCap (C : Crypto) (s : Till τ) (pay : JobPay) : Prop :=
  pay.rise C s.node.channels ≤ (onChain s.chain pay.ticket).maxPerJob

/-- The ticket raises the ledger by no more than the cap on a job leaves over what may have been
deferred. -/
def Headroom (C : Crypto) (s : Till τ) (pay : JobPay) : Prop :=
  min (deferred C s pay.ticket) (threshold (onChain s.chain pay.ticket).maxPerJob - 1) +
    pay.rise C s.node.channels ≤ (onChain s.chain pay.ticket).maxPerJob

/-- Every ticket that is banked `fits`, and nothing else keeps one from being settled: the settle that
is due when it is banked is unopposed, and no channel is closed on a ticket that is not settled. -/
def Orderly (E : Pot.Deployment τ) (fits : Till τ → JobPay → Prop) (s : Till τ) : Till.Act → Prop
  | .capture _ _ pay look => fits s pay ∧
    (worthSettling look.now pay.ticket look.reply = true →
      (onChain s.chain pay.ticket).earned < pay.ticket.cumulative →
      ∃ sig, Hex.decode (trimStart0x pay.sig) = .ok sig ∧
        Unopposed E s.chain look.m pay.ticket sig)
  | .chain a => ∀ id ch ticket, s.node.channels.opened id = some ch → ch.spend = some ticket →
    ∀ m, a = .call m (.close (onPot ticket).client (onPot ticket).workerPayout) →
      (onChain s.chain ticket).timedOut m.timestamp ∨ (onChain s.chain ticket).expired m.timestamp →
      ticket.cumulative ≤ (onChain s.chain ticket).earned
  | _ => True

variable {cfg} {C} {R} {E}

section Thresholds

theorem threshold_mono {cap cap' : ℕ} (h : cap ≤ cap') : threshold cap ≤ threshold cap' := by
  unfold threshold
  omega

/-- What is left to be settled later is within the cap. -/
theorem le_cap_of_lt_threshold {cap delta : ℕ} (h : delta < threshold cap) : delta ≤ cap := by
  unfold threshold at h
  omega

/-- What the node finds not worth a transaction: nothing at all, or little on both scales. -/
theorem not_worthSettling {now : ℕ} {ticket : SpendTicket} {state : ChannelState}
    (h : worthSettling now ticket (.ok (some state)) = false) :
    ticket.cumulative - state.earned = 0 ∨ ticket.cumulative - state.earned < settleMinMicros ∧
      (state.maxPerJob = 0 ∨ ticket.cumulative - state.earned < state.maxPerJob / 2) := by
  unfold worthSettling at h
  split at h
  · cases h
  · dsimp only at h
    split at h
    · next hzero => exact .inl hzero
    · rw [decide_eq_false_iff_not, not_or, not_and_or] at h
      exact .inr ⟨not_le.mp h.1, h.2.imp Nat.eq_zero_of_not_pos not_le.mp⟩

/-- Little on both scales is below the threshold, though the node may read both the cap and what is
recognised as nothing. -/
theorem lt_threshold {delta left shown cap : ℕ} (hread : left ≤ delta) (hcap : left ≤ cap)
    (hshown : shown = cap ∨ shown = 0 ∧ 2 ^ 64 ≤ cap)
    (h : delta = 0 ∨ delta < settleMinMicros ∧ (shown = 0 ∨ delta < shown / 2)) :
    left < threshold cap := by
  unfold settleMinMicros at h
  unfold threshold settleMinMicros
  omega

theorem lt_threshold_of_not_worth {ch : Pot.Channel} {now : ℕ} {ticket : SpendTicket}
    (h : worthSettling now ticket (.ok (some (Chain.stateOf ch))) = false)
    (hcap : ticket.cumulative - ch.earned ≤ ch.maxPerJob) :
    ticket.cumulative - ch.earned < threshold ch.maxPerJob := by
  have hearned : Chain.clip ch.earned ≤ ch.earned := by
    unfold Chain.clip
    split <;> omega
  have hshown : Chain.clip ch.maxPerJob = ch.maxPerJob ∨
      Chain.clip ch.maxPerJob = 0 ∧ 2 ^ 64 ≤ ch.maxPerJob := by
    unfold Chain.clip
    split <;> omega
  exact lt_threshold (Nat.sub_le_sub_left hearned _) hcap hshown (not_worthSettling h)

end Thresholds

/-- The ticket's settlement may wait. -/
def Small (s : Pot.Chain τ) (ticket : SpendTicket) : Prop :=
  (onPot ticket).delta (onChain s ticket) < threshold (onChain s ticket).maxPerJob

section Chain

variable {s s' : Pot.Chain τ} {a : Pot.Act} {ticket : SpendTicket}

theorem small_of_le (h : ticket.cumulative ≤ (onChain s ticket).earned) : Small s ticket := by
  have hnone : (onPot ticket).delta (onChain s ticket) = 0 := Nat.sub_eq_zero_of_le h
  rw [Small, hnone]
  exact Nat.lt_of_lt_of_le Nat.one_pos (le_max_left _ _)

/-- Only a close can make a ticket that may wait one that may not: on a channel, what is recognised
grows, and the cap grows until the channel is closed. -/
theorem Small.step (h : Pot.Step E s a s') (hordered : s.world.pot.Ordered)
    (hclose : ∀ m, a = .call m (.close (onPot ticket).client (onPot ticket).workerPayout) →
      (onChain s ticket).timedOut m.timestamp ∨ (onChain s ticket).expired m.timestamp →
      ticket.cumulative ≤ (onChain s ticket).earned)
    (hs : Small s ticket) : Small s' ticket := by
  have hgrows := (h.grows hordered (onPot ticket).client (onPot ticket).workerPayout).1
  have hof (hcap : (onChain s ticket).maxPerJob ≤ (onChain s' ticket).maxPerJob) :
      Small s' ticket := by
    have hdelta : (onPot ticket).delta (onChain s' ticket) ≤ (onPot ticket).delta (onChain s ticket) :=
      Nat.sub_le_sub_left hgrows _
    exact (hdelta.trans_lt hs).trans_le (threshold_mono hcap)
  cases h with
  | @call _ m c w _ _ hexec =>
    rcases Pot.exec_channel hexec (onPot ticket).client (onPot ticket).workerPayout with
      hsame | htouch
    · exact hof (congrArg Pot.Channel.maxPerJob hsame).ge
    · generalize hch : w.pot.channels (onPot ticket).client (onPot ticket).workerPayout = ch at htouch
      have hafter : onChain ⟨m.timestamp, w⟩ ticket = ch := hch
      rw [hafter] at hof
      cases htouch with
      | reserve g => exact hof (Pot.le_raiseCap _ _)
      | commit g => exact hof le_rfl
      | settle g => exact hof le_rfl
      | collect _ => exact hof le_rfl
      | requestClose _ _ _ => exact hof le_rfl
      | close hdue _ =>
        refine small_of_le ?_
        rw [hafter]
        exact hclose m rfl hdue
  | revert _ _ _ => exact hs
  | token _ _ => exact hs

end Chain

section Settle

variable {s : Till τ} {id other : Text} {pay : JobPay} {look : Look} {sig : Bytes} {upto : Micros}

/-- What a settlement notes on the ledger leaves the tickets. -/
theorem Channels.settled_opened {chs : Channels} {ch : Channel}
    (h : (chs.settled id upto).opened other = some ch) : ∃ was, chs.opened other = some was ∧
      ch.spend = was.spend ∧ ch.authorised = was.authorised ∧ ch.client = was.client := by
  unfold Channels.settled at h
  split at h
  · exact ⟨ch, h, rfl, rfl, rfl⟩
  · next was hwas =>
    by_cases hsame : other = id
    · subst hsame
      rw [Channels.insert_opened_self] at h
      cases h
      exact ⟨was, hwas, rfl, rfl, rfl⟩
    · rw [Channels.insert_opened_of_ne _ hsame] at h
      exact ⟨ch, h, rfl, rfl, rfl⟩

/-- A settlement is at most one transaction, and changes the books of the node at most by what it
notes as settled. -/
theorem Till.settleTicket_effect (E : Pot.Deployment τ) (s : Till τ) (id : Text) (pay : JobPay)
    (look : Look) :
    ((s.settleTicket E id pay look).node = s.node ∨
      (s.settleTicket E id pay look).node = (s.settled id pay.ticket.cumulative).node) ∧
    ((s.settleTicket E id pay look).chain = s.chain ∨
      ∃ sig, (s.settleTicket E id pay look).chain =
        s.chain.after E look.m ((onPot pay.ticket).settle sig)) := by
  unfold Till.settleTicket
  split
  · exact ⟨.inl rfl, .inl rfl⟩
  · next sig _ =>
    split
    · exact ⟨.inl rfl, .inl rfl⟩
    · split
      · exact ⟨.inr rfl, .inl rfl⟩
      · split
        · next hexec =>
          refine ⟨.inr rfl, .inr ⟨sig, ?_⟩⟩
          rw [Pot.Chain.after, hexec]
        · next hexec =>
          refine ⟨.inl rfl, .inr ⟨sig, ?_⟩⟩
          rw [Pot.Chain.after, hexec]

/-- A transaction that the contract takes makes all of the ticket recognised. -/
theorem Till.settleTicket_earned (hdecoded : Hex.decode (trimStart0x pay.sig) = .ok sig)
    (hlength : sig.length = 65)
    (hlook : Chain.shows (fun ch => pay.ticket.cumulative ≤ ch.earned) look.reply = false)
    {world : Pot.World τ}
    (hexec : Pot.exec E look.m ((onPot pay.ticket).settle sig) s.chain.world = .ok world) :
    (onChain (s.settleTicket E id pay look).chain pay.ticket).earned = pay.ticket.cumulative := by
  have hchain : (s.settleTicket E id pay look).chain = ⟨look.m.timestamp, world⟩ := by
    simp only [Till.settleTicket, hdecoded]
    rw [if_neg (not_not_intro hlength), if_neg (by rw [hlook]; exact Bool.false_ne_true), hexec]
  simp only [Pot.exec_eq_ok, Pot.SpendTicket.settle, Pot.run, Pot.settle_eq_ok] at hexec
  obtain ⟨-, -, hpaid⟩ := hexec
  rw [hchain, onChain, Pot.SpendTicket.channel, (Pot.pay_ok hpaid).2.2.1]
  simp [Pot.Channel.settled, Pot.recognized, onPot]

theorem Channels.settled_spend {chs : Channels} {ch : Channel} (h : chs.opened other = some ch) :
    ∃ left, (chs.settled id upto).opened other = some left ∧ left.spend = ch.spend := by
  unfold Channels.settled
  split
  · exact ⟨ch, h, rfl⟩
  · next was hwas =>
    by_cases hsame : other = id
    · subst hsame
      obtain rfl : was = ch := Option.some.inj (hwas.symm.trans h)
      exact ⟨_, Channels.insert_opened_self _ _, rfl⟩
    · exact ⟨ch, (Channels.insert_opened_of_ne _ hsame).trans h, rfl⟩

/-- A ticket over the cap is turned down, and stays the newest. -/
theorem Till.settleTicket_over
    (hcap : (onChain s.chain pay.ticket).maxPerJob <
      (onPot pay.ticket).delta (onChain s.chain pay.ticket)) :
    (s.settleTicket E id pay look).chain.world = s.chain.world := by
  rcases (Till.settleTicket_effect E s id pay look).2 with
    hsame | ⟨sig, hafter⟩
  · rw [hsame]
  · rw [hafter, Pot.Chain.after]
    cases hexec : Pot.exec E look.m ((onPot pay.ticket).settle sig) s.chain.world with
    | error e => rfl
    | ok world =>
      simp only [Pot.exec_eq_ok, Pot.SpendTicket.settle, Pot.run, Pot.settle_eq_ok] at hexec
      obtain ⟨-, g, -⟩ := hexec
      exact absurd g.jobCap (not_le.mpr hcap)

/-- The ticket that was over the cap stays where it was. -/
theorem Till.settleIfWorth_over (cfg : Config) (E : Pot.Deployment τ) (id : Text) (look : Look)
    {ch : Channel}
    (hcap : (onChain s.chain pay.ticket).maxPerJob <
      (onPot pay.ticket).delta (onChain s.chain pay.ticket))
    (h : s.node.channels.opened other = some ch) :
    (s.settleIfWorth cfg E id pay look).chain.world = s.chain.world ∧
      ∃ left, (s.settleIfWorth cfg E id pay look).node.channels.opened other = some left ∧
        left.spend = ch.spend := by
  unfold Till.settleIfWorth
  split
  · refine ⟨Till.settleTicket_over hcap, ?_⟩
    rcases (Till.settleTicket_effect E s id pay look).1 with
      hsame | hnoted
    · rw [hsame]
      exact ⟨ch, h, rfl⟩
    · rw [hnoted]
      exact Channels.settled_spend h
  · exact ⟨rfl, ch, h, rfl⟩

/-- A settle within the cap that the contract has nothing else against goes through. -/
theorem Unopposed.settles {c : Pot.Chain τ} {m : Pot.Msg} {ticket : SpendTicket}
    (h : Unopposed E c m ticket sig) (hc : Pot.Solvent E c.world)
    (hrises : (onChain c ticket).earned < ticket.cumulative)
    (hcap : (onPot ticket).delta (onChain c ticket) ≤ (onChain c ticket).maxPerJob) :
    ∃ world, Pot.exec E m ((onPot ticket).settle sig) c.world = .ok world := by
  have hbacked : (onPot ticket).Backed E sig ((onPot ticket).channel c.world.pot) :=
    ⟨h.signed, hrises, h.locked, hcap⟩
  exact hbacked.settles hc h.decodes h.live h.room

end Settle

/-- An entry of the ledger that pot tickets made. -/
structure Channel.Holds (cfg : Config) (ch : Channel) (ticket : SpendTicket) : Prop where
  newest : ch.spend = some ticket
  authorised : ch.authorised = ticket.cumulative
  client : ch.client = ticket.client
  worker : ∀ payout ∈ payoutOf cfg.payoutAddress, eqIgnoreAsciiCase ticket.workerPayout payout = true
  readable : (∃ w, wordAddress ticket.client = .ok w) ∧ ∃ w, wordAddress ticket.workerPayout = .ok w

/-- Nothing is left unsettled that should not wait. -/
structure Till.Tended (cfg : Config) (E : Pot.Deployment τ) (s : Till τ) : Prop where
  solvent : Pot.Solvent E s.chain.world
  keyless : s.node.Chunks fun bond => payoutOf cfg.payoutAddress = none → bond.appKey = []
  entries : ∀ id ch, s.node.channels.opened id = some ch →
    ∃ ticket, ch.Holds cfg ticket ∧ Small s.chain ticket

section Tended

variable {s : Till τ} {chs : Channels} {submit : JobSubmit} {pay : JobPay} {amount : Micros}
  {appKey : Text} {now : ℕ}

/-- A chunk has a key only on a node that is paid somewhere. -/
theorem keyless_lasts :
    Bond.Lasts cfg C R fun bond => payoutOf cfg.payoutAddress = none → bond.appKey = [] where
  fresh _ _ _ := rfl
  stash := by
    intro bond submit state hpasses _ hnone
    cases hpasses with
    | locked hpayout _ =>
      rw [hnone] at hpayout
      cases hpayout
  topUp := by
    intro chs bond bond' pay now htop hkey hnone
    rw [(requestTopUp_some htop).2]
    exact hkey hnone

theorem holds_banked
    (h : bankPay cfg C s.node.channels submit pay amount appKey now = .ok chs) :
    (s.node.channels.banked C pay.ticket pay.sig now).Holds cfg pay.ticket := by
  obtain ⟨hnamed, ⟨d, -, g⟩, -⟩ := bankPay_eq_ok.mp h
  have hsigned := g.signed
  simp only [SpendTicket.check, bind_eq_ok] at hsigned
  obtain ⟨-, -, signer, hsigner, -⟩ := hsigned
  exact ⟨rfl, rfl, rfl, hnamed.sameWorker, named_of_recover hsigner⟩

/-- Two tickets under one entry, of a node that is paid somewhere, are for one channel of the
chain. -/
theorem onChain_congr {ch : Channel} {ticket newer : SpendTicket} (h : ch.Holds cfg ticket)
    (hnewer : (∃ w, wordAddress newer.client = .ok w) ∧ ∃ w, wordAddress newer.workerPayout = .ok w)
    {payout : Text} (hpayout : payoutOf cfg.payoutAddress = some payout)
    (hclient : eqIgnoreAsciiCase ch.client newer.client = true)
    (hworker : eqIgnoreAsciiCase newer.workerPayout payout = true) (c : Pot.Chain τ) :
    onChain c newer = onChain c ticket := by
  obtain ⟨⟨_, hreadClient⟩, _, hreadWorker⟩ := h.readable
  obtain ⟨⟨_, hnewClient⟩, _, hnewWorker⟩ := hnewer
  have hsame : eqIgnoreAsciiCase ticket.workerPayout newer.workerPayout = true := by
    have hold := h.worker payout hpayout
    rw [eqIgnoreAsciiCase_iff] at hold hworker ⊢
    exact hold.trans hworker.symm
  rw [h.client] at hclient
  have haddress := Chain.addressOf_congr hclient hreadClient hnewClient
  have hpaid := Chain.addressOf_congr hsame hreadWorker hnewWorker
  simp only [onChain, onPot, Pot.SpendTicket.channel, haddress, hpaid]

/-- What a ticket comes on top of is what had been deferred, and that is little. -/
theorem Till.Tended.deferred_lt (hs : s.Tended cfg E) {bond : Bond}
    (hbond : payoutOf cfg.payoutAddress = none → bond.appKey = [])
    (h : bankPay cfg C s.node.channels submit pay amount bond.appKey now = .ok chs) :
    deferred C s pay.ticket < threshold (onChain s.chain pay.ticket).maxPerJob := by
  have hnew := holds_banked h
  obtain ⟨hnamed, ⟨d, -, g⟩, -⟩ := bankPay_eq_ok.mp h
  cases hpayout : payoutOf cfg.payoutAddress with
  | none =>
    have hsigned := g.signed
    rw [hbond hpayout] at hsigned
    exact absurd hsigned SpendTicket.check_ne_ok_of_no_key
  | some payout =>
    unfold deferred Channels.authorisedFor Channels.authorisedAt
    cases hopened : s.node.channels.opened
        (s.node.channels.idFor C pay.ticket.client pay.ticket.workerPayout) with
    | none =>
      rw [Option.elim_none, Nat.zero_sub]
      exact Nat.lt_of_lt_of_le Nat.one_pos (le_max_left _ _)
    | some ch =>
      obtain ⟨ticket, hholds, hsmall⟩ := hs.entries _ ch hopened
      have hclient := Channels.checkOwner_eq_ok.mp g.owned ch hopened
      have hsame := onChain_congr hholds hnew.readable hpayout hclient
        (hnamed.sameWorker payout hpayout) s.chain
      rw [Option.elim_some, hsame, hholds.authorised]
      exact hsmall

end Tended

section Steps

variable {s s' : Till τ} {a : Till.Act} {id : Text} {pay : JobPay} {look : Look} {ticket : SpendTicket}

theorem small_settleTicket (hsolvent : Pot.Solvent E s.chain.world)
    (hlater : s.chain.now ≤ look.m.timestamp) (hsender : look.m.sender ≠ E.self)
    (h : Small s.chain ticket) : Small (s.settleTicket E id pay look).chain ticket := by
  rcases (Till.settleTicket_effect E s id pay look).2 with hsame | ⟨sig, hafter⟩
  · rw [hsame]
    exact h
  · rw [hafter]
    refine h.step (.after _ hlater hsender) hsolvent.ordered ?_
    intro m hclose
    cases hclose

/-- A settlement leaves a till tended if it leaves its tickets small. -/
theorem tended_settleTicket (hsolvent : Pot.Solvent E s.chain.world)
    (hkeyless : s.node.Chunks fun bond => payoutOf cfg.payoutAddress = none → bond.appKey = [])
    (hlater : s.chain.now ≤ look.m.timestamp) (hsender : look.m.sender ≠ E.self)
    (hentries : ∀ other ch, s.node.channels.opened other = some ch →
      ∃ ticket, ch.Holds cfg ticket ∧ Small (s.settleTicket E id pay look).chain ticket) :
    (s.settleTicket E id pay look).Tended cfg E := by
  obtain ⟨hnode, hchain⟩ := Till.settleTicket_effect E s id pay look
  refine ⟨?_, ?_, ?_⟩
  · rcases hchain with hsame | ⟨sig, hafter⟩
    · rw [hsame]
      exact hsolvent
    · rw [hafter]
      exact Pot.Step.solvent (.after _ hlater hsender) hsolvent
  · rcases hnode with hsame | hsame
    · rw [hsame]
      exact hkeyless
    · rw [hsame]
      exact ⟨hkeyless.held, hkeyless.invoiced⟩
  · intro other ch hopened
    rcases hnode with hsame | hsame
    · rw [hsame] at hopened
      exact hentries other ch hopened
    · rw [hsame] at hopened
      obtain ⟨was, hwas, hspend, hauthorised, hclient⟩ := Channels.settled_opened hopened
      obtain ⟨ticket, hholds, hsmall⟩ := hentries other was hwas
      exact ⟨ticket, ⟨hspend.trans hholds.newest, hauthorised.trans hholds.authorised,
        hclient.trans hholds.client, hholds.worker, hholds.readable⟩, hsmall⟩

theorem Till.Tended.settleTicket (hs : s.Tended cfg E) (hlater : s.chain.now ≤ look.m.timestamp)
    (hsender : look.m.sender ≠ E.self) : (s.settleTicket E id pay look).Tended cfg E := by
  refine tended_settleTicket hs.solvent hs.keyless hlater hsender ?_
  intro other ch hopened
  obtain ⟨ticket, hholds, hsmall⟩ := hs.entries other ch hopened
  exact ⟨ticket, hholds, small_settleTicket hs.solvent hlater hsender hsmall⟩

theorem Till.Tended.settleIfWorth (hs : s.Tended cfg E) (hlater : s.chain.now ≤ look.m.timestamp)
    (hsender : look.m.sender ≠ E.self) : (s.settleIfWorth cfg E id pay look).Tended cfg E := by
  unfold Till.settleIfWorth
  split
  · exact hs.settleTicket hlater hsender
  · exact hs

/-- With headroom, a ticket on top of what had been deferred is within the cap. -/
theorem delta_le_of_headroom (hdeferred : deferred C s pay.ticket <
      threshold (onChain s.chain pay.ticket).maxPerJob)
    (hrises : s.node.channels.authorisedFor C pay.ticket.client pay.ticket.workerPayout <
      pay.ticket.cumulative)
    (h : Headroom C s pay) :
    (onPot pay.ticket).delta (onChain s.chain pay.ticket) ≤
      (onChain s.chain pay.ticket).maxPerJob := by
  have hsum (already earned cumulative cap limit : ℕ) (hdeferred : already - earned < limit)
      (hrises : already < cumulative)
      (h : min (already - earned) (limit - 1) + (cumulative - already) ≤ cap) :
      cumulative - earned ≤ cap := by omega
  exact hsum _ _ _ _ _ hdeferred hrises h

/-- What the chain was fairly seen to have recognised, it has. -/
theorem Look.Fair.shows {c : Pot.Chain τ} (h : look.Fair E c ticket)
    (hrises : (onChain c ticket).earned < ticket.cumulative) :
    Chain.shows (fun ch => ticket.cumulative ≤ ch.earned) look.reply = false := by
  cases hreply : look.reply with
  | error e => rfl
  | ok state =>
    cases state with
    | none => rfl
    | some state =>
      obtain ⟨-, rfl⟩ := h.shown state hreply
      have hearned : Chain.clip (onChain c ticket).earned ≤ (onChain c ticket).earned := by
        unfold Chain.clip
        split
        · exact le_rfl
        · exact Nat.zero_le _
      exact decide_eq_false (not_le.mpr (hearned.trans_lt hrises))

/-- Where settlement is due and unopposed, the ticket is settled. -/
theorem small_of_unopposed (hsolvent : Pot.Solvent E s.chain.world)
    (hlook : look.Fair E s.chain pay.ticket)
    (hcap : (onPot pay.ticket).delta (onChain s.chain pay.ticket) ≤
      (onChain s.chain pay.ticket).maxPerJob)
    (h : (onChain s.chain pay.ticket).earned < pay.ticket.cumulative →
      ∃ sig, Hex.decode (trimStart0x pay.sig) = .ok sig ∧
        Unopposed E s.chain look.m pay.ticket sig) :
    Small (s.settleTicket E id pay look).chain pay.ticket := by
  by_cases hrises : (onChain s.chain pay.ticket).earned < pay.ticket.cumulative
  · obtain ⟨sig, hdecoded, hunopposed⟩ := h hrises
    obtain ⟨world, hexec⟩ := hunopposed.settles hsolvent hrises hcap
    refine small_of_le (Till.settleTicket_earned hdecoded (Pot.length_of_recover hunopposed.signed)
      (hlook.shows hrises) hexec).ge
  · exact small_settleTicket hsolvent hlook.later hlook.sender (small_of_le (not_lt.mp hrises))

/-- Where it is not due, the ticket may wait. -/
theorem small_of_not_worth {c : Pot.Chain τ} (hlook : look.Fair E c ticket)
    (hcap : (onPot ticket).delta (onChain c ticket) ≤ (onChain c ticket).maxPerJob)
    (h : worthSettling look.now ticket look.reply = false) : Small c ticket := by
  cases hreply : look.reply with
  | error e =>
    rw [hreply] at h
    unfold worthSettling at h
    split at h <;> cases h
  | ok state =>
    rw [hreply] at h
    cases state with
    | none =>
      unfold worthSettling at h
      split at h <;> cases h
    | some state =>
      obtain ⟨-, rfl⟩ := hlook.shown state hreply
      exact lt_threshold_of_not_worth h hcap

end Steps

section Runs

variable {s s' s₀ : Till τ} {a : Till.Act}

/-- A ticket that is banked with headroom is settled, or may wait; the others may wait as before. -/
theorem Till.Tended.capture (hcfg : canSettle cfg) (hs : s.Tended cfg E) {n : Node} {chs : Channels}
    {submit : JobSubmit} {bond : Bond} {pay : JobPay} {amount : Micros} {now : ℕ} {look : Look}
    (hbond : payoutOf cfg.payoutAddress = none → bond.appKey = [])
    (hbank : bankPay cfg C s.node.channels submit pay amount bond.appKey now = .ok chs)
    (hn : n.Chunks fun bond => payoutOf cfg.payoutAddress = none → bond.appKey = [])
    (hchannels : n.channels = chs) (hlook : look.Fair E s.chain pay.ticket)
    (hroom : Headroom C s pay)
    (hdue : worthSettling look.now pay.ticket look.reply = true →
      (onChain s.chain pay.ticket).earned < pay.ticket.cumulative →
      ∃ sig, Hex.decode (trimStart0x pay.sig) = .ok sig ∧
        Unopposed E s.chain look.m pay.ticket sig) :
    ({ s with node := n }.settleIfConfigured cfg C E pay look).Tended cfg E := by
  obtain ⟨-, ⟨d, -, g⟩, hchs⟩ := bankPay_eq_ok.mp hbank
  have hcap := delta_le_of_headroom (hs.deferred_lt hbond hbank) g.rises hroom
  have hentry {c : Pot.Chain τ} (hnew : Small c pay.ticket)
      (hold : ∀ ticket, Small s.chain ticket → Small c ticket) (other : Text) (ch : Channel)
      (hopened : n.channels.opened other = some ch) : ∃ ticket, ch.Holds cfg ticket ∧
        Small c ticket := by
    rw [hchannels, hchs] at hopened
    by_cases hid : other = s.node.channels.idFor C pay.ticket.client pay.ticket.workerPayout
    · subst hid
      rw [Channels.insert_opened_self] at hopened
      cases hopened
      exact ⟨pay.ticket, holds_banked hbank, hnew⟩
    · rw [Channels.insert_opened_of_ne _ hid] at hopened
      obtain ⟨ticket, hholds, hsmall⟩ := hs.entries other ch hopened
      exact ⟨ticket, hholds, hold ticket hsmall⟩
  unfold Till.settleIfConfigured Till.settleIfWorth
  split
  · next hworth =>
    refine tended_settleTicket hs.solvent hn hlook.later hlook.sender (hentry ?_ ?_)
    · exact small_of_unopposed (s := { s with node := n }) hs.solvent hlook hcap (hdue hworth.2)
    · intro ticket hsmall
      exact small_settleTicket (s := { s with node := n }) hs.solvent hlook.later hlook.sender hsmall
  · next hworth =>
    have hwait : worthSettling look.now pay.ticket look.reply = false :=
      Bool.eq_false_iff.mpr fun hdue => hworth ⟨hcfg, hdue⟩
    exact ⟨hs.solvent, hn, hentry (small_of_not_worth hlook hcap hwait) fun _ hsmall => hsmall⟩

theorem Till.Step.tended (hcfg : canSettle cfg) (h : Till.Step cfg C R E s a s')
    (ha : Orderly E (Headroom C) s a) (hs : s.Tended cfg E) : s'.Tended cfg E := by
  cases h with
  | job hstep hsame =>
    refine ⟨hs.solvent, hstep.chunks keyless_lasts hs.keyless, ?_⟩
    intro id ch hopened
    rw [hsame] at hopened
    exact hs.entries id ch hopened
  | @capture i task bond amount paid now pay chs look htask hphase hcapture hlook =>
    have hput : (s.node.put i none).Chunks
        fun bond => payoutOf cfg.payoutAddress = none → bond.appKey = [] := by
      refine hs.keyless.put ?_
      intro t b held ht
      cases ht
    have hbond := hs.keyless.invoiced htask hphase
    obtain ⟨hroom, hdue⟩ := ha
    rcases captureChunk_ok hcapture with ⟨rfl, hbank⟩ | ⟨-, hbank⟩
    · exact hs.capture hcfg hbond hbank ⟨hput.held, hput.invoiced⟩ rfl hlook hroom hdue
    · exact hs.capture hcfg hbond hbank ⟨hput.held, hput.invoiced⟩ rfl hlook hroom hdue
  | sweep _ _ _ _ hlook => exact hs.settleIfWorth hlook.later hlook.sender
  | chain hstep =>
    refine ⟨hstep.solvent hs.solvent, hs.keyless, ?_⟩
    intro id ch hopened
    obtain ⟨ticket, hholds, hsmall⟩ := hs.entries id ch hopened
    exact ⟨ticket, hholds, hsmall.step hstep hs.solvent.ordered
      (ha id ch ticket hopened hholds.newest)⟩

/-- What is tended is not stranded. -/
theorem Till.Tended.unstranded (hs : s.Tended cfg E) : Unstranded E s := by
  intro id ch ticket hopened hspend
  obtain ⟨newest, hholds, hsmall⟩ := hs.entries id ch hopened
  obtain rfl : newest = ticket := Option.some.inj (hholds.newest.symm.trans hspend)
  have hcap := le_cap_of_lt_threshold hsmall
  refine ⟨hcap, ?_⟩
  intro m sig hrises hunopposed
  exact hunopposed.settles hs.solvent hrises hcap

/-- A ticket that is banked over the cap is stranded, whether its settlement is tried or not. -/
theorem not_unstranded_of_over (cfg : Config) (C : Crypto) (E : Pot.Deployment τ) (look : Look)
    {other : Text} {ch : Channel} {pay : JobPay}
    (hopened : s.node.channels.opened other = some ch) (hspend : ch.spend = some pay.ticket)
    (hcap : (onChain s.chain pay.ticket).maxPerJob <
      (onPot pay.ticket).delta (onChain s.chain pay.ticket)) :
    ¬ Unstranded E (s.settleIfConfigured cfg C E pay look) := by
  intro h
  obtain ⟨hworld, left, hleft, hnewest⟩ := Till.settleIfWorth_over cfg E
    (s.node.channels.idFor C pay.ticket.client pay.ticket.workerPayout) look hcap hopened
  have hsame : onChain (s.settleIfConfigured cfg C E pay look).chain pay.ticket =
      onChain s.chain pay.ticket :=
    congrArg (fun world : Pot.World τ => (onPot pay.ticket).channel world.pot) hworld
  have hwithin := (h other left pay.ticket hleft (hnewest.trans hspend)).1
  rw [hsame] at hwithin
  exact absurd hwithin (not_le.mpr hcap)

/-- A node that has banked nothing yet, on a chain that has run since its pot was deployed. -/
structure Till.Fresh (E : Pot.Deployment τ) (s : Till τ) : Prop where
  deployed : ∃ genesis : Pot.Chain τ, genesis.Genesis ∧ Runs (Pot.Step E) genesis s.chain
  resting : (∀ i, s.node.tasks i = none) ∧ ∀ jobId, s.node.bonds jobId = none
  empty : ∀ id, s.node.channels.opened id = none

theorem Till.Fresh.tended (h : s.Fresh E) : s.Tended cfg E := by
  obtain ⟨genesis, hgenesis, hrun⟩ := h.deployed
  obtain ⟨htasks, hbonds⟩ := h.resting
  refine ⟨hgenesis.runs_solvent hrun, ⟨?_, ?_⟩, ?_⟩
  · intro jobId bond hbond
    rw [hbonds] at hbond
    cases hbond
  · intro i task bond amount htask
    rw [htasks] at htask
    cases htask
  · intro id ch hopened
    rw [h.empty] at hopened
    cases hopened

/-- No run on which every ticket raises the ledger by at most the cap on a job, and nothing else goes
wrong, strands a ticket. -/
def NeverStrands (cfg : Config) (C : Crypto) (R : Rpc κ) (E : Pot.Deployment τ) (s₀ : Till τ) : Prop :=
  ∀ s, Runs (restrict (Till.Step cfg C R E) (Orderly E (RaisesWithinCap C))) s₀ s → Unstranded E s

/-- Deferred settlement strands no ticket as long as the tickets leave headroom for what it defers. -/
theorem unstranded_of_headroom (hcfg : canSettle cfg) (h₀ : s₀.Fresh E)
    (h : Runs (restrict (Till.Step cfg C R E) (Orderly E (Headroom C))) s₀ s) : Unstranded E s := by
  have htended : s.Tended cfg E := by
    refine h.invariant (P := fun s => s.Tended cfg E) ?_ h₀.tended
    intro s a s' hstep hs
    exact hstep.2.tended hcfg hstep.1 hs
  exact htended.unstranded

end Runs

/-- What a node reads is a fair look at the chain. -/
theorem Look.fair_of_read (view : κ → Pot.Chain τ) {k k' : κ} {look : Look} {ticket : SpendTicket}
    (hpot : OnPot cfg C R E view) (htyped : (view k').world.pot.Typed)
    (hreadable : (∃ w, wordAddress ticket.client = .ok w) ∧ ∃ w, wordAddress ticket.workerPayout = .ok w)
    (h : readChannel cfg C R ticket.client ticket.workerPayout k = (look.reply, k'))
    (hlater : (view k').now ≤ look.m.timestamp) (hsender : look.m.sender ≠ E.self) :
    look.Fair E (view k') ticket where
  shown := by
    intro state hstate
    rw [hstate] at h
    exact readChannel_shows hpot.crypto hpot.shows htyped hreadable.1 hreadable.2
      (eqIgnoreAsciiCase_refl _) (eqIgnoreAsciiCase_refl _) h
  later := hlater
  sender := hsender

/-- What a node does for its jobs does not depend on the key it sends transactions with. -/
theorem Step.of_key {n n' : Node} {e : Event} (key : Text) (h : Step cfg C R n e n') :
    Step { cfg with payments := { cfg.payments with key } } C R n e n' := by
  cases h with
  | payment hfree hpayment => exact .payment hfree hpayment
  | bond htask hphase htake hclamp => exact .bond htask hphase htake hclamp
  | refuseChunk htask hphase htake => exact .refuseChunk htask hphase htake
  | refusePrompt htask hphase htake hclamp => exact .refusePrompt htask hphase htake hclamp
  | lock htask hphase hpasses =>
    refine .lock htask hphase ?_
    cases hpasses with
    | unpaid hnone => exact .unpaid hnone
    | locked hpayout hcheck => exact .locked hpayout hcheck
  | refuseLock htask hphase => exact .refuseLock htask hphase
  | fail htask hphase => exact .fail htask hphase
  | topUp htask hphase hjob hbond htop => exact .topUp htask hphase hjob hbond htop
  | invoice htask hphase hholdback hpos hbond => exact .invoice htask hphase hholdback hpos hbond
  | unbonded htask hphase hholdback hpos hbond => exact .unbonded htask hphase hholdback hpos hbond
  | free htask hphase => exact .free htask hphase
  | capture htask hphase hcapture => exact .capture htask hphase hcapture
  | unbanked htask hphase hcapture => exact .unbanked htask hphase hcapture

section Local

open LocalNode

/-- The local node, with a key to settle with. -/
def collecting : Config := { config with payments := { config.payments with key := ofString "0x01" } }

/-- The local node before its first job, next to a lock of a dollar. -/
def counter : Till MockUsdc.Token where
  node := resting
  chain := lockedUp 1_000_000

theorem counter_fresh : counter.Fresh LocalChain.deployment where
  deployed := ⟨LocalChain.start, LocalChain.start_genesis, lockedUp_runs⟩
  resting := ⟨fun _ => rfl, fun _ => rfl⟩
  empty _ := rfl

/-- The look the node takes at the lock. -/
def glance : Look where
  now := 1_000_000
  reply := .ok (some shown)
  m := ⟨LocalChain.worker, 1_000_000⟩

variable {fits : Till MockUsdc.Token → JobPay → Prop} {s : Till MockUsdc.Token} {n : Node} {e : Event}
  {i : ℕ} {jobId : Uuid} {cumulative total amount : ℕ}

theorem glance_fair (jobId : Uuid) :
    glance.Fair LocalChain.deployment (lockedUp 1_000_000)
      (LocalNode.pay jobId LocalChain.worker total 1_003_600).ticket := by
  have htyped := LocalChain.start_genesis.runs_typed lockedUp_runs
  have hread : readChannel config LocalChain.crypto rpc
      (LocalNode.pay jobId LocalChain.worker total 1_003_600).ticket.client
      (LocalNode.pay jobId LocalChain.worker total 1_003_600).ticket.workerPayout
      (lockedUp 1_000_000) = (glance.reply, lockedUp 1_000_000) :=
    readChannel_local (htyped.channels _ _) (by decide)
  have hlater : (lockedUp 1_000_000).now ≤ glance.m.timestamp := by
    unfold lockedUp LocalChain.reserved glance
    exact le_rfl
  have hsender : glance.m.sender ≠ LocalChain.deployment.self := by
    unfold glance
    decide
  exact Look.fair_of_read id linked htyped (named_of_recover (recover_pay jobId)) hread
    hlater hsender

/-- A job of the local node goes on. -/
theorem job_step (fits : Till MockUsdc.Token → JobPay → Prop) (h : Step config LocalChain.crypto rpc s.node e n)
    (hchannels : n.channels = s.node.channels) :
    restrict (Till.Step collecting LocalChain.crypto rpc LocalChain.deployment)
      (Orderly LocalChain.deployment fits) s (.job e) { s with node := n } :=
  ⟨trivial, .job (h.of_key _) hchannels⟩

/-- The chat once its bill is out. -/
def presented (jobId : Uuid) (cumulative amount : ℕ) : Task :=
  { served jobId cumulative with
    phase := .invoiced (chunk jobId cumulative) (billed (chunk jobId cumulative) amount) }

/-- A chat that comes to a node with an empty ledger is let through, and billed. -/
theorem runs_billed (fits : Till MockUsdc.Token → JobPay → Prop) (i : ℕ) (jobId : Uuid)
    (hledger : s.node.channels = ledger) (hfree : s.node.tasks i = none)
    (hpos : 0 < cumulative) (hcovers : cumulative ≤ 1_000_000) (hamount : 0 < amount) :
    ∃ n, Runs (restrict (Till.Step collecting LocalChain.crypto rpc LocalChain.deployment)
        (Orderly LocalChain.deployment fits)) s { s with node := n } ∧
      n.channels = ledger ∧ n.tasks = (s.node.put i (some (presented jobId cumulative amount))).tasks := by
  have hpaid := Runs.single (job_step fits (@step_payment _ _ jobId cumulative hfree) rfl)
  have hbonded := hpaid.tail (job_step fits (step_bond hledger hpos (s.node.put_tasks_self i _)) rfl)
  have hlocked := hbonded.tail (job_step fits (step_lock hcovers (Node.put_tasks_self _ i _)
    (Node.hold_bonds_self _ jobId _)) rfl)
  have hinvoiced := hlocked.tail (job_step fits (step_invoice hamount (Node.put_tasks_self _ i _)
    (Node.hold_bonds_self _ jobId _)) rfl)
  refine ⟨_, hinvoiced, hledger, ?_⟩
  simp [Node.put, Node.hold, presented]

/-- A ledger with a ticket of the client's on top. -/
def bankedOn (chs : Channels) (jobId : Uuid) (total : ℕ) : Channels :=
  chs.insert (chs.idFor LocalChain.crypto (addressText LocalChain.client)
      (addressText LocalChain.worker))
    (chs.banked LocalChain.crypto (ticket LocalChain.worker total 1_003_600)
      (LocalNode.pay jobId LocalChain.worker total 1_003_600).sig 1_000_000)

theorem bankedOn_authorised (chs : Channels) (jobId : Uuid) (total : ℕ) :
    (bankedOn chs jobId total).authorisedFor LocalChain.crypto (addressText LocalChain.client)
      (addressText LocalChain.worker) = total :=
  Channels.authorisedAt_insert_self _ _

theorem bankedOn_newest (chs : Channels) (jobId : Uuid) (total : ℕ) :
    ∃ ch, (bankedOn chs jobId total).opened (chs.idFor LocalChain.crypto
        (addressText LocalChain.client) (addressText LocalChain.worker)) = some ch ∧
      ch.spend = some (LocalNode.pay jobId LocalChain.worker total 1_003_600).ticket :=
  ⟨_, Channels.insert_opened_self _ _, rfl⟩

theorem bank_local {chs : Channels}
    (hroom : Room LocalChain.crypto chs
      (LocalNode.pay jobId LocalChain.worker total 1_003_600).ticket amount 1_000_000) :
    bankPay collecting LocalChain.crypto chs (served jobId cumulative).submit
      (LocalNode.pay jobId LocalChain.worker total 1_003_600) amount (chunk jobId cumulative).appKey
      1_000_000 = .ok (bankedOn chs jobId total) := by
  have hnamed : Named config (chat jobId cumulative)
      (LocalNode.pay jobId LocalChain.worker total 1_003_600) := named_chat
  have hsigned : Vouched config LocalChain.crypto (chat jobId cumulative)
      (LocalNode.pay jobId LocalChain.worker total 1_003_600) (chunk jobId cumulative).appKey :=
    vouched_chat
  have hvouched : Vouched config LocalChain.crypto (served jobId cumulative).submit
      (LocalNode.pay jobId LocalChain.worker total 1_003_600) (chunk jobId cumulative).appKey :=
    ⟨⟨hnamed.sameJob, hnamed.sameWorker, hnamed.samePayer⟩,
      hsigned.signed⟩
  obtain ⟨chs', hbank⟩ := bankPay_of_room hvouched hroom
  obtain ⟨-, -, rfl⟩ := bankPay_eq_ok.mp hbank
  exact hbank

/-- The chunk of the first chat is just not worth a transaction. -/
theorem room_first : Room LocalChain.crypto ledger
    (LocalNode.pay 1 LocalChain.worker 49_999 1_003_600).ticket (chunk 1 49_999).delta 1_000_000 where
  live := by decide
  owned := rfl
  covers := by
    rw [chunk_delta (by decide)]
    exact (by decide : satAdd 64 0 49_999 ≤ 49_999)
  rises := (by decide : 0 < 49_999)

theorem room_second : Room LocalChain.crypto (bankedOn ledger 1 49_999)
    (LocalNode.pay 2 LocalChain.worker 549_999 1_003_600).ticket 500_000 1_000_000 where
  live := by decide
  owned := by
    rw [Channels.checkOwner_eq_ok]
    intro ch hopened
    obtain rfl := Option.some.inj (hopened.symm.trans (Channels.insert_opened_self _ _))
    exact eqIgnoreAsciiCase_refl _
  covers := by
    have halready := bankedOn_authorised ledger 1 49_999
    exact (congrArg (satAdd 64 · 500_000) halready).trans_le (by decide)
  rises := by
    have halready := bankedOn_authorised ledger 1 49_999
    exact halready.trans_lt (by decide)

/-- The node after the first chat: 49,999 micros are owed to it. -/
def deferring (n : Node) : Till MockUsdc.Token where
  node := { n.put 0 none with channels := bankedOn ledger 1 49_999 }
  chain := lockedUp 1_000_000

theorem not_worth_first : worthSettling glance.now
    (LocalNode.pay 1 LocalChain.worker 49_999 1_003_600).ticket glance.reply = false := by
  decide

theorem step_first (hledger : n.channels = ledger)
    (htask : n.tasks 0 = some (presented 1 49_999 1))
    (hfits : fits ⟨n, lockedUp 1_000_000⟩ (LocalNode.pay 1 LocalChain.worker 49_999 1_003_600)) :
    restrict (Till.Step collecting LocalChain.crypto rpc LocalChain.deployment)
      (Orderly LocalChain.deployment fits) ⟨n, lockedUp 1_000_000⟩
      (.capture 0 none (LocalNode.pay 1 LocalChain.worker 49_999 1_003_600) glance) (deferring n) := by
  refine ⟨⟨hfits, fun hdue => ?_⟩, ?_⟩
  · rw [not_worth_first] at hdue
    cases hdue
  · have hcapture : captureChunk collecting LocalChain.crypto n.channels (served 1 49_999).submit
        (chunk 1 49_999) (billed (chunk 1 49_999) 1) none 1_000_000 =
        .ok (LocalNode.pay 1 LocalChain.worker 49_999 1_003_600, bankedOn ledger 1 49_999) := by
      rw [hledger, captureChunk_silent]
      exact (map_eq_ok _ _ _).mpr ⟨_, bank_local room_first, rfl⟩
    have hstep := Till.Step.capture (R := rpc) (E := LocalChain.deployment)
      (s := ⟨n, lockedUp 1_000_000⟩) htask rfl hcapture (glance_fair 1)
    have hwaits : Till.settleIfConfigured collecting LocalChain.crypto LocalChain.deployment
        (deferring n) (LocalNode.pay 1 LocalChain.worker 49_999 1_003_600) glance = deferring n := by
      unfold Till.settleIfConfigured Till.settleIfWorth
      rw [not_worth_first]
      exact if_neg fun hdue => Bool.false_ne_true hdue.2
    rwa [← hwaits]

/-- The lock has a cap of half a dollar on a job. -/
theorem lockedUp_cap : (lockOf (lockedUp 1_000_000)).maxPerJob = 500_000 := by decide

theorem lockedUp_earned : (lockOf (lockedUp 1_000_000)).earned = 0 := by decide

/-- Nothing is deferred when the first ticket is banked. -/
theorem headroom_first (hledger : n.channels = ledger) : Headroom LocalChain.crypto
    ⟨n, lockedUp 1_000_000⟩ (LocalNode.pay 1 LocalChain.worker 49_999 1_003_600) := by
  have hnone : deferred LocalChain.crypto ⟨n, lockedUp 1_000_000⟩
      (LocalNode.pay 1 LocalChain.worker 49_999 1_003_600).ticket = 0 := by
    rw [deferred, hledger]
    exact Nat.zero_sub _
  have hrise : (LocalNode.pay 1 LocalChain.worker 49_999 1_003_600).rise LocalChain.crypto
      n.channels = 49_999 := by
    rw [hledger]
    rfl
  rw [Headroom, hnone, hrise, lockOf_eq, lockedUp_cap]
  decide

/-- One chat below the threshold leaves a ticket that is not stranded. -/
theorem unstranded_deferred : ∃ n, Runs (Till.Step collecting LocalChain.crypto rpc
      LocalChain.deployment) counter (deferring n) ∧ Unstranded LocalChain.deployment (deferring n) := by
  have hcollects : canSettle collecting := by decide
  obtain ⟨n, hrun, hledger, htasks⟩ := runs_billed (s := counter)
    (Headroom LocalChain.crypto) 0 1 rfl rfl (by decide : 0 < 49_999) (by decide) Nat.one_pos
  have htask : n.tasks 0 = some (presented 1 49_999 1) := by
    rw [htasks, Node.put_tasks_self]
  have hdeferred := hrun.tail (step_first hledger htask (headroom_first hledger))
  exact ⟨n, hdeferred.of_restrict, unstranded_of_headroom hcollects counter_fresh hdeferred⟩

/-- The second ticket: a whole cap on top of what is deferred. -/
theorem raise_second (hchannels : s.node.channels = bankedOn ledger 1 49_999)
    (hchain : s.chain = lockedUp 1_000_000) :
    RaisesWithinCap LocalChain.crypto s (LocalNode.pay 2 LocalChain.worker 549_999 1_003_600) := by
  have hrise : (LocalNode.pay 2 LocalChain.worker 549_999 1_003_600).rise LocalChain.crypto
      s.node.channels = 500_000 := by
    simp only [hchannels, JobPay.rise, LocalNode.pay, ticket, bankedOn_authorised]
  rw [RaisesWithinCap, hrise, hchain, lockOf_eq, lockedUp_cap]

/-- The contract has nothing against it but the cap. -/
theorem unopposed_second : ∃ sig, Hex.decode (trimStart0x
      (LocalNode.pay 2 LocalChain.worker 549_999 1_003_600).sig) = .ok sig ∧
    Unopposed LocalChain.deployment (lockedUp 1_000_000) glance.m
      (LocalNode.pay 2 LocalChain.worker 549_999 1_003_600).ticket sig := by
  have honPot : onPot (LocalNode.pay 2 LocalChain.worker 549_999 1_003_600).ticket =
      ⟨LocalChain.client, LocalChain.worker, 549_999, 1_003_600⟩ := by
    simp [onPot, LocalNode.pay, ticket, addressOf_addressText]
  have hkey : (lockOf (lockedUp 1_000_000)).appKey = LocalChain.app := by decide
  refine ⟨LocalChain.sign LocalChain.app (Pot.ticketDigest LocalChain.deployment
    Pot.ticketTypehash LocalChain.client LocalChain.worker 549_999 1_003_600), ?_, ?_, ?_, ?_, ?_, ?_⟩
  · rw [LocalNode.pay, sigText, Chain.trimStart0x_ofString_encode, Hex.decode_encode]
  · rw [lockOf_eq, hkey, honPot]
    exact LocalChain.recover_sign rfl LocalChain.app_ne_zero _
  · rw [lockOf_eq]
    decide
  · rw [honPot]
    exact ⟨by decide, by decide, (LocalChain.length_sign _ _).le⟩
  · decide
  · rw [honPot]
    exact ⟨by decide, by decide, by decide⟩

theorem raise_first (hledger : n.channels = ledger) : RaisesWithinCap LocalChain.crypto
    ⟨n, lockedUp 1_000_000⟩ (LocalNode.pay 1 LocalChain.worker 49_999 1_003_600) := by
  have hheadroom := headroom_first hledger
  exact le_trans (Nat.le_add_left _ _) hheadroom

/-- The second chat, billed half a dollar, is banked on top of the first. -/
theorem step_second (hchannels : s.node.channels = bankedOn ledger 1 49_999)
    (hchain : s.chain = lockedUp 1_000_000) (htask : s.node.tasks 1 = some (presented 2 549_999 500_000)) :
    restrict (Till.Step collecting LocalChain.crypto rpc LocalChain.deployment)
      (Orderly LocalChain.deployment (RaisesWithinCap LocalChain.crypto)) s
      (.capture 1 (some (LocalNode.pay 2 LocalChain.worker 549_999 1_003_600))
        (LocalNode.pay 2 LocalChain.worker 549_999 1_003_600) glance)
      ({ s with
          node := { s.node.put 1 none with
            channels := bankedOn (bankedOn ledger 1 49_999) 2 549_999 } }.settleIfConfigured collecting
        LocalChain.crypto LocalChain.deployment (LocalNode.pay 2 LocalChain.worker 549_999 1_003_600)
        glance) := by
  have hbilled : billed (chunk 2 549_999) 500_000 = 500_000 := by
    rw [billed, chunk_delta (by decide)]
    decide
  have hcapture : captureChunk collecting LocalChain.crypto s.node.channels (served 2 549_999).submit
      (chunk 2 549_999) (billed (chunk 2 549_999) 500_000)
      (some (LocalNode.pay 2 LocalChain.worker 549_999 1_003_600)) 1_000_000 =
      .ok (LocalNode.pay 2 LocalChain.worker 549_999 1_003_600,
        bankedOn (bankedOn ledger 1 49_999) 2 549_999) := by
    rw [hchannels, hbilled]
    exact captureChunk_of_paid (bank_local room_second)
  refine ⟨⟨raise_second hchannels hchain, fun _ _ => ?_⟩, ?_⟩
  · rw [hchain]
    exact unopposed_second
  · exact .capture htask rfl hcapture (hchain ▸ glance_fair 2)

/-- A chat just not worth a transaction, and then one of a whole cap: the ticket for both is over the
cap. -/
theorem deferral_strands :
    ¬ NeverStrands collecting LocalChain.crypto rpc LocalChain.deployment counter := by
  intro hnever
  obtain ⟨n, hfirst, hledger, htasks⟩ := runs_billed (s := counter)
    (RaisesWithinCap LocalChain.crypto) 0 1 rfl rfl (by decide : 0 < 49_999) (by decide) Nat.one_pos
  have hfree : n.tasks 1 = none := by
    rw [htasks, Node.put_tasks_of_ne _ Nat.one_ne_zero]
    rfl
  obtain ⟨n', hsecond, hledger', htasks'⟩ := runs_billed (s := { counter with node := n })
    (RaisesWithinCap LocalChain.crypto) 1 2 hledger hfree (by decide : 0 < 549_999) (by decide)
    (by decide : 0 < 500_000)
  have hzero : n'.tasks 0 = some (presented 1 49_999 1) := by
    rw [htasks', Node.put_tasks_of_ne _ Nat.zero_ne_one, htasks, Node.put_tasks_self]
  have hone : (n'.put 0 none).tasks 1 = some (presented 2 549_999 500_000) := by
    rw [Node.put_tasks_of_ne _ Nat.one_ne_zero, htasks', Node.put_tasks_self]
  have hdeferred := (hfirst.trans hsecond).tail (step_first hledger' hzero (raise_first hledger'))
  have hend := hdeferred.tail (step_second (s := deferring n') rfl rfl hone)
  have hover : (onChain (deferring n').chain
        (LocalNode.pay 2 LocalChain.worker 549_999 1_003_600).ticket).maxPerJob <
      (onPot (LocalNode.pay 2 LocalChain.worker 549_999 1_003_600).ticket).delta
        (onChain (deferring n').chain
          (LocalNode.pay 2 LocalChain.worker 549_999 1_003_600).ticket) := by
    rw [deferring, lockOf_eq, lockedUp_cap, Pot.SpendTicket.delta, lockedUp_earned]
    decide
  have hnewest := bankedOn_newest (bankedOn ledger 1 49_999) 2 549_999
  obtain ⟨ch, hopened, hspend⟩ := hnewest
  have hstranded := not_unstranded_of_over collecting LocalChain.crypto LocalChain.deployment glance
    (s := { deferring n' with
      node := { (deferring n').node.put 1 none with
        channels := bankedOn (bankedOn ledger 1 49_999) 2 549_999 } }) hopened hspend hover
  exact hstranded (hnever _ hend)

end Local

end Rootmode.Worker
