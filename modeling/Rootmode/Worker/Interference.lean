import Rootmode.Worker.LocalJobs

namespace Rootmode.Worker

open Lib Lib.Checked Lib.Text Lib.Transition Payments

variable {κ : Type} {cfg : Config} {C : Crypto} {R : Rpc κ}

/-- The ledger entry a ticket is banked under. -/
def Channels.entryOf (C : Crypto) (chs : Channels) (t : SpendTicket) : Text :=
  chs.idFor C t.client t.workerPayout

/-- The chunks and bills a ledger takes from `client` for work paid to `payout`, another still takes,
for the same amounts. -/
structure TreatsAlike (cfg : Config) (C : Crypto) (client payout : Text) (chs chs' : Channels) :
    Prop where
  bonds : ∀ {bonds held : Bonds} {submit : JobSubmit} {pay : JobPay} {delta already : Micros},
    submit.bond = some pay → pay.ticket.client = client → pay.ticket.workerPayout = payout →
    takeBond cfg C chs bonds submit = .ok (delta, already, held) →
    takeBond cfg C chs' bonds submit = .ok (delta, already, held)
  spends : ∀ {ticket : SpendTicket} {sig appKey : Text} {d : Domain} {expected earned : Micros}
    {now : ℤ} {after : Channels}, ticket.client = client → ticket.workerPayout = payout →
    chs.acceptSpend C ticket sig d appKey expected now = .ok (earned, after) →
    ∃ after', chs'.acceptSpend C ticket sig d appKey expected now = .ok (earned, after')

/-- The ticket is signed by one of `keys`. -/
def JobPay.SignedBy (C : Crypto) (d : Domain) (keys : Text → Prop) (pay : JobPay) : Prop :=
  ∃ signer key, pay.ticket.recover C d pay.sig = .ok signer ∧ keys key ∧
    eqIgnoreAsciiCase signer key = true

/-- The message of the event carries a signature by one of `keys`. -/
def Event.SignedBy (C : Crypto) (d : Domain) (keys : Text → Prop) : Event → Prop
  | .payment _ submit _ =>
    (∃ pay ∈ submit.bond, pay.SignedBy C d keys) ∨
    ∃ auth ∈ submit.spend, ∃ signer key, auth.recover C d = .ok signer ∧ keys key ∧
      eqIgnoreAsciiCase signer key = true
  | .topUp _ pay _ => pay.SignedBy C d keys
  | .capture _ paid _ => ∃ pay ∈ paid, pay.SignedBy C d keys
  | _ => False

/-- No message carries a signature by a key of `client`'s, where `keys` are its wallet and all the app
keys the chain shows for it. -/
structure Foreign (cfg : Config) (C : Crypto) (client : Text) (keys : Text → Prop) (n : Node)
    (e : Event) : Prop where
  unsigned : ∀ d ∈ cfg.payments.domain, ¬ e.SignedBy C d keys
  shown : ∀ i state task payer, e = .lock i (some state) → n.tasks i = some task →
    task.submit.payer = some payer → eqIgnoreAsciiCase client payer = true → keys state.appKey

/-- Whatever others send, the ledger treats `client` as before. -/
def NonInterference (cfg : Config) (C : Crypto) (R : Rpc κ) (client payout : Text)
    (keys : Text → Prop) (n₀ : Node) : Prop :=
  ∀ n, Runs (restrict (Step cfg C R) (Foreign cfg C client keys)) n₀ n →
    TreatsAlike cfg C client payout n₀.channels n.channels

/-- Another payer's ticket would be banked under the entry `id` of `client`: their hashes collide. -/
def Collides (C : Crypto) (chs : Channels) (client id : Text) (pay : JobPay) : Prop :=
  chs.entryOf C pay.ticket = id ∧ eqIgnoreAsciiCase pay.ticket.client client = false

/-- A legacy authorisation names the entry `id` only once it is `client`'s, and no ticket collides
with it. -/
def LeavesEntry (C : Crypto) (client id : Text) (n : Node) : Event → Prop
  | .payment _ submit _ =>
    (∀ pay ∈ submit.bond, ¬ Collides C n.channels client id pay) ∧
    ∀ auth ∈ submit.spend, auth.channelId = id →
      ∃ ch, n.channels.opened id = some ch ∧ eqIgnoreAsciiCase ch.client client = true
  | .topUp _ pay _ => ¬ Collides C n.channels client id pay
  | .capture _ paid _ => ∀ pay ∈ paid, ¬ Collides C n.channels client id pay
  | _ => True

section Treats

variable {chs chs' : Channels} {client payout : Text}

theorem authorisedFor_congr (hcontract : chs'.contract = chs.contract)
    (h : chs'.opened (chs.idFor C client payout) = chs.opened (chs.idFor C client payout)) :
    chs'.authorisedFor C client payout = chs.authorisedFor C client payout := by
  have hid : chs'.idFor C client payout = chs.idFor C client payout := by
    rw [Channels.idFor, hcontract, Channels.idFor]
  rw [Channels.authorisedFor, hid]
  exact Channels.authorisedAt_congr h

/-- A ledger treats a client by its entry alone. -/
theorem treatsAlike_of_opened (hcontract : chs'.contract = chs.contract)
    (h : chs'.opened (chs.idFor C client payout) = chs.opened (chs.idFor C client payout)) :
    TreatsAlike cfg C client payout chs chs' where
  bonds := by
    intro bonds held submit pay delta already hpay hclient hpayout htake
    obtain ⟨bond, g, hdelta, halready, hheld⟩ := takeBond_eq_ok.mp htake
    obtain rfl : bond = pay := Option.some.inj (g.carried.symm.trans hpay)
    subst hclient hpayout
    have hsame : chs'.authorisedFor C bond.ticket.client bond.ticket.workerPayout =
        chs.authorisedFor C bond.ticket.client bond.ticket.workerPayout :=
      authorisedFor_congr hcontract h
    have hrise : bond.rise C chs' = bond.rise C chs := by
      rw [JobPay.rise, hsame, JobPay.rise]
    refine takeBond_eq_ok.mpr ⟨bond, ⟨g.carried, g.sameJob, g.readable, g.sameWorker, g.samePayer,
      hsame ▸ g.rises⟩, ?_, ?_, ?_⟩
    · rw [hrise, hdelta]
    · rw [hsame, halready]
    · rw [hrise, hheld]
  spends := by
    intro ticket sig appKey d expected earned now after hclient hpayout haccept
    obtain ⟨g, hearned, -⟩ := Channels.acceptSpend_eq_ok.mp haccept
    subst hclient hpayout
    have hid : chs'.idFor C ticket.client ticket.workerPayout =
        chs.idFor C ticket.client ticket.workerPayout := by
      rw [Channels.idFor, hcontract, Channels.idFor]
    have hsame : chs'.authorisedFor C ticket.client ticket.workerPayout =
        chs.authorisedFor C ticket.client ticket.workerPayout :=
      authorisedFor_congr hcontract h
    have howned : chs'.checkOwner (chs'.idFor C ticket.client ticket.workerPayout) ticket.client =
        .ok () := by
      rw [hid, Channels.checkOwner, h]
      exact g.owned
    exact ⟨_, Channels.acceptSpend_eq_ok.mpr ⟨⟨g.signed, howned, hsame ▸ g.covers,
      hsame ▸ g.rises⟩, hearned, rfl⟩⟩

end Treats

/-- A chunk no capture of which touches the entry `id`, unless its job is `client`'s. -/
structure Harmless (cfg : Config) (C : Crypto) (chs : Channels) (client id : Text) (bond : Bond) :
    Prop where
  apart : ¬ Collides C chs client id bond.pay
  keyless : payoutOf cfg.payoutAddress = none → bond.appKey = []

/-- A job of somebody else's. -/
structure Stranger (cfg : Config) (C : Crypto) (chs : Channels) (client id : Text)
    (keys : Text → Prop) (t : Task) : Prop where
  unsigned : ∀ d ∈ cfg.payments.domain, ∀ pay ∈ t.submit.bond, ¬ pay.SignedBy C d keys
  apart : ∀ pay ∈ t.submit.bond, ¬ Collides C chs client id pay
  carried : t.phase = .bonded → ∃ pay, t.submit.bond = some pay
  prepaid : t.phase = .paid ∨ t.phase = .bonded → t.holdback = true
  payer : ∀ payout ∈ payoutOf cfg.payoutAddress, t.phase ≠ .paid → t.phase ≠ .bonded →
    t.holdback = true → ∃ payer, t.submit.payer = some payer ∧ eqIgnoreAsciiCase client payer = false
  invoiced : ∀ bond amount, t.phase = .invoiced bond amount →
    t.holdback = true ∧ Harmless cfg C chs client id bond

/-- Nothing in flight is `client`'s. -/
structure Node.Clear (cfg : Config) (C : Crypto) (chs : Channels) (client id : Text)
    (keys : Text → Prop) (n : Node) : Prop where
  contract : n.channels.contract = chs.contract
  held : ∀ {jobId bond}, n.bonds jobId = some bond → Harmless cfg C chs client id bond
  tasks : ∀ {i t}, n.tasks i = some t → Stranger cfg C chs client id keys t

section Steps

variable {chs : Channels} {client id : Text} {keys : Text → Prop} {n n' : Node} {e : Event}

theorem collides_congr {chs' : Channels} (h : chs'.contract = chs.contract) (pay : JobPay) :
    Collides C chs' client id pay ↔ Collides C chs client id pay := by
  rw [Collides, Channels.entryOf, Channels.idFor, h]
  exact Iff.rfl

theorem start_stranger {submit : JobSubmit}
    (hunsigned : ∀ d ∈ cfg.payments.domain, ∀ pay ∈ submit.bond, ¬ pay.SignedBy C d keys)
    (hapart : ∀ pay ∈ submit.bond, ¬ Collides C chs client id pay) :
    Stranger cfg C chs client id keys (Task.start cfg submit) := by
  by_cases hpriced : holdbackFor cfg submit.payload
  · refine ⟨hunsigned, hapart, ?_, ?_, ?_, ?_⟩ <;> simp [Task.start, hpriced]
  · refine ⟨hunsigned, hapart, ?_, ?_, ?_, ?_⟩ <;> simp [Task.start, hpriced]

/-- A job that passes at its lock is paid for by somebody else: `client`'s key did not sign its
chunk. -/
theorem Passes.payer {t : Task} {state : Option ChannelState} {payout : Text}
    (h : Passes cfg C R t.submit state) (hpayout : payoutOf cfg.payoutAddress = some payout)
    (hs : Stranger cfg C chs client id keys t) (hphase : t.phase = .bonded)
    (hshown : ∀ st payer, state = some st → t.submit.payer = some payer →
      eqIgnoreAsciiCase client payer = true → keys st.appKey) :
    ∃ payer, t.submit.payer = some payer ∧ eqIgnoreAsciiCase client payer = false := by
  cases h with
  | unpaid hnone =>
    rw [hnone] at hpayout
    cases hpayout
  | locked _ hcheck =>
    obtain ⟨payer, _, _, hpayer, -, -, -, hguard⟩ := checkLock_ok hcheck
    refine ⟨payer, hpayer, Bool.eq_false_iff.mpr fun hsame => ?_⟩
    obtain ⟨pay, hpay⟩ := hs.carried hphase
    obtain ⟨d, hd, hcheck⟩ := hguard.signed pay hpay
    simp only [SpendTicket.check, bind_eq_ok, require_eq_ok] at hcheck
    obtain ⟨-, -, signer, hsigner, hkey⟩ := hcheck
    exact hs.unsigned d hd pay hpay ⟨signer, _, hsigner, hshown _ payer rfl hpayer hsame, hkey⟩

/-- The other jobs of a step stand where they stood. -/
theorem Step.clear_of (h : Step cfg C R n e n') (hn : n.Clear cfg C chs client id keys)
    (hself : ∀ t, n'.tasks e.job = some t → Stranger cfg C chs client id keys t)
    (hheld : ∀ {jobId bond}, n'.bonds jobId = some bond → Harmless cfg C chs client id bond) :
    n'.Clear cfg C chs client id keys where
  contract := h.contract.trans hn.contract
  held := hheld
  tasks := by
    intro j t ht
    by_cases hj : j = e.job
    · subst hj
      exact hself t ht
    · rw [h.tasks_of_ne hj] at ht
      exact hn.tasks ht

theorem Node.Clear.hold (hn : n.Clear cfg C chs client id keys) (jobId : Uuid) {bond : Option Bond}
    (hbond : ∀ b, bond = some b → Harmless cfg C chs client id b) :
    ∀ {other b}, (n.hold jobId bond).bonds other = some b → Harmless cfg C chs client id b := by
  intro other b hb
  cases Node.hold_bonds hb with
  | inl hnew => exact hbond b hnew
  | inr hold => exact hn.held hold

theorem Harmless.stash {bond : Bond} (h : Harmless cfg C chs client id bond)
    {state : Option ChannelState} {submit : JobSubmit} (hpasses : Passes cfg C R submit state) {b : Bond}
    (hb : locked (some bond) state = some b) : Harmless cfg C chs client id b := by
  cases hpasses with
  | unpaid _ =>
    cases hb
    exact h
  | locked hpayout _ =>
    cases hb
    refine ⟨h.apart, fun hnone => ?_⟩
    rw [hnone] at hpayout
    cases hpayout

/-- A step on messages of others leaves nothing of `client`'s in flight. -/
theorem Step.clear (h : Step cfg C R n e n') (hforeign : Foreign cfg C client keys n e)
    (hleaves : LeavesEntry C client id n e) (hn : n.Clear cfg C chs client id keys) :
    n'.Clear cfg C chs client id keys := by
  have hself {i : ℕ} {task : Option Task} {t : Task} (ht : (n.put i task).tasks i = some t) :
      task = some t := by
    rwa [Node.put_tasks_self] at ht
  have hdrop {jobId other : Uuid} {b : Bond} (hb : (n.hold jobId none).bonds other = some b) :
      Harmless cfg C chs client id b :=
    hn.hold _ (by rintro _ ⟨⟩) hb
  have hclear := h.clear_of hn
  cases h with
  | @payment i submit _ _ hfree hpayment =>
    refine hclear ?_ hn.held
    intro t ht
    cases hself ht
    refine start_stranger ?_ ?_
    · intro d hd pay hpay hsigned
      exact hforeign.unsigned d hd (.inl ⟨pay, hpay, hsigned⟩)
    · intro pay hpay hcollides
      exact hleaves.1 pay hpay ((collides_congr hn.contract pay).mpr hcollides)
  | @bond i task _ _ _ _ htask hphase htake hclamp =>
    have ht := hn.tasks htask
    obtain ⟨pay, g, -, -, hbonds⟩ := takeBond_eq_ok.mp htake
    refine hclear ?_ ?_
    · intro t htself
      cases hself htself
      exact ⟨ht.unsigned, ht.apart, fun _ => ⟨pay, g.carried⟩, fun _ => ht.prepaid (.inl hphase),
        fun _ _ _ hne => absurd rfl hne, by rintro _ _ ⟨⟩⟩
    · intro jobId bond hbond
      rw [hbonds] at hbond
      refine hn.hold task.submit.jobId ?_ hbond
      rintro b ⟨⟩
      exact ⟨ht.apart pay g.carried, fun _ => rfl⟩
  | refuseChunk htask hphase htake =>
    refine hclear ?_ hn.held
    intro t ht
    cases hself ht
  | refusePrompt htask hphase htake hclamp =>
    refine hclear ?_ hdrop
    intro t ht
    cases hself ht
  | @lock i task state htask hphase hpasses =>
    have ht := hn.tasks htask
    refine hclear ?_ ?_
    · intro t htself
      cases hself htself
      refine ⟨ht.unsigned, ht.apart, by rintro ⟨⟩, by rintro (⟨⟨⟩⟩ | ⟨⟨⟩⟩), ?_, by rintro _ _ ⟨⟩⟩
      · intro payout hpayout _ _ _
        refine hpasses.payer hpayout ht hphase ?_
        rintro st payer rfl hpayer hsame
        exact hforeign.shown i st task payer rfl htask hpayer hsame
    · intro jobId bond hbond
      refine hn.hold _ ?_ hbond
      intro b hb
      cases hheld : n.bonds task.submit.jobId with
      | none =>
        rw [hheld] at hb
        cases state <;> cases hb
      | some old =>
        rw [hheld] at hb
        exact (hn.held hheld).stash hpasses hb
  | refuseLock htask hphase =>
    refine hclear ?_ hdrop
    intro t ht
    cases hself ht
  | fail htask hphase =>
    refine hclear ?_ hn.held
    intro t ht
    cases hself ht
  | @topUp i task pay now bond bond' htask hphase hjob hbond htop =>
    refine hclear ?_ ?_
    · intro t ht
      exact hn.tasks ht
    · intro jobId b hb
      refine hn.hold _ ?_ hb
      rintro _ ⟨⟩
      obtain ⟨hpay, hkey⟩ := requestTopUp_some htop
      refine ⟨?_, fun hnone => hkey.trans ((hn.held hbond).keyless hnone)⟩
      rw [hpay]
      exact fun hcollides => hleaves ((collides_congr hn.contract pay).mpr hcollides)
  | @invoice i task bond amount htask hphase hholdback hpos hbond =>
    have ht := hn.tasks htask
    refine hclear ?_ hdrop
    intro t htself
    cases hself htself
    refine ⟨ht.unsigned, ht.apart, by rintro ⟨⟩, by rintro (⟨⟨⟩⟩ | ⟨⟨⟩⟩), ?_, ?_⟩
    · intro payout hpayout _ _ _
      exact ht.payer payout hpayout (by simp [hphase]) (by simp [hphase]) hholdback
    · rintro _ _ ⟨⟩
      exact ⟨hholdback, hn.held hbond⟩
  | unbonded htask hphase hholdback hpos hbond =>
    refine hclear ?_ hn.held
    intro t ht
    cases hself ht
  | free htask hphase =>
    refine hclear ?_ hdrop
    intro t ht
    cases hself ht
  | capture htask hphase hcapture =>
    refine hclear ?_ hn.held
    intro t ht
    cases hself ht
  | unbanked htask hphase hcapture =>
    refine hclear ?_ hn.held
    intro t ht
    cases hself ht

/-- A step on messages of others leaves the entry of `client`. -/
theorem Step.entry (h : Step cfg C R n e n') (hforeign : Foreign cfg C client keys n e)
    (hwallet : keys client) (hleaves : LeavesEntry C client id n e)
    (hn : n.Clear cfg C chs client id keys) : n'.channels.opened id = n.channels.opened id := by
  rcases h.ledger with hsame | ⟨i, submit, now, auth, d, earned, rfl, hspend, hd, haccept⟩ |
    ⟨i, task, bond, billed, paid, now, pay, amount, rfl, htask, hphase, hpay, hbank⟩
  · rw [hsame]
  · obtain ⟨g, -, hchannels⟩ := Channels.accept_eq_ok.mp haccept
    rw [hchannels]
    refine Channels.insert_opened_of_ne _ fun hid => ?_
    obtain ⟨ch, hch, hclient⟩ := hleaves.2 auth hspend hid.symm
    obtain ⟨signer, hsigner, hauth⟩ := g.signed
    have howner := Channels.checkOwner_eq_ok.mp g.owned ch (hid ▸ hch)
    rw [eqIgnoreAsciiCase_iff] at hclient howner hauth
    exact hforeign.unsigned d hd (.inr ⟨auth, hspend, signer, client, hsigner, hwallet,
      (eqIgnoreAsciiCase_iff _ _).mpr (hauth.trans (howner.symm.trans hclient))⟩)
  · obtain ⟨hnamed, ⟨d, -, g⟩, hchannels⟩ := bankPay_eq_ok.mp hbank
    rw [hchannels]
    refine Channels.insert_opened_of_ne _ fun hid => ?_
    obtain ⟨hholdback, hharmless⟩ := (hn.tasks htask).invoiced bond billed hphase
    have hclient : eqIgnoreAsciiCase pay.ticket.client client = true := by
      refine Bool.of_not_eq_false fun hother => ?_
      cases hpay with
      | inl hchunk =>
        subst hchunk
        exact hharmless.apart ((collides_congr hn.contract _).mp ⟨hid.symm, hother⟩)
      | inr hpaid => exact hleaves pay hpaid ⟨hid.symm, hother⟩
    cases hpayout : payoutOf cfg.payoutAddress with
    | none =>
      have hsigned := g.signed
      rw [hharmless.keyless hpayout] at hsigned
      exact SpendTicket.check_ne_ok_of_no_key hsigned
    | some payout =>
      obtain ⟨payer, hpayer, hother⟩ := (hn.tasks htask).payer payout hpayout (by simp [hphase])
        (by simp [hphase]) hholdback
      have hsame := hnamed.samePayer payer hpayer
      rw [eqIgnoreAsciiCase_iff] at hclient hsame
      exact Bool.eq_false_iff.mp hother
        ((eqIgnoreAsciiCase_iff _ _).mpr (hclient.symm.trans hsame))

/-- A node takes no less from a client for anything others send it, provided that legacy
authorisations leave the client's entry alone until it is the client's. -/
theorem treats_alike_of_leavesEntry {n₀ : Node} {payout : Text} (hwallet : keys client)
    (htasks : ∀ i, n₀.tasks i = none) (hbonds : ∀ jobId, n₀.bonds jobId = none)
    (h : Runs (restrict (Step cfg C R) fun n e => Foreign cfg C client keys n e ∧
      LeavesEntry C client (n₀.channels.idFor C client payout) n e) n₀ n) :
    TreatsAlike cfg C client payout n₀.channels n.channels := by
  have hstart : n₀.Clear cfg C n₀.channels client (n₀.channels.idFor C client payout) keys := by
    refine ⟨rfl, ?_, ?_⟩
    · intro jobId bond hbond
      rw [hbonds] at hbond
      cases hbond
    · intro i t ht
      rw [htasks] at ht
      cases ht
  have hkept : n.Clear cfg C n₀.channels client (n₀.channels.idFor C client payout) keys ∧
      n.channels.opened (n₀.channels.idFor C client payout) =
        n₀.channels.opened (n₀.channels.idFor C client payout) := by
    refine h.invariant (P := fun n =>
      n.Clear cfg C n₀.channels client (n₀.channels.idFor C client payout) keys ∧
        n.channels.opened (n₀.channels.idFor C client payout) =
          n₀.channels.opened (n₀.channels.idFor C client payout)) ?_ ⟨hstart, rfl⟩
    rintro n e n' ⟨⟨hforeign, hleaves⟩, hstep⟩ ⟨hclear, hsame⟩
    exact ⟨hstep.clear hforeign hleaves hclear,
      (hstep.entry hforeign hwallet hleaves hclear).trans hsame⟩
  exact treatsAlike_of_opened hkept.1.contract hkept.2

end Steps

section Local

open LocalNode

/-- Somebody else with a key of its own. -/
def outsider : Address := 0xBAD

/-- A legacy authorisation of the outsider's on the channel `id`, to be signed. -/
def demanded (id : Text) : SpendingAuth where
  channelId := id
  client := addressText outsider
  cumulative := 1_000_000
  metadataHash := Channels.noMetadata
  sig := none

def claimed (id : Text) : SpendingAuth :=
  { demanded id with
    sig := some (sigText (LocalChain.sign outsider
      (((demanded id).digest LocalChain.crypto domain).toOption.getD 0))) }

/-- A chat of the outsider's that comes with it. -/
def claim (id : Text) : JobSubmit where
  jobId := 2
  payload := .llm hello
  spend := some (claimed id)

/-- The ledger entry of a client with the worker. -/
def entry (client : Address) : Text :=
  ledger.idFor LocalChain.crypto (addressText client) (addressText LocalChain.worker)

theorem wordBytes32_hex {b : Bytes} (h : b.length = 32) :
    wordBytes32 (ofString "0x" ++ Hex.encode b) = .ok b := by
  unfold wordBytes32
  rw [Worker.Chain.strip0x_0x, Hex.decode_encode]
  exact if_pos h

theorem recover_claimed (client : Address) :
    (claimed (entry client)).recover LocalChain.crypto domain = .ok (addressText outsider) := by
  have hreads : ∃ h, (demanded (entry client)).digest LocalChain.crypto domain = .ok h := by
    have hchannel : ∃ w, wordBytes32 (entry client) = .ok w := ⟨_, wordBytes32_hex (by simp [word])⟩
    obtain ⟨w, hw⟩ := hchannel
    simp only [SpendingAuth.digest, digestOfNamed, Domain.separatorNamed, bind_eq_ok]
    exact ⟨_, w, hw, _, Worker.Chain.wordAddress_addressText _, _, wordBytes32_hex (by simp), _,
      ⟨_, Worker.Chain.wordAddress_addressText _, rfl⟩, rfl⟩
  obtain ⟨h, hh⟩ := hreads
  have hsigned : (claimed (entry client)).digest LocalChain.crypto domain = .ok h := hh
  simp only [SpendingAuth.recover, claimed, bind_eq_ok]
  refine ⟨h, hsigned, ?_⟩
  rw [hh]
  exact recover_sigText (by decide) h

/-- The ledger takes the authorisation wherever it has no entry yet. -/
theorem takePayment_claim (client : Address) :
    takePayment config LocalChain.crypto ledger (claim (entry client)) true 0 =
      .ok (ledger.insert (entry client) (ledger.legacy (claimed (entry client)) 0)) := by
  have haccept : ledger.accept LocalChain.crypto (claimed (entry client)) domain 0 =
      .ok (1_000_000, ledger.insert (entry client) (ledger.legacy (claimed (entry client)) 0)) := by
    refine Channels.accept_eq_ok.mpr ⟨⟨⟨_, recover_claimed client, eqIgnoreAsciiCase_refl _⟩, ?_,
      rfl⟩, rfl, rfl⟩
    exact (by decide : 0 < 1_000_000)
  have hd : config.payments.domain = some domain := payments_domain
  simp only [takePayment, hd, claim, haccept]

/-- The node after it took an authorisation of the outsider's on the channel of `client`. -/
def claimedOn (client : Address) : Node :=
  { resting.put 0 (some (Task.start config (claim (entry client)))) with
    channels := ledger.insert (entry client) (ledger.legacy (claimed (entry client)) 0) }

theorem step_claim (client : Address) :
    Step config LocalChain.crypto rpc resting (.payment 0 (claim (entry client)) 0)
      (claimedOn client) := by
  have hpriced : holdbackFor config (claim (entry client)).payload := hello_priced
  refine .payment rfl ?_
  rw [decide_eq_true hpriced]
  exact takePayment_claim client

/-- The keys of the client: its wallet and its app key. -/
def clientKeys (key : Text) : Prop :=
  key = addressText LocalChain.client ∨ key = addressText LocalChain.app

theorem foreign_claim (client : Address) :
    Foreign config LocalChain.crypto (addressText LocalChain.client) clientKeys resting
      (.payment 0 (claim (entry client)) 0) where
  unsigned := by
    intro d hd
    rw [show config.payments.domain = some domain from payments_domain] at hd
    cases hd
    rintro (⟨pay, ⟨⟩, -⟩ | ⟨auth, ⟨⟩, signer, key, hsigner, hkey, hsame⟩)
    rw [recover_claimed] at hsigner
    cases hsigner
    rcases hkey with rfl | rfl
    · exact absurd (Chain.eq_of_eqIgnoreAsciiCase hsame) (by decide)
    · exact absurd (Chain.eq_of_eqIgnoreAsciiCase hsame) (by decide)
  shown := by rintro _ _ _ _ ⟨⟩

/-- What the outsider claims on a channel of its own is nothing to the client. -/
theorem treats_alike_outsider :
    TreatsAlike config LocalChain.crypto (addressText LocalChain.client)
      (addressText LocalChain.worker) ledger (claimedOn outsider).channels := by
  have hids : entry outsider ≠ entry LocalChain.client := by decide +kernel
  have hwallet : clientKeys (addressText LocalChain.client) := .inl rfl
  have hleaves : LeavesEntry LocalChain.crypto (addressText LocalChain.client)
      (entry LocalChain.client) resting (.payment 0 (claim (entry outsider)) 0) := by
    refine ⟨by rintro _ ⟨⟩, ?_⟩
    rintro auth ⟨⟩ hid
    exact absurd hid hids
  exact treats_alike_of_leavesEntry hwallet (fun _ => rfl) (fun _ => rfl)
    (Runs.single ⟨⟨foreign_claim outsider, hleaves⟩, step_claim outsider⟩)

/-- On the client's channel, before the client was ever there, it shuts the client out. -/
theorem outsider_takes_entry :
    ¬ NonInterference config LocalChain.crypto rpc (addressText LocalChain.client)
      (addressText LocalChain.worker) clientKeys resting := by
  intro h
  have halike := h _ (Runs.single (a := .payment 0 (claim (entry LocalChain.client)) 0)
    ⟨foreign_claim LocalChain.client, step_claim LocalChain.client⟩)
  have hbefore : ledger.acceptSpend LocalChain.crypto (ticket LocalChain.worker 250_000 1_003_600)
      (pay 1 LocalChain.worker 250_000 1_003_600).sig domain (addressText LocalChain.app) 250_000 0 =
      .ok (250_000, _) :=
    Channels.acceptSpend_eq_ok.mpr ⟨⟨check_pay 1 (by decide), rfl, by decide, by decide⟩, rfl, rfl⟩
  obtain ⟨after, hafter⟩ := halike.spends rfl rfl hbefore
  obtain ⟨g, -, -⟩ := Channels.acceptSpend_eq_ok.mp hafter
  have howner := Channels.checkOwner_eq_ok.mp g.owned _ (Channels.insert_opened_self _ _)
  exact absurd (Chain.eq_of_eqIgnoreAsciiCase howner) (by decide)

end Local

end Rootmode.Worker
