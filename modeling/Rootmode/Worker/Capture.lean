import Rootmode.Worker.AdmissionSpec

namespace Rootmode.Worker

open Lib Lib.Checked Lib.Text Payments

variable (cfg : Config) (C : Crypto)

/-- Bank a ticket for a job. -/
def bankPay (chs : Channels) (submit : JobSubmit) (pay : JobPay) (amount : Micros) (appKey : Text)
    (now : ℕ) : Except String Channels := do
  require (pay.jobId = submit.jobId) "pay ticket is for a different job"
  let d ← demand cfg.payments.domain "this node has no settlement contract"
  require (∀ payout ∈ payoutOf cfg.payoutAddress, eqIgnoreAsciiCase pay.ticket.workerPayout payout)
    "ticket is for a different worker"
  require (∀ payer ∈ submit.payer, eqIgnoreAsciiCase pay.ticket.client payer)
    "ticket is for a different payer"
  let (_, chs) ← (chs.acceptSpend C pay.ticket pay.sig d appKey amount now).mapError fun e =>
    s!"payment authorisation: {e}"
  return chs

/-- What becomes of a chunk when a raise of it comes in: the raise must be signed by the same key,
and be worth more. -/
def requestTopUp (chs : Channels) (bond : Bond) (pay : JobPay) (now : ℕ) : Option Bond :=
  match cfg.payments.domain with
  | none => none
  | some d =>
    match pay.ticket.check C d pay.sig bond.appKey now with
    | .error _ => none
    | .ok _ =>
      let already := chs.authorisedFor C pay.ticket.client pay.ticket.workerPayout
      let newDelta := pay.ticket.cumulative - already
      if newDelta ≤ bond.delta then none else some { bond with pay, delta := newDelta }

/-- What a job is billed out of its chunk. -/
def billed (bond : Bond) (amount : Micros) : Micros := max (min amount bond.delta) 1

/-- Bank the bill if the client signed it, otherwise the prepaid chunk. -/
def captureChunk (chs : Channels) (submit : JobSubmit) (bond : Bond) (amount : Micros)
    (paid : Option JobPay) (now : ℕ) : Except String (JobPay × Channels) :=
  let chunk := (bankPay cfg C chs submit bond.pay bond.delta bond.appKey now).map (bond.pay, ·)
  match paid with
  | none => chunk
  | some pay =>
    match bankPay cfg C chs submit pay amount bond.appKey now with
    | .ok chs => .ok (pay, chs)
    | .error _ => chunk

/-- What goes on the books for it: the bill if the client's ticket was banked, the chunk if not. -/
def billedFor (chs : Channels) (submit : JobSubmit) (bond : Bond) (amount : Micros)
    (paid : Option JobPay) (now : ℕ) : Micros :=
  match paid with
  | none => bond.delta
  | some pay =>
    match bankPay cfg C chs submit pay amount bond.appKey now with
    | .ok _ => amount
    | .error _ => bond.delta

variable {cfg} {C}

/-- A ticket for a job names the job, the node and the job's payer. -/
structure Named (cfg : Config) (submit : JobSubmit) (pay : JobPay) : Prop where
  sameJob : pay.jobId = submit.jobId
  sameWorker : ∀ payout ∈ payoutOf cfg.payoutAddress,
    eqIgnoreAsciiCase pay.ticket.workerPayout payout
  samePayer : ∀ payer ∈ submit.payer, eqIgnoreAsciiCase pay.ticket.client payer

/-- A ticket for a job, signed by the key the job is held to. -/
structure Vouched (cfg : Config) (C : Crypto) (submit : JobSubmit) (pay : JobPay) (appKey : Text) :
    Prop where
  named : Named cfg submit pay
  signed : ∃ d now, cfg.payments.domain = some d ∧
    pay.ticket.check C d pay.sig appKey now = .ok ⟨⟩

/-- The ledger has room for so much on a ticket. -/
structure Room (C : Crypto) (chs : Channels) (ticket : SpendTicket) (amount : Micros) (now : ℕ) :
    Prop where
  live : now < ticket.deadline
  owned : chs.checkOwner (chs.idFor C ticket.client ticket.workerPayout) ticket.client = .ok ⟨⟩
  covers : satAdd 64 (chs.authorisedFor C ticket.client ticket.workerPayout) amount ≤
    ticket.cumulative
  rises : chs.authorisedFor C ticket.client ticket.workerPayout < ticket.cumulative

variable {chs chs' : Channels} {submit : JobSubmit} {bond : Bond} {pay chosen : JobPay}
  {amount : Micros} {appKey : Text} {paid : Option JobPay} {now : ℕ}

theorem BondGuard.named (g : BondGuard cfg C chs submit pay) : Named cfg submit pay :=
  ⟨g.sameJob, g.sameWorker, g.samePayer⟩

theorem bankPay_eq_ok :
    bankPay cfg C chs submit pay amount appKey now = .ok chs' ↔
      Named cfg submit pay ∧
      (∃ d, cfg.payments.domain = some d ∧
        Channels.SpendGuard C chs pay.ticket pay.sig d appKey amount now) ∧
      chs' = chs.insert (chs.idFor C pay.ticket.client pay.ticket.workerPayout)
        (chs.banked C pay.ticket pay.sig now) := by
  simp only [bankPay, bind_eq_ok, demand_eq_ok, require_eq_ok, mapError_eq_ok]
  constructor
  · rintro ⟨-, hjob, d, hd, -, hworker, -, hpayer, ⟨earned, chs₁⟩, haccept, h⟩
    obtain ⟨g, -, rfl⟩ := Channels.acceptSpend_eq_ok.mp haccept
    cases h
    exact ⟨⟨hjob, hworker, hpayer⟩, ⟨d, hd, g⟩, rfl⟩
  · rintro ⟨hnamed, ⟨d, hd, g⟩, rfl⟩
    exact ⟨⟨⟩, hnamed.sameJob, d, hd, ⟨⟩, hnamed.sameWorker, ⟨⟩, hnamed.samePayer, _,
      Channels.acceptSpend_eq_ok.mpr ⟨g, rfl, rfl⟩, rfl⟩

/-- While the ledger has room for it a good ticket is taken. -/
theorem bankPay_of_room (hv : Vouched cfg C submit pay appKey)
    (hroom : Room C chs pay.ticket amount now) :
    ∃ chs', bankPay cfg C chs submit pay amount appKey now = .ok chs' := by
  obtain ⟨d, before, hd, hcheck⟩ := hv.signed
  have hnow : (max (now : ℤ) 0).toNat = now := by omega
  have hsigned : pay.ticket.check C d pay.sig appKey (max (now : ℤ) 0).toNat = .ok ⟨⟩ := by
    rw [hnow]
    exact SpendTicket.check_later hcheck hroom.live
  exact ⟨_, bankPay_eq_ok.mpr
    ⟨hv.named, ⟨d, hd, hsigned, hroom.owned, hroom.covers, hroom.rises⟩, rfl⟩⟩

/-- A raised chunk is the ticket that came in, under the key the chunk had. -/
theorem requestTopUp_some {bond' : Bond} (h : requestTopUp cfg C chs bond pay now = some bond') :
    bond'.pay = pay ∧ bond'.appKey = bond.appKey := by
  unfold requestTopUp at h
  split at h
  · cases h
  · split at h
    · cases h
    · dsimp only at h
      split at h
      · cases h
      · cases h
        exact ⟨rfl, rfl⟩

theorem requestTopUp_signed {bond' : Bond} (h : requestTopUp cfg C chs bond pay now = some bond') :
    ∃ d, cfg.payments.domain = some d ∧ pay.ticket.check C d pay.sig bond.appKey now = .ok ⟨⟩ := by
  unfold requestTopUp at h
  split at h
  · cases h
  · next d hd =>
    split at h
    · cases h
    · next hcheck => exact ⟨d, hd, hcheck⟩

theorem Vouched.of_requestTopUp {bond' : Bond}
    (h : requestTopUp cfg C chs bond pay now = some bond') (hnamed : Named cfg submit pay) :
    Vouched cfg C submit bond'.pay bond'.appKey := by
  obtain ⟨hpay, hkey⟩ := requestTopUp_some h
  obtain ⟨d, hd, hcheck⟩ := requestTopUp_signed h
  rw [hpay, hkey]
  exact ⟨hnamed, d, now, hd, hcheck⟩

theorem requestTopUp_raises {bond' : Bond} (h : requestTopUp cfg C chs bond pay now = some bond') :
    bond.delta < bond'.delta := by
  unfold requestTopUp at h
  split at h
  · cases h
  · split at h
    · cases h
    · dsimp only at h
      split at h
      · cases h
      · next hraise =>
        cases h
        exact not_le.mp hraise

theorem captureChunk_silent :
    captureChunk cfg C chs submit bond amount none now =
      (bankPay cfg C chs submit bond.pay bond.delta bond.appKey now).map (bond.pay, ·) := rfl

/-- What is captured was banked: the chunk for all it is worth, or what the client sent for the
bill. -/
theorem captureChunk_ok
    (h : captureChunk cfg C chs submit bond amount paid now = .ok (chosen, chs')) :
    (chosen = bond.pay ∧
      bankPay cfg C chs submit bond.pay bond.delta bond.appKey now = .ok chs') ∨
    (paid = some chosen ∧ bankPay cfg C chs submit chosen amount bond.appKey now = .ok chs') := by
  have hchunk (h : (bankPay cfg C chs submit bond.pay bond.delta bond.appKey now).map
      (bond.pay, ·) = .ok (chosen, chs')) : chosen = bond.pay ∧
      bankPay cfg C chs submit bond.pay bond.delta bond.appKey now = .ok chs' := by
    obtain ⟨chs₁, hbank, hpair⟩ := (map_eq_ok _ _ _).mp h
    cases hpair
    exact ⟨rfl, hbank⟩
  cases paid with
  | none => exact .inl (hchunk h)
  | some pay =>
    unfold captureChunk at h
    cases hbank : bankPay cfg C chs submit pay amount bond.appKey now with
    | ok chs₁ =>
      simp only [hbank] at h
      cases h
      exact .inr ⟨rfl, hbank⟩
    | error e =>
      simp only [hbank] at h
      exact .inl (hchunk h)

/-- What a node that knows where it is paid holds for a job it let through. -/
theorem admitted_vouched {κ : Type} {R : Rpc κ} {bonds : Bonds} {start : ℤ} {k k' : κ}
    {a : Admission} {payout : Text} (hpayout : payoutOf cfg.payoutAddress = some payout)
    (hadmitted : admitJob cfg C R chs bonds submit start k = (.ok a, k'))
    (hpriced : holdbackFor cfg submit.payload) (hheld : a.bonds submit.jobId = some bond) :
    Vouched cfg C a.submit bond.pay bond.appKey := by
  obtain ⟨pay, payer, first, state, k₁, g, -, hbond, -, -, -, hguard, hstashed⟩ :=
    admit_locked hadmitted hpriced hpayout
  obtain ⟨-, payload, -, -, hsubmit, -⟩ := admit_ok hadmitted hpriced
  obtain ⟨d, hd, hcheck⟩ := hguard.signed pay hbond
  cases hheld.symm.trans hstashed
  refine ⟨?_, d, R.now k', hd, hcheck⟩
  rw [hsubmit]
  exact ⟨g.sameJob, g.sameWorker, g.samePayer⟩

/-- A chunk that may be banked is captured, whatever the client sent. -/
theorem captureChunk_of_chunk
    (h : bankPay cfg C chs submit bond.pay bond.delta bond.appKey now = .ok chs') :
    ∃ captured, captureChunk cfg C chs submit bond amount paid now = .ok captured := by
  have hchunk : (bankPay cfg C chs submit bond.pay bond.delta bond.appKey now).map (bond.pay, ·) =
      .ok (bond.pay, chs') := (map_eq_ok _ _ _).mpr ⟨chs', h, rfl⟩
  unfold captureChunk
  split
  · exact ⟨_, hchunk⟩
  · split
    · exact ⟨_, rfl⟩
    · exact ⟨_, hchunk⟩

theorem billedFor_of_paid (h : bankPay cfg C chs submit pay amount bond.appKey now = .ok chs') :
    billedFor cfg C chs submit bond amount (some pay) now = amount := by
  simp only [billedFor, h]

theorem captureChunk_of_paid
    (h : bankPay cfg C chs submit pay amount bond.appKey now = .ok chs') :
    captureChunk cfg C chs submit bond amount (some pay) now = .ok (pay, chs') := by
  simp only [captureChunk, h]

end Rootmode.Worker
