import Rootmode.Desktop.Pot
import Rootmode.Lib.Transition

namespace Rootmode.Desktop

open Function
open Lib Lib.Checked Lib.Text Lib.Transition Payments Worker

/-- What the two screens ask of the wallet for a job. -/
inductive Call
  | issue (price : Price) (kind : JobKind) (payload : JobPayload) (client payout : Text)
  | adopt (message : Text)
  | pay (invoice : JobInvoice)
  | settle (m : Option Meta)
  | abandon

section Calls

variable (C : Crypto)

/-- The wallet after a call, and whether the call went through. -/
def Call.run (o : Outside) (jobId : Uuid) (w : Wallet) : Call → Wallet × Bool
  | .issue price kind payload client payout =>
    match issueTicket C o jobId price kind payload client payout w with
    | .ok (_, w) => (w, true)
    | .error _ => (w, false)
  | .adopt message => (adoptAuthorised C o jobId message w, true)
  | .pay invoice =>
    match payInvoice C o jobId invoice w with
    | .ok (_, w) => (w, true)
    | .error _ => (w, false)
  | .settle m => (settleJob C o jobId m w, true)
  | .abandon => (abandonJob jobId w, true)

/-- The channel a call is about: its payer and its payout. -/
def Call.about (o : Outside) (jobId : Uuid) (w : Wallet) : Call → Option Text
  | .issue _ _ _ client payout => some (channelKey client payout)
  | .adopt _ | .pay _ | .settle _ => do
    let row ← w.jobs jobId
    let st ← o.status.toOption
    let client ← st.client
    return channelKey client row.payout
  | .abandon => none

/-- Calls for any jobs, one after the other. -/
inductive Wallet.Step : Labelled Wallet (Uuid × Call × Outside)
  | call {w} (jobId : Uuid) (call : Call) (o : Outside) :
      Wallet.Step w (jobId, call, o) (call.run C o jobId w).1

/-- The other jobs leave a channel alone. -/
def Alone (jobId : Uuid) (key : Text) (w : Wallet) : Uuid × Call × Outside → Prop
  | (i, call, o) => i ≠ jobId → call.about o i w ≠ some key

end Calls

/-- A payer's channel with a payout, on a pot. -/
structure ChannelOn where
  pot : Text
  key : Text

namespace Signing

variable (x : Signing)

def key : Text := channelKey x.ticket.client x.ticket.workerPayout

def On (c : ChannelOn) : Prop := eqIgnoreAsciiCase x.pot c.pot = true ∧ x.key = c.key

instance (c : ChannelOn) : Decidable (x.On c) := inferInstanceAs (Decidable (_ ∧ _))

/-- The on-chain total a ticket was signed against. -/
def onChain : Micros :=
  match x.purpose with
  | .bond onChain _ | .invoice onChain _ _ | .bill onChain _ _ => onChain
  | .adopted => 0

/-- What was taken to be authorised already: the on-chain total, or what a refusal named. -/
def claimed : Micros :=
  match x.purpose with
  | .adopted => x.ticket.cumulative
  | _ => x.onChain

/-- What a ticket adds to what was authorised. -/
def raise : Micros :=
  match x.purpose with
  | .bond _ jobCap => jobCap
  | .invoice _ amount _ | .bill _ amount _ => amount
  | .adopted => 0

/-- What of it is on record from then on. -/
def billed : Micros :=
  match x.purpose with
  | .bond _ _ | .adopted => 0
  | .invoice _ amount _ | .bill _ amount _ => amount

/-- The cap a ticket was signed under: the job's, or the account's where the client bills itself. -/
def limit : Micros :=
  match x.purpose with
  | .bond _ jobCap | .invoice _ _ jobCap => jobCap
  | .bill _ _ cap => cap
  | .adopted => 0

end Signing

section Bounds

variable (c : ChannelOn)

/-- The highest of what is said of the tickets on a channel. -/
def highest (f : Signing → Micros) : List Signing → Micros
  | [] => 0
  | x :: earlier => if x.On c then max (f x) (highest f earlier) else highest f earlier

/-- The highest cumulative signed on a channel. -/
abbrev highestSigned : List Signing → Micros := highest c (·.ticket.cumulative)

def billedOn : List Signing → Micros
  | [] => 0
  | x :: earlier => if x.On c then x.billed + billedOn earlier else billedOn earlier

/-- Every ticket on the channel stays within what was claimed to be authorised by then, the bills paid
before it, and the cap it is signed under. -/
def Capped (before : Micros) : List Signing → Prop
  | [] => True
  | x :: earlier =>
    (x.On c → x.ticket.cumulative ≤
      max before (highest c Signing.claimed (x :: earlier)) + billedOn c earlier + x.limit) ∧
    Capped before earlier

/-- The total on record for a channel. -/
def Wallet.record (w : Wallet) : Micros :=
  (((w.latest c.key).filter fun t => eqIgnoreAsciiCase t.pot c.pot).map (·.ticket.cumulative)).getD 0

end Bounds

section Calls

variable {C : Crypto} {o : Outside} {jobId : Uuid} {w w' : Wallet} {cfg : ChainConfig}
  {client worker : Text} {cumulative : Micros}

theorem cached_le_record (w : Wallet) (cfg : ChainConfig) (client worker : Text) :
    cachedCumulative w cfg client worker ≤ w.record ⟨cfg.pot, channelKey client worker⟩ := by
  unfold cachedCumulative Wallet.record
  dsimp only
  cases (w.latest (channelKey client worker)).filter fun t => eqIgnoreAsciiCase t.pot cfg.pot with
  | none => exact le_rfl
  | some t =>
    rw [Option.filter_some]
    split
    · exact le_rfl
    · exact Nat.zero_le _

theorem signLatest_ok {signed : SpendTicket × Text}
    (h : signLatest C o cfg client worker cumulative = .ok signed) :
    signed.1 = { client, workerPayout := worker, cumulative, deadline := o.now + ticketTtlSecs } := by
  simp only [signLatest, bind_eq_ok, mapError_eq_ok] at h
  obtain ⟨key, -, digest, -, sig, -, h⟩ := h
  cases h
  rfl

/-- A call for a job signed one ticket. -/
structure Signs (jobId : Uuid) (w : Wallet) (x : Signing) (w' : Wallet) : Prop where
  job : x.jobId = jobId
  signed : w'.signed = x :: w.signed
  total : x.ticket.cumulative ≤ max (w.record ⟨x.pot, x.key⟩) x.claimed + x.raise
  raise_le : x.raise ≤ x.limit
  latest : w'.latest = w.latest ∨ x.raise = x.billed ∧ ∃ sig onChainPaid,
    w'.latest = update w.latest x.key (some ⟨x.ticket, sig, onChainPaid, x.pot⟩)

/-- A total over what is authorised stays within what is claimed to be. -/
theorem satAdd_authorised_le (w : Wallet) (cfg : ChainConfig) (client worker : Text)
    (onChain amount : Micros) :
    satAdd 64 (max (cachedCumulative w cfg client worker) onChain) amount ≤
      max (w.record ⟨cfg.pot, channelKey client worker⟩) onChain + amount := by
  have hcached := cached_le_record w cfg client worker
  calc
    _ ≤ max (cachedCumulative w cfg client worker) onChain + amount := Nat.min_le_left _ _
    _ ≤ _ := Nat.add_le_add_right (max_le_max_right _ hcached) _

theorem issueTicket_signs {price : Price} {kind : JobKind} {payload : JobPayload} {payout : Text}
    {r : JobPay × Option ReservePost}
    (h : issueTicket C o jobId price kind payload client payout w = .ok (r, w')) :
    ∃ x row, x.key = channelKey client payout ∧ Signs jobId w x w' ∧ row.ceiling = row.jobCap ∧
      w'.jobs = update w.jobs jobId (some row) := by
  simp only [issueTicket, bind_eq_ok, demand_eq_ok, require_eq_ok] at h
  obtain ⟨cfg, -, st, -, ch, -, need, -, -, -, reserve, -, signed, hsigned, h⟩ := h
  cases h
  refine ⟨_, _, ?_, ⟨rfl, rfl, ?_, le_rfl, .inl rfl⟩, rfl, rfl⟩
  · rw [Signing.key, signLatest_ok hsigned]
  · simpa only [Signing.key, Signing.claimed, Signing.onChain, Signing.raise, signLatest_ok hsigned] using
      satAdd_authorised_le w cfg client payout ch.onChain need

/-- A job is prepaid to its cap. -/
def Wallet.Sized (w : Wallet) : Prop :=
  ∀ jobId row, w.jobs jobId = some row → row.ceiling = row.jobCap

/-- What the calls of a bonded job are about. -/
theorem about_row {row : PendingJob} {st : PotStatus} (hrow : w.jobs jobId = some row)
    (hst : o.status = .ok st) (hclient : st.client = some client) :
    (do let row ← w.jobs jobId; let st ← o.status.toOption; let client ← st.client
        return channelKey client row.payout) = some (channelKey client row.payout) := by
  simp [hrow, hst, hclient, Except.toOption]

/-- No top-up is signed: there is no room over what a job has prepaid. -/
theorem checkTopUp_sized {row : PendingJob} {invoice : JobInvoice} {u : PUnit}
    (hrow : row.ceiling = row.jobCap) : checkTopUp o row invoice ≠ .ok u := by
  intro h
  have hroom : row.jobCap - row.ceiling = 0 := by rw [hrow, Nat.sub_self]
  simp only [checkTopUp, hroom, true_or, if_true, bind_eq_ok] at h
  obtain ⟨st, -, h⟩ := h
  cases h

theorem payInvoice_signs {invoice : JobInvoice} {pay : JobPay} (hs : w.Sized)
    (h : payInvoice C o jobId invoice w = .ok (pay, w')) :
    ∃ x row row', (Call.pay invoice).about o jobId w = some x.key ∧ Signs jobId w x w' ∧
      w.jobs jobId = some row ∧ row'.ceiling = row'.jobCap ∧
      w'.jobs = update w.jobs jobId (some row') := by
  simp only [payInvoice, bind_eq_ok, demand_eq_ok, require_eq_ok] at h
  obtain ⟨-, -, -, -, row, hrow, -, -, u, hcheck, cfg, -, st, hst, client, hclient, -, -, -, -,
    ⟨authorised, onChain⟩, hauthorised, signed, hsigned, h⟩ := h
  have hsized : row.ceiling = row.jobCap := hs jobId row hrow
  have hfinal : invoice.topUp = false := by
    by_contra htop
    rw [checkInvoice, if_pos ((Bool.not_eq_false _).mp htop)] at hcheck
    exact checkTopUp_sized hsized hcheck
  simp only [checkInvoice, hfinal, Bool.false_eq_true, if_false] at hcheck hsigned h
  simp only [authorisedSoFar, bind_eq_ok] at hauthorised
  obtain ⟨ch, -, hauthorised⟩ := hauthorised
  cases hauthorised
  simp only [checkBill, bind_eq_ok, require_eq_ok] at hcheck
  obtain ⟨-, -, hceiling⟩ := hcheck
  cases h
  have hticket := signLatest_ok hsigned
  have htotal := satAdd_authorised_le w cfg client row.payout ch.onChain invoice.amount
  refine ⟨_, row, _, ?_, ⟨rfl, rfl, ?_, ?_, .inr ⟨rfl, signed.2, ch.onChain, ?_⟩⟩, hrow, ?_, rfl⟩
  · rw [Call.about, about_row hrow hst hclient, Signing.key, hticket]
  · simpa only [Signing.key, Signing.claimed, Signing.onChain, Signing.raise, hticket] using htotal
  · exact hceiling.trans hsized.le
  · rw [Signing.key, hticket]
    rfl
  · rw [PendingJob.signedFor, if_neg (by simp [hfinal])]
    exact hsized

theorem adoptAuthorised_signs {message : Text} :
    (adoptAuthorised C o jobId message w).jobs = w.jobs ∧
    (adoptAuthorised C o jobId message w = w ∨
      ∃ x, (Call.adopt message).about o jobId w = some x.key ∧
        Signs jobId w x (adoptAuthorised C o jobId message w)) := by
  unfold adoptAuthorised
  split
  · next theirs row cfg st _ hrow _ hst =>
    split
    · exact ⟨rfl, .inl rfl⟩
    · next client hclient =>
      split
      · exact ⟨rfl, .inl rfl⟩
      · split
        · exact ⟨rfl, .inl rfl⟩
        · next ticket sig hsigned =>
          have hticket := signLatest_ok hsigned
          dsimp only at hticket
          subst hticket
          refine ⟨rfl, .inr ⟨_, ?_, ⟨rfl, rfl, ?_, le_rfl, .inr ⟨rfl, _, _, rfl⟩⟩⟩⟩
          · rw [Call.about, about_row hrow hst hclient]
            rfl
          · simp only [Signing.claimed, Signing.raise, add_zero, le_max_right]
  · exact ⟨rfl, .inl rfl⟩

theorem selfBill_signs {row : PendingJob} {amount : Micros}
    (h : selfBill C o jobId row amount w = .ok w') :
    w'.jobs = w.jobs ∧ ∃ x st client, o.status = .ok st ∧ st.client = some client ∧
      x.key = channelKey client row.payout ∧ Signs jobId w x w' := by
  simp only [selfBill, bind_eq_ok, demand_eq_ok] at h
  obtain ⟨cfg, -, st, hst, client, hclient, -, -, ⟨authorised, onChain⟩, hauthorised, signed, hsigned,
    h⟩ := h
  simp only [authorisedSoFar, bind_eq_ok] at hauthorised
  obtain ⟨ch, -, hauthorised⟩ := hauthorised
  cases hauthorised
  cases h
  have hticket := signLatest_ok hsigned
  refine ⟨rfl, _, st, client, hst, hclient, ?_,
    ⟨rfl, rfl, ?_, Nat.min_le_right _ _, .inr ⟨rfl, signed.2, ch.onChain, ?_⟩⟩⟩
  · rw [Signing.key, hticket]
  · simpa only [Signing.key, Signing.claimed, Signing.onChain, Signing.raise, hticket] using
      satAdd_authorised_le w cfg client row.payout ch.onChain (min amount st.cap)
  · rw [Signing.key, hticket]
    rfl

/-- The record is the same where only a row of a job went. -/
theorem Signs.setJob {x : Signing} {row : Option PendingJob}
    (h : Signs jobId (w.setJob jobId row) x w') : Signs jobId w x w' := ⟨h.job, h.signed, h.total, h.raise_le, h.latest⟩

theorem settleJob_signs {m : Option Meta} :
    (settleJob C o jobId m w).jobs = update w.jobs jobId none ∧
    ((settleJob C o jobId m w).signed = w.signed ∧ (settleJob C o jobId m w).latest = w.latest ∨
      ∃ x, (Call.settle m).about o jobId w = some x.key ∧ Signs jobId w x (settleJob C o jobId m w)) := by
  unfold settleJob
  split
  · next hrow => exact ⟨(update_eq_self_iff.mpr hrow.symm).symm, .inl ⟨rfl, rfl⟩⟩
  · next row hrow =>
    dsimp only
    split
    · exact ⟨rfl, .inl ⟨rfl, rfl⟩⟩
    · split
      · exact ⟨rfl, .inl ⟨rfl, rfl⟩⟩
      · split
        · exact ⟨rfl, .inl ⟨rfl, rfl⟩⟩
        · split
          · next hbill =>
            obtain ⟨hjobs, x, st, client, hst, hclient, hkey, hsigns⟩ := selfBill_signs hbill
            refine ⟨hjobs, .inr ⟨x, ?_, hsigns.setJob⟩⟩
            rw [hkey, Call.about, about_row hrow hst hclient]
          · exact ⟨rfl, .inl ⟨rfl, rfl⟩⟩

/-- A call signs no ticket or one, on the channel it is about. -/
theorem Call.signs (call : Call) (hs : w.Sized) :
    ((call.run C o jobId w).1.signed = w.signed ∧ (call.run C o jobId w).1.latest = w.latest) ∨
    ∃ x, call.about o jobId w = some x.key ∧ Signs jobId w x (call.run C o jobId w).1 := by
  cases call with
  | issue price kind payload client payout =>
    simp only [Call.run]
    split
    · next hissue =>
      obtain ⟨x, row, hkey, hsigns, -⟩ := issueTicket_signs hissue
      exact .inr ⟨x, congrArg some hkey.symm, hsigns⟩
    · exact .inl ⟨rfl, rfl⟩
  | adopt message =>
    rcases (@adoptAuthorised_signs C o jobId w message).2 with h | h
    · exact .inl ⟨congrArg Wallet.signed h, congrArg Wallet.latest h⟩
    · exact .inr h
  | pay invoice =>
    simp only [Call.run]
    split
    · next hpay =>
      obtain ⟨x, -, -, habout, hsigns, -⟩ := payInvoice_signs hs hpay
      exact .inr ⟨x, habout, hsigns⟩
    · exact .inl ⟨rfl, rfl⟩
  | settle m => exact settleJob_signs.2
  | abandon => exact .inl ⟨rfl, rfl⟩

theorem Wallet.Sized.update {row : Option PendingJob} (hs : w.Sized)
    (hjobs : w'.jobs = update w.jobs jobId row)
    (hrow : ∀ r, row = some r → r.ceiling = r.jobCap) : w'.Sized := by
  intro i r hr
  rw [hjobs] at hr
  by_cases hi : i = jobId
  · subst hi
    rw [update_self] at hr
    exact hrow r hr
  · rw [update_of_ne hi] at hr
    exact hs i r hr

theorem Wallet.Sized.forget (hs : w.Sized) (hjobs : w'.jobs = Function.update w.jobs jobId none) :
    w'.Sized := by
  apply hs.update hjobs
  rintro r ⟨⟩

theorem Call.sized (call : Call) (hs : w.Sized) : (call.run C o jobId w).1.Sized := by
  cases call with
  | issue price kind payload client payout =>
    simp only [Call.run]
    split
    · next hissue =>
      obtain ⟨-, row, -, -, hrow, hjobs⟩ := issueTicket_signs hissue
      apply hs.update hjobs
      rintro r ⟨⟩
      exact hrow
    · exact hs
  | adopt message =>
    intro i row hrow
    rw [Call.run, adoptAuthorised_signs.1] at hrow
    exact hs i row hrow
  | pay invoice =>
    simp only [Call.run]
    split
    · next hpay =>
      obtain ⟨-, -, row, -, -, -, hrow, hjobs⟩ := payInvoice_signs hs hpay
      apply hs.update hjobs
      rintro r ⟨⟩
      exact hrow
    · exact hs
  | settle m =>
    have hjobs : (settleJob C o jobId m w).jobs = Function.update w.jobs jobId none :=
      settleJob_signs.1
    exact hs.forget hjobs
  | abandon =>
    have hjobs : (abandonJob jobId w).jobs = Function.update w.jobs jobId none := rfl
    exact hs.forget hjobs

end Calls

section Channel

variable {c : ChannelOn} {x : Signing} {jobId : Uuid} {w w' w₀ : Wallet} {C : Crypto}

theorem record_congr {p q key : Text} (h : eqIgnoreAsciiCase p q = true) (w : Wallet) :
    w.record ⟨p, key⟩ = w.record ⟨q, key⟩ := by
  rw [eqIgnoreAsciiCase_iff] at h
  unfold Wallet.record eqIgnoreAsciiCase
  rw [h]

/-- A channel's record stays, or is the ticket signed, or is lost to a ticket for another pot. -/
theorem Signs.record (h : Signs jobId w x w') (c : ChannelOn) :
    w'.record c = w.record c ∨
    (x.On c ∧ x.raise = x.billed ∧ w'.record c = x.ticket.cumulative) ∨
    (¬ x.On c ∧ w'.record c = 0) := by
  rcases h.latest with hsame | ⟨hraise, sig, onChainPaid, hlatest⟩
  · left
    rw [Wallet.record, hsame, Wallet.record]
  · by_cases hkey : c.key = x.key
    · right
      have hrecord : w'.record c =
          if eqIgnoreAsciiCase x.pot c.pot = true then x.ticket.cumulative else 0 := by
        rw [Wallet.record, hlatest, hkey, update_self, Option.filter_some]
        split
        · rfl
        · rfl
      by_cases hpot : eqIgnoreAsciiCase x.pot c.pot = true
      · exact .inl ⟨⟨hpot, hkey.symm⟩, hraise, hrecord.trans (if_pos hpot)⟩
      · exact .inr ⟨fun hon => hpot hon.1, hrecord.trans (if_neg hpot)⟩
    · left
      rw [Wallet.record, hlatest, update_of_ne hkey, Wallet.record]

/-- A ticket is within what its channel has on record, or is claimed for it, and what it adds. -/
theorem Signs.within (h : Signs jobId w x w') (hon : x.On c) :
    x.ticket.cumulative ≤ max (w.record c) x.claimed + x.raise := by
  have hsame : w.record ⟨x.pot, x.key⟩ = w.record c := by
    rw [record_congr hon.1, hon.2]
  exact hsame ▸ h.total

theorem Signs.record_le (h : Signs jobId w x w') (hon : x.On c) :
    w'.record c ≤ max (w.record c) x.claimed + x.billed := by
  rcases h.record c with hsame | ⟨-, hraise, hrecord⟩ | ⟨hoff, -⟩
  · rw [hsame]
    exact (le_max_left _ _).trans (Nat.le_add_right _ _)
  · rw [hrecord, ← hraise]
    exact h.within hon
  · exact absurd hon hoff

theorem Signs.record_le_of_off (h : Signs jobId w x w') (hoff : ¬ x.On c) :
    w'.record c ≤ w.record c := by
  rcases h.record c with hsame | ⟨hon, -⟩ | ⟨-, hlost⟩
  · exact hsame.le
  · exact absurd hon hoff
  · rw [hlost]
    exact Nat.zero_le _

@[simp] theorem highest_on {f : Signing → Micros} {l : List Signing} (h : x.On c) :
    highest c f (x :: l) = max (f x) (highest c f l) := if_pos h

@[simp] theorem highest_off {f : Signing → Micros} {l : List Signing} (h : ¬ x.On c) :
    highest c f (x :: l) = highest c f l := if_neg h

@[simp] theorem billedOn_on {l : List Signing} (h : x.On c) :
    billedOn c (x :: l) = x.billed + billedOn c l := if_pos h

@[simp] theorem billedOn_off {l : List Signing} (h : ¬ x.On c) :
    billedOn c (x :: l) = billedOn c l := if_neg h

/-- What is on record for a channel was signed. -/
def Wallet.Recorded (w : Wallet) : Prop := ∀ c, w.record c ≤ highestSigned c w.signed

theorem Signs.recorded (h : Signs jobId w x w') (hw : w.Recorded) : w'.Recorded := by
  intro c
  rw [h.signed]
  by_cases hon : x.On c
  · rw [highestSigned, highest_on hon]
    rcases h.record c with hsame | ⟨-, -, hrecord⟩ | ⟨hoff, -⟩
    · exact hsame ▸ (hw c).trans (le_max_right _ _)
    · exact hrecord ▸ le_max_left _ _
    · exact absurd hon hoff
  · rw [highestSigned, highest_off hon]
    exact (h.record_le_of_off hon).trans (hw c)

/-- Since `w₀` every ticket on a channel is of one job and capped, and what is on record for it is
within the claims and the bills. -/
structure Bounded (c : ChannelOn) (jobId : Uuid) (w₀ : Wallet) (new : List Signing) (w : Wallet) :
    Prop where
  signed : w.signed = new ++ w₀.signed
  own : ∀ x ∈ new, x.On c → x.jobId = jobId
  capped : Capped c (highestSigned c w₀.signed) new
  record : w.record c ≤
    max (highestSigned c w₀.signed) (highest c Signing.claimed new) + billedOn c new

/-- What a ticket is taken to start from is within the claims and the bills. -/
theorem Bounded.start_le {new : List Signing} (hb : Bounded c jobId w₀ new w) (claim : Micros) :
    max (w.record c) claim ≤
      max (highestSigned c w₀.signed) (max claim (highest c Signing.claimed new)) + billedOn c new := by
  apply max_le
  · apply hb.record.trans
    exact Nat.add_le_add_right (max_le_max_left _ (le_max_right _ _)) _
  · calc
      claim ≤ max claim (highest c Signing.claimed new) := le_max_left _ _
      _ ≤ max (highestSigned c w₀.signed) _ := le_max_right _ _
      _ ≤ _ := Nat.le_add_right _ _

theorem Signs.bounded {i : Uuid} {new : List Signing} (h : Signs i w x w')
    (hb : Bounded c jobId w₀ new w) (hown : x.On c → i = jobId) :
    Bounded c jobId w₀ (x :: new) w' where
  signed := by rw [h.signed, hb.signed, List.cons_append]
  own := by
    intro y hy hon
    rcases List.mem_cons.mp hy with rfl | hold
    · exact h.job.trans (hown hon)
    · exact hb.own y hold hon
  capped := by
    refine ⟨?_, hb.capped⟩
    intro hon
    rw [highest_on hon]
    exact (h.within hon).trans (Nat.add_le_add (hb.start_le _) h.raise_le)
  record := by
    by_cases hon : x.On c
    · rw [highest_on hon, billedOn_on hon]
      rw [Nat.add_comm x.billed, ← Nat.add_assoc]
      exact (h.record_le hon).trans (Nat.add_le_add_right (hb.start_le _) _)
    · rw [highest_off hon, billedOn_off hon]
      exact (h.record_le_of_off hon).trans hb.record

theorem Call.step_bounded {i : Uuid} {new : List Signing} (call : Call) (o : Outside) (hs : w.Sized)
    (hb : Bounded c jobId w₀ new w) (halone : Alone jobId c.key w (i, call, o)) :
    ∃ new', Bounded c jobId w₀ new' (call.run C o i w).1 := by
  rcases call.signs hs with ⟨hsigned, hlatest⟩ | ⟨x, habout, hsigns⟩
  · refine ⟨new, hsigned ▸ hb.signed, hb.own, hb.capped, ?_⟩
    have hsame : (call.run C o i w).1.record c = w.record c := by
      rw [Wallet.record, hlatest, Wallet.record]
    exact hsame ▸ hb.record
  · refine ⟨x :: new, hsigns.bounded hb ?_⟩
    intro hon
    by_contra hother
    exact halone hother (habout.trans (congrArg some hon.2))

end Channel

section Runs

variable {C : Crypto} {c : ChannelOn} {jobId : Uuid} {w w₀ : Wallet}

theorem empty_sized : Wallet.empty.Sized := by
  intro i row hrow
  cases hrow

theorem sized_of_runs (h : Runs (Wallet.Step C) Wallet.empty w) : w.Sized := by
  apply h.invariant (P := Wallet.Sized) ?_ empty_sized
  rintro w ⟨i, call, o⟩ w' ⟨⟩ hs
  exact call.sized hs

theorem recorded_of_runs (h : Runs (Wallet.Step C) Wallet.empty w) : w.Recorded := by
  have both : w.Sized ∧ w.Recorded := by
    apply h.invariant (P := fun w => w.Sized ∧ w.Recorded) ?_ ⟨empty_sized, fun c => Nat.zero_le _⟩
    rintro w ⟨i, call, o⟩ w' ⟨⟩ ⟨hs, hw⟩
    refine ⟨call.sized hs, ?_⟩
    rcases call.signs hs with ⟨hsigned, hlatest⟩ | ⟨x, -, hsigns⟩
    · intro c
      rw [Wallet.record, hlatest, hsigned]
      exact hw c
    · exact hsigns.recorded hw
  exact both.2

/-- However the calls for a job and those for the others come, while the others leave a channel alone
the tickets signed on it are capped. -/
theorem bounded_of_alone (hbefore : Runs (Wallet.Step C) Wallet.empty w₀)
    (h : Runs (restrict (Wallet.Step C) (Alone jobId c.key)) w₀ w) :
    ∃ new, Bounded c jobId w₀ new w := by
  have hsized := sized_of_runs hbefore
  have hstart : Bounded c jobId w₀ [] w₀ := by
    refine ⟨rfl, nofun, trivial, ?_⟩
    exact (recorded_of_runs hbefore c).trans (le_max_left _ _)
  have both : w.Sized ∧ ∃ new, Bounded c jobId w₀ new w := by
    apply h.invariant (P := fun w => w.Sized ∧ ∃ new, Bounded c jobId w₀ new w) ?_
      ⟨hsized, [], hstart⟩
    rintro w ⟨i, call, o⟩ w' ⟨halone, ⟨⟩⟩ ⟨hs, new, hb⟩
    exact ⟨call.sized hs, call.step_bounded o hs hb halone⟩
  exact both.2

end Runs

end Rootmode.Desktop
