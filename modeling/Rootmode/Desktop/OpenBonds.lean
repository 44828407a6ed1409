import Rootmode.Desktop.Attempt
import Rootmode.Desktop.Issue
import Rootmode.Desktop.Spends

namespace Rootmode.Desktop

open Function
open Lib Lib.Checked Lib.Text Lib.Transition Payments Worker

/-- A bond as it was sent to a provider. -/
structure SentBond where
  jobId : Uuid
  client : Text
  payout : Text
  cumulative : Micros
  chunk : Micros
  deriving DecidableEq

namespace SentBond

variable (b : SentBond)

def key : Text := channelKey b.client b.payout

/-- A ticket that was paid for a final invoice takes the place of the bonds of its job on its channel,
and of every other that it is worth no less than. -/
def SupersededBy (jobId : Uuid) (ticket : SpendTicket) : Prop :=
  b.key = channelKey ticket.client ticket.workerPayout ∧
    (b.jobId = jobId ∨ b.cumulative ≤ ticket.cumulative)

instance (jobId : Uuid) (ticket : SpendTicket) : Decidable (b.SupersededBy jobId ticket) :=
  inferInstanceAs (Decidable (_ ∧ _))

end SentBond

/-- A row of the ledger that stands for a bond. -/
def SpendRow.StandsFor (row : SpendRow) (b : SentBond) : Prop :=
  row.jobId = b.jobId ∧ row.abandoned = true ∧ row.payout = some (lower b.payout) ∧
    row.bondCumulative = some (asI64 b.cumulative) ∧ row.chunkMicros = some (asI64 b.chunk)

instance (row : SpendRow) (b : SentBond) : Decidable (row.StandsFor b) :=
  inferInstanceAs (Decidable (_ ∧ _ ∧ _ ∧ _ ∧ _))

section Calls

variable (C : Crypto) (o : Outside) (jobId : Uuid)

/-- The row of a job that ended without a bill. -/
def abandonedEntry (row : PendingJob) : SpendEntry where
  jobId
  costMicros := 0
  recordedAt := o.now
  cumulativeMicros := none
  payout := some row.payout
  abandoned := true
  bondCumulative := some row.bondCumulative
  chunkMicros := some row.ceiling

/-- The row of a job that was billed, whoever billed it. -/
def billedEntry (row : PendingJob) (amount : Micros) (cumulative : Option Micros) : SpendEntry where
  jobId
  costMicros := amount
  recordedAt := o.now
  cumulativeMicros := cumulative
  payout := some row.payout
  abandoned := false
  bondCumulative := none
  chunkMicros := none

/-- The bond that a call sends. -/
def Call.sends (w : Wallet) : Call → Option SentBond
  | .issue price kind payload client payout =>
    match issueTicket C o jobId price kind payload client payout w with
    | .ok ((bond, _), w') => (w'.jobs jobId).map fun row =>
        ⟨jobId, client, payout, bond.ticket.cumulative, row.ceiling⟩
    | .error _ => none
  | .adopt _ | .pay _ | .settle _ | .abandon => none

/-- The ticket of a final invoice that a call pays. -/
def Call.closes (w : Wallet) : Call → Option SpendTicket
  | .pay invoice =>
    match payInvoice C o jobId invoice w with
    | .ok (paid, _) => if invoice.topUp then none else some paid.ticket
    | .error _ => none
  | .issue _ _ _ _ _ | .adopt _ | .settle _ | .abandon => none

/-- What a call writes into the ledger. -/
def Call.entry (w : Wallet) : Call → Option SpendEntry
  | .issue _ _ _ _ _ | .adopt _ => none
  | .pay invoice =>
    match w.jobs jobId, payInvoice C o jobId invoice w with
    | some row, .ok (paid, _) =>
      if invoice.topUp then none
      else some (billedEntry o jobId row invoice.amount (some paid.ticket.cumulative))
    | _, _ => none
  | .settle m =>
    match (w.jobs jobId).filter (! ·.paid), m with
    | none, _ => none
    | some row, none => some (abandonedEntry o jobId row)
    | some row, some m =>
      if meteredMicros row m = 0 then some (billedEntry o jobId row 0 none)
      else
        match selfBill C o jobId row (meteredMicros row m) (w.setJob jobId none) with
        | .ok w' => w'.signed.head?.map fun bill =>
            billedEntry o jobId row bill.billed (some bill.ticket.cumulative)
        | .error _ => none
  | .abandon => ((w.jobs jobId).filter (! ·.paid)).map (abandonedEntry o jobId)

end Calls

/-- A row is written down, if there is one and it can be. -/
def Store.enter (db : Store) (stored : Bool) : Option SpendEntry → Store
  | some entry => if stored then db.recordSpend entry else db
  | none => db

/-- The bonds that are left when a ticket was paid. -/
def stillHeld (id : Uuid) (held : List SentBond) : Option SpendTicket → List SentBond
  | some ticket => held.filter fun b => ¬ b.SupersededBy id ticket
  | none => held

/-- The jobs of a desktop, its ledger, and the bonds that providers hold. -/
structure Desk where
  phase : Uuid → Phase
  wallet : Wallet
  db : Store
  held : List SentBond

inductive DeskAct
  | turn (id : Uuid) (call : Option Call) (o : Outside) (stored : Bool)
  | scan (found : List Settlement) (resolves : Bool)

namespace Desk

variable (d : Desk)

/-- The turn of a job, and whether its row could be written down. -/
def after (C : Crypto) (id : Uuid) (call : Option Call) (next : Bool → Phase) (o : Outside)
    (stored : Bool) : Desk where
  phase := update d.phase id (next (runCall id C o d.wallet call).2)
  wallet := (runCall id C o d.wallet call).1
  db := d.db.enter stored (call.bind (Call.entry C o id d.wallet))
  held := (call.bind (Call.sends C o id d.wallet)).toList ++
    stillHeld id d.held (call.bind (Call.closes C o id d.wallet))

/-- A bond whose settlement is on record, with a row to charge it to. -/
def Resolves (db : Store) (b : SentBond) : Prop :=
  ∃ row ∈ db.spends, row.StandsFor b ∧ ∃ t ∈ db.settlements, Store.Kept row t

instance (db : Store) (b : SentBond) : Decidable (Resolves db b) :=
  inferInstanceAs (Decidable (∃ row ∈ db.spends, _))

/-- A scan of the chain for settlements. -/
def afterScan (found : List Settlement) (resolves : Bool) : Desk :=
  let db := found.foldl Store.recordSettlement d.db
  if resolves then { d with db := db.resolveAbandoned, held := d.held.filter fun b => ¬ Resolves db b }
  else { d with db }

end Desk

section Books

/-- A bond of a job that is still at work. -/
def InProgress (w : Wallet) (b : SentBond) : Prop :=
  ∃ row, w.jobs b.jobId = some row ∧ row.paid = false ∧ row.payout = b.payout ∧
    row.bondCumulative = b.cumulative ∧ row.ceiling = b.chunk

/-- A bond on the books belongs to a job at work or has its row. -/
def Stands (w : Wallet) (db : Store) (b : SentBond) : Prop :=
  InProgress w b ∨ ∃ row ∈ db.spends, row.StandsFor b

/-- Every bond that a provider holds is on the books. -/
def Desk.OnBooks (d : Desk) : Prop := ∀ b ∈ d.held, Stands d.wallet d.db b

end Books

inductive DeskStep (C : Crypto) : Labelled Desk DeskAct
  | turn {d call next} (id : Uuid) (o : Outside) (stored : Bool) :
      Turn id (expectedSha256 d.wallet id) (d.phase id) call next →
      DeskStep C d (.turn id call o stored) (d.after C id call next o stored)
  | scan {d} (found : List Settlement) (resolves : Bool) :
      DeskStep C d (.scan found resolves) (d.afterScan found resolves)

/-- The row of an abandoned job stands for a bond. -/
def PendingJob.Covers (row : PendingJob) (b : SentBond) : Prop :=
  lower row.payout = lower b.payout ∧ row.bondCumulative = b.cumulative ∧ row.ceiling = b.chunk

instance (row : PendingJob) (b : SentBond) : Decidable (row.Covers b) :=
  inferInstanceAs (Decidable (_ ∧ _ ∧ _))

/-- A job's row takes the place of none that a bond still needs: when it is abandoned its held bonds are
what its new row says, when it is settled without an invoice it has none, and when an invoice is paid
they are on the invoice's channel. -/
def SparesRows (d : Desk) : DeskAct → Prop
  | .turn id (some .abandon) _ stored | .turn id (some (.settle none)) _ stored =>
    ∀ row, d.wallet.jobs id = some row → row.paid = false →
      stored = true ∧ ∀ b ∈ d.held, b.jobId = id → row.Covers b
  | .turn id (some (.settle (some _))) _ _ =>
    ∀ row, d.wallet.jobs id = some row → row.paid = false → ∀ b ∈ d.held, b.jobId ≠ id
  | .turn id (some (.pay invoice)) o _ =>
    ∀ row, d.wallet.jobs id = some row → row.paid = false → checkInvoice o row invoice = .ok ⟨⟩ →
      ∀ st client, o.status = .ok st → st.client = some client → invoice.amount ≤ st.cap →
        ∀ b ∈ d.held, b.jobId = id → b.key = channelKey client row.payout
  | .turn _ (some (.issue _ _ _ _ _)) _ _ | .turn _ (some (.adopt _)) _ _ | .turn _ none _ _
  | .scan _ _ => True

section Effects

variable {C : Crypto} {o : Outside} {id : Uuid} {w w' : Wallet}

/-- What a call does to its job and the ledger: nothing; a bond goes out; a final invoice is paid; or
the job is let go, billed already, abandoned, or with a bill of the desktop's own. -/
inductive Booked (o : Outside) (id : Uuid) (w w' : Wallet) :
    Call → Option SentBond → Option SpendTicket → Option SpendEntry → Prop
  | rests {call} : w'.jobs = w.jobs → Booked o id w w' call none none none
  | bonds {price kind payload client payout row} : w'.jobs = update w.jobs id (some row) →
      row.paid = false → row.payout = payout →
      Booked o id w w' (.issue price kind payload client payout)
        (some ⟨id, client, payout, row.bondCumulative, row.ceiling⟩) none none
  | pays {invoice row row' st client ticket entry} : w.jobs id = some row → row.paid = false →
      checkInvoice o row invoice = .ok ⟨⟩ → o.status = .ok st → st.client = some client →
      invoice.amount ≤ st.cap → channelKey ticket.client ticket.workerPayout =
        channelKey client row.payout →
      w'.jobs = update w.jobs id (some row') → entry.jobId = id →
      Booked o id w w' (.pay invoice) none (some ticket) (some entry)
  | ends {call} : (∀ row, w.jobs id = some row → row.paid = true) →
      w'.jobs = update w.jobs id none → Booked o id w w' call none none none
  | abandons {call row} : (call = .abandon ∨ call = .settle none) → w.jobs id = some row →
      row.paid = false → w'.jobs = update w.jobs id none →
      Booked o id w w' call none none (some (abandonedEntry o id row))
  | bills {m row entry} : w.jobs id = some row → row.paid = false →
      w'.jobs = update w.jobs id none → (∀ e ∈ entry, e.jobId = id) →
      Booked o id w w' (.settle (some m)) none none entry

theorem payInvoice_books {invoice : JobInvoice} {pay : JobPay} (hs : w.Sized)
    (h : payInvoice C o id invoice w = .ok (pay, w')) :
    ∃ row st client row', w.jobs id = some row ∧ row.paid = false ∧
      checkInvoice o row invoice = .ok ⟨⟩ ∧ o.status = .ok st ∧ st.client = some client ∧
      invoice.amount ≤ st.cap ∧ invoice.topUp = false ∧
      channelKey pay.ticket.client pay.ticket.workerPayout = channelKey client row.payout ∧
      w'.jobs = update w.jobs id (some row') := by
  simp only [payInvoice, bind_eq_ok, demand_eq_ok, require_eq_ok] at h
  obtain ⟨-, -, -, -, row, hrow, -, hpaid, u, hcheck, cfg, -, st, hst, client, hclient, -, hcap, -, -,
    ⟨authorised, onChain⟩, -, signed, hsigned, h⟩ := h
  have hfinal : invoice.topUp = false := by
    by_contra htop
    rw [checkInvoice, if_pos ((Bool.not_eq_false _).mp htop)] at hcheck
    exact checkTopUp_sized (hs id row hrow) hcheck
  simp only [hfinal, Bool.false_eq_true, if_false] at h
  cases h
  refine ⟨row, st, client, _, hrow, hpaid, hcheck, hst, hclient, hcap, hfinal, ?_, rfl⟩
  rw [jobPay, signLatest_ok hsigned]

/-- A job that is settled without an invoice is billed under its own name. -/
theorem billed_jobId {row : PendingJob} {m : Meta} {entry : SpendEntry}
    (h : entry ∈ (if meteredMicros row m = 0 then some (billedEntry o id row 0 none)
      else
        match selfBill C o id row (meteredMicros row m) (w.setJob id none) with
        | .ok w' => w'.signed.head?.map fun bill =>
            billedEntry o id row bill.billed (some bill.ticket.cumulative)
        | .error _ => none)) : entry.jobId = id := by
  split at h
  · cases h
    rfl
  · split at h
    · obtain ⟨bill, -, rfl⟩ := Option.map_eq_some_iff.mp h
      rfl
    · cases h

theorem Call.booked (call : Call) (hs : w.Sized) :
    Booked o id w (call.run C o id w).1 call (call.sends C o id w) (call.closes C o id w)
      (call.entry C o id w) := by
  cases call with
  | issue price kind payload client payout =>
    simp only [Call.run, Call.sends, Call.closes, Call.entry]
    cases hissue : issueTicket C o id price kind payload client payout w with
    | error e => exact .rests rfl
    | ok r =>
      obtain ⟨⟨bond, reserve⟩, w'⟩ := r
      obtain ⟨t, hissued⟩ := issueTicket_eq_ok.mp hissue
      let row : PendingJob :=
        { price, kind, paid := false, sha256 := none, ceiling := t.need, jobCap := t.need, cost := none
          payout, bondCumulative := t.cumulative client payout w }
      have hjobs : w'.jobs = update w.jobs id (some row) := congrArg Wallet.jobs hissued.wallet
      have hcumulative : bond.ticket.cumulative = row.bondCumulative :=
        congrArg SpendTicket.cumulative hissued.ticket
      simp only [hjobs, hcumulative, update_self, Option.map_some]
      exact .bonds hjobs rfl rfl
  | adopt message => exact .rests adoptAuthorised_signs.1
  | pay invoice =>
    simp only [Call.run, Call.sends, Call.closes, Call.entry]
    cases hpay : payInvoice C o id invoice w with
    | error e =>
      cases w.jobs id <;> exact .rests rfl
    | ok r =>
      obtain ⟨pay, w'⟩ := r
      obtain ⟨row, st, client, row', hrow, hpaid, hcheck, hst, hclient, hcap, hfinal, hkey, hjobs⟩ :=
        payInvoice_books hs hpay
      simp only [hrow, hfinal, Bool.false_eq_true, if_false]
      exact .pays hrow hpaid hcheck hst hclient hcap hkey hjobs rfl
  | settle m =>
    have hjobs : ((Call.settle m).run C o id w).1.jobs = update w.jobs id none := settleJob_signs.1
    simp only [Call.sends, Call.closes, Call.entry]
    cases hrow : w.jobs id with
    | none => exact .ends (by simp [hrow]) hjobs
    | some row =>
      cases hpaid : row.paid with
      | true =>
        simp only [Option.filter_some, hpaid]
        exact .ends (by simp [hrow, hpaid]) hjobs
      | false =>
        simp only [Option.filter_some, hpaid]
        cases m with
        | none => exact .abandons (.inr rfl) hrow hpaid hjobs
        | some m =>
          refine .bills hrow hpaid hjobs ?_
          intro entry hentry
          exact billed_jobId hentry
  | abandon =>
    have hjobs : ((Call.abandon).run C o id w).1.jobs = update w.jobs id none := rfl
    simp only [Call.sends, Call.closes, Call.entry]
    cases hrow : w.jobs id with
    | none => exact .ends (by simp [hrow]) hjobs
    | some row =>
      cases hpaid : row.paid with
      | true =>
        simp only [Option.filter_some, hpaid]
        exact .ends (by simp [hrow, hpaid]) hjobs
      | false =>
        simp only [Option.filter_some, hpaid]
        exact .abandons (.inl rfl) hrow hpaid hjobs

end Effects

section Runs

variable {C : Crypto} {o : Outside} {id : Uuid} {w w' : Wallet} {d d' : Desk} {a : DeskAct}
  {phase : Phase} {expected : Option Text} {call : Option Call} {next : Bool → Phase} {b : SentBond}
  {db db' : Store}

/-- A job that asks for a provider, or whether to. -/
def Phase.Idle : Phase → Prop
  | .trying | .deciding => True
  | .streaming _ _ _ | .settling _ | .nothing | .failing _ | .over => False

section Messages

variable {spoke terminal stored : Bool} {lastMeta : Option Meta} {m : WorkerMessage}

theorem onMessage_busy
    (h : Phase.onMessage id expected spoke terminal lastMeta stored m = (call, next)) (ok : Bool) :
    ¬ (next ok).Idle := by
  obtain rfl : (Phase.onMessage id expected spoke terminal lastMeta stored m).2 = next := by rw [h]
  clear h
  cases m with
  | jobDelta | peerAnnounce | unknown => exact fun h => h
  | jobStatus | jobResult | jobInvoice =>
    simp only [Phase.onMessage]
    split_ifs <;> exact fun h => h

theorem onMessage_ne_issue {price : Price} {kind : JobKind} {payload : JobPayload}
    {client payout : Text}
    (h : Phase.onMessage id expected spoke terminal lastMeta stored m = (call, next)) :
    call ≠ some (.issue price kind payload client payout) := by
  cases m with
  | jobDelta | jobInvoice | peerAnnounce | unknown =>
    cases h
    rintro ⟨⟩
  | jobStatus | jobResult =>
    simp only [Phase.onMessage] at h
    split_ifs at h <;> cases h <;> rintro ⟨⟩

end Messages

/-- A job is idle only after it was let go. -/
theorem Turn.idle (h : Turn id expected phase call next) (ok : Bool) (hidle : (next ok).Idle) :
    call = some .abandon ∨ (call = none ∧ phase.Idle) := by
  cases h with
  | fallback => exact .inr ⟨rfl, trivial⟩
  | letGo | fails => exact .inl rfl
  | message m stored hmessage => exact absurd hidle (onMessage_busy hmessage ok)
  | bond => cases ok <;> exact hidle.elim
  | unreachable | unpriced | unnamed | closed | broken | silent | settle | giveUp => exact hidle.elim

theorem Turn.idle_of_issue {price : Price} {kind : JobKind} {payload : JobPayload}
    {client payout : Text}
    (h : Turn id expected phase (some (.issue price kind payload client payout)) next) :
    phase.Idle := by
  cases h with
  | bond => trivial
  | message m stored hmessage => exact absurd rfl (onMessage_ne_issue hmessage)

/-- What keeps bonds on the books: no job has prepaid less than its cap, and an idle job has no bond of
its own out. -/
structure Desk.Sound (d : Desk) : Prop where
  sized : d.wallet.Sized
  idle : ∀ id, (d.phase id).Idle → d.wallet.jobs id = none
  books : d.OnBooks

theorem Booked.jobs_of_ne {sends : Option SentBond} {closes : Option SpendTicket}
    {entry : Option SpendEntry} {call : Call} (h : Booked o id w w' call sends closes entry)
    {i : Uuid} (hne : i ≠ id) : w'.jobs i = w.jobs i := by
  cases h with
  | rests hjobs => rw [hjobs]
  | bonds hjobs | ends _ hjobs | abandons _ _ _ hjobs | bills _ _ hjobs => rw [hjobs, update_of_ne hne]
  | pays _ _ _ _ _ _ _ hjobs => rw [hjobs, update_of_ne hne]

theorem mem_enter_of_ne {entry : Option SpendEntry} {stored : Bool} {row : SpendRow}
    (hrow : row ∈ db.spends) (hentry : ∀ e ∈ entry, row.jobId ≠ e.jobId) :
    row ∈ (db.enter stored entry).spends := by
  cases entry with
  | none => exact hrow
  | some entry =>
    cases stored with
    | false => exact hrow
    | true =>
      have hne : row.jobId ≠ entry.row.jobId := hentry entry rfl
      exact Table.mem_put_of_ne hrow hne

/-- A call for another job leaves a bond on the books. -/
theorem Stands.of_ne {entry : Option SpendEntry} {stored : Bool} (h : Stands w db b)
    (hne : b.jobId ≠ id) (hjobs : w'.jobs b.jobId = w.jobs b.jobId)
    (hentry : ∀ e ∈ entry, e.jobId = id) : Stands w' (db.enter stored entry) b := by
  rcases h with ⟨row, hrow, hrest⟩ | ⟨row, hrow, hstands⟩
  · exact .inl ⟨row, hjobs ▸ hrow, hrest⟩
  · refine .inr ⟨row, mem_enter_of_ne hrow ?_, hstands⟩
    intro e he
    rw [hstands.1, hentry e he]
    exact hne

theorem Booked.entry_jobId {sends : Option SentBond} {closes : Option SpendTicket}
    {entry : Option SpendEntry} {call : Call} (h : Booked o id w w' call sends closes entry) :
    ∀ e ∈ entry, e.jobId = id := by
  cases h with
  | rests | bonds | ends => rintro e ⟨⟩
  | pays _ _ _ _ _ _ _ _ hentry =>
    rintro e ⟨⟩
    exact hentry
  | abandons =>
    rintro e ⟨⟩
    rfl
  | bills _ _ _ hentry => exact hentry

theorem mem_stillHeld {closes : Option SpendTicket} {held : List SentBond} :
    b ∈ stillHeld id held closes ↔ b ∈ held ∧ ∀ ticket ∈ closes, ¬ b.SupersededBy id ticket := by
  cases closes with
  | none => simp [stillHeld]
  | some ticket => simp [stillHeld]

/-- The bonds that a call leaves with their job stay on the books. -/
theorem Booked.stands_own {sends : Option SentBond} {closes : Option SpendTicket}
    {entry : Option SpendEntry} {call : Call} {stored : Bool}
    (h : Booked o id d.wallet w' call sends closes entry)
    (hspares : SparesRows d (.turn id (some call) o stored))
    (hissue : ∀ price kind payload client payout, call = .issue price kind payload client payout →
      d.wallet.jobs id = none)
    (hheld : b ∈ d.held) (hopen : ∀ ticket ∈ closes, ¬ b.SupersededBy id ticket) (hb : b.jobId = id)
    (hstands : Stands d.wallet d.db b) : Stands w' (d.db.enter stored entry) b := by
  cases h with
  | rests hjobs =>
    rcases hstands with ⟨row, hrow, hrest⟩ | hrow
    · exact .inl ⟨row, hjobs ▸ hrow, hrest⟩
    · exact .inr hrow
  | bonds _ _ _ =>
    have hnone := hissue _ _ _ _ _ rfl
    rcases hstands with ⟨row, hrow, -⟩ | hrow
    · rw [hb, hnone] at hrow
      cases hrow
    · exact .inr hrow
  | pays hrow hpaid hcheck hst hclient hcap hkey =>
    have hsame := hspares _ hrow hpaid hcheck _ _ hst hclient hcap b hheld hb
    exact absurd ⟨hsame.trans hkey.symm, .inl hb⟩ (hopen _ rfl)
  | ends hpaid =>
    rcases hstands with ⟨row, hrow, hunpaid, -⟩ | hrow
    · rw [hb] at hrow
      cases hunpaid.symm.trans (hpaid row hrow)
    · exact .inr hrow
  | @abandons _ row hcall hrow hpaid =>
    have hcovers : stored = true ∧ ∀ b ∈ d.held, b.jobId = id → row.Covers b := by
      rcases hcall with rfl | rfl <;> exact hspares _ hrow hpaid
    obtain ⟨rfl, hcovers⟩ := hcovers
    obtain ⟨hpayout, hbond, hchunk⟩ := hcovers b hheld hb
    refine .inr ⟨_, Table.mem_put_self, hb.symm, rfl, ?_, ?_, ?_⟩
    · exact congrArg some hpayout
    · exact congrArg (some ∘ asI64) hbond
    · exact congrArg (some ∘ asI64) hchunk
  | bills hrow hpaid => exact absurd hb (hspares _ hrow hpaid b hheld)

theorem Booked.stands_sent {sends : Option SentBond} {closes : Option SpendTicket}
    {entry : Option SpendEntry} {call : Call} (h : Booked o id w w' call sends closes entry)
    (hb : b ∈ sends) : InProgress w' b := by
  cases h with
  | bonds hjobs hpaid hpayout =>
    cases hb
    exact ⟨_, by rw [hjobs, update_self], hpaid, hpayout, rfl, rfl⟩
  | rests | pays | ends | abandons | bills => cases hb

/-- A turn keeps bonds on the books. -/
theorem Desk.Sound.turn {stored : Bool}
    (hturn : Turn id (expectedSha256 d.wallet id) (d.phase id) call next)
    (hspares : SparesRows d (.turn id call o stored)) (hs : d.Sound) :
    (d.after C id call next o stored).Sound := by
  cases call with
  | none =>
    refine ⟨hs.sized, ?_, hs.books⟩
    intro i hi
    by_cases hid : i = id
    · subst hid
      have hidle : (next true).Idle := by simpa [Desk.after, runCall] using hi
      rcases hturn.idle true hidle with h | ⟨-, h⟩
      · cases h
      · exact hs.idle i h
    · exact hs.idle i (by simpa [Desk.after, update_of_ne hid] using hi)
  | some call =>
    have hbooked := @Call.booked C o id d.wallet call hs.sized
    refine ⟨call.sized hs.sized, ?_, ?_⟩
    · intro i hi
      by_cases hid : i = id
      · subst hid
        have hidle : (next (call.run C o i d.wallet).2).Idle := by
          simpa [Desk.after, runCall] using hi
        rcases hturn.idle _ hidle with h | ⟨h, -⟩
        · cases h
          exact update_self ..
        · cases h
      · have hold : (d.phase i).Idle := by simpa [Desk.after, update_of_ne hid] using hi
        exact (hbooked.jobs_of_ne hid).trans (hs.idle i hold)
    · intro b hb
      rcases List.mem_append.mp hb with hsent | hleft
      · exact .inl (hbooked.stands_sent (Option.mem_toList.mp hsent))
      · obtain ⟨hheld, hopen⟩ := mem_stillHeld.mp hleft
        by_cases hid : b.jobId = id
        · refine hbooked.stands_own hspares ?_ hheld hopen hid (hs.books b hheld)
          rintro _ _ _ _ _ rfl
          exact hs.idle id hturn.idle_of_issue
        · exact (hs.books b hheld).of_ne hid (hbooked.jobs_of_ne hid) hbooked.entry_jobId

theorem StandsFor.resolved {row : SpendRow} (h : row.StandsFor b) : (db.resolved row).StandsFor b := by
  rcases Store.resolved_cases db row with hsame | ⟨-, -, chunk, -, hrow⟩
  · rwa [hsame]
  · rw [hrow]
    exact h

theorem foldl_recordSettlement_spends (found : List Settlement) :
    (found.foldl Store.recordSettlement db).spends = db.spends := by
  induction found generalizing db with
  | nil => rfl
  | cons t found ih => exact ih

/-- A scan takes no row away. -/
theorem Desk.Sound.scan (found : List Settlement) (resolves : Bool) (hs : d.Sound) :
    (d.afterScan found resolves).Sound := by
  have hspends : (found.foldl Store.recordSettlement d.db).spends = d.db.spends :=
    foldl_recordSettlement_spends found
  unfold Desk.afterScan
  dsimp only
  split
  · refine ⟨hs.sized, hs.idle, ?_⟩
    intro b hb
    rcases hs.books b (List.mem_of_mem_filter hb) with hwork | ⟨row, hrow, hstands⟩
    · exact .inl hwork
    · refine .inr ⟨_, List.mem_map_of_mem ?_, StandsFor.resolved hstands⟩
      rw [hspends]
      exact hrow
  · refine ⟨hs.sized, hs.idle, ?_⟩
    intro b hb
    rcases hs.books b hb with hwork | ⟨row, hrow, hstands⟩
    · exact .inl hwork
    · exact .inr ⟨row, hspends ▸ hrow, hstands⟩

theorem Desk.Sound.step (h : restrict (DeskStep C) SparesRows d a d') (hs : d.Sound) : d'.Sound := by
  obtain ⟨hspares, hstep⟩ := h
  cases hstep with
  | turn id o stored hturn => exact hs.turn hturn hspares
  | scan found resolves => exact hs.scan found resolves

/-- A desktop that starts with no job at work, whatever tickets and ledger it has. -/
def Desk.start (w : Wallet) (db : Store) : Desk where
  phase _ := .trying
  wallet := { w with jobs := fun _ => none }
  db := db
  held := []

theorem Desk.Sound.start : (Desk.start w db).Sound where
  sized := by rintro _ _ ⟨⟩
  idle _ _ := rfl
  books := by rintro _ ⟨⟩

/-- In every run in which no row takes the place of one that a bond still needs, every bond that a
provider holds is on the books. -/
theorem on_books_of_spares (h : Runs (restrict (DeskStep C) SparesRows) (.start w db) d) :
    d.OnBooks :=
  (h.invariant (P := Desk.Sound) Desk.Sound.step Desk.Sound.start).books

end Runs

section Local

/-- A second provider's payout. -/
def secondWorker : Address := 0xcafe

def bondFor (payout : Address) : Call :=
  .issue (Price.new 20) chat.kind chat (addressText LocalChain.client) (addressText payout)

/-- A provider of job 7 is sent a bond and says nothing. -/
def silentAfter (payout : Address) (d : Desk) : Desk :=
  (d.after LocalChain.crypto 7 (some (bondFor payout))
    (fun bonded => if bonded then .streaming false false none else .failing .over) outside true).after
    LocalChain.crypto 7 none (fun _ => .nothing) outside true

/-- It is let go, and the job is asked of another one. -/
def triedAfter (payout : Address) (d : Desk) : Desk :=
  ((silentAfter payout d).after LocalChain.crypto 7 (some .abandon) (fun _ => .deciding) outside
    true).after LocalChain.crypto 7 none (fun _ => .trying) outside true

variable {d : Desk} {payout : Address} {M : Desk → DeskAct → Prop}

theorem phase_after {call : Option Call} {next : Bool → Phase} {stored : Bool} {o : Outside} :
    (d.after LocalChain.crypto 7 call next o stored).phase 7 =
      next (runCall 7 LocalChain.crypto o d.wallet call).2 := by
  simp [Desk.after]

/-- A turn of job 7 in the phase it is in. -/
theorem DeskStep.of_phase {phase : Phase} {call : Option Call} {next : Bool → Phase}
    (hphase : d.phase 7 = phase) (hturn : Turn 7 (expectedSha256 d.wallet 7) phase call next) :
    DeskStep LocalChain.crypto d (.turn 7 call outside true)
      (d.after LocalChain.crypto 7 call next outside true) := by
  subst hphase
  exact .turn 7 outside true hturn

theorem tried_runs (hphase : d.phase 7 = .trying)
    (hnamed : namedPayout (some (addressText payout)) = .ok (addressText payout))
    (hok : ((bondFor payout).run LocalChain.crypto outside 7 d.wallet).2 = true)
    (hnone : ∀ d, M d (.turn 7 none outside true))
    (hissue : M d (.turn 7 (some (bondFor payout)) outside true))
    (habandon : M (silentAfter payout d) (.turn 7 (some .abandon) outside true)) :
    Runs (restrict (DeskStep LocalChain.crypto) M) d (triedAfter payout d) := by
  have hpriced : 0 < (Price.new 20).amount := by decide +kernel
  have hstart : Runs (restrict (DeskStep LocalChain.crypto) M) d d := .refl d
  have hbonded := hstart.tail ⟨hissue, .of_phase hphase (.bond hpriced hnamed)⟩
  have hstreaming : (d.after LocalChain.crypto 7 (some (bondFor payout))
      (fun bonded => if bonded then .streaming false false none else .failing .over) outside
      true).phase 7 = .streaming false false none := by
    rw [phase_after, runCall, hok]
    rfl
  have hsilent := hbonded.tail ⟨hnone _, .of_phase hstreaming .silent⟩
  have hletGo := hsilent.tail ⟨habandon, .of_phase phase_after .letGo⟩
  exact hletGo.tail ⟨hnone _, .of_phase phase_after .fallback⟩

theorem named_local : namedPayout (some (addressText LocalChain.worker)) =
    .ok (addressText LocalChain.worker) := by decide

/-- The bond of an abandoned job is on the books. -/
theorem on_books_of_spares_local :
    let d := triedAfter LocalChain.worker (.start .empty {})
    d.OnBooks ∧ d.held.length = 1 ∧ d.db.spends.length = 1 := by
  intro d
  have hspares : SparesRows (silentAfter LocalChain.worker (.start .empty {}))
      (.turn 7 (some .abandon) outside true) := by
    have hcovers : ∀ row ∈ (silentAfter LocalChain.worker (.start .empty {})).wallet.jobs 7,
        ∀ b ∈ (silentAfter LocalChain.worker (.start .empty {})).held, row.Covers b := by
      decide +kernel
    exact fun row hrow _ => ⟨rfl, fun b hb _ => hcovers row hrow b hb⟩
  have hrun := tried_runs (M := SparesRows) (d := .start .empty {}) rfl named_local
    (by decide +kernel) (fun _ => trivial) trivial hspares
  exact ⟨on_books_of_spares hrun, by decide +kernel, by decide +kernel⟩

/-- The bond of a first provider is off the books once a second one was abandoned. -/
theorem not_on_books_local :
    ∃ d, Runs (DeskStep LocalChain.crypto) (.start .empty {}) d ∧ ¬ d.OnBooks := by
  have hfirst := tried_runs (M := fun _ _ => True) (d := .start .empty {}) rfl named_local
    (by decide +kernel) (fun _ => trivial) trivial trivial
  have hsecond := tried_runs (M := fun _ _ => True)
    (d := triedAfter LocalChain.worker (.start .empty {})) phase_after
    (show namedPayout (some (addressText secondWorker)) = _ by decide)
    (by decide +kernel) (fun _ => trivial) trivial trivial
  refine ⟨_, (hfirst.trans hsecond).of_restrict, ?_⟩
  have hlost : ∃ b ∈ (triedAfter secondWorker (triedAfter LocalChain.worker (.start .empty {}))).held,
      (triedAfter secondWorker (triedAfter LocalChain.worker (.start .empty {}))).wallet.jobs
        b.jobId = none ∧
      ∀ row ∈ (triedAfter secondWorker (triedAfter LocalChain.worker (.start .empty {}))).db.spends,
        ¬ row.StandsFor b := by
    decide +kernel
  intro hbooks
  obtain ⟨b, hb, hidle, hnone⟩ := hlost
  rcases hbooks b hb with ⟨row, hrow, -⟩ | ⟨row, hrow, hstands⟩
  · cases hidle.symm.trans hrow
  · exact hnone row hrow hstands

end Local

end Rootmode.Desktop
