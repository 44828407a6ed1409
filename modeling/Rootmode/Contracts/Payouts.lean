import Rootmode.Contracts.Settlement

namespace Rootmode.Pot

open Lib Lib.Checked Lib.TotalMap Lib.Transition

variable {τ : Type} {E : Deployment τ} {m : Msg} {w w' : World τ} {client workerPayout : Address}

/-- What one payout sends out. -/
structure Payout where
  toWorker : ℕ
  fee : ℕ
  deriving DecidableEq

/-- How `_pay` splits an amount. -/
def Payout.of (amount : ℕ) : Payout where
  toWorker := amount - feeOf amount
  fee := feeOf amount

def Payout.total (p : Payout) : ℕ := p.toWorker + p.fee

/-- What a call did for a channel: a ticket was recognised, a payout made. -/
structure Receipt where
  recognized : Option SpendTicket
  payout : Option Payout
  deriving DecidableEq

def tickets (log : List Receipt) : List SpendTicket := log.filterMap Receipt.recognized

def payouts (log : List Receipt) : List Payout := log.filterMap Receipt.payout

/-- What a call does for the channel of `client` with `workerPayout` if it takes effect. -/
def receiptOf (client workerPayout : Address) (s : Storage) : Call → List Receipt
  | .commit c p cumulative deadline _ =>
    if c = client ∧ p = workerPayout then [⟨some ⟨c, p, cumulative, deadline⟩, none⟩] else []
  | .settle c p cumulative deadline _ =>
    if c = client ∧ p = workerPayout then
      [⟨some ⟨c, p, cumulative, deadline⟩, some (.of (cumulative - (s.channels c p).paid))⟩]
    else []
  | .collect c p =>
    if c = client ∧ p = workerPayout then
      [⟨none, some (.of ((s.channels c p).earned - (s.channels c p).paid))⟩]
    else []
  | _ => []

/-- What a step does for the channel. -/
def receipts (E : Deployment τ) (client workerPayout : Address) (s : Chain τ) : Act → List Receipt
  | .call m c => if (exec E m c s.world).isOk then receiptOf client workerPayout s.world.pot c else []
  | .token _ => []

/-- The transfers of the payouts, in their order. -/
def sendAll (E : Deployment τ) (workerPayout : Address) : List Payout → τ → Except Revert τ
  | [], usdc => .ok usdc
  | p :: ps, usdc => do
    let usdc ← push E workerPayout p.toWorker usdc
    let usdc ← pushSome E E.feeVault p.fee usdc
    sendAll E workerPayout ps usdc

/-- The calls that work on one channel. -/
def Call.On (client workerPayout : Address) (m : Msg) : Call → Prop
  | .commit c p _ _ _ | .settle c p _ _ _ | .collect c p | .close c p =>
    c = client ∧ p = workerPayout
  | .requestClose p => m.sender = client ∧ p = workerPayout
  | _ => False

section Split

theorem Payout.of_total (amount : ℕ) : (Payout.of amount).total = amount :=
  Nat.sub_add_cancel (feeOf_le amount)

theorem Payout.of_fee (amount : ℕ) : (Payout.of amount).fee = feeOf amount := rfl

theorem feeOf_bounds (amount : ℕ) :
    feeOf amount * 10000 ≤ amount * feeBps ∧ amount * feeBps < (feeOf amount + 1) * 10000 := by
  unfold feeOf feeBps
  omega

end Split

/-- What a receipt says about the channel before and after. -/
inductive Books (ch ch' : Channel) : List Receipt → Prop
  | none : ch'.earned = ch.earned → ch'.paid = ch.paid → Books ch ch' []
  | commit {t : SpendTicket} : ch.earned < t.cumulative → ch'.earned = t.cumulative →
      ch'.paid = ch.paid → Books ch ch' [⟨some t, Option.none⟩]
  | settle {t : SpendTicket} : ch.earned < t.cumulative → ch'.earned = t.cumulative →
      ch'.paid = t.cumulative → Books ch ch' [⟨some t, some (.of (t.cumulative - ch.paid))⟩]
  | collect : ch.paid < ch.earned → ch'.earned = ch.earned → ch'.paid = ch.earned →
      Books ch ch' [⟨Option.none, some (.of (ch.earned - ch.paid))⟩]

section Calls

variable {c : Call}

/-- Where a call is not for the channel, nothing is earned or paid on it. -/
theorem books_of_other (h : exec E m c w = .ok w')
    (hcommit : ∀ cumulative deadline sig, c ≠ .commit client workerPayout cumulative deadline sig)
    (hsettle : ∀ cumulative deadline sig, c ≠ .settle client workerPayout cumulative deadline sig)
    (hcollect : c ≠ .collect client workerPayout) :
    Books (w.pot.channels client workerPayout) (w'.pot.channels client workerPayout) [] := by
  rcases exec_channel h client workerPayout with hsame | htouch
  · rw [hsame]
    exact .none rfl rfl
  · generalize w'.pot.channels client workerPayout = ch at htouch ⊢
    cases htouch with
    | reserve _ => exact .none rfl rfl
    | commit _ => exact absurd rfl (hcommit _ _ _)
    | settle _ => exact absurd rfl (hsettle _ _ _)
    | collect _ => exact absurd rfl hcollect
    | requestClose _ _ _ => exact .none rfl rfl
    | close _ _ => exact .none rfl rfl

/-- Every call that takes effect keeps the books its receipt says. -/
theorem exec_books (h : exec E m c w = .ok w') :
    Books (w.pot.channels client workerPayout) (w'.pot.channels client workerPayout)
      (receiptOf client workerPayout w.pot c) := by
  cases c with
  | commit c p cumulative deadline sig =>
    by_cases hcp : c = client ∧ p = workerPayout
    · obtain ⟨rfl, rfl⟩ := hcp
      obtain ⟨g, rfl⟩ := commit_eq_ok.mp (exec_eq_ok.mp h).2
      simp only [receiptOf, and_self, if_true, recognized, Storage.setChannel_self]
      exact .commit (t := ⟨c, p, cumulative, deadline⟩) g.rises rfl rfl
    · simp only [receiptOf, if_neg hcp]
      refine books_of_other h ?_ ?_ ?_
      · rintro _ _ _ ⟨⟩
        exact hcp ⟨rfl, rfl⟩
      · rintro _ _ _ ⟨⟩
      · rintro ⟨⟩
  | settle c p cumulative deadline sig =>
    by_cases hcp : c = client ∧ p = workerPayout
    · obtain ⟨rfl, rfl⟩ := hcp
      obtain ⟨g, hpay⟩ := settle_eq_ok.mp (exec_eq_ok.mp h).2
      rw [(pay_ok hpay).2.2.1]
      simp only [receiptOf, and_self, if_true, recognized, Storage.setChannel_self, Channel.settled]
      exact .settle (t := ⟨c, p, cumulative, deadline⟩) g.rises rfl rfl
    · simp only [receiptOf, if_neg hcp]
      refine books_of_other h ?_ ?_ ?_
      · rintro _ _ _ ⟨⟩
      · rintro _ _ _ ⟨⟩
        exact hcp ⟨rfl, rfl⟩
      · rintro ⟨⟩
  | collect c p =>
    by_cases hcp : c = client ∧ p = workerPayout
    · obtain ⟨rfl, rfl⟩ := hcp
      have hpay := (exec_eq_ok.mp h).2
      rw [(pay_ok hpay).2.2.1]
      simp only [receiptOf, and_self, if_true, Storage.setChannel_self, Channel.settled]
      exact .collect (pay_ok hpay).1 rfl rfl
    · simp only [receiptOf, if_neg hcp]
      refine books_of_other h ?_ ?_ ?_
      · rintro _ _ _ ⟨⟩
      · rintro _ _ _ ⟨⟩
      · rintro ⟨⟩
        exact hcp ⟨rfl, rfl⟩
  | deposit _ _ _ _ => exact books_of_other h (by simp) (by simp) (by simp)
  | depositWithPermit _ _ _ _ _ _ _ _ => exact books_of_other h (by simp) (by simp) (by simp)
  | withdrawAll => exact books_of_other h (by simp) (by simp) (by simp)
  | setLimits _ _ _ => exact books_of_other h (by simp) (by simp) (by simp)
  | reserve _ _ _ _ _ => exact books_of_other h (by simp) (by simp) (by simp)
  | requestClose _ => exact books_of_other h (by simp) (by simp) (by simp)
  | close _ _ => exact books_of_other h (by simp) (by simp) (by simp)

/-- What `_pay` sends is the payout of what is due. -/
theorem pay_sends (h : pay E client workerPayout w = .ok w') :
    sendAll E workerPayout [.of (w.pot.channels client workerPayout).due] w.usdc = .ok w'.usdc := by
  simp only [pay, bind_eq_ok, require_eq_ok, mul_eq_ok, pure_eq_ok] at h
  obtain ⟨-, -, scaled, ⟨-, rfl⟩, usdc, hworker, usdc', hvault, rfl⟩ := h
  simp only [sendAll, bind_eq_ok]
  exact ⟨usdc, hworker, usdc', hvault, rfl⟩

/-- A call on the channel moves the tokens of its payouts, and no others. -/
theorem exec_sends (h : exec E m c w = .ok w') (hon : c.On client workerPayout m) :
    sendAll E workerPayout (payouts (receiptOf client workerPayout w.pot c)) w.usdc =
      .ok w'.usdc := by
  have hrun := (exec_eq_ok.mp h).2
  cases c with
  | commit c p cumulative deadline sig =>
    obtain ⟨rfl, rfl⟩ := hon
    obtain ⟨-, rfl⟩ := commit_eq_ok.mp hrun
    simp [receiptOf, payouts, sendAll]
  | settle c p cumulative deadline sig =>
    obtain ⟨rfl, rfl⟩ := hon
    obtain ⟨-, hpay⟩ := settle_eq_ok.mp hrun
    have hsent := pay_sends hpay
    simp only [recognized, Storage.setChannel_self, Channel.due] at hsent
    simpa [receiptOf, payouts] using hsent
  | collect c p =>
    obtain ⟨rfl, rfl⟩ := hon
    have hsent := pay_sends hrun
    simp only [Channel.due] at hsent
    simpa [receiptOf, payouts] using hsent
  | requestClose p =>
    simp only [run, bind_eq_ok, pure_eq_ok] at hrun
    obtain ⟨pot, -, rfl⟩ := hrun
    rfl
  | close c p =>
    simp only [run, bind_eq_ok, pure_eq_ok] at hrun
    obtain ⟨pot, -, rfl⟩ := hrun
    rfl
  | deposit _ _ _ _ => exact hon.elim
  | depositWithPermit _ _ _ _ _ _ _ _ => exact hon.elim
  | withdrawAll => exact hon.elim
  | setLimits _ _ _ => exact hon.elim
  | reserve _ _ _ _ _ => exact hon.elim

/-- A call on a channel pays out no more than is recognised on it and not yet paid. -/
theorem exec_within (h : exec E m c w = .ok w') :
    ((payouts (receiptOf client workerPayout w.pot c)).map Payout.total).sum ≤
      (w'.pot.channels client workerPayout).earned - (w.pot.channels client workerPayout).paid := by
  have hbooks : Books (w.pot.channels client workerPayout) (w'.pot.channels client workerPayout)
      (receiptOf client workerPayout w.pot c) := exec_books h
  generalize receiptOf client workerPayout w.pot c = rs at hbooks ⊢
  cases hbooks with
  | none _ _ => exact Nat.zero_le _
  | commit _ _ _ => exact Nat.zero_le _
  | settle _ hearned _ => simp [payouts, Payout.of_total, hearned]
  | collect _ hearned _ => simp [payouts, Payout.of_total, hearned]

end Calls

section Runs

variable {s s' s₀ : Chain τ} {a : Act} {log : List Receipt}

theorem receipts_of_ok {m : Msg} {c : Call} {w : World τ} (h : exec E m c s.world = .ok w) :
    receipts E client workerPayout s (.call m c) =
      receiptOf client workerPayout s.world.pot c := by
  simp only [receipts, h, Except.isOk, Except.toBool, if_true]

theorem step_books (h : Step E s a s') :
    Books (s.world.pot.channels client workerPayout) (s'.world.pot.channels client workerPayout)
      (receipts E client workerPayout s a) := by
  cases h with
  | call _ _ hexec =>
    rw [receipts_of_ok hexec]
    exact exec_books hexec
  | revert _ _ hexec =>
    simp only [receipts, hexec, Except.isOk, Except.toBool, Bool.false_eq_true, if_false]
    exact .none rfl rfl
  | token _ _ => exact .none rfl rfl

/-- Payouts that come to `paid`, each split by `_pay`. -/
structure Shares (ps : List Payout) (paid : ℕ) : Prop where
  total : (ps.map Payout.total).sum = paid
  fee_le : (ps.map Payout.fee).sum * 10000 ≤ paid * feeBps
  lt_fee : paid * feeBps + ps.length ≤ ((ps.map Payout.fee).sum + ps.length) * 10000

/-- One more rounded share, one more unit that rounding may have lost. -/
theorem share_cons {paid amount fees fee n bps : ℕ} (h : paid * bps + n ≤ (fees + n) * 10000)
    (hnext : amount * bps < (fee + 1) * 10000) :
    (paid + amount) * bps + (n + 1) ≤ (fee + fees + (n + 1)) * 10000 := by
  rw [Nat.add_mul]
  omega

theorem shares_nil : Shares [] 0 := ⟨rfl, le_rfl, le_rfl⟩

theorem Shares.cons {ps : List Payout} {paid : ℕ} (h : Shares ps paid) (amount : ℕ) :
    Shares (.of amount :: ps) (paid + amount) := by
  have hle := h.fee_le
  have hlt := h.lt_fee
  obtain ⟨hfee, hnext⟩ := feeOf_bounds amount
  refine ⟨?_, ?_, ?_⟩
  · rw [List.map_cons, List.sum_cons, Payout.of_total, h.total, Nat.add_comm]
  · rw [List.map_cons, List.sum_cons, Payout.of_fee, Nat.add_mul, Nat.add_mul, Nat.add_comm]
    exact Nat.add_le_add hle hfee
  · rw [List.map_cons, List.sum_cons, Payout.of_fee, List.length_cons]
    exact share_cons hlt hnext

/-- Tickets that were recognised one above the other, up to `earned`. -/
structure Rising (ts : List SpendTicket) (earned : ℕ) : Prop where
  within : ∀ t ∈ ts, t.cumulative ≤ earned
  once : ts.Nodup

theorem Rising.cons {ts : List SpendTicket} {earned : ℕ} (h : Rising ts earned) {t : SpendTicket}
    (hrises : earned < t.cumulative) : Rising (t :: ts) t.cumulative := by
  refine ⟨?_, List.nodup_cons.mpr ⟨?_, h.once⟩⟩
  · intro u hu
    rcases List.mem_cons.mp hu with rfl | hold
    · exact le_rfl
    · exact (h.within u hold).trans hrises.le
  · intro hold
    exact absurd (h.within t hold) (not_le.mpr hrises)

/-- The books of a channel agree with what was logged of it. -/
structure Balanced (log : List Receipt) (ch : Channel) : Prop where
  ordered : ch.Ordered
  shares : Shares (payouts log) ch.paid
  rising : Rising (tickets log) ch.earned

theorem Balanced.books {ch ch' : Channel} {rs : List Receipt} (h : Balanced log ch)
    (hordered : ch'.Ordered) (hbooks : Books ch ch' rs) : Balanced (rs ++ log) ch' := by
  refine ⟨hordered, ?_, ?_⟩
  · have hshares := h.shares
    cases hbooks with
    | none _ hpaid => exact hpaid ▸ hshares
    | commit _ _ hpaid => exact hpaid ▸ hshares
    | @settle t hrises _ hpaid =>
      have hadd : ch.paid + (t.cumulative - ch.paid) = t.cumulative :=
        Nat.add_sub_cancel' (h.ordered.paid_le.trans hrises.le)
      have hcons := hshares.cons (t.cumulative - ch.paid)
      rw [hadd] at hcons
      exact hpaid ▸ hcons
    | collect hdue _ hpaid =>
      have hadd : ch.paid + (ch.earned - ch.paid) = ch.earned := Nat.add_sub_cancel' hdue.le
      have hcons := hshares.cons (ch.earned - ch.paid)
      rw [hadd] at hcons
      exact hpaid ▸ hcons
  · have hrising := h.rising
    cases hbooks with
    | none hearned _ => exact hearned ▸ hrising
    | commit hrises hearned _ => exact hearned ▸ hrising.cons hrises
    | settle hrises hearned _ => exact hearned ▸ hrising.cons hrises
    | collect _ hearned _ => exact hearned ▸ hrising

/-- What is recognised and not paid is held by the contract. -/
theorem due_le_held (hw : Solvent E w) (client workerPayout : Address) :
    (w.pot.channels client workerPayout).due ≤ held E w := by
  have hcovered := hw.covered
  have hearned := (hw.ordered client workerPayout).earned_le
  have hlocked := SpendTicket.locked_le_owed w.pot client workerPayout
  rw [Channel.locked_eq] at hlocked
  unfold Channel.due
  omega

/-- A withdrawal or a close leaves what a channel has earned, and enough to pay it. -/
theorem earnings_kept {c : Call} (hw : Solvent E w) (hsender : m.sender ≠ E.self)
    (h : exec E m c w = .ok w') (hc : c = .withdrawAll ∨ ∃ p q, c = .close p q) :
    (w'.pot.channels client workerPayout).due = (w.pot.channels client workerPayout).due ∧
      (w'.pot.channels client workerPayout).due ≤ held E w' := by
  have hbooks : Books (w.pot.channels client workerPayout) (w'.pot.channels client workerPayout)
      [] := by
    rcases hc with rfl | ⟨p, q, rfl⟩
    · exact books_of_other h (by simp) (by simp) (by simp)
    · exact books_of_other h (by simp) (by simp) (by simp)
  refine ⟨?_, due_le_held (exec_solvent hsender h hw) client workerPayout⟩
  cases hbooks with
  | none hearned hpaid => rw [Channel.due, Channel.due, hearned, hpaid]

/-- Over any run, what a channel paid is what its worker and the vault got; the vault got its share of
each payout, rounded down; no ticket was recognised twice.  A call on the channel sends out nothing
but payouts within what is due, and no withdrawal or close touches that. -/
theorem payouts_conserve (h₀ : s₀.Genesis)
    (h : Logged (Step E) (receipts E client workerPayout) (fun _ _ _ => True) s₀ log s)
    (hn : 1 ≤ (payouts log).length) :
    ((payouts log).map Payout.toWorker).sum + ((payouts log).map Payout.fee).sum =
        (s.world.pot.channels client workerPayout).paid ∧
      ((payouts log).map Payout.fee).sum * 10000 ≤
        (s.world.pot.channels client workerPayout).paid * feeBps ∧
      (s.world.pot.channels client workerPayout).paid * feeBps <
        (((payouts log).map Payout.fee).sum + (payouts log).length) * 10000 ∧
      (tickets log).Nodup ∧
      (∀ m c w, m.sender ≠ E.self → exec E m c s.world = .ok w → c.On client workerPayout m →
        sendAll E workerPayout (payouts (receiptOf client workerPayout s.world.pot c))
          s.world.usdc = .ok w.usdc ∧
        ((payouts (receiptOf client workerPayout s.world.pot c)).map Payout.total).sum ≤
          (w.pot.channels client workerPayout).earned -
            (s.world.pot.channels client workerPayout).paid) ∧
      ∀ m c w, m.sender ≠ E.self → exec E m c s.world = .ok w →
        (c = .withdrawAll ∨ ∃ p q, c = .close p q) →
        (w.pot.channels client workerPayout).due = (s.world.pot.channels client workerPayout).due ∧
          (w.pot.channels client workerPayout).due ≤ held E w := by
  have hbalanced : Solvent E s.world ∧ Balanced log (s.world.pot.channels client workerPayout) := by
    refine h.invariant (P := fun log s =>
      Solvent E s.world ∧ Balanced log (s.world.pot.channels client workerPayout)) ?_ ?_
    · rintro log s a s' - hstep ⟨hsolvent, hlog⟩
      have hsolvent' := hstep.solvent hsolvent
      exact ⟨hsolvent', hlog.books (hsolvent'.ordered _ _) (step_books hstep)⟩
    · refine ⟨h₀.solvent, (h₀.solvent (E := E)).ordered _ _, ?_, ?_⟩
      · rw [h₀]
        exact shares_nil
      · exact ⟨by rintro t ⟨⟩, List.nodup_nil⟩
  obtain ⟨hsolvent, -, hshares, hrising⟩ := hbalanced
  refine ⟨?_, hshares.fee_le, ?_, hrising.once, ?_, ?_⟩
  · rw [← hshares.total, ← List.sum_map_add]
    rfl
  · have hlt := hshares.lt_fee
    omega
  · intro m c w _ hexec hon
    exact ⟨exec_sends hexec hon, exec_within hexec⟩
  · intro m c w hsender hexec hc
    exact earnings_kept hsolvent hsender hexec hc

open LocalChain in
/-- The log of the quarter of a dollar settled. -/
def quarterLog : List Receipt :=
  [⟨some ⟨LocalChain.client, worker, 250_000, 1_003_600⟩, some (.of 250_000)⟩]

/-- A call that took effect, on a run that is logged. -/
theorem logged_call {m : Msg} {c : Call} {w : World τ}
    (h : Logged (Step E) (receipts E client workerPayout) (fun _ _ _ => True) s₀ log s)
    (hexec : exec E m c s.world = .ok w) (hnow : s.now ≤ m.timestamp) (hm : m.sender ≠ E.self) :
    Logged (Step E) (receipts E client workerPayout) (fun _ _ _ => True) s₀
      (receiptOf client workerPayout s.world.pot c ++ log) ⟨m.timestamp, w⟩ := by
  rw [← receipts_of_ok hexec]
  exact h.tail trivial (.call hnow hm hexec)

open LocalChain in
theorem quarter_logged : Logged (Step deployment) (receipts deployment LocalChain.client worker)
    (fun _ _ _ => True) start quarterLog quarter := by
  have hfunds : exec deployment ⟨LocalChain.client, 1_000_000⟩
      (.deposit 100_000_000 maxJob maxDay app) start.world = .ok (funded maxDay).world :=
    exec_after (by decide)
  have hfunded : Logged (Step deployment) (receipts deployment LocalChain.client worker)
      (fun _ _ _ => True) start [] (funded maxDay) :=
    logged_call .refl hfunds (by decide) (by decide)
  have hlocks : exec deployment ⟨worker, 1_000_000⟩ (reserveTicket worker maxJob 1_003_600)
      (funded maxDay).world = .ok (reserved (funded maxDay) ⟨worker, 1_000_000⟩ worker maxJob
        1_003_600).world := exec_reserveTicket (by decide)
  have hlocked : Logged (Step deployment) (receipts deployment LocalChain.client worker)
      (fun _ _ _ => True) start []
      (reserved (funded maxDay) ⟨worker, 1_000_000⟩ worker maxJob 1_003_600) :=
    logged_call hfunded hlocks (by decide) (by decide)
  have hpays : exec deployment ⟨worker, 1_000_100⟩ (spendTicket worker 250_000 1_003_600)
      (reserved (funded maxDay) ⟨worker, 1_000_000⟩ worker maxJob 1_003_600).world =
        .ok quarter.world := exec_settled 1_003_600 (by decide) (by decide)
  exact logged_call hlocked hpays (by decide) (by decide)

/-- The worker gets all but the vault's share. -/
theorem payouts_conserve_quarter :
    ((payouts quarterLog).map Payout.toWorker).sum + ((payouts quarterLog).map Payout.fee).sum =
      (quarter.world.pot.channels LocalChain.client LocalChain.worker).paid :=
  (payouts_conserve LocalChain.start_genesis quarter_logged (by decide)).1

end Runs

end Rootmode.Pot
