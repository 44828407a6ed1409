import Rootmode.Contracts.Pot

namespace Rootmode.Pot

open Lib Lib.Checked Lib.TotalMap

variable {τ : Type} {E : Deployment τ} {m : Msg} {client workerPayout : Address}

@[simp] theorem pure_eq_ok {α : Type} (a b : α) :
    (pure a : Except Revert α) = .ok b ↔ a = b := by
  change Except.ok a = Except.ok b ↔ a = b
  exact Except.ok.injEq a b ▸ Iff.rfl

/-- What the contract holds of the token. -/
def held (E : Deployment τ) (w : World τ) : ℕ := E.token.balanceOf w.usdc E.self

section Signatures

variable {digest : Bytes32} {sig : Bytes} {signer : Address}

theorem recover_ne_zero (h : recover E digest sig = .ok signer) : signer ≠ 0 := by
  simp only [recover, bind_eq_ok, require_eq_ok, pure_eq_ok] at h
  obtain ⟨-, -, -, -, -, hne, rfl⟩ := h
  exact hne

theorem length_of_recover (h : recover E digest sig = .ok signer) : sig.length = 65 := by
  simp only [recover, bind_eq_ok, require_eq_ok] at h
  obtain ⟨-, hlength, -⟩ := h
  exact hlength

end Signatures

section Token

theorem pull_moves {amount : ℕ} {usdc usdc' : τ} (h : pull E m amount usdc = .ok usdc') :
    E.token.balanceOf usdc' = moved (E.token.balanceOf usdc) m.sender E.self amount := by
  unfold pull at h
  split at h
  · cases h
  · next ok t ht =>
    split at h
    · next hok =>
      subst hok
      cases h
      exact (E.token.transferFrom_moves ht).2
    · cases h

theorem push_moves {receiver : Address} {amount : ℕ} {usdc usdc' : τ}
    (h : push E receiver amount usdc = .ok usdc') :
    amount ≤ E.token.balanceOf usdc E.self ∧
      E.token.balanceOf usdc' = moved (E.token.balanceOf usdc) E.self receiver amount := by
  unfold push at h
  split at h
  · cases h
  · next ok t ht =>
    split at h
    · next hok =>
      subst hok
      cases h
      exact E.token.transfer_moves ht
    · cases h

theorem push_pays {amount : ℕ} {usdc : τ} (receiver : Address)
    (h : amount ≤ E.token.balanceOf usdc E.self) :
    ∃ usdc', push E receiver amount usdc = .ok usdc' := by
  obtain ⟨t, ht⟩ := E.token.transfer_pays receiver h
  exact ⟨t, by simp [push, ht]⟩

theorem permit_keeps {amount deadline v : ℕ} {r s : Bytes32} {usdc usdc' : τ}
    (h : permit E m amount deadline v r s usdc = .ok usdc') :
    E.token.balanceOf usdc' = E.token.balanceOf usdc := by
  unfold permit at h
  split at h
  · cases h
  · next t ht =>
    cases h
    exact E.token.permit_keeps ht

/-- A payment out costs the contract at most the amount (nothing when it pays itself). -/
theorem push_held {receiver : Address} {amount : ℕ} {usdc usdc' : τ}
    (h : push E receiver amount usdc = .ok usdc') :
    E.token.balanceOf usdc E.self ≤ E.token.balanceOf usdc' E.self + amount := by
  obtain ⟨hle, hmoved⟩ := push_moves h
  have := le_moved_from (E.token.balanceOf usdc) E.self receiver amount
  rw [hmoved]
  omega

theorem pushSome_held {receiver : Address} {amount : ℕ} {usdc usdc' : τ}
    (h : pushSome E receiver amount usdc = .ok usdc') :
    E.token.balanceOf usdc E.self ≤ E.token.balanceOf usdc' E.self + amount := by
  unfold pushSome at h
  split at h
  · exact push_held h
  · cases h
    exact Nat.le_add_right _ _

theorem pushSome_pays {amount : ℕ} {usdc : τ} (receiver : Address)
    (h : amount ≤ E.token.balanceOf usdc E.self) :
    ∃ usdc', pushSome E receiver amount usdc = .ok usdc' := by
  unfold pushSome
  split
  · exact push_pays receiver h
  · exact ⟨usdc, rfl⟩

theorem pull_held {amount : ℕ} {usdc usdc' : τ} (hm : m.sender ≠ E.self)
    (h : pull E m amount usdc = .ok usdc') :
    E.token.balanceOf usdc' E.self = E.token.balanceOf usdc E.self + amount := by
  rw [pull_moves h, moved_to _ _ hm]

end Token

section Accounts

variable {amount maxPerJob maxPerDay : ℕ} {appKey : Address} {s s' : Storage}

/-- The account `credit` leaves behind. -/
def credited (a : Account) (amount maxPerJob maxPerDay : ℕ) (appKey : Address) : Account :=
  { a with
    balance := a.balance + amount
    maxPerJob := if 0 < maxPerJob then maxPerJob else a.maxPerJob
    maxPerDay := if 0 < maxPerDay then maxPerDay else a.maxPerDay
    appKey := if appKey ≠ 0 then appKey else a.appKey }

theorem credit_eq_ok :
    credit m amount maxPerJob maxPerDay appKey s = .ok s' ↔
      (s.accounts m.sender).balance + amount < 2 ^ 256 ∧
      s.setAccount m.sender
        (credited (s.accounts m.sender) amount maxPerJob maxPerDay appKey) = s' := by
  simp only [credit, bind_eq_ok, add_eq_ok, pure_eq_ok, credited]
  constructor
  · rintro ⟨balance, ⟨hlt, rfl⟩, rfl⟩
    exact ⟨hlt, rfl⟩
  · rintro ⟨hlt, rfl⟩
    exact ⟨_, ⟨hlt, rfl⟩, rfl⟩

theorem deposit_eq_ok {w w' : World τ} :
    deposit E m amount maxPerJob maxPerDay appKey w = .ok w' ↔
      amount ≠ 0 ∧ pull E m amount w.usdc = .ok w'.usdc ∧
      credit m amount maxPerJob maxPerDay appKey w.pot = .ok w'.pot := by
  simp only [deposit, bind_eq_ok, require_eq_ok, pure_eq_ok]
  constructor
  · rintro ⟨-, hne, usdc, hpull, pot, hcredit, rfl⟩
    exact ⟨hne, hpull, hcredit⟩
  · rintro ⟨hne, hpull, hcredit⟩
    exact ⟨⟨⟩, hne, _, hpull, _, hcredit, rfl⟩

theorem depositWithPermit_eq_ok {w w' : World τ} {deadline v : ℕ} {r t : Bytes32} :
    depositWithPermit E m amount maxPerJob maxPerDay appKey deadline v r t w = .ok w' ↔
      amount ≠ 0 ∧
      (∃ usdc, permit E m amount deadline v r t w.usdc = .ok usdc ∧
        pull E m amount usdc = .ok w'.usdc) ∧
      credit m amount maxPerJob maxPerDay appKey w.pot = .ok w'.pot := by
  simp only [depositWithPermit, bind_eq_ok, require_eq_ok, pure_eq_ok]
  constructor
  · rintro ⟨-, hne, usdc, hpermit, usdc', hpull, pot, hcredit, rfl⟩
    exact ⟨hne, ⟨usdc, hpermit, hpull⟩, hcredit⟩
  · rintro ⟨hne, ⟨usdc, hpermit, hpull⟩, hcredit⟩
    exact ⟨⟨⟩, hne, usdc, hpermit, _, hpull, _, hcredit, rfl⟩

theorem withdrawAll_ok {w w' : World τ} (h : withdrawAll E m w = .ok w') :
    w'.pot = w.pot.setAccount m.sender
      { w.pot.accounts m.sender with balance := 0, appKey := 0 } ∧
    held E w ≤ held E w' + (w.pot.accounts m.sender).balance := by
  simp only [withdrawAll, bind_eq_ok, pure_eq_ok] at h
  obtain ⟨usdc, hpush, rfl⟩ := h
  exact ⟨rfl, pushSome_held hpush⟩

end Accounts

section Reserve

variable {maxAmount deadline : ℕ} {sig : Bytes} {s s' : Storage}

/-- Everything `reserve` checks. -/
structure ReserveGuard (E : Deployment τ) (m : Msg) (client workerPayout : Address)
    (maxAmount deadline : ℕ) (sig : Bytes) (s : Storage) : Prop where
  live : m.timestamp < deadline
  hasKey : (s.accounts client).appKey ≠ 0
  signed : recover E (ticketDigest E reserveTypehash client workerPayout maxAmount deadline) sig =
    .ok (s.accounts client).appKey
  sameKey : (s.channels client workerPayout).appKey = 0 ∨
    (s.channels client workerPayout).appKey = (s.accounts client).appKey
  rises : (s.channels client workerPayout).reserved < maxAmount
  funded : maxAmount - (s.channels client workerPayout).reserved ≤ (s.accounts client).balance

/-- A cap that is set only rises. -/
theorem le_raiseCap (cap account : ℕ) : cap ≤ raiseCap cap account := by
  unfold raiseCap
  split <;> omega

/-- The channel `reserve` leaves behind. -/
def Channel.raised (ch : Channel) (a : Account) (maxAmount deadline : ℕ) : Channel :=
  { ch with
    appKey := a.appKey
    maxPerJob := raiseCap ch.maxPerJob a.maxPerJob
    maxPerDay := raiseCap ch.maxPerDay a.maxPerDay
    reserved := maxAmount
    deadline := if ch.deadline < deadline then deadline else ch.deadline
    closeAt := 0 }

def lock (s : Storage) (client workerPayout : Address) (maxAmount deadline : ℕ) : Storage :=
  let a := s.accounts client
  let ch := s.channels client workerPayout
  (s.setAccount client { a with balance := a.balance - (maxAmount - ch.reserved) }).setChannel
    client workerPayout (ch.raised a maxAmount deadline)

theorem reserve_eq_ok :
    reserve E m client workerPayout maxAmount deadline sig s = .ok s' ↔
      ReserveGuard E m client workerPayout maxAmount deadline sig s ∧
      lock s client workerPayout maxAmount deadline = s' := by
  simp only [reserve, bind_eq_ok, require_eq_ok, pure_eq_ok]
  constructor
  · rintro ⟨-, hlive, -, hkey, signer, hsig, -, rfl, -, hsame, -, hrise, -, hfund, rfl⟩
    exact ⟨⟨hlive, hkey, hsig, hsame, hrise, hfund⟩, rfl⟩
  · rintro ⟨g, rfl⟩
    exact ⟨⟨⟩, g.live, ⟨⟩, g.hasKey, _, g.signed, ⟨⟩, rfl, ⟨⟩, g.sameKey, ⟨⟩, g.rises, ⟨⟩, g.funded,
      rfl⟩

end Reserve

section Recognize

variable {cumulative deadline : ℕ} {sig : Bytes} {s s' : Storage}

/-- The account as the daily counter stands at `now`. -/
def Account.rolled (a : Account) (now : ℕ) : Account :=
  if a.dayOver now then { a with dayStart := now, spentToday := 0 } else a

@[simp] theorem Account.rolled_balance (a : Account) (now : ℕ) :
    (a.rolled now).balance = a.balance := by
  unfold Account.rolled
  split <;> rfl

@[simp] theorem Account.rolled_appKey (a : Account) (now : ℕ) :
    (a.rolled now).appKey = a.appKey := by
  unfold Account.rolled
  split <;> rfl

theorem rollDay_eq_ok {a a' : Account} :
    rollDay m a = .ok a' ↔
      (a.dayOver m.timestamp → m.timestamp < 2 ^ 64) ∧ a.rolled m.timestamp = a' := by
  unfold rollDay Account.rolled
  by_cases h : a.dayOver m.timestamp
  · rw [if_pos h, if_pos h]
    simp only [bind_eq_ok, narrow_eq_ok, pure_eq_ok, h, forall_const]
    constructor
    · rintro ⟨-, ⟨hlt, rfl⟩, rfl⟩
      exact ⟨hlt, rfl⟩
    · rintro ⟨hlt, rfl⟩
      exact ⟨_, ⟨hlt, rfl⟩, rfl⟩
  · simp [h]

theorem checkDay_eq_ok {maxPerDay spent delta : ℕ} :
    checkDay maxPerDay spent delta = .ok ⟨⟩ ↔
      (0 < maxPerDay → spent + delta < 2 ^ 256 ∧ spent + delta ≤ maxPerDay) := by
  unfold checkDay
  split
  · next h => simp [h, and_assoc]
  · next h => simp [h]

/-- Everything `_recognize` checks of a spend ticket. -/
structure RecognizeGuard (E : Deployment τ) (m : Msg) (client workerPayout : Address)
    (cumulative deadline : ℕ) (sig : Bytes) (s : Storage) : Prop where
  isOpen : (s.channels client workerPayout).appKey ≠ 0
  live : m.timestamp ≤ deadline
  rises : (s.channels client workerPayout).earned < cumulative
  locked : cumulative ≤ (s.channels client workerPayout).reserved
  hasJobCap : (s.channels client workerPayout).maxPerJob ≠ 0
  jobCap : cumulative - (s.channels client workerPayout).earned ≤
    (s.channels client workerPayout).maxPerJob
  clock : (s.accounts client).dayOver m.timestamp → m.timestamp < 2 ^ 64
  dayCap : 0 < (s.channels client workerPayout).maxPerDay →
    ((s.accounts client).rolled m.timestamp).spentToday +
      (cumulative - (s.channels client workerPayout).earned) ≤
        (s.channels client workerPayout).maxPerDay
  fits : ((s.accounts client).rolled m.timestamp).spentToday +
    (cumulative - (s.channels client workerPayout).earned) < 2 ^ 256
  signed : recover E (ticketDigest E ticketTypehash client workerPayout cumulative deadline) sig =
    .ok (s.channels client workerPayout).appKey

/-- The storage `_recognize` leaves behind. -/
def recognized (m : Msg) (s : Storage) (client workerPayout : Address) (cumulative : ℕ) :
    Storage :=
  let a := (s.accounts client).rolled m.timestamp
  let ch := s.channels client workerPayout
  (s.setAccount client
    { a with spentToday := a.spentToday + (cumulative - ch.earned) }).setChannel
      client workerPayout { ch with earned := cumulative }

theorem recognize_eq_ok :
    recognize E m client workerPayout cumulative deadline sig s = .ok s' ↔
      RecognizeGuard E m client workerPayout cumulative deadline sig s ∧
      recognized m s client workerPayout cumulative = s' := by
  simp only [recognize, bind_eq_ok, require_eq_ok, pure_eq_ok, rollDay_eq_ok, add_eq_ok]
  constructor
  · rintro ⟨-, hopen, -, hlive, -, hrise, -, hlock, -, ⟨hcap, hjob⟩, a, ⟨hclock, rfl⟩, u, hday,
      signer, hsig, -, rfl, spent, ⟨hfits, rfl⟩, rfl⟩
    exact ⟨⟨hopen, hlive, hrise, hlock, hcap, hjob, hclock,
      fun h => ((checkDay_eq_ok.mp hday) h).2, hfits, hsig⟩, rfl⟩
  · rintro ⟨g, rfl⟩
    exact ⟨⟨⟩, g.isOpen, ⟨⟩, g.live, ⟨⟩, g.rises, ⟨⟩, g.locked, ⟨⟩, ⟨g.hasJobCap, g.jobCap⟩, _,
      ⟨g.clock, rfl⟩, ⟨⟩, checkDay_eq_ok.mpr fun h => ⟨g.fits, g.dayCap h⟩, _, g.signed, ⟨⟩, rfl, _,
      ⟨g.fits, rfl⟩, rfl⟩

end Recognize

section Pay

variable {w w' : World τ}

theorem feeOf_le (amount : ℕ) : feeOf amount ≤ amount := by
  unfold feeOf feeBps
  omega

def Channel.settled (ch : Channel) : Channel := { ch with paid := ch.earned }

/-- What is recognised on the channel and not yet paid out. -/
def Channel.due (ch : Channel) : ℕ := ch.earned - ch.paid

theorem pay_ok (h : pay E client workerPayout w = .ok w') :
    (w.pot.channels client workerPayout).paid < (w.pot.channels client workerPayout).earned ∧
    (w.pot.channels client workerPayout).due * feeBps < 2 ^ 256 ∧
    w'.pot = w.pot.setChannel client workerPayout (w.pot.channels client workerPayout).settled ∧
    held E w ≤ held E w' + (w.pot.channels client workerPayout).due := by
  simp only [pay, bind_eq_ok, require_eq_ok, mul_eq_ok, pure_eq_ok] at h
  obtain ⟨-, hpaid, scaled, ⟨hscaled, rfl⟩, usdc, hworker, usdc', hvault, rfl⟩ := h
  refine ⟨hpaid, hscaled, rfl, ?_⟩
  have hw := push_held hworker
  have hfee := feeOf_le (w.pot.channels client workerPayout).due
  have hv := pushSome_held hvault
  simp only [held, Channel.due, feeOf] at *
  omega

theorem pay_pays
    (hpaid : (w.pot.channels client workerPayout).paid <
      (w.pot.channels client workerPayout).earned)
    (hscaled : (w.pot.channels client workerPayout).due * feeBps < 2 ^ 256)
    (hheld : (w.pot.channels client workerPayout).due ≤ held E w) :
    ∃ w', pay E client workerPayout w = .ok w' := by
  have hfee := feeOf_le (w.pot.channels client workerPayout).due
  have hshare : (w.pot.channels client workerPayout).due -
      feeOf (w.pot.channels client workerPayout).due ≤ E.token.balanceOf w.usdc E.self := by
    unfold held at hheld
    omega
  obtain ⟨usdc, hworker⟩ := push_pays workerPayout hshare
  have hleft : feeOf (w.pot.channels client workerPayout).due ≤
      E.token.balanceOf usdc E.self := by
    have := push_held hworker
    unfold held at hheld
    omega
  obtain ⟨usdc', hvault⟩ := pushSome_pays E.feeVault hleft
  refine ⟨⟨w.pot.setChannel client workerPayout (w.pot.channels client workerPayout).settled,
    usdc'⟩, ?_⟩
  simp only [pay, bind_eq_ok, require_eq_ok, mul_eq_ok, pure_eq_ok]
  exact ⟨⟨⟩, hpaid, _, ⟨hscaled, rfl⟩, usdc, hworker, usdc', hvault, rfl⟩

end Pay

section Close

variable {s s' : Storage}

theorem requestClose_eq_ok :
    requestClose E m workerPayout s = .ok s' ↔
      (s.channels m.sender workerPayout).appKey ≠ 0 ∧
      (s.channels m.sender workerPayout).earned < (s.channels m.sender workerPayout).reserved ∧
      m.timestamp < 2 ^ 64 ∧ m.timestamp + E.grace < 2 ^ 64 ∧
      s.setChannel m.sender workerPayout
        { s.channels m.sender workerPayout with closeAt := m.timestamp + E.grace } = s' := by
  simp only [requestClose, bind_eq_ok, require_eq_ok, narrow_eq_ok, add_eq_ok, pure_eq_ok]
  constructor
  · rintro ⟨-, hopen, -, hlock, now, ⟨hnow, rfl⟩, closeAt, ⟨hat, rfl⟩, rfl⟩
    exact ⟨hopen, hlock, hnow, hat, rfl⟩
  · rintro ⟨hopen, hlock, hnow, hat, rfl⟩
    exact ⟨⟨⟩, hopen, ⟨⟩, hlock, _, ⟨hnow, rfl⟩, _, ⟨hat, rfl⟩, rfl⟩

/-- What a close gives back. -/
def Channel.unspent (ch : Channel) : ℕ := ch.reserved - ch.earned

def Channel.closed (ch : Channel) : Channel :=
  { ch with reserved := ch.earned, closeAt := 0, maxPerJob := 0, maxPerDay := 0 }

def unlock (s : Storage) (client workerPayout : Address) : Storage :=
  let a := s.accounts client
  let ch := s.channels client workerPayout
  (s.setAccount client { a with balance := a.balance + ch.unspent }).setChannel client workerPayout
    ch.closed

theorem close_eq_ok :
    close m client workerPayout s = .ok s' ↔
      (s.channels client workerPayout).appKey ≠ 0 ∧
      ((s.channels client workerPayout).timedOut m.timestamp ∨
        (s.channels client workerPayout).expired m.timestamp) ∧
      (s.channels client workerPayout).earned ≤ (s.channels client workerPayout).reserved ∧
      (s.accounts client).balance + (s.channels client workerPayout).unspent < 2 ^ 256 ∧
      unlock s client workerPayout = s' := by
  simp only [close, bind_eq_ok, require_eq_ok, sub_eq_ok, add_eq_ok, pure_eq_ok]
  constructor
  · rintro ⟨-, hopen, -, hdue, unspent, ⟨hle, rfl⟩, balance, ⟨hlt, rfl⟩, rfl⟩
    exact ⟨hopen, hdue, hle, hlt, rfl⟩
  · rintro ⟨hopen, hdue, hle, hlt, rfl⟩
    exact ⟨⟨⟩, hopen, ⟨⟩, hdue, _, ⟨hle, rfl⟩, _, ⟨hlt, rfl⟩, rfl⟩

end Close

section Calls

variable {cumulative deadline : ℕ} {sig : Bytes} {w w' : World τ}

theorem commit_eq_ok :
    commit E m client workerPayout cumulative deadline sig w = .ok w' ↔
      RecognizeGuard E m client workerPayout cumulative deadline sig w.pot ∧
      w' = ⟨recognized m w.pot client workerPayout cumulative, w.usdc⟩ := by
  simp only [commit, bind_eq_ok, recognize_eq_ok, pure_eq_ok]
  constructor
  · rintro ⟨pot, ⟨g, rfl⟩, rfl⟩
    exact ⟨g, rfl⟩
  · rintro ⟨g, rfl⟩
    exact ⟨_, ⟨g, rfl⟩, rfl⟩

theorem settle_eq_ok :
    settle E m client workerPayout cumulative deadline sig w = .ok w' ↔
      RecognizeGuard E m client workerPayout cumulative deadline sig w.pot ∧
      pay E client workerPayout ⟨recognized m w.pot client workerPayout cumulative, w.usdc⟩ =
        .ok w' := by
  simp only [settle, bind_eq_ok, recognize_eq_ok]
  constructor
  · rintro ⟨pot, ⟨g, rfl⟩, hpay⟩
    exact ⟨g, hpay⟩
  · rintro ⟨g, hpay⟩
    exact ⟨_, ⟨g, rfl⟩, hpay⟩

theorem exec_eq_ok {c : Call} : exec E m c w = .ok w' ↔ c.Decodes ∧ run E m c w = .ok w' := by
  simp only [exec, bind_eq_ok, require_eq_ok]
  constructor
  · rintro ⟨-, hc, h⟩
    exact ⟨hc, h⟩
  · rintro ⟨hc, h⟩
    exact ⟨⟨⟩, hc, h⟩

end Calls

end Rootmode.Pot
