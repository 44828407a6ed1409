import Rootmode.Contracts.LocalChain

namespace Rootmode.Pot

open Lib Lib.TotalMap Lib.Transition

variable {τ : Type} {E : Deployment τ} {m : Msg} {w w' : World τ} {client workerPayout : Address}

structure Channel.Ordered (ch : Channel) : Prop where
  paid_le : ch.paid ≤ ch.earned
  earned_le : ch.earned ≤ ch.reserved

def Storage.Ordered (s : Storage) : Prop := ∀ client workerPayout,
  (s.channels client workerPayout).Ordered

@[simp] theorem Channel.locked_eq (ch : Channel) : ch.locked = ch.reserved - ch.paid := by
  unfold Channel.locked
  split <;> omega

section Channels

variable {c : Call} {ch : Channel}

theorem Touches.ordered (h : Touches E m w client workerPayout c ch)
    (ho : (w.pot.channels client workerPayout).Ordered) : ch.Ordered := by
  have hpaid := ho.paid_le
  have hearned := ho.earned_le
  cases h with
  | reserve g => exact ⟨hpaid, hearned.trans g.rises.le⟩
  | commit g => exact ⟨hpaid.trans g.rises.le, g.locked⟩
  | settle g => exact ⟨le_rfl, g.locked⟩
  | collect _ => exact ⟨le_rfl, hearned⟩
  | requestClose _ _ _ => exact ⟨hpaid, hearned⟩
  | close _ _ => exact ⟨hpaid, le_rfl⟩

theorem Touches.grows (h : Touches E m w client workerPayout c ch)
    (ho : (w.pot.channels client workerPayout).Ordered) :
    (w.pot.channels client workerPayout).earned ≤ ch.earned ∧
      (w.pot.channels client workerPayout).paid ≤ ch.paid := by
  cases h with
  | reserve _ => exact ⟨le_rfl, le_rfl⟩
  | commit g => exact ⟨g.rises.le, le_rfl⟩
  | settle g => exact ⟨g.rises.le, ho.paid_le.trans g.rises.le⟩
  | collect h => exact ⟨le_rfl, h.le⟩
  | requestClose _ _ _ => exact ⟨le_rfl, le_rfl⟩
  | close _ _ => exact ⟨le_rfl, le_rfl⟩

theorem exec_ordered (h : exec E m c w = .ok w') (ho : w.pot.Ordered) : w'.pot.Ordered := by
  intro client workerPayout
  rcases exec_channel h client workerPayout with hsame | htouch
  · rw [hsame]
    exact ho client workerPayout
  · exact htouch.ordered (ho client workerPayout)

theorem exec_grows (h : exec E m c w = .ok w') (ho : w.pot.Ordered)
    (client workerPayout : Address) :
    (w.pot.channels client workerPayout).earned ≤ (w'.pot.channels client workerPayout).earned ∧
      (w.pot.channels client workerPayout).paid ≤ (w'.pot.channels client workerPayout).paid := by
  rcases exec_channel h client workerPayout with hsame | htouch
  · rw [hsame]
    exact ⟨le_rfl, le_rfl⟩
  · exact htouch.grows (ho client workerPayout)

end Channels

section Sums

variable (s : Storage)

/-- What the contract owes: every free balance and everything locked and not paid out. -/
def owed : ℕ :=
  ∑ client, (s.accounts client).balance +
    ∑ client, ∑ workerPayout, (s.channels client workerPayout).locked

theorem owed_setAccount (client : Address) (a : Account) :
    owed (s.setAccount client a) + (s.accounts client).balance = owed s + a.balance := by
  have hsum := sum_update Account.balance s.accounts client a
  simp only [owed, Storage.setAccount] at *
  omega

theorem owed_setChannel (client workerPayout : Address) (ch : Channel) :
    owed (s.setChannel client workerPayout ch) + (s.channels client workerPayout).locked =
      owed s + ch.locked := by
  have hrow := sum_update Channel.locked (s.channels client) workerPayout ch
  have hsum := sum_update (fun row => ∑ p, Channel.locked (row p)) s.channels client
    (Function.update (s.channels client) workerPayout ch)
  simp only [owed, Storage.setChannel] at *
  omega

theorem owed_empty : owed {} = 0 := by
  have haccounts : ∑ client, (({} : Storage).accounts client).balance = 0 :=
    Finset.sum_eq_zero fun _ _ => rfl
  have hchannels : ∑ client, ∑ p, (({} : Storage).channels client p).locked = 0 :=
    Finset.sum_eq_zero fun _ _ => Finset.sum_eq_zero fun _ _ => rfl
  rw [owed, haccounts, hchannels]

end Sums

section Surplus

variable {s s' : Storage} {maxAmount deadline cumulative : ℕ} {sig : Bytes}

theorem owed_credit {amount maxPerJob maxPerDay : ℕ} {appKey : Address}
    (h : credit m amount maxPerJob maxPerDay appKey s = .ok s') : owed s' = owed s + amount := by
  obtain ⟨-, rfl⟩ := credit_eq_ok.mp h
  have := owed_setAccount s m.sender
    (credited (s.accounts m.sender) amount maxPerJob maxPerDay appKey)
  simp only [credited] at *
  omega

/-- The lock moves money from the balance to the channel. -/
theorem owed_lock (g : ReserveGuard E m client workerPayout maxAmount deadline sig s)
    (ho : s.Ordered) : owed (lock s client workerPayout maxAmount deadline) = owed s := by
  have hrise := g.rises
  have hfund := g.funded
  have hpaid := (ho client workerPayout).paid_le
  have hearned := (ho client workerPayout).earned_le
  set a : Account := { s.accounts client with
    balance := (s.accounts client).balance - (maxAmount - (s.channels client workerPayout).reserved)
    } with ha
  have hacc := owed_setAccount s client a
  have hch := owed_setChannel (s.setAccount client a) client workerPayout
    ((s.channels client workerPayout).raised (s.accounts client) maxAmount deadline)
  simp only [lock, ← ha]
  simp only [Channel.locked_eq, Storage.setAccount_channels, Channel.raised, ha] at *
  omega

theorem owed_recognized (m : Msg) (client workerPayout : Address) (cumulative : ℕ) :
    owed (recognized m s client workerPayout cumulative) = owed s := by
  set a : Account := { (s.accounts client).rolled m.timestamp with
    spentToday := ((s.accounts client).rolled m.timestamp).spentToday +
      (cumulative - (s.channels client workerPayout).earned) } with ha
  have hacc := owed_setAccount s client a
  have hch := owed_setChannel (s.setAccount client a) client workerPayout
    { s.channels client workerPayout with earned := cumulative }
  simp only [recognized, ← ha]
  simp only [Channel.locked_eq, Storage.setAccount_channels, ha, Account.rolled_balance] at *
  omega

/-- A payment lowers what is owed by what it pays. -/
theorem owed_settled (ho : (s.channels client workerPayout).Ordered) :
    owed (s.setChannel client workerPayout (s.channels client workerPayout).settled) +
      (s.channels client workerPayout).due = owed s := by
  have hch := owed_setChannel s client workerPayout (s.channels client workerPayout).settled
  have hpaid := ho.paid_le
  have hearned := ho.earned_le
  simp only [Channel.locked_eq, Channel.settled, Channel.due] at *
  omega

theorem owed_unlock (ho : (s.channels client workerPayout).Ordered) :
    owed (unlock s client workerPayout) = owed s := by
  set a : Account := { s.accounts client with
    balance := (s.accounts client).balance + (s.channels client workerPayout).unspent } with ha
  have hacc := owed_setAccount s client a
  have hch := owed_setChannel (s.setAccount client a) client workerPayout
    (s.channels client workerPayout).closed
  have hpaid := ho.paid_le
  have hearned := ho.earned_le
  simp only [unlock, ← ha]
  simp only [Channel.locked_eq, Storage.setAccount_channels, Channel.closed, Channel.unspent,
    ha] at *
  omega

theorem recognized_ordered (g : RecognizeGuard E m client workerPayout cumulative deadline sig s)
    (ho : s.Ordered) :
    ((recognized m s client workerPayout cumulative).channels client workerPayout).Ordered := by
  simp only [recognized, Storage.setChannel_self]
  exact ⟨(ho client workerPayout).paid_le.trans g.rises.le, g.locked⟩

theorem pay_surplus (h : pay E client workerPayout w = .ok w')
    (ho : (w.pot.channels client workerPayout).Ordered) :
    owed w'.pot + held E w ≤ owed w.pot + held E w' := by
  obtain ⟨-, -, hpot, hheld⟩ := pay_ok h
  have hsettled := owed_settled ho
  rw [hpot]
  omega

/-- No call lets what is owed outgrow what is held. -/
theorem exec_surplus {c : Call} (hm : m.sender ≠ E.self) (ho : w.pot.Ordered)
    (h : exec E m c w = .ok w') : owed w'.pot + held E w ≤ owed w.pot + held E w' := by
  obtain ⟨-, h⟩ := exec_eq_ok.mp h
  cases c with
  | deposit amount maxPerJob maxPerDay appKey =>
    obtain ⟨-, hpull, hcredit⟩ := deposit_eq_ok.mp h
    have hheld := pull_held hm hpull
    have howed := owed_credit hcredit
    unfold held
    omega
  | depositWithPermit amount maxPerJob maxPerDay appKey deadline v r s =>
    obtain ⟨-, ⟨usdc, hpermit, hpull⟩, hcredit⟩ := depositWithPermit_eq_ok.mp h
    have hheld := pull_held hm hpull
    rw [permit_keeps hpermit] at hheld
    have howed := owed_credit hcredit
    unfold held
    omega
  | withdrawAll =>
    obtain ⟨hpot, hheld⟩ := withdrawAll_ok h
    have howed := owed_setAccount w.pot m.sender
      { w.pot.accounts m.sender with balance := 0, appKey := 0 }
    rw [hpot]
    simp only [add_zero] at howed ⊢
    omega
  | setLimits maxPerJob maxPerDay appKey =>
    cases h
    have howed := owed_setAccount w.pot m.sender { w.pot.accounts m.sender with
      maxPerJob, maxPerDay, appKey := if appKey ≠ 0 then appKey else (w.pot.accounts m.sender).appKey }
    simp only [setLimits, held] at *
    omega
  | reserve client workerPayout maxAmount deadline sig =>
    simp only [run, Checked.bind_eq_ok, reserve_eq_ok, pure_eq_ok] at h
    obtain ⟨pot, ⟨g, rfl⟩, rfl⟩ := h
    simp only [owed_lock g ho, held, le_refl]
  | commit client workerPayout cumulative deadline sig =>
    obtain ⟨-, rfl⟩ := commit_eq_ok.mp h
    simp only [owed_recognized, held, le_refl]
  | settle client workerPayout cumulative deadline sig =>
    obtain ⟨g, hpay⟩ := settle_eq_ok.mp h
    have hsurplus := pay_surplus hpay (recognized_ordered g ho)
    simpa only [owed_recognized, held] using hsurplus
  | collect client workerPayout => exact pay_surplus h (ho client workerPayout)
  | requestClose workerPayout =>
    simp only [run, Checked.bind_eq_ok, requestClose_eq_ok, pure_eq_ok] at h
    obtain ⟨pot, ⟨-, -, -, -, rfl⟩, rfl⟩ := h
    have howed := owed_setChannel w.pot m.sender workerPayout
      { w.pot.channels m.sender workerPayout with closeAt := m.timestamp + E.grace }
    simp only [Channel.locked_eq, held] at *
    omega
  | close client workerPayout =>
    simp only [run, Checked.bind_eq_ok, close_eq_ok, pure_eq_ok] at h
    obtain ⟨pot, ⟨-, -, -, -, rfl⟩, rfl⟩ := h
    simp only [owed_unlock (ho client workerPayout), held, le_refl]

end Surplus

section Runs

variable {s s' s₀ : Chain τ} {a : Act}

/-- The books balance: channels are ordered and everything owed is held. -/
structure Solvent (E : Deployment τ) (w : World τ) : Prop where
  ordered : w.pot.Ordered
  covered : owed w.pot ≤ held E w

theorem exec_solvent {c : Call} (hm : m.sender ≠ E.self) (h : exec E m c w = .ok w')
    (hw : Solvent E w) : Solvent E w' where
  ordered := exec_ordered h hw.ordered
  covered := by
    have hsurplus := exec_surplus hm hw.ordered h
    have hcovered := hw.covered
    omega

theorem Step.solvent (h : Step E s a s') (hs : Solvent E s.world) : Solvent E s'.world := by
  cases h with
  | call _ hm hexec => exact exec_solvent hm hexec hs
  | revert _ _ _ => exact hs
  | token _ hheld => exact ⟨hs.ordered, hs.covered.trans hheld⟩

theorem Step.grows (h : Step E s a s') (hs : s.world.pot.Ordered)
    (client workerPayout : Address) :
    (s.world.pot.channels client workerPayout).earned ≤
        (s'.world.pot.channels client workerPayout).earned ∧
      (s.world.pot.channels client workerPayout).paid ≤
        (s'.world.pot.channels client workerPayout).paid := by
  cases h with
  | call _ _ hexec => exact exec_grows hexec hs client workerPayout
  | revert _ _ _ => exact ⟨le_rfl, le_rfl⟩
  | token _ _ => exact ⟨le_rfl, le_rfl⟩

theorem Chain.Genesis.solvent (h : s.Genesis) : Solvent E s.world where
  ordered client workerPayout := by
    rw [h]
    exact ⟨le_rfl, le_rfl⟩
  covered := by
    rw [h, owed_empty]
    exact Nat.zero_le _

theorem Chain.Genesis.runs_solvent (h₀ : s₀.Genesis) (h : Runs (Step E) s₀ s) :
    Solvent E s.world :=
  h.invariant (P := fun s => Solvent E s.world) Step.solvent h₀.solvent

/-- Whatever is called in whatever order, channels stay ordered, what is earned and paid only grows,
and the contract holds everything it owes. -/
theorem reachable_solvency (h₀ : s₀.Genesis) (h : Runs (Step E) s₀ s) :
    s.world.pot.Ordered ∧
    (∀ a s', Step E s a s' → ∀ client workerPayout,
      (s.world.pot.channels client workerPayout).earned ≤
          (s'.world.pot.channels client workerPayout).earned ∧
        (s.world.pot.channels client workerPayout).paid ≤
          (s'.world.pot.channels client workerPayout).paid) ∧
    owed s.world.pot ≤ held E s.world := by
  have hs := h₀.runs_solvent h
  refine ⟨hs.ordered, ?_, hs.covered⟩
  intro a s' hstep client workerPayout
  exact hstep.grows hs.ordered client workerPayout

open LocalChain in
/-- A quarter of a dollar settled from the lock of the local chain. -/
def quarter : Chain MockUsdc.Token :=
  settled (reserved (funded maxDay) ⟨worker, 1_000_000⟩ worker maxJob 1_003_600)
    ⟨worker, 1_000_100⟩ worker 250_000

open LocalChain in
theorem quarter_runs : Runs (Step deployment) start quarter :=
  ((funded_runs maxDay).tail (step_reserved (by decide) (by decide) (by decide))).tail
    (step_settled 1_003_600 (by decide) (by decide)
      (by decide) (by decide))

theorem reachable_solvency_quarter :
    (quarter.world.pot.channels LocalChain.client LocalChain.worker).paid = 250_000 ∧
      quarter.world.pot.Ordered ∧
      owed quarter.world.pot ≤ held LocalChain.deployment quarter.world := by
  obtain ⟨hordered, -, hcovered⟩ := reachable_solvency LocalChain.start_genesis quarter_runs
  exact ⟨by decide, hordered, hcovered⟩

end Runs

end Rootmode.Pot
