import Rootmode.Contracts.Solvency

namespace Rootmode.Pot

open Lib Lib.Checked Lib.Transition

variable {τ : Type} {E : Deployment τ} {m : Msg} {w w' : World τ} {client workerPayout : Address}

/-- The words of a channel fit their storage types, and an open channel has a deadline. -/
structure Channel.Typed (ch : Channel) : Prop where
  reserved_lt : ch.reserved < 2 ^ 256
  closeAt_lt : ch.closeAt < 2 ^ 64
  earned_lt : ch.earned < 2 ^ 256
  maxPerJob_lt : ch.maxPerJob < 2 ^ 256
  dated : ch.appKey ≠ 0 → ch.deadline ≠ 0

structure Storage.Typed (s : Storage) : Prop where
  accounts : ∀ client, (s.accounts client).maxPerJob < 2 ^ 256
  channels : ∀ client workerPayout, (s.channels client workerPayout).Typed

section Accounts

variable {amount maxPerJob maxPerDay : ℕ} {appKey : Address} {s s' : Storage}

theorem setAccount_typed {a : Account} (ha : a.maxPerJob < 2 ^ 256)
    (hs : ∀ c, (s.accounts c).maxPerJob < 2 ^ 256) (c : Address) :
    ((s.setAccount client a).accounts c).maxPerJob < 2 ^ 256 := by
  by_cases hc : c = client
  · rw [hc, s.setAccount_self]
    exact ha
  · rw [s.setAccount_of_ne a hc]
    exact hs c

theorem credit_typed (h : credit m amount maxPerJob maxPerDay appKey s = .ok s')
    (hjob : maxPerJob < 2 ^ 256) (hs : ∀ c, (s.accounts c).maxPerJob < 2 ^ 256) (c : Address) :
    (s'.accounts c).maxPerJob < 2 ^ 256 := by
  obtain ⟨-, rfl⟩ := credit_eq_ok.mp h
  refine setAccount_typed ?_ hs c
  unfold credited
  dsimp only
  split
  · exact hjob
  · exact hs m.sender

theorem Account.rolled_maxPerJob (a : Account) (now : ℕ) :
    (a.rolled now).maxPerJob = a.maxPerJob := by
  unfold Account.rolled
  split <;> rfl

theorem recognized_typed {cumulative : ℕ} (hs : ∀ c, (s.accounts c).maxPerJob < 2 ^ 256)
    (c : Address) :
    ((recognized m s client workerPayout cumulative).accounts c).maxPerJob < 2 ^ 256 := by
  refine setAccount_typed ?_ hs c
  exact (Account.rolled_maxPerJob _ _).trans_lt (hs client)

/-- A cap on a job is only ever set from decoded calldata. -/
theorem exec_accounts_typed {c : Call} (h : exec E m c w = .ok w')
    (hs : ∀ c, (w.pot.accounts c).maxPerJob < 2 ^ 256) (a : Address) :
    (w'.pot.accounts a).maxPerJob < 2 ^ 256 := by
  obtain ⟨hc, h⟩ := exec_eq_ok.mp h
  cases c with
  | deposit amount maxPerJob maxPerDay appKey =>
    exact credit_typed (deposit_eq_ok.mp h).2.2 hc.2.1 hs a
  | depositWithPermit amount maxPerJob maxPerDay appKey deadline v r s =>
    exact credit_typed (depositWithPermit_eq_ok.mp h).2.2 hc.2.1 hs a
  | withdrawAll =>
    rw [(withdrawAll_ok h).1]
    refine setAccount_typed ?_ hs a
    exact hs m.sender
  | setLimits maxPerJob maxPerDay appKey =>
    cases h
    exact setAccount_typed hc.1 hs a
  | reserve c p maxAmount deadline sig =>
    simp only [run, bind_eq_ok, reserve_eq_ok, pure_eq_ok] at h
    obtain ⟨pot, ⟨g, rfl⟩, rfl⟩ := h
    refine setAccount_typed ?_ hs a
    exact hs c
  | commit c p cumulative deadline sig =>
    obtain ⟨g, rfl⟩ := commit_eq_ok.mp h
    exact recognized_typed hs a
  | settle c p cumulative deadline sig =>
    obtain ⟨g, hpay⟩ := settle_eq_ok.mp h
    rw [(pay_ok hpay).2.2.1]
    exact recognized_typed hs a
  | collect c p =>
    rw [(pay_ok h).2.2.1]
    exact hs a
  | requestClose p =>
    simp only [run, bind_eq_ok, requestClose_eq_ok, pure_eq_ok] at h
    obtain ⟨pot, ⟨hopen, hlock, hnow, hat, rfl⟩, rfl⟩ := h
    exact hs a
  | close c p =>
    simp only [run, bind_eq_ok, close_eq_ok, pure_eq_ok] at h
    obtain ⟨pot, ⟨hopen, hdue, hle, hlt, rfl⟩, rfl⟩ := h
    refine setAccount_typed ?_ hs a
    exact hs c

end Accounts

section Channels

variable {c : Call} {ch : Channel}

theorem raiseCap_lt {cap account : ℕ} (hcap : cap < 2 ^ 256) (haccount : account < 2 ^ 256) :
    raiseCap cap account < 2 ^ 256 := by
  unfold raiseCap
  split
  · exact haccount
  · exact hcap

theorem Touches.typed (h : Touches E m w client workerPayout c ch) (hc : c.Decodes)
    (hs : ∀ c, (w.pot.accounts c).maxPerJob < 2 ^ 256)
    (ht : (w.pot.channels client workerPayout).Typed) : ch.Typed := by
  cases h with
  | reserve g =>
    refine ⟨hc.1, by simp [Channel.raised], ht.earned_lt, raiseCap_lt ht.maxPerJob_lt (hs client), ?_⟩
    intro _
    have hlive := g.live
    unfold Channel.raised
    dsimp only
    split <;> omega
  | commit g => exact ⟨ht.reserved_lt, ht.closeAt_lt, hc.1, ht.maxPerJob_lt, ht.dated⟩
  | settle g => exact ⟨ht.reserved_lt, ht.closeAt_lt, hc.1, ht.maxPerJob_lt, ht.dated⟩
  | collect _ => exact ⟨ht.reserved_lt, ht.closeAt_lt, ht.earned_lt, ht.maxPerJob_lt, ht.dated⟩
  | requestClose _ _ hat => exact ⟨ht.reserved_lt, hat, ht.earned_lt, ht.maxPerJob_lt, ht.dated⟩
  | close _ _ =>
    exact ⟨ht.earned_lt, by simp [Channel.closed], ht.earned_lt, by simp [Channel.closed], ht.dated⟩

theorem exec_typed (h : exec E m c w = .ok w') (hs : w.pot.Typed) : w'.pot.Typed where
  accounts := exec_accounts_typed h hs.accounts
  channels client workerPayout := by
    rcases exec_channel h client workerPayout with hsame | htouch
    · rw [hsame]
      exact hs.channels client workerPayout
    · exact htouch.typed (exec_eq_ok.mp h).1 hs.accounts (hs.channels client workerPayout)

end Channels

section Runs

variable {s₀ s s' : Chain τ} {a : Act}

theorem Step.typed (h : Step E s a s') (hs : s.world.pot.Typed) : s'.world.pot.Typed := by
  cases h with
  | call _ _ hexec => exact exec_typed hexec hs
  | revert _ _ _ => exact hs
  | token _ _ => exact hs

theorem Chain.Genesis.typed (h : s.Genesis) : s.world.pot.Typed := by
  have haccount : ({} : Account).maxPerJob < 2 ^ 256 := by decide
  have hchannel : ({} : Channel).Typed := ⟨by decide, by decide, by decide, by decide, absurd rfl⟩
  rw [h]
  exact ⟨fun _ => haccount, fun _ _ => hchannel⟩

theorem Chain.Genesis.runs_typed (h₀ : s₀.Genesis) (h : Runs (Step E) s₀ s) :
    s.world.pot.Typed :=
  h.invariant (P := fun s => s.world.pot.Typed) Step.typed h₀.typed

/-- What is earned on a channel only grows along a run. -/
theorem Solvent.runs_grows {s t : Chain τ} (hs : Solvent E s.world) (h : Runs (Step E) s t)
    (client workerPayout : Address) :
    (s.world.pot.channels client workerPayout).earned ≤
      (t.world.pot.channels client workerPayout).earned := by
  have both := h.invariant
    (P := fun t => Solvent E t.world ∧ (s.world.pot.channels client workerPayout).earned ≤
      (t.world.pot.channels client workerPayout).earned)
    (fun hstep ht => ⟨hstep.solvent ht.1,
      ht.2.trans (hstep.grows ht.1.ordered client workerPayout).1⟩) ⟨hs, le_rfl⟩
  exact both.2

end Runs

end Rootmode.Pot
