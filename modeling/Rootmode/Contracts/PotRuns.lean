import Rootmode.Contracts.PotSpec
import Rootmode.Lib.Transition

namespace Rootmode.Pot

open Lib Lib.TotalMap Lib.Transition

variable {τ : Type} {E : Deployment τ} {m : Msg} {w w' : World τ}

/-- The contract, the token and the time of the last block that touched them. -/
structure Chain (τ : Type) where
  now : ℕ
  world : World τ

inductive Act
  | call (m : Msg) (c : Call)
  | token (now : ℕ)

/-- One step of a chain.  A call takes effect or reverts; between calls anyone may use the token,
which only the contract itself can take the contract's tokens from. -/
inductive Step (E : Deployment τ) : Labelled (Chain τ) Act
  | call {s : Chain τ} {m : Msg} {c : Call} {w : World τ} :
      s.now ≤ m.timestamp → m.sender ≠ E.self → exec E m c s.world = .ok w →
      Step E s (.call m c) ⟨m.timestamp, w⟩
  | revert {s : Chain τ} {m : Msg} {c : Call} {e : Revert} :
      s.now ≤ m.timestamp → m.sender ≠ E.self → exec E m c s.world = .error e →
      Step E s (.call m c) ⟨m.timestamp, s.world⟩
  | token {s : Chain τ} {now : ℕ} {usdc : τ} :
      s.now ≤ now → held E s.world ≤ held E ⟨s.world.pot, usdc⟩ →
      Step E s (.token now) ⟨now, ⟨s.world.pot, usdc⟩⟩

/-- A pot just deployed, next to a token in any state. -/
def Chain.Genesis (s : Chain τ) : Prop := s.world.pot = {}

/-- The chain after a call was sent to it, whatever came of it. -/
def Chain.after (E : Deployment τ) (s : Chain τ) (m : Msg) (c : Call) : Chain τ where
  now := m.timestamp
  world :=
    match exec E m c s.world with
    | .ok w => w
    | .error _ => s.world

theorem Step.after {s : Chain τ} {m : Msg} (c : Call) (hnow : s.now ≤ m.timestamp)
    (hm : m.sender ≠ E.self) : Step E s (.call m c) (s.after E m c) := by
  unfold Chain.after
  cases h : exec E m c s.world with
  | ok w => exact .call hnow hm h
  | error e => exact .revert hnow hm h

/-- A call that went through left the chain after it. -/
theorem exec_after {s : Chain τ} {m : Msg} {c : Call} (h : (exec E m c s.world).isOk = true) :
    exec E m c s.world = .ok (s.after E m c).world := by
  unfold Chain.after
  cases hexec : exec E m c s.world with
  | ok w => rfl
  | error e => simp [hexec, Except.isOk, Except.toBool] at h

/-- What one successful call may do to the channel of `client` with `workerPayout`. -/
inductive Touches (E : Deployment τ) (m : Msg) (w : World τ) (client workerPayout : Address) :
    Call → Channel → Prop
  | reserve {maxAmount deadline : ℕ} {sig : Bytes} :
      ReserveGuard E m client workerPayout maxAmount deadline sig w.pot →
      Touches E m w client workerPayout (.reserve client workerPayout maxAmount deadline sig)
        ((w.pot.channels client workerPayout).raised (w.pot.accounts client) maxAmount deadline)
  | commit {cumulative deadline : ℕ} {sig : Bytes} :
      RecognizeGuard E m client workerPayout cumulative deadline sig w.pot →
      Touches E m w client workerPayout (.commit client workerPayout cumulative deadline sig)
        { w.pot.channels client workerPayout with earned := cumulative }
  | settle {cumulative deadline : ℕ} {sig : Bytes} :
      RecognizeGuard E m client workerPayout cumulative deadline sig w.pot →
      Touches E m w client workerPayout (.settle client workerPayout cumulative deadline sig)
        { w.pot.channels client workerPayout with earned := cumulative, paid := cumulative }
  | collect :
      (w.pot.channels client workerPayout).paid < (w.pot.channels client workerPayout).earned →
      Touches E m w client workerPayout (.collect client workerPayout)
        (w.pot.channels client workerPayout).settled
  | requestClose :
      m.sender = client →
      (w.pot.channels client workerPayout).earned < (w.pot.channels client workerPayout).reserved →
      m.timestamp + E.grace < 2 ^ 64 →
      Touches E m w client workerPayout (.requestClose workerPayout)
        { w.pot.channels client workerPayout with closeAt := m.timestamp + E.grace }
  | close :
      (w.pot.channels client workerPayout).timedOut m.timestamp ∨
        (w.pot.channels client workerPayout).expired m.timestamp →
      (w.pot.channels client workerPayout).earned ≤ (w.pot.channels client workerPayout).reserved →
      Touches E m w client workerPayout (.close client workerPayout)
        (w.pot.channels client workerPayout).closed

/-- A write to one channel is seen there and nowhere else. -/
theorem setChannel_or {T : Channel → Prop} (s : Storage) {c p client workerPayout : Address}
    {ch : Channel} (hT : client = c → workerPayout = p → T ch) :
    (s.setChannel c p ch).channels client workerPayout = s.channels client workerPayout ∨
      T ((s.setChannel c p ch).channels client workerPayout) := by
  by_cases h : client = c ∧ workerPayout = p
  · obtain ⟨rfl, rfl⟩ := h
    rw [s.setChannel_self]
    exact .inr (hT rfl rfl)
  · exact .inl (s.setChannel_of_ne ch h)

theorem credit_channels {amount maxPerJob maxPerDay : ℕ} {appKey : Address} {s s' : Storage}
    (h : credit m amount maxPerJob maxPerDay appKey s = .ok s') : s'.channels = s.channels := by
  obtain ⟨-, rfl⟩ := credit_eq_ok.mp h
  rfl

/-- Every call leaves a channel as it is or touches it in one of six ways. -/
theorem exec_channel {c : Call} (h : exec E m c w = .ok w') (client workerPayout : Address) :
    w'.pot.channels client workerPayout = w.pot.channels client workerPayout ∨
      Touches E m w client workerPayout c (w'.pot.channels client workerPayout) := by
  obtain ⟨-, h⟩ := exec_eq_ok.mp h
  cases c with
  | deposit amount maxPerJob maxPerDay appKey =>
    exact .inl (congrFun₂ (credit_channels (deposit_eq_ok.mp h).2.2) _ _)
  | depositWithPermit amount maxPerJob maxPerDay appKey deadline v r s =>
    exact .inl (congrFun₂ (credit_channels (depositWithPermit_eq_ok.mp h).2.2) _ _)
  | withdrawAll =>
    rw [(withdrawAll_ok h).1]
    exact .inl rfl
  | setLimits maxPerJob maxPerDay appKey =>
    cases h
    exact .inl rfl
  | reserve c p maxAmount deadline sig =>
    simp only [run, Checked.bind_eq_ok, reserve_eq_ok, pure_eq_ok] at h
    obtain ⟨pot, ⟨g, rfl⟩, rfl⟩ := h
    refine setChannel_or _ ?_
    rintro rfl rfl
    exact .reserve g
  | commit c p cumulative deadline sig =>
    obtain ⟨g, rfl⟩ := commit_eq_ok.mp h
    refine setChannel_or _ ?_
    rintro rfl rfl
    exact .commit g
  | settle c p cumulative deadline sig =>
    obtain ⟨g, hpay⟩ := settle_eq_ok.mp h
    rw [(pay_ok hpay).2.2.1]
    by_cases hcp : client = c ∧ workerPayout = p
    · obtain ⟨rfl, rfl⟩ := hcp
      right
      simp only [recognized, Storage.setChannel_self, Channel.settled]
      exact .settle g
    · left
      simp only [recognized]
      rw [Storage.setChannel_of_ne _ _ hcp, Storage.setChannel_of_ne _ _ hcp,
        Storage.setAccount_channels]
  | collect c p =>
    rw [(pay_ok h).2.2.1]
    refine setChannel_or _ ?_
    rintro rfl rfl
    exact .collect (pay_ok h).1
  | requestClose p =>
    simp only [run, Checked.bind_eq_ok, requestClose_eq_ok, pure_eq_ok] at h
    obtain ⟨pot, ⟨hopen, hlock, hnow, hat, rfl⟩, rfl⟩ := h
    refine setChannel_or _ ?_
    rintro rfl rfl
    exact .requestClose rfl hlock hat
  | close c p =>
    simp only [run, Checked.bind_eq_ok, close_eq_ok, pure_eq_ok] at h
    obtain ⟨pot, ⟨hopen, hdue, hle, hlt, rfl⟩, rfl⟩ := h
    refine setChannel_or _ ?_
    rintro rfl rfl
    exact .close hdue hle

end Rootmode.Pot
