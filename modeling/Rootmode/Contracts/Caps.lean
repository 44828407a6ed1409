import Rootmode.Contracts.LocalChain

namespace Rootmode.Pot

open Lib Lib.Checked Lib.Transition

variable {τ : Type} {E : Deployment τ} {m : Msg} {w : World τ} {client workerPayout : Address}

/-- The caps of the channel let `delta` through when so much is already spent in the day. -/
def Channel.Carries (ch : Channel) (spentToday delta : ℕ) : Prop :=
  (ch.maxPerJob ≠ 0 ∧ delta ≤ ch.maxPerJob) ∧ checkDay ch.maxPerDay spentToday delta = .ok ⟨⟩

/-- No close of the channel takes effect. -/
def StaysOpen (E : Deployment τ) (client workerPayout : Address) : Chain τ → Act → Prop
  | s, .call m (.close c p) => c = client → p = workerPayout →
    ∀ w, exec E m (.close c p) s.world ≠ .ok w
  | _, _ => True

/-- A reserve that takes effect on the channel gives no daily cap to a channel that had none and may
be spent from. -/
def LeavesUncapped (E : Deployment τ) (client workerPayout : Address) : Chain τ → Act → Prop
  | s, .call m (.reserve c p maxAmount deadline sig) => c = client → p = workerPayout →
    ReserveGuard E m c p maxAmount deadline sig s.world.pot →
    (s.world.pot.channels c p).maxPerJob = 0 ∨ (s.world.pot.channels c p).maxPerDay ≠ 0 ∨
      (s.world.pot.accounts c).maxPerDay = 0
  | _, _ => True

/-- On the runs of `step` from a reserve on a channel with nothing locked, the channel goes on
carrying whatever it carried right after. -/
def FrozenCaps (E : Deployment τ) (client workerPayout : Address) (step : Labelled (Chain τ) Act) :
    Prop :=
  ∀ {s₀ s r : Chain τ} {m : Msg} {maxAmount deadline : ℕ} {sig : Bytes} {w : World τ},
    s₀.Genesis → Runs (Step E) s₀ s → s.now ≤ m.timestamp → m.sender ≠ E.self →
    (s.world.pot.channels client workerPayout).reserved =
      (s.world.pot.channels client workerPayout).earned →
    exec E m (.reserve client workerPayout maxAmount deadline sig) s.world = .ok w →
    Runs step ⟨m.timestamp, w⟩ r →
    ∀ spentToday delta, (w.pot.channels client workerPayout).Carries spentToday delta →
      (r.world.pot.channels client workerPayout).Carries spentToday delta

section Raise

variable {ch : Channel} {a : Account} {maxAmount deadline spentToday delta : ℕ}

theorem checkDay_mono {cap cap' : ℕ} (hcap : 0 < cap) (hle : cap ≤ cap')
    (h : checkDay cap spentToday delta = .ok ⟨⟩) : checkDay cap' spentToday delta = .ok ⟨⟩ := by
  rw [checkDay_eq_ok] at h ⊢
  intro _
  obtain ⟨hfits, hspent⟩ := h hcap
  exact ⟨hfits, hspent.trans hle⟩

theorem raiseCap_zero (account : ℕ) : raiseCap 0 account = account := if_pos (.inl rfl)

/-- A reserve leaves all a channel carries, unless it puts a daily cap where there was none. -/
theorem Carries.raised (h : ch.Carries spentToday delta)
    (ha : ch.maxPerJob = 0 ∨ ch.maxPerDay ≠ 0 ∨ a.maxPerDay = 0) :
    (ch.raised a maxAmount deadline).Carries spentToday delta := by
  obtain ⟨⟨hset, hjob⟩, hday⟩ := h
  have hrise := le_raiseCap ch.maxPerJob a.maxPerJob
  refine ⟨⟨?_, hjob.trans hrise⟩, ?_⟩
  · simp only [Channel.raised]
    omega
  · simp only [Channel.raised]
    by_cases hnone : ch.maxPerDay = 0
    · have haccount : a.maxPerDay = 0 := by
        rcases ha with hzero | hcapped | haccount
        · exact absurd hzero hset
        · exact absurd hnone hcapped
        · exact haccount
      rw [hnone, raiseCap_zero, haccount]
      rwa [hnone] at hday
    · exact checkDay_mono (Nat.pos_of_ne_zero hnone) (le_raiseCap _ _) hday

/-- Where it does, something the channel carried it no longer carries. -/
theorem carries_raised_iff :
    (∀ spentToday delta, ch.Carries spentToday delta →
      (ch.raised a maxAmount deadline).Carries spentToday delta) ↔
    ch.maxPerJob = 0 ∨ ch.maxPerDay ≠ 0 ∨ a.maxPerDay = 0 := by
  constructor
  · intro h
    by_contra hcapped
    rw [not_or, not_or, not_ne_iff] at hcapped
    obtain ⟨hset, hnone, haccount⟩ := hcapped
    have hbefore : ch.Carries a.maxPerDay 1 := by
      refine ⟨⟨hset, Nat.pos_of_ne_zero hset⟩, checkDay_eq_ok.mpr fun hpos => ?_⟩
      exact absurd hnone hpos.ne'
    have hafter := (h a.maxPerDay 1 hbefore).2
    simp only [Channel.raised, hnone, raiseCap_zero] at hafter
    have hover := (checkDay_eq_ok.mp hafter (Nat.pos_of_ne_zero haccount)).2
    omega
  · intro ha spentToday delta h
    exact Carries.raised h ha

end Raise

section Runs

variable {s s' : Chain τ} {a : Act} {spentToday delta : ℕ}

theorem Carries.step
    (ha : StaysOpen E client workerPayout s a ∧ LeavesUncapped E client workerPayout s a)
    (h : Step E s a s')
    (hs : (s.world.pot.channels client workerPayout).Carries spentToday delta) :
    (s'.world.pot.channels client workerPayout).Carries spentToday delta := by
  cases h with
  | revert _ _ _ => exact hs
  | token _ _ => exact hs
  | @call _ m c w _ _ hexec =>
    rcases exec_channel hexec client workerPayout with hsame | htouch
    · exact hsame ▸ hs
    · generalize w.pot.channels client workerPayout = ch at htouch ⊢
      cases htouch with
      | reserve g => exact Carries.raised hs (ha.2 rfl rfl g)
      | commit _ => exact hs
      | settle _ => exact hs
      | collect _ => exact hs
      | requestClose _ _ _ => exact hs
      | close _ _ => exact absurd hexec (ha.1 rfl rfl _)

/-- The caps of a channel do not become stricter while it is open, as long as none is put where there
was none. -/
theorem frozen_caps_of_leavesUncapped (client workerPayout : Address) :
    FrozenCaps E client workerPayout (restrict (Step E) fun s a =>
      StaysOpen E client workerPayout s a ∧ LeavesUncapped E client workerPayout s a) := by
  intro s₀ s r m maxAmount deadline sig w _ _ _ _ _ _ hrun spentToday delta hw
  exact hrun.invariant (P := fun s =>
      (s.world.pot.channels client workerPayout).Carries spentToday delta)
    (fun hstep hs => Carries.step hstep.1 hstep.2 hs) hw

end Runs

section Local

open LocalChain

/-- A lock of half a dollar, after the client set its limits anew. -/
def limited (maxPerDay maxPerJob newPerDay : ℕ) : Chain MockUsdc.Token :=
  (reserved (funded maxPerDay) ⟨worker, 1_000_000⟩ worker maxJob 1_003_600).after deployment
    ⟨LocalChain.client, 1_000_100⟩ (.setLimits maxPerJob newPerDay 0)

/-- The lock raised by a micro. -/
def relimited (maxPerDay maxPerJob newPerDay : ℕ) : Chain MockUsdc.Token :=
  reserved (limited maxPerDay maxPerJob newPerDay) ⟨worker, 1_000_200⟩ worker (maxJob + 1) 1_003_600

/-- With a daily cap from the start, lower limits wait. -/
theorem frozen_caps_lowered :
    ((relimited maxDay 1 1).world.pot.channels LocalChain.client worker).Carries 0 250_000 := by
  have hopens : exec deployment ⟨worker, 1_000_000⟩ (reserveTicket worker maxJob 1_003_600)
      (funded maxDay).world = .ok (reserved (funded maxDay) ⟨worker, 1_000_000⟩ worker maxJob
        1_003_600).world := exec_reserveTicket (by decide)
  have hlimits : restrict (Step deployment) (fun s a => StaysOpen deployment LocalChain.client worker
        s a ∧ LeavesUncapped deployment LocalChain.client worker s a)
      (reserved (funded maxDay) ⟨worker, 1_000_000⟩ worker maxJob 1_003_600)
      (.call ⟨LocalChain.client, 1_000_100⟩ (.setLimits 1 1 0)) (limited maxDay 1 1) :=
    ⟨⟨trivial, trivial⟩, .after _ (by decide) (by decide)⟩
  have hraise : restrict (Step deployment) (fun s a => StaysOpen deployment LocalChain.client worker
        s a ∧ LeavesUncapped deployment LocalChain.client worker s a) (limited maxDay 1 1)
      (.call ⟨worker, 1_000_200⟩ (reserveTicket worker (maxJob + 1) 1_003_600))
      (relimited maxDay 1 1) := by
    refine ⟨⟨trivial, fun _ _ _ => .inr (.inl (by decide))⟩, ?_⟩
    exact step_reserved (by decide) (by decide) (by decide)
  refine frozen_caps_of_leavesUncapped LocalChain.client worker start_genesis (funded_runs maxDay)
    (by decide) (by decide) (by decide) hopens ((Runs.single hlimits).tail hraise) 0
    250_000 ?_
  exact ⟨⟨by decide, by decide⟩, by decide⟩

/-- Without one, a daily cap of a micro takes hold on the next reserve. -/
theorem caps_not_frozen : ¬ FrozenCaps deployment LocalChain.client worker
    (restrict (Step deployment) (StaysOpen deployment LocalChain.client worker)) := by
  intro h
  have hopens : exec deployment ⟨worker, 1_000_000⟩ (reserveTicket worker maxJob 1_003_600)
      (funded 0).world = .ok (reserved (funded 0) ⟨worker, 1_000_000⟩ worker maxJob 1_003_600).world :=
    exec_reserveTicket (by decide)
  have hlimits : restrict (Step deployment) (StaysOpen deployment LocalChain.client worker)
      (reserved (funded 0) ⟨worker, 1_000_000⟩ worker maxJob 1_003_600)
      (.call ⟨LocalChain.client, 1_000_100⟩ (.setLimits maxJob 1 0)) (limited 0 maxJob 1) :=
    ⟨trivial, .after _ (by decide) (by decide)⟩
  have hraise : restrict (Step deployment) (StaysOpen deployment LocalChain.client worker)
      (limited 0 maxJob 1)
      (.call ⟨worker, 1_000_200⟩ (reserveTicket worker (maxJob + 1) 1_003_600))
      (relimited 0 maxJob 1) :=
    ⟨trivial, step_reserved (by decide) (by decide) (by decide)⟩
  have hcarries := h start_genesis (funded_runs 0) (by decide) (by decide)
    (by decide) hopens ((Runs.single hlimits).tail hraise) 0 250_000
    ⟨⟨by decide, by decide⟩, by decide⟩
  exact absurd hcarries.2 (by decide)

end Local

end Rootmode.Pot
