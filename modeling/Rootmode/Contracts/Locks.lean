import Rootmode.Contracts.Ranges
import Rootmode.Contracts.Settlement

namespace Rootmode.Pot.SpendTicket

open Lib Lib.Checked Lib.TotalMap Lib.Transition

variable {τ : Type} {E : Deployment τ} {m : Msg} {w w' : World τ} {t : SpendTicket}

/-- A move before the ticket's deadline, and before the end of any close grace on its channel. -/
def InGrace (t : SpendTicket) : Chain τ → Act → Prop
  | s, .call m _ => m.timestamp ≤ t.deadline ∧ ¬ (t.channel s.world.pot).timedOut m.timestamp
  | _, .token _ => True

/-- Nothing anyone does while the ticket waits takes the lock from under it. -/
def HoldsLock (E : Deployment τ) (s : Chain τ) (t : SpendTicket) : Prop :=
  ∀ r, Runs (restrict (Step E) t.InGrace) s r → t.cumulative ≤ (t.channel r.world.pot).reserved

/-- The ticket's channel outlasts it, or owes the ticket nothing. -/
def Outlived (t : SpendTicket) (ch : Channel) : Prop :=
  t.deadline ≤ ch.deadline ∨ t.cumulative ≤ ch.earned

section Held

variable {c : Call} {ch : Channel}

theorem outlived_touches (h : Touches E m w t.client t.workerPayout c ch)
    (hlive : m.timestamp ≤ t.deadline) (hwaiting : ¬ (t.channel w.pot).timedOut m.timestamp)
    (hlocked : t.cumulative ≤ (t.channel w.pot).reserved) (ho : t.Outlived (t.channel w.pot)) :
    t.cumulative ≤ ch.reserved ∧ t.Outlived ch := by
  cases h with
  | reserve g =>
    refine ⟨hlocked.trans g.rises.le, ho.imp_left fun hdeadline => hdeadline.trans ?_⟩
    simp only [Channel.raised]
    split
    · next hlt => exact hlt.le
    · exact le_rfl
  | commit g => exact ⟨hlocked, ho.imp_right fun hearned => hearned.trans g.rises.le⟩
  | settle g => exact ⟨hlocked, ho.imp_right fun hearned => hearned.trans g.rises.le⟩
  | collect _ => exact ⟨hlocked, ho⟩
  | requestClose _ _ _ => exact ⟨hlocked, ho⟩
  | close hdue _ =>
    -- In the window only the channel's own deadline lets a close through.
    have hexpired := hdue.resolve_left hwaiting
    have hlt := hexpired.2
    rcases ho with hdeadline | hearned
    · unfold channel at hdeadline
      omega
    · exact ⟨hearned, .inr hearned⟩

theorem outlived_step {s s' : Chain τ} {a : Act} (ha : t.InGrace s a) (h : Step E s a s')
    (hlocked : t.cumulative ≤ (t.channel s.world.pot).reserved)
    (ho : t.Outlived (t.channel s.world.pot)) :
    t.cumulative ≤ (t.channel s'.world.pot).reserved ∧ t.Outlived (t.channel s'.world.pot) := by
  cases h with
  | call _ _ hexec =>
    rcases exec_channel hexec t.client t.workerPayout with hsame | htouch
    · have hchannel : t.channel _ = t.channel s.world.pot := hsame
      exact hchannel ▸ ⟨hlocked, ho⟩
    · exact outlived_touches htouch ha.1 ha.2 hlocked ho
  | revert _ _ _ => exact ⟨hlocked, ho⟩
  | token _ _ => exact ⟨hlocked, ho⟩

theorem holdsLock_of_outlived {s : Chain τ}
    (hlocked : t.cumulative ≤ (t.channel s.world.pot).reserved)
    (ho : t.Outlived (t.channel s.world.pot)) : t.HoldsLock E s := by
  intro r hr
  have both := hr.invariant
    (P := fun s => t.cumulative ≤ (t.channel s.world.pot).reserved ∧
      t.Outlived (t.channel s.world.pot))
    (fun ha hs => outlived_step ha.1 ha.2 hs.1 hs.2) ⟨hlocked, ho⟩
  exact both.1

/-- Past the ticket's deadline nothing is left to wait for. -/
theorem holdsLock_of_late {s : Chain τ}
    (hlocked : t.cumulative ≤ (t.channel s.world.pot).reserved) (hlate : t.deadline < s.now) :
    t.HoldsLock E s := by
  intro r hr
  have both := hr.invariant
    (P := fun s => t.cumulative ≤ (t.channel s.world.pot).reserved ∧ t.deadline < s.now) ?_
    ⟨hlocked, hlate⟩
  · exact both.1
  · rintro s a s' ⟨ha, hstep⟩ ⟨hlocked, hlate⟩
    cases hstep with
    | call hnow _ _ => exact absurd (hnow.trans ha.1) (not_le.mpr hlate)
    | revert hnow _ _ => exact absurd (hnow.trans ha.1) (not_le.mpr hlate)
    | token hnow _ => exact ⟨hlocked, hlate.trans_le hnow⟩

end Held

section Lost

/-- A free balance and a lock of one client are owed side by side. -/
theorem balance_add_locked_le_owed (s : Storage) (client workerPayout : Address) :
    (s.accounts client).balance + (s.channels client workerPayout).locked ≤ owed s := by
  have hbalance := le_sum (fun c => (s.accounts c).balance) client
  have hrow := le_sum (fun p => (s.channels client p).locked) workerPayout
  have hsum := le_sum (fun c => ∑ p, (s.channels c p).locked) client
  have hle := hrow.trans hsum
  unfold owed
  omega

/-- What a close returns fits the client's balance. -/
theorem unspent_fits (hs : Solvent E w) (client workerPayout : Address) :
    (w.pot.accounts client).balance + (w.pot.channels client workerPayout).unspent < 2 ^ 256 := by
  have howed := balance_add_locked_le_owed w.pot client workerPayout
  have hcovered := hs.covered
  have hheld : held E w < 2 ^ 256 := E.token.balanceOf_lt _ _
  have hpaid := (hs.ordered client workerPayout).paid_le
  rw [Channel.locked_eq] at howed
  unfold Channel.unspent
  omega

/-- Anyone can close a channel that has outlived its deadline. -/
theorem close_expired (hs : Solvent E w) {client workerPayout : Address}
    (hopen : (w.pot.channels client workerPayout).appKey ≠ 0)
    (hexpired : (w.pot.channels client workerPayout).expired m.timestamp) :
    exec E m (.close client workerPayout) w = .ok { w with pot := unlock w.pot client workerPayout } := by
  rw [exec_eq_ok]
  refine ⟨trivial, ?_⟩
  simp only [run, bind_eq_ok, close_eq_ok, pure_eq_ok]
  exact ⟨_, ⟨hopen, .inr hexpired, (hs.ordered client workerPayout).earned_le,
    unspent_fits hs client workerPayout, rfl⟩, rfl⟩

theorem exists_other (a : Address) : ∃ b : Address, b ≠ a := by
  by_cases h : a = 0
  · exact ⟨1, h ▸ by decide⟩
  · exact ⟨0, Ne.symm h⟩

/-- Where the ticket outlives the channel, the lock can be closed away under it. -/
theorem not_holdsLock {s : Chain τ} (hs : Solvent E s.world) (htyped : s.world.pot.Typed)
    (hopen : (t.channel s.world.pot).appKey ≠ 0) (hwaiting : (t.channel s.world.pot).closeAt = 0)
    (hnow : s.now ≤ t.deadline) (hdeadline : (t.channel s.world.pot).deadline < t.deadline)
    (hearned : (t.channel s.world.pot).earned < t.cumulative) : ¬ t.HoldsLock E s := by
  intro h
  obtain ⟨anyone, hsender⟩ := exists_other E.self
  have hdated := (htyped.channels t.client t.workerPayout).dated hopen
  have hclose := close_expired (m := ⟨anyone, t.deadline⟩) hs hopen ⟨hdated, hdeadline⟩
  have hstep : restrict (Step E) t.InGrace s
      (.call ⟨anyone, t.deadline⟩ (.close t.client t.workerPayout))
      ⟨t.deadline, { s.world with pot := unlock s.world.pot t.client t.workerPayout }⟩ :=
    ⟨⟨le_rfl, fun htimed => htimed.1 hwaiting⟩, .call hnow hsender hclose⟩
  have hreserved := h _ (.single hstep)
  simp only [channel, unlock, Storage.setChannel_self, Channel.closed] at hreserved hearned
  omega

/-- A lock that carries the ticket is safe exactly if the channel outlasts the ticket, or nothing is
due on it, or the ticket's time is over. -/
theorem holdsLock_iff {s : Chain τ} (hs : Solvent E s.world) (htyped : s.world.pot.Typed)
    (hopen : (t.channel s.world.pot).appKey ≠ 0) (hwaiting : (t.channel s.world.pot).closeAt = 0)
    (hlocked : t.cumulative ≤ (t.channel s.world.pot).reserved) :
    t.HoldsLock E s ↔ t.Outlived (t.channel s.world.pot) ∨ t.deadline < s.now := by
  constructor
  · intro h
    by_contra hnot
    rw [not_or, Outlived, not_or] at hnot
    obtain ⟨⟨hdeadline, hearned⟩, hlate⟩ := hnot
    exact not_holdsLock hs htyped hopen hwaiting (not_lt.mp hlate) (not_le.mp hdeadline)
      (not_le.mp hearned) h
  · rintro (ho | hlate)
    · exact holdsLock_of_outlived hlocked ho
    · exact holdsLock_of_late hlocked hlate

end Lost

end Rootmode.Pot.SpendTicket
