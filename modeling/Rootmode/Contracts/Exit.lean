import Rootmode.Contracts.Consent
import Rootmode.Contracts.Replay

namespace Rootmode.Pot

open Lib Lib.Checked Lib.TotalMap Lib.Transition

variable {τ : Type} {E : Deployment τ} {m m' m'' : Msg} {c : Call} {w w' : World τ} {client workerPayout : Address}
  {s s' s₀ : Chain τ} {a : Act} {closeAt : ℕ}

/-- The storage after a client asked for a lock back. -/
def noticed (E : Deployment τ) (m : Msg) (workerPayout : Address) (s : Storage) : Storage :=
  s.setChannel m.sender workerPayout
    { s.channels m.sender workerPayout with closeAt := m.timestamp + E.grace }

/-- What puts a close off: a ticket that raises the lock, or another notice of the client's. -/
def Reopens (E : Deployment τ) (client workerPayout : Address) (s : Chain τ) : Act → Prop
  | .call m (.reserve c p amount deadline sig) =>
    (c = client ∧ p = workerPayout) ∧ (exec E m (.reserve c p amount deadline sig) s.world).isOk
  | .call m (.requestClose p) => m.sender = client ∧ p = workerPayout
  | _ => False

/-- The close that was asked for is waiting for its time, unless the lock was given back already. -/
structure Leaving (closeAt : ℕ) (ch : Channel) : Prop where
  isOpen : ch.appKey ≠ 0
  due : ch.closeAt = closeAt ∨ ch.reserved = ch.earned

section Notice

variable {ch : Channel}

/-- A ticket that is recognised meanwhile was covered by the lock. -/
theorem Leaving.recognized {cumulative deadline : ℕ} {sig : Bytes}
    (h : Leaving closeAt (w.pot.channels client workerPayout))
    (g : RecognizeGuard E m client workerPayout cumulative deadline sig w.pot)
    (hkey : ch.appKey = (w.pot.channels client workerPayout).appKey)
    (hcloseAt : ch.closeAt = (w.pot.channels client workerPayout).closeAt) : Leaving closeAt ch := by
  refine ⟨hkey ▸ h.isOpen, ?_⟩
  rcases h.due with hwaits | hback
  · exact .inl (hcloseAt.trans hwaits)
  · have hrises := g.rises
    have hlocked := g.locked
    omega

theorem Leaving.touches (h : Leaving closeAt (s.world.pot.channels client workerPayout))
    (htouch : Touches E m s.world client workerPayout c ch) (hexec : exec E m c s.world = .ok w')
    (hc : ¬ Reopens E client workerPayout s (.call m c)) : Leaving closeAt ch := by
  cases htouch with
  | reserve g => exact absurd ⟨⟨rfl, rfl⟩, by rw [hexec]; rfl⟩ hc
  | commit g => exact h.recognized g rfl rfl
  | settle g => exact h.recognized g rfl rfl
  | collect _ => exact ⟨h.isOpen, h.due⟩
  | requestClose hm _ _ => exact absurd ⟨hm, rfl⟩ hc
  | close _ _ => exact ⟨h.isOpen, .inr rfl⟩

theorem Leaving.step (h : Leaving closeAt (s.world.pot.channels client workerPayout)) (hstep : Step E s a s')
    (ha : ¬ Reopens E client workerPayout s a) : Leaving closeAt (s'.world.pot.channels client workerPayout) := by
  cases hstep with
  | call _ _ hexec =>
    rcases exec_channel hexec client workerPayout with hsame | htouch
    · exact hsame ▸ h
    · exact h.touches htouch hexec ha
  | revert _ _ _ => exact h
  | token _ _ => exact h

end Notice

section Exit

/-- Whatever is free is there to be taken. -/
theorem withdraws (hs : Solvent E w) (hm : m.sender ≠ E.self) :
    ∃ w', exec E m .withdrawAll w = .ok w' ∧ E.token.balanceOf w'.usdc m.sender =
      E.token.balanceOf w.usdc m.sender + (w.pot.accounts m.sender).balance := by
  have hfree : (w.pot.accounts m.sender).balance ≤ E.token.balanceOf w.usdc E.self := by
    have howed := SpendTicket.balance_add_locked_le_owed w.pot m.sender 0
    have hcovered := hs.covered
    rw [held] at hcovered
    omega
  obtain ⟨usdc, hpush⟩ := pushSome_pays m.sender hfree
  have hmoves : E.token.balanceOf usdc m.sender =
      E.token.balanceOf w.usdc m.sender + (w.pot.accounts m.sender).balance := by
    rw [pushSome] at hpush
    split at hpush
    · rw [(push_moves hpush).2, moved_to _ _ (Ne.symm hm)]
    · next hnone =>
      cases hpush
      omega
  have hwithdraw : exec E m .withdrawAll w = .ok
      ⟨w.pot.setAccount m.sender { w.pot.accounts m.sender with balance := 0, appKey := 0 }, usdc⟩ := by
    refine exec_eq_ok.mpr ⟨trivial, ?_⟩
    simp only [run, withdrawAll, bind_eq_ok, pure_eq_ok]
    exact ⟨usdc, hpush, rfl⟩
  exact ⟨_, hwithdraw, hmoves⟩

/-- Something is locked on open channels only. -/
theorem open_of_reserved (h₀ : s₀.Genesis) (h : Runs (Step E) s₀ s)
    (hlocked : 0 < (s.world.pot.channels client workerPayout).reserved) :
    (s.world.pot.channels client workerPayout).appKey ≠ 0 := by
  obtain ⟨log, hlog⟩ := h.logged (deeds E)
  have hconsents := consents_genesis h₀ hlog client workerPayout
  intro hclosed
  have hnone := hconsents.reserved
  rw [hconsents.unopened hclosed] at hnone
  exact absurd hnone (not_le.mpr hlocked)

/-- After the grace the lock is free for good. -/
theorem Leaving.closes (h : Leaving closeAt (w.pot.channels client workerPayout)) (hs : Solvent E w)
    (hm : m.sender ≠ E.self) (hset : closeAt ≠ 0) (hover : closeAt ≤ m.timestamp) :
    ∃ w', (exec E m (.close client workerPayout) w = .ok w' ∨
        (w.pot.channels client workerPayout).unspent = 0 ∧ w' = w) ∧
      Solvent E w' ∧ w'.usdc = w.usdc ∧ (w'.pot.accounts client).balance =
        (w.pot.accounts client).balance + (w.pot.channels client workerPayout).unspent := by
  rcases h.due with hwaits | hback
  · have hclose : exec E m (.close client workerPayout) w = .ok { w with pot := unlock w.pot client workerPayout } := by
      refine exec_eq_ok.mpr ⟨trivial, ?_⟩
      simp only [run, bind_eq_ok, close_eq_ok, pure_eq_ok]
      exact ⟨_, ⟨h.isOpen, .inl ⟨hwaits ▸ hset, hwaits ▸ hover⟩, (hs.ordered client workerPayout).earned_le,
        SpendTicket.unspent_fits hs client workerPayout, rfl⟩, rfl⟩
    refine ⟨_, .inl hclose, exec_solvent hm hclose hs, rfl, ?_⟩
    rw [unlock, Storage.setChannel_accounts, Storage.setAccount_self]
  · have hnone : (w.pot.channels client workerPayout).unspent = 0 := by
      rw [Channel.unspent, hback, Nat.sub_self]
    exact ⟨w, .inr ⟨hnone, rfl⟩, hs, rfl, by rw [hnone, add_zero]⟩

/-- A client can always leave: it may ask for whatever is locked and not earned, and once the grace is over, with no
ticket of its own key that raises the lock meanwhile, gets that and all it has free. -/
theorem exits (h₀ : s₀.Genesis) (h : Runs (Step E) s₀ s) (hnow : s.now ≤ m.timestamp) (hm : m.sender ≠ E.self)
    (hlocked : 0 < (s.world.pot.channels m.sender workerPayout).unspent) (hset : 0 < m.timestamp + E.grace)
    (htime : m.timestamp + E.grace < 2 ^ 64) :
    ∃ w, exec E m (.requestClose workerPayout) s.world = .ok w ∧
      ∀ s', Runs (restrict (Step E) fun s a => ¬ Reopens E m.sender workerPayout s a) ⟨m.timestamp, w⟩ s' →
        ∀ m' m'', m'.sender ≠ E.self → m.timestamp + E.grace ≤ m'.timestamp → m''.sender = m.sender →
          ∃ w₁ w₂,
            (exec E m' (.close m.sender workerPayout) s'.world = .ok w₁ ∨
              (s'.world.pot.channels m.sender workerPayout).unspent = 0 ∧ w₁ = s'.world) ∧
            exec E m'' .withdrawAll w₁ = .ok w₂ ∧
            E.token.balanceOf w₂.usdc m.sender = E.token.balanceOf s'.world.usdc m.sender +
              ((s'.world.pot.accounts m.sender).balance +
                (s'.world.pot.channels m.sender workerPayout).unspent) := by
  have hrises : (s.world.pot.channels m.sender workerPayout).earned <
      (s.world.pot.channels m.sender workerPayout).reserved := Nat.sub_pos_iff_lt.mp hlocked
  have hopen := open_of_reserved h₀ h (Nat.zero_lt_of_lt hrises)
  have hask : exec E m (.requestClose workerPayout) s.world =
      .ok ⟨noticed E m workerPayout s.world.pot, s.world.usdc⟩ := by
    refine exec_eq_ok.mpr ⟨trivial, ?_⟩
    simp only [run, bind_eq_ok, requestClose_eq_ok, pure_eq_ok]
    exact ⟨_, ⟨hopen, hrises, (Nat.le_add_right _ _).trans_lt htime, htime, rfl⟩, rfl⟩
  refine ⟨_, hask, ?_⟩
  intro s' hrun m' m'' hm' hover hm''
  have hasked : Leaving (m.timestamp + E.grace)
      ((noticed E m workerPayout s.world.pot).channels m.sender workerPayout) := by
    rw [noticed, Storage.setChannel_self]
    exact ⟨hopen, .inl rfl⟩
  have hleaving : Leaving (m.timestamp + E.grace) (s'.world.pot.channels m.sender workerPayout) :=
    hrun.invariant (P := fun s => Leaving (m.timestamp + E.grace) (s.world.pot.channels m.sender workerPayout))
      (fun hstep hs => hs.step hstep.2 hstep.1) hasked
  have hsolvent : Solvent E s'.world :=
    h₀.runs_solvent ((h.tail (.call hnow hm hask)).trans hrun.of_restrict)
  obtain ⟨w₁, hclose, hsolvent₁, husdc, hbalance⟩ := hleaving.closes hsolvent hm' hset.ne' hover
  obtain ⟨w₂, hwithdraw, hpaid⟩ := withdraws hsolvent₁ (hm''.symm ▸ hm : m''.sender ≠ E.self)
  refine ⟨w₁, w₂, hclose, hwithdraw, ?_⟩
  rw [hm'', husdc, hbalance] at hpaid
  exact hpaid

open LocalChain ReserveTicket in
/-- Fifteen minutes after it asked for the half dollar, the client has its hundred dollars back. -/
theorem exits_posted : ∃ w₁ w₂ : World MockUsdc.Token,
    (exec deployment ⟨worker, 1_000_900⟩ (.close LocalChain.client worker) asked.world = .ok w₁ ∨
      (asked.world.pot.channels LocalChain.client worker).unspent = 0 ∧ w₁ = asked.world) ∧
    exec deployment ⟨LocalChain.client, 1_000_900⟩ .withdrawAll w₁ = .ok w₂ ∧
    w₂.usdc.balanceOf LocalChain.client = 100_000_000 := by
  have hposted : Runs (Step deployment) start posted :=
    (funded_runs maxDay).tail (.call (by decide) (by decide) post_accepted)
  obtain ⟨w, hask, hexit⟩ := exits (m := ⟨LocalChain.client, 1_000_000⟩) start_genesis hposted
    (by decide) (by decide) (show 0 < (posted.world.pot.channels LocalChain.client worker).unspent by decide)
    (by decide) (by decide)
  have hasked : exec deployment ⟨LocalChain.client, 1_000_000⟩ (.requestClose worker) posted.world = .ok asked.world :=
    exec_after (by decide)
  have hw : w = asked.world := Except.ok.inj (hask.symm.trans hasked)
  subst hw
  obtain ⟨w₁, w₂, hclose, hwithdraw, hpaid⟩ := hexit asked (.refl _) ⟨worker, 1_000_900⟩
    ⟨LocalChain.client, 1_000_900⟩ (by decide) (by decide) rfl
  exact ⟨w₁, w₂, hclose, hwithdraw, hpaid.trans (by decide)⟩

end Exit

end Rootmode.Pot
