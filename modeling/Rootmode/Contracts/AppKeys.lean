import Rootmode.Contracts.Replay

namespace Rootmode.Pot

open Lib Lib.Transition

variable {τ : Type} {E : Deployment τ} {m : Msg} {w w' : World τ}

section Key

variable {client workerPayout : Address} {c : Call} {ch : Channel} {s s' : Chain τ} {a : Act}

/-- A channel keeps the key it was opened with. -/
theorem Touches.appKey (h : Touches E m w client workerPayout c ch)
    (hkey : (w.pot.channels client workerPayout).appKey ≠ 0) :
    ch.appKey = (w.pot.channels client workerPayout).appKey := by
  cases h with
  | reserve g => exact (g.sameKey.resolve_left hkey).symm
  | commit _ => rfl
  | settle _ => rfl
  | collect _ => rfl
  | requestClose _ _ _ => rfl
  | close _ _ => rfl

theorem Step.appKey (h : Step E s a s')
    (hkey : (s.world.pot.channels client workerPayout).appKey ≠ 0) :
    (s'.world.pot.channels client workerPayout).appKey =
      (s.world.pot.channels client workerPayout).appKey := by
  cases h with
  | call _ _ hexec =>
    rcases exec_channel hexec client workerPayout with hsame | htouch
    · rw [hsame]
    · exact htouch.appKey hkey
  | revert _ _ _ => rfl
  | token _ _ => rfl

theorem runs_appKey (h : Runs (Step E) s s')
    (hkey : (s.world.pot.channels client workerPayout).appKey ≠ 0) :
    (s'.world.pot.channels client workerPayout).appKey =
      (s.world.pot.channels client workerPayout).appKey := by
  refine h.invariant (P := fun r => (r.world.pot.channels client workerPayout).appKey =
    (s.world.pot.channels client workerPayout).appKey) ?_ rfl
  intro r a r' hstep hr
  exact (hstep.appKey (hr ▸ hkey)).trans hr

end Key

namespace ReserveTicket

variable {t : ReserveTicket} {sig : Bytes}

/-- The ticket asks for more than is locked, within what the client has left, in time, and is signed by
the key the client has now. -/
structure Asks (E : Deployment τ) (t : ReserveTicket) (sig : Bytes) (m : Msg) (s : Storage) : Prop where
  words : t.maxAmount < 2 ^ 256 ∧ t.deadline < 2 ^ 64
  live : m.timestamp < t.deadline
  rises : (t.channel s).reserved < t.maxAmount
  funded : t.maxAmount ≤ (t.channel s).reserved + (s.accounts t.client).balance
  signed : recover E (ticketDigest E reserveTypehash t.client t.workerPayout t.maxAmount t.deadline)
    sig = .ok (s.accounts t.client).appKey

/-- No reserve of the ticket's channel takes effect. -/
def Unreserved (E : Deployment τ) (t : ReserveTicket) : Chain τ → Act → Prop
  | s, .call m (.reserve c p maxAmount deadline sig) => c = t.client → p = t.workerPayout →
    ∀ w, exec E m (.reserve c p maxAmount deadline sig) s.world ≠ .ok w
  | _, _ => True

/-- A client who closed a channel can reserve on it again with the key it has then. -/
def NeverLockedOut (E : Deployment τ) : Prop :=
  ∀ {s₀ s s' : Chain τ} {m m' : Msg} {t : ReserveTicket} {sig : Bytes} {w : World τ},
    s₀.Genesis → Runs (Step E) s₀ s → s.now ≤ m.timestamp → m.sender ≠ E.self →
    exec E m (.close t.client t.workerPayout) s.world = .ok w →
    Runs (restrict (Step E) (t.Unreserved E)) ⟨m.timestamp, w⟩ s' →
    s'.now ≤ m'.timestamp → m'.sender ≠ E.self → t.Asks E sig m' s'.world.pot →
    ∃ w', exec E m' (t.call sig) s'.world = .ok w'

/-- Such a ticket is turned down for the channel's own key, and for nothing else. -/
theorem Asks.accepted_iff (h : t.Asks E sig m w.pot) :
    (∃ w', exec E m (t.call sig) w = .ok w') ↔
      (t.channel w.pot).appKey = 0 ∨ (t.channel w.pot).appKey = (w.pot.accounts t.client).appKey := by
  have hfunded := h.funded
  have hlength := length_of_recover h.signed
  constructor
  · rintro ⟨w', hexec⟩
    obtain ⟨-, g, -⟩ := exec_eq_ok.mp hexec
    exact g.sameKey
  · intro hkey
    refine ⟨_, exec_eq_ok.mpr ⟨⟨h.words.1, h.words.2, hlength.le⟩, ?_, rfl⟩⟩
    refine ⟨h.live, recover_ne_zero h.signed, h.signed, hkey, h.rises, ?_⟩
    unfold channel at hfunded
    omega

/-- After a close, and whatever the client does but reserve on the channel, a ticket signed by the key
the client has is accepted exactly if that is the key the channel was opened with. -/
theorem accepted_iff_first_key {s₁ s s' : Chain τ} {m' : Msg}
    (hopen : (t.channel s₁.world.pot).appKey ≠ 0) (hrun : Runs (Step E) s₁ s)
    (hclose : exec E m (.close t.client t.workerPayout) s.world = .ok w)
    (hnow : s.now ≤ m.timestamp) (hsender : m.sender ≠ E.self)
    (hrun' : Runs (restrict (Step E) (t.Unreserved E)) ⟨m.timestamp, w⟩ s')
    (hasks : t.Asks E sig m' s'.world.pot) :
    (∃ w', exec E m' (t.call sig) s'.world = .ok w') ↔
      (s'.world.pot.accounts t.client).appKey = (t.channel s₁.world.pot).appKey := by
  have hall := (hrun.tail (.call hnow hsender hclose)).trans hrun'.of_restrict
  have hkey : (t.channel s'.world.pot).appKey = (t.channel s₁.world.pot).appKey :=
    runs_appKey hall hopen
  rw [hasks.accepted_iff, hkey]
  constructor
  · intro h
    exact (h.resolve_left hopen).symm
  · intro h
    exact .inr h.symm

section Local

open LocalChain

/-- The key the client changes to. -/
def newApp : Address := 0xA33

/-- A ticket for the channel that was closed, signed by a key. -/
def again : ReserveTicket := ⟨LocalChain.client, worker, maxJob, 1_010_000⟩

def againSig (key : Address) : Bytes :=
  sign key (ticketDigest deployment reserveTypehash again.client again.workerPayout again.maxAmount
    again.deadline)

/-- The client's limits as they were, with a key. -/
def rekeyed (key : Address) : Chain MockUsdc.Token :=
  (returned 1_000_900).after deployment ⟨LocalChain.client, 1_001_000⟩ (.setLimits maxJob maxDay key)

theorem asked_runs : Runs (Step deployment) posted asked :=
  .single (.after (.requestClose worker) (by decide) (by decide))

theorem returned_closes : exec deployment ⟨worker, 1_000_900⟩ (.close again.client again.workerPayout)
    asked.world = .ok (returned 1_000_900).world :=
  exec_after (by decide)

theorem rekeyed_runs (key : Address) : Runs (restrict (Step deployment) (again.Unreserved deployment))
    (returned 1_000_900) (rekeyed key) :=
  .single (a := .call ⟨LocalChain.client, 1_001_000⟩ (.setLimits maxJob maxDay key))
    ⟨trivial, .after _ (by decide) (by decide)⟩

theorem again_asks {key : Address} (hkey : key ≠ 0)
    (haccount : ((rekeyed key).world.pot.accounts again.client).appKey = key)
    (hrises : (again.channel (rekeyed key).world.pot).reserved < again.maxAmount)
    (hfunded : again.maxAmount ≤ (again.channel (rekeyed key).world.pot).reserved +
      ((rekeyed key).world.pot.accounts again.client).balance) :
    again.Asks deployment (againSig key) ⟨worker, 1_002_000⟩ (rekeyed key).world.pot where
  words := ⟨by decide, by decide⟩
  live := by decide
  rises := hrises
  funded := hfunded
  signed := by
    rw [haccount]
    exact recover_sign rfl hkey _

theorem posted_key : (again.channel posted.world.pot).appKey = app := by decide

theorem posted_open : (again.channel posted.world.pot).appKey ≠ 0 := by
  rw [posted_key]
  exact app_ne_zero

/-- With its old key the client is back. -/
theorem accepted_iff_first_key_app :
    ∃ w', exec deployment ⟨worker, 1_002_000⟩ (again.call (againSig app)) (rekeyed app).world =
      .ok w' := by
  have hasks : again.Asks deployment (againSig app) ⟨worker, 1_002_000⟩ (rekeyed app).world.pot :=
    again_asks app_ne_zero (by decide) (by decide) (by decide)
  refine (accepted_iff_first_key posted_open asked_runs returned_closes (by decide) (by decide)
    (rekeyed_runs app) hasks).mpr ?_
  rw [posted_key]
  decide

/-- With a new one it is not. -/
theorem locked_out : ¬ NeverLockedOut deployment := by
  intro h
  have hasks : again.Asks deployment (againSig newApp) ⟨worker, 1_002_000⟩
      (rekeyed newApp).world.pot :=
    again_asks (by decide) (by decide) (by decide) (by decide)
  have hposted : Runs (Step deployment) start posted :=
    (funded_runs maxDay).tail (step_reserved (by decide) (by decide) (by decide))
  have haccepted := h start_genesis (hposted.trans asked_runs) (by decide) (by decide)
    returned_closes (rekeyed_runs newApp) (by decide) (by decide) hasks
  rw [hasks.accepted_iff] at haccepted
  exact absurd haccepted (by decide)

end Local

end ReserveTicket

end Rootmode.Pot
