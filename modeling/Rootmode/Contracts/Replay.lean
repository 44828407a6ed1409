import Rootmode.Contracts.LocalChain

namespace Rootmode.Pot

open Lib Lib.Transition

variable {τ : Type} {E : Deployment τ} {m : Msg} {w w' : World τ}

/-- What the app key signs before work starts. -/
structure ReserveTicket where
  client : Address
  workerPayout : Address
  maxAmount : ℕ
  deadline : ℕ
  deriving DecidableEq

namespace ReserveTicket

variable (t : ReserveTicket)

def call (sig : Bytes) : Call := .reserve t.client t.workerPayout t.maxAmount t.deadline sig

/-- The channel the ticket locks money on. -/
def channel (s : Storage) : Channel := s.channels t.client t.workerPayout

/-- The runs of `step` post the ticket at most once: after a post that took effect none does. -/
def SingleUse (E : Deployment τ) (step : Labelled (Chain τ) Act) : Prop :=
  ∀ {s₀ s r : Chain τ} {m m' : Msg} {sig sig' : Bytes} {w w' : World τ},
    s₀.Genesis → Runs (Step E) s₀ s → s.now ≤ m.timestamp → m.sender ≠ E.self →
    exec E m (t.call sig) s.world = .ok w → Runs step ⟨m.timestamp, w⟩ r →
    r.now ≤ m'.timestamp → exec E m' (t.call sig') r.world ≠ .ok w'

/-- A close of the ticket's channel waits for the ticket's own deadline, or the whole ticket is
earned by then. -/
def Outlasts : Chain τ → Act → Prop
  | s, .call m (.close client workerPayout) =>
    client = t.client → workerPayout = t.workerPayout →
      t.deadline ≤ m.timestamp ∨ t.maxAmount ≤ (t.channel s.world.pot).earned
  | _, _ => True

/-- The ticket is out of date, or the lock is already as high as it asks for. -/
def Spent (now : ℕ) (s : Storage) : Prop :=
  t.deadline ≤ now ∨ t.maxAmount ≤ (t.channel s).reserved

variable {t}

theorem exec_eq_ok {sig : Bytes} :
    exec E m (t.call sig) w = .ok w' ↔
      (t.call sig).Decodes ∧
      ReserveGuard E m t.client t.workerPayout t.maxAmount t.deadline sig w.pot ∧
      ⟨lock w.pot t.client t.workerPayout t.maxAmount t.deadline, w.usdc⟩ = w' := by
  simp only [Pot.exec_eq_ok, call, run, Checked.bind_eq_ok, reserve_eq_ok, pure_eq_ok]
  constructor
  · rintro ⟨hdec, pot, ⟨g, rfl⟩, rfl⟩
    exact ⟨hdec, g, rfl⟩
  · rintro ⟨hdec, g, rfl⟩
    exact ⟨hdec, _, ⟨g, rfl⟩, rfl⟩

theorem spent_of_posted {sig : Bytes} (h : exec E m (t.call sig) w = .ok w') :
    t.Spent m.timestamp w'.pot := by
  obtain ⟨-, -, rfl⟩ := exec_eq_ok.mp h
  right
  simp [channel, lock, Channel.raised]

theorem Spent.not_posted {now : ℕ} (h : t.Spent now w.pot) (hnow : now ≤ m.timestamp)
    {sig : Bytes} : exec E m (t.call sig) w ≠ .ok w' := by
  intro hexec
  obtain ⟨-, g, -⟩ := exec_eq_ok.mp hexec
  rcases h with hlate | hlocked
  · exact absurd g.live (by omega)
  · exact absurd g.rises (by unfold channel at hlocked; omega)

theorem Spent.later {now now' : ℕ} {s : Storage} (h : t.Spent now s) (hle : now ≤ now') :
    t.Spent now' s :=
  h.imp_left (·.trans hle)

/-- Only a close lowers the lock, and only to what is earned. -/
theorem Spent.exec {now : ℕ} {c : Call} (h : t.Spent now w.pot) (hnow : now ≤ m.timestamp)
    (hexec : exec E m c w = .ok w') (hc : t.Outlasts ⟨now, w⟩ (.call m c)) :
    t.Spent m.timestamp w'.pot := by
  rcases h.later hnow with hlate | hlocked
  · exact .inl hlate
  unfold Spent channel at *
  rcases exec_channel hexec t.client t.workerPayout with hsame | htouch
  · rw [hsame]
    exact .inr hlocked
  · generalize w'.pot.channels t.client t.workerPayout = ch at htouch ⊢
    cases htouch with
    | reserve g => exact .inr (hlocked.trans g.rises.le)
    | commit _ => exact .inr hlocked
    | settle _ => exact .inr hlocked
    | collect _ => exact .inr hlocked
    | requestClose _ _ _ => exact .inr hlocked
    | close _ _ => exact hc rfl rfl

theorem Spent.step {s s' : Chain τ} {a : Act} (ha : t.Outlasts s a) (h : Step E s a s')
    (hs : t.Spent s.now s.world.pot) : t.Spent s'.now s'.world.pot := by
  cases h with
  | call hnow _ hexec => exact hs.exec hnow hexec ha
  | revert hnow _ _ => exact hs.later hnow
  | token hnow _ => exact hs.later hnow

theorem Spent.runs {s s' : Chain τ} (h : Runs (restrict (Step E) t.Outlasts) s s')
    (hs : t.Spent s.now s.world.pot) : t.Spent s'.now s'.world.pot :=
  h.invariant (P := fun s => t.Spent s.now s.world.pot) (fun ha => Spent.step ha.1 ha.2) hs

/-- After a close that lowered the lock, the ticket goes through again exactly while it is in force
and not all earned. -/
theorem posted_after_close {sig : Bytes} {s s' : Storage} {usdc : τ} {m' : Msg}
    (hdec : (t.call sig).Decodes) (hlock : t.maxAmount ≤ (t.channel s).reserved)
    (hkey : (s.accounts t.client).appKey = (t.channel s).appKey)
    (hsig : recover E (ticketDigest E reserveTypehash t.client t.workerPayout t.maxAmount
      t.deadline) sig = .ok (t.channel s).appKey)
    (h : close m' t.client t.workerPayout s = .ok s') :
    (∃ w', exec E m (t.call sig) ⟨s', usdc⟩ = .ok w') ↔
      m.timestamp < t.deadline ∧ (t.channel s).earned < t.maxAmount := by
  obtain ⟨hopen, -, -, -, rfl⟩ := close_eq_ok.mp h
  unfold channel at *
  constructor
  · rintro ⟨w', hexec⟩
    obtain ⟨-, g, -⟩ := exec_eq_ok.mp hexec
    refine ⟨g.live, ?_⟩
    have hrise := g.rises
    simpa [unlock, Channel.closed] using hrise
  · rintro ⟨hlive, hearned⟩
    refine ⟨_, exec_eq_ok.mpr ⟨hdec, ?_, rfl⟩⟩
    refine ⟨hlive, ?_, ?_, .inr ?_, ?_, ?_⟩
    · simpa [unlock, hkey] using hopen
    · simpa [unlock, hkey] using hsig
    · simp [unlock, Channel.closed, hkey]
    · simpa [unlock, Channel.closed] using hearned
    · simp only [unlock, Storage.setChannel_self, Storage.setChannel_accounts,
        Storage.setAccount_self, Channel.closed, Channel.unspent]
      omega

section Local

open LocalChain

/-- Half a dollar for an hour. -/
def half : ReserveTicket := ⟨LocalChain.client, worker, maxJob, 1_003_600⟩

def halfSig : Bytes :=
  sign app (ticketDigest deployment reserveTypehash half.client half.workerPayout half.maxAmount
    half.deadline)

def post : Msg := ⟨worker, 1_000_000⟩

def posted : Chain MockUsdc.Token := reserved (funded maxDay) post worker maxJob 1_003_600

theorem post_accepted :
    exec deployment post (half.call halfSig) (funded maxDay).world = .ok posted.world :=
  exec_reserveTicket (by decide)

/-- The client asks for the lock back. -/
def asked : Chain MockUsdc.Token :=
  posted.after deployment ⟨LocalChain.client, 1_000_000⟩ (.requestClose worker)

/-- It is given back, at `now`. -/
def returned (now : ℕ) : Chain MockUsdc.Token :=
  asked.after deployment ⟨worker, now⟩ (.close LocalChain.client worker)

end Local

end ReserveTicket

end Rootmode.Pot
