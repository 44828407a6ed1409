import Rootmode.Contracts.Solvency

namespace Rootmode.Pot

open Lib Lib.Checked Lib.TotalMap Lib.Transition

variable {τ : Type} {E : Deployment τ} {m : Msg} {w w' : World τ}

/-- What the app key signs as work is delivered. -/
structure SpendTicket where
  client : Address
  workerPayout : Address
  cumulative : ℕ
  deadline : ℕ
  deriving DecidableEq

namespace SpendTicket

variable (t : SpendTicket)

def settle (sig : Bytes) : Call := .settle t.client t.workerPayout t.cumulative t.deadline sig

def channel (s : Storage) : Channel := s.channels t.client t.workerPayout

/-- What the ticket adds to its channel. -/
def delta (ch : Channel) : ℕ := t.cumulative - ch.earned

/-- The channel's own key signed the ticket, and the channel can carry it. -/
structure Backed (E : Deployment τ) (sig : Bytes) (ch : Channel) : Prop where
  signed : recover E (ticketDigest E ticketTypehash t.client t.workerPayout t.cumulative
    t.deadline) sig = .ok ch.appKey
  rises : ch.earned < t.cumulative
  locked : t.cumulative ≤ ch.reserved
  jobCap : t.delta ch ≤ ch.maxPerJob

/-- Before the ticket's deadline, the channel's deadline and the close grace have passed. -/
structure Window (ch : Channel) (now : ℕ) : Prop where
  live : now ≤ t.deadline
  waiting : ¬ ch.timedOut now
  running : ¬ ch.expired now

/-- The call puts a spend ticket of the same channel to the contract. -/
def Rivals : Call → Prop
  | .commit client workerPayout _ _ _ => client = t.client ∧ workerPayout = t.workerPayout
  | .settle client workerPayout _ _ _ => client = t.client ∧ workerPayout = t.workerPayout
  | _ => False

/-- A move inside the window that leaves the channel's own tickets alone. -/
def Spares : Chain τ → Act → Prop
  | s, .call m c => t.Window (t.channel s.world.pot) m.timestamp ∧ ¬ t.Rivals c
  | _, .token _ => True

/-- The spend of the client's account in the day of `now`, with the ticket, is within the daily cap
of the channel, and both it and the fee on the payment can be computed. -/
structure DayRoom (s : Storage) (now : ℕ) : Prop where
  capped : 0 < (t.channel s).maxPerDay →
    ((s.accounts t.client).rolled now).spentToday + t.delta (t.channel s) ≤
      (t.channel s).maxPerDay
  spentFits : ((s.accounts t.client).rolled now).spentToday + t.delta (t.channel s) < 2 ^ 256
  feeFits : (t.cumulative - (t.channel s).paid) * feeBps < 2 ^ 256

variable {t} {sig : Bytes} {ch : Channel}

/-- Only the channel's own tickets, or a close that is due, can take the backing away. -/
theorem Backed.touches {c : Call} (h : t.Backed E sig (t.channel w.pot))
    (htouch : Touches E m w t.client t.workerPayout c ch)
    (hwin : t.Window (t.channel w.pot) m.timestamp) (hc : ¬ t.Rivals c) : t.Backed E sig ch := by
  cases htouch with
  | reserve g =>
    have hkey : (w.pot.accounts t.client).appKey = (t.channel w.pot).appKey := by
      rcases g.sameKey with hnone | hsame
      · exact absurd hnone (recover_ne_zero h.signed)
      · exact hsame.symm
    refine ⟨?_, h.rises, h.locked.trans g.rises.le, h.jobCap.trans (le_raiseCap _ _)⟩
    simpa only [Channel.raised, hkey] using h.signed
  | commit _ => exact absurd ⟨rfl, rfl⟩ hc
  | settle _ => exact absurd ⟨rfl, rfl⟩ hc
  | collect _ => exact ⟨h.signed, h.rises, h.locked, h.jobCap⟩
  | requestClose _ _ _ => exact ⟨h.signed, h.rises, h.locked, h.jobCap⟩
  | close hdue _ => exact absurd hdue (not_or.mpr ⟨hwin.waiting, hwin.running⟩)

theorem Backed.step {s s' : Chain τ} {a : Act} (ha : t.Spares s a) (h : Step E s a s')
    (hs : t.Backed E sig (t.channel s.world.pot)) : t.Backed E sig (t.channel s'.world.pot) := by
  cases h with
  | call _ _ hexec =>
    rcases exec_channel hexec t.client t.workerPayout with hsame | htouch
    · have hchannel : t.channel _ = t.channel s.world.pot := hsame
      exact hchannel ▸ hs
    · exact hs.touches htouch ha.1 ha.2
  | revert _ _ _ => exact hs
  | token _ _ => exact hs

theorem Backed.runs {s s' : Chain τ} (h : Runs (restrict (Step E) t.Spares) s s')
    (hs : t.Backed E sig (t.channel s.world.pot)) : t.Backed E sig (t.channel s'.world.pot) :=
  h.invariant (P := fun s => t.Backed E sig (t.channel s.world.pot))
    (fun ha => Backed.step ha.1 ha.2) hs

/-- A backed ticket inside its window passes every check but the daily ones. -/
theorem Backed.guard {s : Storage} (h : t.Backed E sig (t.channel s)) {now : ℕ}
    (hnow : m.timestamp = now) (hlive : now ≤ t.deadline) (hclock : t.deadline < 2 ^ 64)
    (hroom : t.DayRoom s now) :
    RecognizeGuard E m t.client t.workerPayout t.cumulative t.deadline sig s := by
  subst hnow
  refine ⟨recover_ne_zero h.signed, hlive, h.rises, h.locked, ?_, h.jobCap, ?_, hroom.capped,
    hroom.spentFits, h.signed⟩
  · have hrises := h.rises
    have hjob := h.jobCap
    unfold delta channel at *
    omega
  · intro _
    omega

theorem locked_le_owed (s : Storage) (client workerPayout : Address) :
    (s.channels client workerPayout).locked ≤ owed s := by
  have hrow := le_sum (fun p => (s.channels client p).locked) workerPayout
  have hsum := le_sum (fun c => ∑ p, (s.channels c p).locked) client
  have hle := hrow.trans hsum
  unfold owed
  omega

/-- What a ticket makes due is held: it is locked, and the contract is solvent. -/
theorem Backed.due_le_held {s : Chain τ} (h : t.Backed E sig (t.channel s.world.pot))
    (hs : Solvent E s.world) (m : Msg) :
    ((recognized m s.world.pot t.client t.workerPayout t.cumulative).channels t.client
      t.workerPayout).due ≤ held E s.world := by
  have hcovered := hs.covered
  have hlocked := locked_le_owed s.world.pot t.client t.workerPayout
  have hcarried := h.locked
  rw [Channel.locked_eq] at hlocked
  simp only [recognized, Storage.setChannel_self, Channel.due]
  unfold channel at *
  omega

/-- A backed ticket the day has room for is paid. -/
theorem Backed.settles {s : Chain τ} (h : t.Backed E sig (t.channel s.world.pot))
    (hs : Solvent E s.world) (hdec : (t.settle sig).Decodes) (hlive : m.timestamp ≤ t.deadline)
    (hroom : t.DayRoom s.world.pot m.timestamp) :
    ∃ w', exec E m (t.settle sig) s.world = .ok w' := by
  have g := h.guard rfl hlive hdec.2.1 hroom
  have hpaid : ((recognized m s.world.pot t.client t.workerPayout t.cumulative).channels t.client
      t.workerPayout).paid < ((recognized m s.world.pot t.client t.workerPayout
        t.cumulative).channels t.client t.workerPayout).earned := by
    simpa [recognized] using (hs.ordered t.client t.workerPayout).paid_le.trans_lt g.rises
  have hfee : ((recognized m s.world.pot t.client t.workerPayout t.cumulative).channels t.client
      t.workerPayout).due * feeBps < 2 ^ 256 := by
    simpa [recognized, Channel.due, channel] using hroom.feeFits
  obtain ⟨w', hpay⟩ := pay_pays (E := E)
    (w := ⟨recognized m s.world.pot t.client t.workerPayout t.cumulative, s.world.usdc⟩)
    hpaid hfee (h.due_le_held hs m)
  simp only [exec_eq_ok, settle, run, settle_eq_ok]
  exact ⟨w', hdec, g, hpay⟩

/-- The worker's settle of a backed ticket goes through exactly when the account's day has room for
it, whatever was done in between to this channel or any other. -/
theorem settle_iff_dayRoom {s₀ s r : Chain τ} (h₀ : s₀.Genesis) (hrun : Runs (Step E) s₀ s)
    (hdec : (t.settle sig).Decodes) (hs : t.Backed E sig (t.channel s.world.pot))
    (hmoves : Runs (restrict (Step E) t.Spares) s r)
    (hwin : t.Window (t.channel r.world.pot) m.timestamp) :
    (∃ w', exec E m (t.settle sig) r.world = .ok w') ↔ t.DayRoom r.world.pot m.timestamp := by
  have hr := hs.runs hmoves
  have hsolvent := h₀.runs_solvent (hrun.trans hmoves.of_restrict)
  constructor
  · rintro ⟨w', hexec⟩
    simp only [exec_eq_ok, settle, run, settle_eq_ok] at hexec
    obtain ⟨-, g, hpay⟩ := hexec
    obtain ⟨-, hfee, -⟩ := pay_ok hpay
    refine ⟨g.dayCap, g.fits, ?_⟩
    simpa [recognized, Channel.due, channel] using hfee
  · intro hroom
    exact hr.settles hsolvent hdec hwin.live hroom

section Local

open LocalChain

/-- A move of the client's own inside the window, on anything but the channel's own tickets. -/
def ByClient (t : SpendTicket) (s : Chain τ) : Act → Prop
  | .call m c => m.sender = t.client ∧ t.Spares s (.call m c)
  | .token _ => True

/-- Nothing the client does in the window makes the settle of a backed ticket revert.  The day's
spend on the channel is at most all it ever earned, so this asks more of the ticket than that the
day has room for it on its channel. -/
def Guaranteed (E : Deployment τ) (t : SpendTicket) : Prop :=
  ∀ {s₀ s r : Chain τ} {m : Msg} {sig : Bytes}, s₀.Genesis → Runs (Step E) s₀ s →
    (t.settle sig).Decodes → t.Backed E sig (t.channel s.world.pot) →
    (0 < (t.channel s.world.pot).maxPerDay → t.cumulative ≤ (t.channel s.world.pot).maxPerDay) →
    Runs (restrict (Step E) t.ByClient) s r → r.now ≤ m.timestamp → m.sender ≠ E.self →
    t.Window (t.channel r.world.pot) m.timestamp →
    ∃ w', exec E m (t.settle sig) r.world = .ok w'

/-- A quarter of a dollar of work under a daily cap of sixty cents. -/
def work : SpendTicket := ⟨LocalChain.client, worker, 250_000, 1_003_600⟩

def workSig : Bytes :=
  sign app (ticketDigest deployment ticketTypehash work.client work.workerPayout work.cumulative
    work.deadline)

def capped : Chain MockUsdc.Token :=
  reserved (funded 600_000) ⟨worker, 1_000_000⟩ worker maxJob 1_003_600

theorem capped_runs : Runs (Step deployment) start capped :=
  (funded_runs 600_000).tail (step_reserved (by decide) (by decide) (by decide))

theorem work_key : (work.channel capped.world.pot).appKey = app := by decide

theorem work_backed : work.Backed deployment workSig (work.channel capped.world.pot) where
  signed := by
    rw [work_key]
    exact recover_sign rfl app_ne_zero _
  rises := by decide
  locked := by decide
  jobCap := by decide

theorem work_decodes : (work.settle workSig).Decodes :=
  ⟨by decide, by decide, (length_sign _ _).le⟩

/-- Left alone, the worker is paid. -/
theorem settle_iff_dayRoom_capped :
    ∃ w', exec deployment ⟨worker, 1_000_300⟩ (work.settle workSig) capped.world = .ok w' := by
  refine (settle_iff_dayRoom (m := ⟨worker, 1_000_300⟩) start_genesis capped_runs work_decodes
    work_backed (.refl capped) ?_).mpr ?_
  · exact ⟨by decide, by decide, by decide⟩
  · exact ⟨by decide, by decide, by decide⟩

def accomplice : Address := 0xE71

/-- The client reserves for a payout of its own. -/
def diverted : Chain MockUsdc.Token :=
  reserved capped ⟨LocalChain.client, 1_000_100⟩ accomplice maxJob 1_003_600

/-- And settles half a dollar there. -/
def drained : Chain MockUsdc.Token :=
  settled diverted ⟨LocalChain.client, 1_000_200⟩ accomplice maxJob

theorem drained_runs : Runs (restrict (Step deployment) work.ByClient) capped drained := by
  have hreserve : restrict (Step deployment) work.ByClient capped
      (.call ⟨LocalChain.client, 1_000_100⟩ (reserveTicket accomplice maxJob 1_003_600))
      diverted := by
    refine ⟨⟨rfl, ⟨by decide, by decide, by decide⟩, not_false⟩, ?_⟩
    exact step_reserved (by decide) (by decide) (by decide)
  have hsettle : restrict (Step deployment) work.ByClient diverted
      (.call ⟨LocalChain.client, 1_000_200⟩ (spendTicket accomplice maxJob 1_003_600))
      drained := by
    refine ⟨⟨rfl, ⟨by decide, by decide, by decide⟩, ?_⟩, ?_⟩
    · rintro ⟨-, hsame⟩
      exact absurd hsame (by decide)
    · exact step_settled 1_003_600 (by decide) (by decide) (by decide)
        (by decide)
  exact (Runs.single hreserve).tail hsettle

theorem drained_dayRoom : ¬ work.DayRoom drained.world.pot 1_000_300 := by
  intro hroom
  exact absurd (hroom.capped (by decide)) (by decide)

/-- The client used up the day on a payout of its own: the worker cannot settle its work. -/
theorem work_not_guaranteed : ¬ work.Guaranteed deployment := by
  intro h
  obtain ⟨w', hw'⟩ := h start_genesis capped_runs work_decodes work_backed
    (fun _ => by decide) drained_runs (m := ⟨worker, 1_000_300⟩) (by decide)
    (by decide) ⟨by decide, by decide, by decide⟩
  simp only [exec_eq_ok, settle, run, settle_eq_ok] at hw'
  obtain ⟨-, g, -⟩ := hw'
  exact drained_dayRoom ⟨g.dayCap, g.fits, by decide⟩

end Local

end SpendTicket

end Rootmode.Pot
