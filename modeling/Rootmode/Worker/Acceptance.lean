import Rootmode.Worker.LocalNode

namespace Rootmode.Worker

open Lib Lib.Checked Lib.Text Lib.Transition Payments

variable {κ τ : Type} {cfg : Config} {C : Crypto} {R : Rpc κ} {E : Pot.Deployment τ}
  {view : κ → Pot.Chain τ}

/-- The contract's call that settles a ticket. -/
def settleCall (pay : JobPay) (sig : Bytes) : Pot.Call := (onPot pay.ticket).settle sig

/-- Whenever a priced job is admitted, a settle of its chunk on the chain as it then stands goes
through. -/
def AdmissionSettles (cfg : Config) (C : Crypto) (R : Rpc κ) (E : Pot.Deployment τ)
    (view : κ → Pot.Chain τ) : Prop :=
  ∀ {s₀ : Pot.Chain τ} {chs : Channels} {bonds : Bonds} {submit : JobSubmit} {now : ℤ}
    {a : Admission} {k k' : κ} {pay : JobPay} {sig : Bytes} {m : Pot.Msg},
    s₀.Genesis → Runs (Pot.Step E) s₀ (view k) →
    admitJob cfg C R chs bonds submit now k = (.ok a, k') → holdbackFor cfg submit.payload →
    submit.bond = some pay → Hex.decode (strip0x pay.sig) = .ok sig →
    m.timestamp = R.now k' → m.sender ≠ E.self →
    ∃ w', Pot.exec E m (settleCall pay sig) (view k').world = .ok w'

/-- What the node leaves to the contract: that the chunk is news to the chain, within the channel's
cap on a job, and that the account's day has room for it. -/
structure Bearable (s : Pot.Chain τ) (t : Pot.SpendTicket) (now : ℕ) : Prop where
  rises : (t.channel s.world.pot).earned < t.cumulative
  jobCap : t.delta (t.channel s.world.pot) ≤ (t.channel s.world.pot).maxPerJob
  dayCap : 0 < (t.channel s.world.pot).maxPerDay →
    ((s.world.pot.accounts t.client).rolled now).spentToday + t.delta (t.channel s.world.pot) ≤
      (t.channel s.world.pot).maxPerDay
  dayFits : ((s.world.pot.accounts t.client).rolled now).spentToday +
    t.delta (t.channel s.world.pot) < 2 ^ 256

section Settles

variable {s : Pot.Chain τ} {pay : JobPay} {sig : Bytes} {m : Pot.Msg} {now : ℕ}

theorem Secured.backed (h : Secured E s pay sig now)
    (hb : Bearable s (onPot pay.ticket) m.timestamp) :
    (onPot pay.ticket).Backed E sig (onChain s pay.ticket) where
  signed := h.signed
  rises := hb.rises
  locked := h.locked
  jobCap := hb.jobCap

theorem Secured.dayRoom (h : Secured E s pay sig now)
    (hb : Bearable s (onPot pay.ticket) m.timestamp) :
    (onPot pay.ticket).DayRoom s.world.pot m.timestamp where
  capped := hb.dayCap
  spentFits := hb.dayFits
  feeFits := by
    have hlocked := h.locked
    have hnarrow := h.narrow
    unfold Pot.feeBps
    omega

/-- Key, deadline and lock were seen to: the rest is the contract's. -/
theorem Secured.settles (h : Secured E s pay sig now) (hs : Pot.Solvent E s.world)
    (hword : pay.ticket.deadline < 2 ^ 64) (hlive : m.timestamp ≤ pay.ticket.deadline)
    (hb : Bearable s (onPot pay.ticket) m.timestamp) :
    ∃ w', Pot.exec E m (settleCall pay sig) s.world = .ok w' := by
  have hcumulative : (onPot pay.ticket).cumulative < 2 ^ 256 := by
    have hlocked := h.locked
    have hnarrow := h.narrow
    omega
  exact (h.backed hb).settles hs ⟨hcumulative, hword, h.length.le⟩ hlive (h.dayRoom hb)

end Settles

variable {chs : Channels} {bonds : Bonds} {submit : JobSubmit} {now : ℤ} {a : Admission} {k k' : κ}
  {payout : Text} {s₀ : Pot.Chain τ}

section Local

open LocalNode

end Local

end Rootmode.Worker
