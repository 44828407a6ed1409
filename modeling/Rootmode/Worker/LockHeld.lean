import Rootmode.Contracts.Locks
import Rootmode.Worker.LocalNode

namespace Rootmode.Worker

open Lib Lib.Checked Lib.Text Lib.Transition Payments

variable {κ τ : Type} {cfg : Config} {C : Crypto} {R : Rpc κ} {E : Pot.Deployment τ}
  {view : κ → Pot.Chain τ}

/-- The lock a priced job was admitted on stays where it is for as long as its chunk can wait. -/
def AdmittedLockHolds (cfg : Config) (C : Crypto) (R : Rpc κ) (E : Pot.Deployment τ)
    (view : κ → Pot.Chain τ) : Prop :=
  ∀ {s₀ : Pot.Chain τ} {chs : Channels} {bonds : Bonds} {submit : JobSubmit} {now : ℤ}
    {a : Admission} {k k' : κ} {pay : JobPay},
    s₀.Genesis → Runs (Pot.Step E) s₀ (view k) →
    admitJob cfg C R chs bonds submit now k = (.ok a, k') → holdbackFor cfg submit.payload →
    submit.bond = some pay → (onPot pay.ticket).HoldsLock E (view k')

variable {chs : Channels} {bonds : Bonds} {submit : JobSubmit} {now : ℤ} {a : Admission} {k k' : κ}
  {payout : Text} {s₀ : Pot.Chain τ} {pay : JobPay}

section Local

open LocalNode

end Local

end Rootmode.Worker
