import Rootmode.Contracts.Settlement
import Rootmode.Worker.AdmissionSpec
import Rootmode.Worker.ChainView

namespace Rootmode.Worker

open Lib Lib.Bytes Lib.Checked Lib.Text Lib.Transition Payments Relation

variable {κ τ : Type} {cfg : Config} {C : Crypto} {R : Rpc κ} {E : Pot.Deployment τ}
  {view : κ → Pot.Chain τ}

/-- The RPC talks to the chain a deployment lives on: whatever it does, the chain takes steps of its
own, and the getter answers what is stored when it answers. -/
structure Rpc.Shows (R : Rpc κ) (E : Pot.Deployment τ) (view : κ → Pot.Chain τ) : Prop where
  moves : ∀ {k k'}, R.Turn k k' → Runs (Pot.Step E) (view k) (view k')
  reply : ∀ {client payout : Address} {k k' : κ} {raw : Text},
    R.ethCall (Chain.selector E.crypto "channels(address,address)" ++ bigEndian 32 client.toNat ++
        bigEndian 32 payout.toNat) k = (.ok raw, k') →
      raw = Chain.returnData ((view k').world.pot.channels client payout)

/-- A ticket as the contract is given it. -/
def onPot (t : SpendTicket) : Pot.SpendTicket where
  client := Chain.addressOf t.client
  workerPayout := Chain.addressOf t.workerPayout
  cumulative := t.cumulative
  deadline := t.deadline

/-- The channel a ticket is for. -/
def onChain (s : Pot.Chain τ) (t : SpendTicket) : Pot.Channel := (onPot t).channel s.world.pot

theorem Rpc.Shows.runs (h : R.Shows E view) {k k' : κ} (hmoves : ReflTransGen R.Turn k k') :
    Runs (Pot.Step E) (view k) (view k') := by
  induction hmoves with
  | refl => exact .refl _
  | tail _ hturn ih => exact ih.trans (h.moves hturn)

section Reads

variable {t : SpendTicket} {payer payout : Text} {state : ChannelState} {k k' : κ}

/-- Both parties of a ticket are named by addresses. -/
theorem named_of_recover {d : Domain} {sig signer : Text} (h : t.recover C d sig = .ok signer) :
    (∃ w, wordAddress t.client = .ok w) ∧ ∃ w, wordAddress t.workerPayout = .ok w := by
  simp only [SpendTicket.recover, SpendTicket.digest, bind_eq_ok] at h
  obtain ⟨-, ⟨client, hclient, payout, hpayout, -⟩, -⟩ := h
  exact ⟨⟨client, hclient⟩, ⟨payout, hpayout⟩⟩

/-- What the node reads is what the chain stores for the ticket, of a channel that is not closing. -/
theorem readChannel_shows (hE : E.crypto = C) (hR : R.Shows E view)
    (htyped : (view k').world.pot.Typed)
    (hclient : ∃ w, wordAddress t.client = .ok w)
    (hworker : ∃ w, wordAddress t.workerPayout = .ok w)
    (hpayer : eqIgnoreAsciiCase t.client payer = true)
    (hpayout : eqIgnoreAsciiCase t.workerPayout payout = true)
    (h : readChannel cfg C R payer payout k = (.ok (some state), k')) :
    (onChain (view k') t).closeAt = 0 ∧ state = Chain.stateOf (onChain (view k') t) := by
  obtain ⟨_, hclient⟩ := hclient
  obtain ⟨_, hworker⟩ := hworker
  unfold readChannel Chain.channelState at h
  split at h
  · obtain ⟨hnone, -⟩ := Effect.pure_run_ok.mp h
    cases hnone
  · simp only [Effect.bind_run_ok, Effect.lift_run_ok, Effect.pure_run_ok] at h
    obtain ⟨c, _, ⟨hc, rfl⟩, p, _, ⟨hp, rfl⟩, raw, _, hraw, st, _, ⟨hdecode, rfl⟩, hst, rfl⟩ := h
    cases hst
    rw [Chain.wordAddress_of_eqIgnoreAsciiCase hpayer hclient hc,
      Chain.wordAddress_of_eqIgnoreAsciiCase hpayout hworker hp, ← hE] at hraw
    rw [hR.reply hraw, Chain.decodeChannel_returnData (htyped.channels _ _)] at hdecode
    split at hdecode
    · next hclose => exact ⟨hclose, (Except.ok.inj hdecode).symm⟩
    · cases hdecode

end Reads

/-- A node that settles on a deployment and reads the chain it lives on. -/
structure OnPot (cfg : Config) (C : Crypto) (R : Rpc κ) (E : Pot.Deployment τ)
    (view : κ → Pot.Chain τ) : Prop where
  crypto : E.crypto = C
  serves : ∀ d ∈ cfg.payments.domain, Chain.Serves E C d
  shows : R.Shows E view

/-- What the chain holds for a ticket the node admitted a job on, at the node's time `now`. -/
structure Secured (E : Pot.Deployment τ) (s : Pot.Chain τ) (pay : JobPay) (sig : Bytes) (now : ℕ) :
    Prop where
  decoded : Hex.decode (strip0x pay.sig) = .ok sig
  length : sig.length = 65
  waiting : (onChain s pay.ticket).closeAt = 0
  keyed : (onChain s pay.ticket).appKey ≠ 0
  signed : Pot.recover E (Pot.ticketDigest E Pot.ticketTypehash (Chain.addressOf pay.ticket.client)
    (Chain.addressOf pay.ticket.workerPayout) pay.ticket.cumulative pay.ticket.deadline) sig =
      .ok (onChain s pay.ticket).appKey
  live : now < pay.ticket.deadline
  locked : (onPot pay.ticket).cumulative ≤ (onChain s pay.ticket).reserved
  narrow : (onChain s pay.ticket).reserved < 2 ^ 64

section Secures

variable {chs : Channels} {bonds : Bonds} {submit : JobSubmit} {now : ℤ} {a : Admission} {k k' : κ}
  {payout : Text} {s₀ : Pot.Chain τ}

theorem ne_zero_of_isZeroAddress {key : Address}
    (h : Chain.isZeroAddress (addressText key) = false) : key ≠ 0 := by
  rintro rfl
  exact absurd h (by decide)

/-- A lock the node finds long enough carries the ticket: it was measured against a total the chain
has at most raised since. -/
theorem locked_of_need {first last : Pot.Channel} {cumulative : ℕ}
    (hgrows : first.earned ≤ last.earned) (hordered : last.Ordered)
    (h : max (cumulative - (Chain.stateOf first).earned) 1 ≤ (Chain.stateOf last).remaining) :
    cumulative ≤ last.reserved ∧ last.reserved < 2 ^ 64 := by
  have hearned := hordered.earned_le
  simp only [Chain.stateOf] at h
  have hreserved : last.reserved < 2 ^ 64 := by
    by_contra hwide
    rw [show Chain.clip last.reserved = 0 from if_neg hwide] at h
    omega
  have hr : Chain.clip last.reserved = last.reserved := if_pos hreserved
  have he : Chain.clip last.earned = last.earned := if_pos (by omega)
  have hf : Chain.clip first.earned = first.earned := if_pos (by omega)
  rw [hr, he, hf] at h
  omega

/-- An admitted job's ticket has its key, its time and its lock on the chain. -/
theorem admit_secures (hpot : OnPot cfg C R E view) (h₀ : s₀.Genesis)
    (hrun : Runs (Pot.Step E) s₀ (view k))
    (h : admitJob cfg C R chs bonds submit now k = (.ok a, k'))
    (hpriced : holdbackFor cfg submit.payload) (hpayout : payoutOf cfg.payoutAddress = some payout) :
    ∃ pay sig, submit.bond = some pay ∧ Runs (Pot.Step E) s₀ (view k') ∧
      Secured E (view k') pay sig (R.now k') ∧
      checkFlat cfg a.submit (Chain.stateOf (onChain (view k') pay.ticket)) = .ok ⟨⟩ := by
  obtain ⟨pay, payer, first, state, k₁, g, hpayer, hbond, hfirst, hmoves, ⟨k₂, hlast⟩, hguard, -⟩ :=
    admit_locked h hpriced hpayout
  obtain ⟨d, signer, hd, hsigner⟩ := g.readable
  obtain ⟨hclient, hworker⟩ := named_of_recover hsigner
  have hsamePayer := g.samePayer payer hpayer
  have hsameWorker := g.sameWorker payout hpayout
  have hread : ReflTransGen R.Turn k k₁ := by
    have hwithin : ReflTransGen R.Turn k (readChannel cfg C R payer payout k).2 :=
      readChannel_within k
    rwa [hfirst] at hwithin
  have hrun₁ := hrun.trans (hpot.shows.runs hread)
  have hrun' := hrun₁.trans (hpot.shows.runs hmoves)
  obtain ⟨-, rfl⟩ := readChannel_shows hpot.crypto hpot.shows (h₀.runs_typed hrun₁) hclient hworker
    hsamePayer hsameWorker hfirst
  obtain ⟨hwaiting, rfl⟩ := readChannel_shows hpot.crypto hpot.shows (h₀.runs_typed hrun') hclient
    hworker hsamePayer hsameWorker hlast
  have hkey := ne_zero_of_isZeroAddress hguard.hasKey
  have hgrows := (h₀.runs_solvent hrun₁).runs_grows (hpot.shows.runs hmoves)
    (Chain.addressOf pay.ticket.client) (Chain.addressOf pay.ticket.workerPayout)
  have hordered := (h₀.runs_solvent hrun').ordered (Chain.addressOf pay.ticket.client)
    (Chain.addressOf pay.ticket.workerPayout)
  obtain ⟨hlocked, hnarrow⟩ := locked_of_need hgrows hordered hguard.locked
  obtain ⟨d', hd', hcheck⟩ := hguard.signed pay hbond
  obtain ⟨hlive, sig, hdecoded, hlength, hsigned⟩ :=
    Chain.check_signed (hpot.serves d' hd') hkey hcheck
  exact ⟨pay, sig, g.carried, hrun', ⟨hdecoded, hlength, hwaiting, hkey, hsigned, hlive, hlocked,
    hnarrow⟩, hguard.fits⟩

end Secures

end Rootmode.Worker
