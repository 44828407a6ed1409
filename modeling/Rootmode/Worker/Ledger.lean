import Rootmode.Lib.Transition
import Rootmode.Worker.LocalNode

namespace Rootmode.Worker.Ledger

open Lib Lib.Checked Lib.Text Lib.Transition Payments

/-- A ticket handed to the ledger, with what the bill it pays comes to. -/
structure Presented where
  ticket : SpendTicket
  sig : Text
  domain : Domain
  appKey : Text
  expectedDelta : Micros
  now : ℤ
  deriving DecidableEq

/-- The numbers are machine words. -/
structure Presented.Typed (p : Presented) : Prop where
  cumulative_lt : p.ticket.cumulative < 2 ^ 64
  deadline_lt : p.ticket.deadline < 2 ^ 64
  expectedDelta_lt : p.expectedDelta < 2 ^ 64
  chainId_lt : p.domain.chainId < 2 ^ 64

variable (C : Crypto)

def Presented.accept (p : Presented) (chs : Channels) : Except String (Micros × Channels) :=
  chs.acceptSpend C p.ticket p.sig p.domain p.appKey p.expectedDelta p.now

/-- The entry a ticket is banked on. -/
def Presented.entry (p : Presented) (chs : Channels) : Text :=
  chs.idFor C p.ticket.client p.ticket.workerPayout

/-- The ledger, and the tickets it has banked with the entry of each, newest first. -/
structure State where
  channels : Channels
  banked : List (Text × Presented)

inductive Act
  | acceptSpend (p : Presented)
  | settled (id : Text) (upto : Micros)

/-- Calls one after the other.  Only what was banked is settled. -/
inductive Step : Labelled State Act
  | accepted {s p earned chs} : p.Typed → p.accept C s.channels = .ok (earned, chs) →
      Step s (.acceptSpend p) ⟨chs, (p.entry C s.channels, p) :: s.banked⟩
  | refused {s p e} : p.Typed → p.accept C s.channels = .error e → Step s (.acceptSpend p) s
  | settled {s id p} : (id, p) ∈ s.banked →
      Step s (.settled id p.ticket.cumulative)
        { s with channels := s.channels.settled id p.ticket.cumulative }

/-- An empty ledger. -/
def start (contract : Text) : State where
  channels := { contract, opened := fun _ => none }
  banked := []

/-- What an entry says: no more is settled than authorised, what is owed is the rest, and the ticket
kept is the one that authorised it. -/
structure Kept (ch : Channel) : Prop where
  settled_le : ch.settled ≤ ch.authorised
  owed : ch.owed + ch.settled = ch.authorised
  newest : ∃ ticket sig, ch.spend = some ticket ∧ ch.spendSig = some sig ∧
    ticket.cumulative = ch.authorised

/-- What a call does to the ledger. -/
structure Lawful (s : State) (a : Act) (s' : State) : Prop where
  kept : ∀ id ch, s'.channels.opened id = some ch → Kept ch
  grows : ∀ id, s.channels.authorisedAt id ≤ s'.channels.authorisedAt id
  earns : ∀ p earned chs, a = .acceptSpend p → p.accept C s.channels = .ok (earned, chs) →
    s.channels.authorisedAt (p.entry C s.channels) < s'.channels.authorisedAt (p.entry C s.channels) ∧
    earned ≤ s'.channels.authorisedAt (p.entry C s.channels) -
      s.channels.authorisedAt (p.entry C s.channels)
  refuses : ∀ p e, a = .acceptSpend p → p.accept C s.channels = .error e → s'.channels = s.channels

/-- A ticket that nothing speaks against pays a bill whose total with what is authorised already fits
its word. -/
def Fits (s : State) : Act → Prop
  | .acceptSpend p =>
    Channels.SpendGuard C s.channels p.ticket p.sig p.domain p.appKey p.expectedDelta p.now →
      s.channels.authorisedAt (p.entry C s.channels) + p.expectedDelta < 2 ^ 64
  | .settled _ _ => True

/-- The entries are kept, and nothing banked is above what its entry has authorised. -/
structure State.Sound (s : State) : Prop where
  kept : ∀ id ch, s.channels.opened id = some ch → Kept ch
  banked_le : ∀ id p, (id, p) ∈ s.banked → p.ticket.cumulative ≤ s.channels.authorisedAt id

variable {C} {chs chs' : Channels} {s s' : State} {a : Act} {p : Presented} {earned upto : Micros}
  {id other contract : Text} {ch : Channel}

section Calls

theorem accept_eq_ok : p.accept C chs = .ok (earned, chs') ↔
    Channels.SpendGuard C chs p.ticket p.sig p.domain p.appKey p.expectedDelta p.now ∧
      earned = p.expectedDelta ∧
      chs' = chs.insert (p.entry C chs) (chs.banked C p.ticket p.sig p.now) :=
  Channels.acceptSpend_eq_ok

/-- The entry of a ticket that was banked has authorised its total. -/
theorem accepted_authorised (h : p.accept C chs = .ok (earned, chs')) :
    chs'.authorisedAt (p.entry C chs) = p.ticket.cumulative := by
  rw [(accept_eq_ok.mp h).2.2, Channels.authorisedAt_insert_self]
  rfl

theorem accepted_rises (h : p.accept C chs = .ok (earned, chs')) :
    chs.authorisedAt (p.entry C chs) < chs'.authorisedAt (p.entry C chs) := by
  rw [accepted_authorised h]
  exact (accept_eq_ok.mp h).1.rises

theorem accepted_other (h : p.accept C chs = .ok (earned, chs')) (hother : other ≠ p.entry C chs) :
    chs'.opened other = chs.opened other := by
  rw [(accept_eq_ok.mp h).2.2, Channels.insert_opened_of_ne _ hother]

/-- A total that was told apart from a saturated sum is at least the sum. -/
theorem le_sub_iff_of_satAdd_le {a b c : ℕ} (hac : a < c) (hc : c < 2 ^ 64)
    (h : satAdd 64 a b ≤ c) : b ≤ c - a ↔ a + b < 2 ^ 64 := by
  unfold satAdd at h
  omega

/-- What is returned is within the rise unless the total it asks for does not fit its word. -/
theorem earned_le_iff (hp : p.Typed)
    (h : p.accept C chs = .ok (earned, chs')) :
    earned ≤ chs'.authorisedAt (p.entry C chs) - chs.authorisedAt (p.entry C chs) ↔
      chs.authorisedAt (p.entry C chs) + p.expectedDelta < 2 ^ 64 := by
  obtain ⟨g, rfl, -⟩ := accept_eq_ok.mp h
  have hrises : chs.authorisedAt (p.entry C chs) < p.ticket.cumulative := g.rises
  have hcovers : satAdd 64 (chs.authorisedAt (p.entry C chs)) p.expectedDelta ≤
      p.ticket.cumulative := g.covers
  rw [accepted_authorised h]
  exact le_sub_iff_of_satAdd_le hrises hp.cumulative_lt hcovers

theorem settled_other (hother : other ≠ id) : (chs.settled id upto).opened other = chs.opened other := by
  unfold Channels.settled
  split
  · rfl
  · exact Channels.insert_opened_of_ne _ hother

/-- What is settled says nothing about what is authorised. -/
theorem settled_authorised : (chs.settled id upto).authorisedAt other = chs.authorisedAt other := by
  unfold Channels.settled
  split
  · rfl
  · next ch hch =>
    by_cases hsame : other = id
    · subst hsame
      rw [Channels.authorisedAt_insert_self, Channels.authorisedAt, hch]
      rfl
    · exact Channels.authorisedAt_congr (Channels.insert_opened_of_ne _ hsame)

theorem Kept.of_le {ch ch' : Channel} (h : Kept ch) (hauthorised : ch'.authorised = ch.authorised)
    (hspend : ch'.spend = ch.spend) (hsig : ch'.spendSig = ch.spendSig)
    (hle : ch'.settled ≤ ch'.authorised) : Kept ch' where
  settled_le := hle
  owed := Nat.sub_add_cancel hle
  newest := by
    rw [hauthorised, hspend, hsig]
    exact h.newest

end Calls

section Steps

/-- An entry after a ticket was banked on it. -/
theorem kept_banked (hs : s.Sound) (h : p.accept C s.channels = .ok (earned, chs')) :
    Kept (s.channels.banked C p.ticket p.sig p.now) := by
  have hrises := accepted_rises h
  rw [accepted_authorised h] at hrises
  have hsettled : (s.channels.banked C p.ticket p.sig p.now).settled ≤ p.ticket.cumulative := by
    simp only [Channels.banked]
    rw [Presented.entry, Channels.authorisedAt] at hrises
    cases hopened : s.channels.opened (s.channels.idFor C p.ticket.client p.ticket.workerPayout) with
    | none => exact Nat.zero_le _
    | some ch =>
      rw [hopened] at hrises
      exact (hs.kept _ ch hopened).settled_le.trans hrises.le
  exact ⟨hsettled, Nat.sub_add_cancel hsettled, p.ticket, p.sig, rfl, rfl, rfl⟩

theorem Step.kept (h : Step C s a s') (hs : s.Sound) :
    ∀ id ch, s'.channels.opened id = some ch → Kept ch := by
  intro id ch hch
  cases h with
  | @accepted _ p earned chs hp haccept =>
    by_cases hsame : id = p.entry C s.channels
    · subst hsame
      have hbanked := (accept_eq_ok.mp haccept).2.2
      simp only [hbanked, Channels.insert_opened_self, Option.some.injEq] at hch
      rw [← hch]
      exact kept_banked hs haccept
    · exact hs.kept id ch ((accepted_other haccept hsame).symm.trans hch)
  | refused _ _ => exact hs.kept id ch hch
  | @settled _ at_ p hbanked =>
    by_cases hsame : id = at_
    · subst hsame
      have hle := hs.banked_le id p hbanked
      simp only [Channels.settled] at hch
      split at hch
      · next hnone =>
        rw [hnone] at hch
        cases hch
      · next was hwas =>
        rw [Channels.insert_opened_self] at hch
        cases hch
        have hkept := hs.kept id was hwas
        rw [Channels.authorisedAt, hwas] at hle
        exact hkept.of_le rfl rfl rfl (max_le hkept.settled_le hle)
    · rw [settled_other hsame] at hch
      exact hs.kept id ch hch

/-- No total ever falls. -/
theorem Step.grows (h : Step C s a s') (id : Text) :
    s.channels.authorisedAt id ≤ s'.channels.authorisedAt id := by
  cases h with
  | @accepted _ p earned chs hp haccept =>
    by_cases hsame : id = p.entry C s.channels
    · subst hsame
      exact (accepted_rises haccept).le
    · exact (Channels.authorisedAt_congr (accepted_other haccept hsame)).ge
  | refused _ _ => exact le_rfl
  | settled _ => exact settled_authorised.ge

theorem Step.sound (h : Step C s a s') (hs : s.Sound) : s'.Sound where
  kept := h.kept hs
  banked_le := by
    intro id p hmem
    have hgrows := h.grows
    cases h with
    | @accepted _ q earned chs hq haccept =>
      rcases List.mem_cons.mp hmem with hnew | hold
      · cases hnew
        exact (accepted_authorised haccept).ge
      · exact (hs.banked_le id p hold).trans (hgrows id)
    | refused _ _ => exact hs.banked_le id p hmem
    | settled _ => exact (hs.banked_le id p hmem).trans (hgrows id)

theorem sound_of_runs (h : Runs (Step C) (start contract) s) : s.Sound :=
  h.invariant (P := State.Sound) Step.sound ⟨nofun, nofun⟩

/-- In every run every call keeps the ledger's law, but for one that pays a bill past the last
word. -/
theorem lawful_iff_fits (hrun : Runs (Step C) (start contract) s) (hstep : Step C s a s') :
    Lawful C s a s' ↔ Fits C s a := by
  have hs := sound_of_runs hrun
  constructor
  · intro hlawful
    cases hstep with
    | @accepted _ p earned chs hp haccept =>
      intro _
      exact (earned_le_iff hp haccept).mp (hlawful.earns p earned chs rfl haccept).2
    | @refused _ p e hp hrefused =>
      intro g
      have haccept := accept_eq_ok.mpr ⟨g, rfl, rfl⟩
      rw [hrefused] at haccept
      cases haccept
    | settled _ => trivial
  · intro hfits
    refine ⟨hstep.kept hs, hstep.grows, ?_, ?_⟩
    · rintro p earned chs rfl haccept
      cases hstep with
      | accepted hp haccept' =>
        cases haccept'.symm.trans haccept
        exact ⟨accepted_rises haccept,
          (earned_le_iff hp haccept).mpr (hfits (accept_eq_ok.mp haccept).1)⟩
      | refused _ hrefused => cases hrefused.symm.trans haccept
    · rintro p e rfl hrefused
      cases hstep with
      | accepted _ haccept => cases haccept.symm.trans hrefused
      | refused _ _ => rfl

end Steps

section Local

/-- A ticket of the local client, presented for a bill. -/
def presented (cumulative expectedDelta : Micros) : Presented where
  ticket := LocalNode.ticket LocalChain.worker cumulative 1_003_600
  sig := (LocalNode.pay 0 LocalChain.worker cumulative 1_003_600).sig
  domain := LocalNode.domain
  appKey := addressText LocalChain.app
  expectedDelta
  now := 1_000_000

variable {cumulative expectedDelta already first : Micros}

theorem presented_typed (hcumulative : cumulative < 2 ^ 64) (hdelta : expectedDelta < 2 ^ 64) :
    (presented cumulative expectedDelta).Typed :=
  ⟨hcumulative, show 1_003_600 < 2 ^ 64 by decide, hdelta, show 31337 < 2 ^ 64 by decide⟩

/-- The ledger once such a ticket was banked. -/
def kept (chs : Channels) (cumulative expectedDelta : Micros) : Channels :=
  chs.insert ((presented cumulative expectedDelta).entry LocalChain.crypto chs)
    (chs.banked LocalChain.crypto (presented cumulative expectedDelta).ticket
      (presented cumulative expectedDelta).sig 1_000_000)

theorem presented_guard (howner : chs.checkOwner
      ((presented cumulative expectedDelta).entry LocalChain.crypto chs)
      (addressText LocalChain.client) = .ok ⟨⟩)
    (hcovers : satAdd 64 (chs.authorisedAt
      ((presented cumulative expectedDelta).entry LocalChain.crypto chs)) expectedDelta ≤ cumulative)
    (hrises : chs.authorisedAt ((presented cumulative expectedDelta).entry LocalChain.crypto chs) <
      cumulative) :
    Channels.SpendGuard LocalChain.crypto chs (presented cumulative expectedDelta).ticket
      (presented cumulative expectedDelta).sig LocalNode.domain (addressText LocalChain.app)
      expectedDelta 1_000_000 where
  signed := LocalNode.check_pay 0 (by decide)
  owned := howner
  covers := hcovers
  rises := hrises

theorem presented_first (contract : Text) (hpos : 0 < cumulative)
    (hcovers : expectedDelta ≤ cumulative) :
    (presented cumulative expectedDelta).accept LocalChain.crypto (start contract).channels =
      .ok (expectedDelta, kept (start contract).channels cumulative expectedDelta) := by
  refine accept_eq_ok.mpr ⟨presented_guard ?_ ?_ hpos, rfl, rfl⟩
  · exact Channels.checkOwner_eq_ok.mpr (by intro ch hch; cases hch)
  · exact (min_le_left _ _).trans ((Nat.zero_add _).trans_le hcovers)

/-- A quarter of a dollar, banked on an empty ledger. -/
theorem lawful_iff_fits_local :
    Lawful LocalChain.crypto (start (addressText LocalChain.pot))
      (.acceptSpend (presented 250_000 250_000))
      ⟨kept (start (addressText LocalChain.pot)).channels 250_000 250_000,
        [((presented 250_000 250_000).entry LocalChain.crypto
          (start (addressText LocalChain.pot)).channels, presented 250_000 250_000)]⟩ := by
  apply (lawful_iff_fits (.refl _) (.accepted (presented_typed (by decide) (by decide))
    (presented_first _ (by decide) le_rfl))).mpr
  intro _
  decide

/-- All tickets of the local client are banked on one entry. -/
theorem authorisedAt_kept (contract : Text) (hpos : 0 < already) (hle : first ≤ already) :
    (kept (start contract).channels already first).authorisedAt
      ((presented cumulative expectedDelta).entry LocalChain.crypto
        (kept (start contract).channels already first)) = already :=
  accepted_authorised (presented_first contract hpos hle)

/-- A second ticket of the client's, where the first left `already`. -/
theorem presented_next (contract : Text) (hpos : 0 < already) (hle : first ≤ already)
    (hcovers : satAdd 64 already expectedDelta ≤ cumulative) (hrises : already < cumulative) :
    (presented cumulative expectedDelta).accept LocalChain.crypto
        (kept (start contract).channels already first) =
      .ok (expectedDelta, kept (kept (start contract).channels already first) cumulative
        expectedDelta) := by
  refine accept_eq_ok.mpr ⟨presented_guard ?_ ?_ ?_, rfl, rfl⟩
  · rw [Channels.checkOwner_eq_ok]
    intro ch hch
    cases (Channels.insert_opened_self _ _).symm.trans hch
    exact eqIgnoreAsciiCase_refl _
  · rw [authorisedAt_kept contract hpos hle]
    exact hcovers
  · rw [authorisedAt_kept contract hpos hle]
    exact hrises

/-- The last words of a ledger: a total two below the end leaves room for one micro, and a bill of
two is banked on it. -/
theorem not_lawful_local :
    ∃ s p s', Runs (Step LocalChain.crypto) (start (addressText LocalChain.pot)) s ∧
      Step LocalChain.crypto s (.acceptSpend p) s' ∧
        ¬ Lawful LocalChain.crypto s (.acceptSpend p) s' := by
  let contract := addressText LocalChain.pot
  have hpos : 0 < 2 ^ 64 - 2 := by decide
  have hle : 1 ≤ 2 ^ 64 - 2 := by decide
  have hfirst : (presented (2 ^ 64 - 2) 1).accept LocalChain.crypto (start contract).channels =
      .ok (1, kept (start contract).channels (2 ^ 64 - 2) 1) := presented_first contract hpos hle
  have hnext : (presented (2 ^ 64 - 1) 2).accept LocalChain.crypto
      (kept (start contract).channels (2 ^ 64 - 2) 1) =
        .ok (2, kept (kept (start contract).channels (2 ^ 64 - 2) 1) (2 ^ 64 - 1) 2) :=
    presented_next contract hpos hle (by decide) (by decide)
  have hone : (presented (2 ^ 64 - 2) 1).Typed := presented_typed (by decide) (by decide)
  have htwo : (presented (2 ^ 64 - 1) 2).Typed := presented_typed (by decide) (by decide)
  refine ⟨_, _, _, (Runs.refl _).tail (.accepted hone hfirst), .accepted htwo hnext, ?_⟩
  intro hlawful
  have hearns := (earned_le_iff htwo hnext).mp (hlawful.earns _ _ _ rfl hnext).2
  rw [authorisedAt_kept contract hpos hle] at hearns
  exact absurd hearns (by decide)

end Local

end Rootmode.Worker.Ledger
