import Rootmode.Worker.LocalJobs
import Rootmode.Worker.Streaming

namespace Rootmode.Worker.Metering

open Lib Lib.Checked Lib.Transition Streaming

/-- A rate-priced job that streams against its chunk. -/
structure State where
  job : Streaming.State
  /-- The tokens of the deltas shown so far. -/
  shown : ℕ
  /-- The chunk as it is held, top-ups included. -/
  bond : Bond
  deriving DecidableEq

/-- The tokens of the delta an act shows. -/
def shows (job : Streaming.State) : Act → ℕ
  | .show_ =>
    match job.forwarder with
    | .checking d => d
    | _ => 0
  | .recvDelta =>
    match job.forwarder, job.deltas with
    | .drainDeltas, d :: _ => d
    | _, _ => 0
  | _ => 0

variable (cfg : Config) (C : Crypto) (price : Price) (prompt : ℕ)

/-- How many tokens the money authorised so far covers, the prompt included. -/
def State.budget (s : State) : ℕ := price.authorizedTokens s.bond.delta prompt

def start (bond : Bond) : State where
  job := Streaming.start true (price.authorizedTokens bond.delta prompt) prompt
  shown := 0
  bond

/-- What an act does to the chunk: a top-up that is taken raises it, and the pump answers with what
the raised one covers. -/
inductive Raises : Bond → Act → Bond → Prop
  | granted {bond bond' : Bond} {chs : Channels} {pay : JobPay} {now : ℕ} :
      requestTopUp cfg C chs bond pay now = some bond' →
      Raises bond (.granted (price.authorizedTokens bond'.delta prompt)) bond'
  | other {bond : Bond} {a : Act} : (∀ next, a ≠ .granted next) → Raises bond a bond

structure Step (s : State) (a : Act) (s' : State) : Prop where
  acts : Streaming.Step s.job a s'.job
  raises : Raises cfg C price prompt s.bond a s'.bond
  shows : s'.shown = s.shown + shows s.job a

/-- Nothing unpaid is shown. -/
def WithinBudget (s : State) : Prop := prompt + s.shown ≤ s.budget price prompt

/-- A job that starts on a chunk stays within what is authorised. -/
def StaysWithinBudget (bond : Bond) : Prop :=
  ∀ s, Runs (Step cfg C price prompt) (start price prompt bond) s → WithinBudget price prompt s

/-- The tokens metered fit their word, and when the metering stops what is still queued is paid for. -/
def LeavesMetered (s : State) : Act → Prop
  | .recvDelta => ∀ d ds, s.job.forwarder = .selecting → s.job.deltas = d :: ds →
    s.job.used + d < 2 ^ 64
  | .closed => s.job.forwarder = .selecting → s.job.used + s.job.deltas.sum ≤ s.job.authorized
  | _ => True

section Budget

variable {price} {prompt}

theorem castWord_mono (w : ℕ) {x y : ℚ} (h : x ≤ y) : castWord w x ≤ castWord w y := by
  have hfloor : ⌊x⌋ ≤ ⌊y⌋ := Int.floor_le_floor h
  unfold castWord
  omega

theorem authorizedTokens_mono {micros micros' : ℕ} (h : micros ≤ micros') :
    price.authorizedTokens micros prompt ≤ price.authorizedTokens micros' prompt := by
  unfold Price.authorizedTokens
  split
  · exact le_rfl
  · next hoff =>
    have hleft : ((micros - price.chargeLlmMicros prompt 0 0 : ℕ) : ℚ) / price.llmRates.output ≤
        ((micros' - price.chargeLlmMicros prompt 0 0 : ℕ) : ℚ) / price.llmRates.output := by
      apply div_le_div_of_nonneg_right _ (not_le.mp hoff).le
      exact_mod_cast Nat.sub_le_sub_right h _
    have hcast := castWord_mono 64 hleft
    dsimp only
    unfold satAdd
    omega

theorem le_authorizedTokens (micros : ℕ) (hprompt : prompt < 2 ^ 64) :
    prompt ≤ price.authorizedTokens micros prompt := by
  unfold Price.authorizedTokens
  split
  · omega
  · exact le_satAdd hprompt _

end Budget

/-- What the forwarder has shown and metered is paid for. -/
def State.Paid (s : State) : Prop :=
  match s.job.forwarder with
  | .selecting => s.job.used = prompt + s.shown ∧ s.job.used ≤ s.job.authorized
  | .checking d | .waiting d =>
    s.job.used = prompt + s.shown + d ∧ prompt + s.shown ≤ s.budget price prompt
  | .drainProgress | .drainDeltas =>
    prompt + s.shown + s.job.deltas.sum ≤ s.budget price prompt ∧ s.job.pump.feeds = false
  | .done => prompt + s.shown ≤ s.budget price prompt

/-- The forwarder is never told it may show more than the chunk pays for. -/
structure State.Metered (s : State) : Prop where
  authorized_le : s.job.authorized ≤ s.budget price prompt
  sent_le : ∀ next, s.job.reply = .sent next → next ≤ s.budget price prompt
  paid : s.Paid price prompt

section Steps

variable {cfg} {C} {price} {prompt} {s s' : State} {a : Act} {bond bond' : Bond}

/-- A top-up only ever raises the chunk. -/
theorem Raises.delta_le (h : Raises cfg C price prompt bond a bond') : bond.delta ≤ bond'.delta := by
  cases h with
  | granted h => exact (requestTopUp_raises h).le
  | other _ => exact le_rfl

theorem Raises.same (h : Raises cfg C price prompt bond a bond') (ha : ∀ next, a ≠ .granted next) :
    bond' = bond := by
  cases h with
  | granted _ => exact absurd rfl (ha _)
  | other _ => rfl

theorem Step.budget_le (h : Step cfg C price prompt s a s') :
    s.budget price prompt ≤ s'.budget price prompt :=
  authorizedTokens_mono h.raises.delta_le

/-- The forwarder shows against what it was last answered. -/
theorem authorized_of_step {job job' : Streaming.State} (h : Streaming.Step job a job') :
    job'.authorized = job.authorized ∨ job.reply = .sent job'.authorized := by
  cases h with
  | answered _ hr => exact .inr hr
  | _ => exact .inl rfl

/-- Only the pump answers. -/
theorem sent_of_step {job job' : Streaming.State} {next : ℕ} (h : Streaming.Step job a job')
    (hr : job'.reply = .sent next) : job.reply = .sent next ∨ a = .granted next := by
  cases h with
  | granted next' _ _ =>
    cases hr
    exact .inr rfl
  | takeNeed | refused | ask | answered | abandoned => cases hr
  | _ => exact .inl hr

theorem Raises.granted_eq {next : ℕ} (h : Raises cfg C price prompt bond (.granted next) bond') :
    next = price.authorizedTokens bond'.delta prompt := by
  cases h with
  | granted _ => rfl
  | other hne => exact absurd rfl (hne next)

theorem Step.authorized_le (h : Step cfg C price prompt s a s') (hm : s.Metered price prompt) :
    s'.job.authorized ≤ s'.budget price prompt := by
  rcases authorized_of_step h.acts with hsame | hsent
  · rw [hsame]
    exact hm.authorized_le.trans h.budget_le
  · exact (hm.sent_le _ hsent).trans h.budget_le

theorem Step.sent_le (h : Step cfg C price prompt s a s') (hm : s.Metered price prompt) {next : ℕ}
    (hr : s'.job.reply = .sent next) : next ≤ s'.budget price prompt := by
  rcases sent_of_step h.acts hr with hsame | rfl
  · exact (hm.sent_le _ hsame).trans h.budget_le
  · exact h.raises.granted_eq.le

theorem fits_of_not_overBudget {job : Streaming.State} (hs : job.Sound) (h : ¬ job.overBudget) :
    job.used ≤ job.authorized := by
  have hlt := hs.used_lt
  unfold Streaming.State.overBudget u64Max at h
  omega

/-- Past the loop nothing more is queued. -/
theorem deltas_of_left {job job' : Streaming.State} (h : Streaming.Step job a job')
    (ha : a ≠ .recvDelta) (hleft : job.pump.feeds = false) : job'.deltas = job.deltas := by
  cases h with
  | emitDelta _ hp => simp [hp, Pump.feeds] at hleft
  | recvDelta | drainDelta => exact absurd rfl ha
  | _ => rfl

/-- What the pump does leaves the meter as it is. -/
theorem State.Paid.frame (hp : s.Paid price prompt) (h : Step cfg C price prompt s a s')
    (ha : a ≠ .recvDelta) (hforwarder : s'.job.forwarder = s.job.forwarder)
    (hused : s'.job.used = s.job.used) (hauthorized : s'.job.authorized = s.job.authorized)
    (hshown : s'.shown = s.shown) : s'.Paid price prompt := by
  have hbudget := h.budget_le
  unfold State.Paid at *
  rw [hforwarder, hused, hauthorized, hshown]
  cases hf : s.job.forwarder with
  | selecting => simpa only [hf] using hp
  | checking d | waiting d =>
    simp only [hf] at hp ⊢
    exact ⟨hp.1, hp.2.trans hbudget⟩
  | drainProgress | drainDeltas =>
    simp only [hf] at hp ⊢
    rw [deltas_of_left h.acts ha hp.2]
    exact ⟨hp.1.trans hbudget, h.acts.stays_left hp.2⟩
  | done =>
    simp only [hf] at hp ⊢
    exact hp.trans hbudget

theorem Step.paid (hC : LeavesMetered s a) (h : Step cfg C price prompt s a s') (hs : s.job.Sound)
    (hm : s.Metered price prompt) : s'.Paid price prompt := by
  have hframe := hm.paid.frame h
  have hbudget := h.budget_le
  have hshown := h.shows
  have hauth := hm.authorized_le
  have hpaid := hm.paid
  have hacts := h.acts
  obtain ⟨job, shown, bond⟩ := s
  obtain ⟨job', shown', bond'⟩ := s'
  simp only at hshown hacts hframe
  simp only [State.Paid] at hpaid ⊢
  cases hacts with
  | @recvDelta _ d ds hf hd =>
    have hmetered : job.used + d < 2 ^ 64 := hC d ds hf hd
    have hshows : Metering.shows job .recvDelta = 0 := by simp [Metering.shows, hf]
    rw [hshows] at hshown
    simp only [hf] at hpaid
    have hused : satAdd 64 job.used d = job.used + d := satAdd_of_lt hmetered
    constructor
    · rw [hused, hshown, hpaid.1, Nat.add_zero]
    · rw [hshown]
      calc prompt + (shown + 0) = job.used := hpaid.1.symm
        _ ≤ job.authorized := hpaid.2
        _ ≤ _ := hauth.trans hbudget
  | closed hf hleft hends =>
    have hpays : job.used + job.deltas.sum ≤ job.authorized := hC hf
    simp only [hf] at hpaid
    refine ⟨?_, hleft⟩
    rw [hshown.trans (Nat.add_zero _), ← hpaid.1]
    exact hpays.trans (hauth.trans hbudget)
  | @show_ _ d hf hfits =>
    simp only [hf] at hpaid
    have hshows : Metering.shows job Act.show_ = d := by simp [Metering.shows, hf]
    rw [hshows] at hshown
    have hwithin : job.used ≤ job.authorized := fits_of_not_overBudget hs hfits
    refine ⟨?_, hwithin⟩
    rw [hshown, ← Nat.add_assoc]
    exact hpaid.1
  | @ask _ d hf _ =>
    simp only [hf] at hpaid
    rw [hshown.trans (Nat.add_zero _)]
    exact ⟨hpaid.1, hpaid.2.trans hbudget⟩
  | @answered _ d next hf _ =>
    simp only [hf] at hpaid
    rw [hshown.trans (Nat.add_zero _)]
    exact ⟨hpaid.1, hpaid.2.trans hbudget⟩
  | abandoned hf _ =>
    simp only [hf] at hpaid
    rw [hshown.trans (Nat.add_zero _)]
    exact hpaid.2.trans hbudget
  | progressEnd hf _ _ =>
    simp only [hf] at hpaid
    rw [hshown.trans (Nat.add_zero _)]
    exact ⟨hpaid.1.trans hbudget, hpaid.2⟩
  | @drainDelta _ d ds hf hd =>
    have hshows : Metering.shows job .recvDelta = d := by simp [Metering.shows, hf, hd]
    rw [hshows] at hshown
    simp only [hf, hd, List.sum_cons] at hpaid ⊢
    rw [hshown, ← Nat.add_assoc prompt, Nat.add_assoc]
    exact ⟨hpaid.1.trans hbudget, hpaid.2⟩
  | deltasEnd hf _ hd =>
    simp only [hf, hd, List.sum_nil, Nat.add_zero] at hpaid
    rw [hshown.trans (Nat.add_zero _)]
    exact hpaid.1.trans hbudget
  | _ =>
    exact hframe nofun rfl rfl rfl (hshown.trans (Nat.add_zero _))

theorem Step.metered (hC : LeavesMetered s a) (h : Step cfg C price prompt s a s')
    (hs : s.job.Sound) (hm : s.Metered price prompt) : s'.Metered price prompt where
  authorized_le := h.authorized_le hm
  sent_le _ hr := h.sent_le hm hr
  paid := h.paid hC hs hm

theorem State.Metered.within (hm : s.Metered price prompt) : WithinBudget price prompt s := by
  have hauth := hm.authorized_le
  have hpaid := hm.paid
  unfold WithinBudget
  unfold State.Paid at hpaid
  cases hf : s.job.forwarder with
  | selecting =>
    simp only [hf] at hpaid
    exact hpaid.1.symm.le.trans (hpaid.2.trans hauth)
  | checking d | waiting d =>
    simp only [hf] at hpaid
    exact hpaid.2
  | drainProgress | drainDeltas =>
    simp only [hf] at hpaid
    exact (Nat.le_add_right _ _).trans hpaid.1
  | done =>
    simp only [hf] at hpaid
    exact hpaid

theorem start_metered (bond : Bond) (hprompt : prompt < 2 ^ 64) :
    (start price prompt bond).Metered price prompt where
  authorized_le := le_rfl
  sent_le := by rintro next ⟨⟩
  paid := ⟨rfl, le_authorizedTokens bond.delta hprompt⟩

/-- While the metering stops only on what is paid for, what is shown stays within what the chunk and
its top-ups authorise. -/
theorem within_budget_of_leavesMetered (hprompt : prompt < 2 ^ 64)
    (h : Runs (restrict (Step cfg C price prompt) LeavesMetered) (start price prompt bond) s) :
    WithinBudget price prompt s := by
  have hmetered : s.Metered price prompt := by
    refine h.invariant_of_restrict (J := fun s => s.job.Sound) ?_ ?_ ?_ ?_
    · intro s a s' hstep hs
      exact hstep.acts.sound hs
    · intro s a s' hC hstep hs hm
      exact hstep.metered hC hs hm
    · exact start_sound true _ hprompt
    · exact start_metered bond hprompt
  exact hmetered.within

end Steps

section Local

open LocalNode Payments

/-- A chat on a thousand micros, once it stands so and has shown so much. -/
def onThousand (job : Streaming.State) (shown : ℕ) : State := ⟨job, shown, thousand⟩

theorem listed_authorizes : listed.authorizedTokens thousand.delta 0 = 50 := by decide +kernel

theorem start_thousand :
    start listed 0 thousand = onThousand (Streaming.start true 50 0) 0 := by
  rw [start, listed_authorizes, onThousand]

section Onward

variable {job job' : Streaming.State} {shown : ℕ} {a : Act} {s : State}

theorem Step.of_acts (h : Streaming.Step job a job') (ha : ∀ next, a ≠ .granted next) :
    Step config LocalChain.crypto listed 0 (onThousand job shown) a
      (onThousand job' (shown + Metering.shows job a)) where
  acts := h
  raises := .other ha
  shows := rfl

theorem onward
    (hrun : Runs (restrict (Step config LocalChain.crypto listed 0) LeavesMetered) s
      (onThousand job shown))
    (h : Streaming.Step job a job') (hC : LeavesMetered (onThousand job shown) a)
    (ha : ∀ next, a ≠ .granted next) :
    Runs (restrict (Step config LocalChain.crypto listed 0) LeavesMetered) s
      (onThousand job' (shown + shows job a)) :=
  hrun.tail ⟨hC, .of_acts h ha⟩

end Onward

/-- A short reply that is metered while it is written. -/
def streamed : State := onThousand { Streaming.start true 50 0 with used := 40 } 40

theorem streamed_runs :
    Runs (restrict (Step config LocalChain.crypto listed 0) LeavesMetered)
      (start listed 0 thousand) streamed := by
  rw [start_thousand]
  have hstart : Runs (restrict (Step config LocalChain.crypto listed 0) LeavesMetered)
      (onThousand (Streaming.start true 50 0) 0)
      (onThousand (Streaming.start true 50 0) 0) := .refl _
  have hpoll := onward hstart (.poll rfl (by decide)) trivial nofun
  have hemit := onward hpoll (.emitDelta 40 rfl) trivial nofun
  have hpending := onward hemit (.pending rfl) trivial nofun
  have hmetered := onward hpending (.recvDelta rfl rfl) (by rintro d ds - ⟨⟩; decide) nofun
  exact onward hmetered (.show_ rfl (by decide)) trivial nofun

theorem within_budget_streamed : WithinBudget listed 0 streamed :=
  within_budget_of_leavesMetered (by decide) streamed_runs

/-- The whole reply arrives in the backend's last poll, and the forwarder sees the end of the
progress first. -/
theorem drained_unmetered : ¬ StaysWithinBudget config LocalChain.crypto listed 0 thousand := by
  intro h
  have hpoll := Runs.single
    (.of_acts (.poll rfl (by decide)) nofun :
      Step config LocalChain.crypto listed 0 (onThousand (Streaming.start true 50 0) 0) _ _)
  have hemit := hpoll.tail (.of_acts (.emitDelta 60 rfl) nofun)
  have hready := hemit.tail (.of_acts (@Streaming.Step.ready _ .ok rfl nofun) nofun)
  have hleft := hready.tail (.of_acts (.closed rfl rfl (.inl rfl)) nofun)
  have hended := hleft.tail (.of_acts (.progressEnd rfl rfl rfl) nofun)
  have hshown := hended.tail (.of_acts (.drainDelta rfl rfl) nofun)
  rw [← start_thousand] at hshown
  have hwithin : 0 + 60 ≤ listed.authorizedTokens thousand.delta 0 := h _ hshown
  rw [listed_authorizes] at hwithin
  exact absurd hwithin (by decide)

end Local

end Rootmode.Worker.Metering
