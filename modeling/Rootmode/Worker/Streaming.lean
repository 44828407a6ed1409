import Rootmode.Lib.Checked
import Rootmode.Lib.Transition

namespace Rootmode.Worker.Streaming

open Lib.Checked Lib.Transition

def u64Max : ℕ := 2 ^ 64 - 1

/-- How the generation loop ended. -/
inductive Outcome
  | ok | failed | stopped
  deriving DecidableEq

/-- Where `handle_submit_cancellable` itself stands. -/
inductive Pump
  /-- At the head of its select loop. -/
  | selecting
  /-- Inside one poll of the backend. -/
  | polling
  /-- Inside `request_top_up`. -/
  | toppingUp
  /-- Past the loop: the progress handle is dropped, the need queue is not. -/
  | joining (outcome : Outcome)
  | capturing
  | finished
  deriving DecidableEq

/-- The task that forwards deltas.  A delta is the number of tokens it is metered at. -/
inductive Forwarder
  | selecting
  /-- A delta is metered and not yet shown. -/
  | checking (delta : ℕ)
  /-- Waiting for the one-shot reply to a request for more tokens. -/
  | waiting (delta : ℕ)
  | drainProgress
  | drainDeltas
  | done
  deriving DecidableEq

/-- The one-shot reply channel of the forwarder's last request. -/
inductive Reply
  | none
  /-- The sending end is in the need queue. -/
  | queued
  /-- The pump took it out and is topping up. -/
  | held
  | sent (next : ℕ)
  | dropped
  deriving DecidableEq

structure State where
  pump : Pump
  forwarder : Forwarder
  /-- Progress updates not yet received. -/
  progress : ℕ
  /-- Deltas not yet received. -/
  deltas : List ℕ
  reply : Reply
  topping : Bool
  authorized : ℕ
  used : ℕ
  deriving DecidableEq

/-- The progress handle is alive: the queues it feeds are open. -/
def Pump.feeds : Pump → Bool
  | .selecting | .polling | .toppingUp => true
  | .joining _ | .capturing | .finished => false

/-- The need queue has something for the pump: a request, or its end. -/
def State.needReady (s : State) : Prop := s.reply = .queued ∨ s.forwarder = .done

instance (s : State) : Decidable s.needReady := inferInstanceAs (Decidable (_ ∨ _))

/-- The forwarder must ask before it shows what it metered. -/
def State.overBudget (s : State) : Prop := s.authorized < s.used ∧ s.authorized ≠ u64Max

instance (s : State) : Decidable s.overBudget := inferInstanceAs (Decidable (_ ∧ _))

/-- The start of generation, once the job holds a permit. -/
def start (holdback : Bool) (authorized prompt : ℕ) : State where
  pump := .selecting
  forwarder := .selecting
  progress := 0
  deltas := []
  reply := .none
  topping := holdback
  authorized := if holdback then authorized else u64Max
  used := prompt

inductive Act
  | stop
  | takeNeed | needClosed | poll | emitProgress | emitDelta (delta : ℕ) | pending
  | ready (outcome : Outcome)
  | granted (next : ℕ) | refused
  | joined | captured
  | recvProgress | recvDelta | closed | ask | show_ | answered | abandoned
  deriving DecidableEq

/-- One step of the pump, the backend it polls, the client or the forwarder. -/
inductive Step : Labelled State Act
  -- the pump: a stop comes first, then a request, and only then the backend
  | stop {s} : s.pump = .selecting → Step s .stop { s with pump := .joining .stopped }
  | takeNeed {s} : s.pump = .selecting → s.topping = true → s.reply = .queued →
      Step s .takeNeed { s with pump := .toppingUp, reply := .held }
  | needClosed {s} : s.pump = .selecting → s.topping = true → s.forwarder = .done →
      Step s .needClosed { s with topping := false }
  | poll {s} : s.pump = .selecting → ¬ (s.topping = true ∧ s.needReady) →
      Step s .poll { s with pump := .polling }
  -- one poll of the backend emits what it likes, then is pending or ready
  | emitProgress {s} : s.pump = .polling →
      Step s .emitProgress { s with progress := s.progress + 1 }
  | emitDelta {s} (d : ℕ) : s.pump = .polling →
      Step s (.emitDelta d) { s with deltas := s.deltas ++ [d] }
  | pending {s} : s.pump = .polling → Step s .pending { s with pump := .selecting }
  | ready {s} {outcome : Outcome} : s.pump = .polling → outcome ≠ .stopped →
      Step s (.ready outcome) { s with pump := .joining outcome }
  -- the client pays for the next slice, or is late, silent, stopped or paying too little
  | granted {s} (next : ℕ) : s.pump = .toppingUp → next ≤ u64Max →
      Step s (.granted next) { s with pump := .selecting, reply := .sent next }
  | refused {s} : s.pump = .toppingUp →
      Step s .refused { s with pump := .selecting, reply := .dropped }
  -- after the loop: wait for the forwarder, then capture a finished job within its own timeout
  | joined {s} {outcome : Outcome} : s.pump = .joining outcome → s.forwarder = .done →
      Step s .joined { s with pump := if outcome = .ok then .capturing else .finished }
  | captured {s} : s.pump = .capturing → Step s .captured { s with pump := .finished }
  -- the forwarder
  | recvProgress {s} : s.forwarder = .selecting ∨ s.forwarder = .drainProgress → 0 < s.progress →
      Step s .recvProgress { s with progress := s.progress - 1 }
  | recvDelta {s} {d : ℕ} {ds : List ℕ} : s.forwarder = .selecting → s.deltas = d :: ds →
      Step s .recvDelta
        { s with forwarder := .checking d, deltas := ds, used := satAdd 64 s.used d }
  | closed {s} : s.forwarder = .selecting → s.pump.feeds = false →
      s.progress = 0 ∨ s.deltas = [] → Step s .closed { s with forwarder := .drainProgress }
  | ask {s} {d : ℕ} : s.forwarder = .checking d → s.overBudget →
      Step s .ask { s with forwarder := .waiting d, reply := .queued }
  | show_ {s} {d : ℕ} : s.forwarder = .checking d → ¬ s.overBudget →
      Step s .show_ { s with forwarder := .selecting }
  | answered {s} {d next : ℕ} : s.forwarder = .waiting d → s.reply = .sent next →
      Step s .answered { s with forwarder := .checking d, authorized := next, reply := .none }
  | abandoned {s} {d : ℕ} : s.forwarder = .waiting d → s.reply = .dropped →
      Step s .abandoned { s with forwarder := .done, reply := .none }
  | progressEnd {s} : s.forwarder = .drainProgress → s.pump.feeds = false → s.progress = 0 →
      Step s .closed { s with forwarder := .drainDeltas }
  | drainDelta {s} {d : ℕ} {ds : List ℕ} : s.forwarder = .drainDeltas → s.deltas = d :: ds →
      Step s .recvDelta { s with deltas := ds }
  | deltasEnd {s} : s.forwarder = .drainDeltas → s.pump.feeds = false → s.deltas = [] →
      Step s .closed { s with forwarder := .done }

/-- The meter after showing every delta of the list. -/
def meter (used : ℕ) (deltas : List ℕ) : ℕ := deltas.foldl (satAdd 64) used

theorem le_meter {used : ℕ} (h : used < 2 ^ 64) (deltas : List ℕ) : used ≤ meter used deltas := by
  induction deltas generalizing used with
  | nil => exact le_rfl
  | cons d ds ih => exact Nat.le_trans (le_satAdd h d) (ih (satAdd_lt 64 used d))

/-- The budget pays for everything queued. -/
def Fits (budget used : ℕ) (deltas : List ℕ) : Prop :=
  budget = u64Max ∨ meter used deltas ≤ budget

/-- The forwarder can come to its end without asking for more. -/
def State.Covered (s : State) : Prop :=
  match s.forwarder, s.reply with
  | .selecting, _ => s.deltas = [] ∨ Fits s.authorized s.used s.deltas
  | .checking _, _ => Fits s.authorized s.used s.deltas
  | .waiting _, .sent next => Fits next s.used s.deltas
  | .waiting _, .dropped => True
  | .waiting _, _ => False
  | _, _ => True

/-- The meter is a machine word, and the reply channel is where both its ends say it is. -/
structure State.Sound (s : State) : Prop where
  used_lt : s.used < 2 ^ 64
  asked : s.reply ≠ .none ↔ ∃ d, s.forwarder = .waiting d
  held : s.reply = .held ↔ s.pump = .toppingUp

theorem start_sound (holdback : Bool) (authorized : ℕ) {prompt : ℕ} (h : prompt < 2 ^ 64) :
    (start holdback authorized prompt).Sound where
  used_lt := h
  asked := by simp [start]
  held := by simp [start]

section Steps

variable {s s' : State} {a : Act}

theorem Step.sound (h : Step s a s') (hs : s.Sound) : s'.Sound := by
  obtain ⟨hused, hasked, hheld⟩ := hs
  cases h with
  | recvDelta hf hd => exact ⟨satAdd_lt _ _ _, by simp_all, by simp_all⟩
  | joined hp hf =>
    refine ⟨hused, hasked, ?_⟩
    split <;> simp_all
  | _ => exact ⟨hused, by simp_all, by simp_all⟩

/-- The step leaves the loop. -/
def Act.leaves : Act → Prop
  | .stop | .ready _ => True
  | _ => False

/-- The pump leaves its loop only when the forwarder can finish without it. -/
def LeavesCovered (s : State) (a : Act) : Prop := a.leaves → s.Covered

theorem not_overBudget_of_fits (hs : s.Sound) (h : Fits s.authorized s.used s.deltas) :
    ¬ s.overBudget := by
  rintro ⟨hlt, hne⟩
  rcases h with hmax | hmeter
  · exact hne hmax
  · have := le_meter hs.used_lt s.deltas
    omega

/-- After the loop the forwarder stays covered: nothing is queued any more. -/
theorem Step.covered (h : Step s a s') (hs : s.Sound) (hleft : s.pump.feeds = false)
    (hcov : s.Covered) : s'.Covered := by
  cases h with
  | stop hp | takeNeed hp | needClosed hp | poll hp | emitProgress hp | emitDelta _ hp | pending hp
  | ready hp | granted _ hp | refused hp => simp [hp, Pump.feeds] at hleft
  | joined | captured | recvProgress => exact hcov
  | recvDelta hf hd =>
    simp only [State.Covered, hf] at hcov ⊢
    rcases hcov with hnone | hfits
    · simp [hd] at hnone
    · rwa [hd] at hfits
  | closed | abandoned | progressEnd | deltasEnd => trivial
  | ask hf hover =>
    simp only [State.Covered, hf] at hcov
    exact absurd hover (not_overBudget_of_fits hs hcov)
  | show_ hf _ =>
    simp only [State.Covered, hf] at hcov ⊢
    exact .inr hcov
  | answered hf hr =>
    simp only [State.Covered, hf, hr] at hcov ⊢
    exact hcov
  | drainDelta hf _ => simp only [State.Covered, hf]

theorem Step.feeds (h : Step s a s') (ha : ¬ a.leaves) (hfeeds : s'.pump.feeds = false) :
    s.pump.feeds = false := by
  cases h with
  | stop | ready => exact absurd trivial ha
  | takeNeed | poll | pending | granted | refused => cases hfeeds
  | needClosed | emitProgress | emitDelta | recvProgress | recvDelta | closed | ask | show_
  | answered | abandoned | progressEnd | drainDelta | deltasEnd => exact hfeeds
  | joined hp _ | captured hp => simp [hp, Pump.feeds]

theorem Step.stays_left (h : Step s a s') (hleft : s.pump.feeds = false) :
    s'.pump.feeds = false := by
  cases h with
  | stop hp | takeNeed hp | needClosed hp | poll hp | emitProgress hp | emitDelta _ hp | pending hp
  | ready hp | granted _ hp | refused hp => simp [hp, Pump.feeds] at hleft
  | joined => split <;> rfl
  | captured => rfl
  | recvProgress | recvDelta | closed | ask | show_ | answered | abandoned | progressEnd
  | drainDelta | deltasEnd => exact hleft

theorem Step.covered_of_leaves (h : Step s a s') (ha : a.leaves) (hcov : s.Covered) :
    s'.Covered := by
  cases h with
  | stop | ready => exact hcov
  | _ => exact absurd ha id

/-- What a run keeps when it leaves the loop only covered. -/
def State.Safe (s : State) : Prop := s.Sound ∧ (s.pump.feeds = false → s.Covered)

theorem Step.safe (hC : LeavesCovered s a) (h : Step s a s') (hs : s.Safe) : s'.Safe := by
  refine ⟨h.sound hs.1, fun hfeeds => ?_⟩
  by_cases ha : a.leaves
  · exact h.covered_of_leaves ha (hC ha)
  · have hleft := h.feeds ha hfeeds
    exact h.covered hs.1 hleft (hs.2 hleft)

/-- In the loop the pump always has a move of its own. -/
theorem moves_of_feeds (h : s.pump.feeds = true) : ∃ a s', Step s a s' ∧ a ≠ .stop := by
  cases hp : s.pump with
  | selecting =>
    by_cases hneed : s.topping = true ∧ s.needReady
    · rcases hneed.2 with hq | hd
      · exact ⟨_, _, .takeNeed hp hneed.1 hq, nofun⟩
      · exact ⟨_, _, .needClosed hp hneed.1 hd, nofun⟩
    · exact ⟨_, _, .poll hp hneed, nofun⟩
  | polling => exact ⟨_, _, .pending hp, nofun⟩
  | toppingUp => exact ⟨_, _, .refused hp, nofun⟩
  | joining _ | capturing | finished => simp [hp, Pump.feeds] at h

/-- Past the loop a covered forwarder runs to its end, and the pump after it. -/
theorem moves_of_covered (hleft : s.pump.feeds = false) (hne : s.pump ≠ .finished)
    (hcov : s.Covered) : ∃ a s', Step s a s' ∧ a ≠ .stop := by
  cases hf : s.forwarder with
  | selecting =>
    cases hd : s.deltas with
    | nil => exact ⟨_, _, .closed hf hleft (.inr hd), nofun⟩
    | cons d ds => exact ⟨_, _, .recvDelta hf hd, nofun⟩
  | checking d =>
    by_cases hover : s.overBudget
    · exact ⟨_, _, .ask hf hover, nofun⟩
    · exact ⟨_, _, .show_ hf hover, nofun⟩
  | waiting d =>
    cases hr : s.reply with
    | sent next => exact ⟨_, _, .answered hf hr, nofun⟩
    | dropped => exact ⟨_, _, .abandoned hf hr, nofun⟩
    | none | queued | held => simp [State.Covered, hf, hr] at hcov
  | drainProgress =>
    by_cases hp : s.progress = 0
    · exact ⟨_, _, .progressEnd hf hleft hp, nofun⟩
    · exact ⟨_, _, .recvProgress (.inr hf) (Nat.pos_of_ne_zero hp), nofun⟩
  | drainDeltas =>
    cases hd : s.deltas with
    | nil => exact ⟨_, _, .deltasEnd hf hleft hd, nofun⟩
    | cons d ds => exact ⟨_, _, .drainDelta hf hd, nofun⟩
  | done =>
    cases hp : s.pump with
    | joining outcome => exact ⟨_, _, .joined hp hf, nofun⟩
    | capturing => exact ⟨_, _, .captured hp, nofun⟩
    | finished => exact absurd hp hne
    | selecting | polling | toppingUp => simp [hp, Pump.feeds] at hleft

end Steps

/-- A job whose pump leaves its loop only when the forwarder can finish without it always has a
step to take, the client's stop aside, until it is finished. -/
theorem no_deadlock_of_leavesCovered {holdback : Bool} {authorized prompt : ℕ} {s : State}
    (hprompt : prompt < 2 ^ 64)
    (h : Runs (restrict Step LeavesCovered) (start holdback authorized prompt) s)
    (hne : s.pump ≠ .finished) : ∃ a s', Step s a s' ∧ a ≠ .stop := by
  have hsafe : s.Safe := by
    refine h.invariant (P := State.Safe) (fun ha => Step.safe ha.1 ha.2) ?_
    exact ⟨start_sound holdback authorized hprompt, nofun⟩
  cases hfeeds : s.pump.feeds with
  | true => exact moves_of_feeds hfeeds
  | false => exact moves_of_covered hfeeds hne (hsafe.2 hfeeds)

/-- The state in which a short reply, all prepaid, has left the loop. -/
def prepaid : State :=
  { start true 1_000_000 100 with pump := .joining .ok, deltas := [2_000] }

theorem prepaid_runs : Runs (restrict Step LeavesCovered) (start true 1_000_000 100) prepaid := by
  have hpoll : restrict Step LeavesCovered (start true 1_000_000 100) .poll
      { start true 1_000_000 100 with pump := .polling } :=
    ⟨nofun, .poll rfl (by decide)⟩
  have hemit := (Runs.single hpoll).tail (a := .emitDelta 2_000) ⟨nofun, .emitDelta 2_000 rfl⟩
  have hcov : State.Covered { start true 1_000_000 100 with
      pump := .polling, deltas := [2_000] } :=
    .inr (.inr (by decide))
  exact hemit.tail (a := .ready .ok) ⟨fun _ => hcov, .ready rfl nofun⟩

theorem no_deadlock_prepaid : ∃ a s', Step prepaid a s' ∧ a ≠ .stop :=
  no_deadlock_of_leavesCovered (by decide) prepaid_runs nofun

section Deadlock

variable {s : State} {outcome : Outcome}

/-- A request that reaches the queue after the loop is never answered. -/
theorem stuck_of_asked {d : ℕ} (hp : s.pump = .joining outcome) (hf : s.forwarder = .waiting d)
    (hr : s.reply = .queued) : Stuck Step s := by
  intro a s' h
  cases h <;> simp_all

theorem stuck_of_checking {d : ℕ} (hp : s.pump = .joining outcome)
    (hf : s.forwarder = .checking d) (h : ¬ Fits s.authorized s.used s.deltas) :
    ∃ t, Runs Step s t ∧ t.pump ≠ .finished ∧ Stuck Step t := by
  -- the induction is on the deltas still queued: each one shown brings the meter nearer the budget
  obtain ⟨ds, hds⟩ : ∃ ds, s.deltas = ds := ⟨_, rfl⟩
  induction ds generalizing s d with
  | nil =>
    have hover : s.overBudget := by
      simp only [Fits, hds, meter, List.foldl_nil, not_or, Nat.not_le] at h
      exact ⟨h.2, h.1⟩
    refine ⟨_, .single (.ask hf hover), ?_, stuck_of_asked hp rfl rfl⟩
    simp [hp]
  | cons e ds ih =>
    by_cases hover : s.overBudget
    · refine ⟨_, .single (.ask hf hover), ?_, stuck_of_asked hp rfl rfl⟩
      simp [hp]
    · have hshow := Step.show_ hf hover
      have hrecv := Step.recvDelta (s := { s with forwarder := .selecting }) rfl hds
      obtain ⟨t, hrun, hne, hstuck⟩ := ih (s := { s with
          forwarder := .checking e, deltas := ds, used := satAdd 64 s.used e }) hp rfl
        (by simpa [Fits, hds, meter] using h) rfl
      exact ⟨t, (Runs.single hshow).trans (hrun.head hrecv), hne, hstuck⟩

/-- Past the loop, a job can deadlock exactly when its forwarder is not covered. -/
theorem deadlocks_iff_not_covered (hs : s.Sound) (hp : s.pump = .joining outcome) :
    (∃ t, Runs Step s t ∧ t.pump ≠ .finished ∧ Stuck Step t) ↔ ¬ s.Covered := by
  have hleft : s.pump.feeds = false := by simp [hp, Pump.feeds]
  constructor
  · rintro ⟨t, hrun, hne, hstuck⟩ hcov
    have ht : (t.Sound ∧ t.pump.feeds = false) ∧ t.Covered := by
      refine hrun.invariant (P := fun s => (s.Sound ∧ s.pump.feeds = false) ∧ s.Covered) ?_
        ⟨⟨hs, hleft⟩, hcov⟩
      rintro s a s' h ⟨⟨hs, hleft⟩, hcov⟩
      exact ⟨⟨h.sound hs, h.stays_left hleft⟩, h.covered hs hleft hcov⟩
    obtain ⟨a, s', hmove, -⟩ := moves_of_covered ht.1.2 hne ht.2
    exact hstuck a s' hmove
  · intro hcov
    have hnone := hs.asked
    have hheld := hs.held
    cases hf : s.forwarder with
    | selecting =>
      simp only [State.Covered, hf, not_or] at hcov
      obtain ⟨d, ds, hds⟩ := List.exists_cons_of_ne_nil hcov.1
      have hrecv := Step.recvDelta hf hds
      obtain ⟨t, hrun, hne, hstuck⟩ := stuck_of_checking (s := { s with
          forwarder := .checking d, deltas := ds, used := satAdd 64 s.used d }) hp rfl
        (by simpa [Fits, hds, meter] using hcov.2)
      exact ⟨t, hrun.head hrecv, hne, hstuck⟩
    | checking d =>
      simp only [State.Covered, hf] at hcov
      exact stuck_of_checking hp hf hcov
    | waiting d =>
      cases hr : s.reply with
      | none => simp [hf, hr] at hnone
      | queued => exact ⟨s, .refl s, by simp [hp], stuck_of_asked hp hf hr⟩
      | held => simp [hr, hp] at hheld
      | sent next =>
        simp only [State.Covered, hf, hr] at hcov
        have hanswer := Step.answered hf hr
        obtain ⟨t, hrun, hne, hstuck⟩ := stuck_of_checking (s := { s with
          forwarder := .checking d, authorized := next, reply := .none }) hp rfl hcov
        exact ⟨t, hrun.head hanswer, hne, hstuck⟩
      | dropped => simp [State.Covered, hf, hr] at hcov
    | drainProgress | drainDeltas | done => simp [State.Covered, hf] at hcov

end Deadlock

/-- Until it is finished, a job started so can always take a step. -/
def DeadlockFree (holdback : Bool) (authorized prompt : ℕ) : Prop :=
  ∀ s, Runs Step (start holdback authorized prompt) s → s.pump ≠ .finished → ¬ Stuck Step s

/-- The whole reply arrives in the backend's last poll and runs past the prepaid slice. -/
theorem overrun_deadlocks : ¬ DeadlockFree true 1_000_000 100 := by
  intro h
  have hpoll := Step.poll (s := start true 1_000_000 100) rfl (by decide)
  have hended := ((Runs.single hpoll).tail (.emitDelta 1_200_000 rfl)).tail (a := .ready .ok)
    (.ready rfl nofun)
  have hmetered := hended.tail (.recvDelta rfl rfl)
  have hasked := hmetered.tail (.ask rfl (by decide))
  exact h _ hasked nofun (stuck_of_asked rfl rfl rfl)

end Rootmode.Worker.Streaming
