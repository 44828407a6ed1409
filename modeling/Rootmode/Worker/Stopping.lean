import Rootmode.Lib.Notify
import Rootmode.Worker.Streaming

namespace Rootmode.Worker.Stopping

open Lib.Notify Lib.Transition Streaming

/-- What a job is told to have stopped with. -/
def STOPPED : String := "stopped by client"

/-- The messages a job sends, as far as they differ here. -/
inductive Message
  | queued | running | delta | invoice | result | done
  | failed (reason : String)
  deriving DecidableEq

inductive Stage
  /-- Registered; its signature, payment, chunk, lock, payload and backend are looked at. -/
  | checking
  /-- Waiting for a permit. -/
  | queued
  | running
  /-- Refused, or stopped in the queue. -/
  | ended
  deriving DecidableEq

structure State where
  stage : Stage
  job : Streaming.State
  watch : Watch
  /-- A cancel under the job's id reaches this job. -/
  registered : Bool
  /-- A cancel came in before the backend was done. -/
  cancelled : Bool
  /-- What was sent, the newest first. -/
  sent : List Message
  deriving DecidableEq

/-- The job is registered, and its backend has yet to end. -/
def State.InTime (s : State) : Prop :=
  match s.stage with
  | .checking | .queued => True
  | .running => s.job.pump.feeds = true
  | .ended => False

instance (s : State) : Decidable s.InTime := by
  unfold State.InTime
  split <;> infer_instance

def State.Ended (s : State) : Prop :=
  s.stage = .ended ∨ (s.stage = .running ∧ s.job.pump = .finished)

/-- The job stands at a place where it may watch for a stop. -/
def State.Selects (s : State) : Prop :=
  s.stage = .queued ∨ (s.stage = .running ∧ (s.job.pump = .selecting ∨ s.job.pump = .toppingUp))

/-- An act is the pump's at one of its selects. -/
def Selecting : Streaming.Act → Prop
  | .stop | .takeNeed | .needClosed | .poll | .pending | .ready _ | .granted _ | .refused => True
  | _ => False

/-- What an act needs of the watch, and leaves of it.  The pump's selects look for a stop first. -/
inductive Watches : Watch → Streaming.Act → Watch → Prop
  | stop : Watches .fired .stop .off
  | takeNeed {w} : w.Looked → Watches w .takeNeed .off
  | needClosed {w} : w.Looked → Watches w .needClosed .off
  | poll {w} : w.Looked → Watches w .poll w
  | pending {w} : Watches w .pending w.suspend
  | ready {w outcome} : Watches w (.ready outcome) .off
  | granted {w next} : w.Looked → Watches w (.granted next) .off
  -- a stop, or no ticket in time, or one that is no good
  | refused {w} : w = .fired ∨ w.Looked → Watches w .refused .off
  | other {w a} : ¬ Selecting a → Watches w a w

/-- What an act sends; a backend that fails says why. -/
def sends (why : String) (job : Streaming.State) : Streaming.Act → List Message
  | .recvProgress => [.running]
  | .show_ => [.delta]
  | .recvDelta => if job.forwarder = .drainDeltas then [.delta] else []
  | .takeNeed => [.invoice]
  | .joined =>
    match job.pump with
    | .joining .ok => [.result]
    | .joining .stopped => [.failed STOPPED]
    | _ => [.failed why]
  | .captured => [.done]
  | _ => []

def start : State where
  stage := .checking
  job := Streaming.start false 0 0
  watch := .off
  registered := true
  cancelled := false
  sent := []

inductive Act
  | pass
  | refuse (why : String)
  | listen | look | suspend
  | stopQueued
  /-- A permit is free: generation starts, prepaid or not, on so much and with such a prompt. -/
  | acquire (holdback : Bool) (authorized prompt : ℕ)
  | works (a : Streaming.Act)
  | cancel
  /-- Another job under the same id takes its place among those that may be cancelled, or takes it
  away. -/
  | reused
  deriving DecidableEq

/-- An act of the job's own, or of its backend or client, a cancel aside. -/
def Act.own : Act → Prop
  | .cancel | .reused => False
  | _ => True

inductive Step : Labelled State Act
  | pass {s} : s.stage = .checking →
      Step s .pass { s with stage := .queued, sent := .queued :: s.sent }
  | refuse {s why} : s.stage = .checking →
      Step s (.refuse why) { s with stage := .ended, sent := .failed why :: s.sent }
  | listen {s} : s.Selects → s.watch = .off → Step s .listen { s with watch := .armed }
  | look {s} : s.Selects → s.watch = .armed → Step s .look { s with watch := .passed }
  | suspend {s} : s.Selects → s.watch.Looked → s.stage = .queued ∨ s.job.pump = .toppingUp →
      Step s .suspend { s with watch := s.watch.suspend }
  | stopQueued {s} : s.stage = .queued → s.watch = .fired →
      Step s .stopQueued
        { s with stage := .ended, watch := .off, sent := .failed STOPPED :: s.sent }
  | acquire {s holdback authorized prompt} : s.stage = .queued → s.watch.Looked → prompt < 2 ^ 64 →
      Step s (.acquire holdback authorized prompt)
        { s with
          stage := .running
          job := Streaming.start holdback authorized prompt
          watch := .off
          sent := .running :: s.sent }
  | works {s a job w} (why : String) : s.stage = .running → Streaming.Step s.job a job →
      Watches s.watch a w →
      Step s (.works a) { s with job, watch := w, sent := sends why s.job a ++ s.sent }
  | cancel {s} : Step s .cancel
      { s with
        watch := if s.registered then s.watch.notify else s.watch
        cancelled := s.cancelled || decide s.InTime }
  | reused {s} : Step s .reused { s with registered := false }

/-- A job that was cancelled in time goes on to its end, and is then told to have been stopped, the
last thing, and of no result. -/
def Heeded (s : State) : Prop :=
  s.cancelled = true →
    .result ∉ s.sent ∧
    (s.Ended → s.sent.head? = some (.failed STOPPED)) ∧
    (¬ s.Ended → ∃ a s', Step s a s' ∧ a.own)

def HeedsCancel : Prop := ∀ s, Runs Step start s → Heeded s

/-- A first cancel finds the job watching in the queue or in the loop of its pump, and the poll it
comes in upon completes nothing else; and the loop is left on a stop only when the forwarder can
finish without the pump. -/
def Watched (s : State) : Act → Prop
  | .cancel => s.cancelled = false → s.InTime →
      s.registered = true ∧ s.watch ≠ .off ∧
        (s.stage = .queued ∨ (s.stage = .running ∧ s.job.pump ≠ .toppingUp))
  | .acquire _ _ _ => s.watch ≠ .late
  | .works .stop => s.job.Covered
  | .works .takeNeed | .works .needClosed | .works (.ready _) => s.watch ≠ .late
  | _ => True

section Streams

variable {job job' : Streaming.State} {a : Streaming.Act} {why : String}

theorem not_selecting_of_left (h : Streaming.Step job a job') (hleft : job.pump.feeds = false) :
    ¬ Selecting a := by
  cases h with
  | stop hp | takeNeed hp | needClosed hp | poll hp | emitProgress hp | emitDelta _ hp | pending hp
  | ready hp | granted _ hp | refused hp => simp [hp, Pump.feeds] at hleft
  | _ => exact id

/-- A forwarder that is done stays done. -/
theorem done_stays (h : Streaming.Step job a job') (hf : job.forwarder = .done) :
    job'.forwarder = .done := by
  cases h with
  | recvProgress hat => simp [hf] at hat
  | recvDelta hat | closed hat | ask hat | show_ hat | answered hat | abandoned hat
  | progressEnd hat | drainDelta hat | deltasEnd hat => simp [hf] at hat
  | _ => exact hf

/-- The result is sent when the pump has joined after a run that ended well. -/
theorem pump_of_result (h : Streaming.Step job a job') (hr : .result ∈ sends why job a) :
    job'.pump = .capturing := by
  cases h with
  | @joined _ outcome hp _ =>
    cases outcome with
    | ok => rfl
    | failed | stopped => simp [sends, hp] at hr
  | recvDelta hf hd => simp [sends, hf] at hr
  | drainDelta hf hd => simp [sends, hf] at hr
  | _ => simp [sends] at hr

end Streams

/-- The pump is past its join. -/
def State.Joined (s : State) : Prop :=
  s.stage = .running ∧ (s.job.pump = .capturing ∨ s.job.pump = .finished)

/-- What holds of a job however it is run. -/
structure State.Sound (s : State) : Prop where
  job : s.stage = .running → s.job.Sound
  looked : s.stage = .running → s.job.pump = .polling → s.watch.Looked
  result : .result ∈ s.sent → s.Joined
  joined : s.Joined → s.job.forwarder = .done

theorem start_sound : start.Sound := ⟨nofun, nofun, nofun, nofun⟩

section Steps

variable {s s' : State} {a : Act}

theorem Step.job_sound (h : Step s a s') (hs : s.Sound) : s'.stage = .running → s'.job.Sound := by
  cases h with
  | works _ hstage hjob _ => exact fun _ => hjob.sound (hs.job hstage)
  | acquire _ _ hprompt => exact fun _ => Streaming.start_sound _ _ hprompt
  | pass | refuse | stopQueued => rintro ⟨⟩
  | _ => exact hs.job

/-- A poll of the backend has looked for a stop first. -/
theorem looked_of_works {job job' : Streaming.State} {act : Streaming.Act} {w w' : Watch}
    (hlooked : job.pump = .polling → w.Looked) (h : Streaming.Step job act job')
    (hw : Watches w act w') (hp : job'.pump = .polling) : w'.Looked := by
  cases hw with
  | poll hl => exact hl
  | needClosed hl =>
    cases h with
    | needClosed hselecting => simp [hselecting] at hp
  | stop | takeNeed | pending | ready | granted | refused => cases h; cases hp
  | other hact =>
    apply hlooked
    cases h with
    | joined => split at hp <;> cases hp
    | captured => cases hp
    | stop | takeNeed | needClosed | poll | pending | ready | granted | refused =>
      exact absurd trivial hact
    | _ => exact hp

theorem Step.looked (h : Step s a s') (hs : s.Sound) :
    s'.stage = .running → s'.job.pump = .polling → s'.watch.Looked := by
  cases h with
  | works _ hstage hjob hw => exact fun _ => looked_of_works (hs.looked hstage) hjob hw
  | listen hselects _ | look hselects _ =>
    intro (hstage : s.stage = .running) (hp : s.job.pump = .polling)
    simp [State.Selects, hstage, hp] at hselects
  | suspend _ _ hat =>
    intro (hstage : s.stage = .running) (hp : s.job.pump = .polling)
    simp [hstage, hp] at hat
  | acquire => rintro - ⟨⟩
  | pass | refuse | stopQueued => rintro ⟨⟩
  | cancel =>
    intro hstage hp
    have hlooked := hs.looked hstage hp
    split
    · exact hlooked.notify
    · exact hlooked
  | reused => exact hs.looked

/-- The pump does not go back from where it has joined. -/
theorem joined_stays {job job' : Streaming.State} {act : Streaming.Act}
    (h : Streaming.Step job act job') (hp : job.pump = .capturing ∨ job.pump = .finished) :
    job'.pump = .capturing ∨ job'.pump = .finished := by
  cases h with
  | captured => exact .inr rfl
  | recvProgress | recvDelta | closed | ask | show_ | answered | abandoned | progressEnd | drainDelta
  | deltasEnd => exact hp
  | _ => simp_all

/-- The pump joins a forwarder that is done. -/
theorem done_of_joined {job job' : Streaming.State} {act : Streaming.Act}
    (h : Streaming.Step job act job') (hp : job'.pump = .capturing ∨ job'.pump = .finished)
    (hbefore : job.pump ≠ .capturing ∧ job.pump ≠ .finished) : job'.forwarder = .done := by
  cases h with
  | joined _ hf => exact hf
  | captured hc => exact absurd hc hbefore.1
  | stop | takeNeed | poll | pending | ready | granted | refused => rcases hp with hp | hp <;> cases hp
  | _ =>
    rcases hp with hp | hp
    · exact absurd hp hbefore.1
    · exact absurd hp hbefore.2

theorem Step.result (h : Step s a s') (hs : s.Sound) : .result ∈ s'.sent → s'.Joined := by
  have hresult := hs.result
  have hbefore (hstage : s.stage ≠ .running) : .result ∉ s.sent := fun hr => hstage (hresult hr).1
  intro hr
  cases h with
  | works why hstage hjob hw =>
    refine ⟨hstage, ?_⟩
    rcases List.mem_append.mp hr with hnew | hold
    · exact .inl (pump_of_result hjob hnew)
    · exact joined_stays hjob (hresult hold).2
  | pass hstage | refuse hstage | stopQueued hstage _ | acquire hstage _ _ =>
    have hold : .result ∈ s.sent := by simpa using hr
    exact absurd hold (hbefore (by simp [hstage]))
  | listen | look | suspend | cancel | reused => exact hresult hr

theorem Step.joined (h : Step s a s') (hs : s.Sound) : s'.Joined → s'.job.forwarder = .done := by
  rintro ⟨hrunning, hp⟩
  cases h with
  | works _ hstage hjob _ =>
    by_cases hbefore : s.job.pump = .capturing ∨ s.job.pump = .finished
    · exact done_stays hjob (hs.joined ⟨hstage, hbefore⟩)
    · exact done_of_joined hjob hp (not_or.mp hbefore)
  | acquire => rcases hp with hp | hp <;> cases hp
  | pass | refuse | stopQueued => cases hrunning
  | listen | look | suspend | cancel | reused => exact hs.joined ⟨hrunning, hp⟩

theorem Step.sound (h : Step s a s') (hs : s.Sound) : s'.Sound where
  job := h.job_sound hs
  looked := h.looked hs
  result := h.result hs
  joined := h.joined hs

end Steps

/-- The stop of a running job is on its way: it was heard where it is looked for, or acted upon. -/
def StopsRunning (job : Streaming.State) (watch : Watch) (sent : List Message) : Prop :=
  match job.pump with
  | .selecting | .polling => watch.Heard
  | .joining .stopped => job.Covered
  | .finished => sent.head? = some (.failed STOPPED)
  | _ => False

def State.Stops (s : State) : Prop :=
  match s.stage with
  | .checking => False
  | .queued => s.watch.Heard
  | .running => StopsRunning s.job s.watch s.sent
  | .ended => s.sent.head? = some (.failed STOPPED)

/-- A job that was cancelled is told of no result, and stops. -/
def State.Obeys (s : State) : Prop := s.cancelled = true → .result ∉ s.sent ∧ s.Stops

section Running

variable {job job' : Streaming.State} {act : Streaming.Act} {w w' : Watch} {why : String}
  {sent : List Message}

/-- A poll that has heard goes no other way. -/
theorem not_looked_of_heard (h : w.Heard) (hne : w ≠ .late) : ¬ w.Looked :=
  fun hl => hne (h.late_of_looked hl)

/-- A job that is finished has no move left. -/
theorem stuck_of_finished (hp : job.pump = .finished) (hf : job.forwarder = .done) :
    Stuck Streaming.Step job := by
  intro a job' h
  cases h <;> simp_all

/-- The forwarder moves, or the backend: the stop stays on its way. -/
theorem StopsRunning.same (hstops : StopsRunning job w sent) (h : Streaming.Step job act job')
    (hs : job.Sound) (hne : job.pump ≠ .finished) (hpump : job'.pump = job.pump)
    (sent' : List Message) : StopsRunning job' w sent' := by
  unfold StopsRunning at *
  rw [hpump]
  cases hp : job.pump with
  | joining outcome =>
    rw [hp] at hstops
    cases outcome with
    | stopped => exact h.covered hs (by simp [hp, Pump.feeds]) hstops
    | ok | failed => exact hstops
  | finished => exact absurd hp hne
  | selecting | polling | toppingUp | capturing =>
    rw [hp] at hstops
    exact hstops

/-- A running job that is to stop takes no other way. -/
theorem StopsRunning.step (hstops : StopsRunning job w sent) (h : Streaming.Step job act job')
    (hw : Watches w act w') (hs : job.Sound) (hlooked : job.pump = .polling → w.Looked)
    (hdone : job.pump = .finished → job.forwarder = .done)
    (hcovered : act = .stop → job.Covered)
    (hlate : act = .takeNeed ∨ act = .needClosed ∨ (∃ outcome, act = .ready outcome) → w ≠ .late) :
    .result ∉ sends why job act ∧ StopsRunning job' w' (sends why job act ++ sent) := by
  have hne : job.pump ≠ .finished := fun hp => stuck_of_finished hp (hdone hp) _ _ h
  have hheard (hp : job.pump = .selecting ∨ job.pump = .polling) : w.Heard := by
    unfold StopsRunning at hstops
    rcases hp with hp | hp <;> rwa [hp] at hstops
  cases hw with
  | stop =>
    cases h with
    | stop hp => exact ⟨by simp [sends], hcovered rfl⟩
  | takeNeed hl =>
    cases h with
    | takeNeed hp =>
      exact absurd hl (not_looked_of_heard (hheard (.inl hp)) (hlate (.inl rfl)))
  | needClosed hl =>
    cases h with
    | needClosed hp =>
      exact absurd hl (not_looked_of_heard (hheard (.inl hp)) (hlate (.inr (.inl rfl))))
  | poll hl =>
    cases h with
    | poll hp => exact ⟨by simp [sends], hheard (.inl hp)⟩
  | pending =>
    cases h with
    | pending hp => exact ⟨by simp [sends], .inl (hheard (.inr hp)).suspend⟩
  | ready =>
    cases h with
    | ready hp _ =>
      exact absurd (hlooked hp)
        (not_looked_of_heard (hheard (.inr hp)) (hlate (.inr (.inr ⟨_, rfl⟩))))
  | granted =>
    cases h with
    | granted _ hp => simp [StopsRunning, hp] at hstops
  | refused =>
    cases h with
    | refused hp => simp [StopsRunning, hp] at hstops
  | other hact =>
    have hsame := hstops.same h hs hne
    cases h with
    | @joined _ outcome hp hf =>
      simp only [StopsRunning, hp] at hstops
      cases outcome with
      | stopped => exact ⟨by simp [sends, hp], by simp [StopsRunning, sends, hp]⟩
      | ok | failed => exact hstops.elim
    | captured hp => simp [StopsRunning, hp] at hstops
    | stop | takeNeed | needClosed | poll | pending | ready | granted | refused =>
      exact absurd trivial hact
    | recvDelta hf | drainDelta hf => exact ⟨by simp [sends, hf], hsame rfl _⟩
    | _ => exact ⟨by simp [sends], hsame rfl _⟩

end Running

section Obeys

variable {s s' : State} {a : Act}

/-- Where a stop is looked for it was heard. -/
theorem State.Stops.heard (hstops : s.Stops) (hselects : s.Selects) : s.watch.Heard := by
  unfold State.Stops StopsRunning at hstops
  rcases hselects with hstage | ⟨hstage, hp | hp⟩
  · simpa only [hstage] using hstops
  · simpa only [hstage, hp] using hstops
  · simp [hstage, hp] at hstops

/-- What was heard may be heard again. -/
theorem State.Stops.rewatch (hstops : s.Stops) {w : Watch} (hw : s.watch.Heard → w.Heard) :
    State.Stops { s with watch := w } := by
  unfold State.Stops StopsRunning at *
  dsimp only
  split <;> simp_all
  split <;> simp_all

theorem State.InTime.not_joined (h : s.InTime) : ¬ s.Joined := by
  rintro ⟨hstage, hp⟩
  simp only [State.InTime, hstage] at h
  rcases hp with hp | hp <;> simp [hp, Pump.feeds] at h

/-- A cancel that is heard in the queue or in the loop is on its way. -/
theorem State.InTime.stops (h : s.InTime)
    (hwhere : s.stage = .queued ∨ (s.stage = .running ∧ s.job.pump ≠ .toppingUp)) {w : Watch}
    {c : Bool} (hw : w.Heard) : State.Stops { s with watch := w, cancelled := c } := by
  unfold State.Stops
  rcases hwhere with hstage | ⟨hstage, hne⟩
  · simpa only [hstage] using hw
  · simp only [State.InTime, hstage] at h
    simp only [hstage, StopsRunning]
    cases hp : s.job.pump with
    | selecting | polling => exact hw
    | toppingUp => exact absurd hp hne
    | joining _ | capturing | finished => simp [hp, Pump.feeds] at h

theorem Step.obeys (hC : Watched s a) (h : Step s a s') (hs : s.Sound) (hstop : s.Obeys) :
    s'.Obeys := by
  intro hcancelled
  cases h with
  | @works _ act job w why hstage hjob hw =>
    obtain ⟨hresult, hstops⟩ := hstop hcancelled
    simp only [State.Stops, hstage] at hstops ⊢
    have hdone : s.job.pump = .finished → s.job.forwarder = .done :=
      fun hp => hs.joined ⟨hstage, .inr hp⟩
    have hcovered : act = .stop → s.job.Covered := by
      rintro rfl
      exact hC
    have hlate : act = .takeNeed ∨ act = .needClosed ∨ (∃ outcome, act = .ready outcome) →
        s.watch ≠ .late := by
      rintro (rfl | rfl | ⟨outcome, rfl⟩)
      · exact hC
      · exact hC
      · exact hC
    obtain ⟨hsends, hstops⟩ := hstops.step hjob hw (hs.job hstage) (hs.looked hstage) hdone
      hcovered hlate
    refine ⟨?_, hstops⟩
    intro hr
    rcases List.mem_append.mp hr with hnew | hold
    · exact hsends hnew
    · exact hresult hold
  | cancel =>
    by_cases hbefore : s.cancelled = true
    · obtain ⟨hresult, hstops⟩ := hstop hbefore
      refine ⟨hresult, hstops.rewatch ?_⟩
      intro hheard
      split
      · exact hheard.notify
      · exact hheard
    · have hfirst : s.cancelled = false := by simpa using hbefore
      have htime : s.InTime := by simpa [hfirst] using hcancelled
      obtain ⟨hregistered, hwatch, hwhere⟩ := hC hfirst htime
      have hheard := Watch.heard_notify hwatch
      refine ⟨fun hr => htime.not_joined (hs.result hr), ?_⟩
      rw [if_pos hregistered]
      exact htime.stops hwhere hheard
  | reused => exact hstop hcancelled
  | pass hstage | refuse hstage =>
    have hstops := (hstop hcancelled).2
    simp [State.Stops, hstage] at hstops
  | listen hselects hoff =>
    have hheard := (hstop hcancelled).2.heard hselects
    simp [hoff, Watch.Heard] at hheard
  | look hselects harmed =>
    have hheard := (hstop hcancelled).2.heard hselects
    simp [harmed, Watch.Heard] at hheard
  | suspend =>
    obtain ⟨hresult, hstops⟩ := hstop hcancelled
    exact ⟨hresult, hstops.rewatch fun hheard => .inl hheard.suspend⟩
  | stopQueued =>
    obtain ⟨hresult, -⟩ := hstop hcancelled
    exact ⟨by simpa using hresult, rfl⟩
  | acquire hstage hlooked _ =>
    obtain ⟨-, hstops⟩ := hstop hcancelled
    exact absurd hlooked (not_looked_of_heard (hstops.heard (.inl hstage)) hC)

/-- A job that stops can go on until it has ended. -/
theorem State.Stops.moves (hstops : s.Stops) (hne : ¬ s.Ended) :
    ∃ a s', Step s a s' ∧ a.own := by
  cases hstage : s.stage with
  | checking => simp [State.Stops, hstage] at hstops
  | ended => exact absurd (.inl hstage) hne
  | queued =>
    have hselects : s.Selects := .inl hstage
    rcases hstops.heard hselects with hfired | hlate
    · exact ⟨_, _, .stopQueued hstage hfired, trivial⟩
    · exact ⟨_, _, .suspend hselects (.inr hlate) (.inl hstage), trivial⟩
  | running =>
    have hworks {act : Streaming.Act} {job : Streaming.State} {w : Watch}
        (hjob : Streaming.Step s.job act job) (hw : Watches s.watch act w) :
        ∃ a s', Step s a s' ∧ a.own :=
      ⟨_, _, .works "" hstage hjob hw, trivial⟩
    simp only [State.Stops, hstage, StopsRunning] at hstops
    cases hp : s.job.pump with
    | selecting =>
      rw [hp] at hstops
      rcases hstops with hfired | hlate
      · have hw : Watches s.watch .stop .off := by
          rw [hfired]
          exact .stop
        exact hworks (.stop hp) hw
      · by_cases hneed : s.job.topping = true ∧ s.job.needReady
        · rcases hneed.2 with hasked | hdone
          · exact hworks (.takeNeed hp hneed.1 hasked) (.takeNeed (.inr hlate))
          · exact hworks (.needClosed hp hneed.1 hdone) (.needClosed (.inr hlate))
        · exact hworks (.poll hp hneed) (.poll (.inr hlate))
    | polling => exact hworks (.pending hp) .pending
    | joining outcome =>
      have hleft : s.job.pump.feeds = false := by simp [hp, Pump.feeds]
      rw [hp] at hstops
      cases outcome with
      | stopped =>
        obtain ⟨act, job, hjob, -⟩ := moves_of_covered hleft (by simp [hp]) hstops
        exact hworks hjob (.other (not_selecting_of_left hjob hleft))
      | ok | failed => exact hstops.elim
    | finished => exact absurd (.inr ⟨hstage, hp⟩) hne
    | toppingUp | capturing => simp [hp] at hstops

theorem State.Obeys.heeded (hstop : s.Obeys) : Heeded s := by
  intro hcancelled
  obtain ⟨hresult, hstops⟩ := hstop hcancelled
  refine ⟨hresult, ?_, hstops.moves⟩
  rintro (hstage | ⟨hstage, hp⟩)
  · simpa only [State.Stops, hstage] using hstops
  · simpa only [State.Stops, hstage, StopsRunning, hp] using hstops

end Obeys

/-- While cancels come in where they are watched for, a job that is cancelled in time stops. -/
theorem heeds_cancel_of_watched {s : State} (h : Runs (restrict Step Watched) start s) : Heeded s := by
  have hboth : s.Sound ∧ s.Obeys := by
    refine h.invariant (P := fun s => s.Sound ∧ s.Obeys) ?_ ⟨start_sound, nofun⟩
    rintro s a s' ⟨hC, hstep⟩ ⟨hs, hstop⟩
    exact ⟨hstep.sound hs, hstep.obeys hC hs hstop⟩
  exact hboth.2.heeded

/-- Cancelled in the queue. -/
def cancelledInQueue : State where
  stage := .queued
  job := Streaming.start false 0 0
  watch := .fired
  registered := true
  cancelled := true
  sent := [.queued]

theorem cancelledInQueue_runs : Runs (restrict Step Watched) start cancelledInQueue := by
  have hstart : Runs (restrict Step Watched) start start := .refl _
  have hpass := hstart.tail (a := Act.pass) ⟨trivial, .pass rfl⟩
  have hlisten := hpass.tail (a := Act.listen) ⟨trivial, .listen (.inl rfl) rfl⟩
  exact hlisten.tail (a := Act.cancel) ⟨fun _ _ => ⟨rfl, nofun, .inl rfl⟩, .cancel⟩

theorem heeded_in_queue : Heeded cancelledInQueue := heeds_cancel_of_watched cancelledInQueue_runs

/-- A cancel that comes in while the job is still looked at finds nobody, and the job goes on to its
result. -/
theorem early_cancel_lost : ¬ HeedsCancel := by
  intro h
  have hcancel := Runs.single (Step.cancel (s := start))
  have hpass := hcancel.tail (.pass rfl)
  have hqueued := (hpass.tail (.listen (.inl rfl) rfl)).tail (.look (.inl rfl) rfl)
  have hrunning := hqueued.tail (a := Act.acquire false 0 0) (.acquire rfl (.inl rfl) (by decide))
  have hselects := (hrunning.tail (.listen (.inr ⟨rfl, .inl rfl⟩) rfl)).tail
    (.look (.inr ⟨rfl, .inl rfl⟩) rfl)
  have hpoll := hselects.tail (.works "" rfl (.poll rfl (by decide)) (.poll (.inl rfl)))
  have hready := hpoll.tail (a := Act.works (.ready .ok)) (.works "" rfl (.ready rfl nofun) .ready)
  have hleft := hready.tail (.works "" rfl (.closed rfl rfl (.inl rfl)) (.other id))
  have hprogress := hleft.tail (.works "" rfl (.progressEnd rfl rfl rfl) (.other id))
  have hended := hprogress.tail (.works "" rfl (.deltasEnd rfl rfl rfl) (.other id))
  have hjoined := hended.tail (.works "" rfl (.joined rfl rfl) (.other id))
  obtain ⟨hresult, -⟩ := h _ hjoined rfl
  exact hresult (by decide)

end Rootmode.Worker.Stopping
