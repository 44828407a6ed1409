import Rootmode.Worker.Catalogue
import Rootmode.Worker.Metering

namespace Rootmode.Worker.Ending

open Lib Lib.Checked Lib.Transition Payments Streaming

/-- A priced job from the start of its generation to its end. -/
structure State where
  meter : Metering.State
  /-- The chunk is still among those held, under the job's id. -/
  held : Bool
  channels : Channels

inductive Act
  /-- The backend, the forwarder or the pump moves. -/
  | works (a : Streaming.Act)
  /-- The client's answer to a top-up is taken. -/
  | granted (pay : JobPay) (now : ℕ)
  /-- The backend's result is billed, and the client's answer, if there was one, came in. -/
  | captured (result : JobResult) (paid : Option JobPay) (now : ℕ)
  /-- The node's other jobs write to the ledger. -/
  | elsewhere (channels : Channels)
  /-- Another job under the same id puts its own chunk there, or removes what is there. -/
  | reused (bond : Option Bond)

/-- An act of the job itself, the client's stop aside. -/
def Act.own : Act → Prop
  | .works a => a ≠ .stop
  | .granted _ _ | .captured _ _ _ => True
  | .elsewhere _ | .reused _ => False

variable (cfg : Config) (C : Crypto) (submit : JobSubmit) (price : Price) (prompt : ℕ)

def start (bond : Bond) (chs : Channels) : State where
  meter := Metering.start price prompt bond
  held := true
  channels := chs

/-- What is captured when a job ended well: nothing where nothing is billed or held. -/
def capture (s : State) (result : JobResult) (paid : Option JobPay) (now : ℕ) :
    Option (JobPay × Channels) :=
  let amount := billMicros cfg submit.payload result
  if s.held ∧ 0 < amount then
    (captureChunk cfg C s.channels submit s.meter.bond (billed s.meter.bond amount) paid now).toOption
  else none

inductive Step : Labelled State Act
  | works {s a m} : Metering.Step cfg C price prompt s.meter a m → (∀ next, a ≠ .granted next) →
      a ≠ .captured → Step s (.works a) { s with meter := m }
  | granted {s pay now bond job} : s.held = true →
      requestTopUp cfg C s.channels s.meter.bond pay now = some bond →
      Streaming.Step s.meter.job (.granted (price.authorizedTokens bond.delta prompt)) job →
      Step s (.granted pay now) { s with meter := { s.meter with job, bond } }
  | captured {s result paid now job} : Streaming.Step s.meter.job .captured job →
      Step s (.captured result paid now)
        { meter := { s.meter with job }
          held := false
          channels := (capture cfg C submit s result paid now).elim s.channels Prod.snd }
  | elsewhere {s chs} : Step s (.elsewhere chs) { s with channels := chs }
  | reused {s bond} : Step s (.reused bond)
      { s with
        held := bond.isSome
        meter := { s.meter with bond := bond.getD s.meter.bond } }

/-- The ledger takes a ticket for this much. -/
def Takes (s : State) (pay : JobPay) (amount : Micros) (now : ℕ) : Prop :=
  ∃ chs, bankPay cfg C s.channels submit pay amount s.meter.bond.appKey now = .ok chs

/-- The act banks the client's answer for the bill, or the chunk for all it is worth. -/
def PaysFor (s : State) : Act → Prop
  | .captured result paid now => ∃ pay chs,
      capture cfg C submit s result paid now = some (pay, chs) ∧
        ((paid = some pay ∧ Takes cfg C submit s pay
            (billed s.meter.bond (billMicros cfg submit.payload result)) now) ∨
          (pay = s.meter.bond.pay ∧ Takes cfg C submit s pay s.meter.bond.delta now))
  | _ => False

/-- Once a token is out, the job comes to an end, and it ends paid for. -/
def EndsPaid (step : Labelled State Act) (s : State) : Prop :=
  0 < s.meter.shown → s.meter.job.pump ≠ .finished →
    (∃ a s', Step cfg C submit price prompt s a s' ∧ a.own) ∧
    ∀ a s', step s a s' → s'.meter.job.pump = .finished → PaysFor cfg C submit s a

def NoFreeWork (step : Labelled State Act) (start : State) : Prop :=
  ∀ s, Runs step start s → EndsPaid cfg C submit price prompt step s

/-- No token waits to be shown. -/
def Silent (job : Streaming.State) : Prop :=
  match job.forwarder, job.reply with
  | .done, _ | .waiting _, .dropped => True
  | .checking d, _ | .waiting d, _ => d + job.deltas.sum = 0
  | _, _ => job.deltas.sum = 0

/-- The job is stopped, or given up by its backend, only while nothing is shown or waits to be; it
ends well only when the forwarder can finish without the pump; its top-ups name it; and it is billed
while the ledger takes its chunk or the client's answer. -/
def EndsInOrder (s : State) : Act → Prop
  | .works .stop | .works (.ready .failed) => s.meter.shown = 0 ∧ Silent s.meter.job
  | .works (.ready _) => s.meter.job.Covered
  | .granted pay _ => Named cfg submit pay
  | .captured result paid now => 0 < billMicros cfg submit.payload result ∧
      (Room C s.channels s.meter.bond.pay.ticket s.meter.bond.delta now ∨ ∃ pay, paid = some pay ∧ Takes cfg C submit s pay
        (billed s.meter.bond (billMicros cfg submit.payload result)) now)
  | .reused _ => False
  | _ => True

section Silence

variable {job job' : Streaming.State} {a : Streaming.Act}

/-- What is silent when the loop is left stays silent, and shows nothing. -/
theorem Silent.step (hs : Silent job) (h : Streaming.Step job a job')
    (hleft : job.pump.feeds = false) : Silent job' ∧ Metering.shows job a = 0 := by
  cases h with
  | stop hp | takeNeed hp | needClosed hp | poll hp | emitProgress hp | emitDelta _ hp | pending hp
  | ready hp | granted _ hp | refused hp => simp [hp, Pump.feeds] at hleft
  | joined | captured | recvProgress => exact ⟨hs, rfl⟩
  | closed hf | progressEnd hf | ask hf =>
    simp only [Silent, hf] at hs
    exact ⟨hs, rfl⟩
  | abandoned => exact ⟨trivial, rfl⟩
  | deltasEnd => exact ⟨trivial, rfl⟩
  | recvDelta hf hd =>
    simp only [Silent, hf, hd, List.sum_cons] at hs
    exact ⟨hs, by simp [Metering.shows, hf]⟩
  | show_ hf =>
    simp only [Silent, hf] at hs
    exact ⟨Nat.eq_zero_of_add_eq_zero_left hs, by
      simpa [Metering.shows, hf] using Nat.eq_zero_of_add_eq_zero_right hs⟩
  | answered hf hr =>
    simp only [Silent, hf, hr] at hs
    exact ⟨hs, rfl⟩
  | drainDelta hf hd =>
    simp only [Silent, hf, hd, List.sum_cons] at hs ⊢
    exact ⟨Nat.eq_zero_of_add_eq_zero_left hs, by
      simpa [Metering.shows, hf, hd] using Nat.eq_zero_of_add_eq_zero_right hs⟩

/-- A job ends by its capture, or after a loop that did not end well. -/
theorem pump_of_finished (h : Streaming.Step job a job') (hfinished : job'.pump = .finished)
    (hne : job.pump ≠ .finished) (ha : a ≠ .captured) :
    ∃ outcome, job.pump = .joining outcome ∧ outcome ≠ .ok := by
  cases h with
  | @joined _ outcome hp _ =>
    refine ⟨outcome, hp, ?_⟩
    rintro rfl
    cases hfinished
  | captured => exact absurd rfl ha
  | stop | takeNeed | poll | pending | ready | granted | refused => cases hfinished
  | _ => exact absurd hfinished hne

end Silence

/-- How a job that ends in order stands once it has left its loop. -/
def Leaves (job : Streaming.State) (shown : ℕ) : Prop :=
  match job.pump with
  | .joining .ok | .capturing => job.Covered
  | .joining _ => shown = 0 ∧ Silent job
  | _ => True

section Leaving

variable {job job' : Streaming.State} {a : Streaming.Act} {shown : ℕ}

/-- The forwarder alone. -/
theorem Leaves.same (hl : Leaves job shown) (h : Streaming.Step job a job') (hs : job.Sound)
    (hpump : job'.pump = job.pump) : Leaves job' (shown + Metering.shows job a) := by
  have hsilent (hleft : job.pump.feeds = false) (hl : shown = 0 ∧ Silent job) :
      shown + Metering.shows job a = 0 ∧ Silent job' := by
    obtain ⟨hstays, hnone⟩ := hl.2.step h hleft
    rw [hl.1, hnone]
    exact ⟨rfl, hstays⟩
  unfold Leaves at hl ⊢
  rw [hpump]
  cases hp : job.pump with
  | joining outcome =>
    have hleft : job.pump.feeds = false := by simp [hp, Pump.feeds]
    rw [hp] at hl
    cases outcome with
    | ok => exact h.covered hs hleft hl
    | failed => exact hsilent hleft hl
    | stopped => exact hsilent hleft hl
  | capturing =>
    rw [hp] at hl
    exact h.covered hs (by simp [hp, Pump.feeds]) hl
  | selecting | polling | toppingUp | finished => trivial

/-- The job is left in order: silent, or covered. -/
def LeftInOrder (job : Streaming.State) (shown : ℕ) : Streaming.Act → Prop
  | .stop | .ready .failed => shown = 0 ∧ Silent job
  | .ready _ => job.Covered
  | _ => True

theorem Leaves.step (hl : Leaves job shown) (h : Streaming.Step job a job') (hs : job.Sound)
    (hC : LeftInOrder job shown a) : Leaves job' (shown + Metering.shows job a) := by
  have hsame := hl.same h hs
  cases h with
  | stop => exact hC
  | @ready _ outcome _ hne =>
    cases outcome with
    | ok => exact hC
    | failed => exact hC
    | stopped => exact absurd rfl hne
  | @joined _ outcome hp hf =>
    cases outcome with
    | ok =>
      simp only [Leaves, hp] at hl
      exact hl
    | failed | stopped => trivial
  | takeNeed | poll | pending | granted | refused | captured => trivial
  | _ => exact hsame rfl

end Leaving

structure State.InOrder (s : State) : Prop where
  sound : s.meter.job.Sound
  held : s.meter.job.pump ≠ .finished → s.held = true
  vouched : Vouched cfg C submit s.meter.bond.pay s.meter.bond.appKey
  leaves : Leaves s.meter.job s.meter.shown

section Steps

variable {cfg} {C} {submit} {price} {prompt} {s s' : State} {a : Act}

/-- The job's own moves are those of its streaming. -/
theorem Step.streams (h : Step cfg C submit price prompt s a s') :
    s'.meter.job = s.meter.job ∨ ∃ act, Streaming.Step s.meter.job act s'.meter.job ∧
      s'.meter.shown = s.meter.shown + Metering.shows s.meter.job act := by
  cases h with
  | works hworks _ _ => exact .inr ⟨_, hworks.acts, hworks.shows⟩
  | granted _ _ hacts => exact .inr ⟨_, hacts, rfl⟩
  | captured hacts => exact .inr ⟨_, hacts, rfl⟩
  | elsewhere | reused => exact .inl rfl

theorem Step.sound (h : Step cfg C submit price prompt s a s') (hs : s.meter.job.Sound) :
    s'.meter.job.Sound := by
  rcases h.streams with hsame | ⟨act, hacts, -⟩
  · rwa [hsame]
  · exact hacts.sound hs

theorem finished_stays {job job' : Streaming.State} {act : Streaming.Act}
    (h : Streaming.Step job act job') (hp : job.pump = .finished) : job'.pump = .finished := by
  cases h with
  | recvProgress | recvDelta | closed | ask | show_ | answered | abandoned | progressEnd | drainDelta
  | deltasEnd => exact hp
  | _ => simp_all

theorem Step.held (hC : EndsInOrder cfg C submit s a) (h : Step cfg C submit price prompt s a s')
    (hs : s.meter.job.pump ≠ .finished → s.held = true) :
    s'.meter.job.pump ≠ .finished → s'.held = true := by
  cases h with
  | works hworks _ _ => exact fun hne => hs fun hp => hne (finished_stays hworks.acts hp)
  | granted hheld _ _ => exact fun _ => hheld
  | captured hacts =>
    intro hne
    cases hacts with
    | captured _ => exact absurd rfl hne
  | elsewhere => exact hs
  | reused => exact hC.elim

theorem Step.vouched (hC : EndsInOrder cfg C submit s a) (h : Step cfg C submit price prompt s a s')
    (hs : Vouched cfg C submit s.meter.bond.pay s.meter.bond.appKey) :
    Vouched cfg C submit s'.meter.bond.pay s'.meter.bond.appKey := by
  cases h with
  | works hworks hne _ =>
    rw [hworks.raises.same hne]
    exact hs
  | granted _ hraise _ => exact Vouched.of_requestTopUp hraise hC
  | captured | elsewhere => exact hs
  | reused => exact hC.elim

theorem Step.leaves (hC : EndsInOrder cfg C submit s a) (h : Step cfg C submit price prompt s a s')
    (hs : s.meter.job.Sound) (hl : Leaves s.meter.job s.meter.shown) :
    Leaves s'.meter.job s'.meter.shown := by
  cases h with
  | @works _ act m hworks _ _ =>
    have hleft : LeftInOrder s.meter.job s.meter.shown act := by
      cases act with
      | ready outcome =>
        cases outcome <;> exact hC
      | stop => exact hC
      | _ => trivial
    rw [hworks.shows]
    exact hl.step hworks.acts hs hleft
  | granted _ _ hacts => exact hl.step hacts hs trivial
  | captured hacts => exact hl.step hacts hs trivial
  | elsewhere => exact hl
  | reused => exact hC.elim

theorem Step.inOrder (hC : EndsInOrder cfg C submit s a) (h : Step cfg C submit price prompt s a s')
    (hs : s.InOrder cfg C submit) : s'.InOrder cfg C submit where
  sound := h.sound hs.sound
  held := h.held hC hs.held
  vouched := h.vouched hC hs.vouched
  leaves := h.leaves hC hs.sound hs.leaves

/-- Out of a move of the streaming a move of the job: the client may answer a top-up or not. -/
theorem own_of_streams {act : Streaming.Act} {job : Streaming.State}
    (h : Streaming.Step s.meter.job act job) (hne : act ≠ .stop) :
    ∃ a s', Step cfg C submit price prompt s a s' ∧ a.own := by
  cases act with
  | granted next =>
    cases h with
    | granted _ hp _ =>
      have hrefused : Metering.Step cfg C price prompt s.meter .refused
          { s.meter with job := { s.meter.job with pump := .selecting, reply := .dropped } } :=
        ⟨.refused hp, .other nofun, rfl⟩
      exact ⟨_, _, .works hrefused nofun nofun, nofun⟩
  | captured => exact ⟨.captured ⟨.llm, none, {}, none, none⟩ none 0, _, .captured h, trivial⟩
  | _ =>
    exact ⟨_, { s with meter := ⟨job, _, s.meter.bond⟩ }, .works ⟨h, .other nofun, rfl⟩ nofun nofun,
      hne⟩

/-- A job that ends in order and has shown a token can go on. -/
theorem State.InOrder.moves (hs : s.InOrder cfg C submit) (hshown : 0 < s.meter.shown)
    (hne : s.meter.job.pump ≠ .finished) :
    ∃ a s', Step cfg C submit price prompt s a s' ∧ a.own := by
  have hl := hs.leaves
  have hcovered (hcov : s.meter.job.Covered) (hleft : s.meter.job.pump.feeds = false) :
      ∃ a s', Step cfg C submit price prompt s a s' ∧ a.own := by
    obtain ⟨act, job, hacts, hstop⟩ := moves_of_covered hleft hne hcov
    exact own_of_streams hacts hstop
  cases hfeeds : s.meter.job.pump.feeds with
  | true =>
    obtain ⟨act, job, hacts, hstop⟩ := moves_of_feeds hfeeds
    exact own_of_streams hacts hstop
  | false =>
    unfold Leaves at hl
    cases hp : s.meter.job.pump with
    | joining outcome =>
      rw [hp] at hl
      cases outcome with
      | ok => exact hcovered hl hfeeds
      | failed => exact absurd hl.1 hshown.ne'
      | stopped => exact absurd hl.1 hshown.ne'
    | capturing =>
      rw [hp] at hl
      exact hcovered hl hfeeds
    | finished => exact absurd hp hne
    | selecting | polling | toppingUp => simp [hp, Pump.feeds] at hfeeds

theorem State.InOrder.pays {result : JobResult} {paid : Option JobPay} {now : ℕ}
    (hs : s.InOrder cfg C submit) (hheld : s.held = true)
    (hC : EndsInOrder cfg C submit s (.captured result paid now)) :
    PaysFor cfg C submit s (.captured result paid now) := by
  obtain ⟨hamount, hgood⟩ := hC
  have hcaptured : ∃ captured, captureChunk cfg C s.channels submit s.meter.bond
      (billed s.meter.bond (billMicros cfg submit.payload result)) paid now = .ok captured := by
    rcases hgood with hgood | ⟨pay, rfl, chs, hbank⟩
    · obtain ⟨chs, hbank⟩ := bankPay_of_room hs.vouched hgood
      exact captureChunk_of_chunk hbank
    · exact ⟨_, captureChunk_of_paid hbank⟩
  obtain ⟨⟨pay, chs⟩, hcaptured⟩ := hcaptured
  refine ⟨pay, chs, ?_, ?_⟩
  · simp [capture, hheld, hamount, hcaptured, Except.toOption]
  · rcases captureChunk_ok hcaptured with ⟨rfl, hbank⟩ | ⟨rfl, hbank⟩
    · exact .inr ⟨rfl, chs, hbank⟩
    · exact .inl ⟨rfl, chs, hbank⟩

theorem State.InOrder.endsPaid (hs : s.InOrder cfg C submit) :
    EndsPaid cfg C submit price prompt
      (restrict (Step cfg C submit price prompt) (EndsInOrder cfg C submit)) s := by
  intro hshown hne
  refine ⟨hs.moves hshown hne, ?_⟩
  rintro a s' ⟨hC, h⟩ hfinished
  cases h with
  | works hworks _ hcaptured =>
    obtain ⟨outcome, hp, hok⟩ := pump_of_finished hworks.acts hfinished hne hcaptured
    have hl := hs.leaves
    simp only [Leaves, hp] at hl
    cases outcome with
    | ok => exact absurd rfl hok
    | failed => exact absurd hl.1 hshown.ne'
    | stopped => exact absurd hl.1 hshown.ne'
  | granted _ _ hacts =>
    obtain ⟨outcome, hp, -⟩ := pump_of_finished hacts hfinished hne nofun
    cases hacts with
    | granted _ htopping _ =>
      rw [htopping] at hp
      cases hp
  | captured => exact hs.pays (hs.held hne) hC
  | elsewhere => exact absurd hfinished hne
  | reused => exact hC.elim

theorem start_inOrder {bond : Bond} (chs : Channels) (hprompt : prompt < 2 ^ 64)
    (hv : Vouched cfg C submit bond.pay bond.appKey) :
    (start price prompt bond chs).InOrder cfg C submit where
  sound := start_sound true _ hprompt
  held := fun _ => rfl
  vouched := hv
  leaves := trivial

end Steps

section Admitted

variable {cfg} {C} {submit} {price} {prompt} {κ : Type} {R : Rpc κ} {chs : Channels} {bonds : Bonds}
  {now : ℤ} {k k' : κ} {a : Admission} {payout : Text} {bond : Bond}

/-- A priced job that a node let through, knowing where it is paid, is paid for once it has shown a
token, in every run in which it ends in order. -/
theorem no_free_work_of_endsInOrder (hpayout : payoutOf cfg.payoutAddress = some payout)
    (hadmitted : admitJob cfg C R chs bonds submit now k = (.ok a, k'))
    (hpriced : holdbackFor cfg submit.payload) (hheld : a.bonds submit.jobId = some bond)
    (hprompt : prompt < 2 ^ 64) :
    NoFreeWork cfg C a.submit price prompt
      (restrict (Step cfg C a.submit price prompt) (EndsInOrder cfg C a.submit))
      (start price prompt bond a.channels) := by
  intro s hrun
  have hs : s.InOrder cfg C a.submit := by
    refine hrun.invariant (P := State.InOrder cfg C a.submit) ?_ ?_
    · intro s e s' hstep hs
      exact hstep.2.inOrder hstep.1 hs
    · exact start_inOrder a.channels hprompt (admitted_vouched hpayout hadmitted hpriced hheld)
  exact hs.endsPaid

end Admitted

section Local

open LocalNode

/-- A chat let through on a thousand micros. -/
theorem no_free_work_hello : ∃ a : Admission, a.bonds 1 = some thousand ∧
    NoFreeWork config LocalChain.crypto a.submit listed 0
      (restrict (Step config LocalChain.crypto a.submit listed 0)
        (EndsInOrder config LocalChain.crypto a.submit))
      (start listed 0 thousand a.channels) := by
  obtain ⟨a, hadmitted, -, -, hheld⟩ := admit_hello (fun _ => none) 1 (by decide : 0 < 1_000)
    (lockedUp_covers 1_003_600 (by decide) (by decide))
  exact ⟨a, hheld, no_free_work_of_endsInOrder config_payout hadmitted hello_priced hheld (by decide)⟩

/-- The chat, once its streaming stands so and has shown so much. -/
def onThousand (job : Streaming.State) (shown : ℕ) : State :=
  ⟨Metering.onThousand job shown, true, ledger⟩

theorem onward {submit : JobSubmit} {s : State} {job job' : Streaming.State} {shown : ℕ}
    {act : Streaming.Act}
    (hrun : Runs (Step config LocalChain.crypto submit listed 0) s (onThousand job shown))
    (h : Streaming.Step job act job') (hgranted : ∀ next, act ≠ .granted next)
    (hcaptured : act ≠ .captured) :
    Runs (Step config LocalChain.crypto submit listed 0) s
      (onThousand job' (shown + Metering.shows job act)) :=
  hrun.tail (.works (Metering.Step.of_acts h hgranted) hgranted hcaptured)

theorem start_thousand :
    start listed 0 thousand ledger = onThousand (Streaming.start true 50 0) 0 := by
  rw [start, Metering.start_thousand, onThousand]

/-- A job that is stopped with tokens shown ends without a capture. -/
theorem not_endsPaid_of_stopped {submit : JobSubmit} {job : Streaming.State} {shown : ℕ}
    (hshown : 0 < shown) (hp : job.pump = .joining .stopped) (hf : job.forwarder = .done) :
    ¬ EndsPaid config LocalChain.crypto submit listed 0
      (Step config LocalChain.crypto submit listed 0) (onThousand job shown) := by
  intro h
  have hne : job.pump ≠ .finished := by
    rw [hp]
    nofun
  obtain ⟨-, hpays⟩ := h hshown hne
  have hjoin : Metering.Step config LocalChain.crypto listed 0
      (Metering.onThousand job shown) .joined (Metering.onThousand { job with pump := .finished }
        (shown + 0)) := .of_acts (.joined hp hf) nofun
  exact hpays _ _ (.works hjoin nofun nofun) rfl

/-- Forty tokens are shown, and the client stops the job. -/
theorem stopped_unpaid :
    ¬ NoFreeWork config LocalChain.crypto (chat 1 1_000) listed 0
      (Step config LocalChain.crypto (chat 1 1_000) listed 0)
      (start listed 0 thousand ledger) := by
  rw [start_thousand]
  intro h
  have hstart : Runs (Step config LocalChain.crypto (chat 1 1_000) listed 0)
      (onThousand (Streaming.start true 50 0) 0) (onThousand (Streaming.start true 50 0) 0) :=
    .refl _
  have hpoll := onward hstart (.poll rfl (by decide)) nofun nofun
  have hemit := onward hpoll (.emitDelta 40 rfl) nofun nofun
  have hpending := onward hemit (.pending rfl) nofun nofun
  have hmetered := onward hpending (.recvDelta rfl rfl) nofun nofun
  have hshown := onward hmetered (.show_ rfl (by decide)) nofun nofun
  have hstopped := onward hshown (.stop rfl) nofun nofun
  have hleft := onward hstopped (.closed rfl rfl (.inl rfl)) nofun nofun
  have hprogress := onward hleft (.progressEnd rfl rfl rfl) nofun nofun
  have hended := onward hprogress (.deltasEnd rfl rfl rfl) nofun nofun
  exact not_endsPaid_of_stopped (by decide) rfl rfl (h _ hended)

end Local

end Rootmode.Worker.Ending
