import Rootmode.Lib.Owners
import Rootmode.Lib.Transition
import Rootmode.Worker.Admission

namespace Rootmode.Worker.Registries

open Function Lib.Owners Lib.Transition

/-- Where a job stands in `handle_submit_cancellable`. -/
inductive Stage
  /-- Its signature, its payment and its chunk are looked at. -/
  | checking
  /-- Its chunk is held; the chunk's ceiling and the lock are looked at. -/
  | bonded
  /-- Its payload is looked at, and a backend looked for. -/
  | admitted
  | queued
  | running
  | toppingUp
  | capturing
  deriving DecidableEq

structure Job where
  id : Uuid
  stage : Stage
  deriving DecidableEq

/-- The jobs in flight by number, and the registries by job id.  An entry is told by the job that put
it there. -/
structure State where
  jobs : ℕ → Option Job
  cancellations : Table Uuid ℕ
  pendingBonds : Table Uuid ℕ
  pendingPays : Table Uuid ℕ

def empty : State where
  jobs _ := none
  cancellations _ := none
  pendingBonds _ := none
  pendingPays _ := none

inductive Move
  | refuse | takeBond | unpriced
  /-- The prompt costs more than the chunk, or the lock does not hold. -/
  | refuseChunk
  | lock
  /-- The payload is not valid, or screened out, or no backend takes it. -/
  | refusePayload
  | queue | stopQueued | run
  | askTopUp
  /-- A stop, or no answer in time. -/
  | giveUpTopUp
  | endTopUp
  /-- A stop, or a backend that failed. -/
  | fail
  /-- A job that ended well, with nothing to capture. -/
  | free
  | billNothing | bill
  /-- No answer in time. -/
  | expire
  | answered
  deriving DecidableEq

inductive Act
  /-- `on_line` registers job `i` and spawns it. -/
  | submit (i : ℕ) (id : Uuid)
  | turn (i : ℕ) (move : Move)
  /-- `on_line` hands a ticket to whoever waits for one under the id. -/
  | pay (id : Uuid)
  deriving DecidableEq

/-- How job `i` goes on from a stage, if it does, and what becomes of the chunks held and of the
waits for a ticket. -/
inductive Turn (i : ℕ) (id : Uuid) (bonds pays : Table Uuid ℕ) :
    Stage → Move → Option Stage → Table Uuid ℕ → Table Uuid ℕ → Prop
  | refuse : Turn i id bonds pays .checking .refuse none bonds pays
  | takeBond : Turn i id bonds pays .checking .takeBond (some .bonded) (put bonds id i) pays
  | unpriced : Turn i id bonds pays .checking .unpriced (some .admitted) bonds pays
  | refuseChunk : Turn i id bonds pays .bonded .refuseChunk none (drop bonds id) pays
  | lock : Turn i id bonds pays .bonded .lock (some .admitted) bonds pays
  | refusePayload : Turn i id bonds pays .admitted .refusePayload none bonds pays
  | queue : Turn i id bonds pays .admitted .queue (some .queued) bonds pays
  | stopQueued : Turn i id bonds pays .queued .stopQueued none bonds pays
  | run : Turn i id bonds pays .queued .run (some .running) bonds pays
  | askTopUp : Turn i id bonds pays .running .askTopUp (some .toppingUp) bonds (put pays id i)
  | giveUpTopUp : Turn i id bonds pays .toppingUp .giveUpTopUp (some .running) bonds (drop pays id)
  -- its own entry was taken out by the answer, or by a job that put another in its place
  | endTopUp : pays id ≠ some i →
      Turn i id bonds pays .toppingUp .endTopUp (some .running) bonds pays
  | fail : Turn i id bonds pays .running .fail none bonds pays
  | free : Turn i id bonds pays .running .free none (drop bonds id) pays
  | billNothing : bonds id = none → Turn i id bonds pays .running .billNothing none bonds pays
  | bill : bonds id ≠ none →
      Turn i id bonds pays .running .bill (some .capturing) (drop bonds id) (put pays id i)
  | expire : Turn i id bonds pays .capturing .expire none bonds (drop pays id)
  | answered : pays id ≠ some i → Turn i id bonds pays .capturing .answered none bonds pays

/-- A job that goes on is where it went; one that ends forgets its cancellation. -/
def State.goesOn (s : State) (i : ℕ) (job : Job) (next : Option Stage)
    (bonds pays : Table Uuid ℕ) : State where
  jobs := update s.jobs i (next.map fun stage => { job with stage })
  cancellations := if next = none then drop s.cancellations job.id else s.cancellations
  pendingBonds := bonds
  pendingPays := pays

inductive Step : Labelled State Act
  | submit {s i id} : s.jobs i = none →
      Step s (.submit i id)
        { s with
          jobs := update s.jobs i (some ⟨id, .checking⟩)
          cancellations := put s.cancellations id i }
  | turn {s i job move next bonds pays} : s.jobs i = some job →
      Turn i job.id s.pendingBonds s.pendingPays job.stage move next bonds pays →
      Step s (.turn i move) (s.goesOn i job next bonds pays)
  | pay {s id} : Step s (.pay id) { s with pendingPays := drop s.pendingPays id }

/-- Job `i` is in flight under this id. -/
def State.InFlight (s : State) (id : Uuid) (i : ℕ) : Prop :=
  ∃ job, s.jobs i = some job ∧ job.id = id

structure State.Exact (s : State) : Prop where
  cancellations : Owned s.cancellations s.InFlight
  pendingBonds : Owned s.pendingBonds s.InFlight
  pendingPays : Owned s.pendingPays s.InFlight

/-- What a job does leaves the entries of the others. -/
def Spared (s : State) (a : Act) (s' : State) : Prop :=
  match a with
  | .submit i _ | .turn i _ => Spares i s.cancellations s'.cancellations ∧
      Spares i s.pendingBonds s'.pendingBonds ∧ Spares i s.pendingPays s'.pendingPays
  | .pay _ => True

/-- A submit brings an id of its own, and a job that holds a chunk ends where the chunk is let go. -/
def LetsGo (s : State) : Act → Prop
  | .submit _ id => ∀ j job, s.jobs j = some job → job.id ≠ id
  | .turn i .refusePayload | .turn i .stopQueued | .turn i .fail =>
    ∀ job, s.jobs i = some job → s.pendingBonds job.id ≠ some i
  | _ => True

/-- The stages in which a job may have a chunk held. -/
def Stage.Holds : Stage → Prop
  | .checking | .capturing => False
  | _ => True

/-- The stages in which a job waits for a ticket. -/
def Stage.Waits : Stage → Prop
  | .toppingUp | .capturing => True
  | _ => False

/-- Job `i` is in flight under this id, in such a stage. -/
def State.At (s : State) (S : Stage → Prop) (id : Uuid) (i : ℕ) : Prop :=
  ∃ job, s.jobs i = some job ∧ job.id = id ∧ S job.stage

structure State.Kept (s : State) : Prop where
  cancellations : Owned s.cancellations (s.At fun _ => True)
  pendingBonds : Owned s.pendingBonds (s.At Stage.Holds)
  pendingPays : Owned s.pendingPays (s.At Stage.Waits)
  distinct : ∀ i j job job', s.jobs i = some job → s.jobs j = some job' → job.id = job'.id → i = j

section Turns

variable {s : State} {i : ℕ} {id : Uuid} {job : Job} {bonds pays bonds' pays' m m' : Table Uuid ℕ}
  {stage : Stage} {move : Move} {next : Option Stage} {S : Stage → Prop}

theorem Turn.only (h : Turn i id bonds pays stage move next bonds' pays') :
    Only id i bonds bonds' ∧ Only id i pays pays' := by
  cases h with
  | takeBond => exact ⟨.put, .refl⟩
  | refuseChunk | free => exact ⟨.drop, .refl⟩
  | askTopUp => exact ⟨.refl, .put⟩
  | giveUpTopUp | expire => exact ⟨.refl, .drop⟩
  | bill => exact ⟨.drop, .put⟩
  | _ => exact ⟨.refl, .refl⟩

/-- Where an id is the job's alone, a turn leaves the entries of the others. -/
theorem Turn.spares (h : Turn i id bonds pays stage move next bonds' pays')
    (hbonds : ∀ j, bonds id = some j → j = i) (hpays : ∀ j, pays id = some j → j = i) :
    Spares i bonds bonds' ∧ Spares i pays pays' := by
  cases h with
  | takeBond => exact ⟨.put hbonds, .refl i _⟩
  | refuseChunk | free => exact ⟨.drop hbonds, .refl i _⟩
  | askTopUp => exact ⟨.refl i _, .put hpays⟩
  | giveUpTopUp | expire => exact ⟨.refl i _, .drop hpays⟩
  | bill => exact ⟨.drop hbonds, .put hpays⟩
  | _ => exact ⟨.refl i _, .refl i _⟩

/-- A job whose chunk is held goes on to where it may be. -/
theorem Turn.holds (h : Turn i id bonds pays stage move next bonds' pays')
    (hbefore : bonds id = some i → stage.Holds)
    (hlets : move = .refusePayload ∨ move = .stopQueued ∨ move = .fail → bonds id ≠ some i)
    (hheld : bonds' id = some i) : ∃ stage, next = some stage ∧ stage.Holds := by
  cases h with
  | refuse | unpriced | expire | answered => exact (hbefore hheld).elim
  | takeBond | lock | queue | run | askTopUp | giveUpTopUp | endTopUp => exact ⟨_, rfl, trivial⟩
  | refuseChunk | free | bill => simp at hheld
  | refusePayload | stopQueued | fail => exact absurd hheld (hlets (by simp))
  | billNothing hnone => simp [hnone] at hheld

/-- A job that has a wait of its own is where it waits. -/
theorem Turn.waits (h : Turn i id bonds pays stage move next bonds' pays')
    (hbefore : pays id = some i → stage.Waits) (hwaits : pays' id = some i) :
    ∃ stage, next = some stage ∧ stage.Waits := by
  cases h with
  | askTopUp | bill => exact ⟨_, rfl, trivial⟩
  | giveUpTopUp | expire => simp at hwaits
  | endTopUp hgone | answered hgone => exact absurd hwaits hgone
  | _ => exact (hbefore hwaits).elim

/-- What the entries tell of the jobs they still tell when job `i` has gone on. -/
theorem owned_goesOn (hs : Owned m (s.At S)) (hjob : s.jobs i = some job)
    (honly : Only job.id i m m')
    (hself : m' job.id = some i → ∃ stage, next = some stage ∧ S stage) :
    Owned m' ((s.goesOn i job next bonds pays).At S) := by
  intro l j hl
  by_cases hji : j = i
  · subst hji
    have hid : l = job.id := by
      rcases honly l j hl with hold | ⟨hid, -⟩
      · obtain ⟨job', hjob', hid, -⟩ := hs l j hold
        cases hjob.symm.trans hjob'
        exact hid.symm
      · exact hid
    subst hid
    obtain ⟨stage, hnext, hstage⟩ := hself hl
    exact ⟨{ job with stage }, by simp [State.goesOn, hnext], rfl, hstage⟩
  · rcases honly l j hl with hold | ⟨-, hj⟩
    · obtain ⟨job', hjob', hid, hstage⟩ := hs l j hold
      exact ⟨job', by simp [State.goesOn, hji, hjob'], hid, hstage⟩
    · exact absurd hj hji

end Turns

section Steps

variable {s s' : State} {a : Act}

/-- What is under a job's id is the job's. -/
theorem State.Kept.own (hs : s.Kept) {m : Table Uuid ℕ} {S : Stage → Prop} (hm : Owned m (s.At S))
    {i j : ℕ} {job : Job} (hjob : s.jobs i = some job) (h : m job.id = some j) : j = i := by
  obtain ⟨job', hjob', hid, -⟩ := hm _ j h
  exact hs.distinct j i job' job hjob' hjob hid

theorem State.At.submitted {S : Stage → Prop} {i : ℕ} {id : Uuid} {l : Uuid} {j : ℕ}
    (h : s.At S l j) (hfree : s.jobs i = none) (cancellations : Table Uuid ℕ) :
    State.At { s with jobs := update s.jobs i (some ⟨id, .checking⟩), cancellations } S l j := by
  obtain ⟨job, hjob, hid, hstage⟩ := h
  have hne : j ≠ i := by
    rintro rfl
    simp [hfree] at hjob
  exact ⟨job, by simp [hne, hjob], hid, hstage⟩

theorem State.Kept.submit {i : ℕ} {id : Uuid} (hs : s.Kept) (hfree : s.jobs i = none)
    (hfresh : ∀ j job, s.jobs j = some job → job.id ≠ id) :
    State.Kept { s with
      jobs := update s.jobs i (some ⟨id, .checking⟩)
      cancellations := put s.cancellations id i } where
  cancellations :=
    hs.cancellations.put (fun _ _ _ h => h.submitted hfree _) ⟨⟨id, .checking⟩, by simp, rfl, trivial⟩
  pendingBonds := hs.pendingBonds.mono fun _ _ h => h.submitted hfree _
  pendingPays := hs.pendingPays.mono fun _ _ h => h.submitted hfree _
  distinct := by
    intro k l job job' hk hl hid
    by_cases hki : k = i
    · by_cases hli : l = i
      · rw [hki, hli]
      · simp only [hki, update_self, Option.some.injEq] at hk
        simp only [update_of_ne hli] at hl
        subst hk
        exact absurd hid.symm (hfresh l job' hl)
    · simp only [update_of_ne hki] at hk
      by_cases hli : l = i
      · simp only [hli, update_self, Option.some.injEq] at hl
        subst hl
        exact absurd hid (hfresh k job hk)
      · simp only [update_of_ne hli] at hl
        exact hs.distinct k l job job' hk hl hid

/-- A job that goes on does so under its own id. -/
theorem goesOn_jobs {i j : ℕ} {job job' : Job} {next : Option Stage} {bonds pays : Table Uuid ℕ}
    (hjob : s.jobs i = some job) (h : (s.goesOn i job next bonds pays).jobs j = some job') :
    ∃ before, s.jobs j = some before ∧ before.id = job'.id := by
  by_cases hji : j = i
  · subst hji
    simp only [State.goesOn, update_self, Option.map_eq_some_iff] at h
    obtain ⟨stage, -, rfl⟩ := h
    exact ⟨job, hjob, rfl⟩
  · simp only [State.goesOn, update_of_ne hji] at h
    exact ⟨job', h, rfl⟩

theorem State.Kept.turn {i : ℕ} {job : Job} {move : Move} {next : Option Stage}
    {bonds pays : Table Uuid ℕ} (hs : s.Kept) (hjob : s.jobs i = some job)
    (hC : LetsGo s (.turn i move))
    (hturn : Turn i job.id s.pendingBonds s.pendingPays job.stage move next bonds pays) :
    (s.goesOn i job next bonds pays).Kept where
  cancellations := by
    apply owned_goesOn hs.cancellations hjob
    · unfold State.goesOn
      dsimp only
      split
      · exact .drop
      · exact .refl
    · intro hself
      cases next with
      | none => simp [State.goesOn] at hself
      | some stage => exact ⟨stage, rfl, trivial⟩
  pendingBonds := by
    apply owned_goesOn hs.pendingBonds hjob hturn.only.1
    apply hturn.holds
    · intro hheld
      obtain ⟨job', hjob', -, hstage⟩ := hs.pendingBonds _ _ hheld
      cases hjob.symm.trans hjob'
      exact hstage
    · rintro (rfl | rfl | rfl)
      · exact hC job hjob
      · exact hC job hjob
      · exact hC job hjob
  pendingPays := by
    apply owned_goesOn hs.pendingPays hjob hturn.only.2
    apply hturn.waits
    intro hwaits
    obtain ⟨job', hjob', -, hstage⟩ := hs.pendingPays _ _ hwaits
    cases hjob.symm.trans hjob'
    exact hstage
  distinct := by
    intro k l job₁ job₂ hk hl hid
    obtain ⟨before₁, hk, hid₁⟩ := goesOn_jobs hjob hk
    obtain ⟨before₂, hl, hid₂⟩ := goesOn_jobs hjob hl
    exact hs.distinct k l before₁ before₂ hk hl (hid₁.trans (hid.trans hid₂.symm))

theorem Step.kept (hC : LetsGo s a) (h : Step s a s') (hs : s.Kept) : s'.Kept := by
  cases h with
  | submit hfree => exact hs.submit hfree hC
  | turn hjob hturn => exact hs.turn hjob hC hturn
  | pay => exact { hs with pendingPays := hs.pendingPays.drop fun _ _ _ h => h }

theorem Step.spared (hC : LetsGo s a) (h : Step s a s') (hs : s.Kept) : Spared s a s' := by
  cases h with
  | @submit _ i id hfree =>
    refine ⟨.put ?_, .refl i _, .refl i _⟩
    intro j hentry
    obtain ⟨job, hjob, hid, -⟩ := hs.cancellations _ j hentry
    exact absurd hid (hC j job hjob)
  | @turn _ i job move next bonds pays hjob hturn =>
    refine ⟨?_, hturn.spares (fun j => hs.own hs.pendingBonds hjob)
      (fun j => hs.own hs.pendingPays hjob)⟩
    unfold State.goesOn
    dsimp only
    split
    · exact .drop fun j => hs.own hs.cancellations hjob
    · exact .refl i _
  | pay => trivial

theorem State.Kept.exact (hs : s.Kept) : s.Exact := by
  have hflight {S : Stage → Prop} : ∀ id i, s.At S id i → s.InFlight id i := by
    rintro id i ⟨job, hjob, hid, -⟩
    exact ⟨job, hjob, hid⟩
  exact ⟨hs.cancellations.mono hflight, hs.pendingBonds.mono hflight, hs.pendingPays.mono hflight⟩

/-- While submits bring ids of their own and chunks are let go, the registries hold the entries of
the jobs in flight alone, and a job leaves those of the others. -/
theorem registries_exact_of_letsGo (hrun : Runs (restrict Step LetsGo) empty s) :
    s.Exact ∧ ∀ a s', LetsGo s a → Step s a s' → Spared s a s' := by
  have hs : s.Kept := by
    apply hrun.invariant (P := State.Kept) ?_ ⟨nofun, nofun, nofun, nofun⟩
    intro s a s' ⟨hC, hstep⟩ hs
    exact hstep.kept hC hs
  exact ⟨hs.exact, fun a s' hC hstep => hstep.spared hC hs⟩

end Steps

section Local

/-- Job 0, while it is looked at. -/
def submitted : State :=
  { empty with
    jobs := update empty.jobs 0 (some ⟨7, .checking⟩)
    cancellations := put empty.cancellations 7 0 }

/-- Job 0, with its chunk held. -/
def bonded : State :=
  submitted.goesOn 0 ⟨7, .checking⟩ (some .bonded) (put submitted.pendingBonds 7 0)
    submitted.pendingPays

theorem submitted_runs : Runs (restrict Step LetsGo) empty submitted := by
  apply Runs.single (a := .submit 0 7)
  constructor
  · intro j job hjob
    cases hjob
  · exact .submit rfl

theorem bonded_runs : Runs (restrict Step LetsGo) empty bonded := by
  apply submitted_runs.tail (a := .turn 0 .takeBond)
  constructor
  · trivial
  · exact @Step.turn _ 0 ⟨7, .checking⟩ _ _ _ _ rfl .takeBond

theorem registries_exact_bonded :
    bonded.Exact ∧ ∀ a s', LetsGo bonded a → Step bonded a s' → Spared bonded a s' :=
  registries_exact_of_letsGo bonded_runs

/-- A priced job that is stopped in the queue leaves its chunk behind, and a submit under the id of a
job in flight takes the place of its cancellation. -/
theorem stopped_leaves_chunk :
    ¬ (∀ s, Runs Step empty s → s.Exact) ∧
    ¬ (∀ s a s', Runs Step empty s → Step s a s' → Spared s a s') := by
  constructor
  · intro h
    have hbonded : Runs Step empty bonded := bonded_runs.of_restrict
    have hadmitted := hbonded.tail (@Step.turn _ 0 ⟨7, .bonded⟩ _ _ _ _ rfl .lock)
    have hqueued := hadmitted.tail (@Step.turn _ 0 ⟨7, .admitted⟩ _ _ _ _ rfl .queue)
    have hstopped := hqueued.tail (@Step.turn _ 0 ⟨7, .queued⟩ _ _ _ _ rfl .stopQueued)
    obtain ⟨job, hjob, -⟩ := (h _ hstopped).pendingBonds 7 0 rfl
    cases hjob
  · intro h
    have hspared := h submitted _ _ submitted_runs.of_restrict (@Step.submit _ 1 7 rfl)
    have hkept := hspared.1 7 0 (by decide) rfl
    cases hkept

end Local

end Rootmode.Worker.Registries
