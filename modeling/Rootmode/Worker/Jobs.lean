import Rootmode.Lib.Slices
import Rootmode.Lib.Transition
import Rootmode.Worker.Capture

namespace Rootmode.Worker

open Lib Lib.Checked Lib.Text Lib.Transition Payments

/-- Where a job stands. -/
inductive Phase
  /-- Its earlier authorisation is banked, its chunk not yet held. -/
  | paid
  /-- Its chunk is held, its lock not yet checked. -/
  | bonded
  | running
  /-- Its bill is out.  Its chunk is no longer with the others. -/
  | invoiced (bond : Bond) (amount : Micros)
  deriving DecidableEq

structure Task where
  submit : JobSubmit
  /-- The job must be prepaid. -/
  holdback : Bool
  phase : Phase
  deriving DecidableEq

/-- A node at work: its ledger, the chunks it holds, and its jobs by number.  The chain is not part
of it: a step may find the chain as it likes. -/
structure Node where
  channels : Channels
  bonds : Bonds
  tasks : ℕ → Option Task

/-- What happens to job `i`. -/
inductive Event
  | payment (i : ℕ) (submit : JobSubmit) (now : ℤ)
  | bond (i : ℕ)
  | refuse (i : ℕ)
  /-- The job is let through, on what the chain showed of its channel if the node looked. -/
  | lock (i : ℕ) (state : Option ChannelState)
  | fail (i : ℕ)
  | topUp (i : ℕ) (pay : JobPay) (now : ℕ)
  | invoice (i : ℕ) (amount : Micros)
  | free (i : ℕ)
  | capture (i : ℕ) (paid : Option JobPay) (now : ℕ)
  deriving DecidableEq

def Event.job : Event → ℕ
  | .payment i _ _ | .bond i | .refuse i | .lock i _ | .fail i | .topUp i _ _ | .invoice i _ | .free i
  | .capture i _ _ => i

namespace Node

variable (n : Node)

def put (i : ℕ) (task : Option Task) : Node := { n with tasks := Function.update n.tasks i task }

def hold (jobId : Uuid) (bond : Option Bond) : Node :=
  { n with bonds := Function.update n.bonds jobId bond }

@[simp] theorem put_channels (i : ℕ) (task : Option Task) : (n.put i task).channels = n.channels := rfl
@[simp] theorem put_bonds (i : ℕ) (task : Option Task) : (n.put i task).bonds = n.bonds := rfl
@[simp] theorem put_tasks_self (i : ℕ) (task : Option Task) : (n.put i task).tasks i = task := by
  simp [put]
@[simp] theorem hold_channels (jobId : Uuid) (bond : Option Bond) :
    (n.hold jobId bond).channels = n.channels := rfl
@[simp] theorem hold_tasks (jobId : Uuid) (bond : Option Bond) :
    (n.hold jobId bond).tasks = n.tasks := rfl
@[simp] theorem hold_bonds_self (jobId : Uuid) (bond : Option Bond) :
    (n.hold jobId bond).bonds jobId = bond := by
  simp [hold]

@[simp] theorem put_put (i : ℕ) (task task' : Option Task) :
    (n.put i task).put i task' = n.put i task' := by
  simp [put]

@[simp] theorem hold_hold (jobId : Uuid) (bond bond' : Option Bond) :
    (n.hold jobId bond).hold jobId bond' = n.hold jobId bond' := by
  simp [hold]

theorem put_tasks_of_ne {i j : ℕ} (h : j ≠ i) (task : Option Task) :
    (n.put i task).tasks j = n.tasks j := by
  simp [put, h]

theorem hold_bonds_of_ne {jobId other : Uuid} (h : other ≠ jobId) (bond : Option Bond) :
    (n.hold jobId bond).bonds other = n.bonds other := by
  simp [hold, h]

theorem hold_bonds {n : Node} {jobId other : Uuid} {bond : Option Bond} {b : Bond}
    (h : (n.hold jobId bond).bonds other = some b) : bond = some b ∨ n.bonds other = some b := by
  by_cases hsame : other = jobId
  · subst hsame
    rw [hold_bonds_self] at h
    exact .inl h
  · rw [hold_bonds_of_ne n hsame] at h
    exact .inr h

end Node

/-- What is held for a job once it is let through. -/
def locked (bond : Option Bond) : Option ChannelState → Option Bond
  | none => bond
  | some state => bond.map (·.stash state)

variable {κ : Type} (cfg : Config) (C : Crypto) (R : Rpc κ)

/-- A job whose earlier authorisation, if it came with one, is banked. -/
def Task.start (submit : JobSubmit) : Task where
  submit
  holdback := holdbackFor cfg submit.payload
  phase := if holdbackFor cfg submit.payload then .paid else .running

/-- The same job once its chunk is held and its answer bounded. -/
def Task.clamped (task : Task) (payload : JobPayload) : Task :=
  { task with submit := { task.submit with payload }, phase := .bonded }

/-- A job passes the look at its lock, whatever was held and whatever the chain did meanwhile. -/
inductive Passes (submit : JobSubmit) : Option ChannelState → Prop
  | unpaid : payoutOf cfg.payoutAddress = none → Passes submit none
  | locked {payout : Text} {held : Bonds} {state : ChannelState} {k k' : κ} :
      payoutOf cfg.payoutAddress = some payout →
      checkLock cfg C R held submit payout k = (.ok state, k') → Passes submit (some state)

/-- The steps of the jobs of a node, in any order. -/
inductive Step (n : Node) : Event → Node → Prop
  | payment {i : ℕ} {submit : JobSubmit} {now : ℤ} {chs : Channels} :
      n.tasks i = none →
      takePayment cfg C n.channels submit (holdbackFor cfg submit.payload) now = .ok chs →
      Step n (.payment i submit now)
        { n.put i (some (Task.start cfg submit)) with channels := chs }
  | bond {i : ℕ} {task : Task} {delta already : Micros} {bonds : Bonds} {payload : JobPayload} :
      n.tasks i = some task → task.phase = .paid →
      takeBond cfg C n.channels n.bonds task.submit = .ok (delta, already, bonds) →
      clampToChunk cfg task.submit.payload delta already = .ok payload →
      Step n (.bond i)
        { n.put i (some (task.clamped payload)) with bonds }
  | refuseChunk {i : ℕ} {task : Task} {e : WorkerError} :
      n.tasks i = some task → task.phase = .paid →
      takeBond cfg C n.channels n.bonds task.submit = .error e →
      Step n (.refuse i) (n.put i none)
  | refusePrompt {i : ℕ} {task : Task} {delta already : Micros} {bonds : Bonds} {e : WorkerError} :
      n.tasks i = some task → task.phase = .paid →
      takeBond cfg C n.channels n.bonds task.submit = .ok (delta, already, bonds) →
      clampToChunk cfg task.submit.payload delta already = .error e →
      Step n (.refuse i) ((n.put i none).hold task.submit.jobId none)
  | lock {i : ℕ} {task : Task} {state : Option ChannelState} :
      n.tasks i = some task → task.phase = .bonded → Passes cfg C R task.submit state →
      Step n (.lock i state) ((n.put i (some { task with phase := .running })).hold
        task.submit.jobId (locked (n.bonds task.submit.jobId) state))
  | refuseLock {i : ℕ} {task : Task} :
      n.tasks i = some task → task.phase = .bonded →
      Step n (.refuse i) ((n.put i none).hold task.submit.jobId none)
  -- Refused by its payload, stopped, or given up by its backend: the chunk is left where it is.
  | fail {i : ℕ} {task : Task} :
      n.tasks i = some task → task.phase = .running → Step n (.fail i) (n.put i none)
  | topUp {i : ℕ} {task : Task} {pay : JobPay} {now : ℕ} {bond bond' : Bond} :
      n.tasks i = some task → task.phase = .running → pay.jobId = task.submit.jobId →
      n.bonds task.submit.jobId = some bond →
      requestTopUp cfg C n.channels bond pay now = some bond' →
      Step n (.topUp i pay now) (n.hold task.submit.jobId (some bond'))
  | invoice {i : ℕ} {task : Task} {bond : Bond} {amount : Micros} :
      n.tasks i = some task → task.phase = .running → task.holdback = true → 0 < amount →
      n.bonds task.submit.jobId = some bond →
      Step n (.invoice i amount)
        ((n.put i (some { task with phase := .invoiced bond (billed bond amount) })).hold
          task.submit.jobId none)
  | unbonded {i : ℕ} {task : Task} {amount : Micros} :
      n.tasks i = some task → task.phase = .running → task.holdback = true → 0 < amount →
      n.bonds task.submit.jobId = none →
      Step n (.invoice i amount) (n.put i none)
  -- A job that costs nothing, or that came to nothing, lets go of what is held under its id.
  | free {i : ℕ} {task : Task} :
      n.tasks i = some task → task.phase = .running →
      Step n (.free i) ((n.put i none).hold task.submit.jobId none)
  | capture {i : ℕ} {task : Task} {bond : Bond} {amount : Micros} {paid : Option JobPay} {now : ℕ}
      {pay : JobPay} {chs : Channels} :
      n.tasks i = some task → task.phase = .invoiced bond amount →
      captureChunk cfg C n.channels task.submit bond amount paid now = .ok (pay, chs) →
      Step n (.capture i paid now) { n.put i none with channels := chs }
  | unbanked {i : ℕ} {task : Task} {bond : Bond} {amount : Micros} {paid : Option JobPay} {now : ℕ}
      {e : String} :
      n.tasks i = some task → task.phase = .invoiced bond amount →
      captureChunk cfg C n.channels task.submit bond amount paid now = .error e →
      Step n (.capture i paid now) (n.put i none)

section Acts

variable {cfg} {C} {R} {n n' : Node} {e : Event}

theorem takePayment_ok {chs chs' : Channels} {submit : JobSubmit} {holdback : Bool} {now : ℤ}
    (h : takePayment cfg C chs submit holdback now = .ok chs') :
    chs' = chs ∨ ∃ auth d earned, submit.spend = some auth ∧ cfg.payments.domain = some d ∧
      chs.accept C auth d now = .ok (earned, chs') := by
  unfold takePayment at h
  split at h
  · cases h
    exact .inl rfl
  · next d auth hd hspend =>
    split at h
    · next earned chs₁ haccept =>
      cases h
      exact .inr ⟨auth, d, earned, hspend, hd, haccept⟩
    · cases h
  · split at h
    · split at h
      · cases h
        exact .inl rfl
      · cases h
    · cases h
      exact .inl rfl

/-- A step leaves the other jobs where they stand. -/
theorem Step.tasks_of_ne (h : Step cfg C R n e n') {j : ℕ} (hj : j ≠ e.job) :
    n'.tasks j = n.tasks j := by
  cases h <;> first
    | exact n.put_tasks_of_ne hj _
    | rfl

/-- A step leaves what is held under other ids. -/
theorem Step.bonds_of_ne (h : Step cfg C R n e n') {jobId : Uuid}
    (hne : ∀ task, n.tasks e.job = some task → jobId ≠ task.submit.jobId) :
    n'.bonds jobId = n.bonds jobId := by
  cases h with
  | bond htask _ htake _ =>
    obtain ⟨_, -, -, -, rfl⟩ := takeBond_eq_ok.mp htake
    exact Function.update_of_ne (hne _ htask) _ _
  | refusePrompt htask _ _ _ => exact Node.hold_bonds_of_ne _ (hne _ htask) _
  | lock htask _ _ => exact Node.hold_bonds_of_ne _ (hne _ htask) _
  | refuseLock htask _ => exact Node.hold_bonds_of_ne _ (hne _ htask) _
  | topUp htask _ _ _ _ => exact Node.hold_bonds_of_ne _ (hne _ htask) _
  | invoice htask _ _ _ _ => exact Node.hold_bonds_of_ne _ (hne _ htask) _
  | free htask _ => exact Node.hold_bonds_of_ne _ (hne _ htask) _
  | payment _ _ => rfl
  | refuseChunk _ _ _ => rfl
  | fail _ _ => rfl
  | unbonded _ _ _ _ _ => rfl
  | capture _ _ _ => rfl
  | unbanked _ _ _ => rfl

/-- The ledger is written in two places: where a legacy authorisation is taken, and where a ticket is
captured. -/
theorem Step.ledger (h : Step cfg C R n e n') : n'.channels = n.channels ∨
    (∃ i submit now auth d earned, e = .payment i submit now ∧ submit.spend = some auth ∧
      cfg.payments.domain = some d ∧ n.channels.accept C auth d now = .ok (earned, n'.channels)) ∨
    (∃ i task bond billed paid now pay amount, e = .capture i paid now ∧ n.tasks i = some task ∧
      task.phase = .invoiced bond billed ∧ (pay = bond.pay ∨ paid = some pay) ∧
      bankPay cfg C n.channels task.submit pay amount bond.appKey now = .ok n'.channels) := by
  cases h with
  | payment _ hpayment =>
    cases takePayment_ok hpayment with
    | inl hsame => exact .inl hsame
    | inr hwrites =>
      obtain ⟨auth, d, earned, hspend, hd, haccept⟩ := hwrites
      exact .inr (.inl ⟨_, _, _, auth, d, earned, rfl, hspend, hd, haccept⟩)
  | @capture i task bond billed paid now pay _ htask hphase hcapture =>
    cases captureChunk_ok hcapture with
    | inl hchunk =>
      exact .inr (.inr ⟨i, task, bond, billed, paid, now, pay, bond.delta, rfl, htask, hphase,
        .inl hchunk.1, hchunk.1 ▸ hchunk.2⟩)
    | inr hpaid =>
      exact .inr (.inr ⟨i, task, bond, billed, paid, now, pay, billed, rfl, htask, hphase,
        .inr hpaid.1, hpaid.2⟩)
  | bond _ _ _ _ => exact .inl rfl
  | refuseChunk _ _ _ => exact .inl rfl
  | refusePrompt _ _ _ _ => exact .inl rfl
  | lock _ _ _ => exact .inl rfl
  | refuseLock _ _ => exact .inl rfl
  | fail _ _ => exact .inl rfl
  | topUp _ _ _ _ _ => exact .inl rfl
  | invoice _ _ _ _ _ => exact .inl rfl
  | unbonded _ _ _ _ _ => exact .inl rfl
  | free _ _ => exact .inl rfl
  | unbanked _ _ _ => exact .inl rfl

theorem Step.contract (h : Step cfg C R n e n') : n'.channels.contract = n.channels.contract := by
  rcases h.ledger with hsame | ⟨_, _, _, _, _, _, -, -, -, haccept⟩ |
    ⟨_, _, _, _, _, _, _, _, -, -, -, -, hbank⟩
  · rw [hsame]
  · rw [(Channels.accept_eq_ok.mp haccept).2.2]
    rfl
  · rw [(bankPay_eq_ok.mp hbank).2.2]
    rfl

section Chunks

variable {P : Bond → Prop}

/-- Every chunk that is held, or billed for and not yet captured, meets `P`. -/
structure Node.Chunks (P : Bond → Prop) (n : Node) : Prop where
  held : ∀ {jobId bond}, n.bonds jobId = some bond → P bond
  invoiced : ∀ {i task bond amount}, n.tasks i = some task → task.phase = .invoiced bond amount →
    P bond

/-- What may become of a chunk: it is held, its lock is checked, it is raised. -/
structure Bond.Lasts (cfg : Config) (C : Crypto) (R : Rpc κ) (P : Bond → Prop) : Prop where
  fresh : ∀ pay delta, P ⟨pay, delta, []⟩
  stash : ∀ {bond submit state}, Passes cfg C R submit (some state) → P bond → P (bond.stash state)
  topUp : ∀ {chs bond bond' pay now}, requestTopUp cfg C chs bond pay now = some bond' → P bond →
    P bond'

theorem Node.Chunks.put (h : n.Chunks P) {i : ℕ} {task : Option Task}
    (hput : ∀ t bond amount, task = some t → t.phase = .invoiced bond amount → P bond) :
    (n.put i task).Chunks P where
  held := h.held
  invoiced := by
    intro j t bond amount ht hphase
    by_cases hj : j = i
    · subst hj
      rw [Node.put_tasks_self] at ht
      exact hput t bond amount ht hphase
    · rw [n.put_tasks_of_ne hj] at ht
      exact h.invoiced ht hphase

theorem Node.Chunks.hold (h : n.Chunks P) {jobId : Uuid} {bond : Option Bond}
    (hbond : ∀ b, bond = some b → P b) : (n.hold jobId bond).Chunks P where
  held := by
    intro other b hb
    cases Node.hold_bonds hb with
    | inl hnew => exact hbond b hnew
    | inr hold => exact h.held hold
  invoiced := h.invoiced

/-- What lasts of every chunk is met along every run of the jobs. -/
theorem Step.chunks (hP : Bond.Lasts cfg C R P) (h : Step cfg C R n e n') (hn : n.Chunks P) :
    n'.Chunks P := by
  have hgone {t : Task} {bond : Bond} {amount : Micros} (ht : none = some t)
      (_ : t.phase = .invoiced bond amount) : P bond := by cases ht
  have hdrop {b : Bond} (hb : none = some b) : P b := by cases hb
  cases h with
  | payment _ _ =>
    refine ⟨hn.held, (hn.put ?_).invoiced⟩
    intro t bond amount ht hphase
    cases ht
    unfold Task.start at hphase
    dsimp only at hphase
    split at hphase <;> cases hphase
  | @bond i task delta already bonds payload htask _ htake _ =>
    obtain ⟨pay, -, -, -, hbonds⟩ := takeBond_eq_ok.mp htake
    have hput : (n.put i (some (task.clamped payload))).Chunks P := by
      refine hn.put ?_
      intro t bond amount ht hphase
      cases ht
      cases hphase
    refine ⟨?_, hput.invoiced⟩
    intro jobId bond hbond
    rw [hbonds] at hbond
    have hheld : (n.hold task.submit.jobId (some ⟨pay, pay.rise C n.channels, []⟩)).Chunks P := by
      refine hn.hold ?_
      intro b hb
      cases hb
      exact hP.fresh _ _
    exact hheld.held hbond
  | refuseChunk _ _ _ => exact hn.put fun _ _ _ => hgone
  | refusePrompt _ _ _ _ => exact (hn.put fun _ _ _ => hgone).hold fun _ => hdrop
  | @lock i task state htask _ hpasses =>
    refine (hn.put ?_).hold ?_
    · intro t bond amount ht hphase
      cases ht
      cases hphase
    · intro b hb
      cases hheld : n.bonds task.submit.jobId with
      | none =>
        rw [hheld] at hb
        cases state <;> cases hb
      | some bond =>
        rw [hheld] at hb
        cases state with
        | none =>
          cases hb
          exact hn.held hheld
        | some state =>
          cases hb
          exact hP.stash hpasses (hn.held hheld)
  | refuseLock _ _ => exact (hn.put fun _ _ _ => hgone).hold fun _ => hdrop
  | fail _ _ => exact hn.put fun _ _ _ => hgone
  | topUp _ _ _ hbond htop =>
    refine hn.hold ?_
    intro b hb
    cases hb
    exact hP.topUp htop (hn.held hbond)
  | invoice _ _ _ _ hbond =>
    refine (hn.put ?_).hold fun _ => hdrop
    intro t bond amount ht hphase
    cases ht
    cases hphase
    exact hn.held hbond
  | unbonded _ _ _ _ _ => exact hn.put fun _ _ _ => hgone
  | free _ _ => exact (hn.put fun _ _ _ => hgone).hold fun _ => hdrop
  | @capture i _ _ _ _ _ _ _ _ _ _ =>
    have hput : (n.put i none).Chunks P := hn.put fun _ _ _ => hgone
    exact ⟨hput.held, hput.invoiced⟩
  | unbanked _ _ _ => exact hn.put fun _ _ _ => hgone

end Chunks

end Acts

end Rootmode.Worker
