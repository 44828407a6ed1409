import Rootmode.Desktop.Attempt

namespace Rootmode.Desktop

open Lib Lib.Text Lib.Transition Payments Worker

/-- How far a message got: nothing of it was written down, or a result, its status too, its reply too,
or all went through. -/
inductive Stored
  | nothing | result | status | reply | all
  deriving DecidableEq

/-- A job as the desktop stores it: its row, the hash of its result, and the hashes of the replies that
were filed for it, newest first. -/
structure JobRow where
  status : JobStatus := .queued
  error : Option Text := none
  inConversation : Bool
  result : Option Text := none
  replies : List Text := []
  deriving DecidableEq

namespace JobRow

variable (row : JobRow)

def updateJobStatus (status : JobStatus) (error : Option Text) : JobRow :=
  { row with status, error := error.or row.error }

/-- Back to queued, for another provider. -/
def reassignJob : JobRow := { row with status := .queued, error := none }

def insertResult (sha256 : Text) : JobRow := { row with result := some sha256 }

/-- The reply goes into the conversation that asked for it. -/
def fileReply (sha256 : Text) : JobRow :=
  if row.inConversation then { row with replies := sha256 :: row.replies } else row

end JobRow

variable (id : Uuid)

/-- A result passes the hash its invoice was paid for. -/
def HashMatches (expected : Option Text) (r : ResultMessage) : Prop :=
  ∀ sha256 ∈ expected, sha256 = [] ∨ eqIgnoreAsciiCase sha256 r.sha256

instance (expected : Option Text) (r : ResultMessage) : Decidable (HashMatches expected r) :=
  match expected with
  | none => isTrue (by intro sha256 h; cases h)
  | some sha256 => decidable_of_iff (sha256 = [] ∨ eqIgnoreAsciiCase sha256 r.sha256)
      (by simp [HashMatches])

/-- Persist one worker message, as far as it gets. -/
def JobRow.applyMessage (row : JobRow) (expected : Option Text) (far : Stored) :
    WorkerMessage → JobRow
  | .jobStatus jobId status error =>
    if jobId = id ∧ far = .all then row.updateJobStatus status error else row
  | .jobResult r =>
    if r.jobId = id ∧ HashMatches expected r then
      match far with
      | .nothing => row
      | .result => row.insertResult r.sha256
      | .status => (row.insertResult r.sha256).updateJobStatus .done none
      | .reply | .all =>
        ((row.insertResult r.sha256).updateJobStatus .done none).fileReply r.sha256
    else row
  | .jobDelta _ _ _ | .jobInvoice _ | .peerAnnounce | .unknown => row

/-- A message that ends a provider's try before anything reached the user.  It is not persisted. -/
def WorkerMessage.givesNothing (spoke : Bool) : WorkerMessage → Bool
  | .jobStatus jobId status _ => jobId = id && status = .failed && !spoke
  | .jobResult r => r.jobId = id && !spoke && r.saysNothing
  | .jobDelta _ _ _ | .jobInvoice _ | .peerAnnounce | .unknown => false

/-- What a message leaves of the job's row. -/
def JobRow.onMessage (row : JobRow) (expected : Option Text) (spoke : Bool) (far : Stored)
    (m : WorkerMessage) : JobRow :=
  if m.givesNothing id spoke then row else row.applyMessage id expected far m

/-- A job at work and as it is stored. -/
structure Screen where
  job : JobState
  row : JobRow

inductive ScreenAct
  | message (m : WorkerMessage) (far : Stored) (o : Outside)
  | fails (why : Text) (o : Outside)
  | reassign (o : Outside)
  | aside (call : Option Call) (o : Outside)
  | others (jobId : Uuid) (call : Call) (o : Outside)

/-- A turn that writes nothing to the job's row. -/
inductive Aside (expected : Option Text) : Phase → Option Call → (Bool → Phase) → Prop
  | turn {phase call next} : (phase = .trying ∨ phase = .nothing ∨ ∃ m, phase = .settling m) →
      Turn id expected phase call next → Aside expected phase call next
  | closed {spoke terminal lastMeta} :
      Aside expected (.streaming spoke terminal lastMeta) none fun _ => .settling lastMeta
  | broken {lastMeta} :
      Aside expected (.streaming true false lastMeta) none fun _ => .failing (.settling lastMeta)
  | silent {lastMeta} : Aside expected (.streaming false false lastMeta) none fun _ => .nothing
  | giveUp : Aside expected .deciding none fun _ => .failing .over

variable (C : Crypto)

/-- The job's part of a turn. -/
def JobState.after (s : JobState) (o : Outside) (call : Option Call) (next : Bool → Phase) : JobState :=
  { phase := next (runCall id C o s.wallet call).2, wallet := (runCall id C o s.wallet call).1 }

inductive ScreenStep : Labelled Screen ScreenAct
  | message {s : Screen} {spoke terminal lastMeta call next} (m : WorkerMessage) (far : Stored)
      (o : Outside) : s.job.phase = .streaming spoke terminal lastMeta →
      Phase.onMessage id (expectedSha256 s.job.wallet id) spoke terminal lastMeta (far = .all) m =
        (call, next) →
      ScreenStep s (.message m far o)
        { job := s.job.after id C o call next
          row := s.row.onMessage id (expectedSha256 s.job.wallet id) spoke far m }
  | fails {s : Screen} {next} (why : Text) (o : Outside) : s.job.phase = .failing next →
      ScreenStep s (.fails why o)
        { job := s.job.after id C o (some .abandon) fun _ => next
          row := s.row.updateJobStatus .failed (some why) }
  | reassign {s : Screen} (o : Outside) : s.job.phase = .deciding →
      ScreenStep s (.reassign o)
        { job := s.job.after id C o none fun _ => .trying, row := s.row.reassignJob }
  | aside {s : Screen} {call next} (o : Outside) :
      Aside id (expectedSha256 s.job.wallet id) s.job.phase call next →
      ScreenStep s (.aside call o) { s with job := s.job.after id C o call next }
  | others {s : Screen} (jobId : Uuid) (call : Call) (o : Outside) : jobId ≠ id →
      ScreenStep s (.others jobId call o)
        { s with job := { s.job with wallet := (call.run C o jobId s.job.wallet).1 } }

/-- A result that is not stored with its status. -/
def Unfiled (expected : Option Text) (far : Stored) (r : ResultMessage) : Prop :=
  ¬ HashMatches expected r ∨ far = .nothing ∨ far = .result

/-- A job that has ended hears nothing more that ends it another way, and a result is written down with
its reply or not at all. -/
def Quiet (s : Screen) : ScreenAct → Prop
  | .message m far o =>
    match s.job.phase with
    | .streaming spoke _ _ =>
      (s.row.status.isTerminal = true → m.givesNothing id spoke = false) ∧
      match m with
      | .jobStatus jobId status _ => jobId = id → s.row.status.isTerminal = true →
          status = s.row.status ∧ (far = .all ∨ status = .failed)
      | .jobResult r => r.jobId = id → m.givesNothing id spoke = false →
          (Unfiled (expectedSha256 s.job.wallet id) far r → s.row.status ≠ .done) ∧
          (¬ Unfiled (expectedSha256 s.job.wallet id) far r →
            far = .all ∧ s.row.status ≠ .failed ∧ (s.row.inConversation = true → s.row.replies = []))
      | .jobInvoice invoice => s.row.status = .done →
          far = .all ∧ (Call.run C o id s.job.wallet (.pay invoice)).2 = true
      | .jobDelta _ _ _ | .peerAnnounce | .unknown => True
    | _ => True
  | _ => True

/-- What a step leaves of a job's outcome. -/
structure Lawful (s : Screen) (a : ScreenAct) (s' : Screen) : Prop where
  final : s.row.status.isTerminal = true → s'.row.status = s.row.status
  once : s'.row.replies.length ≤ 1
  stays : ∀ o, a = .reassign o → s.row.result = none

/-- Nothing of a job has been decided. -/
structure JobRow.Fresh (row : JobRow) : Prop where
  going : row.status.isTerminal = false
  noResult : row.result = none
  noReply : row.replies = []

/-- Where a job's phase tells how its row stands. -/
def Phase.Agrees (row : JobRow) : Phase → Prop
  | .trying | .nothing | .deciding => row.Fresh
  | .streaming _ terminal _ => if terminal then row.status.isTerminal = true else row.Fresh
  | .failing next => row.status ≠ .done ∧ match next with
    | .streaming _ terminal _ => terminal = true
    | .settling _ | .over => True
    | .trying | .nothing | .deciding | .failing _ => False
  | .settling _ | .over => True

structure Screen.Sound (s : Screen) : Prop where
  agrees : s.job.phase.Agrees s.row
  once : s.row.replies.length ≤ 1

variable {C} {id} {s s' : Screen} {a : ScreenAct} {row : JobRow} {o : Outside} {call : Option Call}
  {next : Bool → Phase} {expected : Option Text} {spoke terminal : Bool} {lastMeta : Option Meta}
  {m : WorkerMessage} {far : Stored} {phase : Phase}

section Refines

theorem Aside.turn_of (h : Aside id expected phase call next) : Turn id expected phase call next := by
  cases h with
  | turn _ hturn => exact hturn
  | closed => exact .closed
  | broken => exact .broken
  | silent => exact .silent
  | giveUp => exact .giveUp

/-- What is stored of a job follows the job at work. -/
theorem ScreenStep.job (h : ScreenStep id C s a s') : ∃ b, JobStep id C s.job b s'.job := by
  cases h with
  | message m far o hphase hnext =>
    exact ⟨_, .turn o (hphase.symm ▸ Turn.message m _ hnext)⟩
  | fails why o hphase => exact ⟨_, .turn o (hphase.symm ▸ Turn.fails)⟩
  | reassign o hphase => exact ⟨_, .turn o (hphase.symm ▸ Turn.fallback)⟩
  | aside o haside => exact ⟨_, .turn o haside.turn_of⟩
  | others jobId call o hne => exact ⟨_, .others jobId call o hne⟩

end Refines

section Rows

theorem JobRow.Fresh.ne_done (h : row.Fresh) : row.status ≠ .done := by
  intro hdone
  have hgoing := h.going
  rw [hdone] at hgoing
  cases hgoing

theorem Phase.Agrees.fresh (h : (Phase.streaming spoke terminal lastMeta).Agrees row)
    (hgoing : row.status.isTerminal = false) : terminal = false ∧ row.Fresh := by
  cases terminal with
  | false => exact ⟨rfl, h⟩
  | true =>
    have hended : row.status.isTerminal = true := h
    rw [hgoing] at hended
    cases hended

theorem Phase.Agrees.ne_done (h : (Phase.streaming spoke terminal lastMeta).Agrees row)
    (hended : row.status.isTerminal = true → row.status = .failed) : row.status ≠ .done := by
  cases hterminal : row.status.isTerminal with
  | false => exact (h.fresh hterminal).2.ne_done
  | true =>
    rw [hended hterminal]
    decide

/-- What a message that a job hears leaves of it. -/
structure Heard (row row' : JobRow) (phase : Phase) : Prop where
  agrees : phase.Agrees row'
  once : row'.replies.length ≤ 1
  final : row.status.isTerminal = true → row'.status = row.status

theorem heard_status {jobId : Uuid} {status : JobStatus} {error : Option Text} (b : Bool)
    (hrow : (Phase.streaming spoke terminal lastMeta).Agrees row) (honce : row.replies.length ≤ 1)
    (hgives : row.status.isTerminal = true →
      (WorkerMessage.jobStatus jobId status error).givesNothing id spoke = false)
    (hquiet : jobId = id → row.status.isTerminal = true →
      status = row.status ∧ (far = .all ∨ status = .failed))
    (hnext : Phase.onMessage id expected spoke terminal lastMeta (far = .all)
      (.jobStatus jobId status error) = (call, next)) :
    Heard row (row.onMessage id expected spoke far (.jobStatus jobId status error)) (next b) := by
  have hrow' : row.onMessage id expected spoke far (.jobStatus jobId status error) =
      if (WorkerMessage.jobStatus jobId status error).givesNothing id spoke then row
      else if jobId = id ∧ far = .all then row.updateJobStatus status error else row := rfl
  rw [hrow']
  simp only [Phase.onMessage] at hnext
  split at hnext
  · next hnothing =>
    cases hnext
    have hgive : (WorkerMessage.jobStatus jobId status error).givesNothing id spoke = true := by
      simp [WorkerMessage.givesNothing, hnothing]
    rw [if_pos hgive]
    have hgoing : row.status.isTerminal = false := by
      rw [← Bool.not_eq_true]
      intro hended
      rw [hgives hended] at hgive
      cases hgive
    exact ⟨(hrow.fresh hgoing).2, honce, fun _ => rfl⟩
  · next hsomething =>
    have hgive : (WorkerMessage.jobStatus jobId status error).givesNothing id spoke = false := by
      simp only [WorkerMessage.givesNothing, Bool.and_eq_false_imp, Bool.and_eq_true,
        decide_eq_true_eq, Bool.not_eq_false']
      rintro ⟨hjob, hfailed⟩
      cases spoke with
      | true => rfl
      | false => exact absurd ⟨hjob, hfailed, rfl⟩ hsomething
    rw [if_neg (by rw [hgive]; decide)]
    split at hnext
    · next hother =>
      cases hnext
      rw [if_neg (fun h => hother h.1)]
      exact ⟨hrow, honce, fun _ => rfl⟩
    · next hjob =>
      rw [not_not] at hjob
      split at hnext
      · next hstored =>
        cases hnext
        rw [if_pos ⟨hjob, by simpa using hstored⟩]
        refine ⟨?_, honce, fun hended => (hquiet hjob hended).1⟩
        cases hterminal : terminal with
        | true =>
          subst hterminal
          have hended : row.status.isTerminal = true := hrow
          have hsame := (hquiet hjob hended).1
          simp only [Bool.true_or, Phase.Agrees, if_true, JobRow.updateJobStatus]
          rw [hsame]
          exact hended
        | false =>
          subst hterminal
          have hfresh : row.Fresh := hrow
          simp only [Bool.false_or, Phase.Agrees, JobRow.updateJobStatus]
          split
          · next hends => exact hends
          · next hgoes => exact ⟨by simpa using hgoes, hfresh.noResult, hfresh.noReply⟩
      · next hlost =>
        cases hnext
        have hfar : far ≠ .all := by simpa using hlost
        rw [if_neg (fun h => hfar h.2)]
        refine ⟨⟨hrow.ne_done ?_, rfl⟩, honce, fun _ => rfl⟩
        intro hended
        obtain ⟨hsame, hall | hfailed⟩ := hquiet hjob hended
        · exact absurd hall hfar
        · exact hsame ▸ hfailed

/-- A result that is not stored with its status leaves the status. -/
theorem applyMessage_unfiled {r : ResultMessage} (h : Unfiled expected far r) :
    (row.applyMessage id expected far (.jobResult r)).status = row.status ∧
      (row.applyMessage id expected far (.jobResult r)).replies = row.replies := by
  unfold JobRow.applyMessage
  dsimp only
  split
  · next hstores =>
    rcases h with hhash | rfl | rfl
    · exact absurd hstores.2 hhash
    · exact ⟨rfl, rfl⟩
    · exact ⟨rfl, rfl⟩
  · exact ⟨rfl, rfl⟩

theorem applyMessage_filed {r : ResultMessage} (hjob : r.jobId = id)
    (hhash : HashMatches expected r) :
    row.applyMessage id expected .all (.jobResult r) =
      ((row.insertResult r.sha256).updateJobStatus .done none).fileReply r.sha256 := by
  unfold JobRow.applyMessage
  dsimp only
  rw [if_pos ⟨hjob, hhash⟩]

theorem JobRow.fileReply_status (sha256 : Text) : (row.fileReply sha256).status = row.status := by
  unfold fileReply
  split
  · rfl
  · rfl

theorem JobRow.length_fileReply {sha256 : Text} (honce : row.replies.length ≤ 1)
    (hnone : row.inConversation = true → row.replies = []) :
    (row.fileReply sha256).replies.length ≤ 1 := by
  unfold fileReply
  split
  · next hin => simp [hnone hin]
  · exact honce

theorem heard_result {r : ResultMessage} (b : Bool)
    (hrow : (Phase.streaming spoke terminal lastMeta).Agrees row) (honce : row.replies.length ≤ 1)
    (hgives : row.status.isTerminal = true →
      (WorkerMessage.jobResult r).givesNothing id spoke = false)
    (hquiet : r.jobId = id → (WorkerMessage.jobResult r).givesNothing id spoke = false →
      (Unfiled expected far r → row.status ≠ .done) ∧
      (¬ Unfiled expected far r → far = .all ∧ row.status ≠ .failed ∧
        (row.inConversation = true → row.replies = [])))
    (hnext : Phase.onMessage id expected spoke terminal lastMeta (far = .all) (.jobResult r) =
      (call, next)) :
    Heard row (row.onMessage id expected spoke far (.jobResult r)) (next b) := by
  have hrow' : row.onMessage id expected spoke far (.jobResult r) =
      if (WorkerMessage.jobResult r).givesNothing id spoke then row
      else row.applyMessage id expected far (.jobResult r) := rfl
  rw [hrow']
  simp only [Phase.onMessage] at hnext
  split at hnext
  · next hnothing =>
    cases hnext
    have hgive : (WorkerMessage.jobResult r).givesNothing id spoke = true := by
      simp [WorkerMessage.givesNothing, hnothing]
    rw [if_pos hgive]
    have hgoing : row.status.isTerminal = false := by
      rw [← Bool.not_eq_true]
      intro hended
      rw [hgives hended] at hgive
      cases hgive
    exact ⟨(hrow.fresh hgoing).2, honce, fun _ => rfl⟩
  · next hsomething =>
    have hgive : (WorkerMessage.jobResult r).givesNothing id spoke = false := by
      simp only [WorkerMessage.givesNothing, Bool.and_eq_false_imp, Bool.and_eq_true,
        decide_eq_true_eq, Bool.not_eq_true']
      rintro ⟨hjob, hspoke⟩
      rw [← Bool.not_eq_true]
      exact fun hsays => hsomething ⟨hjob, hspoke, hsays⟩
    rw [if_neg (by rw [hgive]; decide)]
    split at hnext
    · next hother =>
      cases hnext
      have hsame : row.applyMessage id expected far (.jobResult r) = row :=
        if_neg (fun h => hother h.1)
      rw [hsame]
      refine ⟨?_, honce, fun _ => rfl⟩
      exact hrow
    · next hjob =>
      rw [not_not] at hjob
      obtain ⟨hlost, hfiled⟩ := hquiet hjob hgive
      split at hnext
      · next hstored =>
        cases hnext
        obtain ⟨hfar, hhash⟩ := hstored
        have hall : far = .all := of_decide_eq_true hfar
        have hnot : ¬ Unfiled expected far r := by
          rintro (hmiss | hfar | hfar)
          · exact hmiss hhash
          · rw [hall] at hfar
            cases hfar
          · rw [hall] at hfar
            cases hfar
        obtain ⟨-, hfailed, hreplies⟩ := hfiled hnot
        rw [hall, applyMessage_filed hjob hhash]
        refine ⟨?_, JobRow.length_fileReply honce hreplies, ?_⟩
        · simp only [Phase.Agrees, if_true, JobRow.fileReply_status]
          rfl
        · intro hended
          rw [JobRow.fileReply_status]
          cases hstatus : row.status with
          | done => rfl
          | failed => exact absurd hstatus hfailed
          | queued =>
            rw [hstatus] at hended
            cases hended
          | running =>
            rw [hstatus] at hended
            cases hended
      · next hnot =>
        cases hnext
        have hunfiled : Unfiled expected far r := by
          by_contra hno
          have hhash : HashMatches expected r := by
            by_contra hmiss
            exact hno (.inl hmiss)
          exact hnot ⟨decide_eq_true (hfiled hno).1, hhash⟩
        obtain ⟨hstatus, hreplies⟩ := @applyMessage_unfiled id row expected far r hunfiled
        refine ⟨⟨?_, rfl⟩, ?_, fun _ => hstatus⟩
        · rw [hstatus]
          exact hlost hunfiled
        · rw [hreplies]
          exact honce

theorem heard_invoice {invoice : JobInvoice} (b : Bool)
    (hrow : (Phase.streaming spoke terminal lastMeta).Agrees row) (honce : row.replies.length ≤ 1)
    (hquiet : row.status = .done → far = .all ∧ b = true)
    (hnext : Phase.onMessage id expected spoke terminal lastMeta (far = .all) (.jobInvoice invoice) =
      (call, next)) :
    Heard row (row.onMessage id expected spoke far (.jobInvoice invoice)) (next b) := by
  have hsame : row.onMessage id expected spoke far (.jobInvoice invoice) = row := rfl
  rw [hsame]
  cases hnext
  refine ⟨?_, honce, fun _ => rfl⟩
  dsimp only
  split
  · exact hrow
  · next hlost =>
    refine ⟨?_, rfl⟩
    intro hdone
    obtain ⟨rfl, rfl⟩ := hquiet hdone
    exact hlost rfl

end Rows

section Runs

theorem heard (m : WorkerMessage) (hs : s.Sound)
    (hphase : s.job.phase = .streaming spoke terminal lastMeta)
    (hquiet : Quiet id C s (.message m far o))
    (hnext : Phase.onMessage id (expectedSha256 s.job.wallet id) spoke terminal lastMeta (far = .all) m =
      (call, next)) :
    Heard s.row (s.row.onMessage id (expectedSha256 s.job.wallet id) spoke far m)
      (next (runCall id C o s.job.wallet call).2) := by
  have hrow := hs.agrees
  rw [hphase] at hrow
  simp only [Quiet, hphase] at hquiet
  obtain ⟨hgives, hquiet⟩ := hquiet
  cases m with
  | jobStatus jobId status error => exact heard_status _ hrow hs.once hgives hquiet hnext
  | jobResult r => exact heard_result _ hrow hs.once hgives hquiet hnext
  | jobInvoice invoice =>
    have hcall : call = some (.pay invoice) := (congrArg Prod.fst hnext).symm
    subst hcall
    exact heard_invoice _ hrow hs.once hquiet hnext
  | jobDelta jobId text thinking =>
    cases hnext
    exact ⟨hrow, hs.once, fun _ => rfl⟩
  | peerAnnounce =>
    cases hnext
    exact ⟨hrow, hs.once, fun _ => rfl⟩
  | unknown =>
    cases hnext
    exact ⟨hrow, hs.once, fun _ => rfl⟩

/-- A turn that writes nothing leaves a row its next phase agrees with. -/
theorem Aside.agrees (h : Aside id expected phase call next) (hrow : phase.Agrees row) (b : Bool) :
    (next b).Agrees row := by
  cases h with
  | turn hphase hturn =>
    rcases hphase with rfl | rfl | ⟨m, rfl⟩
    · cases hturn with
      | unreachable => exact hrow
      | unpriced => exact hrow
      | unnamed => exact ⟨JobRow.Fresh.ne_done hrow, trivial⟩
      | bond _ _ =>
        cases b with
        | true => exact hrow
        | false => exact ⟨JobRow.Fresh.ne_done hrow, trivial⟩
    · cases hturn with
      | letGo => exact hrow
    · cases hturn with
      | settle => trivial
  | closed => trivial
  | broken => exact ⟨JobRow.Fresh.ne_done hrow, trivial⟩
  | silent => exact hrow
  | giveUp => exact ⟨JobRow.Fresh.ne_done hrow, trivial⟩

/-- What comes after a failure agrees with a job that has failed. -/
theorem agrees_failed (hnext : match phase with
      | .streaming _ terminal _ => terminal = true
      | .settling _ | .over => True
      | .trying | .nothing | .deciding | .failing _ => False)
    (hfailed : row.status = .failed) : phase.Agrees row := by
  cases phase with
  | streaming spoke terminal lastMeta =>
    cases terminal with
    | true =>
      rw [Phase.Agrees, if_pos rfl, hfailed]
      rfl
    | false => cases hnext
  | trying => cases hnext
  | nothing => cases hnext
  | deciding => cases hnext
  | failing _ => cases hnext
  | _ => trivial

theorem ScreenStep.sound (h : ScreenStep id C s a s') (hquiet : Quiet id C s a) (hs : s.Sound) :
    s'.Sound ∧ Lawful s a s' := by
  cases h with
  | message m far o hphase hnext =>
    have hheard := heard m hs hphase hquiet hnext
    exact ⟨⟨hheard.agrees, hheard.once⟩, hheard.final, hheard.once, by rintro o' ⟨⟩⟩
  | @fails _ next why o hphase =>
    have hagrees := hs.agrees
    rw [hphase] at hagrees
    obtain ⟨hdone, hafter⟩ := hagrees
    refine ⟨⟨agrees_failed hafter rfl, hs.once⟩, ?_, hs.once, by rintro o' ⟨⟩⟩
    intro hended
    change JobStatus.failed = s.row.status
    cases hstatus : s.row.status with
    | failed => rfl
    | done => exact absurd hstatus hdone
    | queued =>
      rw [hstatus] at hended
      cases hended
    | running =>
      rw [hstatus] at hended
      cases hended
  | reassign o hphase =>
    have hfresh := hs.agrees
    rw [hphase] at hfresh
    have hrow : s.row.Fresh := hfresh
    refine ⟨⟨⟨rfl, hrow.noResult, hrow.noReply⟩, hs.once⟩, ?_, hs.once, fun _ _ => hrow.noResult⟩
    intro hended
    rw [hrow.going] at hended
    cases hended
  | aside o haside =>
    exact ⟨⟨haside.agrees hs.agrees _, hs.once⟩, fun _ => rfl, hs.once, by rintro o' ⟨⟩⟩
  | others jobId call o hne =>
    exact ⟨⟨hs.agrees, hs.once⟩, fun _ => rfl, hs.once, by rintro o' ⟨⟩⟩

/-- A job as it is submitted. -/
def Screen.submitted (w : Wallet) (inConversation : Bool) : Screen where
  job := ⟨.trying, w⟩
  row := { inConversation }

theorem sound_of_quiet {w : Wallet} {inConversation : Bool}
    (h : Runs (restrict (ScreenStep id C) (Quiet id C)) (Screen.submitted w inConversation) s) : s.Sound :=
  h.invariant (P := Screen.Sound) (fun hstep hs => (hstep.2.sound hstep.1 hs).1)
    ⟨⟨rfl, rfl, rfl⟩, Nat.zero_le 1⟩

theorem final_of_quiet (hs : s.Sound) (h : Runs (restrict (ScreenStep id C) (Quiet id C)) s s')
    (hended : s.row.status.isTerminal = true) : s'.row.status = s.row.status := by
  have hkeeps : s'.Sound ∧ s'.row.status = s.row.status := by
    refine h.invariant (P := fun r => r.Sound ∧ r.row.status = s.row.status) ?_ ⟨hs, rfl⟩
    rintro r a r' ⟨hquiet, hstep⟩ ⟨hr, hsame⟩
    obtain ⟨hr', hlawful⟩ := hstep.sound hquiet hr
    exact ⟨hr', (hlawful.final (hsame ▸ hended)).trans hsame⟩
  exact hkeeps.2

end Runs

section Local

/-- A chat that a free provider has taken up. -/
def asked : Screen := ⟨⟨.streaming false false none, .empty⟩, { inConversation := true }⟩

theorem submitted_asked (o : Outside) : ScreenStep 7 LocalChain.crypto (Screen.submitted .empty true)
    (.aside none o) asked :=
  @ScreenStep.aside 7 LocalChain.crypto (.submitted .empty true) none
    (fun _ => .streaming false false none) o (.turn (.inl rfl) .unpriced)

/-- Its answer is stored and filed. -/
def replied (replies : List Text) : Screen :=
  ⟨⟨.streaming false true (some longAnswer.metadata), .empty⟩,
    { status := .done, inConversation := true, result := some longAnswer.sha256, replies }⟩

theorem onMessage_longAnswer (terminal : Bool) (lastMeta : Option Meta) :
    Phase.onMessage 7 (expectedSha256 .empty 7) false terminal lastMeta (Stored.all = .all)
      (.jobResult longAnswer) =
    (none, fun _ => .streaming false true (some longAnswer.metadata)) := by
  have hsays : longAnswer.saysNothing = false := by decide
  simp [Phase.onMessage, hsays, show longAnswer.jobId = 7 from rfl, expectedSha256, Wallet.empty]

theorem asked_replied : ScreenStep 7 LocalChain.crypto asked
    (.message (.jobResult longAnswer) .all outside) (replied [longAnswer.sha256]) := by
  have hrow : asked.row.onMessage 7 (expectedSha256 .empty 7) false .all (.jobResult longAnswer) =
      (replied [longAnswer.sha256]).row := by decide
  have hstep := ScreenStep.message (C := LocalChain.crypto) (s := asked) (.jobResult longAnswer) .all
    outside rfl (onMessage_longAnswer false none)
  have hsame : replied [longAnswer.sha256] =
      { job := JobState.after 7 LocalChain.crypto asked.job outside none fun _ =>
          .streaming false true (some longAnswer.metadata)
        row := asked.row.onMessage 7 (expectedSha256 asked.job.wallet 7) false .all
          (.jobResult longAnswer) } := by
    rw [show asked.job.wallet = .empty from rfl, hrow]
    rfl
  exact hsame ▸ hstep

theorem asked_quiet : Quiet 7 LocalChain.crypto asked
    (.message (.jobResult longAnswer) .all outside) := by
  refine ⟨fun _ => ?_, fun _ _ => ⟨fun _ => by decide, fun _ => ⟨rfl, by decide, fun _ => rfl⟩⟩⟩
  decide

end Local

end Rootmode.Desktop
