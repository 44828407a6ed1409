import Rootmode.Desktop.Transports

namespace Rootmode.Transport

open Lib Lib.Text Rootmode.Protocol Rootmode.WorkerWire

/-- What a message is to a job. -/
inductive Role
  | others
  /-- It comes from another key than the pinned one. -/
  | refused
  | more
  /-- After it the job is over. -/
  | last
  deriving DecidableEq

def isResult : WorkerMessage → Bool
  | .jobResult _ => true
  | _ => false

def isFailure : WorkerMessage → Bool
  | .jobStatus u => u.status = JobStatus.failed
  | _ => false

def isLast : WorkerMessage → Bool
  | .jobStatus u => isTerminal u.status
  | _ => false

def role (jobId : Uuid) (accepts : PeerAnnounce → Bool) (m : WorkerMessage) : Role :=
  match m with
  | .peerAnnounce a => if accepts a then .more else .refused
  | m => if jobIdOf m = some jobId then if isLast m then .last else .more else .others

def Event.map {Heard Heard' : Type} (f : Heard → Heard') : Event Heard → Event Heard'
  | .stop => .stop
  | .reply message => .reply message
  | .repliesEnd => .repliesEnd
  | .heard h => .heard (f h)
  | .late => .late

section Abstract

variable (jobId : Uuid) (accepts : PeerAnnounce → Bool)

/-- What is to be handed on: the announces that are accepted, and what is said of the job up to its last word. -/
def forwarded : List (Event Next) → List WorkerMessage
  | [] => []
  | .heard (.message m) :: es =>
    match role jobId accepts m with
    | .others => forwarded es
    | .refused => []
    | .more => m :: forwarded es
    | .last => [m]
  | .heard .closed :: _ | .heard (.failed _) :: _ | .late :: _ => []
  | .heard .skipped :: es | .stop :: es | .reply _ :: es | .repliesEnd :: es => forwarded es

/-- Whether the loop is left, and whether in an orderly way. -/
def leaves : List (Event Next) → Option Bool
  | [] => none
  | .heard (.message m) :: es =>
    match role jobId accepts m with
    | .others | .more => leaves es
    | .refused => some false
    | .last => some true
  | .heard .closed :: _ => some true
  | .heard (.failed _) :: _ | .late :: _ => some false
  | .heard .skipped :: es | .stop :: es | .reply _ :: es | .repliesEnd :: es => leaves es

/-- What is to be sent: the first stop, and the replies until there are no more. -/
def asks (askedToStop repliesOpen : Bool) : List (Event Next) → List ClientMessage
  | [] => []
  | .heard (.message m) :: es =>
    match role jobId accepts m with
    | .others | .more => asks askedToStop repliesOpen es
    | .refused | .last => []
  | .heard .closed :: _ | .heard (.failed _) :: _ | .late :: _ => []
  | .heard .skipped :: es => asks askedToStop repliesOpen es
  | .stop :: es => if askedToStop then asks true repliesOpen es else .jobCancel ⟨jobId⟩ :: asks true repliesOpen es
  | .reply message :: es =>
    if repliesOpen then message :: asks askedToStop true es else asks askedToStop false es
  | .repliesEnd :: es => asks askedToStop false es

end Abstract

/-- Whether a job came to something: a result, or why there is none. -/
def tells (ms : List WorkerMessage) : Bool := ms.any isResult || ms.any isFailure

section Acts

variable {Heard Heard' : Type} {jobId : Uuid} {accepts : PeerAnnounce → Bool} {nothing nothing' : Text}
  {next : Heard → Next} {next' : Heard' → Next} {act act' : Running → WorkerMessage → Running} {s s' : Running}
  {m : WorkerMessage}

/-- What a message says of the job is noted. -/
def Running.note (s : Running) (m : WorkerMessage) : Running :=
  { s with gotResult := s.gotResult || isResult m, saidWhy := s.saidWhy || isFailure m }

/-- A transport does with a message what its role asks for. -/
structure Acts (jobId : Uuid) (accepts : PeerAnnounce → Bool) (nothing : Text)
    (act : Running → WorkerMessage → Running) : Prop where
  others : ∀ s m, m ≠ .unknown → role jobId accepts m = .others → act s m = s
  refused : ∀ s m, role jobId accepts m = .refused → ∃ e, act s m = s.fail e
  more : ∀ s m, role jobId accepts m = .more → act s m = (s.note m).forward m
  last : ∀ s m, role jobId accepts m = .last → act s m = ((s.note m).forward m).finish nothing

/-- Unknown messages are skipped. -/
def Known (next : Heard → Next) : Prop := ∀ h m, next h = .message m → m ≠ .unknown

/-- Two jobs came to the same, but for the words of an error. -/
structure Alike (s s' : Running) : Prop where
  askedToStop : s.askedToStop = s'.askedToStop
  repliesOpen : s.repliesOpen = s'.repliesOpen
  gotResult : s.gotResult = s'.gotResult
  saidWhy : s.saidWhy = s'.saidWhy
  sent : s.sent = s'.sent
  sink : s.sink = s'.sink
  verdict : s.verdict.map Except.isOk = s'.verdict.map Except.isOk

theorem Alike.refl (s : Running) : Alike s s := ⟨rfl, rfl, rfl, rfl, rfl, rfl, rfl⟩

theorem Alike.isSome (h : Alike s s') : s.verdict.isSome = s'.verdict.isSome := by
  rw [← Option.isSome_map, h.verdict, Option.isSome_map]

theorem Alike.fail (h : Alike s s') (e e' : AppError) : Alike (s.fail e) (s'.fail e') :=
  { h with verdict := rfl }

theorem Alike.note (h : Alike s s') (m : WorkerMessage) : Alike (s.note m) (s'.note m) :=
  { h with
    gotResult := congrArg (· || isResult m) h.gotResult
    saidWhy := congrArg (· || isFailure m) h.saidWhy }

theorem Alike.forward (h : Alike s s') (m : WorkerMessage) : Alike (s.forward m) (s'.forward m) :=
  { h with sink := congrArg (· ++ [m]) h.sink }

theorem Alike.finish (h : Alike s s') (nothing nothing' : Text) : Alike (s.finish nothing) (s'.finish nothing') := by
  rw [Running.finish, Running.finish, ← h.gotResult, ← h.saidWhy]
  split
  · exact h.fail _ _
  · exact ⟨h.askedToStop, h.repliesOpen, rfl, rfl, h.sent, h.sink, rfl⟩

theorem Alike.acts (h : Alike s s') (hact : Acts jobId accepts nothing act) (hact' : Acts jobId accepts nothing' act')
    (hm : m ≠ .unknown) : Alike (act s m) (act' s' m) := by
  cases hrole : role jobId accepts m with
  | others => rwa [hact.others s m hm hrole, hact'.others s' m hm hrole]
  | refused =>
    obtain ⟨e, he⟩ := hact.refused s m hrole
    obtain ⟨e', he'⟩ := hact'.refused s' m hrole
    rw [he, he']
    exact h.fail e e'
  | more =>
    rw [hact.more s m hrole, hact'.more s' m hrole]
    exact (h.note m).forward m
  | last =>
    rw [hact.last s m hrole, hact'.last s' m hrole]
    exact ((h.note m).forward m).finish nothing nothing'

/-- The same comes of what two transports give. -/
inductive Next.Same : Next → Next → Prop
  | skipped : Same .skipped .skipped
  | message (m : WorkerMessage) : Same (.message m) (.message m)
  | closed : Same .closed .closed
  | failed (e e' : AppError) : Same (.failed e) (.failed e')

/-- Two loops take up the same in a turn. -/
inductive Carries (next : Heard → Next) (next' : Heard' → Next) : Event Heard → Event Heard' → Prop
  | stop : Carries next next' .stop .stop
  | reply (message : ClientMessage) : Carries next next' (.reply message) (.reply message)
  | repliesEnd : Carries next next' .repliesEnd .repliesEnd
  | heard {h : Heard} {h' : Heard'} : (next h).Same (next' h') → Carries next next' (.heard h) (.heard h')
  | late : Carries next next' .late .late

theorem Alike.turn {e : Event Heard} {e' : Event Heard'} (h : Alike s s') (hknown : Known next)
    (hact : Acts jobId accepts nothing act) (hact' : Acts jobId accepts nothing' act') (he : Carries next next' e e') :
    Alike (turn jobId nothing next act s e) (turn jobId nothing' next' act' s' e') := by
  cases he with
  | stop =>
    rw [Transport.turn, Transport.turn, ← h.askedToStop]
    split
    · exact h
    · exact ⟨rfl, h.repliesOpen, h.gotResult, h.saidWhy, congrArg (· ++ [.jobCancel ⟨jobId⟩]) h.sent, h.sink,
        h.verdict⟩
  | reply message =>
    rw [Transport.turn, Transport.turn, ← h.repliesOpen]
    split
    · exact ⟨h.askedToStop, rfl, h.gotResult, h.saidWhy, congrArg (· ++ [message]) h.sent, h.sink, h.verdict⟩
    · exact h
  | repliesEnd => exact { h with repliesOpen := rfl }
  | late => exact h.fail _ _
  | @heard f f' hsame =>
    rw [Transport.turn, Transport.turn]
    cases hf : next f with
    | skipped =>
      rw [hf] at hsame
      cases hf' : next' f' <;> rw [hf'] at hsame <;> cases hsame
      exact h
    | message m =>
      rw [hf] at hsame
      cases hf' : next' f' <;> rw [hf'] at hsame <;> cases hsame
      exact h.acts hact hact' (hknown f m hf)
    | closed =>
      rw [hf] at hsame
      cases hf' : next' f' <;> rw [hf'] at hsame <;> cases hsame
      exact h.finish nothing nothing'
    | failed e =>
      rw [hf] at hsame
      cases hf' : next' f' <;> rw [hf'] at hsame <;> cases hsame
      exact h.fail _ _

theorem Alike.runFrom {es : List (Event Heard)} {es' : List (Event Heard')} (h : Alike s s') (hknown : Known next)
    (hact : Acts jobId accepts nothing act) (hact' : Acts jobId accepts nothing' act')
    (hes : List.Forall₂ (Carries next next') es es') :
    Alike (runFrom jobId nothing next act s es) (runFrom jobId nothing' next' act' s' es') := by
  induction hes generalizing s s' with
  | nil => exact h
  | cons he hes ih =>
    rw [Transport.runFrom, Transport.runFrom, ← h.isSome]
    split
    · exact h
    · exact ih (h.turn hknown hact hact' he)

/-- What a run has come to, where it is to go on from what it had. -/
structure Keeps (jobId : Uuid) (accepts : PeerAnnounce → Bool) (s : Running) (es : List (Event Next)) (s' : Running) :
    Prop where
  sink : s'.sink = s.sink ++ forwarded jobId accepts es
  sent : s'.sent = s.sent ++ asks jobId accepts s.askedToStop s.repliesOpen es
  verdict : s'.verdict.map Except.isOk = (leaves jobId accepts es).map fun orderly =>
    orderly && (s.gotResult || s.saidWhy || tells (forwarded jobId accepts es))

theorem verdict_finish (s : Running) (nothing : Text) :
    (s.finish nothing).verdict.map Except.isOk = some (s.gotResult || s.saidWhy) := by
  rw [Running.finish]
  cases hresult : s.gotResult <;> cases hwhy : s.saidWhy <;> rfl

theorem sink_finish (s : Running) (nothing : Text) : (s.finish nothing).sink = s.sink := by
  rw [Running.finish]
  split <;> rfl

theorem sent_finish (s : Running) (nothing : Text) : (s.finish nothing).sent = s.sent := by
  rw [Running.finish]
  split <;> rfl

theorem runFrom_of_verdict {es : List (Event Heard)} (h : s.verdict.isSome = true) :
    runFrom jobId nothing next act s es = s := by
  cases es with
  | nil => rfl
  | cons e es => rw [runFrom, if_pos h]

theorem isSome_finish (s : Running) (nothing : Text) : (s.finish nothing).verdict.isSome = true := by
  rw [← Option.isSome_map (f := Except.isOk), verdict_finish]
  rfl

theorem tells_cons (m : WorkerMessage) (ms : List WorkerMessage) :
    tells (m :: ms) = (isResult m || isFailure m || tells ms) := by
  rw [tells, tells, List.any_cons, List.any_cons]
  cases isResult m <;> cases isFailure m <;> cases ms.any isResult <;> rfl

/-- An event that says nothing of the job leaves what is handed on as it was. -/
theorem Keeps.own {es es' : List (Event Next)} {t : Running} (h : Keeps jobId accepts s es s')
    (hsink : s.sink = t.sink) (hresult : s.gotResult = t.gotResult) (hwhy : s.saidWhy = t.saidWhy)
    (hforwarded : forwarded jobId accepts es' = forwarded jobId accepts es)
    (hleaves : leaves jobId accepts es' = leaves jobId accepts es)
    (hsent : s.sent ++ asks jobId accepts s.askedToStop s.repliesOpen es =
      t.sent ++ asks jobId accepts t.askedToStop t.repliesOpen es') : Keeps jobId accepts t es' s' where
  sink := by rw [h.sink, hsink, hforwarded]
  sent := by rw [h.sent, hsent]
  verdict := by rw [h.verdict, hleaves, hresult, hwhy, hforwarded]

/-- Nothing comes after the loop is left in an error. -/
theorem keeps_fail {es : List (Event Next)} (e : AppError) (hforwarded : forwarded jobId accepts es = [])
    (hleaves : leaves jobId accepts es = some false)
    (hasks : asks jobId accepts s.askedToStop s.repliesOpen es = []) : Keeps jobId accepts s es (s.fail e) where
  sink := by
    rw [hforwarded, List.append_nil]
    rfl
  sent := by
    rw [hasks, List.append_nil]
    rfl
  verdict := by
    rw [hleaves]
    rfl

theorem Keeps.more {es : List (Event Next)} (hrole : role jobId accepts m = .more)
    (h : Keeps jobId accepts ((s.note m).forward m) es s') : Keeps jobId accepts s (.heard (.message m) :: es) s' where
  sink := by
    rw [h.sink, forwarded, hrole]
    exact List.append_assoc ..
  sent := by
    rw [h.sent, asks, hrole]
    rfl
  verdict := by
    rw [h.verdict, leaves, forwarded, hrole]
    dsimp only
    rw [tells_cons]
    congr 1
    funext orderly
    change (orderly && (s.gotResult || isResult m || (s.saidWhy || isFailure m) || _)) = _
    cases s.gotResult <;> cases s.saidWhy <;> cases isResult m <;> cases isFailure m <;> rfl

theorem keeps_last {es : List (Event Next)} (hrole : role jobId accepts m = .last) (nothing : Text) :
    Keeps jobId accepts s (.heard (.message m) :: es) (((s.note m).forward m).finish nothing) where
  sink := by
    rw [sink_finish, forwarded, hrole]
    rfl
  sent := by
    rw [sent_finish, asks, hrole]
    exact (List.append_nil _).symm
  verdict := by
    rw [verdict_finish, leaves, forwarded, hrole]
    change some (s.gotResult || isResult m || (s.saidWhy || isFailure m)) =
      some (true && (s.gotResult || s.saidWhy || tells [m]))
    rw [tells_cons]
    cases s.gotResult <;> cases s.saidWhy <;> cases isResult m <;> cases isFailure m <;> rfl

theorem keeps_closed {es : List (Event Next)} (nothing : Text) :
    Keeps jobId accepts s (.heard .closed :: es) (s.finish nothing) where
  sink := by
    rw [sink_finish]
    exact (List.append_nil _).symm
  sent := by
    rw [sent_finish]
    exact (List.append_nil _).symm
  verdict := by
    rw [verdict_finish]
    change _ = some (true && (s.gotResult || s.saidWhy || false))
    rw [Bool.or_false, Bool.true_and]

/-- Turn by turn: what is handed on, what is sent, and what it comes to. -/
theorem runFrom_keeps (hknown : Known next) (hact : Acts jobId accepts nothing act) (es : List (Event Heard))
    (s : Running) (hs : s.verdict = none) :
    Keeps jobId accepts s (es.map (Event.map next)) (runFrom jobId nothing next act s es) := by
  induction es generalizing s with
  | nil =>
    refine ⟨(List.append_nil _).symm, (List.append_nil _).symm, ?_⟩
    rw [runFrom, hs]
    rfl
  | cons e es ih =>
    rw [runFrom, hs, Option.isSome_none, if_neg Bool.false_ne_true, List.map_cons]
    cases e with
    | stop =>
      rw [turn, Event.map]
      split
      · next hasked =>
        refine (ih s hs).own rfl rfl rfl rfl rfl ?_
        rw [asks, hasked, if_pos rfl]
      · next hfirst =>
        have hrest := ih { s with askedToStop := true, sent := s.sent ++ [.jobCancel ⟨jobId⟩] } hs
        refine hrest.own rfl rfl rfl rfl rfl ?_
        rw [asks, if_neg hfirst]
        exact List.append_assoc ..
    | reply message =>
      rw [turn, Event.map]
      split
      · next hopen =>
        have hrest := ih { s with sent := s.sent ++ [message] } hs
        refine hrest.own rfl rfl rfl rfl rfl ?_
        rw [asks, if_pos hopen, hopen]
        exact List.append_assoc ..
      · next hshut =>
        refine (ih s hs).own rfl rfl rfl rfl rfl ?_
        rw [asks, if_neg hshut, Bool.eq_false_iff.mpr hshut]
    | repliesEnd =>
      have hrest := ih { s with repliesOpen := false } hs
      exact hrest.own rfl rfl rfl rfl rfl rfl
    | late =>
      rw [runFrom_of_verdict rfl]
      exact keeps_fail _ rfl rfl rfl
    | heard h =>
      rw [turn, Event.map]
      cases hnext : next h with
      | skipped => exact (ih s hs).own rfl rfl rfl rfl rfl rfl
      | closed =>
        rw [runFrom_of_verdict (isSome_finish _ _)]
        exact keeps_closed nothing
      | failed e =>
        rw [runFrom_of_verdict rfl]
        exact keeps_fail e rfl rfl rfl
      | message m =>
        dsimp only
        cases hrole : role jobId accepts m with
        | others =>
          rw [hact.others s m (hknown h m hnext) hrole]
          refine (ih s hs).own rfl rfl rfl ?_ ?_ ?_
          · rw [forwarded, hrole]
          · rw [leaves, hrole]
          · rw [asks, hrole]
        | refused =>
          obtain ⟨e, he⟩ := hact.refused s m hrole
          rw [he, runFrom_of_verdict rfl]
          refine keeps_fail e ?_ ?_ ?_
          · rw [forwarded, hrole]
          · rw [leaves, hrole]
          · rw [asks, hrole]
        | more =>
          rw [hact.more s m hrole]
          have hrest := ih ((s.note m).forward m) hs
          exact hrest.more hrole
        | last =>
          rw [hact.last s m hrole, runFrom_of_verdict (isSome_finish _ _)]
          exact keeps_last hrole nothing

end Acts

section Both

variable {U : UuidFormat} {S : SerdeJson} {E : Ed25519} {c : Client E} {dialled : Option Text} {jobId : Uuid}

/-- The pin an announce has to meet. -/
def pinned (c : Client E) (a : PeerAnnounce) : Bool := c.expectPublicKey.all (eqIgnoreAsciiCase · a.peerId)

/-- The peer that was dialled is the pinned one, if any is. -/
def DialledPinned (c : Client E) (dialled : Option Text) : Prop :=
  ∀ expected ∈ c.expectPublicKey, ∀ actual ∈ dialled, eqIgnoreAsciiCase expected actual = true

theorem isOk_ws (a : PeerAnnounce) : (Ws.checkAnnounce c a).isOk = pinned c a := by
  rw [Ws.checkAnnounce, pinned]
  cases c.expectPublicKey with
  | none => rfl
  | some expected =>
    dsimp only [Option.all_some]
    cases eqIgnoreAsciiCase expected a.peerId <;> rfl

theorem isOk_libp2p (h : DialledPinned c dialled) (a : PeerAnnounce) :
    (Libp2p.checkAnnounce c dialled a).isOk = pinned c a := by
  unfold Libp2p.checkAnnounce pinned
  cases hpin : c.expectPublicKey with
  | none => cases dialled <;> rfl
  | some expected =>
    dsimp only [Option.all_some]
    cases dialled with
    | none => cases heq : eqIgnoreAsciiCase expected a.peerId <;> simp [List.forM, heq] <;> rfl
    | some actual =>
      have hdialled := h expected hpin actual rfl
      cases heq : eqIgnoreAsciiCase expected a.peerId <;> simp [List.forM, heq, hdialled] <;> rfl

/-- What is done with a message of a job. -/
def answer (jobId : Uuid) (nothing : Text) (s : Running) (m : WorkerMessage) (id : Uuid) : Running :=
  if id = jobId then
    if isLast m then ((s.note m).forward m).finish nothing else (s.note m).forward m
  else s

theorem role_of_job {accepts : PeerAnnounce → Bool} {m : WorkerMessage} {id : Uuid} (h : jobIdOf m = some id) :
    role jobId accepts m = if id = jobId then if isLast m then .last else .more else .others := by
  cases m with
  | peerAnnounce | unknown => cases h
  | jobStatus | jobResult | jobDelta | jobInvoice =>
    cases h
    simp only [role, jobIdOf, Option.some_inj]

theorem note_delta (s : Running) (d : JobDelta) : s.note (.jobDelta d) = s := by
  simp [Running.note, isResult, isFailure]

theorem note_invoice (s : Running) (i : JobInvoice) : s.note (.jobInvoice i) = s := by
  simp [Running.note, isResult, isFailure]

theorem note_result (s : Running) (r : JobResult) : s.note (.jobResult r) = { s with gotResult := true } := by
  simp [Running.note, isResult, isFailure]

theorem note_status (s : Running) (u : JobStatusUpdate) :
    s.note (.jobStatus u) = { s with saidWhy := s.saidWhy || u.status = JobStatus.failed } := by
  simp [Running.note, isResult, isFailure]

/-- A transport that treats the messages of jobs and the announces so acts by their roles. -/
theorem acts_of {accepts : PeerAnnounce → Bool} {nothing : Text} {act : Running → WorkerMessage → Running}
    (hjob : ∀ s m id, jobIdOf m = some id → act s m = answer jobId nothing s m id)
    (haccepted : ∀ s a, accepts a = true → act s (.peerAnnounce a) = s.forward (.peerAnnounce a))
    (hrefused : ∀ s a, accepts a = false → ∃ e, act s (.peerAnnounce a) = s.fail e) :
    Acts jobId accepts nothing act := by
  have hcases : ∀ m, m = .unknown ∨ (∃ a, m = .peerAnnounce a) ∨ ∃ id, jobIdOf m = some id := by
    intro m
    cases m with
    | unknown => exact .inl rfl
    | peerAnnounce a => exact .inr (.inl ⟨a, rfl⟩)
    | jobStatus | jobResult | jobDelta | jobInvoice => exact .inr (.inr ⟨_, rfl⟩)
  have hannounce : ∀ a, role jobId accepts (.peerAnnounce a) = if accepts a then .more else .refused := fun _ => rfl
  constructor
  · intro s m hm hrole
    rcases hcases m with rfl | ⟨a, rfl⟩ | ⟨id, hid⟩
    · exact absurd rfl hm
    · rw [hannounce] at hrole
      split at hrole <;> cases hrole
    · rw [role_of_job hid] at hrole
      rw [hjob s m id hid, answer]
      split at hrole
      · split at hrole <;> cases hrole
      · next hother => rw [if_neg hother]
  · intro s m hrole
    rcases hcases m with rfl | ⟨a, rfl⟩ | ⟨id, hid⟩
    · cases hrole
    · refine hrefused s a (Bool.eq_false_iff.mpr fun haccepts => ?_)
      rw [hannounce, if_pos haccepts] at hrole
      cases hrole
    · rw [role_of_job hid] at hrole
      split at hrole
      · split at hrole <;> cases hrole
      · cases hrole
  · intro s m hrole
    rcases hcases m with rfl | ⟨a, rfl⟩ | ⟨id, hid⟩
    · cases hrole
    · rw [hannounce] at hrole
      split at hrole
      · next haccepts =>
        rw [haccepted s a haccepts]
        simp [Running.note, isResult, isFailure]
      · cases hrole
    · rw [role_of_job hid] at hrole
      rw [hjob s m id hid, answer]
      split at hrole
      · next hown =>
        split at hrole
        · cases hrole
        · next hmore => rw [if_pos hown, if_neg hmore]
      · cases hrole
  · intro s m hrole
    rcases hcases m with rfl | ⟨a, rfl⟩ | ⟨id, hid⟩
    · cases hrole
    · rw [hannounce] at hrole
      split at hrole <;> cases hrole
    · rw [role_of_job hid] at hrole
      rw [hjob s m id hid, answer]
      split at hrole
      · next hown =>
        split at hrole
        · next hlast => rw [if_pos hown, if_pos hlast]
        · cases hrole
      · cases hrole

theorem isOk_eq_true {r : Except AppError Unit} (h : r.isOk = true) : r = .ok ⟨⟩ := by
  cases r with
  | ok => rfl
  | error => cases h

theorem isOk_eq_false {r : Except AppError Unit} (h : r.isOk = false) : ∃ e, r = .error e := by
  cases r with
  | ok => cases h
  | error e => exact ⟨e, rfl⟩

theorem acts_ws : Acts jobId (pinned c) Ws.nothing (Ws.act c jobId) := by
  refine acts_of ?_ ?_ ?_
  · intro s m id hid
    cases m with
    | peerAnnounce | unknown => cases hid
    | jobStatus u =>
      cases hid
      simp [Ws.act, answer, jobIdOf, isLast, note_status]
    | jobResult r =>
      cases hid
      simp [Ws.act, answer, jobIdOf, isLast, note_result]
    | jobDelta d =>
      cases hid
      simp [Ws.act, answer, jobIdOf, isLast, note_delta]
    | jobInvoice i =>
      cases hid
      simp [Ws.act, answer, jobIdOf, isLast, note_invoice]
  · intro s a haccepts
    rw [← isOk_ws] at haccepts
    rw [Ws.act, isOk_eq_true haccepts]
  · intro s a hrefused
    rw [← isOk_ws] at hrefused
    obtain ⟨e, he⟩ := isOk_eq_false hrefused
    exact ⟨e, by rw [Ws.act, he]⟩

theorem acts_libp2p (h : DialledPinned c dialled) :
    Acts jobId (pinned c) Libp2p.nothing (Libp2p.act c dialled jobId) := by
  refine acts_of ?_ ?_ ?_
  · intro s m id hid
    cases m with
    | peerAnnounce | unknown => cases hid
    | jobStatus u =>
      cases hid
      simp [Libp2p.act, answer, isLast, note_status]
    | jobResult r =>
      cases hid
      simp [Libp2p.act, answer, isLast, note_result]
    | jobDelta d =>
      cases hid
      simp [Libp2p.act, answer, isLast, note_delta]
    | jobInvoice i =>
      cases hid
      simp [Libp2p.act, answer, isLast, note_invoice]
  · intro s a haccepts
    rw [← isOk_libp2p h] at haccepts
    rw [Libp2p.act, isOk_eq_true haccepts]
  · intro s a hrefused
    rw [← isOk_libp2p h] at hrefused
    obtain ⟨e, he⟩ := isOk_eq_false hrefused
    exact ⟨e, by rw [Libp2p.act, he]⟩

theorem known_nextOf {r : Except CoreError WorkerMessage} {m : WorkerMessage} (h : nextOf r = .message m) :
    m ≠ .unknown := by
  rintro rfl
  unfold nextOf at h
  split at h
  · cases h
  · next hm => 
    cases h
    exact hm rfl
  · cases h

theorem known_ws : Known (Ws.next U S) := by
  intro f m h
  cases f with
  | text t =>
    rw [Ws.next] at h
    split at h
    · cases h
    · exact known_nextOf h
  | close | other | broken | ended => cases h

/-- A text is the same as a frame and as a line. -/
theorem same_text {t : Text} (h : (Hex.utf8 t).length ≤ maxMessageBytes) :
    (Ws.next U S (.text t)).Same (Libp2p.next U S (.line (Hex.utf8 t))) := by
  rw [Ws.next, if_neg (not_lt.mpr h), Libp2p.next, P2p.fromUtf8_utf8]
  dsimp only
  cases nextOf (WorkerMessage.parse U S t) with
  | skipped => exact .skipped
  | message m => exact .message m
  | closed => exact .closed
  | failed e => exact .failed e e

theorem runJob_alike (submit : JobSubmit) {es : List (Event Ws.Frame)} {es' : List (Event P2p.Outcome)}
    (hpin : DialledPinned c dialled) (hes : List.Forall₂ (Carries (Ws.next U S) (Libp2p.next U S)) es es') :
    Alike (Ws.runJob U S c submit es) (Libp2p.runJob U S c dialled submit es') :=
  (Alike.refl _).runFrom known_ws acts_ws (acts_libp2p hpin) hes

/-- Over a socket or over a stream a job comes to the same: as much is sent, handed on and reported. -/
theorem transports_agree (submit : JobSubmit) {es : List (Event Ws.Frame)} {es' : List (Event P2p.Outcome)}
    (hpin : DialledPinned c dialled) (hes : List.Forall₂ (Carries (Ws.next U S) (Libp2p.next U S)) es es') :
    Alike (Ws.runJob U S c submit es) (Libp2p.runJob U S c dialled submit es') ∧
      ∀ submission, signed U S c submit = .ok submission →
        Keeps submit.jobId (pinned c) { sent := [hello c, .jobSubmit submission] } (es.map (Event.map (Ws.next U S)))
          (Ws.runJob U S c submit es) := by
  refine ⟨runJob_alike submit hpin hes, fun submission hsigned => ?_⟩
  have hopened : opened U S c submit = { sent := [hello c, .jobSubmit submission] } := by
    rw [opened, hsigned]
  rw [Ws.runJob, hopened]
  exact runFrom_keeps known_ws acts_ws es _ rfl

/-- A worker's messages come to the same in frames and in lines, however the stream is cut. -/
theorem uninterrupted (submit : JobSubmit) (hS : ∀ x, '\n' ∉ S.float x) {ms : List WorkerMessage}
    {reads : List Bytes} (hpin : DialledPinned c dialled) (hms : ∀ m ∈ ms, m.Sendable U S)
    (hreads : reads.flatten = ms.flatMap fun m => P2p.send S (m.encode U)) :
    Alike (Ws.runJob U S c submit ((ms.map fun m => .heard (.text (wireJson S (m.encode U)))) ++ [.heard .ended]))
      (Libp2p.runJob U S c dialled submit ((P2p.recvAll reads).map .heard)) := by
  refine runJob_alike submit hpin ?_
  have hlines : ∀ v ∈ ms.map (WorkerMessage.encode U), P2p.Line (wireJson S v) := by
    refine List.forall_mem_map.mpr fun m hm => ?_
    exact ⟨(P2p.avoids_newline hS).not_mem_render _, (hms m hm).short⟩
  rw [P2p.recvAll_sent hlines (by rw [hreads, List.flatMap_map]), List.map_append, List.map_map, List.map_map]
  refine List.rel_append ?_ (.cons (.heard .closed) .nil)
  refine List.forall₂_map_left_iff.mpr (List.forall₂_map_right_iff.mpr (List.forall₂_same.mpr fun m hm => ?_))
  refine .heard ?_
  dsimp only
  rw [P2p.finish_utf8]
  exact same_text (hms m hm).short

/-- One who was dialled and is not the pinned peer is refused with its first announce. -/
theorem refuses_dialled {expected actual : Text} (hpin : c.expectPublicKey = some expected)
    (hdialled : dialled = some actual) (hother : eqIgnoreAsciiCase expected actual = false) (s : Running)
    (a : PeerAnnounce) : ∃ e, Libp2p.act c dialled jobId s (.peerAnnounce a) = s.fail (.net e) := by
  refine ⟨"peer key mismatch: pinned ".toList ++ expected ++ ", ".toList ++ "connection".toList ++ " says ".toList ++
    actual, ?_⟩
  have hcheck : Libp2p.checkAnnounce c dialled a = .error (.net ("peer key mismatch: pinned ".toList ++ expected ++
      ", ".toList ++ "connection".toList ++ " says ".toList ++ actual)) := by
    unfold Libp2p.checkAnnounce
    rw [hpin, hdialled]
    simp [List.forM, hother]
    rfl
  rw [Libp2p.act, hcheck]

end Both

section Cases

open Rootmode.P2p (announceOf sendable_announce)

def pinning : Client ed25519 := ⟨⟨⟩, some "cd".toList, false⟩

def announced : Text := wireJson P2p.reader (announceOf.encode hyphenated)

theorem dialledPinned_pinning : DialledPinned pinning (some "CD".toList) := by
  rintro expected ⟨⟩ actual ⟨⟩
  decide

theorem transports_agree_stopped :
    Alike
        (Ws.runJob hyphenated P2p.reader pinning (chat 1 defaultTemperature)
          [.stop, .heard (.text announced), .heard .ended])
        (Libp2p.runJob hyphenated P2p.reader pinning (some "CD".toList) (chat 1 defaultTemperature)
          [.stop, .heard (.line (Hex.utf8 announced)), .heard .ended]) ∧
      ∀ submission, signed hyphenated P2p.reader pinning (chat 1 defaultTemperature) = .ok submission →
        Keeps 7 (pinned pinning) { sent := [hello pinning, .jobSubmit submission] }
          ([.stop, .heard (.text announced), .heard .ended].map (Event.map (Ws.next hyphenated P2p.reader)))
          (Ws.runJob hyphenated P2p.reader pinning (chat 1 defaultTemperature)
            [.stop, .heard (.text announced), .heard .ended]) :=
  transports_agree (chat 1 defaultTemperature) dialledPinned_pinning
    (.cons .stop (.cons (.heard (same_text sendable_announce.short)) (.cons (.heard .closed) .nil)))

end Cases

end Rootmode.Transport
