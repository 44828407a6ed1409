import Rootmode.P2p.Conversation

namespace Rootmode.Transport

open Lib Lib.Text Rootmode.Protocol Rootmode.WorkerWire

/-- Why a job came to nothing on the way to its peer. -/
inductive AppError
  | net (message : Text)
  | invalid (message : Text)
  deriving DecidableEq

/-- What the client is to its peer. -/
structure Client (E : Ed25519) where
  identity : E.Secret
  expectPublicKey : Option Text
  sign : Bool

/-- What the loop of a job takes up in a turn.  What it hears is as its transport gives it. -/
inductive Event (Heard : Type)
  | stop
  | reply (message : ClientMessage)
  | repliesEnd
  | heard (h : Heard)
  | late

/-- What waiting for the peer comes to.  What is skipped is not waited for any less. -/
inductive Next
  | skipped
  | message (m : WorkerMessage)
  | closed
  | failed (e : AppError)

/-- A job on its way: what was sent, what was handed on, and what it came to. -/
structure Running where
  askedToStop : Bool := false
  repliesOpen : Bool := true
  gotResult : Bool := false
  saidWhy : Bool := false
  sent : List ClientMessage := []
  sink : List WorkerMessage := []
  verdict : Option (Except AppError Unit) := none

def jobIdOf : WorkerMessage → Option Uuid
  | .jobStatus s => some s.jobId
  | .jobResult r => some r.jobId
  | .jobDelta d => some d.jobId
  | .jobInvoice i => some i.jobId
  | .peerAnnounce _ | .unknown => none

def isTerminal : JobStatus → Bool
  | .done | .failed => true
  | .queued | .running => false

namespace Running

variable (s : Running)

/-- Hands a message on. -/
def forward (m : WorkerMessage) : Running := { s with sink := s.sink ++ [m] }

def fail (e : AppError) : Running := { s with verdict := some (.error e) }

/-- The loop is left in an orderly way.  A reported failure is not a hangup. -/
def finish (nothing : Text) : Running :=
  if !s.gotResult && !s.saidWhy then s.fail (.net nothing) else { s with verdict := some (.ok ⟨⟩) }

end Running

section Opening

variable (U : UuidFormat) (S : SerdeJson) {E : Ed25519} (c : Client E) (submit : JobSubmit)

def hello : ClientMessage := .peerHello ⟨protocolVersion, peerId E c.identity⟩

/-- The submission as it goes out. -/
def signed : Except AppError JobSubmit :=
  if c.sign then
    let signed := submit.signedBy U S E c.identity
    match signed.verify U S E with
    | .ok _ => .ok signed
    | .error e => .error (.invalid ("local signature check failed: " ++ e.text).toList)
  else .ok submit

/-- Before the first turn. -/
def opened : Running :=
  match signed U S c submit with
  | .ok submit => { sent := [hello c, .jobSubmit submit] }
  | .error e => { sent := [hello c], verdict := some (.error e) }

end Opening

section Turn

variable {Heard : Type} (jobId : Uuid) (nothing : Text) (next : Heard → Next)
  (act : Running → WorkerMessage → Running)

/-- A turn of the loop, by what the transport makes of what it hears and what it does with a message. -/
def turn (s : Running) : Event Heard → Running
  | .stop =>
    if s.askedToStop then s
    else { s with askedToStop := true, sent := s.sent ++ [.jobCancel ⟨jobId⟩] }
  | .reply message => if s.repliesOpen then { s with sent := s.sent ++ [message] } else s
  | .repliesEnd => { s with repliesOpen := false }
  | .late => s.fail (.net "job timed out waiting for the peer".toList)
  | .heard h =>
    match next h with
    | .skipped => s
    | .message m => act s m
    | .closed => s.finish nothing
    | .failed e => s.fail e

/-- Turn by turn, until the loop is left. -/
def runFrom (s : Running) : List (Event Heard) → Running
  | [] => s
  | e :: es => if s.verdict.isSome then s else runFrom (turn jobId nothing next act s e) es

end Turn

/-- What a parsed text comes to: a malformed frame is the peer's problem, not a reason to drop a job. -/
def nextOf : Except CoreError WorkerMessage → Next
  | .ok .unknown => .skipped
  | .ok m => .message m
  | .error _ => .skipped

variable (U : UuidFormat) (S : SerdeJson) {E : Ed25519} (c : Client E)

namespace Ws

inductive Frame
  | text (txt : Text)
  | close
  /-- Binary, ping and pong. -/
  | other
  | broken (e : Text)
  /-- There are no more. -/
  | ended

def nothing : Text := "peer closed the connection without a result".toList

def next : Frame → Next
  | .text txt =>
    if maxMessageBytes < (Hex.utf8 txt).length then .failed (.net "peer sent an oversized frame".toList)
    else nextOf (WorkerMessage.parse U S txt)
  | .close | .ended => .closed
  | .other => .skipped
  | .broken e => .failed (.net e)

def checkAnnounce (a : PeerAnnounce) : Except AppError Unit :=
  match c.expectPublicKey with
  | some expected =>
    if !eqIgnoreAsciiCase expected a.peerId then
      .error (.net ("peer key mismatch: pinned ".toList ++ expected ++ ", endpoint announced ".toList ++
        a.peerId))
    else .ok ⟨⟩
  | none => .ok ⟨⟩

/-- What the loop does with a message.  Those for other jobs on a shared socket are not ours. -/
def act (jobId : Uuid) (s : Running) (m : WorkerMessage) : Running :=
  match m with
  | .peerAnnounce a =>
    match checkAnnounce c a with
    | .error e => s.fail e
    | .ok _ => s.forward m
  | m =>
    if (jobIdOf m).any (· ≠ jobId) then s
    else
      let marked :=
        match m with
        | .jobResult _ => { s with gotResult := true }
        | .jobStatus u => { s with saidWhy := s.saidWhy || u.status = JobStatus.failed }
        | _ => s
      let terminal :=
        match m with
        | .jobStatus u => isTerminal u.status
        | _ => false
      if terminal then (marked.forward m).finish nothing else marked.forward m

def runJob (submit : JobSubmit) (es : List (Event Frame)) : Running :=
  runFrom submit.jobId nothing (next U S) (act c submit.jobId) (opened U S c submit) es

end Ws

namespace Libp2p

open P2p (Outcome fromUtf8 maxLineBytes)

def nothing : Text := "peer closed the stream without a result".toList

/-- The decoder's own words about a line that is not text are left out. -/
def next : Outcome → Next
  | .line text =>
    match fromUtf8 text with
    | some line => nextOf (WorkerMessage.parse U S line)
    | none => .failed (.net "stream: not utf-8".toList)
  | .notUtf8 _ => .failed (.net "stream: not utf-8".toList)
  | .tooLong => .failed (.net s!"stream: peer sent more than {maxLineBytes} bytes without a newline".toList)
  | .ended => .closed

/-- A connection is already authenticated, so the pinned key is checked against who was dialled as well. -/
def checkAnnounce (dialled : Option Text) (a : PeerAnnounce) : Except AppError Unit :=
  [("connection", dialled), ("announce", some a.peerId)].forM fun (what, actual) =>
    match c.expectPublicKey, actual with
    | some expected, some actual =>
      if !eqIgnoreAsciiCase expected actual then
        .error (.net ("peer key mismatch: pinned ".toList ++ expected ++ ", ".toList ++ what.toList ++
          " says ".toList ++ actual))
      else .ok ⟨⟩
    | _, _ => .ok ⟨⟩

def act (dialled : Option Text) (jobId : Uuid) (s : Running) (m : WorkerMessage) : Running :=
  match m with
  | .peerAnnounce a =>
    match checkAnnounce c dialled a with
    | .error e => s.fail e
    | .ok _ => s.forward m
  | .jobResult r => if r.jobId = jobId then { s with gotResult := true }.forward m else s
  | .jobStatus u =>
    if u.jobId = jobId then
      let marked := { s with saidWhy := s.saidWhy || u.status = JobStatus.failed }
      if isTerminal u.status then (marked.forward m).finish nothing else marked.forward m
    else s
  | .jobDelta d => if d.jobId = jobId then s.forward m else s
  | .jobInvoice i => if i.jobId = jobId then s.forward m else s
  | .unknown => s

def runJob (dialled : Option Text) (submit : JobSubmit) (es : List (Event Outcome)) : Running :=
  runFrom submit.jobId nothing (next U S) (act c dialled submit.jobId) (opened U S c submit) es

end Libp2p

end Rootmode.Transport
