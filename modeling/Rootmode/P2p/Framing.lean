import Rootmode.Lib.Bytes
import Rootmode.Lib.Lines
import Rootmode.Lib.Transition

namespace Rootmode.P2p

open Lib Lib.Lines Lib.Transition

def newline : UInt8 := 10

/-- The frame cap of the other transport. -/
def maxLineBytes : ℕ := 64 * 1024 * 1024

/-- The two loops that read lines while other things may happen. -/
inductive Loop
  | serveStream | runJob
  deriving DecidableEq

inductive Phase
  | reading
  /-- The stream has ended. -/
  | ended
  /-- The loop was left for a reason of its own: a failed write, a final status, a deadline. -/
  | left
  /-- A line was refused. -/
  | failed
  deriving DecidableEq

structure State where
  phase : Phase
  /-- What the buffered reader holds and nobody has consumed. -/
  buffer : Bytes
  /-- What the `recv` at hand has of its line.  It lives in the future, and goes with it. -/
  line : Bytes
  /-- The peer has closed its end. -/
  closed : Bool
  /-- A job was asked to stop. -/
  asked : Bool
  /-- There may be more replies to send. -/
  replies : Bool
  /-- The lines handed on. -/
  delivered : List Bytes
  /-- All the bytes the stream has given. -/
  inbound : Bytes
  deriving DecidableEq

def start : State where
  phase := .reading
  buffer := []
  line := []
  closed := false
  asked := false
  replies := true
  delivered := []
  inbound := []

namespace State

variable (s : State)

/-- A line is over. -/
def finish (buf rest : Bytes) : State :=
  if buf.toByteArray.IsValidUTF8 then
    { s with line := [], buffer := rest, delivered := s.delivered ++ [buf] }
  else { s with phase := .failed }

/-- One turn of `recv` on what the reader holds. -/
def consume : State :=
  match cut newline s.buffer with
  | some (chunk, rest) => s.finish (s.line ++ chunk) rest
  | none =>
    let buf := s.line ++ s.buffer
    if maxLineBytes < buf.length then { s with phase := .failed }
    else { s with line := buf, buffer := [] }

/-- Another branch of the select is taken: the future that was reading is dropped. -/
def drop : State := { s with line := [] }

end State

inductive Act
  /-- The reader is empty, and the stream gives a chunk. -/
  | chunk (c : Bytes)
  /-- The reader still holds what came after the last line. -/
  | resume
  | eof
  | outbound | stop | reply | repliesEnd
  | leave
  deriving DecidableEq

inductive Step : Loop → Labelled State Act
  | chunk {loop s} {c : Bytes} : s.phase = .reading → s.closed = false → s.buffer = [] → c ≠ [] →
      Step loop s (.chunk c) { s with inbound := s.inbound ++ c, buffer := c }.consume
  | resume {loop s} : s.phase = .reading → s.buffer ≠ [] → Step loop s .resume s.consume
  | eof {loop s} : s.phase = .reading → s.buffer = [] →
      Step loop s .eof
        (if s.line = [] then { s with phase := .ended, closed := true }
        else { s with closed := true }.finish s.line [])
  -- a worker writes what its jobs have to say
  | outbound {s} : s.phase = .reading → Step .serveStream s .outbound s.drop
  -- a desktop passes on one stop, and its replies until there are no more
  | stop {s} : s.phase = .reading → s.asked = false →
      Step .runJob s .stop { s.drop with asked := true }
  | reply {s} : s.phase = .reading → s.replies = true → Step .runJob s .reply s.drop
  | repliesEnd {s} : s.phase = .reading → s.replies = true →
      Step .runJob s .repliesEnd { s.drop with replies := false }
  | leave {loop s} : s.phase = .reading → Step loop s .leave { s with phase := .left }

/-- Another branch than the reading one is taken. -/
def Act.interrupts : Act → Prop
  | .outbound | .stop | .reply | .repliesEnd => True
  | _ => False

/-- The reading branch is only left between lines. -/
def BetweenLines (s : State) (a : Act) : Prop := a.interrupts → s.line = []

/-- A line that may be sent. -/
structure Sendable (l : Bytes) : Prop where
  short : l.length ≤ maxLineBytes
  utf8 : l.toByteArray.IsValidUTF8

/-- A stream of lines that may be sent is read without error, the lines handed on are its lines so
far, and all of them when it ends. -/
def Delivers (s : State) : Prop :=
  (∀ l ∈ lines newline s.inbound, Sendable l) →
    s.phase ≠ .failed ∧ s.delivered <+: lines newline s.inbound ∧
      (s.phase = .ended → s.delivered = lines newline s.inbound)

def LosesNothing (loop : Loop) : Prop := ∀ s, Runs (Step loop) start s → Delivers s

/-- What was handed on is all that came before the line at hand. -/
structure State.Exact (s : State) : Prop where
  within : newline ∉ s.line
  split : ∃ before, s.inbound = before ++ (s.line ++ s.buffer) ∧
    ∀ tail, (s.closed = true → tail = []) →
      lines newline (before ++ tail) = s.delivered ++ lines newline tail
  done : s.phase = .ended → s.line = [] ∧ s.buffer = []
  quiet : s.closed = true → s.line = [] ∧ s.buffer = []

/-- Either nothing is lost so far, or a line was refused that may not be sent. -/
def State.Sound (s : State) : Prop :=
  if s.phase = .failed then ∃ l ∈ lines newline s.inbound, ¬ Sendable l else s.Exact

theorem start_sound : start.Sound := by
  rw [State.Sound, if_neg (by decide)]
  refine ⟨List.not_mem_nil, ⟨[], rfl, fun _ _ => rfl⟩, nofun, nofun⟩

section Steps

variable {loop : Loop} {s s' : State} {a : Act}

theorem State.Sound.delivers (h : s.Sound) : Delivers s := by
  intro hgood
  rw [State.Sound] at h
  split at h
  · next hfailed =>
    obtain ⟨l, hl, hbad⟩ := h
    exact absurd (hgood l hl) hbad
  · next hfailed =>
    obtain ⟨before, hinbound, hlines⟩ := h.split
    have hall := hlines (s.line ++ s.buffer) (fun hclosed => by
      rw [(h.quiet hclosed).1, (h.quiet hclosed).2, List.append_nil])
    rw [← hinbound] at hall
    refine ⟨hfailed, ⟨_, hall.symm⟩, ?_⟩
    intro hended
    rw [(h.done hended).1, (h.done hended).2, List.append_nil, lines_nil, List.append_nil] at hall
    exact hall.symm

theorem State.Exact.sound (h : s.Exact) (hphase : s.phase ≠ .failed) : s.Sound := by
  rw [State.Sound, if_neg hphase]
  exact h

/-- A line that is over is the next of the stream's lines. -/
theorem State.finish_sound {buf rest : Bytes} (hphase : s.phase = .reading)
    (hmem : buf ∈ lines newline s.inbound)
    (hexact : { s with line := [], buffer := rest, delivered := s.delivered ++ [buf] }.Exact) :
    (s.finish buf rest).Sound := by
  rw [State.finish]
  split
  · apply hexact.sound
    rw [hphase]
    decide
  · next hbad =>
    rw [State.Sound, if_pos rfl]
    exact ⟨buf, hmem, fun hgood => hbad hgood.utf8⟩

theorem State.Exact.consume (h : s.Exact) (hphase : s.phase = .reading) (hbuffer : s.buffer ≠ []) :
    s.consume.Sound := by
  have hopen : s.closed = false := by
    cases hclosed : s.closed with
    | false => rfl
    | true => exact absurd (h.quiet hclosed).2 hbuffer
  have hnotDone : s.phase ≠ .ended := by
    rw [hphase]
    decide
  obtain ⟨before, hinbound, hlines⟩ := h.split
  have hany (tail : Bytes) : lines newline (before ++ tail) = s.delivered ++ lines newline tail :=
    hlines tail (fun hclosed => by rw [hopen] at hclosed; cases hclosed)
  rw [State.consume]
  split
  · next chunk rest hcut =>
    obtain ⟨hsplit, hchunk⟩ := cut_eq_some hcut
    have hwithin : newline ∉ s.line ++ chunk := by
      rw [List.mem_append, not_or]
      exact ⟨h.within, hchunk⟩
    have hinbound' : s.inbound = before ++ ((s.line ++ chunk) ++ newline :: rest) := by
      rw [hinbound, hsplit, List.append_assoc]
    apply State.finish_sound hphase
    · rw [hinbound', hany, lines_line hwithin]
      exact List.mem_append_right _ List.mem_cons_self
    · refine ⟨List.not_mem_nil, ⟨before ++ ((s.line ++ chunk) ++ [newline]), ?_, ?_⟩, ?_, ?_⟩
      · simp [hinbound']
      · intro tail _
        have hnext : before ++ ((s.line ++ chunk) ++ [newline]) ++ tail =
            before ++ ((s.line ++ chunk) ++ newline :: tail) := by simp
        rw [hnext, hany, lines_line hwithin, List.append_assoc, List.singleton_append]
      · exact fun hended => absurd hended hnotDone
      · intro hclosed
        rw [hopen] at hclosed
        cases hclosed
  · next hcut =>
    have hwithin : newline ∉ s.line ++ s.buffer := by
      rw [List.mem_append, not_or]
      exact ⟨h.within, cut_eq_none hcut⟩
    dsimp only
    split
    · next hlong =>
      rw [State.Sound, if_pos rfl]
      refine ⟨s.line ++ s.buffer, ?_, fun hgood => absurd hgood.short (not_le.mpr hlong)⟩
      rw [hinbound, hany, lines_rest hwithin (List.append_ne_nil_of_right_ne_nil _ hbuffer)]
      exact List.mem_append_right _ List.mem_cons_self
    · refine State.Exact.sound ⟨hwithin, ⟨before, ?_, hlines⟩, ?_, ?_⟩ ?_
      · rw [hinbound, List.append_nil]
      · exact fun hended => absurd hended hnotDone
      · intro hclosed
        rw [hopen] at hclosed
        cases hclosed
      · rw [hphase]
        decide

theorem State.Sound.exact (h : s.Sound) (hphase : s.phase = .reading) : s.Exact := by
  rw [State.Sound, hphase, if_neg (by decide)] at h
  exact h

theorem drop_of_between (hline : s.line = []) : s.drop = s := by
  rw [State.drop, ← hline]

theorem State.Exact.chunk (h : s.Exact) (hphase : s.phase = .reading) (hopen : s.closed = false)
    (hbuffer : s.buffer = []) (c : Bytes) :
    { s with inbound := s.inbound ++ c, buffer := c }.Exact := by
  obtain ⟨before, hinbound, hlines⟩ := h.split
  refine ⟨h.within, ⟨before, ?_, hlines⟩, ?_, ?_⟩
  · rw [hinbound, hbuffer, List.append_nil, List.append_assoc]
  · intro hended
    rw [hphase] at hended
    cases hended
  · intro hclosed
    rw [hopen] at hclosed
    cases hclosed

/-- The stream ends in the middle of a line. -/
theorem State.Exact.eof (h : s.Exact) (hphase : s.phase = .reading) (hbuffer : s.buffer = [])
    (hline : s.line ≠ []) : ({ s with closed := true }.finish s.line []).Sound := by
  obtain ⟨before, hinbound, hlines⟩ := h.split
  rw [hbuffer, List.append_nil] at hinbound
  have hall : lines newline s.inbound = s.delivered ++ [s.line] := by
    rw [hinbound, hlines s.line (fun hclosed => absurd (h.quiet hclosed).1 hline),
      lines_rest h.within hline]
  have hreading : { s with closed := true }.phase = .reading := hphase
  apply State.finish_sound hreading
  · rw [hall]
    exact List.mem_append_right _ List.mem_cons_self
  · refine ⟨List.not_mem_nil, ⟨s.inbound, ?_, ?_⟩, fun _ => ⟨rfl, rfl⟩, fun _ => ⟨rfl, rfl⟩⟩
    · rw [List.append_nil, List.append_nil]
    · intro tail hnone
      rw [hnone rfl, List.append_nil, lines_nil, List.append_nil]
      exact hall

/-- Reading goes on exactly, whatever else happens between two lines. -/
theorem Step.sound (hbetween : BetweenLines s a) (h : Step loop s a s') (hs : s.Sound) : s'.Sound := by
  cases h with
  | @chunk _ _ c hphase hopen hbuffer hne =>
    exact ((hs.exact hphase).chunk hphase hopen hbuffer c).consume hphase hne
  | resume hphase hbuffer => exact (hs.exact hphase).consume hphase hbuffer
  | eof hphase hbuffer =>
    have hexact := hs.exact hphase
    split
    · next hline =>
      obtain ⟨before, hinbound, hlines⟩ := hexact.split
      apply State.Exact.sound
      · exact ⟨hexact.within, ⟨before, hinbound, fun tail hnone => hlines tail fun _ => hnone rfl⟩,
          fun _ => ⟨hline, hbuffer⟩, fun _ => ⟨hline, hbuffer⟩⟩
      · exact nofun
    · next hline => exact hexact.eof hphase hbuffer hline
  | outbound hphase =>
    rw [drop_of_between (hbetween trivial)]
    exact hs
  | stop hphase hasked =>
    have hexact := hs.exact hphase
    rw [drop_of_between (hbetween trivial)]
    have hexact' : { s with asked := true }.Exact :=
      ⟨hexact.within, hexact.split, hexact.done, hexact.quiet⟩
    exact hexact'.sound fun hfailed => by cases hphase.symm.trans hfailed
  | reply hphase hreplies =>
    rw [drop_of_between (hbetween trivial)]
    exact hs
  | repliesEnd hphase hreplies =>
    have hexact := hs.exact hphase
    rw [drop_of_between (hbetween trivial)]
    have hexact' : { s with replies := false }.Exact :=
      ⟨hexact.within, hexact.split, hexact.done, hexact.quiet⟩
    exact hexact'.sound fun hfailed => by cases hphase.symm.trans hfailed
  | leave hphase =>
    have hexact := hs.exact hphase
    exact State.Exact.sound ⟨hexact.within, hexact.split, nofun, hexact.quiet⟩ nofun

end Steps

/-- A loop that only turns to other things between lines hands on exactly the lines of the stream. -/
theorem delivers_of_betweenLines {loop : Loop} {s : State}
    (h : Runs (restrict (Step loop) BetweenLines) start s) : Delivers s := by
  have hsound : s.Sound := h.invariant (fun ha => Step.sound ha.1 ha.2) start_sound
  exact hsound.delivers

section Braces

/-- The first half of a line has been read. -/
def halfway : State := { start with line := [123], inbound := [123] }

/-- The line is read to its end. -/
def whole : State := { start with delivered := [[123, 125]], inbound := [123, 125, 10] }

/-- Something else came up halfway through it. -/
def forgotten (asked : Bool) : State := { halfway with line := [], asked }

/-- Only the second half is handed on. -/
def half (asked : Bool) : State :=
  { start with delivered := [[125]], inbound := [123, 125, 10], asked }

variable {loop : Loop} {asked : Bool}

theorem step_halfway : Step loop start (.chunk [123]) halfway :=
  .chunk rfl rfl rfl (by decide)

theorem step_whole : Step loop halfway (.chunk [125, 10]) whole := by
  have hstep : Step loop halfway (.chunk [125, 10])
      { halfway with inbound := [123] ++ [125, 10], buffer := [125, 10] }.consume :=
    .chunk rfl rfl rfl (by decide)
  have hline : { halfway with inbound := [123] ++ [125, 10], buffer := [125, 10] }.consume = whole := by
    decide
  rwa [hline] at hstep

theorem step_half : Step loop (forgotten asked) (.chunk [125, 10]) (half asked) := by
  have hstep : Step loop (forgotten asked) (.chunk [125, 10])
      { forgotten asked with inbound := [123] ++ [125, 10], buffer := [125, 10] }.consume :=
    .chunk rfl rfl rfl (by decide)
  have hline : { forgotten asked with inbound := [123] ++ [125, 10], buffer := [125, 10] }.consume =
      half asked := by
    cases asked <;> decide
  rwa [hline] at hstep

theorem delivers_whole : Delivers whole := by
  have hhalfway : Runs (restrict (Step .serveStream) BetweenLines) start halfway :=
    .single ⟨by rintro ⟨⟩, step_halfway⟩
  have hwhole := hhalfway.tail ⟨by rintro ⟨⟩, step_whole⟩
  exact delivers_of_betweenLines hwhole

theorem loses_half (hrun : Runs (Step loop) start (forgotten asked)) : ¬ LosesNothing loop := by
  intro h
  have hdelivers := h _ (hrun.tail step_half)
  have hgood : ∀ l ∈ lines newline (half asked).inbound, Sendable l := by
    intro l hl
    obtain rfl : l = [123, 125] := List.mem_singleton.mp hl
    exact ⟨by decide, by decide⟩
  have hprefix : (half asked).delivered <+: lines newline (half asked).inbound := (hdelivers hgood).2.1
  cases asked <;> exact absurd hprefix (by decide)

/-- A message to write, or a stop to pass on, loses the half of a line that is read already. -/
theorem interrupted_line_lost : ¬ LosesNothing .serveStream ∧ ¬ LosesNothing .runJob := by
  constructor
  · have hrun : Runs (Step .serveStream) start halfway := .single step_halfway
    exact loses_half (hrun.tail (.outbound rfl))
  · have hrun : Runs (Step .runJob) start halfway := .single step_halfway
    exact loses_half (hrun.tail (.stop rfl rfl))

end Braces

end Rootmode.P2p
