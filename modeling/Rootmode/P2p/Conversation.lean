import Rootmode.Core.WorkerWire
import Rootmode.Lib.OneLine
import Rootmode.P2p.Reads
import Rootmode.Worker.Authorize

namespace Rootmode.P2p

open Lib Lib.Lines Rootmode.Protocol Rootmode.WorkerWire

section Send

variable (S : SerdeJson)

/-- What is written for a message, and flushed. -/
def send (message : Json) : Bytes := Hex.utf8 (wireJson S message) ++ [newline]

end Send

/-- The text that the bytes of a line are. -/
def fromUtf8 (buf : Bytes) : Option Text := buf.toByteArray.utf8Decode?.map Array.toList

/-- What a caller hears that parses the lines. -/
inductive Heard (M : Type)
  | parsed (message : Except CoreError M)
  | failed
  | ended

def Outcome.heard {M : Type} (parse : Text → Except CoreError M) : Outcome → Heard M
  | .line text =>
    match fromUtf8 text with
    | some t => .parsed (parse t)
    | none => .failed
  | .notUtf8 _ | .tooLong => .failed
  | .ended => .ended

/-- What is heard of a stream that carries whole messages. -/
def heardWhole {M : Type} (ms : List M) : List (Heard M) := ms.map (fun m => .parsed (.ok m)) ++ [.ended]

variable {U : UuidFormat} {S : SerdeJson} {M : Type} {reads : List Bytes} {vs : List Json}

/-- A text that goes over the stream as one line. -/
structure Line (t : Text) : Prop where
  within : '\n' ∉ t
  short : (Hex.utf8 t).length ≤ maxLineBytes

theorem fromUtf8_utf8 (t : Text) : fromUtf8 (Hex.utf8 t) = some t := by
  have hdecode : (Hex.utf8 t).toByteArray.utf8Decode? = some t.toArray := List.utf8Decode?_utf8Encode
  rw [fromUtf8, hdecode]
  rfl

theorem finish_utf8 (t : Text) : finish (Hex.utf8 t) = .line (Hex.utf8 t) := if_pos ⟨t, rfl⟩

theorem heard_finish (parse : Text → Except CoreError M) (t : Text) :
    (finish (Hex.utf8 t)).heard parse = .parsed (parse t) := by
  rw [finish_utf8, Outcome.heard, fromUtf8_utf8]

theorem newline_ne_digit : ∀ n : Fin 16, Hex.digit n ≠ '\n' := by decide

theorem newline_not_mem_pair (d : UInt8) : '\n' ∉ Hex.pair d := by
  have hd := d.toNat_lt
  rw [Hex.pair, List.mem_cons, List.mem_singleton]
  rintro (h | h)
  · exact newline_ne_digit ⟨d.toNat / 16, by omega⟩ h.symm
  · exact newline_ne_digit ⟨d.toNat % 16, by omega⟩ h.symm

theorem newline_not_mem_escape (c : Char) : '\n' ∉ escape c := by
  unfold escape
  split
  · decide
  split
  · decide
  split
  · decide
  split
  · decide
  split
  · decide
  split
  · decide
  split
  · decide
  split
  · exact List.not_mem_append (by decide) (newline_not_mem_pair _)
  · next hnewline _ _ _ =>
    rw [List.mem_singleton]
    rintro rfl
    exact hnewline rfl

theorem avoids_newline (hS : ∀ x, '\n' ∉ S.float x) : Json.Printer.Avoids ⟨S.float, escape⟩ '\n' where
  control := by decide
  float := hS
  escape := newline_not_mem_escape

/-- What is sent is read a line a message, however the stream cuts it. -/
theorem recvAll_sent (hlines : ∀ v ∈ vs, Line (wireJson S v)) (hreads : reads.flatten = vs.flatMap (send S)) :
    recvAll reads = vs.map (fun v => finish (Hex.utf8 (wireJson S v))) ++ [.ended] := by
  induction vs generalizing reads with
  | nil =>
    have hcut : cut newline reads.flatten = none := by
      rw [hreads]
      rfl
    rw [recvAll_of_none hcut, hreads]
    rfl
  | cons v vs ih =>
    have hline := hlines v (.head _)
    have hcut : cut newline reads.flatten = some (Hex.utf8 (wireJson S v), vs.flatMap (send S)) := by
      rw [hreads, List.flatMap_cons, send, List.append_assoc]
      exact cut_line (Hex.newline_not_mem_utf8 hline.within)
    obtain ⟨reads', hall, hafter⟩ := recvAll_short hcut hline.short
    rw [hall, ih (fun w hw => hlines w (.tail _ hw)) hafter.flatten]
    rfl

theorem heard_sent {parse : Text → Except CoreError M} {encode : M → Json} {ms : List M}
    (hlines : ∀ m ∈ ms, Line (wireJson S (encode m))) (hparse : ∀ m ∈ ms, parse (wireJson S (encode m)) = .ok m)
    (hreads : reads.flatten = ms.flatMap fun m => send S (encode m)) :
    (recvAll reads).map (Outcome.heard parse) = heardWhole ms := by
  have hall : reads.flatten = (ms.map encode).flatMap (send S) := by
    rw [hreads, List.flatMap_map]
  rw [recvAll_sent (List.forall_mem_map.mpr hlines) hall, List.map_append, List.map_map, List.map_map]
  apply congrArg (· ++ [Heard.ended])
  apply List.map_congr_left
  intro m hm
  exact (heard_finish parse _).trans (congrArg Heard.parsed (hparse m hm))

/-- What either side sends the other reads, message by message, and then the end of the stream, however the bytes
are cut on the way. -/
theorem conversation (hS : ∀ x, '\n' ∉ S.float x) {sent : List ClientMessage} {answers : List WorkerMessage}
    {requests replies : List Bytes} (hsent : ∀ m ∈ sent, m.Sendable U S) (hanswers : ∀ m ∈ answers, m.Sendable U S)
    (hrequests : requests.flatten = sent.flatMap fun m => send S (m.encode U))
    (hreplies : replies.flatten = answers.flatMap fun m => send S (m.encode U)) :
    (recvAll requests).map (Outcome.heard (ClientMessage.parse U S)) = heardWhole sent ∧
      (recvAll replies).map (Outcome.heard (WorkerMessage.parse U S)) = heardWhole answers := by
  have hline : ∀ v, (Hex.utf8 (wireJson S v)).length ≤ maxMessageBytes → Line (wireJson S v) := fun v hshort =>
    ⟨(avoids_newline hS).not_mem_render v, hshort⟩
  constructor
  · exact heard_sent (fun m hm => hline _ (hsent m hm).short) (fun m hm => (hsent m hm).parse) hrequests
  · exact heard_sent (fun m hm => hline _ (hanswers m hm).short) (fun m hm => (hanswers m hm).parse) hreplies

section Cases

def helloFrom : ClientMessage := .peerHello ⟨1, "ab".toList⟩

def announceOf : WorkerMessage := .peerAnnounce ⟨1, "cd".toList, none, none, [], [], 1, none⟩

/-- Reads what is printed of the two. -/
def reader : SerdeJson where
  float _ := "0.5".toList
  fromStr t := [helloFrom.encode hyphenated, announceOf.encode hyphenated].find? fun v =>
    v.render ⟨fun _ => "0.5".toList, escape⟩ = t

theorem newline_not_mem_float (x : Ieee.Finite Ieee.binary64) : '\n' ∉ reader.float x :=
  show '\n' ∉ "0.5".toList by decide

theorem fits_one : (Codec.uint 32).Fits 1 := show 1 < 2 ^ 32 by norm_num

set_option maxRecDepth 4000 in
theorem sendable_hello : helloFrom.Sendable hyphenated reader where
  fits := ⟨fits_one, trivial, trivial⟩
  whole := ⟨trivial, trivial, trivial⟩
  versions := rfl
  short := by decide
  reads := rfl

set_option maxRecDepth 4000 in
theorem sendable_announce : announceOf.Sendable hyphenated reader where
  fits := by
    refine ⟨fits_one, trivial, ?_, ?_, ?_, ?_, fits_one, ?_, trivial⟩
    · exact fun y hy => absurd hy (Option.not_mem_none y)
    · exact fun y hy => absurd hy (Option.not_mem_none y)
    · exact fun y hy => absurd hy List.not_mem_nil
    · exact fun y hy => absurd hy List.not_mem_nil
    · exact fun y hy => absurd hy (Option.not_mem_none y)
  whole := by
    refine ⟨trivial, trivial, ?_, ?_, ?_, ?_, trivial, ?_, trivial⟩
    · exact fun y hy => absurd hy (Option.not_mem_none y)
    · exact fun y hy => absurd hy (Option.not_mem_none y)
    · exact fun y hy => absurd hy List.not_mem_nil
    · exact fun y hy => absurd hy List.not_mem_nil
    · exact fun y hy => absurd hy (Option.not_mem_none y)
  versions := rfl
  short := by decide
  reads := rfl

/-- A byte a read. -/
theorem conversation_bytes :
    (recvAll ((send reader (helloFrom.encode hyphenated)).map fun b => [b])).map
        (Outcome.heard (ClientMessage.parse hyphenated reader)) = heardWhole [helloFrom] ∧
      (recvAll [send reader (announceOf.encode hyphenated)]).map
        (Outcome.heard (WorkerMessage.parse hyphenated reader)) = heardWhole [announceOf] := by
  refine conversation newline_not_mem_float (List.forall_mem_singleton.mpr sendable_hello)
    (List.forall_mem_singleton.mpr sendable_announce) ?_ ?_
  · rw [List.flatMap_singleton, ← List.flatMap_def, List.flatMap_singleton']
  · rw [List.flatMap_singleton, List.flatten_singleton]

end Cases

end Rootmode.P2p
