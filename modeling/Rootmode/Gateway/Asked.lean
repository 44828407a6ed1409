import Rootmode.Desktop.Menu
import Rootmode.Gateway.Peeled
import Rootmode.Gateway.Streamed
import Rootmode.Gateway.Submit
import Rootmode.Lib.Failover

namespace Rootmode.Gateway

open Lib Lib.Text Lib.Checked Lib.Json Lib.Entries Protocol Desktop

section Pattern

/-- Whether a message tells if its provider gave something, where none before did. -/
def Told.telling (msg : Told) : Bool := msg.speaks || msg.nothing.isSome

/-- Whether a message is an answer that says something. -/
def Told.answers : Told → Bool
  | .result r => !r.saysNothing
  | .delta _ _ | .failed _ | .other => false

namespace Exchange

/-- Whether a provider gave something: the first message that tells is a part of an answer, or none
tells and the task ends well. -/
def gives (x : Exchange) : Bool :=
  match x.messages.find? Told.telling with
  | some msg => msg.speaks
  | none => x.ending.out.isOk

/-- Whether a provider answers before it is known to give nothing. -/
def answers (x : Exchange) : Bool :=
  match x.messages.find? Told.telling with
  | some msg =>
    if msg.speaks then x.messages.any Told.answers
    else (x.messages.takeWhile fun msg => !msg.telling).any Told.answers
  | none => x.messages.any Told.answers

end Exchange

/-- Whether nobody is asked after this. -/
def Attempt.gives : Attempt → Bool
  | .unreachable _ => false
  | .refused _ => true
  | .ran x => x.gives

def Attempt.answers : Attempt → Bool
  | .unreachable _ | .refused _ => false
  | .ran x => x.answers

end Pattern

section Forward

variable {msg : Told} {msgs : List Told}

theorem nothing_of_speaks (h : msg.speaks = true) : msg.nothing = none := by
  cases msg with
  | delta text thinking => rfl
  | result r => exact absurd h Bool.false_ne_true
  | failed error => exact absurd h Bool.false_ne_true
  | other => rfl

theorem answers_of_nothing (h : msg.nothing.isSome = true) : msg.answers = false := by
  cases msg with
  | delta text thinking => rfl
  | result r =>
    cases hsays : r.saysNothing with
    | true => rw [Told.answers, hsays]; rfl
    | false => simp [Told.nothing, hsays] at h
  | failed error => rfl
  | other => rfl

/-- Once something has reached the client, everything does. -/
theorem forward_true (msgs : List Told) : forward true msgs = { sent := msgs, spoke := true, withheld := none } := by
  induction msgs with
  | nil => rfl
  | cons msg msgs ih =>
    rw [forward, if_pos rfl, Bool.true_or, ih]

theorem forward_none (h : msgs.find? Told.telling = none) :
    forward false msgs = { sent := msgs, spoke := false, withheld := none } := by
  induction msgs with
  | nil => rfl
  | cons msg msgs ih =>
    rw [List.find?_cons] at h
    cases htelling : msg.telling with
    | true => simp [htelling] at h
    | false =>
      rw [htelling] at h
      obtain ⟨hspeaks, hnothing⟩ := Bool.or_eq_false_iff.mp htelling
      rw [forward, if_neg Bool.false_ne_true, Option.isSome_eq_false_iff.mp hnothing |> Option.isNone_iff_eq_none.mp,
        hspeaks, Bool.or_false, ih h]

theorem forward_speaks {first : Told} (h : msgs.find? Told.telling = some first) (hspeaks : first.speaks = true) :
    forward false msgs = { sent := msgs, spoke := true, withheld := none } := by
  induction msgs with
  | nil => cases h
  | cons msg msgs ih =>
    rw [List.find?_cons] at h
    cases htelling : msg.telling with
    | true =>
      rw [htelling] at h
      cases h
      rw [forward, if_neg Bool.false_ne_true, nothing_of_speaks hspeaks, hspeaks, Bool.or_true, forward_true]
    | false =>
      rw [htelling] at h
      obtain ⟨hsilent, hnothing⟩ := Bool.or_eq_false_iff.mp htelling
      rw [forward, if_neg Bool.false_ne_true, Option.isSome_eq_false_iff.mp hnothing |> Option.isNone_iff_eq_none.mp,
        hsilent, Bool.or_false, ih h]

theorem forward_nothing {first : Told} (h : msgs.find? Told.telling = some first) (hspeaks : first.speaks = false) :
    ∃ why, first.nothing = some why ∧ forward false msgs =
      { sent := msgs.takeWhile fun msg => !msg.telling, spoke := false, withheld := some (why, first) } := by
  induction msgs with
  | nil => cases h
  | cons msg msgs ih =>
    rw [List.find?_cons] at h
    cases htelling : msg.telling with
    | true =>
      rw [htelling] at h
      cases h
      have hnothing : first.nothing.isSome = true := by
        rwa [Told.telling, hspeaks, Bool.false_or] at htelling
      obtain ⟨why, hwhy⟩ := Option.isSome_iff_exists.mp hnothing
      refine ⟨why, hwhy, ?_⟩
      rw [forward, if_neg Bool.false_ne_true, hwhy, List.takeWhile_cons, htelling]
      rfl
    | false =>
      rw [htelling] at h
      obtain ⟨why, hwhy, hrest⟩ := ih h
      obtain ⟨hsilent, hnothing⟩ := Bool.or_eq_false_iff.mp htelling
      refine ⟨why, hwhy, ?_⟩
      rw [forward, if_neg Bool.false_ne_true, Option.isSome_eq_false_iff.mp hnothing |> Option.isNone_iff_eq_none.mp,
        hsilent, Bool.or_false, hrest, List.takeWhile_cons, htelling]
      rfl

namespace Exchange

/-- What a provider's messages come to. -/
def outcome (x : Exchange) : Failover.Outcome Told where
  said := (forward false x.messages).sent
  final := x.gives
  held := ((forward false x.messages).withheld.map Prod.snd).toList

variable {x : Exchange} {first : Told}

theorem outcome_none (h : x.messages.find? Told.telling = none) :
    x.outcome = { said := x.messages, final := x.ending.out.isOk, held := [] } := by
  simp only [outcome, gives, h, forward_none h, Option.map_none, Option.toList_none]

theorem outcome_speaks (h : x.messages.find? Told.telling = some first) (hspeaks : first.speaks = true) :
    x.outcome = { said := x.messages, final := true, held := [] } := by
  simp only [outcome, gives, h, hspeaks, forward_speaks h hspeaks, Option.map_none, Option.toList_none]

theorem outcome_nothing (h : x.messages.find? Told.telling = some first) (hspeaks : first.speaks = false) :
    x.outcome =
      { said := x.messages.takeWhile fun msg => !msg.telling, final := false, held := [first] } := by
  obtain ⟨why, -, hforward⟩ := forward_nothing h hspeaks
  simp only [outcome, gives, h, hspeaks, hforward, Option.map_some, Option.toList_some]

theorem any_said (x : Exchange) : x.outcome.said.any Told.answers = x.answers := by
  unfold answers
  cases hfind : x.messages.find? Told.telling with
  | none => rw [outcome_none hfind]
  | some first =>
    cases hspeaks : first.speaks with
    | true => simp only [outcome_speaks hfind hspeaks, hspeaks, if_true]
    | false => simp only [outcome_nothing hfind hspeaks, hspeaks, Bool.false_eq_true, if_false]

theorem held_silent (x : Exchange) : ∀ msg ∈ x.outcome.held, msg.answers = false := by
  intro msg hmsg
  cases hfind : x.messages.find? Told.telling with
  | none =>
    rw [outcome_none hfind] at hmsg
    cases hmsg
  | some first =>
    cases hspeaks : first.speaks with
    | true =>
      rw [outcome_speaks hfind hspeaks] at hmsg
      cases hmsg
    | false =>
      obtain ⟨why, hwhy, -⟩ := forward_nothing hfind hspeaks
      rw [outcome_nothing hfind hspeaks, List.mem_singleton] at hmsg
      rw [hmsg]
      exact answers_of_nothing (Option.isSome_of_eq_some hwhy)

end Exchange

end Forward

section Serve

variable (W : Network) (params : Protocol.LlmParams)

def Network.outcome (t : Try) : Failover.Outcome Told :=
  match W.attempt params t with
  | .unreachable _ => { said := [], final := false, held := [] }
  | .refused _ => { said := [], final := true, held := [] }
  | .ran x => x.outcome

variable {W params} {tries : List Try} {t : Try}

theorem final_outcome : (W.outcome params t).final = (W.attempt params t).gives := by
  unfold Network.outcome Attempt.gives
  cases W.attempt params t with
  | unreachable e => rfl
  | refused e => rfl
  | ran x => rfl

theorem any_outcome_said : (W.outcome params t).said.any Told.answers = (W.attempt params t).answers := by
  unfold Network.outcome Attempt.answers
  cases W.attempt params t with
  | unreachable e => rfl
  | refused e => rfl
  | ran x => exact x.any_said

theorem outcome_held (t : Try) : ∀ msg ∈ (W.outcome params t).held, msg.answers = false := by
  unfold Network.outcome
  cases W.attempt params t with
  | unreachable e => exact fun msg hmsg => absurd hmsg List.not_mem_nil
  | refused e => exact fun msg hmsg => absurd hmsg List.not_mem_nil
  | ran x => exact x.held_silent

/-- What reaches the client is what those who are asked say. -/
theorem serve_heard (last : String) : (W.serve params tries last).1 = Failover.heard (W.outcome params) tries := by
  induction tries generalizing last with
  | nil => rfl
  | cons t tries ih =>
    rw [Network.serve, Failover.heard, Network.outcome]
    cases W.attempt params t with
    | refused e => rfl
    | unreachable e =>
      cases tries with
      | nil => rfl
      | cons u tries => exact ih e.text
    | ran x =>
      cases hfind : x.messages.find? Told.telling with
      | none =>
        simp only [Exchange.outcome_none hfind, forward_none hfind]
        cases x.ending.out with
        | ok u => exact (List.append_nil _).symm
        | error e =>
          cases tries with
          | nil => exact (List.append_nil _).symm
          | cons u tries => exact congrArg _ (ih e.text)
      | some first =>
        cases hspeaks : first.speaks with
        | true =>
          simp only [Exchange.outcome_speaks hfind hspeaks, forward_speaks hfind hspeaks]
          cases x.ending.out with
          | ok u => exact (List.append_nil _).symm
          | error e => exact (List.append_nil _).symm
        | false =>
          obtain ⟨why, -, hforward⟩ := forward_nothing hfind hspeaks
          simp only [Exchange.outcome_nothing hfind hspeaks, hforward]
          cases tries with
          | nil => rfl
          | cons u tries => exact congrArg _ (ih why)

end Serve

section Blank

variable {t : Text} {ls : List Text}

theorem find_eq_none_of_not_mem {needle : Text} {c : Char} (hneedle : c ∈ lower needle) (h : c ∉ lower t) :
    findIgnoreAsciiCase needle t = none := by
  induction t with
  | nil => rfl
  | cons d t ih =>
    have htail : c ∉ lower t := fun hmem => h (List.mem_cons_of_mem _ hmem)
    have hhead : ¬ eqIgnoreAsciiCase ((d :: t).take needle.length) needle = true := by
      intro heq
      rw [eqIgnoreAsciiCase_iff] at heq
      rw [← heq] at hneedle
      obtain ⟨e, he, rfl⟩ := List.mem_map.mp hneedle
      exact h (List.mem_map_of_mem (List.mem_of_mem_take he))
    rw [findIgnoreAsciiCase, if_neg hhead, ih htail, Option.map_none]

theorem cutTag_eq_self {opening closing : Text} (h : findIgnoreAsciiCase opening t = none) (fuel : ℕ) :
    cutTag opening closing fuel t = t := by
  cases fuel with
  | zero => rfl
  | succ fuel => rw [cutTag, h]

theorem withoutThinking_of_not_mem (h : '<' ∉ lower t) : withoutThinking t = t := by
  have hthink : findIgnoreAsciiCase "<think>".toList t = none := find_eq_none_of_not_mem (c := '<') (by decide) h
  have hthinking : findIgnoreAsciiCase "<thinking>".toList t = none :=
    find_eq_none_of_not_mem (c := '<') (by decide) h
  rw [withoutThinking, thinkingTags, List.foldl_cons, List.foldl_cons, List.foldl_nil, withoutTag, withoutTag,
    cutTag_eq_self hthink, cutTag_eq_self hthinking]

theorem out_blank {c : Collapsed} (hout : c.out = []) (h : ∀ l ∈ ls, trim l = []) :
    (ls.foldl Collapsed.line c).out = [] := by
  induction ls generalizing c with
  | nil => exact hout
  | cons l ls ih =>
    refine ih ?_ fun l hl => h l (List.mem_cons_of_mem _ hl)
    rw [Collapsed.line, if_pos (h l List.mem_cons_self)]
    exact (if_neg fun hboth => hboth.2 hout).trans hout

/-- A blank text is no answer. -/
theorem peelThinking_blank (h : trim t = []) : peelThinking t = [] := by
  rw [trim_eq_nil] at h
  have hplain : '<' ∉ lower t := by
    intro hmem
    obtain ⟨c, hc, heq⟩ := List.mem_map.mp hmem
    rw [isWhitespace_toLower (h c hc)] at heq
    have hspace := h c hc
    rw [heq] at hspace
    revert hspace
    decide
  have hlines : ∀ l ∈ lines t, trim l = [] := by
    intro l hl
    rw [trim_eq_nil]
    intro c hc
    by_contra hword
    rw [Bool.not_eq_true] at hword
    have hinfix := (infix_lines (List.forall_mem_singleton.mpr hword) (List.cons_ne_nil c [])).mp
      ⟨l, hl, (List.singleton_infix_iff c l).mpr hc⟩
    rw [h c ((List.singleton_infix_iff c t).mp hinfix)] at hword
    cases hword
  rw [peelThinking, withoutThinking_of_not_mem hplain, collapseBlankLines, out_blank rfl hlines]
  rfl

variable {M : Measures} {params : Protocol.LlmParams} {r : JobResult} {a : Answer}

theorem buildAnswer_says (h : buildAnswer M params r = .ok a) : r.saysNothing = false := by
  obtain ⟨htext, hcalls⟩ := buildAnswer_text h
  rw [JobResult.saysNothing, Bool.and_eq_false_iff, List.isEmpty_eq_false_iff, List.isEmpty_eq_false_iff]
  refine (buildAnswer_speaks h).imp (fun hne hblank => hne ?_) fun hne => hcalls ▸ hne
  rw [htext, peelThinking_blank hblank]

end Blank

section Delivered

variable (M : Measures) (params : Protocol.LlmParams) (heard : List (Try × Told)) (a : Answer) (t : Try)

/-- An answer is what a provider sent last as a result. -/
def Delivered : Prop := ∃ before r after, heard = before ++ (t, .result r) :: after ∧
  (∀ e ∈ after, ∀ r, e.2 ≠ .result r) ∧ buildAnswer M params r = .ok a

/-- An answer is what a provider sent first as a result, before any failure. -/
def DeliveredLive : Prop := ∃ before r after, heard = before ++ (t, .result r) :: after ∧
  (∀ e ∈ before, ∀ r error, e.2 ≠ .result r ∧ e.2 ≠ .failed error) ∧ buildAnswer M params r = .ok a

variable {M params heard a t} {seen : Option Answer × Option String} {failure : Option String}

theorem answers_result {r : JobResult} (h : buildAnswer M params r = .ok a) : (Told.result r).answers = true := by
  rw [Told.answers, buildAnswer_says h]
  rfl

theorem filter_result {r : JobResult} (h : buildAnswer M params r = .ok a) (rest : List (Try × Told)) :
    ((t, Told.result r) :: rest).filter (Told.answers ·.2) = (t, .result r) :: rest.filter (Told.answers ·.2) := by
  rw [List.filter_cons]
  exact if_pos (answers_result h)

theorem not_answers {msg : Told} (h : ∀ r, msg ≠ .result r) : msg.answers = false := by
  cases msg with
  | delta text thinking => rfl
  | result r => exact absurd rfl (h r)
  | failed error => rfl
  | other => rfl

theorem Delivered.last (h : Delivered M params heard a t) :
    ((heard.filter (Told.answers ·.2)).getLast?).map Prod.fst = some t := by
  obtain ⟨before, r, after, rfl, hafter, hbuild⟩ := h
  have hnone : after.filter (Told.answers ·.2) = [] := by
    rw [List.filter_eq_nil_iff]
    intro e he
    rw [not_answers (hafter e he)]
    exact Bool.false_ne_true
  rw [List.filter_append, filter_result hbuild, hnone, List.getLast?_concat]
  rfl

theorem DeliveredLive.first (h : DeliveredLive M params heard a t) :
    ((heard.filter (Told.answers ·.2)).head?).map Prod.fst = some t := by
  obtain ⟨before, r, after, rfl, hbefore, hbuild⟩ := h
  have hnone : before.filter (Told.answers ·.2) = [] := by
    rw [List.filter_eq_nil_iff]
    intro e he
    rw [not_answers fun r => (hbefore e he r none).1]
    exact Bool.false_ne_true
  rw [List.filter_append, hnone, List.nil_append, filter_result hbuild, List.head?_cons]
  rfl

theorem Delivered.cons {e : Try × Told} (h : Delivered M params heard a t) :
    Delivered M params (e :: heard) a t := by
  obtain ⟨before, r, after, rfl, hafter, hbuild⟩ := h
  exact ⟨e :: before, r, after, rfl, hafter, hbuild⟩

/-- The answer of a call that does not stream is some provider's. -/
theorem gather_delivered
    (h : gather M params (heard.map fun e => e.2.message) seen = .ok (some a, failure)) :
    (∃ t, Delivered M params heard a t) ∨ seen.1 = some a ∧ ∀ e ∈ heard, ∀ r, e.2 ≠ .result r := by
  induction heard generalizing seen with
  | nil =>
    cases h
    exact .inr ⟨rfl, fun e he => absurd he List.not_mem_nil⟩
  | cons e heard ih =>
    obtain ⟨t, msg⟩ := e
    cases msg with
    | result r =>
      simp only [List.map_cons, Told.message, gather, bind_eq_ok] at h
      obtain ⟨a', hbuild, hrest⟩ := h
      rcases ih hrest with ⟨u, hu⟩ | ⟨hseen, hnone⟩
      · exact .inl ⟨u, hu.cons⟩
      · cases hseen
        exact .inl ⟨t, [], r, heard, rfl, hnone, hbuild⟩
    | delta text thinking =>
      rcases @ih seen h with ⟨u, hu⟩ | ⟨hseen, hnone⟩
      · exact .inl ⟨u, hu.cons⟩
      · refine .inr ⟨hseen, List.forall_mem_cons.mpr ⟨fun r => Told.noConfusion, hnone⟩⟩
    | failed error =>
      rcases @ih (seen.1, some (error.getD "provider failed the job")) h with ⟨u, hu⟩ | ⟨hseen, hnone⟩
      · exact .inl ⟨u, hu.cons⟩
      · refine .inr ⟨hseen, List.forall_mem_cons.mpr ⟨fun r => Told.noConfusion, hnone⟩⟩
    | other =>
      rcases @ih seen h with ⟨u, hu⟩ | ⟨hseen, hnone⟩
      · exact .inl ⟨u, hu.cons⟩
      · refine .inr ⟨hseen, List.forall_mem_cons.mpr ⟨fun r => Told.noConfusion, hnone⟩⟩

theorem run_delivered {runner : Runner} (h : run M params (heard.map fun e => e.2.message) runner = .ok a) :
    ∃ t, Delivered M params heard a t := by
  rw [run, bind_eq_ok] at h
  obtain ⟨⟨answer, failure⟩, hgather, h⟩ := h
  cases answer with
  | none =>
    cases failure with
    | none => cases runner <;> cases h
    | some error => cases h
  | some answer =>
    cases h
    exact (gather_delivered hgather).resolve_right fun hnone => Option.some_ne_none _ hnone.1.symm

end Delivered

end Rootmode.Gateway
