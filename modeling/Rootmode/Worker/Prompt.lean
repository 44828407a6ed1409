import Rootmode.Gateway.Folding

namespace Rootmode.Worker

open Lib Protocol
open Gateway (role message paragraph isSystem Folds)

/-- The turns after the opening ones, of which some are done. -/
def foldLate (before : List ChatMessage) : List ChatMessage → List ChatMessage
  | [] => before
  | m :: rest =>
    if m.role ≠ role "system" then foldLate (before ++ [m]) rest
    else
      let text := "<system-reminder>\n".toList ++ m.content.trim ++ "\n</system-reminder>".toList
      match before.getLast?.filter (·.role = role "user"), rest with
      | some prev, rest =>
        foldLate (before.dropLast ++ [{ prev with content := prev.content ++ paragraph ++ text }]) rest
      | none, next :: rest =>
        if next.role = role "user" then
          foldLate (before ++ [{ next with content := text ++ paragraph ++ next.content }]) rest
        else foldLate (before ++ [message (role "user") text]) (next :: rest)
      | none, [] => before ++ [message (role "user") text]

def foldLateSystemMessages (messages : List ChatMessage) : List ChatMessage :=
  messages.takeWhile (·.role = role "system") ++
    foldLate [] (messages.dropWhile (·.role = role "system"))

/-- Texts in one, with an empty line between them, but for blank ones. -/
def combine (combined : Text) (m : ChatMessage) : Text :=
  let t := m.content.trim
  if t = [] then combined
  else (if combined ≠ [] then combined ++ paragraph else combined) ++ t

def mergeLeadingSystemMessages (messages : List ChatMessage) : List ChatMessage :=
  let n := (messages.takeWhile (·.role = role "system")).length
  if n ≤ 1 then messages
  else
    let combined := (messages.take n).foldl combine []
    match messages with
    | [] => []
    | first :: _ => { first with content := combined } :: messages.drop n

/-- A conversation as a chat template takes it: instructions in one message, at its start. -/
def prepareMessages (messages : List ChatMessage) : List ChatMessage :=
  foldLateSystemMessages (mergeLeadingSystemMessages messages)

section Copy

/-- The gateway folds the same way. -/
theorem foldLate_eq (before rest : List ChatMessage) : foldLate before rest = Gateway.foldLate before rest := by
  induction before, rest using Gateway.foldLate.induct with
  | case1 before => rw [foldLate, Gateway.foldLate]
  | case2 before m rest hm ih => rw [foldLate, if_pos hm, ih, Gateway.foldLate, if_pos hm]
  | case3 before m hm text rest prev hprev ih =>
    rw [foldLate, Gateway.foldLate, if_neg hm, if_neg hm, hprev]
    exact ih
  | case4 before m hm text next rest hprev hnext ih =>
    rw [foldLate, Gateway.foldLate, if_neg hm, if_neg hm, hprev]
    dsimp only
    rw [if_pos hnext, if_pos hnext]
    exact ih
  | case5 before m hm text next rest hprev hnext ih =>
    rw [foldLate, Gateway.foldLate, if_neg hm, if_neg hm, hprev]
    dsimp only
    rw [if_neg hnext, if_neg hnext]
    exact ih
  | case6 before m hm hprev =>
    rw [foldLate, Gateway.foldLate, if_neg hm, if_neg hm, hprev]
    rfl

theorem foldLateSystemMessages_eq (messages : List ChatMessage) :
    foldLateSystemMessages messages = Gateway.foldLateSystemMessages messages := by
  rw [foldLateSystemMessages, foldLate_eq, Gateway.foldLateSystemMessages]

end Copy

section Merge

variable {sys rest ms : List ChatMessage} {m : ChatMessage} {combined : Text}

theorem prefix_combine : combined <+: combine combined m := by
  unfold combine
  dsimp only
  split
  · exact List.prefix_rfl
  · split
    · rw [List.append_assoc]
      exact List.prefix_append _ _
    · exact List.prefix_append _ _

theorem trim_infix_combine : m.content.trim <:+: combine combined m := by
  unfold combine
  dsimp only
  split
  · next h =>
    rw [h]
    exact List.nil_infix
  · exact (List.suffix_append _ _).isInfix

theorem prefix_foldl_combine (ms : List ChatMessage) (combined : Text) : combined <+: ms.foldl combine combined := by
  induction ms generalizing combined with
  | nil => exact List.prefix_rfl
  | cons m ms ih => exact prefix_combine.trans (ih _)

theorem trim_infix_foldl_combine (h : m ∈ ms) (combined : Text) :
    m.content.trim <:+: ms.foldl combine combined := by
  induction ms generalizing combined with
  | nil => cases h
  | cons m' ms ih =>
    rcases List.mem_cons.mp h with rfl | h
    · exact trim_infix_combine.trans (prefix_foldl_combine ms _).isInfix
    · exact ih h _

/-- One message at most stands for those that open a conversation, and says what they say. -/
theorem mergeLeadingSystemMessages_eq (hsys : ∀ m ∈ sys, m.role = role "system")
    (h : ∀ m ∈ rest.head?, m.role ≠ role "system") :
    ∃ opening, mergeLeadingSystemMessages (sys ++ rest) = opening ++ rest ∧ opening.length ≤ 1 ∧
      (∀ m ∈ opening, m.role = role "system") ∧
      ∀ m ∈ sys, ∃ o ∈ opening, m.content.trim <:+: o.content := by
  unfold mergeLeadingSystemMessages
  dsimp only
  rw [Gateway.takeWhile_system hsys h]
  split
  · next hfew => exact ⟨sys, rfl, hfew, hsys, fun m hm => ⟨m, hm, Gateway.trim_infix m.content⟩⟩
  · next hmany =>
    cases sys with
    | nil => exact absurd (Nat.zero_le 1) hmany
    | cons first sys =>
      rw [List.take_left, List.drop_left]
      refine ⟨[{ first with content := (first :: sys).foldl combine [] }], rfl, le_rfl, fun m hm => ?_,
        fun m hm => ⟨_, List.mem_singleton_self _, trim_infix_foldl_combine hm []⟩⟩
      rw [List.mem_singleton.mp hm]
      exact hsys first (.head _)

theorem mergeLeadingSystemMessages_of_few (hsys : ∀ m ∈ sys, m.role = role "system")
    (h : ∀ m ∈ rest.head?, m.role ≠ role "system") (hfew : sys.length ≤ 1) :
    mergeLeadingSystemMessages (sys ++ rest) = sys ++ rest := by
  unfold mergeLeadingSystemMessages
  dsimp only
  rw [Gateway.takeWhile_system hsys h, if_pos hfew]

end Merge

section Prepared

variable {opening fs : List ChatMessage}

/-- One instruction at most, and it comes first. -/
structure Prepared (ms : List ChatMessage) : Prop where
  split : ∃ opening rest, ms = opening ++ rest ∧ opening.length ≤ 1 ∧
    (∀ m ∈ opening, m.role = role "system") ∧ ∀ m ∈ rest, m.role ≠ role "system"

theorem Prepared.count_le {ms : List ChatMessage} (h : Prepared ms) : ms.countP isSystem ≤ 1 := by
  obtain ⟨opening, rest, rfl, hfew, -, hrest⟩ := h.split
  have hnone : rest.countP isSystem = 0 := List.countP_eq_zero.mpr fun m hm => by simp [isSystem, hrest m hm]
  rw [List.countP_append, hnone]
  exact List.countP_le_length.trans hfew

theorem Prepared.again {ms : List ChatMessage} (h : Prepared ms) : prepareMessages ms = ms := by
  obtain ⟨opening, rest, rfl, hfew, hopening, hrest⟩ := h.split
  have hhead : ∀ m ∈ rest.head?, m.role ≠ role "system" := fun m hm => hrest m (List.mem_of_mem_head? hm)
  rw [prepareMessages, mergeLeadingSystemMessages_of_few hopening hhead hfew, foldLateSystemMessages_eq]
  exact Gateway.foldLateSystemMessages_of_none hopening hrest

theorem prepareMessages_prepares (ms : List ChatMessage) :
    Prepared (prepareMessages ms) ∧ Folds ms (prepareMessages ms) := by
  obtain ⟨sys, rest, rfl, hsys, hhead⟩ := Gateway.system_split ms
  obtain ⟨opening, hopening, hfew, hroles, hkept⟩ := mergeLeadingSystemMessages_eq hsys hhead
  obtain ⟨fs, hfs, hfolds⟩ := Gateway.foldLateSystemMessages_eq hroles hhead
  rw [prepareMessages, hopening, foldLateSystemMessages_eq, hfs]
  refine ⟨⟨opening, _, rfl, hfew, hroles, fun m hm => ?_⟩, .of_parts hsys hroles hkept hfolds⟩
  obtain ⟨f, hf, rfl⟩ := List.mem_map.mp hm
  exact hfolds.roles (by rintro _ ⟨⟩) f hf

/-- Instructions that come late are said to the user's turns, and those at the start in one message where the
worker sends them on. -/
theorem fold_law :
    (∀ ms, Folds ms (Gateway.foldLateSystemMessages ms) ∧
      Gateway.foldLateSystemMessages (Gateway.foldLateSystemMessages ms) = Gateway.foldLateSystemMessages ms) ∧
    (∀ ms, Folds ms (prepareMessages ms) ∧ (prepareMessages ms).countP isSystem ≤ 1 ∧
      prepareMessages (prepareMessages ms) = prepareMessages ms) := by
  refine ⟨fun ms => ⟨Gateway.foldLateSystemMessages_folds ms, Gateway.foldLateSystemMessages_again ms⟩, fun ms => ?_⟩
  obtain ⟨hprepared, hfolds⟩ := prepareMessages_prepares ms
  exact ⟨hfolds, hprepared.count_le, hprepared.again⟩

end Prepared

end Rootmode.Worker
