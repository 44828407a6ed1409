import Rootmode.Gateway.Requests
import Mathlib.Data.List.Forall2

namespace Rootmode.Gateway

open Lib Protocol

variable {before rest sys ms : List ChatMessage} {m : ChatMessage}

section None

theorem foldLate_of_none (h : ∀ m ∈ rest, m.role ≠ role "system") : foldLate before rest = before ++ rest := by
  induction rest generalizing before with
  | nil => rw [foldLate, List.append_nil]
  | cons m rest ih =>
    rw [foldLate, if_pos (h m (.head _)), ih fun m hm => h m (.tail _ hm), List.append_assoc,
      List.singleton_append]

theorem takeWhile_system (hsys : ∀ m ∈ sys, m.role = role "system")
    (h : ∀ m ∈ rest.head?, m.role ≠ role "system") :
    (sys ++ rest).takeWhile (·.role = role "system") = sys := by
  rw [List.takeWhile_append_of_pos fun m hm => decide_eq_true (hsys m hm)]
  cases rest with
  | nil => simp
  | cons m rest => simp [h m rfl]

theorem dropWhile_system (hsys : ∀ m ∈ sys, m.role = role "system")
    (h : ∀ m ∈ rest.head?, m.role ≠ role "system") :
    (sys ++ rest).dropWhile (·.role = role "system") = rest := by
  rw [List.dropWhile_append_of_pos fun m hm => decide_eq_true (hsys m hm)]
  cases rest with
  | nil => rfl
  | cons m rest => simp [h m rfl]

/-- Where no instruction comes late the messages stay as they are. -/
theorem foldLateSystemMessages_of_none (hsys : ∀ m ∈ sys, m.role = role "system")
    (h : ∀ m ∈ rest, m.role ≠ role "system") : foldLateSystemMessages (sys ++ rest) = sys ++ rest := by
  have hhead : ∀ m ∈ rest.head?, m.role ≠ role "system" := fun m hm => h m (List.mem_of_mem_head? hm)
  rw [foldLateSystemMessages, takeWhile_system hsys hhead, dropWhile_system hsys hhead,
    foldLate_of_none h, List.nil_append]

end None

section Folded

/-- A turn after the opening, with the instructions that went to it. -/
inductive Folded
  /-- One that was there. -/
  | turn (opener : Option Text) (m : ChatMessage) (after : List Text)
  /-- One made for an instruction that has no turn of the user beside it. -/
  | made (text : Text) (after : List Text)

namespace Folded

def tail (after : List Text) : Text := after.flatMap fun t => paragraph ++ wrapSystem t

def render : Folded → ChatMessage
  | turn opener m after =>
    let front := (opener.map fun t => wrapSystem t ++ paragraph).getD []
    { m with content := front ++ m.content ++ tail after }
  | made text after => message (role "user") (wrapSystem text ++ tail after)

/-- The instructions, in their order. -/
def instructions : Folded → List Text
  | turn opener _ after => opener.toList ++ after
  | made text after => text :: after

def original : Folded → Option ChatMessage
  | turn _ m _ => some m
  | made _ _ => none

def add (t : Text) : Folded → Folded
  | turn opener m after => turn opener m (after ++ [t])
  | made text after => made text (after ++ [t])

variable {f : Folded} {t : Text}

theorem tail_concat (after : List Text) (t : Text) : tail (after ++ [t]) = tail after ++ paragraph ++ wrapSystem t := by
  simp [tail]

theorem render_add :
    (f.add t).render = { f.render with content := f.render.content ++ paragraph ++ wrapSystem t } := by
  cases f with
  | turn opener m after => simp [add, render, tail_concat]
  | made text after => simp [add, render, tail_concat, message]

theorem instructions_add : (f.add t).instructions = f.instructions ++ [t] := by
  cases f <;> simp [add, instructions]

theorem original_add : (f.add t).original = f.original := by
  cases f <;> rfl

theorem render_plain (m : ChatMessage) : (turn none m []).render = m := by
  simp [render, tail]

theorem role_render_turn {opener : Option Text} {after : List Text} : (turn opener m after).render.role = m.role := rfl

end Folded

/-- Which of the messages give instructions. -/
def isSystem (m : ChatMessage) : Bool := m.role = role "system"

/-- What the turns before come to with those that follow. -/
structure FoldsTo (before fs : List Folded) (rest : List ChatMessage) : Prop where
  instructions : fs.flatMap Folded.instructions =
    before.flatMap Folded.instructions ++ (rest.filter isSystem).map (·.content)
  originals : fs.filterMap Folded.original =
    before.filterMap Folded.original ++ rest.filter (!isSystem ·)
  roles : (∀ f ∈ before, f.render.role ≠ role "system") → ∀ f ∈ fs, f.render.role ≠ role "system"

variable {fs done : List Folded} {f : Folded} {t : Text}

theorem FoldsTo.of_turn (hm : m.role ≠ role "system") (h : FoldsTo (done ++ [.turn none m []]) fs rest) :
    FoldsTo done fs (m :: rest) where
  instructions := by
    rw [h.instructions]
    simp [Folded.instructions, isSystem, hm]
  originals := by
    rw [h.originals]
    simp [Folded.original, isSystem, hm]
  roles hdone := h.roles fun f hf => by
    rcases List.mem_append.mp hf with hf | hf
    · exact hdone f hf
    · rw [List.mem_singleton.mp hf]
      exact hm

theorem FoldsTo.of_add (hm : m.role = role "system") (h : FoldsTo (done ++ [f.add m.content]) fs rest) :
    FoldsTo (done ++ [f]) fs (m :: rest) where
  instructions := by
    rw [h.instructions]
    simp [Folded.instructions_add, isSystem, hm]
  originals := by
    rw [h.originals]
    simp [List.filterMap_append, Folded.original_add, isSystem, hm, List.filterMap_cons]
  roles hdone := h.roles fun g hg => by
    rcases List.mem_append.mp hg with hg | hg
    · exact hdone g (List.mem_append_left _ hg)
    · rw [List.mem_singleton.mp hg, Folded.render_add]
      exact hdone f (by simp)

theorem FoldsTo.of_next {next : ChatMessage} (hm : m.role = role "system") (hnext : next.role = role "user")
    (h : FoldsTo (done ++ [.turn (some m.content) next []]) fs rest) : FoldsTo done fs (m :: next :: rest) where
  instructions := by
    rw [h.instructions]
    simp [Folded.instructions, isSystem, hm, hnext, role]
  originals := by
    rw [h.originals]
    simp [Folded.original, isSystem, hm, hnext, role]
  roles hdone := h.roles fun f hf => by
    rcases List.mem_append.mp hf with hf | hf
    · exact hdone f hf
    · rw [List.mem_singleton.mp hf, Folded.role_render_turn, hnext]
      decide

theorem FoldsTo.of_made (hm : m.role = role "system") (h : FoldsTo (done ++ [.made m.content []]) fs rest) :
    FoldsTo done fs (m :: rest) where
  instructions := by
    rw [h.instructions]
    simp [Folded.instructions, isSystem, hm]
  originals := by
    rw [h.originals]
    simp [Folded.original, isSystem, hm]
  roles hdone := h.roles fun f hf => by
    rcases List.mem_append.mp hf with hf | hf
    · exact hdone f hf
    · have hrole : role "user" ≠ role "system" := by decide
      rw [List.mem_singleton.mp hf]
      exact hrole

theorem FoldsTo.refl : FoldsTo done done [] where
  instructions := by simp
  originals := by simp
  roles hdone := hdone

/-- Where each of the turns goes. -/
theorem foldLate_render (done : List Folded) (rest : List ChatMessage) :
    ∃ fs, foldLate (done.map Folded.render) rest = fs.map Folded.render ∧ FoldsTo done fs rest := by
  generalize hbefore : done.map Folded.render = before
  induction before, rest using foldLate.induct generalizing done with
  | case1 before => exact ⟨done, by rw [foldLate, hbefore], .refl⟩
  | case2 before m rest hm ih =>
    obtain ⟨fs, hfs, hfolds⟩ := ih (done ++ [.turn none m []]) (by simp [hbefore, Folded.render_plain])
    exact ⟨fs, by rw [foldLate, if_pos hm, hfs], hfolds.of_turn hm⟩
  | case3 before m hm text rest prev hprev ih =>
    have hlast := (Option.filter_eq_some_iff.mp hprev).1
    subst hbefore
    rw [List.getLast?_map, Option.map_eq_some_iff] at hlast
    obtain ⟨f, hf, rfl⟩ := hlast
    obtain ⟨done, rfl⟩ := List.getLast?_eq_some_iff.mp hf
    obtain ⟨fs, hfs, hfolds⟩ := ih (done ++ [f.add m.content]) (by
      simp [Folded.render_add, text])
    refine ⟨fs, ?_, hfolds.of_add (not_not.mp hm)⟩
    rw [foldLate, if_neg hm, hprev]
    exact hfs
  | case4 before m hm text next rest hprev hnext ih =>
    obtain ⟨fs, hfs, hfolds⟩ := ih (done ++ [.turn (some m.content) next []]) (by
      simp [hbefore, Folded.render, Folded.tail, text])
    refine ⟨fs, ?_, hfolds.of_next (not_not.mp hm) hnext⟩
    rw [foldLate, if_neg hm, hprev]
    dsimp only
    rw [if_pos hnext, hfs]
  | case5 before m hm text next rest hprev hnext ih =>
    obtain ⟨fs, hfs, hfolds⟩ := ih (done ++ [.made m.content []]) (by
      simp [hbefore, Folded.render, Folded.tail, text])
    refine ⟨fs, ?_, hfolds.of_made (not_not.mp hm)⟩
    rw [foldLate, if_neg hm, hprev]
    dsimp only
    rw [if_neg hnext, hfs]
  | case6 before m hm hprev =>
    refine ⟨done ++ [.made m.content []], ?_, FoldsTo.of_made (not_not.mp hm) .refl⟩
    rw [foldLate, if_neg hm, hprev]
    simp [hbefore, Folded.render, Folded.tail]

theorem foldLateSystemMessages_eq (hsys : ∀ m ∈ sys, m.role = role "system")
    (h : ∀ m ∈ rest.head?, m.role ≠ role "system") :
    ∃ fs, foldLateSystemMessages (sys ++ rest) = sys ++ fs.map Folded.render ∧ FoldsTo [] fs rest := by
  rw [foldLateSystemMessages, takeWhile_system hsys h, dropWhile_system hsys h]
  obtain ⟨fs, hfs, hfolds⟩ := foldLate_render [] rest
  exact ⟨fs, congrArg (sys ++ ·) hfs, hfolds⟩

end Folded

section Law

variable {fs : List Folded} {f : Folded} {t : Text} {opening out : List ChatMessage}

/-- The same message, with more said in it. -/
structure Extends (m o : ChatMessage) : Prop where
  same : o = { m with content := o.content }
  words : m.content <:+: o.content

/-- A conversation whose instructions open it, that says what another one does. -/
structure Folds (ms out : List ChatMessage) : Prop where
  late : ∀ m ∈ out.dropWhile isSystem, m.role ≠ role "system"
  instructions : ∀ m ∈ ms, m.role = role "system" → ∃ o ∈ out, m.content.trim <:+: o.content
  others : List.SublistForall₂ Extends (ms.filter (!isSystem ·)) out

theorem trim_infix (t : Text) : t.trim <:+: t := by
  have hfront := (List.dropWhile_suffix (l := t) Text.isWhitespace).isInfix
  have hback := (List.dropWhile_suffix (l := (t.dropWhile Text.isWhitespace).reverse) Text.isWhitespace).isInfix
  rw [← List.reverse_infix, List.reverse_reverse] at hback
  exact hback.trans hfront

theorem trim_infix_wrapSystem (t : Text) : t.trim <:+: wrapSystem t := ⟨_, _, rfl⟩

theorem wrapSystem_infix_tail {after : List Text} (h : t ∈ after) : wrapSystem t <:+: Folded.tail after := by
  obtain ⟨front, back, rfl⟩ := List.append_of_mem h
  refine ⟨Folded.tail front ++ paragraph, Folded.tail back, ?_⟩
  simp [Folded.tail]

theorem Folded.instruction_infix (h : t ∈ f.instructions) : t.trim <:+: f.render.content := by
  refine (trim_infix_wrapSystem t).trans ?_
  cases f with
  | turn opener m after =>
    rcases List.mem_append.mp h with hopener | hafter
    · obtain rfl := Option.mem_toList.mp hopener
      exact ⟨[], paragraph ++ m.content ++ tail after, by simp [render]⟩
    · exact (wrapSystem_infix_tail hafter).trans (List.suffix_append _ _).isInfix
  | made text after =>
    rcases List.mem_cons.mp h with rfl | hafter
    · exact (List.prefix_append _ _).isInfix
    · exact (wrapSystem_infix_tail hafter).trans (List.suffix_append _ _).isInfix

theorem Folded.originals_extended (fs : List Folded) :
    List.SublistForall₂ Extends (fs.filterMap original) (fs.map render) := by
  induction fs with
  | nil => exact .nil
  | cons f fs ih =>
    cases f with
    | turn opener m after => exact .cons ⟨rfl, _, _, rfl⟩ ih
    | made text after => exact .cons_right ih

theorem sublistForall₂_append {R : ChatMessage → ChatMessage → Prop} {ms out : List ChatMessage}
    (front : List ChatMessage) (h : List.SublistForall₂ R ms out) : List.SublistForall₂ R ms (front ++ out) := by
  induction front with
  | nil => exact h
  | cons m front ih => exact .cons_right ih

/-- The instructions at the front may be put otherwise, the late ones are folded. -/
theorem Folds.of_parts (hsys : ∀ m ∈ sys, m.role = role "system")
    (hopening : ∀ m ∈ opening, m.role = role "system")
    (hkept : ∀ m ∈ sys, ∃ o ∈ opening, m.content.trim <:+: o.content) (hfolds : FoldsTo [] fs rest) :
    Folds (sys ++ rest) (opening ++ fs.map Folded.render) where
  late := by
    have hroles : ∀ m ∈ fs.map Folded.render, m.role ≠ role "system" := by
      intro m hm
      obtain ⟨f, hf, rfl⟩ := List.mem_map.mp hm
      exact hfolds.roles (by rintro _ ⟨⟩) f hf
    intro m hm
    have hdrop := dropWhile_system hopening fun m hm => hroles m (List.mem_of_mem_head? hm)
    unfold isSystem at hm
    rw [hdrop] at hm
    exact hroles m hm
  instructions := by
    intro m hm hrole
    rcases List.mem_append.mp hm with hm | hm
    · obtain ⟨o, ho, hinfix⟩ := hkept m hm
      exact ⟨o, List.mem_append_left _ ho, hinfix⟩
    · have hmem : m.content ∈ fs.flatMap Folded.instructions := by
        rw [hfolds.instructions]
        exact List.mem_map.mpr ⟨m, List.mem_filter.mpr ⟨hm, decide_eq_true hrole⟩, rfl⟩
      obtain ⟨f, hf, hinstruction⟩ := List.mem_flatMap.mp hmem
      exact ⟨f.render, List.mem_append_right _ (List.mem_map_of_mem hf), f.instruction_infix hinstruction⟩
  others := by
    have hnone : sys.filter (!isSystem ·) = [] := by
      rw [List.filter_eq_nil_iff]
      intro m hm
      simp [isSystem, hsys m hm]
    have horiginals := hfolds.originals
    rw [List.filterMap_nil, List.nil_append] at horiginals
    rw [List.filter_append, hnone, List.nil_append, ← horiginals]
    exact sublistForall₂_append opening (Folded.originals_extended fs)

theorem system_split (ms : List ChatMessage) : ∃ sys rest, ms = sys ++ rest ∧
    (∀ m ∈ sys, m.role = role "system") ∧ ∀ m ∈ rest.head?, m.role ≠ role "system" := by
  refine ⟨ms.takeWhile (·.role = role "system"), ms.dropWhile (·.role = role "system"),
    List.takeWhile_append_dropWhile.symm, fun m hm => ?_, fun m hm => ?_⟩
  · simpa using List.mem_takeWhile_imp hm
  · have hhead := List.head?_dropWhile_not (fun m : ChatMessage => decide (m.role = role "system")) ms
    rw [Option.mem_def.mp hm] at hhead
    simpa using hhead

theorem foldLateSystemMessages_folds (ms : List ChatMessage) : Folds ms (foldLateSystemMessages ms) := by
  obtain ⟨sys, rest, rfl, hsys, hhead⟩ := system_split ms
  obtain ⟨fs, hfs, hfolds⟩ := foldLateSystemMessages_eq hsys hhead
  rw [hfs]
  exact .of_parts hsys hsys (fun m hm => ⟨m, hm, trim_infix m.content⟩) hfolds

/-- What is folded once has no late instruction. -/
theorem foldLateSystemMessages_again (ms : List ChatMessage) :
    foldLateSystemMessages (foldLateSystemMessages ms) = foldLateSystemMessages ms := by
  obtain ⟨sys, rest, rfl, hsys, hhead⟩ := system_split ms
  obtain ⟨fs, hfs, hfolds⟩ := foldLateSystemMessages_eq hsys hhead
  rw [hfs]
  refine foldLateSystemMessages_of_none hsys fun m hm => ?_
  obtain ⟨f, hf, rfl⟩ := List.mem_map.mp hm
  exact hfolds.roles (by rintro _ ⟨⟩) f hf

end Law

end Rootmode.Gateway
