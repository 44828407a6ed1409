import Mathlib.Data.Finset.Basic

universe u v w

namespace Lib.Gather

open Function

variable {ι : Type u} {τ : Type v} {α : Type w} [DecidableEq ι] [DecidableEq α]

/-- A question under an id, or something that is heard in answer to one. -/
inductive Event (ι : Type u) (τ : Type v) (α : Type w)
  | ask (id : ι) (who : τ)
  | hear (id : ι) (found : Finset α) (last : Bool)

/-- The open questions with what was heard so far, and the answers that were given. -/
structure State (ι : Type u) (τ : Type v) (α : Type w) where
  waiting : ι → Option (τ × Finset α)
  answers : List (τ × Finset α)

def start : State ι τ α := ⟨fun _ => none, []⟩

namespace State

def ask (s : State ι τ α) (id : ι) (who : τ) : State ι τ α := ⟨update s.waiting id (some (who, ∅)), s.answers⟩

def hear (s : State ι τ α) (id : ι) (found : Finset α) (last : Bool) : State ι τ α :=
  match s.waiting id with
  | none => s
  | some (who, seen) =>
    if last then ⟨update s.waiting id none, s.answers ++ [(who, seen ∪ found)]⟩
    else ⟨update s.waiting id (some (who, seen ∪ found)), s.answers⟩

def step (s : State ι τ α) : Event ι τ α → State ι τ α
  | .ask id who => s.ask id who
  | .hear id found last => s.hear id found last

def run (s : State ι τ α) (es : List (Event ι τ α)) : State ι τ α := es.foldl step s

end State

/-- What is heard under an id until it is said to be the last. -/
def heard (id : ι) (seen : Finset α) : List (Event ι τ α) → Option (Finset α)
  | [] => none
  | .hear id' found last :: es =>
    if id' = id then if last then some (seen ∪ found) else heard id (seen ∪ found) es else heard id seen es
  | .ask _ _ :: es => heard id seen es

/-- Neither the id nor the one who asks is another question's. -/
def Event.Foreign (id : ι) (who : τ) : Event ι τ α → Prop
  | .ask id' who' => id' ≠ id ∧ who' ≠ who
  | .hear _ _ _ => True

/-- No open question under these ids is `who`'s. -/
def Silent (p : ι → Prop) (who : τ) (s : State ι τ α) : Prop :=
  ∀ id seen, p id → s.waiting id ≠ some (who, seen)

section Step

variable {s : State ι τ α} {id id' : ι} {who : τ} {seen found : Finset α} {last : Bool} {e : Event ι τ α}
  {p : ι → Prop}

theorem State.hear_none (h : s.waiting id = none) : s.hear id found last = s := by
  rw [State.hear, h]

theorem State.hear_last (h : s.waiting id = some (who, seen)) :
    s.hear id found true = ⟨update s.waiting id none, s.answers ++ [(who, seen ∪ found)]⟩ := by
  rw [State.hear, h]
  rfl

theorem State.hear_more (h : s.waiting id = some (who, seen)) :
    s.hear id found false = ⟨update s.waiting id (some (who, seen ∪ found)), s.answers⟩ := by
  rw [State.hear, h]
  rfl

theorem State.waiting_last (h : s.waiting id = some (who, seen)) :
    (s.hear id found true).waiting = update s.waiting id none := by
  rw [State.hear_last h]

theorem State.waiting_more (h : s.waiting id = some (who, seen)) :
    (s.hear id found false).waiting = update s.waiting id (some (who, seen ∪ found)) := by
  rw [State.hear_more h]

/-- What is heard opens no question. -/
theorem Silent.hear (h : Silent p who s) : Silent p who (s.hear id found last) := by
  intro k old hk
  cases hw : s.waiting id with
  | none =>
    rw [State.hear_none hw]
    exact h k old hk
  | some entry =>
    by_cases hkid : k = id
    · subst hkid
      have hother : entry.1 ≠ who := by
        intro heq
        apply h k entry.2 hk
        rw [hw, ← heq]
      cases last with
      | true =>
        rw [State.waiting_last hw, update_self]
        exact fun hnone => by cases hnone
      | false =>
        rw [State.waiting_more hw, update_self]
        exact fun heq => hother (congrArg Prod.fst (Option.some.inj heq))
    · cases last with
      | true =>
        rw [State.waiting_last hw, update_of_ne hkid]
        exact h k old hk
      | false =>
        rw [State.waiting_more hw, update_of_ne hkid]
        exact h k old hk

theorem Silent.step (h : Silent p who s) (he : e.Foreign id who) : Silent p who (s.step e) := by
  cases e with
  | hear id' found last => exact h.hear
  | ask id' other =>
    intro k old hk
    change update s.waiting id' (some (other, ∅)) k ≠ _
    by_cases hkid : k = id'
    · subst hkid
      rw [update_self]
      exact fun heq => he.2 (congrArg Prod.fst (Option.some.inj heq))
    · rw [update_of_ne hkid]
      exact h k old hk

theorem waiting_hear_of_ne (h : id' ≠ id) : (s.hear id' found last).waiting id = s.waiting id := by
  cases hw : s.waiting id' with
  | none => rw [State.hear_none hw]
  | some entry =>
    cases last with
    | true =>
      rw [State.waiting_last hw]
      exact update_of_ne h.symm ..
    | false =>
      rw [State.waiting_more hw]
      exact update_of_ne h.symm ..

variable [DecidableEq τ]

/-- The answers that `who` was given. -/
def State.answersTo (s : State ι τ α) (who : τ) : List (τ × Finset α) := s.answers.filter (·.1 = who)

theorem answersTo_hear (h : ∀ seen, s.waiting id ≠ some (who, seen)) :
    (s.hear id found last).answersTo who = s.answersTo who := by
  cases hw : s.waiting id with
  | none => rw [State.hear_none hw]
  | some entry =>
    have hother : ¬ entry.1 = who := by
      intro heq
      apply h entry.2
      rw [hw, ← heq]
    cases last with
    | true =>
      rw [State.hear_last hw, State.answersTo, List.filter_append, List.filter_cons_of_neg (by simpa using hother),
        List.filter_nil, List.append_nil]
      rfl
    | false =>
      rw [State.hear_more hw]
      rfl

end Step

section Run

variable {s : State ι τ α} {id : ι} {who : τ} {seen : Finset α} {e : Event ι τ α} {es before after : List (Event ι τ α)}

theorem run_cons : s.run (e :: es) = (s.step e).run es := rfl

theorem run_append : s.run (before ++ after) = (s.run before).run after := List.foldl_append

variable [DecidableEq τ]

/-- Where `who` waits for nothing, nothing is answered. -/
theorem answersTo_silent (h : Silent (fun _ => True) who s) (hes : ∀ e ∈ es, e.Foreign id who) :
    Silent (fun _ => True) who (s.run es) ∧ (s.run es).answersTo who = s.answersTo who := by
  induction es generalizing s with
  | nil => exact ⟨h, rfl⟩
  | cons e es ih =>
    obtain ⟨he, hrest⟩ := List.forall_mem_cons.mp hes
    obtain ⟨hsilent, hsame⟩ := ih (h.step he) hrest
    refine ⟨hsilent, hsame.trans ?_⟩
    cases e with
    | ask => rfl
    | hear id' found last => exact answersTo_hear fun seen => h id' seen trivial

/-- An open question is answered with what is heard under its id, as soon as that is all. -/
theorem answersTo_waiting (hw : s.waiting id = some (who, seen)) (hsilent : Silent (· ≠ id) who s)
    (hnone : s.answersTo who = []) (hes : ∀ e ∈ es, e.Foreign id who) :
    (s.run es).answersTo who = ((heard id seen es).map (who, ·)).toList := by
  induction es generalizing s seen with
  | nil => exact hnone
  | cons e es ih =>
    obtain ⟨he, hrest⟩ := List.forall_mem_cons.mp hes
    rw [run_cons]
    cases e with
    | ask id' other =>
      exact ih ((update_of_ne he.1.symm ..).trans hw) (hsilent.step he) hnone hrest
    | hear id' found last =>
      rw [heard]
      by_cases hid : id' = id
      · subst hid
        rw [if_pos rfl]
        change ((s.hear id' found last).run es).answersTo who = _
        cases last with
        | true =>
          have hclosed : Silent (fun _ => True) who (s.hear id' found true) := by
            intro k old _
            by_cases hk : k = id'
            · rw [hk, State.waiting_last hw, update_self]
              exact fun heq => by cases heq
            · exact hsilent.hear k old hk
          rw [(answersTo_silent hclosed hrest).2, State.hear_last hw, State.answersTo, List.filter_append,
            List.filter_cons_of_pos (by simp), List.filter_nil]
          exact congrArg (· ++ _) hnone
        | false =>
          have hmore : (s.hear id' found false).waiting id' = some (who, seen ∪ found) := by
            rw [State.waiting_more hw]
            exact update_self ..
          refine ih hmore hsilent.hear ?_ hrest
          rw [State.hear_more hw]
          exact hnone
      · rw [if_neg hid]
        refine ih ((waiting_hear_of_ne hid).trans hw) (hsilent.step he) ?_ hrest
        exact (answersTo_hear fun old => hsilent id' old hid).trans hnone

/-- A question has one answer, what is heard under its id from when it is asked, and has it once that is all. -/
theorem answersTo_ask (hbefore : ∀ e ∈ before, e.Foreign id who) (hafter : ∀ e ∈ after, e.Foreign id who) :
    (start.run (before ++ .ask id who :: after)).answersTo who = ((heard id ∅ after).map (who, ·)).toList := by
  have hstart : Silent (fun _ => True) who (start : State ι τ α) := fun _ _ _ hnone => by cases hnone
  obtain ⟨hsilent, hsame⟩ := answersTo_silent hstart hbefore
  rw [run_append, run_cons]
  refine answersTo_waiting (update_self ..) ?_ hsame hafter
  intro k old hk
  change update (start.run before).waiting id (some (who, ∅)) k ≠ some (who, old)
  rw [update_of_ne hk]
  exact hsilent k old trivial

end Run

end Lib.Gather
