import Mathlib.Data.Finset.Card
import Mathlib.Logic.Relation
import Rootmode.Lib.Text

namespace Rootmode.Desktop.Flows

open Lib

/-- A wire hands the result of one node to another. -/
structure FlowEdge where
  source : Text
  target : Text
  deriving DecidableEq

/-- Models wired together: of each node what the walk looks at. -/
structure Flow where
  nodes : List Text
  edges : List FlowEdge
  deriving DecidableEq

/-- Where a walk is, while nothing runs.  With each node that was started goes what was done then. -/
structure Walk where
  done : Finset Text := ∅
  failed : Finset Text := ∅
  started : List (Text × Finset Text) := []
  deriving DecidableEq

section Run

variable (flow : Flow) (succeeds : Text → Bool)

def incoming (id : Text) : List FlowEdge := flow.edges.filter fun e => e.target = id

/-- A look at one node: what an earlier step failed fails with it, what has all it needs is ready. -/
def look (done : Finset Text) (acc : Finset Text × List Text) (id : Text) : Finset Text × List Text :=
  if id ∈ done ∨ id ∈ acc.1 then acc
  else if (incoming flow id).any fun e => e.source ∈ acc.1 then (insert id acc.1, acc.2)
  else if (incoming flow id).all fun e => e.source ∈ done then (acc.1, acc.2 ++ [id])
  else acc

def pass (w : Walk) : Finset Text × List Text := flow.nodes.foldl (look flow w.done) (w.failed, [])

/-- All that is ready started together and waited for. -/
def runAll (ready : List Text) (w : Walk) : Walk :=
  { done := w.done ∪ (ready.filter succeeds).toFinset
    failed := w.failed ∪ (ready.filter fun id => !succeeds id).toFinset
    started := w.started ++ ready.map (·, w.done) }

/-- The loop, for so many rounds at most. -/
def walk : ℕ → Walk → Option Walk
  | 0, _ => none
  | rounds + 1, w =>
    if w.done.card + w.failed.card < flow.nodes.length then
      let looked := pass flow w
      if looked.2 = [] then some { w with failed := looked.1 }
      else walk rounds (runAll succeeds looked.2 { w with failed := looked.1 })
    else some w

end Run

/-- The nodes have names of their own, and the wires lead from node to node. -/
structure Flow.Wired (flow : Flow) : Prop where
  distinct : flow.nodes.Nodup
  between : ∀ e ∈ flow.edges, e.source ∈ flow.nodes ∧ e.target ∈ flow.nodes

/-- One node feeds another. -/
def Flow.Feeds (flow : Flow) (m n : Text) : Prop := ⟨m, n⟩ ∈ flow.edges

def Flow.Upstream (flow : Flow) : Text → Text → Prop := Relation.TransGen flow.Feeds

def Flow.Acyclic (flow : Flow) : Prop := ∀ n, ¬ flow.Upstream n n

section Look

variable {flow : Flow} {succeeds : Text → Bool} {done : Finset Text} {acc : Finset Text × List Text}
  {id m n : Text} {l : List Text} {w w' : Walk}

theorem mem_incoming {e : FlowEdge} : e ∈ incoming flow id ↔ e ∈ flow.edges ∧ e.target = id := by
  simp [incoming]

theorem any_incoming {p : Text → Prop} [DecidablePred p] :
    ((incoming flow n).any fun e => p e.source) = true ↔ ∃ m, flow.Feeds m n ∧ p m := by
  rw [List.any_eq_true]
  constructor
  · rintro ⟨⟨m, n'⟩, he, hp⟩
    obtain ⟨hedge, rfl⟩ := mem_incoming.mp he
    exact ⟨m, hedge, of_decide_eq_true hp⟩
  · rintro ⟨m, hedge, hp⟩
    exact ⟨⟨m, n⟩, mem_incoming.mpr ⟨hedge, rfl⟩, decide_eq_true hp⟩

theorem all_incoming {p : Text → Prop} [DecidablePred p] :
    ((incoming flow n).all fun e => p e.source) = true ↔ ∀ m, flow.Feeds m n → p m := by
  rw [List.all_eq_true]
  constructor
  · intro h m hedge
    exact of_decide_eq_true (h ⟨m, n⟩ (mem_incoming.mpr ⟨hedge, rfl⟩))
  · rintro h ⟨m, n'⟩ he
    obtain ⟨hedge, rfl⟩ := mem_incoming.mp he
    exact decide_eq_true (h m hedge)

/-- What a look does, by what there is to see. -/
theorem look_cases (flow : Flow) (done : Finset Text) (acc : Finset Text × List Text) (n : Text) :
    ((n ∈ done ∨ n ∈ acc.1) ∧ look flow done acc n = acc) ∨
    (n ∉ done ∧ n ∉ acc.1 ∧ (∃ m, flow.Feeds m n ∧ m ∈ acc.1) ∧ look flow done acc n = (insert n acc.1, acc.2)) ∨
    (n ∉ done ∧ n ∉ acc.1 ∧ (∀ m, flow.Feeds m n → m ∉ acc.1) ∧ (∀ m, flow.Feeds m n → m ∈ done) ∧
      look flow done acc n = (acc.1, acc.2 ++ [n])) ∨
    (n ∉ done ∧ n ∉ acc.1 ∧ (∀ m, flow.Feeds m n → m ∉ acc.1) ∧ (¬ ∀ m, flow.Feeds m n → m ∈ done) ∧
      look flow done acc n = acc) := by
  by_cases hseen : n ∈ done ∨ n ∈ acc.1
  · exact .inl ⟨hseen, by rw [look, if_pos hseen]⟩
  · obtain ⟨hdone, hfailed⟩ := not_or.mp hseen
    by_cases hany : ∃ m, flow.Feeds m n ∧ m ∈ acc.1
    · refine .inr (.inl ⟨hdone, hfailed, hany, ?_⟩)
      rw [look, if_neg hseen, if_pos (any_incoming.mpr hany)]
    · have hnone : ∀ m, flow.Feeds m n → m ∉ acc.1 := fun m hm hin => hany ⟨m, hm, hin⟩
      by_cases hall : ∀ m, flow.Feeds m n → m ∈ done
      · refine .inr (.inr (.inl ⟨hdone, hfailed, hnone, hall, ?_⟩))
        rw [look, if_neg hseen, if_neg (any_incoming.not.mpr hany), if_pos (all_incoming.mpr hall)]
      · refine .inr (.inr (.inr ⟨hdone, hfailed, hnone, hall, ?_⟩))
        rw [look, if_neg hseen, if_neg (any_incoming.not.mpr hany), if_neg (all_incoming.not.mpr hall)]

theorem look_failed_subset : acc.1 ⊆ (look flow done acc n).1 := by
  rcases look_cases flow done acc n with ⟨-, h⟩ | ⟨-, -, -, h⟩ | ⟨-, -, -, -, h⟩ | ⟨-, -, -, -, h⟩ <;> rw [h]
  exact Finset.subset_insert _ _

theorem looks_failed_subset : acc.1 ⊆ (l.foldl (look flow done) acc).1 := by
  induction l generalizing acc with
  | nil => exact Finset.Subset.refl _
  | cons n l ih => exact look_failed_subset.trans ih

/-- Looks at others change nothing for a node. -/
theorem mem_looks_of_not_mem (h : m ∉ l) : m ∈ (l.foldl (look flow done) acc).1 ↔ m ∈ acc.1 := by
  induction l generalizing acc with
  | nil => rfl
  | cons n l ih =>
    obtain ⟨hne, hrest⟩ := not_or.mp (List.mem_cons.not.mp h)
    rw [List.foldl_cons, ih hrest]
    rcases look_cases flow done acc n with ⟨-, h⟩ | ⟨-, -, -, h⟩ | ⟨-, -, -, -, h⟩ | ⟨-, -, -, -, h⟩ <;> rw [h]
    exact Finset.mem_insert.trans (or_iff_right hne)

/-- At its turn a node fails with one that feeds it. -/
theorem mem_looks_of_feeds {before after : List Text} (hfeeds : flow.Feeds m n)
    (hfailed : m ∈ (before.foldl (look flow done) acc).1) (hdone : n ∉ done) :
    n ∈ ((before ++ n :: after).foldl (look flow done) acc).1 := by
  rw [List.foldl_append, List.foldl_cons]
  apply looks_failed_subset
  rcases look_cases flow done (before.foldl (look flow done) acc) n with
    ⟨hseen, h⟩ | ⟨-, -, -, h⟩ | ⟨-, -, hnone, -⟩ | ⟨-, -, hnone, -⟩
  · rw [h]
    exact hseen.resolve_left hdone
  · rw [h]
    exact Finset.mem_insert_self _ _
  · exact absurd hfailed (hnone m hfeeds)
  · exact absurd hfailed (hnone m hfeeds)

/-- A node that needs nothing any more: not done, not failed, and all that feeds it done. -/
def Ripe (flow : Flow) (w : Walk) (n : Text) : Prop :=
  n ∉ w.done ∧ n ∉ w.failed ∧ ∀ m, flow.Feeds m n → m ∈ w.done

/-- What is ready after the looks was before them, or is ripe. -/
theorem looks_ready (hdisjoint : ∀ m ∈ acc.1, m ∉ done) (hnodup : l.Nodup) :
    ∃ ready, (l.foldl (look flow done) acc).2 = acc.2 ++ ready ∧ ready.Nodup ∧
      ∀ n, n ∈ ready ↔ n ∈ l ∧ Ripe flow { done, failed := acc.1 } n := by
  induction l generalizing acc with
  | nil => exact ⟨[], by simp, .nil, by simp⟩
  | cons a l ih =>
    obtain ⟨hnew, hrest⟩ := List.nodup_cons.mp hnodup
    rw [List.foldl_cons]
    rcases look_cases flow done acc a with ⟨hseen, h⟩ | ⟨hdone, -, ⟨m, hfeeds, hm⟩, h⟩ |
      ⟨hdone, hfailed, -, hall, h⟩ | ⟨-, -, -, hall, h⟩ <;> rw [h]
    · obtain ⟨ready, heq, hready, hmem⟩ := ih hdisjoint hrest
      refine ⟨ready, heq, hready, fun n => (hmem n).trans ⟨fun hn => ⟨.tail _ hn.1, hn.2⟩, ?_⟩⟩
      rintro ⟨hn, hripe⟩
      refine ⟨(List.mem_cons.mp hn).resolve_left ?_, hripe⟩
      rintro rfl
      exact hseen.elim hripe.1 hripe.2.1
    · have hstill : ∀ m ∈ insert a acc.1, m ∉ done := by
        intro m hm
        rcases Finset.mem_insert.mp hm with rfl | hold
        · exact hdone
        · exact hdisjoint m hold
      obtain ⟨ready, heq, hready, hmem⟩ := @ih (insert a acc.1, acc.2) hstill hrest
      refine ⟨ready, heq, hready, fun n => (hmem n).trans ?_⟩
      constructor
      · rintro ⟨hn, hdone, hfailed, hall⟩
        exact ⟨.tail _ hn, hdone, fun hin => hfailed (Finset.mem_insert_of_mem hin), hall⟩
      · rintro ⟨hn, hdone, hfailed, hall⟩
        have hne : n ≠ a := by
          rintro rfl
          exact hdisjoint m hm (hall m hfeeds)
        exact ⟨(List.mem_cons.mp hn).resolve_left hne, hdone,
          fun hin => hfailed ((Finset.mem_insert.mp hin).resolve_left hne), hall⟩
    · obtain ⟨ready, heq, hready, hmem⟩ := @ih (acc.1, acc.2 ++ [a]) hdisjoint hrest
      refine ⟨a :: ready, by rw [heq, List.append_assoc]; rfl, ?_, fun n => ?_⟩
      · exact List.nodup_cons.mpr ⟨fun hin => hnew ((hmem a).mp hin).1, hready⟩
      · rw [List.mem_cons, List.mem_cons, hmem n]
        constructor
        · rintro (rfl | ⟨hn, hripe⟩)
          · exact ⟨.inl rfl, hdone, hfailed, hall⟩
          · exact ⟨.inr hn, hripe⟩
        · rintro ⟨rfl | hn, hripe⟩
          · exact .inl rfl
          · exact .inr ⟨hn, hripe⟩
    · obtain ⟨ready, heq, hready, hmem⟩ := ih hdisjoint hrest
      refine ⟨ready, heq, hready, fun n => (hmem n).trans ⟨fun hn => ⟨.tail _ hn.1, hn.2⟩, ?_⟩⟩
      rintro ⟨hn, hripe⟩
      refine ⟨(List.mem_cons.mp hn).resolve_left ?_, hripe⟩
      rintro rfl
      exact hall hripe.2.2

/-- What is ready is what is ripe, each node once. -/
theorem mem_pass_ready (hdisjoint : ∀ m ∈ w.failed, m ∉ w.done) (hnodup : flow.nodes.Nodup) :
    (pass flow w).2.Nodup ∧ ∀ n, n ∈ (pass flow w).2 ↔ n ∈ flow.nodes ∧ Ripe flow w n := by
  obtain ⟨ready, heq, hready, hmem⟩ :=
    @looks_ready flow w.done (w.failed, []) _ hdisjoint hnodup
  have hpass : (pass flow w).2 = ready := heq
  rw [hpass]
  exact ⟨hready, hmem⟩

end Look

end Rootmode.Desktop.Flows
