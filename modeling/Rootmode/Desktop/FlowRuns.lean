import Mathlib.Data.Set.Finite.List
import Mathlib.Order.WellFounded
import Mathlib.Order.RelClasses
import Rootmode.Desktop.Flows

namespace Rootmode.Desktop.Flows

open Lib Lib.Text

section Waves

variable (flow : Flow) (succeeds : Text → Bool)

/-- Done after so many waves. -/
def DoneBy : ℕ → Text → Prop
  | 0, _ => False
  | k + 1, n => n ∈ flow.nodes ∧ succeeds n = true ∧ ∀ m, flow.Feeds m n → DoneBy k m

/-- Failed of itself after so many waves. -/
def FailsBy : ℕ → Text → Prop
  | 0, _ => False
  | k + 1, n => n ∈ flow.nodes ∧ succeeds n = false ∧ ∀ m, flow.Feeds m n → DoneBy flow succeeds k m

def RunsBy (k : ℕ) (n : Text) : Prop := DoneBy flow succeeds k n ∨ FailsBy flow succeeds k n

/-- A failure upstream has been passed on by a number of looks at the list: at once to what comes
later in it, and with the next look to what comes before. -/
inductive StruckBy : ℕ → Text → Prop
  | first {k : ℕ} {m n : Text} : FailsBy flow succeeds k m → flow.Feeds m n → StruckBy (k + 1) n
  | along {k : ℕ} {m n : Text} : StruckBy k m → flow.Feeds m n → [m, n].Sublist flow.nodes → StruckBy k n
  | again {k : ℕ} {m n : Text} : StruckBy k m → flow.Feeds m n → StruckBy (k + 1) n

/-- In this wave a node is started. -/
def Starts (k : ℕ) : Prop := ∃ n, RunsBy flow succeeds k n ∧ ¬ RunsBy flow succeeds (k - 1) n

variable {flow succeeds} {k k' : ℕ} {m n : Text}

theorem DoneBy.succ (h : DoneBy flow succeeds k n) : DoneBy flow succeeds (k + 1) n := by
  induction k generalizing n with
  | zero => exact h.elim
  | succ k ih => exact ⟨h.1, h.2.1, fun m hm => ih (h.2.2 m hm)⟩

theorem DoneBy.mono (hle : k ≤ k') (h : DoneBy flow succeeds k n) : DoneBy flow succeeds k' n := by
  induction hle with
  | refl => exact h
  | step _ ih => exact ih.succ

theorem FailsBy.mono (hle : k ≤ k') (h : FailsBy flow succeeds k n) : FailsBy flow succeeds k' n := by
  cases k with
  | zero => exact h.elim
  | succ k =>
    obtain ⟨j, rfl⟩ := Nat.exists_eq_add_of_lt hle
    exact ⟨h.1, h.2.1, fun m hm => (h.2.2 m hm).mono (by omega)⟩

theorem RunsBy.mono (hle : k ≤ k') (h : RunsBy flow succeeds k n) : RunsBy flow succeeds k' n :=
  h.imp (DoneBy.mono hle) (FailsBy.mono hle)

theorem StruckBy.succ (h : StruckBy flow succeeds k n) : StruckBy flow succeeds (k + 1) n := by
  induction h with
  | first hfails hfeeds => exact .first (hfails.mono (Nat.le_succ _)) hfeeds
  | along _ hfeeds hlater ih => exact .along ih hfeeds hlater
  | again _ hfeeds ih => exact .again ih hfeeds

theorem StruckBy.mono (hle : k ≤ k') (h : StruckBy flow succeeds k n) : StruckBy flow succeeds k' n := by
  induction hle with
  | refl => exact h
  | step _ ih => exact ih.succ

theorem not_struckBy_zero : ¬ StruckBy flow succeeds 0 n := by
  intro h
  generalize hk : 0 = k at h
  induction h with
  | first => cases hk
  | along _ _ _ ih => exact ih hk
  | again => cases hk

/-- The first look finds nothing that has failed. -/
theorem not_struckBy_one : ¬ StruckBy flow succeeds 1 n := by
  intro h
  generalize hk : 1 = k at h
  induction h with
  | first hfails =>
    cases hk
    exact hfails
  | along _ _ _ ih => exact ih hk
  | again hstruck =>
    cases hk
    exact not_struckBy_zero hstruck

theorem DoneBy.feeder (h : DoneBy flow succeeds k n) (hfeeds : flow.Feeds m n) : DoneBy flow succeeds k m := by
  cases k with
  | zero => exact h.elim
  | succ k => exact (h.2.2 m hfeeds).succ

theorem RunsBy.feeder (h : RunsBy flow succeeds k n) (hfeeds : flow.Feeds m n) : DoneBy flow succeeds k m := by
  rcases h with h | h
  · exact h.feeder hfeeds
  · cases k with
    | zero => exact h.elim
    | succ k => exact (h.2.2 m hfeeds).succ

theorem DoneBy.upstream (h : DoneBy flow succeeds k n) (hup : flow.Upstream m n) : DoneBy flow succeeds k m := by
  induction hup using Relation.TransGen.head_induction_on with
  | single hfeeds => exact h.feeder hfeeds
  | head hfeeds _ ih => exact ih.feeder hfeeds

theorem DoneBy.not_failsBy (h : DoneBy flow succeeds k n) : ¬ FailsBy flow succeeds k' n := by
  intro hfails
  cases k with
  | zero => exact h
  | succ k =>
    cases k' with
    | zero => exact hfails
    | succ k' =>
      have hfalse := hfails.2.1
      rw [h.2.1] at hfalse
      cases hfalse

theorem DoneBy.not_struckBy (h : DoneBy flow succeeds k n) : ¬ StruckBy flow succeeds k' n := by
  intro hstruck
  induction hstruck with
  | first hfails hfeeds => exact (h.feeder hfeeds).not_failsBy hfails
  | along _ hfeeds _ ih => exact ih (h.feeder hfeeds)
  | again _ hfeeds ih => exact ih (h.feeder hfeeds)

/-- Nothing is passed on to what runs. -/
theorem RunsBy.not_struckBy (h : RunsBy flow succeeds k n) : ¬ StruckBy flow succeeds k' n := by
  intro hstruck
  cases hstruck with
  | first hfails hfeeds => exact (h.feeder hfeeds).not_failsBy hfails
  | along hstruck hfeeds _ => exact (h.feeder hfeeds).not_struckBy hstruck
  | again hstruck hfeeds => exact (h.feeder hfeeds).not_struckBy hstruck

/-- What runs by the next wave: what is on the list and has all that feeds it done. -/
theorem runsBy_succ : RunsBy flow succeeds (k + 1) n ↔
    n ∈ flow.nodes ∧ ∀ m, flow.Feeds m n → DoneBy flow succeeds k m := by
  constructor
  · rintro (⟨hn, -, hall⟩ | ⟨hn, -, hall⟩) <;> exact ⟨hn, hall⟩
  · rintro ⟨hn, hall⟩
    cases hruns : succeeds n with
    | true => exact .inl ⟨hn, hruns, hall⟩
    | false => exact .inr ⟨hn, hruns, hall⟩

theorem RunsBy.mem (h : RunsBy flow succeeds k n) : n ∈ flow.nodes := by
  cases k with
  | zero => exact h.elim False.elim False.elim
  | succ k => exact (runsBy_succ.mp h).1

/-- After a wave that starts nothing no later one does. -/
theorem runsBy_of_stuck (hstuck : ∀ n, RunsBy flow succeeds (k + 1) n → RunsBy flow succeeds k n)
    (h : RunsBy flow succeeds k' n) : RunsBy flow succeeds k n := by
  rcases le_total k' k with hle | hle
  · exact h.mono hle
  · induction hle generalizing n with
    | refl => exact h
    | step _ ih =>
      obtain ⟨hn, hall⟩ := runsBy_succ.mp h
      refine hstuck n (runsBy_succ.mpr ⟨hn, fun m hm => ?_⟩)
      have hdone := hall m hm
      exact (ih (.inl hdone)).resolve_right hdone.not_failsBy

end Waves

section Run

variable {flow : Flow} {succeeds : Text → Bool} {k : ℕ} {m n : Text} {w w' : Walk}

/-- What was started was started once, and with all that feeds it done. -/
structure Orderly (flow : Flow) (w : Walk) : Prop where
  once : (w.started.map Prod.fst).Nodup
  fed : ∀ s ∈ w.started, s.1 ∈ flow.nodes ∧ s.2 ⊆ w.done ∧ ∀ m, flow.Feeds m s.1 → m ∈ s.2

/-- Where a walk is after so many waves. -/
structure After (flow : Flow) (succeeds : Text → Bool) (k : ℕ) (w : Walk) : Prop where
  done : ∀ n, n ∈ w.done ↔ DoneBy flow succeeds k n
  failed : ∀ n, n ∈ w.failed ↔ FailsBy flow succeeds k n ∨ StruckBy flow succeeds k n
  started : ∀ n, n ∈ w.started.map Prod.fst ↔ RunsBy flow succeeds k n
  orderly : Orderly flow w

theorem after_zero : After flow succeeds 0 {} where
  done n := by simp [DoneBy]
  failed n := by simp [FailsBy, not_struckBy_zero]
  started n := by simp [RunsBy, DoneBy, FailsBy]
  orderly := ⟨by simp, by simp⟩

namespace After

theorem disjoint (h : After flow succeeds k w) : ∀ m ∈ w.failed, m ∉ w.done := by
  intro m hfailed hdone
  have hdone' := (h.done m).mp hdone
  exact ((h.failed m).mp hfailed).elim hdone'.not_failsBy hdone'.not_struckBy

/-- What is ready is what runs in the next wave and did not run before. -/
theorem mem_ready (h : After flow succeeds k w) (hwired : flow.Wired) :
    n ∈ (pass flow w).2 ↔ RunsBy flow succeeds (k + 1) n ∧ ¬ RunsBy flow succeeds k n := by
  rw [(mem_pass_ready h.disjoint hwired.distinct).2, Ripe, h.done, h.failed, runsBy_succ]
  simp only [h.done]
  constructor
  · rintro ⟨hn, hdone, hfailed, hall⟩
    exact ⟨⟨hn, hall⟩, fun hruns => hruns.elim hdone fun hfails => hfailed (.inl hfails)⟩
  · rintro ⟨⟨hn, hall⟩, hruns⟩
    have hnext : RunsBy flow succeeds (k + 1) n := runsBy_succ.mpr ⟨hn, hall⟩
    refine ⟨hn, fun hdone => hruns (.inl hdone), ?_, hall⟩
    rintro (hfails | hstruck)
    · exact hruns (.inr hfails)
    · exact hnext.not_struckBy hstruck

/-- A look at the list passes a failure on as far as the order of the list lets it. -/
theorem mem_pass_failed (h : After flow succeeds k w) (hwired : flow.Wired) :
    n ∈ (pass flow w).1 ↔ FailsBy flow succeeds k n ∨ StruckBy flow succeeds (k + 1) n := by
  constructor
  · -- whatever has failed by some look was passed on from before the looks, or from earlier in the list
    have hsound : ∀ (before after : List Text) (acc : Finset Text × List Text),
        flow.nodes = before ++ after →
        (∀ m ∈ acc.1, m ∈ w.failed ∨ m ∈ before ∧ StruckBy flow succeeds (k + 1) m) →
        ∀ n ∈ (after.foldl (look flow w.done) acc).1, n ∈ w.failed ∨ StruckBy flow succeeds (k + 1) n := by
      intro before after
      induction after generalizing before with
      | nil =>
        intro acc _ hacc n hn
        exact (hacc n hn).imp_right And.right
      | cons a after ih =>
        intro acc hnodes hacc n hn
        refine ih (before ++ [a]) _ (by rw [hnodes, List.append_assoc]; rfl) ?_ n hn
        have hkept : ∀ m ∈ acc.1, m ∈ w.failed ∨ m ∈ before ++ [a] ∧ StruckBy flow succeeds (k + 1) m :=
          fun m hm => (hacc m hm).imp_right fun ⟨hb, hs⟩ => ⟨List.mem_append_left _ hb, hs⟩
        rcases look_cases flow w.done acc a with ⟨-, hlook⟩ | ⟨-, -, ⟨m, hfeeds, hm⟩, hlook⟩ | ⟨-, -, -, -, hlook⟩ |
          ⟨-, -, -, -, hlook⟩ <;> rw [hlook]
        · exact hkept
        · intro x hx
          rcases Finset.mem_insert.mp hx with rfl | hold
          · refine .inr ⟨List.mem_append_right _ (.head _), ?_⟩
            rcases hacc m hm with hfailed | ⟨hbefore, hstruck⟩
            · rcases (h.failed m).mp hfailed with hfails | hstruck
              · exact .first hfails hfeeds
              · exact .again hstruck hfeeds
            · refine .along hstruck hfeeds ?_
              rw [hnodes]
              exact (List.singleton_sublist.mpr hbefore).append (List.singleton_sublist.mpr (.head _))
          · exact hkept x hold
        · exact hkept
        · exact hkept
    intro hn
    rcases hsound [] flow.nodes (w.failed, []) rfl (fun m hm => .inl hm) n hn with hfailed | hstruck
    · exact ((h.failed n).mp hfailed).imp_right StruckBy.succ
    · exact .inr hstruck
  · have hbefore : w.failed ⊆ (pass flow w).1 := @looks_failed_subset _ _ (w.failed, []) _
    rintro (hfails | hstruck)
    · exact hbefore ((h.failed n).mpr (.inl hfails))
    · have hturn : ∀ {m n : Text}, m ∈ w.failed → flow.Feeds m n → StruckBy flow succeeds (k + 1) n →
          n ∈ (pass flow w).1 := by
        intro m n hm hfeeds hn
        obtain ⟨before, after, hnodes⟩ := List.append_of_mem (hwired.between _ hfeeds).2
        have hdone : n ∉ w.done := fun hdone => ((h.done n).mp hdone).not_struckBy hn
        rw [pass, hnodes]
        exact mem_looks_of_feeds hfeeds (@looks_failed_subset _ _ (w.failed, []) _ _ hm) hdone
      generalize hk : k + 1 = j at hstruck
      induction hstruck with
      | first hfails hfeeds =>
        cases hk
        exact hturn ((h.failed _).mpr (.inl hfails)) hfeeds (.first hfails hfeeds)
      | again hstruck hfeeds =>
        cases hk
        exact hturn ((h.failed _).mpr (.inr hstruck)) hfeeds (.again hstruck hfeeds)
      | @along j m n hstruck hfeeds hlater ih =>
        subst hk
        have hm := ih rfl
        obtain ⟨before, rest, hnodes, hmem, hsub⟩ := List.cons_sublist_iff.mp hlater
        obtain ⟨between, after, hrest⟩ := List.append_of_mem (List.singleton_sublist.mp hsub)
        have hsplit : flow.nodes = (before ++ between) ++ n :: after := by
          rw [hnodes, hrest, List.append_assoc]
        have hapart : m ∉ n :: after := by
          have hnodup := hwired.distinct
          rw [hsplit] at hnodup
          exact List.disjoint_of_nodup_append hnodup (List.mem_append_left _ hmem)
        have hdone : n ∉ w.done := by
          intro hdone
          exact ((h.done n).mp hdone).not_struckBy (.along hstruck hfeeds hlater)
        rw [pass, hsplit] at hm ⊢
        rw [List.foldl_append] at hm
        exact mem_looks_of_feeds hfeeds ((mem_looks_of_not_mem hapart).mp hm) hdone

/-- A wave. -/
theorem runAll (h : After flow succeeds k w) (hwired : flow.Wired) :
    After flow succeeds (k + 1) (runAll succeeds (pass flow w).2 { w with failed := (pass flow w).1 }) := by
  have hready := fun n => h.mem_ready hwired (n := n)
  constructor
  · intro n
    simp only [Flows.runAll, Finset.mem_union, h.done, List.mem_toFinset, List.mem_filter, hready]
    constructor
    · rintro (hdone | ⟨⟨hruns, -⟩, hsucceeds⟩)
      · exact hdone.succ
      · refine hruns.resolve_right fun hfails => ?_
        have hfalse := hfails.2.1
        rw [hsucceeds] at hfalse
        cases hfalse
    · intro hdone
      by_cases hruns : RunsBy flow succeeds k n
      · exact .inl (hruns.resolve_right hdone.not_failsBy)
      · exact .inr ⟨⟨.inl hdone, hruns⟩, hdone.2.1⟩
  · intro n
    simp only [Flows.runAll, Finset.mem_union, h.mem_pass_failed hwired, List.mem_toFinset, List.mem_filter, hready,
      Bool.not_eq_true']
    constructor
    · rintro ((hfails | hstruck) | ⟨⟨hruns, -⟩, hfalse⟩)
      · exact .inl (hfails.mono (Nat.le_succ _))
      · exact .inr hstruck
      · refine .inl (hruns.resolve_left fun hdone => ?_)
        have htrue := hdone.2.1
        rw [hfalse] at htrue
        cases htrue
    · rintro (hfails | hstruck)
      · by_cases hruns : RunsBy flow succeeds k n
        · exact .inl (.inl (hruns.resolve_left fun hdone => hdone.not_failsBy hfails))
        · exact .inr ⟨⟨.inr hfails, hruns⟩, hfails.2.1⟩
      · exact .inl (.inr hstruck)
  · intro n
    simp only [Flows.runAll, List.map_append, List.mem_append, h.started, List.map_map, Function.comp_def, List.map_id',
      hready]
    constructor
    · rintro (hruns | ⟨hruns, -⟩)
      · exact hruns.mono (Nat.le_succ _)
      · exact hruns
    · intro hruns
      by_cases hbefore : RunsBy flow succeeds k n
      · exact .inl hbefore
      · exact .inr ⟨hruns, hbefore⟩
  · constructor
    · simp only [Flows.runAll, List.map_append, List.map_map, Function.comp_def, List.map_id']
      refine h.orderly.once.append (mem_pass_ready h.disjoint hwired.distinct).1 ?_
      intro n hstarted hn
      exact ((hready n).mp hn).2 ((h.started n).mp hstarted)
    · intro s hs
      rcases List.mem_append.mp hs with hold | hnew
      · obtain ⟨hmem, hsub, hfed⟩ := h.orderly.fed s hold
        exact ⟨hmem, hsub.trans Finset.subset_union_left, hfed⟩
      · obtain ⟨n, hn, rfl⟩ := List.mem_map.mp hnew
        obtain ⟨hmem, hall⟩ := runsBy_succ.mp ((hready n).mp hn).1
        exact ⟨hmem, Finset.subset_union_left, fun m hm => (h.done m).mpr (hall m hm)⟩

end After

/-- How a walk ends: with every node done or failed, or with a look at the list that finds nothing
ready. -/
def Ended (flow : Flow) (succeeds : Text → Bool) (k : ℕ) (w : Walk) : Prop :=
  (After flow succeeds k w ∧ ∀ n ∈ flow.nodes, n ∈ w.done ∨ n ∈ w.failed) ∨
    ((∀ n, RunsBy flow succeeds (k + 1) n → RunsBy flow succeeds k n) ∧
      ∃ before, After flow succeeds k before ∧ w = { before with failed := (pass flow before).1 })

theorem After.card_le (h : After flow succeeds k w) (hwired : flow.Wired) :
    w.done ∪ w.failed ⊆ flow.nodes.toFinset ∧ (w.done ∪ w.failed).card = w.done.card + w.failed.card := by
  constructor
  · intro n hn
    rw [List.mem_toFinset]
    rcases Finset.mem_union.mp hn with hdone | hfailed
    · exact RunsBy.mem (.inl ((h.done n).mp hdone))
    · rcases (h.failed n).mp hfailed with hfails | hstruck
      · exact RunsBy.mem (.inr hfails)
      · cases hstruck with
        | first _ hfeeds => exact (hwired.between _ hfeeds).2
        | along _ hfeeds _ => exact (hwired.between _ hfeeds).2
        | again _ hfeeds => exact (hwired.between _ hfeeds).2
  · refine Finset.card_union_of_disjoint (Finset.disjoint_left.mpr fun n hdone hfailed => ?_)
    exact h.disjoint n hfailed hdone

/-- With as many nodes done or failed as there are, all are. -/
theorem After.resolved (h : After flow succeeds k w) (hwired : flow.Wired)
    (hcard : ¬ w.done.card + w.failed.card < flow.nodes.length) : ∀ n ∈ flow.nodes, n ∈ w.done ∨ n ∈ w.failed := by
  obtain ⟨hsub, hunion⟩ := h.card_le hwired
  have heq : w.done ∪ w.failed = flow.nodes.toFinset := by
    refine Finset.eq_of_subset_of_card_le hsub ?_
    rw [hunion, List.toFinset_card_of_nodup hwired.distinct]
    exact not_lt.mp hcard
  intro n hn
  exact Finset.mem_union.mp (heq ▸ List.mem_toFinset.mpr hn)

/-- A walk goes from wave to wave, each starting something, to an end. -/
theorem After.walk (h : After flow succeeds k w) (hwired : flow.Wired)
    (hstarts : ∀ j, 0 < j → j ≤ k → Starts flow succeeds j) {rounds : ℕ}
    (hwalk : walk flow succeeds rounds w = some w') :
    ∃ k', Ended flow succeeds k' w' ∧ ∀ j, 0 < j → j ≤ k' → Starts flow succeeds j := by
  induction rounds generalizing k w with
  | zero => cases hwalk
  | succ rounds ih =>
    unfold Flows.walk at hwalk
    split at hwalk
    · dsimp only at hwalk
      split at hwalk
      · next hnone =>
        cases hwalk
        refine ⟨k, .inr ⟨fun n hnext => ?_, w, h, rfl⟩, hstarts⟩
        by_contra hruns
        have hready := (h.mem_ready hwired).mpr ⟨hnext, hruns⟩
        rw [hnone] at hready
        cases hready
      · next hsome =>
        refine ih (h.runAll hwired) ?_ hwalk
        intro j hpos hle
        rcases Nat.lt_or_eq_of_le hle with hlt | rfl
        · exact hstarts j hpos (by omega)
        · obtain ⟨n, hn⟩ := List.exists_mem_of_ne_nil _ hsome
          exact ⟨n, (h.mem_ready hwired).mp hn⟩
    · next hcard =>
      cases hwalk
      exact ⟨k, .inl ⟨h, h.resolved hwired hcard⟩, hstarts⟩

/-- With more rounds than nodes are left a walk ends, and more rounds change nothing. -/
theorem After.walk_isSome (h : After flow succeeds k w) (hwired : flow.Wired) {rounds : ℕ}
    (hrounds : flow.nodes.length < rounds + (w.done.card + w.failed.card)) :
    ∃ w', ∀ more, Flows.walk flow succeeds (rounds + more) w = some w' := by
  induction rounds generalizing k w with
  | zero =>
    obtain ⟨hsub, hunion⟩ := h.card_le hwired
    have hle := Finset.card_le_card hsub
    rw [hunion, List.toFinset_card_of_nodup hwired.distinct] at hle
    omega
  | succ rounds ih =>
    by_cases hcard : w.done.card + w.failed.card < flow.nodes.length
    · by_cases hnone : (pass flow w).2 = []
      · refine ⟨{ w with failed := (pass flow w).1 }, fun more => ?_⟩
        rw [Nat.add_right_comm, Flows.walk, if_pos hcard]
        exact if_pos hnone
      · -- a node that was ready is done or failed after the wave
        have hnext := h.runAll hwired
        obtain ⟨n, hn⟩ := List.exists_mem_of_ne_nil _ hnone
        obtain ⟨hruns, hfresh⟩ := (h.mem_ready hwired).mp hn
        have hgrown : insert n (w.done ∪ w.failed) ⊆
            (Flows.runAll succeeds (pass flow w).2 { w with failed := (pass flow w).1 }).done ∪
              (Flows.runAll succeeds (pass flow w).2 { w with failed := (pass flow w).1 }).failed := by
          intro x hx
          rw [Finset.mem_union, hnext.done, hnext.failed]
          rcases Finset.mem_insert.mp hx with rfl | hold
          · exact hruns.imp_right .inl
          · rw [Finset.mem_union, h.done, h.failed] at hold
            exact hold.imp DoneBy.succ (.imp (FailsBy.mono (Nat.le_succ _)) StruckBy.succ)
        have hout : n ∉ w.done ∪ w.failed := by
          rw [Finset.mem_union, h.done, h.failed]
          rintro (hdone | hfails | hstruck)
          · exact hfresh (.inl hdone)
          · exact hfresh (.inr hfails)
          · exact hruns.not_struckBy hstruck
        have hmore := Finset.card_le_card hgrown
        rw [Finset.card_insert_of_notMem hout, (h.card_le hwired).2, (hnext.card_le hwired).2] at hmore
        obtain ⟨w', hw'⟩ := ih hnext (by omega)
        refine ⟨w', fun more => ?_⟩
        rw [Nat.add_right_comm, Flows.walk, if_pos hcard]
        exact (if_neg hnone).trans (hw' more)
    · refine ⟨w, fun more => ?_⟩
      rw [Nat.add_right_comm, Flows.walk, if_neg hcard]

end Run

section Law

variable {flow : Flow} {succeeds : Text → Bool} {k : ℕ} {m n : Text} {w : Walk}

/-- Every node is done or failed, and failed are those that failed of themselves or have a failed one
upstream. -/
structure Settled (flow : Flow) (succeeds : Text → Bool) (w : Walk) : Prop where
  all : ∀ n ∈ flow.nodes, n ∈ w.done ∨ n ∈ w.failed
  failed : ∀ n, n ∈ w.failed ↔
    (n ∈ w.started.map Prod.fst ∧ succeeds n = false) ∨ ∃ m, flow.Upstream m n ∧ m ∈ w.failed

/-- A walk comes to an end, in order, and where no node is upstream of itself it settles every node. -/
def Walks (flow : Flow) (succeeds : Text → Bool) : Prop :=
  ∃ w, (∀ rounds, flow.nodes.length < rounds → walk flow succeeds rounds {} = some w) ∧ Orderly flow w ∧
    (flow.Acyclic → Settled flow succeeds w)

/-- Each failure is passed on to all that is downstream of it by the look that follows the last wave
that starts something. -/
def PassedOn (flow : Flow) (succeeds : Text → Bool) : Prop :=
  ∀ n, (∃ m, flow.Upstream m n ∧ ∃ j, FailsBy flow succeeds j m) →
    ∃ k, StruckBy flow succeeds (k + 1) n ∧ Starts flow succeeds k

theorem Ended.done (h : Ended flow succeeds k w) (n : Text) : n ∈ w.done ↔ DoneBy flow succeeds k n := by
  rcases h with ⟨h, -⟩ | ⟨-, before, h, rfl⟩ <;> exact h.done n

theorem Ended.started (h : Ended flow succeeds k w) (n : Text) :
    n ∈ w.started.map Prod.fst ↔ RunsBy flow succeeds k n := by
  rcases h with ⟨h, -⟩ | ⟨-, before, h, rfl⟩ <;> exact h.started n

theorem Ended.orderly (h : Ended flow succeeds k w) : Orderly flow w := by
  rcases h with ⟨h, -⟩ | ⟨-, before, h, rfl⟩
  · exact h.orderly
  · exact ⟨h.orderly.once, h.orderly.fed⟩

/-- The last look has passed on what it could, unless everything was settled before it. -/
theorem Ended.failed (h : Ended flow succeeds k w) (hwired : flow.Wired) :
    (∀ n, n ∈ w.failed ↔ FailsBy flow succeeds k n ∨ StruckBy flow succeeds k n) ∨
      (∀ n, n ∈ w.failed ↔ FailsBy flow succeeds k n ∨ StruckBy flow succeeds (k + 1) n) := by
  rcases h with ⟨h, -⟩ | ⟨-, before, h, rfl⟩
  · exact .inl h.failed
  · exact .inr fun n => h.mem_pass_failed hwired

theorem Ended.failed_cases (h : Ended flow succeeds k w) (hwired : flow.Wired) (hn : n ∈ w.failed) :
    FailsBy flow succeeds k n ∨ ∃ m, flow.Feeds m n ∧ m ∈ w.failed := by
  rcases h.failed hwired with hfailed | hfailed <;> rcases (hfailed n).mp hn with hfails | hstruck
  · exact .inl hfails
  · right
    cases hstruck with
    | first hfails hfeeds => exact ⟨_, hfeeds, (hfailed _).mpr (.inl (hfails.mono (Nat.le_succ _)))⟩
    | along hstruck hfeeds _ => exact ⟨_, hfeeds, (hfailed _).mpr (.inr hstruck)⟩
    | again hstruck hfeeds => exact ⟨_, hfeeds, (hfailed _).mpr (.inr hstruck.succ)⟩
  · exact .inl hfails
  · right
    cases hstruck with
    | first hfails hfeeds => exact ⟨_, hfeeds, (hfailed _).mpr (.inl hfails)⟩
    | along hstruck hfeeds _ => exact ⟨_, hfeeds, (hfailed _).mpr (.inr hstruck)⟩
    | again hstruck hfeeds => exact ⟨_, hfeeds, (hfailed _).mpr (.inr hstruck.succ)⟩

theorem Ended.not_done (h : Ended flow succeeds k w) (hwired : flow.Wired) (hn : n ∈ w.failed) : n ∉ w.done := by
  intro hdone
  have hdone' := (h.done n).mp hdone
  rcases h.failed hwired with hfailed | hfailed <;>
    exact ((hfailed n).mp hn).elim hdone'.not_failsBy hdone'.not_struckBy

/-- Where all are done or failed, failed are the right ones. -/
theorem Ended.settled (h : Ended flow succeeds k w) (hwired : flow.Wired)
    (hall : ∀ n ∈ flow.nodes, n ∈ w.done ∨ n ∈ w.failed) : Settled flow succeeds w := by
  refine ⟨hall, fun n => ⟨fun hn => ?_, ?_⟩⟩
  · rcases h.failed_cases hwired hn with hfails | ⟨m, hfeeds, hm⟩
    · cases k with
      | zero => exact hfails.elim
      | succ k => exact .inl ⟨(h.started n).mpr (.inr hfails), hfails.2.1⟩
    · exact .inr ⟨m, .single hfeeds, hm⟩
  · rintro (⟨hstarted, hfalse⟩ | ⟨m, hup, hm⟩)
    · have hruns := (h.started n).mp hstarted
      refine (hall n hruns.mem).resolve_left fun hdone => ?_
      cases k with
      | zero => exact (h.done n).mp hdone
      | succ k =>
        have htrue := ((h.done n).mp hdone).2.1
        rw [hfalse] at htrue
        cases htrue
    · obtain ⟨x, -, hfeeds⟩ := Relation.TransGen.tail'_iff.mp hup
      refine (hall n (hwired.between _ hfeeds).2).resolve_left fun hdone => ?_
      exact h.not_done hwired hm ((h.done m).mpr (((h.done n).mp hdone).upstream hup))

theorem exists_bound {p : ℕ → Text → Prop} (hmono : ∀ k k' n, k ≤ k' → p k n → p k' n) {l : List Text}
    (h : ∀ n ∈ l, ∃ k, p k n) : ∃ k, ∀ n ∈ l, p k n := by
  induction l with
  | nil => exact ⟨0, by simp⟩
  | cons a l ih =>
    obtain ⟨k, hk⟩ := ih fun n hn => h n (.tail _ hn)
    obtain ⟨j, hj⟩ := h a (.head _)
    refine ⟨max j k, fun n hn => ?_⟩
    rcases List.mem_cons.mp hn with rfl | hrest
    · exact hmono _ _ _ (le_max_left _ _) hj
    · exact hmono _ _ _ (le_max_right _ _) (hk n hrest)

/-- Where no node is upstream of itself, a node runs at some time or is downstream of a failure. -/
theorem runs_or_downstream (hwired : flow.Wired) (hacyclic : flow.Acyclic) (hn : n ∈ flow.nodes) :
    (∃ k, RunsBy flow succeeds k n) ∨ ∃ m, flow.Upstream m n ∧ ∃ j, FailsBy flow succeeds j m := by
  have : IsTrans {n // n ∈ flow.nodes} fun a b => flow.Upstream a b := ⟨fun _ _ _ => Relation.TransGen.trans⟩
  have : Std.Irrefl fun a b : {n // n ∈ flow.nodes} => flow.Upstream a b := ⟨fun a => hacyclic a⟩
  have : Finite {n // n ∈ flow.nodes} := flow.nodes.finite_toSet.to_subtype
  have hwf := Finite.wellFounded_of_trans_of_irrefl fun a b : {n // n ∈ flow.nodes} => flow.Upstream a b
  generalize ha : (⟨n, hn⟩ : {n // n ∈ flow.nodes}) = a
  induction a using hwf.induction generalizing n with
  | _ a ih =>
    subst ha
    by_cases hdown : ∃ m, flow.Feeds m n ∧ ∀ k, ¬ DoneBy flow succeeds k m
    · obtain ⟨m, hfeeds, hnever⟩ := hdown
      have hm := (hwired.between _ hfeeds).1
      right
      rcases ih ⟨m, hm⟩ (.single hfeeds) hm rfl with ⟨k, hruns⟩ | ⟨x, hup, hfails⟩
      · exact ⟨m, .single hfeeds, k, hruns.resolve_left (hnever k)⟩
      · exact ⟨x, hup.tail hfeeds, hfails⟩
    · left
      have hfed : ∀ m ∈ (incoming flow n).map FlowEdge.source, ∃ k, DoneBy flow succeeds k m := by
        intro m hm
        obtain ⟨⟨m, n'⟩, he, rfl⟩ := List.mem_map.mp hm
        obtain ⟨hedge, rfl⟩ := mem_incoming.mp he
        by_contra hnever
        exact hdown ⟨m, hedge, not_exists.mp hnever⟩
      obtain ⟨k, hk⟩ := exists_bound (p := DoneBy flow succeeds) (fun _ _ _ => DoneBy.mono) hfed
      refine ⟨k + 1, runsBy_succ.mpr ⟨hn, fun m hfeeds => hk m ?_⟩⟩
      exact List.mem_map.mpr ⟨⟨m, n⟩, mem_incoming.mpr ⟨hfeeds, rfl⟩, rfl⟩

theorem RunsBy.not_downstream (h : RunsBy flow succeeds k n) (hup : flow.Upstream m n) {j : ℕ} :
    ¬ FailsBy flow succeeds j m := by
  obtain ⟨x, hto, hfeeds⟩ := Relation.TransGen.tail'_iff.mp hup
  have hx := h.feeder hfeeds
  rcases Relation.reflTransGen_iff_eq_or_transGen.mp hto with rfl | hup'
  · exact hx.not_failsBy
  · exact (hx.upstream hup').not_failsBy

/-- What a walk's end leaves open is what a failure was not passed on to. -/
theorem Ended.all_iff (h : Ended flow succeeds k w) (hwired : flow.Wired) (hacyclic : flow.Acyclic)
    (hstarts : ∀ j, 0 < j → j ≤ k → Starts flow succeeds j) :
    (∀ n ∈ flow.nodes, n ∈ w.done ∨ n ∈ w.failed) ↔ PassedOn flow succeeds := by
  constructor
  · rintro hall n ⟨m, hup, j, hfails⟩
    obtain ⟨x, -, hfeeds⟩ := Relation.TransGen.tail'_iff.mp hup
    have hruns : ¬ RunsBy flow succeeds k n := fun hruns => hruns.not_downstream hup hfails
    have hfailed := (hall n (hwired.between _ hfeeds).2).resolve_left
      fun hdone => hruns (.inl ((h.done n).mp hdone))
    have hstruck : ∀ i, StruckBy flow succeeds (i + 1) n → i ≤ k → ∃ i, StruckBy flow succeeds (i + 1) n ∧
        Starts flow succeeds i := by
      intro i hi hle
      refine ⟨i, hi, hstarts i (Nat.pos_of_ne_zero ?_) hle⟩
      rintro rfl
      exact not_struckBy_one hi
    rcases h.failed hwired with hmem | hmem <;> rcases (hmem n).mp hfailed with hself | hstruck'
    · exact absurd (.inr hself) hruns
    · cases k with
      | zero => exact absurd hstruck' not_struckBy_zero
      | succ k => exact hstruck k hstruck' (Nat.le_succ _)
    · exact absurd (.inr hself) hruns
    · exact hstruck k hstruck' le_rfl
  · intro hpassed
    rcases h with ⟨-, hall⟩ | ⟨hstuck, before, hafter, rfl⟩
    · exact hall
    · intro n hn
      have hruns : ∀ {j x}, RunsBy flow succeeds j x → RunsBy flow succeeds k x := runsBy_of_stuck hstuck
      rcases @runs_or_downstream _ succeeds _ hwired hacyclic hn with ⟨j, hj⟩ | hdown
      · refine (hruns hj).imp (hafter.done n).mpr fun hfails => ?_
        exact (hafter.mem_pass_failed hwired).mpr (.inl hfails)
      · obtain ⟨j, hstruck, x, hnew, hold⟩ := hpassed n hdown
        have hle : j ≤ k := by
          by_contra hgt
          exact hold ((hruns hnew).mono (by omega))
        exact .inr ((hafter.mem_pass_failed hwired).mpr (.inr (hstruck.mono (by omega))))

/-- A walk comes to an end, starts each node once and with its inputs done, and settles every node of
a graph without cycles, exactly where every failure is passed on in time. -/
theorem walks_iff (hwired : flow.Wired) : Walks flow succeeds ↔ (flow.Acyclic → PassedOn flow succeeds) := by
  obtain ⟨w, hw⟩ := (@after_zero _ succeeds).walk_isSome hwired (Nat.lt_add_right _ (Nat.lt_succ_self flow.nodes.length))
  have hwalk : ∀ rounds, flow.nodes.length < rounds → walk flow succeeds rounds {} = some w := by
    intro rounds hlt
    obtain ⟨more, rfl⟩ := Nat.exists_eq_add_of_lt hlt
    rw [Nat.add_right_comm]
    exact hw more
  obtain ⟨k, hended, hstarts⟩ := after_zero.walk hwired (by omega) (hwalk _ (Nat.lt_succ_self _))
  constructor
  · rintro ⟨w', hwalk', -, hsettled⟩ hacyclic
    obtain rfl : w = w' := by
      have heq := hwalk' _ (Nat.lt_succ_self _)
      rw [hwalk _ (Nat.lt_succ_self _)] at heq
      exact Option.some.inj heq
    exact (hended.all_iff hwired hacyclic hstarts).mp (hsettled hacyclic).all
  · intro hpassed
    refine ⟨w, hwalk, hended.orderly, fun hacyclic => hended.settled hwired ?_⟩
    exact (hended.all_iff hwired hacyclic hstarts).mpr (hpassed hacyclic)

/-- In a list in the order of the wires every failure is passed on at once. -/
theorem passedOn_of_forward (h : ∀ m n, flow.Feeds m n → [m, n].Sublist flow.nodes) : PassedOn flow succeeds := by
  classical
  rintro n ⟨m, hup, hex⟩
  refine ⟨Nat.find hex, ?_, m, .inr (Nat.find_spec hex), ?_⟩
  · induction hup with
    | single hfeeds => exact .first (Nat.find_spec hex) hfeeds
    | tail _ hfeeds ih => exact .along ih hfeeds (h _ _ hfeeds)
  · rintro (hdone | hfails)
    · exact hdone.not_failsBy (Nat.find_spec hex)
    · have hpos : Nat.find hex ≠ 0 := fun hzero => (hzero ▸ Nat.find_spec hex : FailsBy flow succeeds 0 m)
      exact Nat.find_min hex (by omega) hfails

theorem acyclic_of_rank (rank : Text → ℕ) (h : ∀ e ∈ flow.edges, rank e.source < rank e.target) : flow.Acyclic := by
  intro n hup
  have hrank : ∀ {m x}, flow.Upstream m x → rank m < rank x := by
    intro m x hup
    induction hup with
    | single hfeeds => exact h _ hfeeds
    | tail _ hfeeds ih => exact ih.trans (h _ hfeeds)
  exact (hrank hup).false

/-- Three nodes in a row, drawn from the last to the first. -/
def backwards : Flow :=
  { nodes := [ofString "c", ofString "b", ofString "a"]
    edges := [⟨ofString "a", ofString "b"⟩, ⟨ofString "b", ofString "c"⟩] }

theorem backwards_wired : backwards.Wired where
  distinct := by decide
  between := by decide

theorem backwards_walks : Walks backwards (fun _ => true) ↔ (backwards.Acyclic → PassedOn backwards fun _ => true) :=
  walks_iff backwards_wired

/-- Where the first fails, the last is left as it was. -/
theorem backwards_unsettled : backwards.Wired ∧ ¬ Walks backwards fun n => n != ofString "a" := by
  refine ⟨backwards_wired, ?_⟩
  rintro ⟨w, hwalk, -, hsettled⟩
  have hacyclic : backwards.Acyclic :=
    acyclic_of_rank (fun n => if n = ofString "a" then 0 else if n = ofString "b" then 1 else 2) (by decide)
  have hend : walk backwards (fun n => n != ofString "a") 4 {} =
      some { done := ∅, failed := {ofString "b", ofString "a"}, started := [(ofString "a", ∅)] } := by decide
  obtain rfl := Option.some.inj (hend.symm.trans (hwalk 4 (by decide)))
  exact absurd ((hsettled hacyclic).all (ofString "c") (by decide)) (by decide)

end Law

end Rootmode.Desktop.Flows
