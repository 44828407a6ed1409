import Mathlib.Data.List.Induction

universe u v

namespace Lib.Failover

/-- What comes of asking one of several who might answer. -/
structure Outcome (β : Type v) where
  said : List β
  /-- Whether nobody else is asked. -/
  final : Bool
  /-- What is said as well where nobody else is left. -/
  held : List β

variable {α : Type u} {β : Type v}

/-- Who is asked: one after the other, until one is final. -/
def asked (final : α → Bool) : List α → List α
  | [] => []
  | a :: as => a :: if final a then [] else asked final as

/-- All that is said, and by whom. -/
def heard (ask : α → Outcome β) : List α → List (α × β)
  | [] => []
  | a :: as =>
    (ask a).said.map (a, ·) ++
      if (ask a).final then [] else if as.isEmpty then (ask a).held.map (a, ·) else heard ask as

variable {ask : α → Outcome β} {p : β → Bool} {final : α → Bool}

theorem asked_prefix (as : List α) : asked final as <+: as := by
  induction as with
  | nil => exact List.prefix_refl _
  | cons a as ih =>
    rw [asked]
    refine (List.prefix_cons_inj a).mpr ?_
    split
    · exact List.nil_prefix
    · exact ih

/-- Whoever says something of a kind that is never held back is asked. -/
theorem filter_heard (hheld : ∀ a, ∀ b ∈ (ask a).held, p b = false) (as : List α) :
    (heard ask as).filter (p ·.2) = (asked (fun a => (ask a).final) as).flatMap fun a => ((ask a).said.filter p).map (a, ·) := by
  induction as with
  | nil => rfl
  | cons a as ih =>
    have hsaid : ((ask a).said.map (a, ·)).filter (p ·.2) = ((ask a).said.filter p).map (a, ·) := by
      rw [List.filter_map]
      rfl
    rw [heard, asked, List.filter_append, List.flatMap_cons, hsaid]
    congr 1
    split
    · rfl
    · split
      · next hlast =>
        rw [List.isEmpty_iff.mp hlast, asked, List.flatMap_nil, List.filter_eq_nil_iff]
        intro e he
        obtain ⟨b, hb, rfl⟩ := List.mem_map.mp he
        simp [hheld a b hb]
      · exact ih

theorem head?_flatMap_tagged (said : α → List β) (as : List α) :
    ((as.flatMap fun a => (said a).map (a, ·)).head?).map Prod.fst =
      (as.filter fun a => !(said a).isEmpty).head? := by
  induction as with
  | nil => rfl
  | cons a as ih =>
    rw [List.flatMap_cons, List.filter_cons]
    cases hsaid : said a with
    | nil => simpa using ih
    | cons b bs => rfl

theorem getLast?_flatMap_tagged (said : α → List β) (as : List α) :
    ((as.flatMap fun a => (said a).map (a, ·)).getLast?).map Prod.fst =
      (as.filter fun a => !(said a).isEmpty).getLast? := by
  induction as using List.reverseRecOn with
  | nil => rfl
  | append_singleton as a ih =>
    rw [List.flatMap_append, List.filter_append, List.getLast?_append, List.getLast?_append, List.flatMap_singleton]
    cases hsaid : said a with
    | nil => simpa [hsaid] using ih
    | cons b bs => simp [hsaid, List.getLast?_cons]

theorem filter_nonempty (l : List β) : (!(l.filter p).isEmpty) = l.any p := by
  rw [Bool.eq_iff_iff, Bool.not_eq_true', List.isEmpty_eq_false_iff, List.any_eq_true]
  constructor
  · intro hne
    obtain ⟨b, hb⟩ := List.exists_mem_of_ne_nil _ hne
    exact ⟨b, List.mem_filter.mp hb⟩
  · rintro ⟨b, hb⟩
    exact List.ne_nil_of_mem (List.mem_filter.mpr hb)

/-- The first who says something of a kind is the first of those asked that do. -/
theorem head?_heard (hheld : ∀ a, ∀ b ∈ (ask a).held, p b = false) (as : List α) :
    (((heard ask as).filter (p ·.2)).head?).map Prod.fst =
      ((asked (fun a => (ask a).final) as).filter fun a => (ask a).said.any p).head? := by
  rw [filter_heard hheld, head?_flatMap_tagged]
  congr 2
  funext a
  exact filter_nonempty (ask a).said

theorem getLast?_heard (hheld : ∀ a, ∀ b ∈ (ask a).held, p b = false) (as : List α) :
    (((heard ask as).filter (p ·.2)).getLast?).map Prod.fst =
      ((asked (fun a => (ask a).final) as).filter fun a => (ask a).said.any p).getLast? := by
  rw [filter_heard hheld, getLast?_flatMap_tagged]
  congr 2
  funext a
  exact filter_nonempty (ask a).said

end Lib.Failover
