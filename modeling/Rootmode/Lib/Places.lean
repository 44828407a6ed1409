import Rootmode.Lib.Settings

namespace Lib.Json

variable {k : String} {p q s : List String} {v w z : Json}

/-- The value with something else at a place that is there already. -/
def setAt (z : Json) : List String → Json → Option Json
  | [], _ => some z
  | k :: p, v => (v.get k).bind fun x => (setAt z p x).map (v.insert k)

/-- Places of which neither is within the other. -/
def Apart (p q : List String) : Prop := ¬ p <+: q ∧ ¬ q <+: p

instance (p q : List String) : Decidable (Apart p q) := inferInstanceAs (Decidable (_ ∧ _))

theorem get_insert (h : (v.get k).isSome) (x : Json) (k' : String) :
    (v.insert k x).get k' = if k = k' then some x else v.get k' := by
  cases v with
  | obj es => exact get_insert_obj
  | null | bool | num | str | arr => cases h

theorem setAt_cons (h : setAt z (k :: p) v = some w) : ∃ x y, v.get k = some x ∧ setAt z p x = some y ∧
    w = v.insert k y := by
  obtain ⟨x, hx, hset⟩ := Option.bind_eq_some_iff.mp h
  obtain ⟨y, hy, rfl⟩ := Option.map_eq_some_iff.mp hset
  exact ⟨x, y, hx, hy, rfl⟩

/-- A place can be set where it can be reached. -/
theorem isSome_setAt : (setAt z p v).isSome = (reach p v).isSome := by
  induction p generalizing v with
  | nil => rfl
  | cons k p ih =>
    rw [setAt, reach]
    cases hget : v.get k with
    | none => rfl
    | some x =>
      rw [Option.bind_some, Option.isSome_map]
      exact ih

/-- What was set is there. -/
theorem reach_append_setAt (h : setAt z p v = some w) (s : List String) : reach (p ++ s) w = reach s z := by
  induction p generalizing v w with
  | nil =>
    cases h
    rfl
  | cons k p ih =>
    obtain ⟨x, y, hx, hy, rfl⟩ := setAt_cons h
    rw [List.cons_append, reach, get_insert (by rw [hx]; rfl), if_pos rfl]
    exact ih hy

/-- What it is within has it set. -/
theorem reach_setAt_append (h : setAt z (q ++ s) v = some w) : reach q w = (reach q v).bind (setAt z s) := by
  induction q generalizing v w with
  | nil => exact h.symm
  | cons k q ih =>
    rw [List.cons_append] at h
    obtain ⟨x, y, hx, hy, rfl⟩ := setAt_cons h
    rw [reach, reach, get_insert (by rw [hx]; rfl), if_pos rfl, hx]
    exact ih hy

/-- Nothing else changes. -/
theorem reach_setAt_of_apart (h : setAt z p v = some w) (hapart : Apart p q) : reach q w = reach q v := by
  induction p generalizing q v w with
  | nil => exact absurd (List.nil_prefix) hapart.1
  | cons k p ih =>
    obtain ⟨x, y, hx, hy, rfl⟩ := setAt_cons h
    cases q with
    | nil => exact absurd (List.nil_prefix) hapart.2
    | cons k' q =>
      rw [reach, reach, get_insert (by rw [hx]; rfl)]
      split
      · next heq =>
        subst heq
        rw [hx]
        refine ih hy ⟨fun hpq => hapart.1 ?_, fun hqp => hapart.2 ?_⟩
        · exact List.cons_prefix_cons.mpr ⟨rfl, hpq⟩
        · exact List.cons_prefix_cons.mpr ⟨rfl, hqp⟩
      · rfl

/-- What agreed in two values before still does with the same set in both. -/
theorem reach_setAt_congr {v' w' : Json} (h : setAt z p v = some w) (h' : setAt z p v' = some w')
    (hq : reach q v = reach q v') : reach q w = reach q w' := by
  by_cases hpq : p <+: q
  · obtain ⟨s, rfl⟩ := hpq
    rw [reach_append_setAt h, reach_append_setAt h']
  · by_cases hqp : q <+: p
    · obtain ⟨s, rfl⟩ := hqp
      rw [reach_setAt_append h, reach_setAt_append h', hq]
    · rw [reach_setAt_of_apart h ⟨hpq, hqp⟩, reach_setAt_of_apart h' ⟨hpq, hqp⟩, hq]

theorem reach_append (q s : List String) (v : Json) : reach (q ++ s) v = (reach q v).bind (reach s) := by
  induction q generalizing v with
  | nil => rfl
  | cons k q ih =>
    rw [List.cons_append, reach, reach, Option.bind_assoc]
    exact congrArg _ (funext fun x => ih x)

/-- With a text set at one place, another one is there exactly where it was and is not within the first. -/
theorem isSome_reach_setAt {t : Text} (h : setAt (str t) p v = some w) :
    (reach q w).isSome ↔ (reach q v).isSome ∧ ¬ (p <+: q ∧ p ≠ q) := by
  have hp : (reach p v).isSome := by
    rw [← isSome_setAt (z := str t), h]
    rfl
  by_cases hpq : p <+: q
  · obtain ⟨s, rfl⟩ := hpq
    rw [reach_append_setAt h]
    cases s with
    | nil => simpa [reach] using hp
    | cons k s =>
      have hnone : reach (k :: s) (str t) = none := rfl
      simp [hnone]
  · by_cases hqp : q <+: p
    · obtain ⟨s, rfl⟩ := hqp
      rw [reach_append] at hp
      rw [reach_setAt_append h]
      cases hq : reach q v with
      | none =>
        rw [hq] at hp
        cases hp
      | some x =>
        rw [hq, Option.bind_some, ← isSome_setAt (z := str t)] at hp
        simp [hp, hpq]
    · rw [reach_setAt_of_apart h ⟨hpq, hqp⟩]
      simp [hpq]

end Lib.Json
