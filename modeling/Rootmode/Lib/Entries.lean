import Mathlib.Data.List.Sort
import Mathlib.Order.Basic

universe u v w

namespace Lib.Entries

variable {κ : Type u} [LinearOrder κ] {α : Type v} {β : Type w}

/-- The entries of an ordered map with one more, which replaces what was there under its key. -/
def put (k : κ) (a : α) : List (κ × α) → List (κ × α)
  | [] => [(k, a)]
  | e :: es => if k < e.1 then (k, a) :: e :: es else if k = e.1 then (k, a) :: es else e :: put k a es

/-- All of a list put in, in its order: of entries with one key the last stays. -/
def putAll (es acc : List (κ × α)) : List (κ × α) := es.foldl (fun acc e => put e.1 e.2 acc) acc

/-- What is there under a key. -/
def under (k : κ) (es : List (κ × α)) : List (κ × α) := es.filter fun e => e.1 = k

def without (k : κ) (es : List (κ × α)) : List (κ × α) := es.filter fun e => e.1 ≠ k

def Ordered (es : List (κ × α)) : Prop := es.Pairwise fun e e' => e.1 < e'.1

def keys (es : List (κ × α)) : List κ := es.map Prod.fst

variable {k k' : κ} {a : α} {es acc : List (κ × α)}

section Order

theorem mem_put {e : κ × α} (h : e ∈ put k a es) : e = (k, a) ∨ e ∈ es := by
  induction es with
  | nil => exact .inl (List.mem_singleton.mp h)
  | cons e' es ih =>
    unfold put at h
    split at h
    · exact List.mem_cons.mp h
    · split at h
      · exact (List.mem_cons.mp h).imp_right (List.mem_cons_of_mem _)
      · rcases List.mem_cons.mp h with rfl | hrest
        · exact .inr (.head _)
        · exact (ih hrest).imp_right (List.mem_cons_of_mem _)

theorem Ordered.put (h : Ordered es) : Ordered (put k a es) := by
  induction es with
  | nil => exact List.pairwise_singleton _ _
  | cons e es ih =>
    obtain ⟨hhead, htail⟩ := List.pairwise_cons.mp h
    unfold Entries.put
    split
    · next hlt =>
      refine List.pairwise_cons.mpr ⟨?_, h⟩
      intro e' he'
      rcases List.mem_cons.mp he' with rfl | hrest
      · exact hlt
      · exact hlt.trans (hhead e' hrest)
    · next hge =>
      split
      · next heq =>
        refine List.pairwise_cons.mpr ⟨?_, htail⟩
        intro e' he'
        rw [heq]
        exact hhead e' he'
      · next hne =>
        refine List.pairwise_cons.mpr ⟨?_, ih htail⟩
        intro e' he'
        rcases mem_put he' with rfl | hrest
        · exact lt_of_le_of_ne (not_lt.mp hge) (Ne.symm hne)
        · exact hhead e' hrest

theorem Ordered.putAll (h : Ordered acc) : Ordered (putAll es acc) := by
  induction es generalizing acc with
  | nil => exact h
  | cons e es ih => exact ih h.put

theorem ordered_putAll (es : List (κ × α)) : Ordered (putAll es []) := Ordered.putAll .nil

theorem Ordered.nodup (h : Ordered es) : (keys es).Nodup := by
  rw [keys, List.nodup_iff_pairwise_ne, List.pairwise_map]
  exact h.imp fun hlt => hlt.ne

theorem Ordered.filter (h : Ordered es) (p : κ × α → Bool) : Ordered (es.filter p) :=
  List.Pairwise.filter p h

/-- Maps with the same entries are the same. -/
theorem Ordered.eq_of_perm {es' : List (κ × α)} (h : Ordered es) (h' : Ordered es')
    (hperm : es.Perm es') : es = es' :=
  hperm.eq_of_pairwise (fun _ _ _ _ hlt hgt => absurd hlt hgt.asymm) h h'

end Order

section Perm

theorem put_perm (h : k ∉ keys es) : (put k a es).Perm ((k, a) :: es) := by
  induction es with
  | nil => exact .refl _
  | cons e es ih =>
    obtain ⟨hne, hrest⟩ := not_or.mp (List.mem_cons.not.mp h)
    rw [put, if_neg hne]
    split
    · exact .refl _
    · exact ((ih hrest).cons e).trans (.swap _ _ _)

theorem mem_keys_put (h : k' ∈ keys (put k a es)) : k' = k ∨ k' ∈ keys es := by
  obtain ⟨e, he, rfl⟩ := List.mem_map.mp h
  rcases mem_put he with rfl | hold
  · exact .inl rfl
  · exact .inr (List.mem_map_of_mem hold)

/-- Entries of different keys all stay. -/
theorem putAll_perm (hnodup : (keys es).Nodup) (hnew : ∀ k ∈ keys es, k ∉ keys acc) :
    (putAll es acc).Perm (es ++ acc) := by
  induction es generalizing acc with
  | nil => exact .refl _
  | cons e es ih =>
    obtain ⟨hhead, htail⟩ := List.nodup_cons.mp hnodup
    have hfresh : e.1 ∉ keys acc := hnew e.1 (.head _)
    have hrest : ∀ k ∈ keys es, k ∉ keys (put e.1 e.2 acc) := by
      intro k hk hput
      rcases mem_keys_put hput with rfl | hold
      · exact hhead hk
      · exact hnew k (.tail _ hk) hold
    refine (ih htail hrest).trans ?_
    refine ((put_perm hfresh).append_left es).trans ?_
    exact List.perm_middle

theorem putAll_nil_perm (hnodup : (keys es).Nodup) : (putAll es []).Perm es := by
  have hperm : (putAll es []).Perm (es ++ []) :=
    putAll_perm hnodup fun _ _ => List.not_mem_nil
  rwa [List.append_nil] at hperm

/-- A map put in again is the map. -/
theorem Ordered.putAll_self (h : Ordered es) : Entries.putAll es [] = es :=
  (ordered_putAll es).eq_of_perm h (putAll_nil_perm h.nodup)

end Perm

section Under

theorem under_of_forall_ne (h : ∀ e ∈ es, e.1 ≠ k) : under k es = [] :=
  List.filter_eq_nil_iff.mpr fun e he => by simpa using h e he

theorem under_of_not_mem (h : k ∉ keys es) : under k es = [] :=
  under_of_forall_ne fun _ he heq => h (List.mem_map.mpr ⟨_, he, heq⟩)

theorem under_cons (e : κ × α) (es : List (κ × α)) (k : κ) :
    under k (e :: es) = if e.1 = k then e :: under k es else under k es := by
  by_cases h : e.1 = k
  · simp [under, h]
  · simp [under, h]

theorem length_under_le (h : (keys es).Nodup) (k : κ) : (under k es).length ≤ 1 := by
  induction es with
  | nil => exact Nat.zero_le _
  | cons e es ih =>
    obtain ⟨hnew, hnodup⟩ := List.nodup_cons.mp h
    rw [under_cons]
    split
    · next heq =>
      rw [under_of_not_mem (heq ▸ hnew)]
      exact le_rfl
    · exact ih hnodup

/-- Under the key of a new entry is that entry, under any other what was there. -/
theorem under_put (h : Ordered es) :
    under k' (put k a es) = if k = k' then [(k, a)] else under k' es := by
  induction es with
  | nil => exact under_cons _ _ _
  | cons e es ih =>
    obtain ⟨hhead, htail⟩ := List.pairwise_cons.mp h
    unfold put
    split
    · next hlt =>
      rw [under_cons]
      split
      · next heq =>
        have hnone : under k' (e :: es) = [] := by
          refine under_of_forall_ne fun e' he' => ?_
          rcases List.mem_cons.mp he' with rfl | hrest
          · exact heq ▸ hlt.ne'
          · exact heq ▸ (hlt.trans (hhead e' hrest)).ne'
        rw [hnone]
      · rfl
    · split
      · next heq =>
        rw [under_cons, under_cons, ← heq]
        split
        · next hkey =>
          have hnone : under k' es = [] :=
            under_of_forall_ne fun e' he' => hkey ▸ heq ▸ (hhead e' he').ne'
          rw [hnone]
        · rfl
      · next hne =>
        rw [under_cons, under_cons, ih htail]
        by_cases hkey : e.1 = k'
        · have hother : k ≠ k' := fun hk => hne (hk.trans hkey.symm)
          rw [if_pos hkey, if_neg hother, if_neg hother, if_pos hkey]
        · rw [if_neg hkey, if_neg hkey]

/-- Under a key is the last entry that was put there. -/
theorem under_putAll (h : Ordered acc) (k : κ) :
    under k (putAll es acc) =
      match (under k es).getLast? with
      | some e => [e]
      | none => under k acc := by
  induction es generalizing acc with
  | nil => rfl
  | cons e es ih =>
    have hstep : putAll (e :: es) acc = putAll es (put e.1 e.2 acc) := rfl
    rw [hstep, ih h.put, under_cons, under_put h]
    by_cases hkey : e.1 = k
    · rw [if_pos hkey, if_pos hkey]
      cases hlast : (under k es).getLast? with
      | none =>
        rw [List.getLast?_eq_none_iff.mp hlast]
        rfl
      | some e' =>
        rw [List.getLast?_cons, hlast]
        rfl
    · rw [if_neg hkey, if_neg hkey]

/-- A key that occurs once or never is told alike before and after. -/
theorem under_putAll_nil (k : κ) (h : (under k es).length ≤ 1) :
    under k (putAll es []) = under k es := by
  rw [under_putAll .nil]
  match hunder : under k es, h with
  | [], _ => rfl
  | [e], _ => rfl

theorem under_without (k k' : κ) (es : List (κ × α)) :
    under k (without k' es) = if k = k' then [] else under k es := by
  rw [under, without, List.filter_filter]
  split
  · next heq =>
    apply List.filter_eq_nil_iff.mpr
    intro e _
    simp [heq]
  · next hne =>
    apply List.filter_congr
    intro e _
    by_cases hkey : e.1 = k
    · simp [hkey, hne]
    · simp [hkey]

theorem without_comm (k k' : κ) (es : List (κ × α)) :
    without k (without k' es) = without k' (without k es) := by
  rw [without, without, without, without, List.filter_filter, List.filter_filter]
  apply List.filter_congr
  intro e _
  exact Bool.and_comm _ _

theorem mem_iff_mem_under (e : κ × α) (es : List (κ × α)) : e ∈ es ↔ e ∈ under e.1 es := by
  simp [under]

/-- Maps with the same entries under each key are the same. -/
theorem Ordered.ext {es' : List (κ × α)} (h : Ordered es) (h' : Ordered es')
    (heq : ∀ k, under k es = under k es') : es = es' := by
  have hmem : ∀ e, e ∈ es ↔ e ∈ es' := by
    intro e
    rw [mem_iff_mem_under e es, mem_iff_mem_under e es', heq]
  exact h.eq_of_perm h' ((List.perm_ext_iff_of_nodup h.nodup.of_map h'.nodup.of_map).mpr hmem)

/-- Leaving a key out before or after. -/
theorem without_putAll (k : κ) (es : List (κ × α)) :
    without k (putAll es []) = putAll (without k es) [] := by
  apply ((ordered_putAll es).filter _).ext (ordered_putAll _)
  intro k'
  change under k' (without k (putAll es [])) = _
  rw [under_without, under_putAll .nil, under_putAll .nil, under_without]
  split
  · rfl
  · rfl

/-- An entry that is put in and left out again. -/
theorem without_put (h : Ordered es) (hnew : k ∉ keys es) : without k (put k a es) = es := by
  apply (h.put.filter _).ext h
  intro k'
  change under k' (without k (put k a es)) = _
  rw [under_without, under_put h]
  split
  · next heq =>
    exact (under_of_not_mem (heq ▸ hnew)).symm
  · next hne => rw [if_neg (Ne.symm hne)]

end Under

section Map

variable (f : α → β)

/-- The values of a map, changed. -/
def mapValues (es : List (κ × α)) : List (κ × β) := es.map fun e => (e.1, f e.2)

theorem Ordered.mapValues (h : Ordered es) : Ordered (mapValues f es) :=
  List.pairwise_map.mpr h

theorem mapValues_put (k : κ) (a : α) (es : List (κ × α)) :
    mapValues f (put k a es) = put k (f a) (mapValues f es) := by
  induction es with
  | nil => rfl
  | cons e es ih =>
    have hcons : ∀ l, mapValues f (e :: l) = (e.1, f e.2) :: mapValues f l := fun _ => rfl
    rw [hcons, put, put]
    split
    · rfl
    · split
      · rfl
      · rw [hcons, ih]

theorem mapValues_putAll (es acc : List (κ × α)) :
    mapValues f (putAll es acc) = putAll (mapValues f es) (mapValues f acc) := by
  induction es generalizing acc with
  | nil => rfl
  | cons e es ih =>
    have hstep : putAll (e :: es) acc = putAll es (put e.1 e.2 acc) := rfl
    rw [hstep, ih, mapValues_put]
    rfl

end Map

end Lib.Entries
