import Rootmode.Lib.Object

namespace Lib.Json

open Entries

variable {k k' : String} {p : List String} {v w x y z : Json} {es es' : List (String × Json)}

/-- What stands at the end of a path of keys. -/
def reach : List String → Json → Option Json
  | [], v => some v
  | k :: p, v => (v.get k).bind (reach p)

/-- A value that holds no other under a key. -/
def Final (z : Json) : Prop := ∀ es, z = obj es → es = []

/-- All that a value holds is in another at its place. -/
def Held (x y : Json) : Prop := ∀ p z, reach p x = some z → Final z → reach p y = some z

/-- A setting of a file: the empty file has none. -/
structure Setting (v : Json) (p : List String) (z : Json) : Prop where
  here : reach p v = some z
  final : Final z
  root : p = [] → z ≠ obj []

/-- Every setting has the value it had. -/
def Kept (v w : Json) : Prop := ∀ p z, Setting v p z → reach p w = some z

theorem reach_cons : reach (k :: p) v = some z ↔ ∃ x, v.get k = some x ∧ reach p x = some z :=
  Option.bind_eq_some_iff

theorem final_nil : Final (obj []) := fun _ h => (Json.obj.inj h).symm

theorem final_of_not_obj (h : ∀ es, z ≠ obj es) : Final z := fun es hz => absurd hz (h es)

theorem not_final_cons {e : String × Json} : ¬ Final (obj (e :: es)) := fun h => List.cons_ne_nil e es (h _ rfl)

theorem get_of_not_obj (h : ∀ es, v ≠ obj es) : v.get k = none := by
  cases v with
  | obj es => exact absurd rfl (h es)
  | null | bool | num | str | arr => rfl

theorem get_cons_self (e : String × Json) (es : List (String × Json)) : (obj (e :: es)).get e.1 = some e.2 := by
  rw [get_obj, lookup_cons, if_pos rfl]

/-- Every value holds something. -/
theorem exists_final : ∀ x : Json, ∃ p z, reach p x = some z ∧ Final z
  | null => ⟨[], _, rfl, final_of_not_obj fun _ h => by cases h⟩
  | bool _ => ⟨[], _, rfl, final_of_not_obj fun _ h => by cases h⟩
  | num _ => ⟨[], _, rfl, final_of_not_obj fun _ h => by cases h⟩
  | str _ => ⟨[], _, rfl, final_of_not_obj fun _ h => by cases h⟩
  | arr _ => ⟨[], _, rfl, final_of_not_obj fun _ h => by cases h⟩
  | obj [] => ⟨[], _, rfl, final_nil⟩
  | obj ((k, x) :: es) => by
    obtain ⟨p, z, hreach, hfinal⟩ := exists_final x
    exact ⟨k :: p, z, reach_cons.mpr ⟨x, get_cons_self (k, x) es, hreach⟩, hfinal⟩

theorem Held.refl (x : Json) : Held x x := fun _ _ h _ => h

/-- What is not an object is held by itself alone. -/
theorem held_of_not_obj (h : ∀ es, x ≠ obj es) : Held x y ↔ y = x := by
  constructor
  · intro hheld
    exact Option.some.inj (hheld [] x rfl (final_of_not_obj h))
  · rintro rfl
    exact Held.refl _

theorem held_nil : Held (obj []) y ↔ y = obj [] := by
  constructor
  · intro hheld
    exact Option.some.inj (hheld [] _ rfl final_nil)
  · rintro rfl
    exact Held.refl _

/-- What is held under a key is there under it. -/
theorem held_get (h : ∀ p z, reach (k :: p) v = some z → Final z → reach (k :: p) w = some z)
    (hx : v.get k = some x) : ∃ y, w.get k = some y ∧ Held x y := by
  obtain ⟨p, z, hreach, hfinal⟩ := exists_final x
  obtain ⟨y, hy, -⟩ := reach_cons.mp (h p z (reach_cons.mpr ⟨x, hx, hreach⟩) hfinal)
  refine ⟨y, hy, fun p' z' hreach' hfinal' => ?_⟩
  obtain ⟨y', hy', hthere⟩ := reach_cons.mp (h p' z' (reach_cons.mpr ⟨x, hx, hreach'⟩) hfinal')
  rw [hy] at hy'
  cases hy'
  exact hthere

theorem reach_of_held (h : ∀ k x, v.get k = some x → ∃ y, w.get k = some y ∧ Held x y)
    (hreach : reach (k :: p) v = some z) (hfinal : Final z) : reach (k :: p) w = some z := by
  obtain ⟨x, hx, hthere⟩ := reach_cons.mp hreach
  obtain ⟨y, hy, hheld⟩ := h k x hx
  exact reach_cons.mpr ⟨y, hy, hheld p z hthere hfinal⟩

theorem held_obj (hne : es ≠ []) :
    Held (obj es) y ↔ ∀ k x, (obj es).get k = some x → ∃ y', y.get k = some y' ∧ Held x y' := by
  constructor
  · intro hheld k x hx
    exact held_get (fun p z => hheld (k :: p) z) hx
  · intro h p z hreach hfinal
    cases p with
    | nil => exact absurd (hfinal es (Option.some.inj hreach).symm) hne
    | cons k p => exact reach_of_held h hreach hfinal

theorem kept_obj : Kept (obj es) w ↔ ∀ k x, (obj es).get k = some x → ∃ y, w.get k = some y ∧ Held x y := by
  constructor
  · intro hkept k x hx
    refine held_get (fun p z hreach hfinal => hkept (k :: p) z ⟨hreach, hfinal, ?_⟩) hx
    intro hp
    cases hp
  · rintro h p z ⟨hreach, hfinal, hroot⟩
    cases p with
    | nil =>
      have hz : obj es = z := Option.some.inj hreach
      have hnil : es = [] := hfinal es hz.symm
      exact absurd (hz.symm.trans (congrArg obj hnil)) (hroot rfl)
    | cons k p => exact reach_of_held h hreach hfinal

theorem kept_of_not_obj (h : ∀ es, v ≠ obj es) : Kept v w ↔ w = v := by
  constructor
  · intro hkept
    exact Option.some.inj (hkept [] v ⟨rfl, final_of_not_obj h, fun _ => h []⟩)
  · rintro rfl p z hset
    exact hset.here

/-- What is looked up alike holds the same, where it is empty if it was. -/
theorem held_of_get (hget : ∀ k x, (obj es).get k = some x → y.get k = some x)
    (hnil : es = [] → y = obj []) : Held (obj es) y := by
  by_cases hes : es = []
  · rw [hnil hes, hes]
    exact Held.refl _
  · exact (held_obj hes).mpr fun k x hx => ⟨x, hget k x hx, Held.refl x⟩

theorem not_held_of_get (hx : (obj es).get k = some x) (hy : y.get k = none) : ¬ Held (obj es) y := by
  intro hheld
  have hne : es ≠ [] := by
    rintro rfl
    cases hx
  obtain ⟨y', hy', -⟩ := (held_obj hne).mp hheld k x hx
  rw [hy] at hy'
  cases hy'

theorem get_remove (v : Json) : (v.remove k).get k' = if k = k' then none else v.get k' := by
  cases v with
  | obj es => exact lookup_without
  | null | bool | num | str | arr => exact (ite_self _).symm

end Lib.Json
