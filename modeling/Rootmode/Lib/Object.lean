import Rootmode.Lib.Json

universe u v

namespace Lib

namespace Entries

variable {κ : Type u} [LinearOrder κ] {α : Type v} {k k' : κ} {a : α} {e : κ × α} {es acc : List (κ × α)}

/-- What is there under a key, the first of it. -/
def lookup (k : κ) (es : List (κ × α)) : Option α := (es.find? fun e => e.1 = k).map Prod.snd

@[simp] theorem lookup_nil : lookup k ([] : List (κ × α)) = none := rfl

@[simp] theorem lookup_cons : lookup k (e :: es) = if e.1 = k then some e.2 else lookup k es := by
  unfold lookup
  by_cases h : e.1 = k <;> simp [h]

theorem lookup_put : lookup k' (put k a es) = if k = k' then some a else lookup k' es := by
  induction es with
  | nil => rw [put, lookup_cons, lookup_nil]
  | cons e es ih =>
    unfold put
    split
    · rw [lookup_cons]
    · split
      · next heq =>
        rw [lookup_cons, lookup_cons, ← heq]
        split
        · rfl
        · rfl
      · next hne =>
        rw [lookup_cons, lookup_cons, ih]
        by_cases hk : e.1 = k'
        · have hother : k ≠ k' := fun h => hne (h.trans hk.symm)
          rw [if_pos hk, if_pos hk, if_neg hother]
        · rw [if_neg hk, if_neg hk]

theorem lookup_putAll : lookup k (putAll es acc) = (lookup k es.reverse).or (lookup k acc) := by
  induction es generalizing acc with
  | nil => rfl
  | cons e es ih =>
    have happ : lookup k (es.reverse ++ [e]) = (lookup k es.reverse).or (lookup k [e]) := by
      unfold lookup
      rw [List.find?_append]
      cases List.find? (fun e => decide (e.1 = k)) es.reverse <;> rfl
    have hstep : putAll (e :: es) acc = putAll es (put e.1 e.2 acc) := rfl
    rw [hstep, ih, lookup_put, List.reverse_cons, happ, lookup_cons, lookup_nil, Option.or_assoc]
    split <;> rfl

theorem lookup_without : lookup k' (without k es) = if k = k' then none else lookup k' es := by
  induction es with
  | nil => simp [without]
  | cons e es ih =>
    unfold without at ih ⊢
    rw [List.filter_cons, lookup_cons]
    split
    · next hkeep =>
      have hne : e.1 ≠ k := by simpa using hkeep
      rw [lookup_cons, ih]
      by_cases hk : e.1 = k'
      · have hother : k ≠ k' := fun h => hne (hk.trans h.symm)
        rw [if_pos hk, if_pos hk, if_neg hother]
      · rw [if_neg hk, if_neg hk]
    · next hdrop =>
      have heq : e.1 = k := by simpa using hdrop
      rw [ih, heq]
      split
      · rfl
      · rfl

end Entries

namespace Json

open Entries

variable {k k' : String} {j : Json} {es : List (String × Json)}

/-- A text written in a program. -/
def word (s : String) : Json := .str s.toList

def count (n : ℕ) : Json := .num (.int n)

theorem get_obj : (obj es).get k = lookup k es := rfl

theorem get_object : (object es).get k = lookup k es.reverse := by
  rw [object, get_obj, lookup_putAll, lookup_nil, Option.or_none]

/-- The object with an entry put in. -/
def insert (v : Json) (k : String) (j : Json) : Json :=
  match v with
  | obj es => obj (put k j es)
  | v => v

theorem get_insert_obj : ((obj es).insert k j).get k' = if k = k' then some j else (obj es).get k' :=
  lookup_put

theorem get_insert_of_ne (v : Json) (h : k ≠ k') : (v.insert k j).get k' = v.get k' := by
  cases v with
  | obj es => rw [get_insert_obj, if_neg h]
  | null | bool | num | str | arr => rfl

end Json

end Lib
