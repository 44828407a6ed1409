import Mathlib.Data.List.Basic

universe u

namespace Lib

variable {α : Type u} {p q r : α → Bool} {l : List α}

/-- Nothing that meets `q` comes in the list before something that meets `p`. -/
inductive Unshadowed (p q : α → Bool) : List α → Prop
  | nil : Unshadowed p q []
  | hit {a : α} {l : List α} : p a → Unshadowed p q (a :: l)
  | skip {a : α} {l : List α} : ¬ q a → Unshadowed p q l → Unshadowed p q (a :: l)

namespace Unshadowed

theorem mono (hqr : ∀ a, q a → r a) (h : Unshadowed p r l) : Unshadowed p q l := by
  induction h with
  | nil => exact .nil
  | hit ha => exact .hit ha
  | skip ha _ ih => exact .skip (fun hq => ha (hqr _ hq)) ih

/-- Of two tests, one stricter than the other, both find the same first exactly where nothing
shadows the stricter one. -/
theorem find?_eq_iff (hpq : ∀ a, p a → q a) : l.find? p = l.find? q ↔ Unshadowed p q l := by
  induction l with
  | nil => exact iff_of_true rfl .nil
  | cons a l ih =>
    by_cases hp : p a
    · rw [List.find?_cons_of_pos hp, List.find?_cons_of_pos (hpq a hp)]
      exact iff_of_true rfl (.hit hp)
    · by_cases hq : q a
      · rw [List.find?_cons_of_neg hp, List.find?_cons_of_pos hq]
        constructor
        · intro h
          exact absurd (List.find?_some h) hp
        · intro h
          cases h with
          | hit ha => exact absurd ha hp
          | skip ha _ => exact absurd hq ha
      · rw [List.find?_cons_of_neg hp, List.find?_cons_of_neg hq, ih]
        constructor
        · exact .skip hq
        · intro h
          cases h with
          | hit ha => exact absurd ha hp
          | skip _ hl => exact hl

/-- Three tests, each stricter than the next, agree where nothing shadows the strictest. -/
theorem find?_eq_both_iff (hpq : ∀ a, p a → q a) (hqr : ∀ a, q a → r a) :
    l.find? q = l.find? p ∧ l.find? p = l.find? r ↔ Unshadowed p r l := by
  rw [eq_comm, find?_eq_iff hpq, find?_eq_iff fun a ha => hqr a (hpq a ha)]
  exact and_iff_right_of_imp (mono hqr)

end Unshadowed

/-- The first to meet a test, of several tests the first that anything meets. -/
def firstBy : List (α → Bool) → List α → Option α
  | [], _ => none
  | p :: ps, l => (l.find? p).or (firstBy ps l)

/-- It is found by a test, nothing before it meets that test, and nothing at all those before. -/
inductive FirstBy (l : List α) (a : α) : List (α → Bool) → Prop
  | found {p : α → Bool} {ps : List (α → Bool)} (before after : List α) : l = before ++ a :: after → p a = true →
      (∀ b ∈ before, p b = false) → FirstBy l a (p :: ps)
  | later {p : α → Bool} {ps : List (α → Bool)} : (∀ b ∈ l, p b = false) → FirstBy l a ps → FirstBy l a (p :: ps)

theorem firstBy_eq_some {ps : List (α → Bool)} {a : α} : firstBy ps l = some a ↔ FirstBy l a ps := by
  induction ps with
  | nil =>
    constructor
    · rintro ⟨⟩
    · rintro ⟨⟩
  | cons p ps ih =>
    rw [firstBy]
    constructor
    · intro h
      cases hfind : l.find? p with
      | none =>
        rw [hfind, Option.none_or] at h
        exact .later (fun b hb => by simpa using List.find?_eq_none.mp hfind b hb) (ih.mp h)
      | some b =>
        rw [hfind, Option.some_or] at h
        obtain ⟨hp, before, after, hsplit, hbefore⟩ := List.find?_eq_some_iff_append.mp hfind
        obtain rfl := Option.some.inj h
        exact .found before after hsplit hp fun b hb => by simpa using hbefore b hb
    · intro h
      cases h with
      | found before after hsplit hp hbefore =>
        rw [List.find?_eq_some_iff_append.mpr ⟨hp, before, after, hsplit, fun b hb => by simp [hbefore b hb]⟩]
        rfl
      | later hnone hrest =>
        rw [List.find?_eq_none.mpr fun b hb => by simp [hnone b hb], Option.none_or]
        exact ih.mpr hrest

theorem firstBy_eq_none {ps : List (α → Bool)} : firstBy ps l = none ↔ ∀ p ∈ ps, ∀ b ∈ l, p b = false := by
  induction ps with
  | nil => simp [firstBy]
  | cons p ps ih => simp [firstBy, ih]

end Lib
