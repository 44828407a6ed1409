import Rootmode.Lib.Json
import Mathlib.Logic.Equiv.Basic

namespace Lib

open Entries Ieee

/-- How the values of a type are written and which texts they are read from.  `Fits` are the values
within the type's range, `Whole` those that come back as they went. -/
structure Codec (α : Type) where
  encode : α → Json
  decode : Json → Option α
  Fits : α → Prop
  Whole : α → Prop
  isValue : ∀ x, (encode x).IsValue
  decode_encode : ∀ x, Fits x → Whole x → decode (encode x) = some x
  fits : ∀ j x, decode j = some x → Fits x
  stable : ∀ j x, decode j = some x → decode j.value = some x

namespace Codec

variable {α β : Type}

def text : Codec Text where
  encode := .str
  decode
    | .str s => some s
    | _ => none
  Fits _ := True
  Whole _ := True
  isValue _ := rfl
  decode_encode _ _ _ := rfl
  fits _ _ _ := trivial
  stable j x h := by
    cases j with
    | str s => exact h
    | null | bool | num | arr | obj => nomatch h

def bool : Codec Bool where
  encode := .bool
  decode
    | .bool b => some b
    | _ => none
  Fits _ := True
  Whole _ := True
  isValue _ := rfl
  decode_encode _ _ _ := rfl
  fits _ _ _ := trivial
  stable j x h := by
    cases j with
    | bool b => exact h
    | null | str | num | arr | obj => nomatch h

def decodeUint (bits : ℕ) : Json → Option ℕ
  | .num (.int n) => if 0 ≤ n ∧ n.toNat < 2 ^ bits then some n.toNat else none
  | _ => none

theorem decodeUint_num {bits : ℕ} {j : Json} {x : ℕ} (h : decodeUint bits j = some x) :
    j = .num (.int x) ∧ x < 2 ^ bits := by
  unfold decodeUint at h
  split at h
  · next n =>
    obtain ⟨⟨hpos, hlt⟩, heq⟩ := Option.ite_none_right_eq_some.mp h
    cases heq
    exact ⟨by rw [Int.toNat_of_nonneg hpos], hlt⟩
  · nomatch h

/-- An unsigned number of the given bits. -/
def uint (bits : ℕ) : Codec ℕ where
  encode n := .num (.int n)
  decode := decodeUint bits
  Fits n := n < 2 ^ bits
  Whole _ := True
  isValue _ := rfl
  decode_encode n h _ := if_pos ⟨Int.natCast_nonneg n, h⟩
  fits _ _ h := (decodeUint_num h).2
  stable j x h := by
    obtain ⟨rfl, -⟩ := decodeUint_num h
    exact h

/-- A float of 32 bits is written as one of 64, and as `null` where it is not finite. -/
def float32 : Codec (Number binary32) where
  encode x :=
    match x.cast binary64 with
    | .finite y => .num (.float y)
    | _ => .null
  decode
    | .num (.float y) => some ((Number.finite y).cast binary32)
    | .num (.int n) => some (.ofInt binary32 n)
    | _ => none
  Fits _ := True
  Whole x := ∃ y, x = .finite y
  isValue x := by split <;> rfl
  decode_encode x _ hwhole := by
    obtain ⟨y, rfl⟩ := hwhole
    obtain ⟨z, hwide, hback⟩ := cast_cast wider_binary64 y
    rw [hwide]
    exact congrArg some hback
  fits _ _ _ := trivial
  stable j x h := by
    cases j with
    | num n => exact h
    | null | bool | str | arr | obj => nomatch h

/-- A float of 64 bits is written as it is, and as `null` where it is not finite. -/
def float64 : Codec (Number binary64) where
  encode
    | .finite x => .num (.float x)
    | _ => .null
  decode
    | .num (.float y) => some (.finite y)
    | .num (.int n) => some (.ofInt binary64 n)
    | _ => none
  Fits _ := True
  Whole x := ∃ y, x = .finite y
  isValue x := by split <;> rfl
  decode_encode x _ hwhole := by
    obtain ⟨y, rfl⟩ := hwhole
    rfl
  fits _ _ _ := trivial
  stable j x h := by
    cases j with
    | num n => exact h
    | null | bool | str | arr | obj => nomatch h

/-- Any value. -/
def any : Codec { j : Json // j.IsValue } where
  encode := Subtype.val
  decode j := some ⟨j.value, j.isValue_value⟩
  Fits _ := True
  Whole _ := True
  isValue x := x.2
  decode_encode x _ _ := congrArg some (Subtype.ext x.2)
  fits _ _ _ := trivial
  stable j x h := by
    cases h
    exact congrArg some (Subtype.ext j.isValue_value)

theorem mapM_encode (c : Codec α) {xs : List α} (hfits : ∀ x ∈ xs, c.Fits x)
    (hwhole : ∀ x ∈ xs, c.Whole x) : (xs.map c.encode).mapM c.decode = some xs := by
  induction xs with
  | nil => rfl
  | cons x xs ih =>
    rw [List.map_cons, List.mapM_cons, c.decode_encode x (hfits x (.head _)) (hwhole x (.head _)),
      ih (fun y hy => hfits y (.tail _ hy)) (fun y hy => hwhole y (.tail _ hy))]
    rfl

/-- What was read item by item. -/
theorem mapM_cons_some {f : α → Option β} {x : α} {xs : List α} {ys : List β}
    (h : (x :: xs).mapM f = some ys) :
    ∃ y ys', f x = some y ∧ xs.mapM f = some ys' ∧ ys = y :: ys' := by
  rw [List.mapM_cons] at h
  obtain ⟨y, hy, hrest⟩ := Option.bind_eq_some_iff.mp h
  obtain ⟨ys', hys, heq⟩ := Option.bind_eq_some_iff.mp hrest
  exact ⟨y, ys', hy, hys, (Option.some.inj heq).symm⟩

theorem mapM_fits (c : Codec α) {js : List Json} {xs : List α} (h : js.mapM c.decode = some xs) :
    ∀ x ∈ xs, c.Fits x := by
  induction js generalizing xs with
  | nil =>
    cases h
    exact fun _ hx => nomatch hx
  | cons j js ih =>
    obtain ⟨x, xs', hx, hxs, rfl⟩ := mapM_cons_some h
    exact List.forall_mem_cons.mpr ⟨c.fits j x hx, ih hxs⟩

theorem mapM_stable (c : Codec α) {js : List Json} {xs : List α} (h : js.mapM c.decode = some xs) :
    (Json.values js).mapM c.decode = some xs := by
  induction js generalizing xs with
  | nil => exact h
  | cons j js ih =>
    obtain ⟨x, xs', hx, hxs, rfl⟩ := mapM_cons_some h
    rw [Json.values, List.mapM_cons, c.stable j x hx, ih hxs]
    rfl

def list (c : Codec α) : Codec (List α) where
  encode xs := .arr (xs.map c.encode)
  decode
    | .arr js => js.mapM c.decode
    | _ => none
  Fits xs := ∀ x ∈ xs, c.Fits x
  Whole xs := ∀ x ∈ xs, c.Whole x
  isValue xs := by
    apply Json.isValue_arr
    intro j hj
    obtain ⟨x, -, rfl⟩ := List.mem_map.mp hj
    exact c.isValue x
  decode_encode _ hfits hwhole := c.mapM_encode hfits hwhole
  fits j xs h := by
    cases j with
    | arr js => exact c.mapM_fits h
    | null | bool | num | str | obj => nomatch h
  stable j xs h := by
    cases j with
    | arr js => exact c.mapM_stable h
    | null | bool | num | str | obj => nomatch h

def decodeOption (c : Codec α) : Json → Option (Option α)
  | .null => some none
  | j => (c.decode j).map some

theorem decodeOption_of_ne (c : Codec α) {j : Json} (h : j ≠ .null) :
    c.decodeOption j = (c.decode j).map some := by
  unfold decodeOption
  split
  · exact absurd rfl h
  · rfl

/-- `null`, or a value that is not written so. -/
def option (c : Codec α) (hnull : c.decode .null = none) : Codec (Option α) where
  encode x := x.elim .null c.encode
  decode := c.decodeOption
  Fits x := ∀ y ∈ x, c.Fits y
  Whole x := ∀ y ∈ x, c.Whole y
  isValue x := by
    cases x with
    | none => rfl
    | some x => exact c.isValue x
  decode_encode x hfits hwhole := by
    cases x with
    | none => rfl
    | some x =>
      have hback : c.decode (c.encode x) = some x := c.decode_encode x (hfits x rfl) (hwhole x rfl)
      have hne : c.encode x ≠ .null := by
        intro heq
        rw [heq, hnull] at hback
        nomatch hback
      rw [Option.elim_some, c.decodeOption_of_ne hne, hback]
      rfl
  fits j x h := by
    by_cases hj : j = .null
    · subst hj
      cases h
      exact fun _ hy => nomatch hy
    · rw [c.decodeOption_of_ne hj] at h
      obtain ⟨y, hy, rfl⟩ := Option.map_eq_some_iff.mp h
      intro z hz
      cases hz
      exact c.fits j y hy
  stable j x h := by
    cases j with
    | null => exact h
    | bool | num | str | arr | obj =>
      obtain ⟨y, hy, rfl⟩ := Option.map_eq_some_iff.mp h
      exact congrArg (Option.map some) (c.stable _ y hy)

end Codec

end Lib
