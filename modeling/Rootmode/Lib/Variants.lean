import Rootmode.Lib.Record

namespace Lib

open Entries

variable {α ρ σ : Type} {tag name : String}

namespace FieldCodec

theorem fits_of_some_none (c : Codec α) (hnull : c.decode .null = none) (x : Option α) (h : some none = some x) :
    (c.option hnull).Fits x := by
  obtain rfl := Option.some_inj.mp h
  exact fun y hy => absurd hy (Option.not_mem_none y)

/-- A field that is always written, `null` where there is nothing. -/
def nullable (c : Codec α) (hnull : c.decode .null = none) : FieldCodec (Option α) where
  codec := c.option hnull
  default := some none
  skips _ := false
  default_of_skips _ h := nomatch h
  fits_default := fits_of_some_none c hnull

/-- A text that has no entry when it is empty. -/
def unlessEmpty : FieldCodec Text where
  codec := .text
  default := some []
  skips := List.isEmpty
  default_of_skips x h := by rw [List.isEmpty_iff.mp h]
  fits_default _ _ := trivial

end FieldCodec

namespace Codec

/-- What comes with a variant that carries nothing. -/
def isUnit : Json → Bool
  | .null => true
  | .obj [] => true
  | _ => false

/-- The name of a variant: a text, or the one entry of an object with nothing in it. -/
def variantName : Json → Option Text
  | .str s => some s
  | .obj [e] => if isUnit e.2 then some e.1.toList else none
  | _ => none

theorem isUnit_value {j : Json} (h : isUnit j = true) : isUnit j.value = true := by
  cases j with
  | null => rfl
  | obj es =>
    cases es with
    | nil => rfl
    | cons => nomatch h
  | bool | num | str | arr => nomatch h

theorem variantName_value {j : Json} {s : Text} (h : variantName j = some s) : variantName j.value = some s := by
  match j with
  | .str _ => exact h
  | .obj [e] =>
    obtain ⟨hunit, hname⟩ := Option.ite_none_right_eq_some.mp h
    exact (if_pos (isUnit_value hunit)).trans hname
  | .null | .bool _ | .num _ | .arr _ | .obj [] | .obj (_ :: _ :: _) => nomatch h

/-- A type of a few values, each written by its name. -/
def variant (text : α → String) (find : Text → Option α) (h : ∀ x, find (text x).toList = some x) : Codec α where
  encode x := .str (text x).toList
  decode j := (variantName j).bind find
  Fits _ := True
  Whole _ := True
  isValue _ := rfl
  decode_encode x _ _ := h x
  fits _ _ _ := trivial
  stable j x hx := by
    obtain ⟨s, hs, hfind⟩ := Option.bind_eq_some_iff.mp hx
    exact Option.bind_eq_some_iff.mpr ⟨s, variantName_value hs, hfind⟩

/-- What is written is an object, with no entry under the tag. -/
def Frees (c : Codec α) (tag : String) : Prop := ∀ x, ∃ es, c.encode x = .obj es ∧ Ordered es ∧ tag ∉ keys es

theorem frees_record (fs : Fields ρ) (hnames : fs.names.Nodup) (e : σ ≃ ρ) (h : tag ∉ fs.names) :
    (record fs hnames e).Frees tag := by
  intro x
  obtain ⟨es, hes, hord, hkeys⟩ := record_encode fs hnames e x
  exact ⟨es, hes, hord, fun hmem => h (hkeys tag hmem)⟩

theorem Frees.splitTag {c : Codec α} (h : c.Frees tag) (name : String) (x : α) :
    Lib.splitTag tag (withTag tag name (c.encode x)) = some (.str name.toList, c.encode x) := by
  obtain ⟨es, hes, hord, hnew⟩ := h x
  rw [hes]
  exact splitTag_withTag hord hnew

end Codec

end Lib
