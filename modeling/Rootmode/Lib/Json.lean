import Rootmode.Lib.Entries
import Rootmode.Lib.Ieee
import Rootmode.Lib.Text
import Mathlib.Data.String.Basic

namespace Lib

open Entries Ieee

/-- A JSON number as it is read: an integer where it is written as one, else a float. -/
inductive Num
  | int (n : ℤ)
  | float (x : Finite binary64)
  deriving DecidableEq

/-- A JSON text as it is read, the entries of an object in their order. -/
inductive Json
  | null
  | bool (b : Bool)
  | num (n : Num)
  | str (s : Text)
  | arr (items : List Json)
  | obj (entries : List (String × Json))

namespace Json

mutual

/-- What a value keeps of a text: objects are ordered, with one entry a key. -/
def value : Json → Json
  | null => null
  | bool b => bool b
  | num n => num n
  | str s => str s
  | arr items => arr (values items)
  | obj entries => obj (putAll (entryValues entries) [])

def values : List Json → List Json
  | [] => []
  | j :: js => j.value :: values js

def entryValues : List (String × Json) → List (String × Json)
  | [] => []
  | e :: es => (e.1, e.2.value) :: entryValues es

end

def get (j : Json) (k : String) : Option Json :=
  match j with
  | obj es => (es.find? fun e => e.1 = k).map Prod.snd
  | _ => none

/-- The object without an entry. -/
def remove (j : Json) (k : String) : Json :=
  match j with
  | obj es => obj (without k es)
  | j => j

/-- The value of an object with the given entries. -/
def object (es : List (String × Json)) : Json := obj (putAll es [])

theorem values_eq_map (js : List Json) : values js = js.map value := by
  induction js with
  | nil => rfl
  | cons j js ih => rw [values, ih, List.map_cons]

theorem entryValues_eq_map (es : List (String × Json)) :
    entryValues es = mapValues value es := by
  induction es with
  | nil => rfl
  | cons e es ih => rw [entryValues, ih, mapValues, mapValues, List.map_cons]

theorem keys_entryValues (es : List (String × Json)) : keys (entryValues es) = keys es := by
  rw [entryValues_eq_map, mapValues, keys, keys, List.map_map]
  rfl

theorem under_entryValues (k : String) (es : List (String × Json)) :
    under k (entryValues es) = (under k es).map fun e => (e.1, e.2.value) := by
  rw [entryValues_eq_map, mapValues, under, under, List.filter_map]
  rfl

theorem entryValues_without (k : String) (es : List (String × Json)) :
    entryValues (without k es) = without k (entryValues es) := by
  rw [entryValues_eq_map, entryValues_eq_map, mapValues, mapValues, without, without,
    List.filter_map]
  rfl

theorem entryValues_putAll_nil (es : List (String × Json)) :
    entryValues (putAll es []) = putAll (entryValues es) [] := by
  rw [entryValues_eq_map, entryValues_eq_map]
  exact mapValues_putAll value es []

/-- The text of a value. -/
def IsValue (j : Json) : Prop := j.value = j

mutual

theorem isValue_value : ∀ j : Json, j.value.IsValue
  | null => rfl
  | bool _ => rfl
  | num _ => rfl
  | str _ => rfl
  | arr items => congrArg arr (values_values items)
  | obj entries => by
    rw [IsValue, value, value, entryValues_putAll_nil, entryValues_entryValues,
      (ordered_putAll _).putAll_self]

theorem values_values : ∀ js : List Json, values (values js) = values js
  | [] => rfl
  | j :: js => congrArg₂ List.cons (isValue_value j) (values_values js)

theorem entryValues_entryValues : ∀ es : List (String × Json),
    entryValues (entryValues es) = entryValues es
  | [] => rfl
  | e :: es => congrArg₂ (fun j es => (e.1, j) :: es) (isValue_value e.2) (entryValues_entryValues es)

end

theorem entryValues_self {es : List (String × Json)} (h : ∀ e ∈ es, e.2.IsValue) :
    entryValues es = es := by
  induction es with
  | nil => rfl
  | cons e es ih =>
    have hhead : e.2.value = e.2 := h e (.head _)
    rw [entryValues, hhead, ih fun e he => h e (.tail _ he)]

theorem isValue_obj {es : List (String × Json)} (hord : Ordered es) (h : ∀ e ∈ es, e.2.IsValue) :
    (obj es).IsValue := by
  rw [IsValue, value, entryValues_self h, hord.putAll_self]

/-- The values in an ordered object that is one. -/
theorem IsValue.entryValues {es : List (String × Json)} (h : (obj es).IsValue) (hord : Ordered es) :
    Json.entryValues es = es := by
  have hord' : Ordered (Json.entryValues es) := by
    rw [entryValues_eq_map]
    exact hord.mapValues value
  rw [IsValue, value, hord'.putAll_self] at h
  exact Json.obj.inj h

theorem isValue_object {es : List (String × Json)} (h : ∀ e ∈ es, e.2.IsValue) :
    (object es).IsValue := by
  rw [object, IsValue, value, entryValues_putAll_nil, entryValues_self h,
    (ordered_putAll es).putAll_self]

theorem isValue_arr {items : List Json} (h : ∀ j ∈ items, j.IsValue) : (arr items).IsValue := by
  apply congrArg arr
  rw [values_eq_map]
  exact (List.map_congr_left h).trans (List.map_id' items)

/-- How a printer writes what programs write differently. -/
structure Printer where
  float : Finite binary64 → Text
  escape : Char → Text

section Render

variable (P : Printer)

def quote (s : Text) : Text := '"' :: (s.flatMap P.escape ++ ['"'])

mutual

/-- A text without blanks. -/
def render : Json → Text
  | null => "null".toList
  | bool b => (toString b).toList
  | num (.int n) => (toString n).toList
  | num (.float x) => P.float x
  | str s => quote P s
  | arr items => '[' :: ([','].intercalate (renderItems items) ++ [']'])
  | obj entries => '{' :: ([','].intercalate (renderEntries entries) ++ ['}'])

def renderItems : List Json → List Text
  | [] => []
  | j :: js => j.render :: renderItems js

def renderEntries : List (String × Json) → List Text
  | [] => []
  | e :: es => (quote P e.1.toList ++ ':' :: e.2.render) :: renderEntries es

end

end Render

end Json

end Lib
