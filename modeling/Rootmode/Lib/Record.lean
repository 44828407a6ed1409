import Rootmode.Lib.Codec

namespace Lib

open Entries

variable {α β ρ σ : Type}

/-- What the entries say of a name: nothing, a value, or too much. -/
inductive Slot
  | missing
  | entry (j : Json)
  | repeated

def slot (name : String) (es : List (String × Json)) : Slot :=
  match under name es with
  | [] => .missing
  | [e] => .entry e.2
  | _ => .repeated

def Slot.value : Slot → Slot
  | .missing => .missing
  | .entry j => .entry j.value
  | .repeated => .repeated

theorem slot_entryValues (name : String) (es : List (String × Json)) :
    slot name (Json.entryValues es) = (slot name es).value := by
  rw [slot, slot, Json.under_entryValues]
  match under name es with
  | [] => rfl
  | [_] => rfl
  | _ :: _ :: _ => rfl

/-- What is said once is said alike of the value. -/
theorem slot_putAll {name : String} {es : List (String × Json)} (h : slot name es ≠ .repeated) :
    slot name (putAll es []) = slot name es := by
  have hlen : (under name es).length ≤ 1 := by
    unfold slot at h
    match hunder : under name es with
    | [] => exact Nat.zero_le _
    | [_] => exact le_rfl
    | _ :: _ :: _ =>
      rw [hunder] at h
      exact absurd rfl h
  rw [slot, slot, under_putAll_nil name hlen]

theorem slot_without (name name' : String) (es : List (String × Json)) :
    slot name (without name' es) = if name = name' then .missing else slot name es := by
  by_cases heq : name = name'
  · rw [slot, under_without, if_pos heq, if_pos heq]
  · rw [slot, under_without, if_neg heq, if_neg heq, slot]

theorem slot_put {name name' : String} {j : Json} {es : List (String × Json)} (h : Ordered es) :
    slot name (put name' j es) = if name' = name then .entry j else slot name es := by
  by_cases heq : name' = name
  · rw [slot, under_put h, if_pos heq, if_pos heq]
  · rw [slot, under_put h, if_neg heq, if_neg heq, slot]

theorem get_of_slot {k : String} {es : List (String × Json)} {j : Json} (h : slot k es = .entry j) :
    (Json.obj es).get k = some j := by
  unfold slot at h
  rw [Json.get, ← List.head?_filter]
  match hunder : under k es with
  | [e] =>
    rw [hunder] at h
    cases h
    exact congrArg (fun l => l.head?.map Prod.snd) hunder
  | [] =>
    rw [hunder] at h
    nomatch h
  | _ :: _ :: _ =>
    rw [hunder] at h
    nomatch h

theorem get_of_missing {k : String} {es : List (String × Json)} (h : slot k es = .missing) :
    (Json.obj es).get k = none := by
  unfold slot at h
  rw [Json.get, ← List.head?_filter]
  match hunder : under k es with
  | [] => exact congrArg (fun l => l.head?.map Prod.snd) hunder
  | [_] =>
    rw [hunder] at h
    nomatch h
  | _ :: _ :: _ =>
    rw [hunder] at h
    nomatch h

theorem slot_congr {name : String} {es es' : List (String × Json)}
    (h : under name es = under name es') : slot name es = slot name es' := by
  rw [slot, slot, h]

/-- How a field of a record is written and read: what a missing entry stands for, and which values
have no entry. -/
structure FieldCodec (α : Type) where
  codec : Codec α
  default : Option α
  skips : α → Bool
  default_of_skips : ∀ x, skips x = true → default = some x
  fits_default : ∀ x, default = some x → codec.Fits x

namespace FieldCodec

def required (c : Codec α) : FieldCodec α where
  codec := c
  default := none
  skips _ := false
  default_of_skips _ h := nomatch h
  fits_default _ h := nomatch h

def defaulted (c : Codec α) (x : α) (h : c.Fits x) : FieldCodec α where
  codec := c
  default := some x
  skips _ := false
  default_of_skips _ h := nomatch h
  fits_default _ hy := Option.some.inj hy ▸ h

/-- A field that is there or not. -/
def optional (c : Codec α) (hnull : c.decode .null = none) : FieldCodec (Option α) where
  codec := c.option hnull
  default := some none
  skips := Option.isNone
  default_of_skips x h := by rw [Option.isNone_iff_eq_none.mp h]
  fits_default x h := by
    cases h
    exact fun _ hy => nomatch hy

/-- A list that has no entry when it is empty. -/
def listed (c : Codec α) : FieldCodec (List α) where
  codec := c.list
  default := some []
  skips := List.isEmpty
  default_of_skips x h := by rw [List.isEmpty_iff.mp h]
  fits_default x h := by
    cases h
    exact fun _ hy => nomatch hy

def read (f : FieldCodec α) : Slot → Option α
  | .missing => f.default
  | .entry j => f.codec.decode j
  | .repeated => none

theorem read_value {f : FieldCodec α} {s : Slot} {x : α} (h : f.read s = some x) :
    f.read s.value = some x := by
  cases s with
  | missing => exact h
  | entry j => exact f.codec.stable j x h
  | repeated => nomatch h

theorem ne_repeated_of_read {f : FieldCodec α} {s : Slot} {x : α} (h : f.read s = some x) :
    s ≠ .repeated := by
  intro heq
  rw [heq] at h
  nomatch h

theorem fits_of_read {f : FieldCodec α} {s : Slot} {x : α} (h : f.read s = some x) : f.codec.Fits x := by
  cases s with
  | missing => exact f.fits_default x h
  | entry j => exact f.codec.fits j x h
  | repeated => nomatch h

end FieldCodec

/-- The fields of a record, in their order. -/
inductive Fields : Type → Type 1
  | done : Fields Unit
  | and {α ρ : Type} (name : String) (f : FieldCodec α) (rest : Fields ρ) : Fields (α × ρ)

namespace Fields

def names : {ρ : Type} → Fields ρ → List String
  | _, done => []
  | _, .and name _ rest => name :: rest.names

def Fits : {ρ : Type} → Fields ρ → ρ → Prop
  | _, done, _ => True
  | _, .and _ f rest, x => f.codec.Fits x.1 ∧ rest.Fits x.2

def Whole : {ρ : Type} → Fields ρ → ρ → Prop
  | _, done, _ => True
  | _, .and _ f rest, x => f.codec.Whole x.1 ∧ rest.Whole x.2

def write : {ρ : Type} → Fields ρ → ρ → List (String × Json)
  | _, done, _ => []
  | _, .and name f rest, x =>
    if f.skips x.1 then rest.write x.2 else (name, f.codec.encode x.1) :: rest.write x.2

def read : {ρ : Type} → Fields ρ → List (String × Json) → Option ρ
  | _, done, _ => some ()
  | _, .and name f rest, es => do
    let x ← f.read (slot name es)
    let xs ← rest.read es
    return (x, xs)

theorem read_and {name : String} {f : FieldCodec α} {rest : Fields ρ} {es : List (String × Json)}
    {x : α × ρ} : (Fields.and name f rest).read es = some x ↔
      f.read (slot name es) = some x.1 ∧ rest.read es = some x.2 := by
  constructor
  · intro h
    obtain ⟨y, hy, hrest⟩ := Option.bind_eq_some_iff.mp h
    obtain ⟨ys, hys, heq⟩ := Option.bind_eq_some_iff.mp hrest
    cases heq
    exact ⟨hy, hys⟩
  · intro ⟨hx, hrest⟩
    rw [read, hx, hrest]
    rfl

theorem isValue_write (fs : Fields ρ) (x : ρ) : ∀ e ∈ fs.write x, e.2.IsValue := by
  induction fs with
  | done => exact fun _ he => nomatch he
  | and name f rest ih =>
    unfold write
    split
    · exact ih x.2
    · exact List.forall_mem_cons.mpr ⟨f.codec.isValue x.1, ih x.2⟩

theorem write_and (name : String) (f : FieldCodec α) (rest : Fields ρ) (x : α) (xs : ρ) :
    (Fields.and name f rest).write (x, xs) =
      (if f.skips x then [] else [(name, f.codec.encode x)]) ++ rest.write xs := by
  rw [write]
  split
  · rfl
  · rfl

theorem forall_mem_write {name : String} {f : FieldCodec α} {rest : Fields ρ} {x : α} {xs : ρ}
    {p : String × Json → Prop} : (∀ e ∈ (Fields.and name f rest).write (x, xs), p e) ↔
      (f.skips x = false → p (name, f.codec.encode x)) ∧ ∀ e ∈ rest.write xs, p e := by
  rw [write_and, List.forall_mem_append]
  cases f.skips x with
  | true => simp
  | false => simp

/-- But for one name, what is written does not depend on the field of that name. -/
theorem without_write_head (name : String) (f : FieldCodec α) (rest : Fields ρ) (x : α) (xs : ρ) :
    without name ((Fields.and name f rest).write (x, xs)) = without name (rest.write xs) := by
  rw [write_and, without, List.filter_append]
  split
  · rfl
  · simp [without]

theorem without_write_tail {name name' : String} {f : FieldCodec α} {rest : Fields ρ} {xs ys : ρ}
    (x : α) (h : without name (rest.write xs) = without name (rest.write ys)) :
    without name ((Fields.and name' f rest).write (x, xs)) =
      without name ((Fields.and name' f rest).write (x, ys)) := by
  rw [write_and, write_and, without, List.filter_append, without, List.filter_append]
  exact congrArg _ h

theorem keys_write (fs : Fields ρ) (x : ρ) : (keys (fs.write x)).Sublist fs.names := by
  induction fs with
  | done => exact .slnil
  | and name f rest ih =>
    unfold write
    split
    · exact (ih x.2).cons name
    · exact (ih x.2).cons_cons name

theorem fits_of_read {fs : Fields ρ} {es : List (String × Json)} {x : ρ}
    (h : fs.read es = some x) : fs.Fits x := by
  induction fs with
  | done => trivial
  | and name f rest ih =>
    obtain ⟨hx, hrest⟩ := read_and.mp h
    exact ⟨FieldCodec.fits_of_read hx, ih hrest⟩

/-- Only the entries of the names matter. -/
theorem read_congr (fs : Fields ρ) {es es' : List (String × Json)}
    (h : ∀ name ∈ fs.names, slot name es = slot name es') : fs.read es = fs.read es' := by
  induction fs with
  | done => rfl
  | and name f rest ih =>
    rw [read, read, h name (.head _), ih fun name' hmem => h name' (.tail _ hmem)]

/-- What was written is read, whatever else is there under other names. -/
theorem read_write (fs : Fields ρ) (hnames : fs.names.Nodup) {x : ρ} (hfits : fs.Fits x)
    (hwhole : fs.Whole x) : fs.read (fs.write x) = some x := by
  induction fs with
  | done => rfl
  | and name f rest ih =>
    obtain ⟨hnew, hnodup⟩ := List.nodup_cons.mp hnames
    have hnone : under name (rest.write x.2) = [] :=
      under_of_not_mem fun hmem => hnew ((rest.keys_write x.2).subset hmem)
    have hback : rest.read (rest.write x.2) = some x.2 := ih hnodup hfits.2 hwhole.2
    rw [read, write]
    split
    · next hskip =>
      have hslot : slot name (rest.write x.2) = .missing := by rw [slot, hnone]
      have hread : f.read .missing = some x.1 := f.default_of_skips x.1 hskip
      rw [hslot, hread, hback]
      rfl
    · have hslot : slot name ((name, f.codec.encode x.1) :: rest.write x.2) =
          .entry (f.codec.encode x.1) := by
        rw [slot, under_cons, if_pos rfl, hnone]
      have hread : f.read (.entry (f.codec.encode x.1)) = some x.1 :=
        f.codec.decode_encode x.1 hfits.1 hwhole.1
      have hrest : rest.read ((name, f.codec.encode x.1) :: rest.write x.2) = some x.2 := by
        rw [← hback]
        apply read_congr
        intro name' hmem
        have hne : name ≠ name' := fun heq => hnew (heq ▸ hmem)
        apply slot_congr
        rw [under_cons, if_neg hne]
      rw [hslot, hread, hrest]
      rfl

/-- An object read as a record keeps what was read when it is kept as a value. -/
theorem read_entryValues {fs : Fields ρ} {es : List (String × Json)} {x : ρ}
    (h : fs.read es = some x) : fs.read (Json.entryValues es) = some x := by
  induction fs with
  | done => exact h
  | and name f rest ih =>
    obtain ⟨hx, hrest⟩ := read_and.mp h
    have hhead : f.read (slot name (Json.entryValues es)) = some x.1 := by
      rw [slot_entryValues]
      exact FieldCodec.read_value hx
    rw [read, hhead, ih hrest]
    rfl

theorem read_putAll {fs : Fields ρ} {es : List (String × Json)} {x : ρ} (h : fs.read es = some x) :
    fs.read (putAll es []) = some x := by
  induction fs with
  | done => exact h
  | and name f rest ih =>
    obtain ⟨hx, hrest⟩ := read_and.mp h
    rw [read, slot_putAll (FieldCodec.ne_repeated_of_read hx), hx, ih hrest]
    rfl

end Fields

/-- The entries a record is read from: those of an object, or an array's items in the order of the
names. -/
def entriesOf (names : List String) : Json → Option (List (String × Json))
  | .obj es => some es
  | .arr items => if items.length ≤ names.length then some (names.zip items) else none
  | _ => none

theorem zip_values (names : List String) (items : List Json) :
    names.zip (Json.values items) = Json.entryValues (names.zip items) := by
  induction names generalizing items with
  | nil => rfl
  | cons name names ih =>
    cases items with
    | nil => rfl
    | cons j items =>
      rw [Json.values, List.zip_cons_cons, List.zip_cons_cons, ih]
      rfl

namespace Codec

def decodeRecord (fs : Fields ρ) (make : ρ → σ) (j : Json) : Option σ := do
  let es ← entriesOf fs.names j
  let x ← fs.read es
  return make x

theorem decodeRecord_some {fs : Fields ρ} {make : ρ → σ} {j : Json} {s : σ}
    (h : decodeRecord fs make j = some s) :
    ∃ es x, entriesOf fs.names j = some es ∧ fs.read es = some x ∧ make x = s := by
  obtain ⟨es, hes, hrest⟩ := Option.bind_eq_some_iff.mp h
  obtain ⟨x, hx, heq⟩ := Option.bind_eq_some_iff.mp hrest
  exact ⟨es, x, hes, hx, Option.some.inj heq⟩

theorem decodeRecord_value {fs : Fields ρ} {make : ρ → σ} {j : Json} {s : σ}
    (h : decodeRecord fs make j = some s) : decodeRecord fs make j.value = some s := by
  obtain ⟨es, x, hes, hx, rfl⟩ := decodeRecord_some h
  cases j with
  | obj entries =>
    cases hes
    have hread := Fields.read_putAll (Fields.read_entryValues hx)
    rw [decodeRecord, Json.value, entriesOf, Option.bind_eq_bind, Option.bind_some, hread]
    rfl
  | arr items =>
    obtain ⟨hlen, heq⟩ := Option.ite_none_right_eq_some.mp hes
    cases heq
    have hread : fs.read (Json.entryValues (fs.names.zip items)) = some x :=
      Fields.read_entryValues hx
    have hlen' : (Json.values items).length ≤ fs.names.length := by
      rwa [Json.values_eq_map, List.length_map]
    rw [decodeRecord, Json.value, entriesOf, if_pos hlen', zip_values, Option.bind_eq_bind,
      Option.bind_some, hread]
    rfl
  | null | bool | num | str => nomatch hes

/-- The codec of a structure with the given fields. -/
def record (fs : Fields ρ) (hnames : fs.names.Nodup) (e : σ ≃ ρ) : Codec σ where
  encode s := Json.object (fs.write (e s))
  decode := decodeRecord fs e.symm
  Fits s := fs.Fits (e s)
  Whole s := fs.Whole (e s)
  isValue s := Json.isValue_object (fs.isValue_write (e s))
  decode_encode s hfits hwhole := by
    have hread : fs.read (putAll (fs.write (e s)) []) = some (e s) :=
      Fields.read_putAll (fs.read_write hnames hfits hwhole)
    rw [decodeRecord, Json.object, entriesOf, Option.bind_eq_bind, Option.bind_some, hread]
    exact congrArg some (e.symm_apply_apply s)
  fits j s h := by
    obtain ⟨es, x, -, hx, rfl⟩ := decodeRecord_some h
    rw [e.apply_symm_apply]
    exact Fields.fits_of_read hx
  stable _ _ h := decodeRecord_value h

theorem record_decode_obj {fs : Fields ρ} {hnames : fs.names.Nodup} {e : σ ≃ ρ}
    {es : List (String × Json)} {s : σ} :
    (record fs hnames e).decode (.obj es) = some s ↔ fs.read es = some (e s) := by
  constructor
  · intro h
    obtain ⟨es', x, hes, hx, rfl⟩ := decodeRecord_some h
    cases hes
    rw [hx, e.apply_symm_apply]
  · intro h
    change decodeRecord fs e.symm (.obj es) = some s
    rw [decodeRecord, entriesOf, Option.bind_eq_bind, Option.bind_some, h]
    exact congrArg some (e.symm_apply_apply s)

/-- A record is written as an object that has no entries but its fields'. -/
theorem record_encode (fs : Fields ρ) (hnames : fs.names.Nodup) (e : σ ≃ ρ) (s : σ) :
    ∃ es, (record fs hnames e).encode s = .obj es ∧ Ordered es ∧ ∀ k ∈ keys es, k ∈ fs.names := by
  refine ⟨putAll (fs.write (e s)) [], rfl, ordered_putAll _, ?_⟩
  intro k hk
  have hperm := putAll_nil_perm (hnames.sublist (fs.keys_write (e s)))
  exact (fs.keys_write (e s)).subset ((hperm.map Prod.fst).mem_iff.mp hk)

end Codec

section Tag

variable {tag variant : String}

/-- An object with one more entry, which says of which variant it is. -/
def withTag (tag variant : String) : Json → Json
  | .obj es => .obj (put tag (.str variant.toList) es)
  | j => j

/-- The tag of an object, or of an array in front, and the rest. -/
def splitTag (tag : String) : Json → Option (Json × Json)
  | .obj es =>
    match slot tag es with
    | .entry t => some (t, .obj (without tag es))
    | _ => none
  | .arr (t :: items) => some (t, .arr items)
  | _ => none

theorem splitTag_obj {es : List (String × Json)} {t rest : Json} :
    splitTag tag (.obj es) = some (t, rest) ↔
      slot tag es = .entry t ∧ rest = .obj (without tag es) := by
  rw [splitTag]
  split
  · next t' hslot => simp [hslot, eq_comm]
  · next hslot =>
    constructor
    · exact fun h => nomatch h
    · exact fun h => absurd h.1 (hslot t)

theorem isValue_withTag {es : List (String × Json)} (hord : Ordered es)
    (h : (Json.obj es).IsValue) : (withTag tag variant (.obj es)).IsValue := by
  rw [withTag, Json.IsValue, Json.value, Json.entryValues_eq_map, mapValues_put,
    ← Json.entryValues_eq_map, h.entryValues hord]
  exact congrArg Json.obj hord.put.putAll_self

theorem splitTag_withTag {es : List (String × Json)} (hord : Ordered es) (hnew : tag ∉ keys es) :
    splitTag tag (withTag tag variant (.obj es)) = some (.str variant.toList, .obj es) := by
  refine splitTag_obj.mpr ⟨?_, ?_⟩
  · rw [slot, under_put hord, if_pos rfl]
  · rw [without_put hord hnew]

theorem splitTag_value {j t rest : Json} (h : splitTag tag j = some (t, rest)) :
    splitTag tag j.value = some (t.value, rest.value) := by
  match j with
  | .obj es =>
    obtain ⟨hslot, rfl⟩ := splitTag_obj.mp h
    have hvalue : slot tag (Json.entryValues es) = .entry t.value := by
      rw [slot_entryValues, hslot]
      rfl
    refine splitTag_obj.mpr ⟨?_, ?_⟩
    · rw [slot_putAll, hvalue]
      rw [hvalue]
      exact Slot.noConfusion
    · rw [Json.value, without_putAll, Json.entryValues_without]
  | .arr (t :: items) =>
    cases h
    rfl
  | .arr [] | .null | .bool _ | .num _ | .str _ => nomatch h

end Tag

end Lib
