import Rootmode.Lib.Toml
import Mathlib.Logic.Function.Basic

namespace Lib.Toml

open Function

/-- How a key of a document came to stand for something. -/
inductive Kind
  | value
  | implicit
  | header
  | dotted
  | elements
  deriving DecidableEq

/-- What each key stands for, of an array of tables in its last element, and the table whose keys
are being read. -/
structure Doc where
  defs : Path → Option Kind
  current : Path

/-- The tables on the way to a key. -/
def enter (f : Option Kind → Option Kind) (base : Path) : Path → (Path → Option Kind) → Option (Path → Option Kind)
  | [], d => some d
  | k :: p, d =>
    (f (d (base ++ [k]))).bind fun kind => enter f (base ++ [k]) p (update d (base ++ [k]) (some kind))

def underHeader : Option Kind → Option Kind
  | none => some .implicit
  | some .value => none
  | some kind => some kind

def underDotted : Option Kind → Option Kind
  | none | some .implicit | some .dotted => some .dotted
  | _ => none

namespace Doc

def empty : Doc := ⟨fun _ => none, []⟩

def put (s : Doc) : Item → Option Doc
  | .keyval p =>
    (enter underDotted s.current p.dropLast s.defs).bind fun d =>
      if p ≠ [] ∧ d (s.current ++ p) = none then some ⟨update d (s.current ++ p) (some .value), s.current⟩ else none
  | .table p =>
    (enter underHeader [] p.dropLast s.defs).bind fun d =>
      if p ≠ [] ∧ (d p = none ∨ d p = some .implicit) then some ⟨update d p (some .header), p⟩ else none
  | .arrayTable p =>
    (enter underHeader [] p.dropLast s.defs).bind fun d =>
      if p ≠ [] ∧ (d p = none ∨ d p = some .elements) then
        -- an element has nothing of the one before it
        some ⟨fun q => if q = p then some .elements else if p <+: q then none else d q, p⟩
      else none

def build (s : Doc) (items : List Item) : Option Doc := items.foldlM put s

/-- With a value under one more key. -/
def also (K : Text) (s : Doc) : Doc := ⟨update s.defs [K] (some .value), s.current⟩

end Doc

/-- A document's statements, and what they make. -/
def load (ls : List Text) : Option (List Item × Doc) :=
  match readLines .start ls with
  | some (.start, items) => (Doc.empty.build items).map (items, ·)
  | _ => none

namespace Doc

variable {s s' : Doc} {i : Item} {is js : List Item} {p q base : Path} {k K : Text} {d d' : Path → Option Kind}
  {f : Option Kind → Option Kind}

section Root

theorem snoc_ne (h : (base ++ k :: p).head? ≠ some K) : base ++ [k] ≠ [K] := by
  intro heq
  cases base with
  | nil => exact h (by rw [List.nil_append, List.head?_cons, (List.cons.inj heq).1])
  | cons b base => exact absurd (List.cons.inj heq).2 (by simp)

theorem enter_also (h : (base ++ p).head? ≠ some K) :
    enter f base p (update d [K] (some .value)) = (enter f base p d).map (update · [K] (some .value)) := by
  induction p generalizing base d with
  | nil => rfl
  | cons k p ih =>
    have hne := snoc_ne h
    have hhead : (base ++ [k] ++ p).head? ≠ some K := by
      rwa [List.append_assoc, List.singleton_append]
    rw [enter, enter, update_of_ne hne]
    cases f (d (base ++ [k])) with
    | none => rfl
    | some kind =>
      rw [Option.bind_some, Option.bind_some, update_comm hne.symm]
      exact ih hhead

theorem update_self_ne {kind : Kind} : update d p (some kind) p ≠ none := by
  rw [update_self]
  exact Option.some_ne_none kind

theorem update_ne_none {kind : Kind} (h : d q ≠ none) : update d p (some kind) q ≠ none := by
  by_cases heq : q = p
  · rw [heq]
    exact update_self_ne
  · rwa [update_of_ne heq]

theorem enter_root (h : enter f base p d = some d') (hK : d [K] ≠ none) : d' [K] ≠ none := by
  induction p generalizing base d with
  | nil =>
    cases h
    exact hK
  | cons k p ih =>
    obtain ⟨kind, -, hrest⟩ := Option.bind_eq_some_iff.mp h
    exact ih hrest (update_ne_none hK)

theorem enter_absent (h : enter f base p d = some d') (hhead : (base ++ p).head? ≠ some K) (hK : d [K] = none) :
    d' [K] = none := by
  induction p generalizing base d with
  | nil =>
    cases h
    exact hK
  | cons k p ih =>
    obtain ⟨kind, -, hrest⟩ := Option.bind_eq_some_iff.mp h
    have hstep : (base ++ [k] ++ p).head? ≠ some K := by
      rwa [List.append_assoc, List.singleton_append]
    exact ih hrest hstep (by rwa [update_of_ne (snoc_ne hhead).symm])

theorem enter_touch (h : enter f [] (K :: p) d = some d') : d' [K] ≠ none := by
  obtain ⟨kind, -, hrest⟩ := Option.bind_eq_some_iff.mp h
  exact enter_root hrest update_self_ne

theorem enter_value (hf : f (some .value) = none) :
    enter f [] (K :: p) (update d [K] (some .value)) = none := by
  rw [enter, List.nil_append, update_self, hf, Option.bind_none]

/-- The key at the root that a statement is about. -/
def rootOf (current : Path) : Item → Option Text
  | .keyval p => (current ++ p).head?
  | .table p => p.head?
  | .arrayTable p => p.head?

theorem head_dropLast (h : (base ++ p).head? ≠ some K) : (base ++ p.dropLast).head? ≠ some K := by
  cases base with
  | cons b base => exact h
  | nil =>
    cases p with
    | nil => exact h
    | cons k p =>
      cases p with
      | nil => exact fun hnone => by cases hnone
      | cons => exact h

theorem singleton_ne (h : p.head? ≠ some K) : [K] ≠ p := by
  rintro rfl
  exact h rfl

theorem not_under (hp : p ≠ []) (hne : [K] ≠ p) : ¬ p <+: [K] := by
  intro h
  rcases List.prefix_cons_iff.mp h with rfl | ⟨t, rfl, ht⟩
  · exact hp rfl
  · exact hne (by rw [List.prefix_nil.mp ht])

theorem put_also (h : rootOf s.current i ≠ some K) : put (s.also K) i = (put s i).map (also K) := by
  cases i with
  | keyval p =>
    have hne := singleton_ne h
    rw [put, put, also, enter_also (head_dropLast h)]
    cases enter underDotted s.current p.dropLast s.defs with
    | none => rfl
    | some d =>
      rw [Option.map_some, Option.bind_some, Option.bind_some, update_of_ne hne.symm, update_comm hne]
      split <;> rfl
  | table p =>
    have hne := singleton_ne h
    rw [put, put, also, enter_also (@head_dropLast _ [] _ h)]
    cases enter underHeader [] p.dropLast s.defs with
    | none => rfl
    | some d =>
      rw [Option.map_some, Option.bind_some, Option.bind_some, update_of_ne hne.symm, update_comm hne]
      split <;> rfl
  | arrayTable p =>
    have hne := singleton_ne h
    rw [put, put, also, enter_also (@head_dropLast _ [] _ h)]
    cases enter underHeader [] p.dropLast s.defs with
    | none => rfl
    | some d =>
      rw [Option.map_some, Option.bind_some, Option.bind_some, update_of_ne hne.symm]
      split
      · next hp =>
        have hunder := not_under hp.1 hne
        rw [Option.map_some, also]
        congr 2
        funext q
        by_cases hq : q = [K]
        · rw [hq, if_neg hne, if_neg hunder, update_self, update_self]
        · rw [update_of_ne hq, update_of_ne hq]
      · rfl

theorem also_root : (s.also K).defs [K] = some .value := update_self ..

theorem exists_cons (h : p.head? = some K) : ∃ r, p = K :: r := by
  cases p with
  | nil => cases h
  | cons k r => exact ⟨r, by rw [Option.some.inj h]⟩

theorem current_nil (hcur : s.current.head? ≠ some K) (h : (s.current ++ p).head? = some K) : s.current = [] := by
  cases hc : s.current with
  | nil => rfl
  | cons b base =>
    rw [hc] at h hcur
    exact absurd h hcur

/-- No statement is about a key that has a value. -/
theorem put_value (hcur : s.current.head? ≠ some K) (h : rootOf s.current i = some K) : put (s.also K) i = none := by
  cases i with
  | keyval p =>
    have hroot : (s.also K).current = [] := current_nil hcur h
    have hp : p.head? = some K := by
      rw [rootOf, current_nil hcur h] at h
      exact h
    obtain ⟨r, rfl⟩ := exists_cons hp
    rw [put, hroot]
    cases r with
    | nil =>
      rw [List.dropLast_singleton, enter, Option.bind_some, List.nil_append, also_root, if_neg]
      exact fun hnone => Option.some_ne_none _ hnone.2
    | cons k r =>
      rw [List.dropLast_cons_cons, also, enter_value rfl, Option.bind_none]
  | table p =>
    obtain ⟨r, rfl⟩ := exists_cons h
    rw [put]
    cases r with
    | nil =>
      rw [List.dropLast_singleton, enter, Option.bind_some, also_root, if_neg]
      rintro ⟨-, hnone | himplicit⟩
      · cases hnone
      · cases himplicit
    | cons k r =>
      rw [List.dropLast_cons_cons, also, enter_value rfl, Option.bind_none]
  | arrayTable p =>
    obtain ⟨r, rfl⟩ := exists_cons h
    rw [put]
    cases r with
    | nil =>
      rw [List.dropLast_singleton, enter, Option.bind_some, also_root, if_neg]
      rintro ⟨-, hnone | himplicit⟩
      · cases hnone
      · cases himplicit
    | cons k r =>
      rw [List.dropLast_cons_cons, also, enter_value rfl, Option.bind_none]

theorem put_root (h : put s i = some s') (hK : s.defs [K] ≠ none) : s'.defs [K] ≠ none := by
  cases i with
  | keyval p =>
    obtain ⟨d, hd, hput⟩ := Option.bind_eq_some_iff.mp h
    split at hput
    · cases hput
      exact update_ne_none (enter_root hd hK)
    · cases hput
  | table p =>
    obtain ⟨d, hd, hput⟩ := Option.bind_eq_some_iff.mp h
    split at hput
    · cases hput
      exact update_ne_none (enter_root hd hK)
    · cases hput
  | arrayTable p =>
    obtain ⟨d, hd, hput⟩ := Option.bind_eq_some_iff.mp h
    split at hput
    · next hp =>
      cases hput
      by_cases heq : [K] = p
      · exact fun hnone => Option.some_ne_none _ ((if_pos heq).symm.trans hnone)
      · intro hnone
        exact enter_root hd hK (((if_neg heq).trans (if_neg (not_under hp.1 heq))).symm.trans hnone)
    · cases hput

theorem put_absent (h : put s i = some s') (hroot : rootOf s.current i ≠ some K) (hK : s.defs [K] = none) :
    s'.defs [K] = none := by
  cases i with
  | keyval p =>
    obtain ⟨d, hd, hput⟩ := Option.bind_eq_some_iff.mp h
    split at hput
    · cases hput
      exact (update_of_ne (singleton_ne hroot) ..).trans (enter_absent hd (head_dropLast hroot) hK)
    · cases hput
  | table p =>
    obtain ⟨d, hd, hput⟩ := Option.bind_eq_some_iff.mp h
    split at hput
    · cases hput
      exact (update_of_ne (singleton_ne hroot) ..).trans (enter_absent hd (@head_dropLast _ [] _ hroot) hK)
    · cases hput
  | arrayTable p =>
    obtain ⟨d, hd, hput⟩ := Option.bind_eq_some_iff.mp h
    split at hput
    · next hp =>
      cases hput
      have hne := singleton_ne hroot
      exact ((if_neg hne).trans (if_neg (not_under hp.1 hne))).trans
        (enter_absent hd (@head_dropLast _ [] _ hroot) hK)
    · cases hput

theorem put_touch (h : put s i = some s') (hcur : s.current.head? ≠ some K) (hroot : rootOf s.current i = some K) :
    s'.defs [K] ≠ none := by
  intro hnone
  cases i with
  | keyval p =>
    obtain ⟨d, hd, hput⟩ := Option.bind_eq_some_iff.mp h
    have hempty := current_nil hcur hroot
    rw [rootOf, hempty] at hroot
    obtain ⟨r, rfl⟩ := exists_cons hroot
    rw [hempty] at hd hput
    split at hput
    · cases hput
      cases r with
      | nil => exact update_self_ne hnone
      | cons k r => exact update_ne_none (enter_touch hd) hnone
    · cases hput
  | table p =>
    obtain ⟨d, hd, hput⟩ := Option.bind_eq_some_iff.mp h
    obtain ⟨r, rfl⟩ := exists_cons hroot
    split at hput
    · cases hput
      cases r with
      | nil => exact update_self_ne hnone
      | cons k r => exact update_ne_none (enter_touch hd) hnone
    · cases hput
  | arrayTable p =>
    obtain ⟨d, hd, hput⟩ := Option.bind_eq_some_iff.mp h
    obtain ⟨r, rfl⟩ := exists_cons hroot
    split at hput
    · next hp =>
      cases hput
      cases r with
      | nil => exact Option.some_ne_none _ ((if_pos rfl).symm.trans hnone)
      | cons k r =>
        have hne : [K] ≠ K :: k :: r := by simp
        exact enter_touch hd (((if_neg hne).trans (if_neg (not_under hp.1 hne))).symm.trans hnone)
    · cases hput

theorem put_current (h : put s i = some s') (hcur : s.current.head? ≠ some K) (hroot : rootOf s.current i ≠ some K) :
    s'.current.head? ≠ some K := by
  cases i with
  | keyval p =>
    obtain ⟨d, -, hput⟩ := Option.bind_eq_some_iff.mp h
    split at hput
    · cases hput
      exact hcur
    · cases hput
  | table p =>
    obtain ⟨d, -, hput⟩ := Option.bind_eq_some_iff.mp h
    split at hput
    · cases hput
      exact hroot
    · cases hput
  | arrayTable p =>
    obtain ⟨d, -, hput⟩ := Option.bind_eq_some_iff.mp h
    split at hput
    · cases hput
      exact hroot
    · cases hput

end Root

section Build

theorem build_cons : s.build (i :: is) = (put s i).bind (·.build is) := List.foldlM_cons

theorem build_append : s.build (is ++ js) = (s.build is).bind (·.build js) := List.foldlM_append

theorem build_root (h : s.build is = some s') (hK : s.defs [K] ≠ none) : s'.defs [K] ≠ none := by
  induction is generalizing s with
  | nil =>
    cases h
    exact hK
  | cons i is ih =>
    rw [build_cons] at h
    obtain ⟨t, hput, hrest⟩ := Option.bind_eq_some_iff.mp h
    exact ih hrest (put_root hput hK)

/-- A value under a key of the root is in nothing's way but that of statements about the key. -/
theorem build_also (hcur : s.current.head? ≠ some K) (hK : s.defs [K] = none) :
    (s.also K).build is = (s.build is).bind fun t => if t.defs [K] = none then some (t.also K) else none := by
  induction is generalizing s with
  | nil =>
    change some (s.also K) = if s.defs [K] = none then some (s.also K) else none
    rw [if_pos hK]
  | cons i is ih =>
    rw [build_cons, build_cons]
    by_cases hroot : rootOf s.current i = some K
    · rw [put_value hcur hroot, Option.bind_none]
      symm
      rw [Option.bind_assoc, Option.bind_eq_none_iff]
      intro t hput
      rw [Option.bind_eq_none_iff]
      intro u hrest
      rw [if_neg (build_root hrest (put_touch hput hcur hroot))]
    · rw [put_also hroot]
      cases hput : put s i with
      | none => rfl
      | some t => exact ih (put_current hput hcur hroot) (put_absent hput hroot hK)

/-- The statements before the first header are about the root. -/
theorem build_keyvals (h : s.build is = some s') (his : ∀ i ∈ is, i.isKeyval) : s'.current = s.current := by
  induction is generalizing s with
  | nil =>
    cases h
    rfl
  | cons i is ih =>
    rw [build_cons] at h
    obtain ⟨t, hput, hrest⟩ := Option.bind_eq_some_iff.mp h
    have hi := his i List.mem_cons_self
    cases i with
    | keyval p =>
      rw [ih hrest fun j hj => his j (List.mem_cons_of_mem _ hj)]
      obtain ⟨d, -, hput⟩ := Option.bind_eq_some_iff.mp hput
      split at hput
      · cases hput
        rfl
      · cases hput
    | table | arrayTable => cases hi

theorem put_keyval_root (hs : s.current = []) :
    put s (.keyval [K]) = if s.defs [K] = none then some (s.also K) else none := by
  rw [put, hs, List.dropLast_singleton, enter, Option.bind_some, List.nil_append, also, hs]
  by_cases hK : s.defs [K] = none
  · rw [if_pos hK, if_pos ⟨List.cons_ne_nil _ _, hK⟩]
  · rw [if_neg hK, if_neg fun h => hK h.2]

/-- One more value at the root, given before the first header, is in nothing's way but that of another
statement about its key. -/
theorem build_insert (his : ∀ i ∈ is, i.isKeyval) :
    empty.build (is ++ .keyval [K] :: js) =
      (empty.build (is ++ js)).bind fun t => if t.defs [K] = none then some (t.also K) else none := by
  rw [build_append, build_append]
  cases htop : empty.build is with
  | none => rfl
  | some s =>
    have hcur : s.current = [] := build_keyvals htop his
    rw [Option.bind_some, Option.bind_some, build_cons, put_keyval_root hcur]
    by_cases hK : s.defs [K] = none
    · rw [if_pos hK, Option.bind_some]
      exact build_also (by rw [hcur]; exact fun h => by cases h) hK
    · rw [if_neg hK, Option.bind_none]
      symm
      rw [Option.bind_eq_none_iff]
      intro t hrest
      rw [if_neg (build_root hrest hK)]

/-- Nothing is in the way of a table of its own with these keys. -/
def Room (s : Doc) (a b : Text) (ks : List Text) : Prop :=
  s.defs [a] ≠ some .value ∧ (s.defs [a, b] = none ∨ s.defs [a, b] = some .implicit) ∧
    ∀ k ∈ ks, s.defs [a, b, k] = none

instance {a b : Text} {ks : List Text} : Decidable (Room s a b ks) := by
  unfold Room
  infer_instance

theorem build_values {ks : List Text} (hks : ks.Nodup) :
    (s.build (ks.map fun k => .keyval [k])).isSome ↔ ∀ k ∈ ks, s.defs (s.current ++ [k]) = none := by
  induction ks generalizing s with
  | nil =>
    constructor
    · intro _ k hk
      cases hk
    · intro _
      rfl
  | cons k ks ih =>
    obtain ⟨hk, hks⟩ := List.nodup_cons.mp hks
    rw [List.map_cons, build_cons, put, List.dropLast_singleton, enter, Option.bind_some]
    by_cases hnone : s.defs (s.current ++ [k]) = none
    · rw [if_pos ⟨List.cons_ne_nil _ _, hnone⟩, Option.bind_some, ih hks, List.forall_mem_cons]
      have hother : ∀ k' ∈ ks, s.current ++ [k'] ≠ s.current ++ [k] := by
        intro k' hk' heq
        exact hk ((List.cons.inj (List.append_cancel_left heq)).1 ▸ hk')
      constructor
      · intro h
        exact ⟨hnone, fun k' hk' => (update_of_ne (hother k' hk') ..).symm.trans (h k' hk')⟩
      · rintro ⟨-, h⟩ k' hk'
        exact (update_of_ne (hother k' hk') ..).trans (h k' hk')
    · rw [if_neg fun h => hnone h.2, Option.bind_none]
      constructor
      · intro h
        cases h
      · intro h
        exact absurd (h k List.mem_cons_self) hnone

theorem build_table {a b : Text} {ks : List Text} (hks : ks.Nodup) :
    (s.build (.table [a, b] :: ks.map fun k => .keyval [k])).isSome ↔ Room s a b ks := by
  have hparent : [a] ≠ [a, b] := by simp
  rw [build_cons, put, List.dropLast_cons_cons, List.dropLast_singleton, enter, List.nil_append]
  unfold Room
  cases ha : underHeader (s.defs [a]) with
  | none =>
    rw [Option.bind_none, Option.bind_none, Option.bind_none]
    have hvalue : s.defs [a] = some .value := by
      cases hkind : s.defs [a] with
      | none =>
        rw [hkind] at ha
        cases ha
      | some kind =>
        rw [hkind] at ha
        cases kind with
        | value => rfl
        | implicit | header | dotted | elements => cases ha
    constructor
    · intro h
      cases h
    · intro h
      exact absurd hvalue h.1
  | some kind =>
    have hvalue : s.defs [a] ≠ some .value := by
      intro hvalue
      rw [hvalue] at ha
      cases ha
    rw [Option.bind_some, enter, Option.bind_some, update_of_ne hparent.symm]
    by_cases hb : s.defs [a, b] = none ∨ s.defs [a, b] = some .implicit
    · rw [if_pos ⟨List.cons_ne_nil _ _, hb⟩, Option.bind_some, build_values hks]
      have hdefs : ∀ k, update (update s.defs [a] (some kind)) [a, b] (some .header) ([a, b] ++ [k]) = s.defs [a, b, k] := by
        intro k
        rw [update_of_ne (by simp), update_of_ne (by simp)]
        rfl
      constructor
      · exact fun h => ⟨hvalue, hb, fun k hk => (hdefs k).symm.trans (h k hk)⟩
      · exact fun h k hk => (hdefs k).trans (h.2.2 k hk)
    · rw [if_neg fun h => hb h.2, Option.bind_none]
      constructor
      · intro h
        cases h
      · intro h
        exact absurd h.2.1 hb

theorem room_also {a b : Text} {ks : List Text} (h : a ≠ K) : Room (s.also K) a b ks ↔ Room s a b ks := by
  have hdefs : ∀ p, (s.also K).defs (a :: p) = s.defs (a :: p) := by
    intro p
    exact update_of_ne (fun heq => h (List.cons.inj heq).1) ..
  rw [Room, hdefs, hdefs, Room]
  simp only [hdefs]

end Build

section TopLevel

/-- A key that the root gives a value to stands for something. -/
theorem topLevel_root (h : empty.build is = some s) (hmem : .keyval [K] ∈ topLevel is) : s.defs [K] ≠ none := by
  obtain ⟨before, after, hsplit⟩ := List.append_of_mem hmem
  have hkeyvals : ∀ i ∈ before, i.isKeyval := by
    intro i hi
    have hi : i ∈ topLevel is := by
      rw [hsplit]
      exact List.mem_append_left _ hi
    exact List.mem_takeWhile_imp hi
  obtain ⟨rest, hrest⟩ := List.takeWhile_prefix (l := is) Item.isKeyval
  change topLevel is ++ rest = is at hrest
  rw [← hrest, hsplit, List.append_assoc, List.cons_append, build_insert hkeyvals] at h
  obtain ⟨t, -, hK⟩ := Option.bind_eq_some_iff.mp h
  split at hK
  · cases hK
    rw [also_root]
    exact Option.some_ne_none _
  · cases hK

theorem topLevel_append (his : ∀ i ∈ is, i.isKeyval) : topLevel (is ++ js) = is ++ topLevel js :=
  List.takeWhile_append_of_pos his

theorem topLevel_table : topLevel (is ++ .table p :: js) = topLevel is := by
  induction is with
  | nil => rfl
  | cons i is ih =>
    rw [topLevel, List.cons_append, List.takeWhile_cons, topLevel, List.takeWhile_cons]
    split
    · exact congrArg (i :: ·) ih
    · rfl

end TopLevel

end Doc

end Lib.Toml
