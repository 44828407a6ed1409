import Rootmode.Worker.UiFormat

namespace Rootmode.Worker.UiFormat

open Lib Lib.Text Lib.Entries

section Widgets

variable {expected : Option Json} {value : Json} {before values rest : List Json}

theorem nextWidget_of_skips (h : ∀ v ∈ before, skips expected v = true) :
    nextWidget expected (before ++ values) = nextWidget expected values := by
  induction before with
  | nil => rfl
  | cons v before ih =>
    rw [List.cons_append, nextWidget, if_pos (h v (.head _)), ih fun u hu => h u (.tail _ hu)]

theorem length_nextWidget (h : nextWidget expected values = some (value, rest)) : rest.length < values.length := by
  induction values with
  | nil => cases h
  | cons v values ih =>
    rw [nextWidget] at h
    split at h
    · exact (ih h).trans (Nat.lt_succ_self _)
    · cases h
      exact Nat.lt_succ_self _

/-- A widget takes the value in a place if it takes none before it, and only then. -/
theorem nextWidget_place : nextWidget expected (before ++ value :: rest) = some (value, rest) ↔
    (∀ v ∈ before, skips expected v = true) ∧ skips expected value = false := by
  constructor
  · intro h
    induction before with
    | nil =>
      refine ⟨fun v hv => absurd hv List.not_mem_nil, ?_⟩
      rw [List.nil_append, nextWidget] at h
      split at h
      · exact absurd (length_nextWidget h) (lt_irrefl _)
      · next hskips => simpa using hskips
    | cons v before ih =>
      rw [List.cons_append, nextWidget] at h
      split at h
      · next hskips =>
        obtain ⟨hbefore, hvalue⟩ := ih h
        refine ⟨fun u hu => ?_, hvalue⟩
        rcases List.mem_cons.mp hu with rfl | hu
        · exact hskips
        · exact hbefore u hu
      · have hlen := congrArg List.length (Prod.mk.inj (Option.some.inj h)).2
        simp at hlen
        omega
  · rintro ⟨hbefore, hvalue⟩
    rw [nextWidget_of_skips hbefore, nextWidget, hvalue, if_neg Bool.false_ne_true]

end Widgets

section Saved

/-- What the editor saved for a widget: its value, and the control after it. -/
structure Saved where
  input : Input
  value : Json
  control : Option Text

def Saved.controls (s : Saved) : List Json := s.control.toList.map Json.str

def Saved.items (s : Saved) : List Json := s.value :: s.controls

/-- The widgets' saved values, one after the other. -/
def tape (ss : List Saved) : List Json := ss.flatMap Saved.items

/-- What is saved for the widgets of a node. `seed` says which of its inputs are seeds. -/
structure IsSaved (seed : Text → Bool) (node : Json) (ss : List Saved) : Prop where
  widgets : ss.map Saved.input = (inputsOf node).filter Input.widget
  values : widgetsValues node = tape ss
  control : ∀ s ∈ ss, s.control.isSome = seed s.input.name ∧ ∀ c ∈ s.control, c ∈ afterGenerate

@[simp] theorem tape_nil : tape [] = [] := rfl

@[simp] theorem tape_append (ss ts : List Saved) : tape (ss ++ ts) = tape ss ++ tape ts := List.flatMap_append

@[simp] theorem tape_cons (s : Saved) (ss : List Saved) : tape (s :: ss) = s.value :: (s.controls ++ tape ss) := rfl

variable (spec : Json)

/-- What widgets leave of the saved values, those without a link having taken theirs. -/
def left : List Input → List Json → Option (List Json)
  | [], values => some values
  | input :: inputs, values =>
    if input.link.isSome || !input.widget then left inputs values
    else (nextWidget (requiredSpec spec input.name) values).bind fun taken => left inputs taken.2

/-- What is saved since the last value of a widget that is not linked. -/
def unread (ss : List Saved) : List Json :=
  ss.foldl (fun items s => if s.input.link.isSome then items ++ s.items else s.controls) []

/-- Each widget that is not linked takes the value in its place. -/
def InPlace (ss : List Saved) : Prop :=
  ∀ before s after, ss = before ++ s :: after → s.input.link = none →
    ((left spec (before.map Saved.input) (tape ss)).bind (nextWidget (requiredSpec spec s.input.name))) =
      some (s.value, s.controls ++ tape after)

/-- Whatever is saved between the values of two widgets that are not linked is a control word that the second does not
list, and its value is none. -/
def InStep (ss : List Saved) : Prop :=
  ∀ before s after, ss = before ++ s :: after → s.input.link = none →
    (∀ v ∈ unread before, skips (requiredSpec spec s.input.name) v = true) ∧
      skips (requiredSpec spec s.input.name) s.value = false

variable {spec} {inputs more : List Input} {values rest : List Json} {ss ts : List Saved} {s : Saved}

theorem left_append : left spec (inputs ++ more) values = (left spec inputs values).bind (left spec more) := by
  induction inputs generalizing values with
  | nil => rfl
  | cons input inputs ih =>
    rw [List.cons_append, left, left]
    split
    · exact ih
    · rw [Option.bind_assoc]
      exact congrArg _ (funext fun taken => ih)

theorem unread_concat (ss : List Saved) (s : Saved) :
    unread (ss ++ [s]) = if s.input.link.isSome then unread ss ++ s.items else s.controls := by
  rw [unread, List.foldl_append]
  rfl

/-- In step so far, and each in its place, come to the same. -/
theorem left_step (hwidgets : ∀ s ∈ ss, s.input.widget = true)
    (h : ∀ before s after, ss = before ++ s :: after → s.input.link = none →
      nextWidget (requiredSpec spec s.input.name) (unread before ++ (s.value :: (s.controls ++ (tape after ++ rest)))) =
        some (s.value, s.controls ++ (tape after ++ rest))) :
    left spec (ss.map Saved.input) (tape ss ++ rest) = some (unread ss ++ rest) := by
  induction ss using List.reverseRecOn generalizing rest with
  | nil => rfl
  | append_singleton ss s ih =>
    have hbefore := @ih (s.value :: (s.controls ++ rest)) (fun s hs => hwidgets s (List.mem_append_left _ hs))
      (by
        rintro before t after rfl hlink
        have hplace := h before t (after ++ [s]) (by simp) hlink
        simpa using hplace)
    have htape : tape (ss ++ [s]) ++ rest = tape ss ++ s.value :: (s.controls ++ rest) := by simp
    rw [htape, List.map_append, left_append, hbefore, Option.bind_some, unread_concat, List.map_singleton, left]
    have hwidget := hwidgets s (by simp)
    cases hlink : s.input.link with
    | some l => simp [left, Saved.items]
    | none =>
      have hplace := h ss s [] rfl hlink
      rw [tape_nil, List.nil_append] at hplace
      rw [hwidget, hplace]
      rfl

/-- The widgets without a link take the values in their places exactly when they are in step. -/
theorem inPlace_iff (hwidgets : ∀ s ∈ ss, s.input.widget = true) : InPlace spec ss ↔ InStep spec ss := by
  constructor
  · intro h
    suffices hall : ∀ n before s after, before.length = n → ss = before ++ s :: after → s.input.link = none →
        (∀ v ∈ unread before, skips (requiredSpec spec s.input.name) v = true) ∧
          skips (requiredSpec spec s.input.name) s.value = false from
      fun before s after => hall _ before s after rfl
    intro n
    induction n using Nat.strong_induction_on with
    | _ n ih =>
      rintro before s after rfl rfl hlink
      -- the widgets before it are in step, which tells what they leave
      have hleft := @left_step spec (tape (s :: after)) before
        (fun s hs => hwidgets s (List.mem_append_left _ hs)) (by
          rintro before' t after' rfl hlink'
          exact nextWidget_place.mpr (ih _ (by simp) before' t (after' ++ s :: after) rfl (by simp) hlink'))
      have hplace := h before s after rfl hlink
      rw [tape_append, hleft, Option.bind_some] at hplace
      exact nextWidget_place.mp hplace
  · rintro h before s after rfl hlink
    have hleft := @left_step spec (tape (s :: after)) before
      (fun s hs => hwidgets s (List.mem_append_left _ hs)) (by
        rintro before' t after' rfl hlink'
        exact nextWidget_place.mpr (h before' t (after' ++ s :: after) (by simp) hlink'))
    rw [tape_append, hleft, Option.bind_some]
    exact nextWidget_place.mpr (h before s after rfl hlink)

end Saved

section Filled

variable {links : List (ℤ × Text × ℤ)} {spec : Json} {id type : Text} {inputs more : List Input} {input : Input}
  {values : List Json} {taken final : List (String × Json)} {k : String}

theorem left_filter : left spec (inputs.filter Input.widget) values = left spec inputs values := by
  induction inputs generalizing values with
  | nil => rfl
  | cons input inputs ih =>
    by_cases hwidget : input.widget = true
    · rw [List.filter_cons_of_pos hwidget, left, left, ih]
      simp only [ih]
    · rw [List.filter_cons_of_neg hwidget, ih, left, if_pos (by simp [hwidget])]

/-- What one input does to what is taken and to what is left. -/
theorem fill_cons (h : fill links spec id type (input :: more) values taken = .ok final) :
    (∃ l origin, input.link = some l ∧ lookup l links = some origin ∧
        fill links spec id type more values (put (Text.str input.name) (reference origin) taken) = .ok final) ∨
      (input.link = none ∧ input.widget = false ∧ fill links spec id type more values taken = .ok final) ∨
      ∃ value rest, input.link = none ∧ input.widget = true ∧
        nextWidget (requiredSpec spec input.name) values = some (value, rest) ∧
        fill links spec id type more rest (if (requiredSpec spec input.name).isNone then taken
          else put (Text.str input.name) value taken) = .ok final := by
  rw [fill] at h
  cases hlink : input.link with
  | some l =>
    rw [hlink] at h
    dsimp only at h
    cases horigin : lookup l links with
    | none =>
      rw [horigin] at h
      cases h
    | some origin =>
      rw [horigin] at h
      exact .inl ⟨l, origin, rfl, horigin, h⟩
  | none =>
    rw [hlink] at h
    dsimp only at h
    right
    cases hwidget : input.widget with
    | false =>
      rw [hwidget] at h
      exact .inl ⟨rfl, rfl, h⟩
    | true =>
      rw [hwidget] at h
      rw [Bool.not_true, if_neg Bool.false_ne_true] at h
      cases hnext : nextWidget (requiredSpec spec input.name) values with
      | none =>
        rw [hnext] at h
        cases h
      | some next =>
        obtain ⟨value, rest⟩ := next
        rw [hnext] at h
        refine .inr ⟨value, rest, rfl, rfl, rfl, ?_⟩
        by_cases hnone : (requiredSpec spec input.name).isNone = true
        · simpa only [hnone, if_true] using h
        · simpa only [hnone, Bool.false_eq_true, if_false] using h

/-- What has another name stays as it is. -/
theorem lookup_fill (h : fill links spec id type inputs values taken = .ok final)
    (hk : ∀ input ∈ inputs, Text.str input.name ≠ k) : lookup k final = lookup k taken := by
  induction inputs generalizing values taken with
  | nil =>
    cases h
    rfl
  | cons input inputs ih =>
    have hne := hk input (.head _)
    have hrest : ∀ input ∈ inputs, Text.str input.name ≠ k := fun input hi => hk input (.tail _ hi)
    rcases fill_cons h with ⟨l, origin, -, -, hfill⟩ | ⟨-, -, hfill⟩ | ⟨value, rest, -, -, -, hfill⟩
    · rw [ih hfill hrest, lookup_put, if_neg hne]
    · exact ih hfill hrest
    · rw [ih hfill hrest]
      split
      · rfl
      · rw [lookup_put, if_neg hne]

/-- The inputs before one leave it what the widgets among them do not take. -/
theorem fill_append (h : fill links spec id type (inputs ++ more) values taken = .ok final) :
    ∃ rest taken', left spec inputs values = some rest ∧ fill links spec id type more rest taken' = .ok final ∧
      ∀ k, (∀ input ∈ inputs, Text.str input.name ≠ k) → lookup k taken' = lookup k taken := by
  induction inputs generalizing values taken with
  | nil => exact ⟨values, taken, rfl, h, fun _ _ => rfl⟩
  | cons input inputs ih =>
    rw [List.cons_append] at h
    rcases fill_cons h with ⟨l, origin, hlink, -, hfill⟩ | ⟨hlink, hwidget, hfill⟩ |
      ⟨value, rest, hlink, hwidget, hnext, hfill⟩
    · obtain ⟨rest, taken', hleft, hmore, hkeep⟩ := ih hfill
      refine ⟨rest, taken', ?_, hmore, fun k hk => ?_⟩
      · rw [left, hlink]
        exact hleft
      · rw [hkeep k fun input hi => hk input (.tail _ hi), lookup_put, if_neg (hk input (.head _))]
    · obtain ⟨rest, taken', hleft, hmore, hkeep⟩ := ih hfill
      refine ⟨rest, taken', ?_, hmore, fun k hk => hkeep k fun input hi => hk input (.tail _ hi)⟩
      rw [left, hlink, hwidget]
      exact hleft
    · obtain ⟨rest', taken', hleft, hmore, hkeep⟩ := ih hfill
      refine ⟨rest', taken', ?_, hmore, fun k hk => ?_⟩
      · rw [left, hlink, hwidget, hnext]
        exact hleft
      · rw [hkeep k fun input hi => hk input (.tail _ hi)]
        split
        · rfl
        · rw [lookup_put, if_neg (hk input (.head _))]

theorem str_injective {a b : Text} (h : Text.str a = Text.str b) : a = b := by
  simpa [Text.str] using congrArg String.toList h

theorem names_apart (hnames : ((inputs ++ input :: more).map Input.name).Nodup) :
    (∀ other ∈ inputs, Text.str other.name ≠ Text.str input.name) ∧
      ∀ other ∈ more, Text.str other.name ≠ Text.str input.name := by
  rw [List.map_append, List.map_cons, List.nodup_append] at hnames
  obtain ⟨-, hsecond, hapart⟩ := hnames
  constructor
  · intro other hother heq
    exact hapart _ (List.mem_map_of_mem hother) _ (.head _) (str_injective heq)
  · intro other hother heq
    exact (List.nodup_cons.mp hsecond).1 (str_injective heq ▸ List.mem_map_of_mem hother)

variable (hnames : ((inputs ++ input :: more).map Input.name).Nodup)

include hnames

/-- A link is in the result as what it comes from. -/
theorem fill_link (h : fill links spec id type (inputs ++ input :: more) values [] = .ok final)
    (hlink : input.link.isSome) : ∃ l origin, input.link = some l ∧ lookup l links = some origin ∧
      lookup (Text.str input.name) final = some (reference origin) := by
  obtain ⟨rest, taken, -, hfill, -⟩ := fill_append h
  rcases fill_cons hfill with ⟨l, origin, hl, horigin, hmore⟩ | ⟨hnone, -⟩ | ⟨-, -, hnone, -⟩
  · refine ⟨l, origin, hl, horigin, ?_⟩
    rw [lookup_fill hmore (names_apart hnames).2, lookup_put, if_pos rfl]
  · rw [hnone] at hlink
    cases hlink
  · rw [hnone] at hlink
    cases hlink

/-- A widget without a link is in the result with the value it takes, where the server is found to declare it. -/
theorem fill_widget (h : fill links spec id type (inputs ++ input :: more) values [] = .ok final)
    (hlink : input.link = none) (hwidget : input.widget = true) :
    ∃ value rest, ((left spec inputs values).bind (nextWidget (requiredSpec spec input.name))) = some (value, rest) ∧
      lookup (Text.str input.name) final =
        if (requiredSpec spec input.name).isNone then none else some value := by
  obtain ⟨rest, taken, hleft, hfill, hkeep⟩ := fill_append h
  rcases fill_cons hfill with ⟨l, -, hl, -⟩ | ⟨-, hnot, -⟩ | ⟨value, rest', -, -, hnext, hmore⟩
  · rw [hl] at hlink
    cases hlink
  · rw [hnot] at hwidget
    cases hwidget
  · refine ⟨value, rest', by rw [hleft, Option.bind_some, hnext], ?_⟩
    rw [lookup_fill hmore (names_apart hnames).2]
    split
    · rw [hkeep _ (names_apart hnames).1, lookup_nil]
    · rw [lookup_put, if_pos rfl]

end Filled

end Rootmode.Worker.UiFormat
