import Rootmode.Lib.Json

namespace Lib.Json

open Entries Ieee

variable {P Q : Printer}

mutual

/-- Two printers write the leaves of a text alike. -/
def Alike (P Q : Printer) : Json → Prop
  | null | bool _ | num (.int _) => True
  | num (.float x) => P.float x = Q.float x
  | str s => ∀ c ∈ s, P.escape c = Q.escape c
  | arr items => AlikeItems P Q items
  | obj entries => AlikeEntries P Q entries

def AlikeItems (P Q : Printer) : List Json → Prop
  | [] => True
  | j :: js => Alike P Q j ∧ AlikeItems P Q js

def AlikeEntries (P Q : Printer) : List (String × Json) → Prop
  | [] => True
  | e :: es => ((∀ c ∈ e.1.toList, P.escape c = Q.escape c) ∧ Alike P Q e.2) ∧ AlikeEntries P Q es

end

/-- What ends a number. -/
def isDelimiter (c : Char) : Bool := c = ',' || c = ']' || c = '}'

/-- The two tell apart at once what they write apart, and a float ends where it is followed. -/
structure Comparable (P Q : Printer) : Prop where
  escape : ∀ c, P.escape c = Q.escape c ∨ ∃ a b s t, a ≠ b ∧ P.escape c = a :: s ∧ Q.escape c = b :: t
  left : ∀ x, ∀ c ∈ P.float x, isDelimiter c = false
  right : ∀ x, ∀ c ∈ Q.float x, isDelimiter c = false

/-- What follows a value in a text. -/
inductive Follows : Text → Prop
  | nil : Follows []
  | cons {c : Char} {t : Text} (h : isDelimiter c = true) : Follows (c :: t)

theorem quote_append_inj (h : Comparable P Q) {s u v : Text}
    (heq : quote P s ++ u = quote Q s ++ v) :
    (∀ c ∈ s, P.escape c = Q.escape c) ∧ u = v := by
  have hbody : s.flatMap P.escape ++ '"' :: u = s.flatMap Q.escape ++ '"' :: v := by
    simpa [quote] using heq
  clear heq
  induction s with
  | nil => exact ⟨fun _ hc => (nomatch hc), (List.cons.inj hbody).2⟩
  | cons c s ih =>
    rw [List.flatMap_cons, List.flatMap_cons, List.append_assoc, List.append_assoc] at hbody
    rcases h.escape c with hsame | ⟨a, b, s', t', hne, hP, hQ⟩
    · rw [hsame] at hbody
      obtain ⟨hrest, huv⟩ := ih (List.append_cancel_left hbody)
      exact ⟨List.forall_mem_cons.mpr ⟨hsame, hrest⟩, huv⟩
    · rw [hP, hQ] at hbody
      exact absurd (List.cons.inj hbody).1 hne

theorem takeWhile_follows {t u : Text} (ht : ∀ c ∈ t, isDelimiter c = false) (hu : Follows u) :
    (t ++ u).takeWhile (fun c => !isDelimiter c) = t := by
  rw [List.takeWhile_append_of_pos fun c hc => by simp [ht c hc]]
  cases hu with
  | nil => exact List.append_nil t
  | cons hc =>
    rw [List.takeWhile_cons, hc]
    exact List.append_nil t

theorem float_append_inj (h : Comparable P Q) {x : Finite binary64} {u v : Text} (hu : Follows u)
    (hv : Follows v) (heq : P.float x ++ u = Q.float x ++ v) : P.float x = Q.float x ∧ u = v := by
  have hsame : P.float x = Q.float x := by
    rw [← takeWhile_follows (h.left x) hu, heq, takeWhile_follows (h.right x) hv]
  rw [hsame] at heq
  exact ⟨hsame, List.append_cancel_left heq⟩

/-- Of two or more parts the first is followed by a comma. -/
theorem join_cons (t : Text) (ts : List Text) (u : Text) :
    [','].intercalate (t :: ts) ++ u =
      t ++ (if ts = [] then u else ',' :: ([','].intercalate ts ++ u)) := by
  cases ts with
  | nil => simp
  | cons t' ts => simp [List.intercalate_cons_cons]

theorem follows_join {ts : List Text} {u : Text} {c : Char} (hc : isDelimiter c = true) :
    Follows (if ts = [] then c :: u else ',' :: ([','].intercalate ts ++ c :: u)) := by
  split
  · exact .cons hc
  · exact .cons rfl

theorem renderItems_eq_nil {js : List Json} : renderItems P js = [] ↔ js = [] := by
  cases js with
  | nil => exact ⟨fun _ => rfl, fun _ => rfl⟩
  | cons j js => exact ⟨fun h => (nomatch h), fun h => (nomatch h)⟩

theorem renderEntries_eq_nil {es : List (String × Json)} : renderEntries P es = [] ↔ es = [] := by
  cases es with
  | nil => exact ⟨fun _ => rfl, fun _ => rfl⟩
  | cons e es => exact ⟨fun h => (nomatch h), fun h => (nomatch h)⟩

mutual

theorem render_append_inj (h : Comparable P Q) : ∀ (j : Json) {u v : Text}, Follows u → Follows v →
    render P j ++ u = render Q j ++ v → Alike P Q j ∧ u = v
  | null, _, _, _, _, heq | bool _, _, _, _, _, heq | num (.int _), _, _, _, _, heq =>
    ⟨trivial, List.append_cancel_left heq⟩
  | num (.float _), _, _, hu, hv, heq => float_append_inj h hu hv heq
  | str _, _, _, _, _, heq => quote_append_inj h heq
  | arr items, u, v, _, _, heq => by
    have hbody : [','].intercalate (renderItems P items) ++ ']' :: u =
        [','].intercalate (renderItems Q items) ++ ']' :: v := by
      simpa [render] using heq
    exact renderItems_append_inj h items hbody
  | obj entries, u, v, _, _, heq => by
    have hbody : [','].intercalate (renderEntries P entries) ++ '}' :: u =
        [','].intercalate (renderEntries Q entries) ++ '}' :: v := by
      simpa [render] using heq
    exact renderEntries_append_inj h entries hbody

theorem renderItems_append_inj (h : Comparable P Q) : ∀ (js : List Json) {u v : Text},
    [','].intercalate (renderItems P js) ++ ']' :: u =
      [','].intercalate (renderItems Q js) ++ ']' :: v → AlikeItems P Q js ∧ u = v
  | [], _, _, heq => ⟨trivial, (List.cons.inj heq).2⟩
  | j :: js, u, v, heq => by
    rw [renderItems, renderItems, join_cons, join_cons] at heq
    obtain ⟨hj, hrest⟩ := render_append_inj h j (follows_join rfl) (follows_join rfl) heq
    simp only [renderItems_eq_nil] at hrest
    split at hrest
    · next hnil =>
      subst hnil
      exact ⟨⟨hj, trivial⟩, (List.cons.inj hrest).2⟩
    · obtain ⟨hjs, huv⟩ := renderItems_append_inj h js (List.cons.inj hrest).2
      exact ⟨⟨hj, hjs⟩, huv⟩

theorem renderEntries_append_inj (h : Comparable P Q) : ∀ (es : List (String × Json)) {u v : Text},
    [','].intercalate (renderEntries P es) ++ '}' :: u =
      [','].intercalate (renderEntries Q es) ++ '}' :: v → AlikeEntries P Q es ∧ u = v
  | [], _, _, heq => ⟨trivial, (List.cons.inj heq).2⟩
  | e :: es, u, v, heq => by
    rw [renderEntries, renderEntries, join_cons, join_cons, List.append_assoc, List.append_assoc]
      at heq
    obtain ⟨hkey, hentry⟩ := quote_append_inj h heq
    obtain ⟨hj, hrest⟩ := render_append_inj h e.2 (follows_join rfl) (follows_join rfl)
      (List.cons.inj hentry).2
    simp only [renderEntries_eq_nil] at hrest
    split at hrest
    · next hnil =>
      subst hnil
      exact ⟨⟨⟨hkey, hj⟩, trivial⟩, (List.cons.inj hrest).2⟩
    · obtain ⟨hes, huv⟩ := renderEntries_append_inj h es (List.cons.inj hrest).2
      exact ⟨⟨⟨hkey, hj⟩, hes⟩, huv⟩

end

theorem quote_congr {s : Text} (h : ∀ c ∈ s, P.escape c = Q.escape c) : quote P s = quote Q s := by
  rw [quote, quote, List.flatMap_congr h]

mutual

theorem render_congr : ∀ (j : Json), Alike P Q j → render P j = render Q j
  | null, _ | bool _, _ | num (.int _), _ => rfl
  | num (.float _), h => h
  | str _, h => quote_congr h
  | arr items, h => by rw [render, render, renderItems_congr items h]
  | obj entries, h => by rw [render, render, renderEntries_congr entries h]

theorem renderItems_congr : ∀ (js : List Json), AlikeItems P Q js →
    renderItems P js = renderItems Q js
  | [], _ => rfl
  | j :: js, h => by
    rw [renderItems, renderItems, render_congr j h.1, renderItems_congr js h.2]

theorem renderEntries_congr : ∀ (es : List (String × Json)), AlikeEntries P Q es →
    renderEntries P es = renderEntries Q es
  | [], _ => rfl
  | e :: es, h => by
    rw [renderEntries, renderEntries, quote_congr h.1.1, render_congr e.2 h.1.2,
      renderEntries_congr es h.2]

end

/-- Two printers print a text alike exactly when they print its leaves alike. -/
theorem render_eq_iff (h : Comparable P Q) (j : Json) : render P j = render Q j ↔ Alike P Q j := by
  constructor
  · intro heq
    have happend : render P j ++ [] = render Q j ++ [] := congrArg (· ++ []) heq
    exact (render_append_inj h j .nil .nil happend).1
  · exact render_congr j

theorem alikeItems_iff {js : List Json} : AlikeItems P Q js ↔ ∀ j ∈ js, Alike P Q j := by
  induction js with
  | nil => exact ⟨fun _ _ hj => (nomatch hj), fun _ => trivial⟩
  | cons j js ih => rw [AlikeItems, ih, List.forall_mem_cons]

theorem alikeEntries_iff {es : List (String × Json)} : AlikeEntries P Q es ↔
    ∀ e ∈ es, (∀ c ∈ e.1.toList, P.escape c = Q.escape c) ∧ Alike P Q e.2 := by
  induction es with
  | nil => exact ⟨fun _ _ he => (nomatch he), fun _ => trivial⟩
  | cons e es ih => rw [AlikeEntries, ih, List.forall_mem_cons]

/-- The order of an object's entries does not matter. -/
theorem alike_object {es : List (String × Json)} (hnodup : (keys es).Nodup) :
    Alike P Q (object es) ↔
      ∀ e ∈ es, (∀ c ∈ e.1.toList, P.escape c = Q.escape c) ∧ Alike P Q e.2 := by
  rw [object, Alike, alikeEntries_iff]
  have hperm := putAll_nil_perm hnodup
  constructor
  · exact fun h e he => h e (hperm.mem_iff.mpr he)
  · exact fun h e he => h e (hperm.mem_iff.mp he)

end Lib.Json
