import Rootmode.Lib.Json
import Rootmode.Lib.Split

namespace Lib.Json

open Entries Ieee Text

section Print

variable (P : Printer)

/-- A new line, and the blanks it begins with. -/
def newline (depth : ℕ) : Text := '\n' :: List.replicate (2 * depth) ' '

def bracketed (o c : Char) (depth : ℕ) (parts : List Text) : Text :=
  if parts = [] then [o, c]
  else o :: (newline (depth + 1) ++ (',' :: newline (depth + 1)).intercalate parts ++ newline depth ++ [c])

mutual

/-- A text with a line for every entry. -/
def pretty (depth : ℕ) : Json → Text
  | null => "null".toList
  | bool b => (toString b).toList
  | num (.int n) => (toString n).toList
  | num (.float x) => P.float x
  | str s => quote P s
  | arr items => bracketed '[' ']' depth (prettyItems (depth + 1) items)
  | obj entries => bracketed '{' '}' depth (prettyEntries (depth + 1) entries)

def prettyItems (depth : ℕ) : List Json → List Text
  | [] => []
  | j :: js => pretty depth j :: prettyItems depth js

def prettyEntries (depth : ℕ) : List (String × Json) → List Text
  | [] => []
  | e :: es => (quote P e.1.toList ++ ':' :: ' ' :: pretty depth e.2) :: prettyEntries depth es

end

end Print

mutual

/-- A property of all the strings of a value, its keys among them. -/
def Each (p : Text → Prop) : Json → Prop
  | null | bool _ | num _ => True
  | str s => p s
  | arr items => EachItem p items
  | obj entries => EachEntry p entries

def EachItem (p : Text → Prop) : List Json → Prop
  | [] => True
  | j :: js => Each p j ∧ EachItem p js

def EachEntry (p : Text → Prop) : List (String × Json) → Prop
  | [] => True
  | e :: es => (p e.1.toList ∧ Each p e.2) ∧ EachEntry p es

end

/-- What comes next, but for blanks, is a bracket that closes. -/
def closes (t : Text) : Bool := (t.dropWhile isWhitespace).head?.any fun c => c = '}' || c = ']'

/-- A function that leaves a part of a text as it is, whatever follows. -/
def Passes (f : Text → Text) (t : Text) : Prop := ∀ rest, f (t ++ rest) = t ++ f rest

/-- A character that ends nothing and begins neither a string nor a comment. -/
def isPlain (c : Char) : Bool := c ≠ '"' && c ≠ ',' && c ≠ '/'

/-- What a number is written with. -/
def isNumeric (c : Char) : Bool := c.isDigit || c = '-' || c = '+' || c = '.' || c = 'e'

/-- Floats are written as numbers are. -/
structure Printer.Numeric (P : Printer) : Prop where
  ne_nil : ∀ x, P.float x ≠ []
  chars : ∀ x, ∀ c ∈ P.float x, isNumeric c = true

/-- A function that takes out of a text no more than a comma that a bracket follows, outside of its strings. -/
structure Neat (f : Text → Text) : Prop where
  nil : f [] = []
  plain : ∀ c t, isPlain c = true → f (c :: t) = c :: f t
  comma : ∀ t, closes t = false → f (',' :: t) = ',' :: f t

variable {P : Printer} {f : Text → Text} {t u : Text} {parts : List Text} {o c : Char}

section Passes

theorem Passes.append (ht : Passes f t) (hu : Passes f u) : Passes f (t ++ u) := by
  intro rest
  rw [List.append_assoc, ht, hu, List.append_assoc]

theorem passes_nil : Passes f [] := fun _ => rfl

theorem Neat.passes_of_plain (h : Neat f) (ht : ∀ c ∈ t, isPlain c = true) : Passes f t := by
  intro rest
  induction t with
  | nil => rfl
  | cons c t ih =>
    rw [List.cons_append, h.plain c _ (ht c (.head _)), ih fun d hd => ht d (.tail _ hd)]
    rfl

theorem Neat.passes_newline (h : Neat f) (depth : ℕ) : Passes f (newline depth) := by
  refine h.passes_of_plain (List.forall_mem_cons.mpr ⟨rfl, fun c hc => ?_⟩)
  rw [List.eq_of_mem_replicate hc]
  rfl

end Passes

/-- A part begins with what is neither a blank nor a bracket that closes. -/
def Opens (t : Text) : Prop := ∃ c u, t = c :: u ∧ isWhitespace c = false ∧ c ≠ '}' ∧ c ≠ ']'

section Opens

theorem closes_newline (depth : ℕ) (t : Text) : closes (newline depth ++ t) = closes t := by
  have hblank : (newline depth ++ t).dropWhile isWhitespace = t.dropWhile isWhitespace := by
    refine List.dropWhile_append_of_pos (List.forall_mem_cons.mpr ⟨by decide, fun c hc => ?_⟩)
    rw [List.eq_of_mem_replicate hc]
    decide
  rw [closes, hblank, closes]

theorem Opens.closes (ht : Opens t) (rest : Text) : Json.closes (t ++ rest) = false := by
  obtain ⟨c, u, rfl, hblank, hbrace, hbracket⟩ := ht
  rw [Json.closes, List.cons_append, List.dropWhile_cons, hblank]
  simp [hbrace, hbracket]

theorem Opens.append (ht : Opens t) (u : Text) : Opens (t ++ u) := by
  obtain ⟨c, v, rfl, hc⟩ := ht
  exact ⟨c, v ++ u, rfl, hc⟩

theorem opens_quote (s : Text) : Opens (quote P s) :=
  ⟨'"', _, rfl, by decide, by decide, by decide⟩

theorem opens_bracketed (ho : isWhitespace o = false ∧ o ≠ '}' ∧ o ≠ ']') (depth : ℕ) :
    Opens (bracketed o c depth parts) := by
  unfold bracketed
  split
  · exact ⟨o, _, rfl, ho⟩
  · exact ⟨o, _, rfl, ho⟩

end Opens

section Numeric

theorem isNumeric_ne {d : Char} (hd : isNumeric d = true) (hc : isNumeric c = false) : d ≠ c := by
  rintro rfl
  rw [hd] at hc
  cases hc

theorem isPlain_of_isNumeric (h : isNumeric c = true) : isPlain c = true := by
  have hquote := isNumeric_ne h (show isNumeric '"' = false from rfl)
  have hcomma := isNumeric_ne h (show isNumeric ',' = false from rfl)
  have hslash := isNumeric_ne h (show isNumeric '/' = false from rfl)
  simp [isPlain, hquote, hcomma, hslash]

theorem isNumeric_range (h : isNumeric c = true) : 0x2B ≤ c.toNat ∧ c.toNat ≤ 0x65 := by
  have hrange : c.isDigit = true → 0x2B ≤ c.toNat ∧ c.toNat ≤ 0x65 := by
    intro hdigit
    have hdigits : 48 ≤ c.toNat ∧ c.toNat ≤ 57 := Char.isDigit_iff_toNat.mp hdigit
    omega
  simp only [isNumeric, Bool.or_eq_true, decide_eq_true_eq] at h
  rcases h with (((h | rfl) | rfl) | rfl) | rfl
  · exact hrange h
  all_goals decide

theorem opens_of_numeric (hne : t ≠ []) (h : ∀ c ∈ t, isNumeric c = true) : Opens t := by
  cases t with
  | nil => exact absurd rfl hne
  | cons c t =>
    have hc := h c (.head _)
    obtain ⟨hlow, hhigh⟩ := isNumeric_range hc
    refine ⟨c, t, rfl, ?_, isNumeric_ne hc rfl, isNumeric_ne hc rfl⟩
    rw [isWhitespace]
    simp only [decide_eq_false_iff_not]
    omega

theorem numeric_natural (n : ℕ) : ∀ c ∈ Nat.toDigits 10 n, isNumeric c = true := by
  intro c hc
  rw [isNumeric, isDigit_of_mem hc]
  rfl

theorem numeric_int (n : ℤ) : (toString n).toList ≠ [] ∧ ∀ c ∈ (toString n).toList, isNumeric c = true := by
  cases n with
  | ofNat n =>
    have htext : (toString (Int.ofNat n)).toList = Nat.toDigits 10 n := toList_toString n
    rw [htext]
    exact ⟨Nat.toDigits_ne_nil, numeric_natural n⟩
  | negSucc n =>
    have htext : (toString (Int.negSucc n)).toList = '-' :: Nat.toDigits 10 (n + 1) := by
      rw [← toList_toString]
      exact String.toList_append
    rw [htext]
    exact ⟨List.cons_ne_nil _ _, List.forall_mem_cons.mpr ⟨rfl, numeric_natural (n + 1)⟩⟩

end Numeric

section Whole

theorem intercalate_two (sep t u : Text) (parts : List Text) :
    sep.intercalate (t :: u :: parts) = t ++ (sep ++ sep.intercalate (u :: parts)) := by
  simp [List.intercalate]

theorem Neat.passes_intercalate (h : Neat f) (depth : ℕ) (hparts : ∀ t ∈ parts, Opens t ∧ Passes f t) :
    Passes f ((',' :: newline depth).intercalate parts) := by
  induction parts with
  | nil => exact passes_nil
  | cons t parts ih =>
    have ht := (hparts t (.head _)).2
    have hrest : ∀ u ∈ parts, Opens u ∧ Passes f u := fun u hu => hparts u (.tail _ hu)
    cases parts with
    | nil => simpa [List.intercalate] using ht
    | cons u parts =>
      have hhead : ∃ more, (',' :: newline depth).intercalate (u :: parts) = u ++ more := by
        cases parts with
        | nil => exact ⟨[], by simp [List.intercalate]⟩
        | cons v parts => exact ⟨_, intercalate_two _ u v parts⟩
      obtain ⟨more, hmore⟩ := hhead
      rw [intercalate_two]
      refine ht.append fun rest => ?_
      have hopen : closes (newline depth ++ (',' :: newline depth).intercalate (u :: parts) ++ rest) = false := by
        rw [List.append_assoc, closes_newline, hmore, List.append_assoc]
        exact (hrest u (.head _)).1.closes _
      rw [List.cons_append, List.cons_append, h.comma _ hopen, (h.passes_newline depth).append (ih hrest) rest]
      rfl

theorem Neat.passes_bracketed (h : Neat f) (ho : isPlain o = true) (hc : isPlain c = true) (depth : ℕ)
    (hparts : ∀ t ∈ parts, Opens t ∧ Passes f t) : Passes f (bracketed o c depth parts) := by
  have hopen : Passes f [o] := h.passes_of_plain (List.forall_mem_singleton.mpr ho)
  have hclose : Passes f [c] := h.passes_of_plain (List.forall_mem_singleton.mpr hc)
  unfold bracketed
  split
  · exact hopen.append hclose
  · exact hopen.append ((((h.passes_newline _).append (h.passes_intercalate _ hparts)).append
      (h.passes_newline _)).append hclose)

theorem opens_pretty (hP : P.Numeric) (depth : ℕ) (v : Json) : Opens (pretty P depth v) := by
  cases v with
  | null => exact ⟨'n', _, rfl, by decide, by decide, by decide⟩
  | bool b =>
    cases b with
    | false => exact ⟨'f', _, rfl, by decide, by decide, by decide⟩
    | true => exact ⟨'t', _, rfl, by decide, by decide, by decide⟩
  | num n =>
    cases n with
    | int n => exact opens_of_numeric (numeric_int n).1 (numeric_int n).2
    | float x => exact opens_of_numeric (hP.ne_nil x) (hP.chars x)
  | str s => exact opens_quote s
  | arr items => exact opens_bracketed ⟨by decide, by decide, by decide⟩ depth
  | obj entries => exact opens_bracketed ⟨by decide, by decide, by decide⟩ depth

mutual

/-- A printed value is left as it is where its strings are. -/
theorem Neat.passes_pretty (h : Neat f) (hP : P.Numeric) (depth : ℕ) :
    ∀ v : Json, Each (fun s => Passes f (quote P s)) v → Passes f (pretty P depth v)
  | null, _ => h.passes_of_plain (List.all_eq_true.mp (show "null".toList.all isPlain = true by decide))
  | bool false, _ => h.passes_of_plain (List.all_eq_true.mp (show "false".toList.all isPlain = true by decide))
  | bool true, _ => h.passes_of_plain (List.all_eq_true.mp (show "true".toList.all isPlain = true by decide))
  | num (.int n), _ => h.passes_of_plain fun c hc => isPlain_of_isNumeric ((numeric_int n).2 c hc)
  | num (.float x), _ => h.passes_of_plain fun c hc => isPlain_of_isNumeric (hP.chars x c hc)
  | str _, hs => hs
  | arr items, hitems => h.passes_bracketed rfl rfl depth (passes_prettyItems h hP (depth + 1) items hitems)
  | obj entries, hentries =>
    h.passes_bracketed rfl rfl depth (passes_prettyEntries h hP (depth + 1) entries hentries)

theorem Neat.passes_prettyItems (h : Neat f) (hP : P.Numeric) (depth : ℕ) :
    ∀ js : List Json, EachItem (fun s => Passes f (quote P s)) js →
      ∀ t ∈ prettyItems P depth js, Opens t ∧ Passes f t
  | [], _ => by rintro t ⟨⟩
  | j :: js, ⟨hj, hjs⟩ => List.forall_mem_cons.mpr
      ⟨⟨opens_pretty hP depth j, passes_pretty h hP depth j hj⟩, passes_prettyItems h hP depth js hjs⟩

theorem Neat.passes_prettyEntries (h : Neat f) (hP : P.Numeric) (depth : ℕ) :
    ∀ es : List (String × Json), EachEntry (fun s => Passes f (quote P s)) es →
      ∀ t ∈ prettyEntries P depth es, Opens t ∧ Passes f t
  | [], _ => by rintro t ⟨⟩
  | e :: es, ⟨⟨hkey, hvalue⟩, hes⟩ => by
    have hcolon : Passes f [':', ' '] := h.passes_of_plain (List.all_eq_true.mp rfl)
    exact List.forall_mem_cons.mpr ⟨⟨(opens_quote _).append _,
      Passes.append hkey (hcolon.append (passes_pretty h hP depth e.2 hvalue))⟩,
      passes_prettyEntries h hP depth es hes⟩

end

end Whole

section Each

variable {p : Text → Prop} {k : String} {v w : Json} {es : List (String × Json)}

theorem eachEntry_iff : EachEntry p es ↔ ∀ e ∈ es, p e.1.toList ∧ Each p e.2 := by
  induction es with
  | nil => exact iff_of_true trivial (by rintro e ⟨⟩)
  | cons e es ih => rw [EachEntry, ih, List.forall_mem_cons]

theorem each_put (hk : p k.toList) (hv : Each p v) (h : Each p (obj es)) : Each p (obj (put k v es)) := by
  refine eachEntry_iff.mpr fun e he => ?_
  rcases mem_put he with rfl | he
  · exact ⟨hk, hv⟩
  · exact eachEntry_iff.mp h e he

theorem each_without (h : Each p (obj es)) : Each p (obj (without k es)) :=
  eachEntry_iff.mpr fun e he => eachEntry_iff.mp h e (List.mem_of_mem_filter he)

mutual

theorem each_of_forall (h : ∀ s, p s) : ∀ v : Json, Each p v
  | null | bool _ | num _ => trivial
  | str s => h s
  | arr items => eachItem_of_forall h items
  | obj entries => eachEntry_of_forall h entries

theorem eachItem_of_forall (h : ∀ s, p s) : ∀ js : List Json, EachItem p js
  | [] => trivial
  | j :: js => ⟨each_of_forall h j, eachItem_of_forall h js⟩

theorem eachEntry_of_forall (h : ∀ s, p s) : ∀ es : List (String × Json), EachEntry p es
  | [] => trivial
  | e :: es => ⟨⟨h _, each_of_forall h e.2⟩, eachEntry_of_forall h es⟩

end

mutual

theorem Each.imp {q : Text → Prop} (h : ∀ s, p s → q s) : ∀ v : Json, Each p v → Each q v
  | null, _ | bool _, _ | num _, _ => trivial
  | str s, hs => h s hs
  | arr items, hitems => eachItem_imp h items hitems
  | obj entries, hentries => eachEntry_imp h entries hentries

theorem eachItem_imp {q : Text → Prop} (h : ∀ s, p s → q s) : ∀ js : List Json, EachItem p js → EachItem q js
  | [], _ => trivial
  | j :: js, ⟨hj, hjs⟩ => ⟨Each.imp h j hj, eachItem_imp h js hjs⟩

theorem eachEntry_imp {q : Text → Prop} (h : ∀ s, p s → q s) :
    ∀ es : List (String × Json), EachEntry p es → EachEntry q es
  | [], _ => trivial
  | e :: es, ⟨⟨hkey, hvalue⟩, hes⟩ => ⟨⟨h _ hkey, Each.imp h e.2 hvalue⟩, eachEntry_imp h es hes⟩

end

end Each

end Lib.Json
