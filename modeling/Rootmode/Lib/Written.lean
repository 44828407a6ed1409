import Rootmode.Lib.Text

namespace Lib.Written

open Text

/-- What a text may have besides JSON. -/
structure Dialect where
  comments : Bool
  trailing : Bool
  deriving DecidableEq

def Dialect.json : Dialect := ⟨false, false⟩

def Dialect.jsonc : Dialect := ⟨true, true⟩

/-- Without comments. -/
def Dialect.bare (d : Dialect) : Dialect := { d with comments := false }

def isBlank (c : Char) : Bool := c = ' ' || c = '\t' || c = '\n' || c = '\r'

/-- What may stand between two tokens. -/
inductive Gap (d : Dialect) : Text → Prop
  | nil : Gap d []
  | blank {c t} (hc : isBlank c = true) (ht : Gap d t) : Gap d (c :: t)
  | line {s t} (hd : d.comments = true) (hs : '\n' ∉ s) (ht : Gap d t) : Gap d ('/' :: '/' :: (s ++ '\n' :: t))
  | block {s t} (hd : d.comments = true) (hs : ¬ ['*', '/'] <:+: s ++ ['*']) (ht : Gap d t) :
    Gap d ('/' :: '*' :: (s ++ '*' :: '/' :: t))

section Words

def Digits (t : Text) : Prop := t ≠ [] ∧ ∀ c ∈ t, c.isDigit = true

inductive Sign : Text → Prop
  | none : Sign []
  | minus : Sign ['-']

inductive Whole : Text → Prop
  | zero : Whole ['0']
  | digits {t} (ht : Digits t) (hzero : t.head? ≠ some '0') : Whole t

inductive Fraction : Text → Prop
  | none : Fraction []
  | point {t} (ht : Digits t) : Fraction ('.' :: t)

inductive Exponent : Text → Prop
  | none : Exponent []
  | bare {e t} (he : e = 'e' ∨ e = 'E') (ht : Digits t) : Exponent (e :: t)
  | signed {e c t} (he : e = 'e' ∨ e = 'E') (hc : c = '+' ∨ c = '-') (ht : Digits t) : Exponent (e :: c :: t)

/-- The values written without quotes and brackets. -/
inductive Word : Text → Prop
  | null : Word ['n', 'u', 'l', 'l']
  | yes : Word ['t', 'r', 'u', 'e']
  | no : Word ['f', 'a', 'l', 's', 'e']
  | number {s w f e} (hs : Sign s) (hw : Whole w) (hf : Fraction f) (he : Exponent e) : Word (s ++ (w ++ (f ++ e)))

end Words

def isHex (c : Char) : Bool := c.isDigit || ('a' ≤ c && c ≤ 'f') || ('A' ≤ c && c ≤ 'F')

/-- What stands between the quotes of a string. -/
inductive Literal : Text → Prop
  | nil : Literal []
  | plain {c t} (hquote : c ≠ '"') (hbackslash : c ≠ '\\') (hc : 0x20 ≤ c.toNat) (ht : Literal t) : Literal (c :: t)
  | escaped {c t} (hc : c ∈ ['"', '\\', '/', 'b', 'f', 'n', 'r', 't']) (ht : Literal t) : Literal ('\\' :: c :: t)
  | unicode {a b c d t} (hhex : ∀ x ∈ [a, b, c, d], isHex x = true) (ht : Literal t) :
    Literal ('\\' :: 'u' :: a :: b :: c :: d :: t)

inductive Bracket
  | square
  | curly
  deriving DecidableEq

def Bracket.opening : Bracket → Char
  | .square => '['
  | .curly => '{'

def Bracket.closing : Bracket → Char
  | .square => ']'
  | .curly => '}'

/-- What a text says: its words and strings as they are written, and the members of its brackets one after
another. -/
inductive Tree
  | word (w : Text)
  | string (raw : Text)
  | group (b : Bracket) (members : Tree)
  | entry (key : Text) (value : Tree)
  | nil
  | cons (first rest : Tree)
  deriving DecidableEq

namespace Tree

/-- The strings of a tree in their order, keys among them. -/
def literals : Tree → List Text
  | word _ => []
  | string raw => [raw]
  | group _ members => members.literals
  | entry key value => key :: value.literals
  | nil => []
  | cons first rest => first.literals ++ rest.literals

def mapLiterals (f : Text → Text) : Tree → Tree
  | word w => word w
  | string raw => string (f raw)
  | group b members => group b (members.mapLiterals f)
  | entry key value => entry (f key) (value.mapLiterals f)
  | nil => nil
  | cons first rest => cons (first.mapLiterals f) (rest.mapLiterals f)

variable {f : Text → Text} {v : Tree}

theorem literals_mapLiterals : (v.mapLiterals f).literals = v.literals.map f := by
  induction v with
  | word w => rfl
  | string raw => rfl
  | group b members ih => exact ih
  | entry key value ih => rw [mapLiterals, literals, ih, literals, List.map_cons]
  | nil => rfl
  | cons first rest ihf ihr => rw [mapLiterals, literals, ihf, ihr, literals, List.map_append]

theorem mapLiterals_eq (h : ∀ raw ∈ v.literals, f raw = raw) : v.mapLiterals f = v := by
  induction v with
  | word w => rfl
  | string raw => rw [mapLiterals, h raw (by simp [literals])]
  | group b members ih => rw [mapLiterals, ih h]
  | entry key value ih =>
    obtain ⟨hkey, hvalue⟩ := List.forall_mem_cons.mp h
    rw [mapLiterals, hkey, ih hvalue]
  | nil => rfl
  | cons first rest ihf ihr =>
    obtain ⟨hfirst, hrest⟩ := List.forall_mem_append.mp h
    rw [mapLiterals, ihf hfirst, ihr hrest]

end Tree

/-- The parts of a text that are told apart: a value, a member, all after an opening bracket, and all after a
member. -/
inductive Shape
  | value
  | member (b : Bracket)
  | body (b : Bracket)
  | more (b : Bracket)

/-- What a part of a text says. -/
inductive Says (d : Dialect) : Shape → Text → Tree → Prop
  | word {w} (h : Word w) : Says d .value w (.word w)
  | string {raw} (h : Literal raw) : Says d .value ('"' :: (raw ++ ['"'])) (.string raw)
  | group {b t vs} (h : Says d (.body b) t vs) : Says d .value (b.opening :: t) (.group b vs)
  | item {t v} (h : Says d .value t v) : Says d (.member .square) t v
  | entry {key g g' t v} (hkey : Literal key) (hg : Gap d g) (hg' : Gap d g') (h : Says d .value t v) :
    Says d (.member .curly) ('"' :: (key ++ '"' :: (g ++ ':' :: (g' ++ t)))) (.entry key v)
  | empty {b g} (hg : Gap d g) : Says d (.body b) (g ++ [b.closing]) .nil
  | first {b g t v r vs} (hg : Gap d g) (h : Says d (.member b) t v) (hr : Says d (.more b) r vs) :
    Says d (.body b) (g ++ (t ++ r)) (.cons v vs)
  | last {b g} (hg : Gap d g) : Says d (.more b) (g ++ [b.closing]) .nil
  | next {b g g' t v r vs} (hg : Gap d g) (hg' : Gap d g') (h : Says d (.member b) t v) (hr : Says d (.more b) r vs) :
    Says d (.more b) (g ++ ',' :: (g' ++ (t ++ r))) (.cons v vs)
  | trailing {b g g'} (hd : d.trailing = true) (hg : Gap d g) (hg' : Gap d g') :
    Says d (.more b) (g ++ ',' :: (g' ++ [b.closing])) .nil

/-- Nothing, or a comment on the last line. -/
inductive Rest (d : Dialect) : Text → Prop
  | none : Rest d []
  | line {s} (hd : d.comments = true) (hs : '\n' ∉ s) : Rest d ('/' :: '/' :: s)

/-- What a whole text says. -/
inductive Document (d : Dialect) : Text → Tree → Prop
  | intro {g t g' r v} (hg : Gap d g) (h : Says d .value t v) (hg' : Gap d g') (hr : Rest d r) :
    Document d (g ++ (t ++ (g' ++ r))) v

section Characters

variable {c : Char} {t : Text}

/-- The characters of words. -/
def isWordChar (c : Char) : Bool := c.isAlphanum || c = '-' || c = '+' || c = '.'

theorem isWordChar_of_isDigit (h : c.isDigit = true) : isWordChar c = true := by simp [isWordChar, Char.isAlphanum, h]

theorem Digits.wordly (h : Digits t) : ∀ c ∈ t, isWordChar c = true := fun c hc => isWordChar_of_isDigit (h.2 c hc)

theorem Word.wordly (h : Word t) : t ≠ [] ∧ ∀ c ∈ t, isWordChar c = true := by
  cases h with
  | null => exact ⟨by simp, List.all_eq_true.mp (by decide)⟩
  | yes => exact ⟨by simp, List.all_eq_true.mp (by decide)⟩
  | no => exact ⟨by simp, List.all_eq_true.mp (by decide)⟩
  | number hs hw hf he =>
    constructor
    · cases hw with
      | zero => simp
      | digits ht _ => simp [ht.1]
    · intro c hc
      rcases List.mem_append.mp hc with hc | hc
      · cases hs with
        | none => cases hc
        | minus =>
          obtain rfl := List.mem_singleton.mp hc
          decide
      rcases List.mem_append.mp hc with hc | hc
      · cases hw with
        | zero =>
          obtain rfl := List.mem_singleton.mp hc
          decide
        | digits ht _ => exact ht.wordly c hc
      rcases List.mem_append.mp hc with hc | hc
      · cases hf with
        | none => cases hc
        | point ht =>
          rcases List.mem_cons.mp hc with rfl | hc
          · decide
          · exact ht.wordly c hc
      · cases he with
        | none => cases hc
        | bare he ht =>
          rcases List.mem_cons.mp hc with rfl | hc
          · rcases he with rfl | rfl <;> decide
          · exact ht.wordly c hc
        | signed he hsign ht =>
          rcases List.mem_cons.mp hc with rfl | hc
          · rcases he with rfl | rfl <;> decide
          rcases List.mem_cons.mp hc with rfl | hc
          · rcases hsign with rfl | rfl <;> decide
          · exact ht.wordly c hc

theorem ne_of_isWordChar (h : isWordChar c = true) : c ≠ '"' ∧ c ≠ '/' ∧ c ≠ ',' := by
  refine ⟨?_, ?_, ?_⟩
  all_goals
    rintro rfl
    revert h
    decide

theorem isBlank_ne (h : isBlank c = true) : c ≠ '"' ∧ c ≠ '/' ∧ c ≠ ',' := by
  refine ⟨?_, ?_, ?_⟩
  all_goals
    rintro rfl
    revert h
    decide

theorem Bracket.opening_ne (b : Bracket) : b.opening ≠ '"' ∧ b.opening ≠ '/' ∧ b.opening ≠ ',' := by
  cases b <;> decide

theorem Bracket.closing_ne (b : Bracket) : b.closing ≠ '"' ∧ b.closing ≠ '/' ∧ b.closing ≠ ',' := by
  cases b <;> decide

theorem isWhitespace_of_isWordChar (h : isWordChar c = true) : isWhitespace c = false := by
  have hcode : 0x2B ≤ c.toNat ∧ c.toNat ≤ 0x7A := by
    simp only [isWordChar, Bool.or_eq_true, decide_eq_true_eq] at h
    rcases h with ((h | rfl) | rfl) | rfl
    · have hcode := code_of_alphanum h
      omega
    · decide
    · decide
    · decide
  unfold isWhitespace
  rw [decide_eq_false_iff_not]
  omega

theorem isWhitespace_of_isBlank (h : isBlank c = true) : isWhitespace c = true := by
  simp only [isBlank, Bool.or_eq_true, decide_eq_true_eq] at h
  rcases h with ((rfl | rfl) | rfl) | rfl <;> decide

end Characters

section Scan

/-- Where a reader of JSON is, and what it has read of a string. -/
inductive Spot
  | code
  | string (read : Text)
  | escape (read : Text)

/-- The strings of a text of JSON, read one after another. -/
def scan : Spot → Text → List Text
  | _, [] => []
  | .code, c :: t => scan (if c = '"' then .string [] else .code) t
  | .string read, c :: t =>
    if c = '"' then read :: scan .code t
    else scan (if c = '\\' then .escape (read ++ [c]) else .string (read ++ [c])) t
  | .escape read, c :: t => scan (.string (read ++ [c])) t

variable {d : Dialect} {s : Shape} {t u raw read rest : Text} {v : Tree} {c : Char}

theorem scan_skip (h : ∀ c ∈ t, c ≠ '"') : scan .code (t ++ rest) = scan .code rest := by
  induction t with
  | nil => rfl
  | cons c t ih =>
    obtain ⟨hc, ht⟩ := List.forall_mem_cons.mp h
    rw [List.cons_append, scan, if_neg hc, ih ht]

theorem Gap.unquoted (hd : d.comments = false) (h : Gap d t) : ∀ c ∈ t, c ≠ '"' := by
  induction h with
  | nil => simp
  | blank hc _ ih => exact List.forall_mem_cons.mpr ⟨(isBlank_ne hc).1, ih⟩
  | line hd' => rw [hd] at hd'; cases hd'
  | block hd' => rw [hd] at hd'; cases hd'

theorem scan_string {x : Char} (hquote : x ≠ '"') (hbackslash : x ≠ '\\') :
    scan (.string read) (x :: rest) = scan (.string (read ++ [x])) rest := by
  rw [scan, if_neg hquote, if_neg hbackslash]

theorem scan_escaped : scan (.string read) ('\\' :: c :: rest) = scan (.string (read ++ ['\\', c])) rest := by
  rw [scan, if_neg (by decide), if_pos rfl, scan, List.append_assoc]
  rfl

theorem isHex_ne (h : isHex c = true) : c ≠ '"' ∧ c ≠ '\\' ∧ c ≠ ',' := by
  refine ⟨?_, ?_, ?_⟩
  all_goals
    rintro rfl
    revert h
    decide

theorem Literal.scan (h : Literal raw) : scan (.string read) (raw ++ '"' :: rest) = (read ++ raw) :: scan .code rest := by
  induction h generalizing read with
  | nil => rw [List.nil_append, Written.scan, if_pos rfl, List.append_nil]
  | plain hquote hbackslash _ _ ih =>
    rw [List.cons_append, scan_string hquote hbackslash, ih, List.append_assoc]
    rfl
  | escaped _ _ ih =>
    rw [List.cons_append, List.cons_append, scan_escaped, ih, List.append_assoc]
    rfl
  | @unicode a b c d t hhex _ ih =>
    obtain ⟨ha, hb, hc, hd⟩ : isHex a = true ∧ isHex b = true ∧ isHex c = true ∧ isHex d = true := by simpa using hhex
    simp only [List.cons_append]
    rw [scan_escaped, scan_string (isHex_ne ha).1 (isHex_ne ha).2.1, scan_string (isHex_ne hb).1 (isHex_ne hb).2.1,
      scan_string (isHex_ne hc).1 (isHex_ne hc).2.1, scan_string (isHex_ne hd).1 (isHex_ne hd).2.1, ih]
    simp

theorem scan_cons {x : Char} (h : x ≠ '"') : scan .code (x :: rest) = scan .code rest := by rw [scan, if_neg h]

theorem scan_quote : scan .code ('"' :: rest) = scan (.string []) rest := by rw [scan, if_pos rfl]

/-- The strings that are read in a text are those of what it says. -/
theorem Says.scan (hd : d.comments = false) (h : Says d s t v) :
    scan .code (t ++ rest) = v.literals ++ scan .code rest := by
  induction h generalizing rest with
  | word h => exact scan_skip fun c hc => (ne_of_isWordChar (h.wordly.2 c hc)).1
  | string h =>
    rw [List.cons_append, scan_quote, List.append_assoc, List.singleton_append, h.scan]
    rfl
  | @group b t vs h ih =>
    rw [List.cons_append, scan_cons b.opening_ne.1, ih]
    rfl
  | item _ ih => exact ih
  | entry hkey hg hg' h ih =>
    rw [List.cons_append, scan_quote, List.append_assoc, List.cons_append, hkey.scan, List.append_assoc,
      scan_skip (hg.unquoted hd), List.cons_append, scan_cons (by decide), List.append_assoc, scan_skip (hg'.unquoted hd), ih]
    rfl
  | @empty b g hg =>
    rw [List.append_assoc, scan_skip (hg.unquoted hd), List.singleton_append, scan_cons b.closing_ne.1]
    rfl
  | first hg _ _ ih ihr =>
    rw [List.append_assoc, scan_skip (hg.unquoted hd), List.append_assoc, ih, ihr, ← List.append_assoc]
    rfl
  | @last b g hg =>
    rw [List.append_assoc, scan_skip (hg.unquoted hd), List.singleton_append, scan_cons b.closing_ne.1]
    rfl
  | next hg hg' _ _ ih ihr =>
    rw [List.append_assoc, scan_skip (hg.unquoted hd), List.cons_append, scan_cons (by decide), List.append_assoc,
      scan_skip (hg'.unquoted hd), List.append_assoc, ih, ihr, ← List.append_assoc]
    rfl
  | @trailing b g g' _ hg hg' =>
    rw [List.append_assoc, scan_skip (hg.unquoted hd), List.cons_append, scan_cons (by decide), List.append_assoc,
      scan_skip (hg'.unquoted hd), List.singleton_append, scan_cons b.closing_ne.1]
    rfl

theorem Document.scan (hd : d.comments = false) (h : Document d t v) : scan .code t = v.literals := by
  obtain ⟨hg, h, hg', hr⟩ := h
  cases hr with
  | none =>
    rw [scan_skip (hg.unquoted hd), h.scan hd, scan_skip (hg'.unquoted hd), Written.scan, List.append_nil]
  | line hd' =>
    rw [hd] at hd'
    cases hd'

end Scan

end Lib.Written
