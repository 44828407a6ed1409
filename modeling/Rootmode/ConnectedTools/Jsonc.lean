import Rootmode.Core.Protocol
import Rootmode.Lib.Pretty

namespace Rootmode.ConnectedTools

open Lib Lib.Json Lib.Text Protocol

/-- Where a reader of a commented text is. -/
inductive Mode
  | code
  | string
  | escape
  | line
  | opened
  | block (star : Bool)

/-- A text without its comments. -/
def uncomment : Mode → Text → Text
  | _, [] => []
  | .code, c :: t =>
    if c = '"' then c :: uncomment .string t
    else if c = '/' ∧ t.head? = some '/' then uncomment .line t
    else if c = '/' ∧ t.head? = some '*' then uncomment .opened t
    else c :: uncomment .code t
  | .string, c :: t => c :: uncomment (if c = '\\' then .escape else if c = '"' then .code else .string) t
  | .escape, c :: t => c :: uncomment .string t
  | .line, c :: t => if c = '\n' then c :: uncomment .code t else uncomment .line t
  | .opened, _ :: t => uncomment (.block false) t
  | .block star, c :: t => if star ∧ c = '/' then uncomment .code t else uncomment (.block (c = '*')) t

/-- A text without the commas that a closing bracket follows, in its strings as well. -/
def stripTrailingCommas : Text → Text
  | [] => []
  | c :: t => if c = ',' ∧ closes t then stripTrailingCommas t else c :: stripTrailingCommas t

def stripJsonc (raw : Text) : Text := stripTrailingCommas (uncomment .code raw)

/-- The same outside of strings only, as trailing commas are meant. -/
def untrailed : Mode → Text → Text
  | _, [] => []
  | .string, c :: t => c :: untrailed (if c = '\\' then .escape else if c = '"' then .code else .string) t
  | .escape, c :: t => c :: untrailed .string t
  | _, c :: t =>
    if c = '"' then c :: untrailed .string t
    else if c = ',' ∧ closes t then untrailed .code t
    else c :: untrailed .code t

section Read

variable (S : SerdeJson)

def fromValue (t : Text) : Option Json := (S.fromStr t).map Json.value

def readText (content : Bytes) : Option Text := content.toByteArray.utf8Decode?.map Array.toList

/-- The value of a file, as its connectors read it. -/
def readJsonLenient (content : Option Bytes) : Json :=
  match content.bind readText with
  | some raw => (fromValue S (stripJsonc raw)).getD (obj [])
  | none => obj []

/-- The value of a text with comments and trailing commas. -/
def jsonc (content : Bytes) : Option Json :=
  (readText content).bind fun raw => fromValue S (untrailed .code (uncomment .code raw))

def printer : Printer := ⟨S.float, escape⟩

def toStringPretty (v : Json) : Text := pretty (printer S) 0 v

/-- What is printed of a value, on lines of its own, reads as the value. -/
def ReadsBack (v : Json) : Prop := fromValue S (toStringPretty S v ++ ['\n']) = some v

end Read

theorem readText_utf8 (t : Text) : readText (Hex.utf8 t) = some t := by
  have hdecode : (Hex.utf8 t).toByteArray.utf8Decode? = some t.toArray := List.utf8Decode?_utf8Encode
  rw [readText, hdecode]
  rfl

section Strings

/-- A reader that goes through strings as they are. -/
structure Scans (g : Mode → Text → Text) : Prop where
  quote : ∀ t, g .code ('"' :: t) = '"' :: g .string t
  close : ∀ t, g .string ('"' :: t) = '"' :: g .code t
  backslash : ∀ t, g .string ('\\' :: t) = '\\' :: g .escape t
  escaped : ∀ c t, g .escape (c :: t) = c :: g .string t
  inside : ∀ c t, c ≠ '"' → c ≠ '\\' → g .string (c :: t) = c :: g .string t

theorem scans_uncomment : Scans uncomment where
  quote t := by rw [uncomment, if_pos rfl]
  close t := by rw [uncomment, if_neg (by decide), if_pos rfl]
  backslash t := by rw [uncomment, if_pos rfl]
  escaped c t := by rw [uncomment]
  inside c t hquote hbackslash := by rw [uncomment, if_neg hbackslash, if_neg hquote]

theorem scans_untrailed : Scans untrailed where
  quote t := by simp [untrailed]
  close t := by rw [untrailed, if_neg (by decide), if_pos rfl]
  backslash t := by rw [untrailed, if_pos rfl]
  escaped c t := by rw [untrailed]
  inside c t hquote hbackslash := by rw [untrailed, if_neg hbackslash, if_neg hquote]

theorem digit_ne {n : ℕ} (h : n < 16) : Hex.digit n ≠ '"' ∧ Hex.digit n ≠ '\\' := by
  have hall : ∀ i : Fin 16, Hex.digit i ≠ '"' ∧ Hex.digit i ≠ '\\' := by decide
  exact hall ⟨n, h⟩

variable {g : Mode → Text → Text}

theorem Scans.through (h : Scans g) (c : Char) (rest : Text) :
    g .string (escape c ++ rest) = escape c ++ g .string rest := by
  have hpair (d : Char) : g .string ('\\' :: d :: rest) = '\\' :: d :: g .string rest := by
    rw [h.backslash, h.escaped]
  unfold escape
  split
  · exact hpair '"'
  split
  · exact hpair '\\'
  split
  · exact hpair 'b'
  split
  · exact hpair 't'
  split
  · exact hpair 'n'
  split
  · exact hpair 'f'
  split
  · exact hpair 'r'
  split
  · next hsmall =>
    have hbyte : (UInt8.ofNat c.toNat).toNat = c.toNat := UInt8.toNat_ofNat_of_lt (hsmall.trans (by decide))
    obtain ⟨hhigh, hhigh'⟩ := digit_ne (n := c.toNat / 16) (by omega)
    obtain ⟨hlow, hlow'⟩ := digit_ne (n := c.toNat % 16) (Nat.mod_lt _ (by decide))
    have htext : "\\u00".toList ++ Hex.pair (UInt8.ofNat c.toNat) =
        ['\\', 'u', '0', '0', Hex.digit (c.toNat / 16), Hex.digit (c.toNat % 16)] := by
      rw [Hex.pair, hbyte]
      rfl
    rw [htext]
    simp only [List.cons_append, List.nil_append]
    rw [h.backslash, h.escaped, h.inside _ _ (by decide) (by decide), h.inside _ _ (by decide) (by decide),
      h.inside _ _ hhigh hhigh', h.inside _ _ hlow hlow']
  · exact h.inside c rest ‹_› ‹_›

theorem Scans.passes_quote (h : Scans g) (S : SerdeJson) (s : Text) : Passes (g .code) (Json.quote (printer S) s) := by
  intro rest
  have hbody (u : Text) : g .string (s.flatMap escape ++ u) = s.flatMap escape ++ g .string u := by
    induction s with
    | nil => rfl
    | cons c s ih => rw [List.flatMap_cons, List.append_assoc, h.through, ih, List.append_assoc]
  have hquote : Json.quote (printer S) s ++ rest = '"' :: (s.flatMap escape ++ '"' :: rest) := by
    simp [Json.quote, printer]
  rw [hquote, h.quote, hbody, h.close]
  simp [Json.quote, printer]

end Strings

section Neat

theorem isPlain_ne {c : Char} (h : isPlain c = true) : c ≠ '"' ∧ c ≠ ',' ∧ c ≠ '/' := by
  simpa [isPlain, and_assoc] using h

theorem neat_uncomment : Neat (uncomment .code) where
  nil := rfl
  plain c t hc := by
    obtain ⟨hquote, -, hslash⟩ := isPlain_ne hc
    rw [uncomment, if_neg hquote, if_neg fun h => hslash h.1, if_neg fun h => hslash h.1]
  comma t _ := by
    rw [uncomment, if_neg (by decide), if_neg fun h => absurd h.1 (by decide),
      if_neg fun h => absurd h.1 (by decide)]

theorem neat_stripTrailingCommas : Neat stripTrailingCommas where
  nil := rfl
  plain c t hc := by rw [stripTrailingCommas, if_neg fun h => (isPlain_ne hc).2.1 h.1]
  comma t ht := by rw [stripTrailingCommas, if_neg fun h => absurd h.2 (ht ▸ Bool.false_ne_true)]

theorem neat_untrailed : Neat (untrailed .code) where
  nil := rfl
  plain c t hc := by
    obtain ⟨hquote, hcomma, -⟩ := isPlain_ne hc
    simp [untrailed, hquote, hcomma]
  comma t ht := by simp [untrailed, ht]

end Neat

section Unbroken

/-- A comma that a closing bracket follows. -/
def breaks : Text → Bool
  | [] => false
  | c :: t => (c = ',' && closes t) || breaks t

/-- A string without such a comma, as it is printed. -/
def Unbroken (s : Text) : Prop := breaks (s.flatMap escape) = false

instance (s : Text) : Decidable (Unbroken s) := inferInstanceAs (Decidable (_ = _))

variable {s t u : Text}

theorem closes_append (hu : closes u = false) (ht : closes t = false) : closes (t ++ u) = false := by
  induction t with
  | nil => exact hu
  | cons c t ih =>
    rw [closes, List.dropWhile_cons] at ht
    rw [closes, List.cons_append, List.dropWhile_cons]
    split
    · next hblank =>
      rw [if_pos hblank] at ht
      exact ih ht
    · next hblank =>
      rw [if_neg hblank] at ht
      exact ht

theorem breaks_append (ht : breaks t = false) (hu : breaks u = false) (hclose : closes u = false) :
    breaks (t ++ u) = false := by
  induction t with
  | nil => exact hu
  | cons c t ih =>
    rw [breaks, Bool.or_eq_false_iff, Bool.and_eq_false_iff] at ht
    rw [List.cons_append, breaks, Bool.or_eq_false_iff, Bool.and_eq_false_iff]
    exact ⟨ht.1.imp_right (closes_append hclose), ih ht.2⟩

theorem stripTrailingCommas_append (ht : breaks t = false) (hu : closes u = false) :
    stripTrailingCommas (t ++ u) = t ++ stripTrailingCommas u := by
  induction t with
  | nil => rfl
  | cons c t ih =>
    rw [breaks, Bool.or_eq_false_iff, Bool.and_eq_false_iff] at ht
    obtain ⟨hhead, htail⟩ := ht
    have hkeep : ¬ (c = ',' ∧ closes (t ++ u) = true) := by
      rintro ⟨hcomma, hclose⟩
      rcases hhead with hc | ht
      · exact absurd hcomma (of_decide_eq_false hc)
      · rw [closes_append hu ht] at hclose
        cases hclose
    rw [List.cons_append, stripTrailingCommas, if_neg hkeep, ih htail]
    rfl

theorem Unbroken.passes (h : Unbroken s) (S : SerdeJson) :
    Passes stripTrailingCommas (Json.quote (printer S) s) := by
  intro rest
  have hquote : Json.quote (printer S) s ++ rest = '"' :: (s.flatMap escape ++ '"' :: rest) := by
    simp [Json.quote, printer]
  have hclose : closes ('"' :: rest) = false := by simp [closes, isWhitespace]
  have hkeep (t : Text) : stripTrailingCommas ('"' :: t) = '"' :: stripTrailingCommas t := by
    rw [stripTrailingCommas, if_neg fun h => absurd h.1 (by decide)]
  rw [hquote, hkeep, stripTrailingCommas_append h hclose, hkeep]
  simp [Json.quote, printer]

theorem Unbroken.append (hs : Unbroken s) (ht : Unbroken t) (hclose : closes (t.flatMap escape) = false) :
    Unbroken (s ++ t) := by
  rw [Unbroken, List.flatMap_append]
  exact breaks_append hs ht hclose

end Unbroken

section Printed

variable {S : SerdeJson} {v : Json} {content : Bytes}

/-- The bytes of a file that a value is written to. -/
def printed (S : SerdeJson) (v : Json) : Bytes := Hex.utf8 (toStringPretty S v ++ ['\n'])

/-- Reading the text takes no comma out of its strings. -/
def Harmless (content : Bytes) : Prop := ∀ raw, readText content = some raw →
  stripJsonc raw = untrailed .code (uncomment .code raw)

/-- A printed text has no comments, and no comma that a bracket follows but in its strings. -/
theorem uncomment_printed (hS : (printer S).Numeric) :
    uncomment .code (toStringPretty S v ++ ['\n']) = toStringPretty S v ++ ['\n'] :=
  neat_uncomment.passes_pretty hS 0 v (each_of_forall (scans_uncomment.passes_quote S) v) _

theorem untrailed_printed (hS : (printer S).Numeric) :
    untrailed .code (toStringPretty S v ++ ['\n']) = toStringPretty S v ++ ['\n'] :=
  neat_untrailed.passes_pretty hS 0 v (each_of_forall (scans_untrailed.passes_quote S) v) _

theorem stripTrailingCommas_printed (hS : (printer S).Numeric) (hv : Each Unbroken v) :
    stripTrailingCommas (toStringPretty S v ++ ['\n']) = toStringPretty S v ++ ['\n'] :=
  neat_stripTrailingCommas.passes_pretty hS 0 v (Each.imp (fun s hs => hs.passes S) v hv) _

theorem jsonc_printed (hS : (printer S).Numeric) (hback : ReadsBack S v) : jsonc S (printed S v) = some v := by
  rw [jsonc, printed, readText_utf8, Option.bind_some, uncomment_printed hS, untrailed_printed hS]
  exact hback

theorem harmless_printed (hS : (printer S).Numeric) (hv : Each Unbroken v) : Harmless (printed S v) := by
  intro raw hraw
  cases (readText_utf8 _).symm.trans hraw
  rw [stripJsonc, uncomment_printed hS, untrailed_printed hS, stripTrailingCommas_printed hS hv]

theorem readJsonLenient_of_harmless (h : Harmless content) :
    readJsonLenient S (some content) = (jsonc S content).getD (obj []) := by
  unfold readJsonLenient jsonc
  rw [Option.bind_some]
  cases hraw : readText content with
  | none => rfl
  | some raw => simp only [Option.bind_some, h raw hraw]

theorem readJsonLenient_printed (hS : (printer S).Numeric) (hback : ReadsBack S v) (hv : Each Unbroken v) :
    readJsonLenient S (some (printed S v)) = v := by
  rw [readJsonLenient_of_harmless (harmless_printed hS hv), jsonc_printed hS hback]
  rfl

end Printed

end Rootmode.ConnectedTools
