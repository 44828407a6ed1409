import Rootmode.Lib.Settings
import Rootmode.Lib.Split

namespace Lib

namespace Text

/-- Each occurrence of `sep` gives way to `by'`. -/
def replace (sep by' t : Text) : Text := by'.intercalate (split sep t)

end Text

namespace Json

open Text

def asText : Json → Option Text
  | str s => some s
  | _ => none

def asArray : Json → Option (List Json)
  | arr items => some items
  | _ => none

/-- A number that fits into 64 bits with a sign. -/
def asI64 : Json → Option ℤ
  | num (.int n) => if -2 ^ 63 ≤ n ∧ n < 2 ^ 63 then some n else none
  | _ => none

/-- The place in a list that a token names. -/
def parseIndex (token : Text) : Option ℕ :=
  if token.head? = some '0' ∧ token.length ≠ 1 ∨ !token.all Char.isDigit then none else parseU64 token

/-- One step of a pointer. -/
def follow (v : Json) (token : Text) : Option Json :=
  match v with
  | obj _ => v.get (Text.str token)
  | arr items => (parseIndex token).bind fun i => items[i]?
  | _ => none

/-- What a JSON pointer leads to. -/
def pointer (v : Json) (path : Text) : Option Json :=
  if path = [] then some v
  else if path.head? ≠ some '/' then none
  else ((split ['/'] path).tail.map fun token =>
    replace (ofString "~0") ['~'] (replace (ofString "~1") ['/'] token)).foldlM follow v

variable {name : Text} {c : Char}

theorem replace_avoid {sep by' t : Text} (h : c ∉ t) : replace (c :: sep) by' t = t := by
  have hsplit := @splitFrom_avoid _ sep [] _ [] h
  rw [List.append_nil, List.nil_append, splitFrom] at hsplit
  rw [replace, split, hsplit, List.intercalate_singleton]

/-- What stands for a character stands wherever the character stood. -/
theorem replace_char (c : Char) (by' t : Text) :
    replace [c] by' t = t.flatMap fun d => if d = c then by' else [d] := by
  have hfrom : ∀ part, by'.intercalate (splitFrom [c] 0 part t) =
      part ++ t.flatMap fun d => if d = c then by' else [d] := by
    induction t with
    | nil =>
      intro part
      rw [splitFrom, List.intercalate_singleton, List.flatMap_nil, List.append_nil]
    | cons d t ih =>
      intro part
      rw [List.flatMap_cons]
      by_cases hd : d = c
      · rw [hd, if_pos rfl]
        have hsep : splitFrom [c] 0 part (c :: t) = part :: splitFrom [c] 0 [] t := splitFrom_sep
        obtain ⟨more, rest, hhead⟩ := splitFrom_head [c] 0 [] t
        have hrest := ih []
        rw [hhead] at hrest
        rw [hsep, hhead, List.intercalate_cons_cons, hrest, List.nil_append, List.append_assoc]
      · rw [if_neg hd]
        have hstep : splitFrom [c] 0 part ([d] ++ t) = splitFrom [c] 0 (part ++ [d]) t :=
          splitFrom_avoid fun hmem => hd (List.mem_singleton.mp hmem).symm
        change by'.intercalate (splitFrom [c] 0 part ([d] ++ t)) = _
        rw [hstep, ih, List.append_assoc]
  exact hfrom []

/-- A token without slashes and tildes is taken as it is. -/
theorem unescape_plain (h : '~' ∉ name) :
    replace (ofString "~0") ['~'] (replace (ofString "~1") ['/'] name) = name := by
  have hfirst : replace (ofString "~1") ['/'] name = name := replace_avoid h
  rw [hfirst]
  exact replace_avoid h

theorem split_slash {a t : Text} (ha : '/' ∉ a) : split ['/'] (a ++ '/' :: t) = a :: split ['/'] t := by
  rw [split, splitFrom_avoid ha, List.nil_append]
  exact splitFrom_sep

theorem split_plain {a : Text} (ha : '/' ∉ a) : split ['/'] a = [a] := by
  have h := @splitFrom_avoid _ [] [] _ [] ha
  rwa [List.append_nil, List.nil_append, splitFrom] at h

/-- Names without slashes and tildes lead on one by one. -/
theorem pointer_names {v : Json} {a b : Text} (ha : '/' ∉ a ∧ '~' ∉ a) (hb : '/' ∉ b ∧ '~' ∉ b)
    (hname : '/' ∉ name ∧ '~' ∉ name) : v.pointer ('/' :: (a ++ '/' :: (b ++ '/' :: name))) =
      [a, b, name].foldlM follow v := by
  have hsplit : split ['/'] ('/' :: (a ++ '/' :: (b ++ '/' :: name))) = [[], a, b, name] := by
    have hhead := split_slash (a := []) (t := a ++ '/' :: (b ++ '/' :: name)) List.not_mem_nil
    rw [List.nil_append, split_slash ha.1, split_slash hb.1, split_plain hname.1] at hhead
    exact hhead
  rw [pointer, if_neg (List.cons_ne_nil _ _), if_neg (by simp), hsplit]
  simp only [List.tail_cons, List.map_cons, List.map_nil, unescape_plain ha.2, unescape_plain hb.2,
    unescape_plain hname.2]

end Json

end Lib
