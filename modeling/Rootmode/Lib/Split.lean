import Rootmode.Lib.Text

namespace Lib.Text

section Split

variable {c : Char} {sep part p t : Text}

/-- Where the first character of a separator does not occur, no occurrence of it begins. -/
theorem splitFrom_avoid (h : c ∉ p) :
    splitFrom (c :: sep) 0 part (p ++ t) = splitFrom (c :: sep) 0 (part ++ p) t := by
  induction p generalizing part with
  | nil => rw [List.append_nil, List.nil_append]
  | cons d p ih =>
    rw [List.mem_cons, not_or] at h
    have hstep : (c :: sep).isPrefixOf (d :: (p ++ t)) = false := by
      rw [List.isPrefixOf, beq_false_of_ne h.1, Bool.false_and]
    rw [List.cons_append, splitFrom, hstep, if_neg Bool.false_ne_true, ih h.2, List.append_assoc,
      List.singleton_append]

theorem splitFrom_skip : splitFrom sep p.length part (p ++ t) = splitFrom sep 0 part t := by
  induction p with
  | nil => rfl
  | cons d p ih => exact ih

/-- A separator ends the part before it. -/
theorem splitFrom_sep :
    splitFrom (c :: sep) 0 part (c :: sep ++ t) = part :: splitFrom (c :: sep) 0 [] t := by
  have hprefix : (c :: sep).isPrefixOf (c :: (sep ++ t)) = true := by
    rw [List.isPrefixOf_iff_prefix]
    exact List.prefix_append (c :: sep) t
  rw [List.cons_append, splitFrom, if_pos hprefix, List.length_cons, Nat.add_sub_cancel, splitFrom_skip]

/-- The first part goes on from what was read of it. -/
theorem splitFrom_head (sep : Text) (skip : ℕ) (part t : Text) :
    ∃ more rest, splitFrom sep skip part t = (part ++ more) :: rest := by
  induction t generalizing skip part with
  | nil => exact ⟨[], [], by rw [splitFrom, List.append_nil]⟩
  | cons d t ih =>
    cases skip with
    | succ skip => exact ih skip part
    | zero =>
      rw [splitFrom]
      split
      · exact ⟨[], _, by rw [List.append_nil]⟩
      · obtain ⟨more, rest, h⟩ := ih 0 (part ++ [d])
        exact ⟨d :: more, rest, by rw [h, List.append_assoc, List.singleton_append]⟩

end Split

section Numerals

variable {n : ℕ} {c : Char} {t : Text}

theorem ne_of_isDigit {d : Char} (hd : d.isDigit = true) (hc : c.isDigit = false) : d ≠ c := by
  rintro rfl
  rw [hd] at hc
  cases hc

theorem toList_toString (n : ℕ) : (toString n).toList = Nat.toDigits 10 n := Nat.toList_repr

theorem isDigit_of_mem {d : Char} (h : d ∈ Nat.toDigits 10 n) : d.isDigit = true :=
  Nat.isDigit_of_mem_toDigits (by decide) (by decide) h

theorem parseU64_toDigits (h : n < 2 ^ 64) : parseU64 (Nat.toDigits 10 n) = some n := by
  have hread : (Nat.toDigits 10 n).foldl (fun n c => 10 * n + (c.toNat - 48)) 0 = n :=
    Nat.ofDigitChars_ten_toDigits
  rw [parseU64, if_neg Nat.toDigits_ne_nil, hread, Option.filter_some, if_pos (decide_eq_true h)]

/-- The digits a text begins with are those of the number printed there. -/
theorem takeWhile_toDigits (hc : c.isDigit = false) :
    (Nat.toDigits 10 n ++ c :: t).takeWhile Char.isDigit = Nat.toDigits 10 n := by
  rw [List.takeWhile_append_of_pos fun d hd => isDigit_of_mem hd, List.takeWhile_cons, hc,
    if_neg Bool.false_ne_true, List.append_nil]

end Numerals

end Lib.Text
