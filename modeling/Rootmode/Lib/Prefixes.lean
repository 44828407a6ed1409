import Rootmode.Lib.Text
import Mathlib.Data.List.DropRight

namespace Lib.Text

open List

/-- Without the blanks at its end. -/
def trimEnd (t : Text) : Text := t.rdropWhile isWhitespace

/-- How many bytes a text takes. -/
def byteLen (t : Text) : ℕ := (t.map Char.utf8Size).sum

/-- A text from a byte on, if a character starts there. -/
def dropBytes : ℕ → Text → Option Text
  | 0, t => some t
  | _ + 1, [] => none
  | n + 1, c :: t => if c.utf8Size ≤ n + 1 then dropBytes (n + 1 - c.utf8Size) t else none

variable {a b t u v : Text} {c : Char}

section Bytes

@[simp] theorem byteLen_nil : byteLen [] = 0 := rfl

@[simp] theorem byteLen_cons : byteLen (c :: t) = c.utf8Size + byteLen t := by
  simp [byteLen]

@[simp] theorem byteLen_append : byteLen (t ++ u) = byteLen t + byteLen u := by
  simp [byteLen]

theorem byteLen_pos : 0 < byteLen t ↔ t ≠ [] := by
  cases t with
  | nil => simp
  | cons c t =>
    have := c.utf8Size_pos
    simp [this]

theorem dropBytes_byteLen : dropBytes (byteLen t) (t ++ u) = some u := by
  induction t with
  | nil => rw [byteLen_nil, List.nil_append, dropBytes]
  | cons c t ih =>
    obtain ⟨n, hn⟩ := Nat.exists_eq_add_of_lt c.utf8Size_pos
    rw [Nat.zero_add] at hn
    have hlen : byteLen (c :: t) = (n + byteLen t) + 1 := by
      rw [byteLen_cons, hn]
      omega
    rw [hlen, List.cons_append, dropBytes, if_pos (by omega)]
    rw [show n + byteLen t + 1 - c.utf8Size = byteLen t by omega]
    exact ih

/-- Of two beginnings of a text the one with fewer bytes is one of the other. -/
theorem prefix_of_byteLen_le (ha : a <+: t) (hb : b <+: t) (h : byteLen a ≤ byteLen b) :
    a <+: b := by
  rcases List.prefix_or_prefix_of_prefix ha hb with hab | hba
  · exact hab
  · obtain ⟨s, rfl⟩ := hba
    rw [byteLen_append] at h
    have hs : s = [] := by
      by_contra hne
      have := byteLen_pos.mpr hne
      omega
    rw [hs, List.append_nil]

end Bytes

section Trim

theorem trim_eq : trim t = trimEnd (t.dropWhile isWhitespace) := rfl

theorem trimEnd_prefix : trimEnd t <+: t := List.rdropWhile_prefix _ _

@[simp] theorem trimEnd_nil : trimEnd [] = [] := rfl

theorem trimEnd_append : trimEnd (t ++ u) = if trimEnd u = [] then trimEnd t else t ++ trimEnd u := by
  unfold trimEnd List.rdropWhile
  rw [List.reverse_append, List.dropWhile_append]
  simp only [List.isEmpty_iff, List.reverse_eq_nil_iff]
  split
  · rfl
  · rw [List.reverse_append, List.reverse_reverse]

theorem trimEnd_eq_nil : trimEnd t = [] ↔ ∀ c ∈ t, isWhitespace c = true := List.rdropWhile_eq_nil_iff

theorem trimEnd_trimEnd : trimEnd (trimEnd t) = trimEnd t := List.rdropWhile_idempotent _ _

theorem trimEnd_prefix_append : trimEnd t <+: trimEnd (t ++ u) := by
  rw [trimEnd_append]
  split
  · exact List.prefix_refl _
  · exact trimEnd_prefix.trans (List.prefix_append _ _)

/-- What a text keeps of its end stays when more comes after it. -/
theorem trimEnd_mono (h : trimEnd a <+: b) : trimEnd a <+: trimEnd b := by
  obtain ⟨s, rfl⟩ := h
  have hkeep := trimEnd_prefix_append (t := trimEnd a) (u := s)
  rwa [trimEnd_trimEnd] at hkeep

/-- A text that starts with what is no blank keeps its start. -/
theorem trimEnd_cons (h : isWhitespace c = false) : trimEnd (c :: t) = c :: trimEnd t := by
  have hsplit := trimEnd_append (t := [c]) (u := t)
  rw [List.singleton_append] at hsplit
  rw [hsplit]
  split
  · next hnil => rw [hnil, trimEnd, List.rdropWhile_singleton, h]; rfl
  · rfl

theorem trim_mono (h : trimEnd a <+: b) : trim a <+: trim b := by
  have hsplit : a.takeWhile isWhitespace ++ a.dropWhile isWhitespace = a :=
    List.takeWhile_append_dropWhile
  rw [trim_eq, trim_eq]
  rcases hv : a.dropWhile isWhitespace with _ | ⟨c, v⟩
  · exact List.nil_prefix
  · have hc : isWhitespace c = false := by
      have hhead := List.head_dropWhile_not isWhitespace (l := a) (by rw [hv]; exact List.cons_ne_nil c v)
      simpa only [hv, List.head_cons] using hhead
    have hend : trimEnd a = a.takeWhile isWhitespace ++ c :: trimEnd v := by
      have happ := trimEnd_append (t := a.takeWhile isWhitespace) (u := c :: v)
      rwa [← hv, hsplit, hv, trimEnd_cons hc, if_neg (List.cons_ne_nil _ _)] at happ
    obtain ⟨s, rfl⟩ := h
    rw [hend, List.append_assoc, List.dropWhile_append_of_pos fun _ => List.mem_takeWhile_imp,
      List.cons_append, List.dropWhile_cons_of_neg (by rw [hc]; exact Bool.false_ne_true)]
    apply trimEnd_mono
    rw [trimEnd_cons hc, ← List.cons_append]
    exact List.prefix_append _ _

theorem trim_eq_nil : trim t = [] ↔ ∀ c ∈ t, isWhitespace c = true := by
  rw [trim_eq, trimEnd_eq_nil]
  constructor
  · intro h c hc
    rcases hd : t.dropWhile isWhitespace with _ | ⟨d, v⟩
    · exact List.dropWhile_eq_nil_iff.mp hd c hc
    · have hhead := List.head_dropWhile_not isWhitespace (l := t) (by rw [hd]; exact List.cons_ne_nil d v)
      simp only [hd, List.head_cons] at hhead
      rw [h d (hd ▸ List.mem_cons_self)] at hhead
      cases hhead
  · intro h c hc
    exact h c ((List.dropWhile_sublist _).mem hc)

end Trim

section Lines

/-- A line without the carriage return at its end. -/
def chomp (line : Text) : Text := if line.getLast? = some '\r' then line.dropLast else line

/-- The lines of a text of which `part` has gone by. -/
def linesFrom (part : Text) : Text → List Text
  | [] => if part = [] then [] else [part]
  | c :: t => if c = '\n' then chomp part :: linesFrom [] t else linesFrom (part ++ [c]) t

def lines : Text → List Text := linesFrom []

theorem chomp_cases (t : Text) : chomp t = t ∨ t = chomp t ++ ['\r'] := by
  unfold chomp
  split
  · next h => exact .inr (List.dropLast_append_getLast? '\r' h).symm
  · exact .inl rfl

theorem trimEnd_chomp (t : Text) : trimEnd (chomp t) = trimEnd t := by
  rcases chomp_cases t with h | h
  · rw [h]
  · conv_rhs => rw [h, trimEnd_append]
    rw [if_pos (by decide)]

theorem trim_chomp (t : Text) : trim (chomp t) = [] ↔ trim t = [] := by
  rw [trim_eq_nil, trim_eq_nil, ← trimEnd_eq_nil, ← trimEnd_eq_nil, trimEnd_chomp]

end Lines

end Lib.Text
