import Rootmode.Lib.Pretty

namespace Lib

namespace Json

/-- A character below the blank that a printer never writes. -/
structure Printer.Avoids (P : Printer) (d : Char) : Prop where
  control : d.toNat < 32
  float : ∀ x, d ∉ P.float x
  escape : ∀ c, d ∉ P.escape c

section Avoids

variable {P : Printer} {d : Char} {t : Text} {parts : List Text}

theorem not_mem_of_all (hd : d.toNat < 32) (h : t.all (fun c => decide (32 ≤ c.toNat)) = true) : d ∉ t := by
  intro hmem
  have hlow := of_decide_eq_true (List.all_eq_true.mp h d hmem)
  omega

theorem not_mem_intercalate {sep : Text} (hsep : d ∉ sep) (h : ∀ t ∈ parts, d ∉ t) : d ∉ sep.intercalate parts := by
  induction parts with
  | nil => exact List.not_mem_nil
  | cons t parts ih =>
    have ht := h t (.head _)
    have hrest := ih fun u hu => h u (.tail _ hu)
    cases parts with
    | nil => simpa [List.intercalate] using ht
    | cons u parts =>
      rw [intercalate_two]
      exact List.not_mem_append ht (List.not_mem_append hsep hrest)

theorem Printer.Avoids.not_mem_quote (h : P.Avoids d) (s : Text) : d ∉ quote P s := by
  have hmark : d ∉ ['"'] := not_mem_of_all h.control (by decide)
  refine List.not_mem_append hmark (List.not_mem_append (fun hmem => ?_) hmark)
  obtain ⟨c, -, hc⟩ := List.mem_flatMap.mp hmem
  exact h.escape c hc

mutual

theorem Printer.Avoids.not_mem_render (h : P.Avoids d) : ∀ j : Json, d ∉ render P j
  | null => not_mem_of_all h.control (show "null".toList.all (fun c => decide (32 ≤ c.toNat)) = true by decide)
  | bool false => not_mem_of_all h.control (show "false".toList.all (fun c => decide (32 ≤ c.toNat)) = true by decide)
  | bool true => not_mem_of_all h.control (show "true".toList.all (fun c => decide (32 ≤ c.toNat)) = true by decide)
  | num (.int n) => by
    intro hmem
    have hlow := (isNumeric_range ((numeric_int n).2 d hmem)).1
    have hcontrol := h.control
    omega
  | num (.float x) => h.float x
  | str s => h.not_mem_quote s
  | arr items => by
    have hopen : d ∉ ['['] := not_mem_of_all h.control (by decide)
    have hclose : d ∉ [']'] := not_mem_of_all h.control (by decide)
    have hcomma : d ∉ [','] := not_mem_of_all h.control (by decide)
    exact List.not_mem_append hopen
      (List.not_mem_append (not_mem_intercalate hcomma (not_mem_renderItems h items)) hclose)
  | obj entries => by
    have hopen : d ∉ ['\x7b'] := not_mem_of_all h.control (by decide)
    have hclose : d ∉ ['\x7d'] := not_mem_of_all h.control (by decide)
    have hcomma : d ∉ [','] := not_mem_of_all h.control (by decide)
    exact List.not_mem_append hopen
      (List.not_mem_append (not_mem_intercalate hcomma (not_mem_renderEntries h entries)) hclose)

theorem not_mem_renderItems (h : P.Avoids d) : ∀ js : List Json, ∀ t ∈ renderItems P js, d ∉ t
  | [] => by rintro t ⟨⟩
  | j :: js => List.forall_mem_cons.mpr ⟨h.not_mem_render j, not_mem_renderItems h js⟩

theorem not_mem_renderEntries (h : P.Avoids d) : ∀ es : List (String × Json), ∀ t ∈ renderEntries P es, d ∉ t
  | [] => by rintro t ⟨⟩
  | e :: es => by
    have hcolon : d ∉ [':'] := not_mem_of_all h.control (by decide)
    exact List.forall_mem_cons.mpr ⟨List.not_mem_append (h.not_mem_quote _)
      (List.not_mem_append hcolon (h.not_mem_render e.2)), not_mem_renderEntries h es⟩

end

end Avoids

end Json

namespace Hex

/-- Only the newline is written with its byte. -/
theorem eq_newline {c : Char} (h : (10 : UInt8) ∈ String.utf8EncodeChar c) : c = '\n' := by
  have hother : ∀ n, 10 < n → n < 256 → (10 : UInt8) ≠ UInt8.ofNat n := by
    intro n hlow hhigh heq
    have hnat := congrArg UInt8.toNat heq
    rw [UInt8.toNat_ofNat'] at hnat
    change 10 = n % 256 at hnat
    omega
  have hcode : c.val.toNat = 10 → c = '\n' := fun heq => Char.ext (UInt32.toNat_inj.mp heq)
  unfold String.utf8EncodeChar at h
  dsimp only at h
  split at h
  · next hascii =>
    rw [List.mem_singleton] at h
    by_cases hlow : 10 < c.val.toNat
    · exact absurd h (hother _ hlow (by omega))
    · have hnat := congrArg UInt8.toNat h
      rw [UInt8.toNat_ofNat'] at hnat
      change 10 = c.val.toNat % 256 at hnat
      exact hcode (by omega)
  · refine absurd h ?_
    split
    · simp only [List.mem_cons, List.not_mem_nil, or_false, not_or]
      exact ⟨hother _ (by omega) (by omega), hother _ (by omega) (by omega)⟩
    · split
      · simp only [List.mem_cons, List.not_mem_nil, or_false, not_or]
        exact ⟨hother _ (by omega) (by omega), hother _ (by omega) (by omega), hother _ (by omega) (by omega)⟩
      · simp only [List.mem_cons, List.not_mem_nil, or_false, not_or]
        exact ⟨hother _ (by omega) (by omega), hother _ (by omega) (by omega), hother _ (by omega) (by omega),
          hother _ (by omega) (by omega)⟩

theorem newline_not_mem_utf8 {t : Text} (h : '\n' ∉ t) : (10 : UInt8) ∉ utf8 t := by
  intro hmem
  obtain ⟨c, hc, hbyte⟩ := List.mem_flatMap.mp hmem
  refine h ?_
  rwa [← eq_newline hbyte]

end Hex

end Lib
