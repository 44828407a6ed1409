import Rootmode.Lib.Bytes
import Rootmode.Lib.Text

namespace Lib.Lossy

/-- A character of which some bytes are read: how many come after the next, the bounds of the next, and
the bits so far. -/
structure Seq where
  owed : ℕ
  low : ℕ := 0x80
  high : ℕ := 0xBF
  code : ℕ
  low_ge : 0x80 ≤ low := by decide
  high_le : high ≤ 0xBF := by decide

def replacement : Char := '\uFFFD'

/-- What the first byte of a character of several bytes calls for. -/
def lead (b : ℕ) : Option Seq :=
  if 0xC2 ≤ b ∧ b ≤ 0xDF then some { owed := 0, code := b - 0xC0 }
  else if b = 0xE0 then some { owed := 1, low := 0xA0, code := 0 }
  else if b = 0xED then some { owed := 1, high := 0x9F, code := 0xD }
  else if 0xE1 ≤ b ∧ b ≤ 0xEF then some { owed := 1, code := b - 0xE0 }
  else if b = 0xF0 then some { owed := 2, low := 0x90, code := 0 }
  else if 0xF1 ≤ b ∧ b ≤ 0xF3 then some { owed := 2, code := b - 0xF0 }
  else if b = 0xF4 then some { owed := 2, high := 0x8F, code := 4 }
  else none

/-- Between characters. -/
def start (b : UInt8) : Text × Option Seq :=
  if b.toNat < 0x80 then ([Char.ofNat b.toNat], none)
  else
    match lead b.toNat with
    | some q => ([], some q)
    | none => ([replacement], none)

namespace Seq

def Takes (q : Seq) (b : UInt8) : Prop := q.low ≤ b.toNat ∧ b.toNat ≤ q.high

instance (q : Seq) (b : UInt8) : Decidable (q.Takes b) := inferInstanceAs (Decidable (_ ∧ _))

def push (q : Seq) (b : UInt8) : Text × Option Seq :=
  let code := q.code * 64 + (b.toNat - 0x80)
  match q.owed with
  | 0 => ([Char.ofNat code], none)
  | owed + 1 => ([], some { owed, code })

end Seq

/-- What a byte completes, and what is begun after it. What it breaks off is replaced. -/
def step : Option Seq → UInt8 → Text × Option Seq
  | none, b => start b
  | some q, b => if q.Takes b then q.push b else (replacement :: (start b).1, (start b).2)

def flush (s : Option Seq) : Text := if s.isSome then [replacement] else []

def decodeFrom (s : Option Seq) : Bytes → Text
  | [] => flush s
  | b :: bytes => (step s b).1 ++ decodeFrom (step s b).2 bytes

/-- Bytes as text, each longest part that no character goes on from being replaced. -/
def lossy (bytes : Bytes) : Text := decodeFrom none bytes

def after (s : Option Seq) (bytes : Bytes) : Option Seq := bytes.foldl (fun s b => (step s b).2) s

def emitted (s : Option Seq) : Bytes → Text
  | [] => []
  | b :: bytes => (step s b).1 ++ emitted (step s b).2 bytes

/-- The bytes go on with a character that has begun. -/
def Continues (s : Option Seq) (bytes : Bytes) : Prop := ∃ q ∈ s, ∃ b ∈ bytes.head?, q.Takes b

/-- No piece ends in a character that the next byte goes on with. -/
def Whole (chunks : List Bytes) : Prop :=
  ∀ front chunk back, chunks = front ++ chunk :: back → ¬ Continues (after none chunk) back.flatten

variable {s : Option Seq} {q : Seq} {b : UInt8} {bytes more : Bytes} {chunks : List Bytes}

section Decode

theorem decodeFrom_append (s : Option Seq) (bytes more : Bytes) :
    decodeFrom s (bytes ++ more) = emitted s bytes ++ decodeFrom (after s bytes) more := by
  induction bytes generalizing s with
  | nil => rfl
  | cons b bytes ih =>
    rw [List.cons_append, decodeFrom, ih, ← List.append_assoc]
    rfl

theorem decodeFrom_eq (s : Option Seq) (bytes : Bytes) :
    decodeFrom s bytes = emitted s bytes ++ flush (after s bytes) := by
  have happend := decodeFrom_append s bytes []
  rwa [List.append_nil] at happend

theorem length_flush_some (q : Seq) : (flush (some q)).length = 1 := rfl

/-- A byte that goes on with a character begins none. -/
theorem start_of_takes (h : q.Takes b) : start b = ([replacement], none) := by
  obtain ⟨hlow, hhigh⟩ := h
  have hge := q.low_ge
  have hle := q.high_le
  have hlead : lead b.toNat = none := by
    unfold lead
    repeat rw [if_neg (by omega)]
  rw [start, if_neg (by omega), hlead]

theorem push_length (q : Seq) (b : UInt8) :
    ((q.push b).1.length = 1 ∧ (q.push b).2 = none) ∨
      ((q.push b).1.length = 0 ∧ (q.push b).2.isSome) := by
  unfold Seq.push
  cases q.owed with
  | zero => exact .inl ⟨rfl, rfl⟩
  | succ owed => exact .inr ⟨rfl, rfl⟩

/-- What breaks off is replaced, and the bytes after it are read for themselves. -/
theorem decodeFrom_of_not_continues (h : ¬ Continues s bytes) :
    decodeFrom s bytes = flush s ++ lossy bytes := by
  cases s with
  | none => rfl
  | some q =>
    cases bytes with
    | nil => rfl
    | cons b bytes =>
      have htakes : ¬ q.Takes b := fun htakes => h ⟨q, rfl, b, rfl, htakes⟩
      rw [decodeFrom, step, if_neg htakes]
      rfl

/-- Reading on with a character is never longer than breaking it off, -/
theorem length_decodeFrom_le (s : Option Seq) (bytes : Bytes) :
    (decodeFrom s bytes).length ≤ (flush s).length + (lossy bytes).length := by
  induction bytes generalizing s with
  | nil => exact Nat.le_add_right _ _
  | cons b bytes ih =>
    by_cases hcontinues : Continues s (b :: bytes)
    · obtain ⟨q, rfl, _, hb, htakes⟩ := hcontinues
      cases hb
      rw [decodeFrom, step, if_pos htakes, lossy, decodeFrom, step, start_of_takes htakes,
        List.length_append, length_flush_some]
      have hrest := ih (q.push b).2
      rw [lossy] at hrest
      cases push_length q b with
      | inl hdone =>
        rw [hdone.2]
        simp only [hdone.1, List.length_append, List.length_singleton]
        omega
      | inr hmore =>
        have hflush : (flush (q.push b).2).length = 1 := by
          rw [flush, if_pos hmore.2]
          rfl
        simp only [hmore.1, List.length_append, List.length_singleton]
        omega
    · rw [decodeFrom_of_not_continues hcontinues, List.length_append]

/-- and it is shorter where there is something to read on with. -/
theorem length_decodeFrom_lt (h : Continues s bytes) :
    (decodeFrom s bytes).length < (flush s).length + (lossy bytes).length := by
  obtain ⟨q, rfl, b, hb, htakes⟩ := h
  cases bytes with
  | nil => cases hb
  | cons _ bytes =>
    cases hb
    have hrest := length_decodeFrom_le (q.push b).2 bytes
    have hflush : (flush (q.push b).2).length ≤ 1 := by
      unfold flush
      split
      · exact le_rfl
      · exact Nat.zero_le _
    rw [lossy] at hrest
    rw [decodeFrom, step, if_pos htakes, lossy, decodeFrom, step, start_of_takes htakes,
      List.length_append, length_flush_some]
    simp only [List.length_append, List.length_singleton]
    cases push_length q b with
    | inl hdone =>
      rw [hdone.2] at hrest ⊢
      rw [hdone.1]
      omega
    | inr hmore =>
      rw [hmore.1]
      omega

end Decode

section Pieces

theorem whole_nil : Whole [] := by
  intro front chunk back hsplit
  cases front <;> cases hsplit

theorem whole_cons {chunk : Bytes} :
    Whole (chunk :: chunks) ↔ ¬ Continues (after none chunk) chunks.flatten ∧ Whole chunks := by
  constructor
  · intro h
    exact ⟨h [] chunk chunks rfl, fun front c back hsplit => h (chunk :: front) c back (congrArg _ hsplit)⟩
  · rintro ⟨hfirst, hrest⟩ front c back hsplit
    cases front with
    | nil =>
      cases hsplit
      exact hfirst
    | cons _ front =>
      cases hsplit
      exact hrest front c back rfl

theorem whole_singleton (bytes : Bytes) : Whole [bytes] := by
  refine whole_cons.mpr ⟨?_, whole_nil⟩
  rintro ⟨-, -, b, hb, -⟩
  cases hb

theorem lossy_flatMap_of_whole (h : Whole chunks) : chunks.flatMap lossy = lossy chunks.flatten := by
  induction chunks with
  | nil => rfl
  | cons chunk chunks ih =>
    obtain ⟨hfirst, hrest⟩ := whole_cons.mp h
    rw [List.flatMap_cons, ih hrest, List.flatten_cons, lossy, lossy, lossy, decodeFrom_append,
      decodeFrom_of_not_continues hfirst, ← List.append_assoc, ← decodeFrom_eq]
    rfl

theorem length_lossy_le (chunks : List Bytes) :
    (lossy chunks.flatten).length ≤ (chunks.flatMap lossy).length ∧
      (¬ Whole chunks → (lossy chunks.flatten).length < (chunks.flatMap lossy).length) := by
  induction chunks with
  | nil => exact ⟨le_rfl, fun h => absurd whole_nil h⟩
  | cons chunk chunks ih =>
    have hle := length_decodeFrom_le (after none chunk) chunks.flatten
    have hpieces : ((chunk :: chunks).flatMap lossy).length =
        (emitted none chunk).length + (flush (after none chunk)).length + (chunks.flatMap lossy).length := by
      rw [List.flatMap_cons, List.length_append, lossy, decodeFrom_eq, List.length_append]
    have hjoined : (lossy (chunk :: chunks).flatten).length =
        (emitted none chunk).length + (decodeFrom (after none chunk) chunks.flatten).length := by
      rw [List.flatten_cons, lossy, decodeFrom_append, List.length_append]
    refine ⟨by omega, fun hbroken => ?_⟩
    by_cases hrest : Whole chunks
    · have hcontinues : Continues (after none chunk) chunks.flatten := by
        by_contra hnot
        exact hbroken (whole_cons.mpr ⟨hnot, hrest⟩)
      have hlt := length_decodeFrom_lt hcontinues
      omega
    · have hlt := ih.2 hrest
      omega

/-- Pieces read one by one are the text of all of them exactly when none of them breaks a character off. -/
theorem lossy_flatMap_iff : chunks.flatMap lossy = lossy chunks.flatten ↔ Whole chunks := by
  constructor
  · intro heq
    by_contra hbroken
    have hlt := (length_lossy_le chunks).2 hbroken
    rw [heq] at hlt
    exact lt_irrefl _ hlt
  · exact lossy_flatMap_of_whole

end Pieces

example : lossy [0xC3, 0xA9, 0xE2, 0x82, 0x41] = ['é', replacement, 'A'] := by decide

end Lib.Lossy
