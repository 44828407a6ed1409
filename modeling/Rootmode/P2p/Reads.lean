import Rootmode.P2p.Framing
import Mathlib.Tactic.NormNum

namespace Rootmode.P2p

open Lib Lib.Lines

/-- What a call of `recv` comes to. -/
inductive Outcome
  | line (text : Bytes)
  | notUtf8 (buf : Bytes)
  | tooLong
  | ended
  deriving DecidableEq

def finish (buf : Bytes) : Outcome := if buf.toByteArray.IsValidUTF8 then .line buf else .notUtf8 buf

/-- A call of `recv` that has some of its line: what it comes to, and the reads that are left, the first of
them being what the reader still holds. -/
def recv (buf : Bytes) : List Bytes → Outcome × List Bytes
  | [] => (if buf = [] then .ended else finish buf, [])
  | available :: reads =>
    match cut newline available with
    | some (chunk, rest) => (finish (buf ++ chunk), if rest = [] then reads else rest :: reads)
    | none =>
      let buf := buf ++ available
      if maxLineBytes < buf.length then (.tooLong, reads) else recv buf reads

/-- After which there is nothing to read, or nobody who would. -/
def Outcome.stops : Outcome → Bool
  | .tooLong | .ended => true
  | .line _ | .notUtf8 _ => false

/-- What is left to read, counted in bytes and reads. -/
def left (reads : List Bytes) : ℕ := reads.flatten.length + reads.length

theorem finish_not_stops (buf : Bytes) : (finish buf).stops = false := by
  unfold finish
  split <;> rfl

theorem left_recv_le (buf : Bytes) (reads : List Bytes) (h : reads ≠ []) :
    left (recv buf reads).2 < left reads := by
  induction reads generalizing buf with
  | nil => exact absurd rfl h
  | cons available reads ih =>
    unfold recv
    cases hcut : cut newline available with
    | some found =>
      obtain ⟨chunk, rest⟩ := found
      have hlength := congrArg List.length (cut_eq_some hcut).1
      rw [List.length_append, List.length_cons] at hlength
      dsimp only
      split
      · simp only [left, List.flatten_cons, List.length_append, List.length_cons]
        omega
      · simp only [left, List.flatten_cons, List.length_append, List.length_cons]
        omega
    | none =>
      have hless : left reads < left (available :: reads) := by
        simp only [left, List.flatten_cons, List.length_append, List.length_cons]
        omega
      dsimp only
      split
      · exact hless
      · cases reads with
        | nil => exact hless
        | cons next reads => exact (ih _ (List.cons_ne_nil _ _)).trans hless

/-- Repeated calls, up to one that is refused for its length, or the end. -/
def recvAll (reads : List Bytes) : List Outcome :=
  if _h : (recv [] reads).1.stops = true then [(recv [] reads).1]
  else (recv [] reads).1 :: recvAll (recv [] reads).2
termination_by left reads
decreasing_by
  refine left_recv_le [] reads ?_
  rintro rfl
  exact _h rfl

/-- The lines of a stream up to the first that is too long, which is refused. -/
def expectedFrom : List Bytes → List Outcome
  | [] => [.ended]
  | l :: ls => if maxLineBytes < l.length then [.tooLong] else finish l :: expectedFrom ls

def expected (stream : Bytes) : List Outcome := expectedFrom (lines newline stream)

/-- A place of the stream where a read ends, or where it starts. -/
def Boundary (reads : List Bytes) (n : ℕ) : Prop := ∃ k, (reads.take k).flatten.length = n

/-- The first line of a stream that is too long, and that a newline ends. -/
structure FirstLong (stream before line after : Bytes) : Prop where
  split : stream = before ++ (line ++ newline :: after)
  whole : before = [] ∨ before.getLast? = some newline
  short : ∀ l ∈ lines newline before, l.length ≤ maxLineBytes
  within : newline ∉ line
  long : maxLineBytes < line.length

/-- A read ends in what is too much of it. -/
def Noticed (reads : List Bytes) : Prop :=
  ∀ before line after, FirstLong reads.flatten before line after →
    ∃ n, Boundary reads n ∧ before.length + maxLineBytes < n ∧ n ≤ before.length + line.length

variable {reads : List Bytes} {buf line rest before after available : Bytes} {n : ℕ}

section Boundaries

theorem boundary_zero (reads : List Bytes) : Boundary reads 0 := ⟨0, rfl⟩

theorem boundary_cons : Boundary (available :: reads) (available.length + n) ↔
    Boundary reads n ∨ available.length + n = 0 := by
  constructor
  · rintro ⟨k, hk⟩
    cases k with
    | zero => exact .inr hk.symm
    | succ k =>
      rw [List.take_succ_cons, List.flatten_cons, List.length_append] at hk
      exact .inl ⟨k, by omega⟩
  · rintro (⟨k, hk⟩ | hzero)
    · exact ⟨k + 1, by rw [List.take_succ_cons, List.flatten_cons, List.length_append, hk]⟩
    · rw [hzero]
      exact boundary_zero _

theorem boundary_of_lt (hn : 0 < n) (h : n < available.length) : ¬ Boundary (available :: reads) n := by
  rintro ⟨k, hk⟩
  cases k with
  | zero => exact hn.ne hk
  | succ k =>
    rw [List.take_succ_cons, List.flatten_cons, List.length_append] at hk
    omega

end Boundaries

section Recv

theorem recv_of_cut {chunk : Bytes} (h : cut newline available = some (chunk, rest)) :
    recv buf (available :: reads) = (finish (buf ++ chunk), if rest = [] then reads else rest :: reads) := by
  rw [recv, h]

theorem recv_of_none (h : cut newline available = none) : recv buf (available :: reads) =
    if maxLineBytes < (buf ++ available).length then (.tooLong, reads) else recv (buf ++ available) reads := by
  rw [recv, h]

/-- What is left of the reads after a line of them. -/
structure After (reads : List Bytes) (n : ℕ) (rest : Bytes) (reads' : List Bytes) : Prop where
  flatten : reads'.flatten = rest
  boundary : ∀ k, 0 < k → (Boundary reads (n + k) ↔ Boundary reads' k)

theorem After.cons {reads' : List Bytes} (h : After reads n rest reads') :
    After (available :: reads) (available.length + n) rest reads' where
  flatten := h.flatten
  boundary k hk := by
    rw [← h.boundary k hk, Nat.add_assoc, boundary_cons]
    exact or_iff_left (by omega)

/-- A line of the stream is refused where a read ends in what is too much of it, else handed on. -/
theorem recv_line (hcut : cut newline reads.flatten = some (line, rest)) (hbuf : buf.length ≤ maxLineBytes) :
    (∃ n, Boundary reads n ∧ maxLineBytes < buf.length + n ∧ n ≤ line.length) ∧
        (recv buf reads).1 = .tooLong ∨
      (¬ ∃ n, Boundary reads n ∧ maxLineBytes < buf.length + n ∧ n ≤ line.length) ∧
        ∃ reads', recv buf reads = (finish (buf ++ line), reads') ∧ After reads (line.length + 1) rest reads' := by
  induction reads generalizing buf line with
  | nil => cases hcut
  | cons available reads ih =>
    rw [List.flatten_cons] at hcut
    cases hfirst : cut newline available with
    | some found =>
      obtain ⟨chunk, rest'⟩ := found
      rw [cut_append_of_some hfirst] at hcut
      cases hcut
      have hlength := congrArg List.length (cut_eq_some hfirst).1
      rw [List.length_append, List.length_cons] at hlength
      refine .inr ⟨?_, _, recv_of_cut hfirst, ?_⟩
      · rintro ⟨n, hn, hlong, hle⟩
        exact boundary_of_lt (by omega) (by omega) hn
      · constructor
        · split
          · next hnone => rw [hnone, List.nil_append]
          · rw [List.flatten_cons]
        · intro k hk
          split
          · next hnone =>
            have hall : line.length + 1 = available.length := by
              rw [hlength, hnone]
              rfl
            rw [hall, boundary_cons]
            exact or_iff_left (by omega)
          · by_cases hwithin : k < rest'.length
            · exact iff_of_false (boundary_of_lt (by omega) (by omega)) (boundary_of_lt hk hwithin)
            · obtain ⟨m, rfl⟩ := Nat.exists_eq_add_of_le (not_lt.mp hwithin)
              rw [boundary_cons, show line.length + 1 + (rest'.length + m) = available.length + m by omega,
                boundary_cons]
              exact or_congr_right (by omega)
    | none =>
      rw [cut_append_of_none hfirst] at hcut
      obtain ⟨⟨line', rest'⟩, hrest, heq⟩ := Option.map_eq_some_iff.mp hcut
      cases heq
      rw [recv_of_none hfirst]
      split
      · next hlong =>
        rw [List.length_append] at hlong
        refine .inl ⟨⟨available.length, ?_, hlong, by simp⟩, rfl⟩
        exact boundary_cons.mpr (.inl (boundary_zero reads))
      · next hshort =>
        have hshift : (∃ n, Boundary (available :: reads) n ∧ maxLineBytes < buf.length + n ∧
            n ≤ (available ++ line').length) ↔
            ∃ n, Boundary reads n ∧ maxLineBytes < (buf ++ available).length + n ∧ n ≤ line'.length := by
          rw [List.length_append] at hshort
          simp only [List.length_append]
          constructor
          · rintro ⟨n, hn, hlong, hle⟩
            obtain ⟨m, rfl⟩ := Nat.exists_eq_add_of_le (show available.length ≤ n by omega)
            exact ⟨m, (boundary_cons.mp hn).resolve_right (by omega), by omega, by omega⟩
          · rintro ⟨n, hn, hlong, hle⟩
            exact ⟨available.length + n, boundary_cons.mpr (.inl hn), by omega, by omega⟩
        rw [hshift]
        rcases ih hrest (not_lt.mp hshort) with ⟨hnoticed, hrecv⟩ | ⟨hnot, reads', hrecv, hafter⟩
        · exact .inl ⟨hnoticed, hrecv⟩
        · refine .inr ⟨hnot, reads', ?_, ?_⟩
          · rw [hrecv, List.append_assoc]
          · have hcons := @After.cons _ _ available _ _ hafter
            rwa [← Nat.add_assoc, ← List.length_append] at hcons

/-- What no newline ends. -/
theorem recv_rest (hcut : cut newline reads.flatten = none) (hbuf : buf.length ≤ maxLineBytes) :
    if maxLineBytes < (buf ++ reads.flatten).length then (recv buf reads).1 = .tooLong
    else recv buf reads = (if buf ++ reads.flatten = [] then .ended else finish (buf ++ reads.flatten), []) := by
  induction reads generalizing buf with
  | nil =>
    rw [List.flatten_nil, List.append_nil, if_neg (not_lt.mpr hbuf)]
    rfl
  | cons available reads ih =>
    rw [List.flatten_cons] at hcut ⊢
    cases hfirst : cut newline available with
    | some found =>
      rw [cut_append_of_some hfirst] at hcut
      cases hcut
    | none =>
      rw [cut_append_of_none hfirst, Option.map_eq_none_iff] at hcut
      rw [recv_of_none hfirst, ← List.append_assoc]
      by_cases hlong : maxLineBytes < (buf ++ available).length
      · rw [if_pos hlong, if_pos (hlong.trans_le (by simp))]
      · rw [if_neg hlong]
        exact ih hcut (not_lt.mp hlong)

end Recv

section Lines

variable {stream line' : Bytes}

theorem expected_of_none (h : cut newline stream = none) : expected stream =
    if maxLineBytes < stream.length then [.tooLong]
    else if stream = [] then [.ended] else [finish stream, .ended] := by
  by_cases hnone : stream = []
  · subst hnone
    rw [if_neg (by simp), if_pos rfl]
    rfl
  · rw [expected, lines_rest (cut_eq_none h) hnone, if_neg hnone]
    rfl

theorem expected_of_some (h : cut newline stream = some (line, rest)) : expected stream =
    if maxLineBytes < line.length then [.tooLong] else finish line :: expected rest := by
  obtain ⟨hsplit, hwithin⟩ := cut_eq_some h
  rw [expected, hsplit, lines_line hwithin]
  rfl

/-- Where whole lines come first, the first of the stream's lines is the first of theirs. -/
theorem cut_before (h : cut newline stream = some (line, rest)) (hsplit : stream = before ++ after)
    (hwhole : before.getLast? = some newline) :
    ∃ before', before = line ++ newline :: before' ∧ rest = before' ++ after := by
  cases hcut : cut newline before with
  | none => exact absurd (List.mem_of_getLast? hwhole) (cut_eq_none hcut)
  | some found =>
    obtain ⟨line', before'⟩ := found
    have hstream : cut newline (before ++ after) = some (line', before' ++ after) := cut_append_of_some hcut
    rw [← hsplit, h] at hstream
    cases hstream
    exact ⟨before', (cut_eq_some hcut).1, rfl⟩

theorem noticed_of_none (h : cut newline reads.flatten = none) : Noticed reads := by
  intro before line after hfirst
  refine absurd ?_ (cut_eq_none h)
  rw [hfirst.split]
  simp

theorem noticed_long (h : cut newline reads.flatten = some (line, rest)) (hlong : maxLineBytes < line.length) :
    Noticed reads ↔ ∃ n, Boundary reads n ∧ maxLineBytes < n ∧ n ≤ line.length := by
  obtain ⟨hsplit, hwithin⟩ := cut_eq_some h
  constructor
  · intro hnoticed
    obtain ⟨n, hn, hmore, hle⟩ := hnoticed [] line rest
      ⟨hsplit, .inl rfl, fun l hl => absurd hl (by simp [lines_nil]), hwithin, hlong⟩
    rw [List.length_nil, Nat.zero_add] at hmore hle
    exact ⟨n, hn, hmore, hle⟩
  · rintro ⟨n, hn, hmore, hle⟩ before line' after hfirst
    rcases hfirst.whole with rfl | hwhole
    · have hcut : cut newline (line' ++ newline :: after) = some (line', after) := cut_line hfirst.within
      rw [← List.nil_append (line' ++ newline :: after), ← hfirst.split, h] at hcut
      cases hcut
      exact ⟨n, hn, by simpa using hmore, by simpa using hle⟩
    · obtain ⟨before', rfl, -⟩ := cut_before h hfirst.split hwhole
      have hmem : line ∈ lines newline (line ++ newline :: before') := by
        rw [lines_line hwithin]
        exact .head _
      exact absurd (hfirst.short line hmem) (not_le.mpr hlong)

theorem noticed_short {reads' : List Bytes} (h : cut newline reads.flatten = some (line, rest))
    (hshort : line.length ≤ maxLineBytes) (hafter : After reads (line.length + 1) rest reads') :
    Noticed reads ↔ Noticed reads' := by
  obtain ⟨hsplit, hwithin⟩ := cut_eq_some h
  constructor
  · intro hnoticed before l after hfirst
    have hfirst' : FirstLong reads.flatten (line ++ newline :: before) l after := by
      refine ⟨?_, .inr ?_, ?_, hfirst.within, hfirst.long⟩
      · rw [hsplit, ← hafter.flatten, hfirst.split, List.append_assoc, List.cons_append]
      · rcases hfirst.whole with rfl | hwhole
        · exact List.getLast?_concat
        · rw [List.getLast?_append, List.getLast?_cons, hwhole]
          rfl
      · intro l' hl'
        rw [lines_line hwithin] at hl'
        rcases List.mem_cons.mp hl' with rfl | hl'
        · exact hshort
        · exact hfirst.short l' hl'
    obtain ⟨n, hn, hmore, hle⟩ := hnoticed _ _ _ hfirst'
    rw [List.length_append, List.length_cons] at hmore hle
    obtain ⟨k, rfl⟩ := Nat.exists_eq_add_of_le (show line.length + 1 ≤ n by omega)
    exact ⟨k, (hafter.boundary k (by omega)).mp hn, by omega, by omega⟩
  · intro hnoticed before l after hfirst
    rcases hfirst.whole with rfl | hwhole
    · have hcut : cut newline (l ++ newline :: after) = some (l, after) := cut_line hfirst.within
      rw [← List.nil_append (l ++ newline :: after), ← hfirst.split, h] at hcut
      cases hcut
      exact absurd hfirst.long (not_lt.mpr hshort)
    · obtain ⟨before', rfl, hrest⟩ := cut_before h hfirst.split hwhole
      have hfirst' : FirstLong reads'.flatten before' l after := by
        refine ⟨by rw [hafter.flatten, hrest], ?_, fun l' hl' => ?_, hfirst.within, hfirst.long⟩
        · cases before' with
          | nil => exact .inl rfl
          | cons d before' =>
            rw [List.getLast?_append, List.getLast?_cons_cons] at hwhole
            cases hlast : (d :: before').getLast? with
            | none => exact absurd (List.getLast?_eq_none_iff.mp hlast) (List.cons_ne_nil _ _)
            | some e =>
              rw [hlast] at hwhole
              exact .inr hwhole
        · refine hfirst.short l' ?_
          rw [lines_line hwithin]
          exact .tail _ hl'
      obtain ⟨n, hn, hmore, hle⟩ := hnoticed _ _ _ hfirst'
      rw [List.length_append, List.length_cons]
      exact ⟨line.length + 1 + n, (hafter.boundary n (by omega)).mpr hn, by omega, by omega⟩

end Lines

section All

theorem recvAll_of_stops (h : (recv [] reads).1.stops = true) : recvAll reads = [(recv [] reads).1] := by
  rw [recvAll, dif_pos h]

theorem recvAll_of_goes_on (h : (recv [] reads).1.stops = false) :
    recvAll reads = (recv [] reads).1 :: recvAll (recv [] reads).2 := by
  rw [recvAll, dif_neg (Bool.eq_false_iff.mp h)]

theorem recvAll_nil : recvAll [] = [.ended] := recvAll_of_stops rfl

theorem recvAll_of_none (h : cut newline reads.flatten = none) : recvAll reads = expected reads.flatten := by
  have hrecv := @recv_rest reads [] h (Nat.zero_le _)
  rw [List.nil_append] at hrecv
  rw [expected_of_none h]
  split at hrecv
  · next hlong =>
    rw [if_pos hlong, recvAll_of_stops (by rw [hrecv]; rfl), hrecv]
  · next hshort =>
    rw [if_neg hshort]
    split at hrecv
    · next hnone => rw [if_pos hnone, recvAll_of_stops (by rw [hrecv]; rfl), hrecv]
    · next hsome =>
      rw [if_neg hsome, recvAll_of_goes_on (by rw [hrecv]; exact finish_not_stops _), hrecv, recvAll_nil]

/-- A long line is refused just where a read ends in what is too much of it. -/
theorem recvAll_long (h : cut newline reads.flatten = some (line, rest)) :
    recvAll reads = [.tooLong] ↔ ∃ n, Boundary reads n ∧ maxLineBytes < n ∧ n ≤ line.length := by
  have hrecv := @recv_line reads [] line rest h (Nat.zero_le _)
  simp only [List.length_nil, Nat.zero_add, List.nil_append] at hrecv
  rcases hrecv with ⟨hnoticed, hrecv⟩ | ⟨hnot, reads', hrecv, -⟩
  · refine iff_of_true ?_ hnoticed
    rw [recvAll_of_stops (by rw [hrecv]; rfl), hrecv]
  · refine iff_of_false ?_ hnot
    rw [recvAll_of_goes_on (by rw [hrecv]; exact finish_not_stops _), hrecv]
    intro heq
    have hhead : finish line = .tooLong := (List.cons.inj heq).1
    have hfinish := finish_not_stops line
    rw [hhead] at hfinish
    cases hfinish

theorem recvAll_short (h : cut newline reads.flatten = some (line, rest)) (hshort : line.length ≤ maxLineBytes) :
    ∃ reads', recvAll reads = finish line :: recvAll reads' ∧ After reads (line.length + 1) rest reads' := by
  have hrecv := @recv_line reads [] line rest h (Nat.zero_le _)
  simp only [List.length_nil, Nat.zero_add, List.nil_append] at hrecv
  rcases hrecv with ⟨⟨n, -, hmore, hle⟩, -⟩ | ⟨-, reads', hrecv, hafter⟩
  · omega
  · refine ⟨reads', ?_, hafter⟩
    rw [recvAll_of_goes_on (by rw [hrecv]; exact finish_not_stops _), hrecv]

theorem recvAll_eq_iff (reads : List Bytes) : recvAll reads = expected reads.flatten ↔ Noticed reads := by
  -- by the length of what is still to be read
  induction hlength : reads.flatten.length using Nat.strongRecOn generalizing reads with
  | ind n ih =>
    cases hcut : cut newline reads.flatten with
    | none => exact iff_of_true (recvAll_of_none hcut) (noticed_of_none hcut)
    | some found =>
      obtain ⟨line, rest⟩ := found
      rw [expected_of_some hcut]
      by_cases hlong : maxLineBytes < line.length
      · rw [if_pos hlong, recvAll_long hcut, noticed_long hcut hlong]
      · have hshort := not_lt.mp hlong
        obtain ⟨reads', hall, hafter⟩ := recvAll_short hcut hshort
        have hless : reads'.flatten.length < n := by
          rw [hafter.flatten, ← hlength, (cut_eq_some hcut).1, List.length_append, List.length_cons]
          omega
        rw [if_neg hlong, hall, noticed_short hcut hshort hafter, ← ih _ hless reads' rfl, hafter.flatten,
          List.cons.injEq, and_iff_right rfl]

end All

section Blocks

def block : Bytes := List.replicate 8192 97

/-- As many bytes as a line may have, in reads of what the reader holds at once. -/
def blocks : List Bytes := List.replicate 8192 block

theorem flatten_blocks : blocks.flatten = List.replicate maxLineBytes 97 := by
  rw [blocks, block, List.flatten_replicate_replicate]
  rfl

theorem length_take_blocks (k : ℕ) : (blocks.take k).flatten.length = min k 8192 * 8192 := by
  rw [blocks, List.take_replicate, block, List.flatten_replicate_replicate, List.length_replicate]

/-- One byte more, and its newline. -/
theorem cut_blocks {tail : List Bytes} (h : tail.flatten = [97, newline]) :
    cut newline (blocks ++ tail).flatten = some (List.replicate (maxLineBytes + 1) 97, []) := by
  have hflat : (blocks ++ tail).flatten = List.replicate (maxLineBytes + 1) 97 ++ newline :: [] := by
    rw [List.flatten_append, flatten_blocks, h, List.replicate_succ', List.append_assoc]
    rfl
  rw [hflat]
  refine cut_line fun hmem => ?_
  exact absurd (List.eq_of_mem_replicate hmem) (by decide)

theorem boundary_blocks {tail : List Bytes} (h : Boundary (blocks ++ tail) (maxLineBytes + 1)) :
    ∃ k, (tail.take k).flatten.length = 1 := by
  obtain ⟨k, hk⟩ := h
  have hmax : maxLineBytes = 8192 * 8192 := rfl
  have hlength : blocks.length = 8192 := List.length_replicate
  rw [List.take_append, List.flatten_append, List.length_append, length_take_blocks, hlength, hmax] at hk
  refine ⟨k - 8192, ?_⟩
  by_cases hall : 8192 ≤ k
  · rw [min_eq_right hall] at hk
    omega
  · rw [show k - 8192 = 0 by omega] at hk
    simp only [List.take_zero, List.flatten_nil, List.length_nil] at hk
    omega

/-- A line of a byte too many passes where its newline comes in the read that brings the byte, and is refused
where it comes in the next. -/
theorem recvAll_depends : ∃ reads reads' : List Bytes, reads.flatten = reads'.flatten ∧
    (∀ c ∈ reads ++ reads', c ≠ [] ∧ c.length ≤ 8192) ∧
    recvAll reads' = [.tooLong] ∧ recvAll reads ≠ recvAll reads' := by
  have hrefused : recvAll (blocks ++ [[97], [newline]]) = [.tooLong] := by
    refine (recvAll_long (cut_blocks rfl)).mpr ⟨maxLineBytes + 1, ⟨8193, ?_⟩, Nat.lt_succ_self _, ?_⟩
    · have hlength : blocks.length = 8192 := List.length_replicate
      rw [List.take_append, List.flatten_append, List.length_append, length_take_blocks, hlength]
      rfl
    · rw [List.length_replicate]
  have hpassed : recvAll (blocks ++ [[97, newline]]) ≠ [.tooLong] := by
    rw [Ne, recvAll_long (cut_blocks rfl)]
    rintro ⟨n, hn, hmore, hle⟩
    rw [List.length_replicate] at hle
    obtain rfl : n = maxLineBytes + 1 := by omega
    obtain ⟨k, hk⟩ := boundary_blocks hn
    cases k with
    | zero => cases hk
    | succ k =>
      rw [List.take_succ_cons, List.take_nil] at hk
      cases hk
  refine ⟨blocks ++ [[97, newline]], blocks ++ [[97], [newline]], ?_, fun c hc => ?_, hrefused, ?_⟩
  · rw [List.flatten_append, List.flatten_append]
    rfl
  · have hcases : c = block ∨ c = [97, newline] ∨ c = [97] ∨ c = [newline] := by
      simp only [List.mem_append, List.mem_cons, List.not_mem_nil, or_false] at hc
      rcases hc with (hc | hc) | hc | hc | hc
      · exact .inl (List.eq_of_mem_replicate hc)
      · exact .inr (.inl hc)
      · exact .inl (List.eq_of_mem_replicate hc)
      · exact .inr (.inr (.inl hc))
      · exact .inr (.inr (.inr hc))
    rcases hcases with rfl | rfl | rfl | rfl
    · refine ⟨?_, by rw [block, List.length_replicate]⟩
      rw [block, Ne, List.replicate_eq_nil_iff]
      decide
    · exact ⟨by decide, by decide⟩
    · exact ⟨by decide, by decide⟩
    · exact ⟨by decide, by decide⟩
  · rw [hrefused]
    exact hpassed

end Blocks

end Rootmode.P2p
