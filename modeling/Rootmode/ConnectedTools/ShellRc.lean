import Rootmode.Lib.Marked

namespace Rootmode.ConnectedTools

open Lib Lib.Text Lib.Marked

section Code

def markBegin : Text := ofString "# >>> rootmode connected apps >>>"

def markEnd : Text := ofString "# <<< rootmode connected apps <<<"

def shellQuote (value : Text) : Text :=
  let quote := Char.ofNat 39
  quote :: (value.flatMap (fun c => if c = quote then [quote, '\\', quote, quote] else [c]) ++ [quote])

/-- The text without its first block, from where the one marker first stands to where the other next does. -/
def removeGuardedBlock (existing : Text) : Text :=
  match Search.find markBegin existing with
  | none => existing
  | some start =>
    match Search.find markEnd (existing.drop start) with
    | none => existing
    | some endRel => existing.take start ++ existing.drop (start + endRel + markEnd.length)

def replaceGuardedBlock (existing block : Text) : Text :=
  let trimmed := trimEnd (removeGuardedBlock existing)
  if trimmed = [] then block ++ ['\n'] else trimmed ++ ('\n' :: '\n' :: (block ++ ['\n']))

def exportLine (name value : Text) : Text := ofString "export " ++ (name ++ '=' :: shellQuote value)

def block (name value : Text) : Text := markBegin ++ ('\n' :: (exportLine name value ++ ('\n' :: markEnd)))

def exportEnvVar (name value : Text) (rc : Option Text) : Option Text :=
  some (replaceGuardedBlock (rc.getD []) (block name value))

def unsetEnvVar (rc : Option Text) : Option Text := rc.map removeGuardedBlock

end Code

/-- What is done to the file. -/
inductive RcOp
  | exports (name value : Text)
  | unset

def RcOp.apply : RcOp → Option Text → Option Text
  | exports name value => exportEnvVar name value
  | unset => unsetEnvVar

def runRc (ops : List RcOp) (rc : Option Text) : Option Text := ops.foldl (fun rc op => op.apply rc) rc

theorem markBegin_ne : markBegin ≠ [] := by decide

theorem markEnd_ne : markEnd ≠ [] := by decide

theorem markBegin_line : '\n' ∉ markBegin := by decide

theorem markEnd_line : '\n' ∉ markEnd := by decide

theorem not_infix_markBegin : ¬ markEnd <:+: markBegin := by decide

def markers : Markers where
  opening := markBegin
  closing := markEnd
  opening_ne := markBegin_ne
  closing_ne := markEnd_ne
  opening_line := markBegin_line
  closing_line := markEnd_line
  apart := not_infix_markBegin

def rcLines (rc : Option Text) : List Text := rows (rc.getD [])

/-- The file after some operations: it has the lines that it had outside of its blocks, blank lines around them
aside, one block at most after an export and none after an unset, and the last operation changes nothing if it
is repeated. -/
structure Guarded (rc : Option Text) (ops : List RcOp) : Prop where
  lines : Joins (segments markers (rcLines rc)) (outside markers (rcLines (runRc ops rc)))
  exported : ∀ name value, ops.getLast? = some (.exports name value) → blocks markers (rcLines (runRc ops rc)) ≤ 1
  unset : ops.getLast? = some .unset → blocks markers (rcLines (runRc ops rc)) = 0
  again : ∀ op, ops.getLast? = some op → runRc (ops ++ [op]) rc = runRc ops rc

/-- A file without the first marker, or with one block and the first marker in no other line. -/
inductive Ready : Text → Prop
  | free {t} (h : ¬ markBegin <:+: t) : Ready t
  | block {P B Q : List Text} (hP : ∀ l ∈ P, '\n' ∉ l ∧ ¬ markBegin <:+: l)
    (hB : ∀ l ∈ B, '\n' ∉ l ∧ l ≠ markBegin ∧ ¬ markEnd <:+: l) (hQ : ∀ l ∈ Q, '\n' ∉ l ∧ ¬ markBegin <:+: l) :
    Ready (ended P ++ (markBegin ++ (follow B ++ '\n' :: (markEnd ++ follow Q))))

def RcOp.Exports : RcOp → Prop
  | exports _ _ => True
  | unset => False

/-- An export without the marker that ends it, and with no line that is the other one. -/
def RcOp.Harmless : RcOp → Prop
  | exports name value => markBegin ∉ rows (exportLine name value) ∧ ¬ markEnd <:+: exportLine name value
  | unset => True

section Remove

variable {t u pre mid post name value : Text} {P B Q : List Text}

theorem remove_free (h : ¬ markBegin <:+: t) : removeGuardedBlock t = t := by
  rw [removeGuardedBlock, find_absent markBegin_ne h]

/-- A block on lines of its own, which the first marker does not stand before and the second does not stand in,
is all that is removed. -/
theorem remove_block (hpre : pre = [] ∨ ∃ q, pre = q ++ ['\n'] ∧ ¬ markBegin <:+: q)
    (hmid : ∃ q, markBegin ++ mid = q ++ ['\n'] ∧ ¬ markEnd <:+: q) :
    removeGuardedBlock (pre ++ (markBegin ++ (mid ++ (markEnd ++ post)))) = pre ++ post := by
  have hbegin := @find_fresh _ _ (mid ++ (markEnd ++ post)) markBegin_ne markBegin_line hpre
  have hend := @find_fresh _ _ post markEnd_ne markEnd_line (.inr hmid)
  rw [List.append_assoc] at hend
  unfold removeGuardedBlock
  rw [hbegin]
  simp only [List.drop_left, List.take_left]
  rw [hend]
  simp only [List.append_cancel_left_eq]
  have hsplit : pre ++ (markBegin ++ (mid ++ (markEnd ++ post))) = (pre ++ (markBegin ++ mid) ++ markEnd) ++ post := by
    simp
  rw [hsplit]
  exact List.drop_left' (by simp [Nat.add_assoc])

theorem ended_cases (hP : ∀ l ∈ P, ¬ markBegin <:+: l) :
    ended P = [] ∨ ∃ q, ended P = q ++ ['\n'] ∧ ¬ markBegin <:+: q := by
  rcases List.eq_nil_or_concat P with rfl | ⟨P, l, rfl⟩
  · exact .inl rfl
  · rw [List.concat_eq_append] at hP ⊢
    refine .inr ⟨ended P ++ l, by simp [ended], ?_⟩
    rw [infix_ended_append markBegin_line]
    rintro (⟨l', hl', hin⟩ | hin)
    · exact hP l' (List.mem_append_left _ hl') hin
    · exact hP l (List.mem_append_right _ (List.mem_singleton.mpr rfl)) hin

end Remove

section Ready

variable {t : Text} {P B Q : List Text}

theorem not_mem_of_absent {ls : List Text} (h : ∀ l ∈ ls, ¬ markBegin <:+: l) : markBegin ∉ ls :=
  fun hin => h markBegin hin List.infix_rfl

theorem not_mem_rows (h : ¬ markBegin <:+: t) : markers.opening ∉ rows t := fun hin => h (rows_within.1 markBegin hin)

/-- The file without its block is the lines before and after it, and the markers are gone. -/
theorem Ready.removed (h : Ready t) : ¬ markBegin <:+: removeGuardedBlock t ∧
    Joins (segments markers (rows t)) (rows (removeGuardedBlock t)) := by
  cases h with
  | free h =>
    rw [remove_free h, segments_free (not_mem_rows h)]
    refine ⟨h, ?_⟩
    have hjoins := @joins_flatten [rows t]
    rwa [List.flatten_singleton] at hjoins
  | @block P B Q hP hB hQ =>
    have hclosing : ∀ l ∈ B, ¬ markEnd <:+: l := fun l hl => (hB l hl).2.2
    have hbody : follow B ++ '\n' :: (markEnd ++ follow Q) = follow (B ++ markEnd :: Q) := by simp [follow]
    have hremove : removeGuardedBlock (ended P ++ (markBegin ++ (follow B ++ '\n' :: (markEnd ++ follow Q)))) =
        ended P ++ follow Q := by
      have hmid : ∃ q, markBegin ++ (follow B ++ ['\n']) = q ++ ['\n'] ∧ ¬ markEnd <:+: q := by
        refine ⟨markBegin ++ follow B, by simp, ?_⟩
        rw [infix_append_follow markEnd_line]
        rintro (hin | ⟨l, hl, hin⟩)
        · exact not_infix_markBegin hin
        · exact hclosing l hl hin
      have hremove := @remove_block _ _ (follow Q) (ended_cases fun l hl => (hP l hl).2) hmid
      simpa using hremove
    have hrows : rows (ended P ++ (markBegin ++ (follow B ++ '\n' :: (markEnd ++ follow Q)))) =
        P ++ markBegin :: (B ++ markEnd :: Q) := by
      have hlines : ∀ l ∈ B ++ markEnd :: Q, '\n' ∉ l :=
        List.forall_mem_append.mpr ⟨fun l hl => (hB l hl).1,
          List.forall_mem_cons.mpr ⟨markEnd_line, fun l hl => (hQ l hl).1⟩⟩
      rw [hbody, rows_ended fun l hl => (hP l hl).1, rows_follow markBegin_line hlines]
    have hsegments : segments markers (P ++ markBegin :: (B ++ markEnd :: Q)) = [P, Q] :=
      segments_block (m := markers) (not_mem_of_absent fun l hl => (hP l hl).2) (fun hin => (hB _ hin).2.1 rfl)
        (fun hin => hclosing _ hin List.infix_rfl) (not_mem_of_absent fun l hl => (hQ l hl).2)
    have hrest : rows (ended P ++ follow Q) = P ++ [] :: Q := by
      rw [rows_ended fun l hl => (hP l hl).1]
      exact congrArg (P ++ ·) (rows_follow (List.not_mem_nil) fun l hl => (hQ l hl).1)
    rw [hremove, hrows, hsegments, hrest]
    constructor
    · rw [infix_ended_append markBegin_line]
      rintro (⟨l, hl, hin⟩ | hin)
      · exact (hP l hl).2 hin
      · rcases (infix_append_follow (l := []) markBegin_line).mp hin with hin | ⟨l, hl, hin⟩
        · exact markBegin_ne (List.infix_nil.mp hin)
        · exact (hQ l hl).2 hin
    · have hjoins := @Joins.cons [[]] [] Q [] [] [] allBlank_singleton allBlank_nil allBlank_nil (.nil allBlank_nil)
      simpa using hjoins.first (P := P)

end Ready

section Written

variable {u name value : Text}

/-- The file after an export, with what it was without its block. -/
def exported (u name value : Text) : Text :=
  if trimEnd u = [] then block name value ++ ['\n'] else trimEnd u ++ ('\n' :: '\n' :: (block name value ++ ['\n']))

/-- The same when the block is removed again. -/
def cleared (u : Text) : Text := if trimEnd u = [] then ['\n'] else trimEnd u ++ ['\n', '\n', '\n']

theorem replaceGuardedBlock_eq (t : Text) :
    replaceGuardedBlock t (block name value) = exported (removeGuardedBlock t) name value := rfl

theorem trimEnd_cleared : trimEnd (cleared u) = trimEnd u := by
  unfold cleared
  split
  · next hnil => rw [hnil]; decide
  · rw [trimEnd_append, if_pos (by decide), trimEnd_trimEnd]

theorem exported_cleared : exported (cleared u) name value = exported u name value := by
  rw [exported, trimEnd_cleared, exported]

theorem not_infix_trimEnd (h : ¬ markBegin <:+: u) : ¬ markBegin <:+: trimEnd u :=
  fun hin => h (hin.trans trimEnd_prefix.isInfix)

theorem not_infix_line (h : ¬ markBegin <:+: u) : ¬ markBegin <:+: u ++ ['\n'] := by
  rw [infix_append_cons markBegin_line, not_or]
  exact ⟨h, fun hin => markBegin_ne (List.infix_nil.mp hin)⟩

theorem not_infix_cleared (h : ¬ markBegin <:+: u) : ¬ markBegin <:+: cleared u := by
  unfold cleared
  split
  · decide
  · have htriple : trimEnd u ++ ['\n', '\n', '\n'] = ((trimEnd u ++ ['\n']) ++ ['\n']) ++ ['\n'] := by simp
    rw [htriple]
    exact not_infix_line (not_infix_line (not_infix_line (not_infix_trimEnd h)))

theorem remove_exported (h : ¬ markBegin <:+: u) (hop : (RcOp.exports name value).Harmless) :
    removeGuardedBlock (exported u name value) = cleared u := by
  have hmid : ∃ q, markBegin ++ ('\n' :: (exportLine name value ++ ['\n'])) = q ++ ['\n'] ∧ ¬ markEnd <:+: q := by
    refine ⟨markBegin ++ '\n' :: exportLine name value, by simp, ?_⟩
    rw [infix_append_cons markEnd_line, not_or]
    exact ⟨not_infix_markBegin, hop.2⟩
  unfold exported cleared block
  split
  · have hremove := @remove_block [] _ ['\n'] (.inl rfl) hmid
    simpa using hremove
  · have hpre : trimEnd u ++ ['\n', '\n'] = [] ∨ ∃ q, trimEnd u ++ ['\n', '\n'] = q ++ ['\n'] ∧ ¬ markBegin <:+: q :=
      .inr ⟨trimEnd u ++ ['\n'], by simp, not_infix_line (not_infix_trimEnd h)⟩
    have hremove := @remove_block _ _ ['\n'] hpre hmid
    simpa using hremove

theorem rows_cleared : ∃ b, AllBlank b ∧ rows (cleared u) = body u ++ b := by
  unfold cleared body
  split
  · exact ⟨_, allBlank_rows (t := ['\n']) (trimEnd_eq_nil.mp (by decide)), rfl⟩
  · exact ⟨_, allBlank_rows (t := ['\n', '\n']) (trimEnd_eq_nil.mp (by decide)), rows_append⟩

theorem rows_exported (h : ¬ markBegin <:+: u) (hop : (RcOp.exports name value).Harmless) :
    ∃ b, AllBlank b ∧ segments markers (rows (exported u name value)) = [body u ++ b, [[]]] := by
  have hend : markEnd ∉ rows (exportLine name value) := fun hin => hop.2 (rows_within.1 _ hin)
  have hblock : rows (block name value ++ ['\n']) = markBegin :: (rows (exportLine name value) ++ markEnd :: [[]]) := by
    have hsplit : block name value ++ ['\n'] = markBegin ++ '\n' :: (exportLine name value ++ '\n' :: (markEnd ++ ['\n'])) := by
      simp [block]
    rw [hsplit, rows_append, rows_append, rows_append, rows_line markBegin_line, rows_line markEnd_line]
    rfl
  have hsegments : ∀ P : List Text, markBegin ∉ P →
      segments markers (P ++ markBegin :: (rows (exportLine name value) ++ markEnd :: [[]])) = [P, [[]]] :=
    fun P hP => segments_block (m := markers) hP hop.1 hend (by decide)
  unfold exported body
  split
  · refine ⟨[], allBlank_nil, ?_⟩
    rw [hblock]
    exact hsegments [] List.not_mem_nil
  · refine ⟨[[]], allBlank_rows (t := []) (trimEnd_eq_nil.mp rfl), ?_⟩
    have hrows : rows (trimEnd u ++ '\n' :: '\n' :: (block name value ++ ['\n'])) =
        (rows (trimEnd u) ++ [[]]) ++ markBegin :: (rows (exportLine name value) ++ markEnd :: [[]]) := by
      rw [rows_append, rows_newline, hblock]
      simp
    rw [hrows]
    refine hsegments _ fun hin => ?_
    rcases List.mem_append.mp hin with hin | hin
    · exact not_mem_rows (not_infix_trimEnd h) hin
    · exact markBegin_ne (List.mem_singleton.mp hin)

end Written

section Runs

variable {rc : Option Text} {ops : List RcOp} {op : RcOp} {e : Prop} {u : Text}

/-- The file without its block is what it was at first, or what is left of that by an export. -/
def HeldRc (e : Prop) (u : Text) (rc : Option Text) : Prop :=
  removeGuardedBlock (rc.getD []) = u ∨ e ∧ removeGuardedBlock (rc.getD []) = cleared u

theorem HeldRc.exports (h : HeldRc e u rc) (name value : Text) :
    (RcOp.exports name value).apply rc = some (exported u name value) := by
  change some (replaceGuardedBlock (rc.getD []) (block name value)) = _
  rw [replaceGuardedBlock_eq]
  rcases h with h | ⟨-, h⟩
  · rw [h]
  · rw [h, exported_cleared]

theorem unset_getD : (RcOp.unset.apply rc).getD [] = removeGuardedBlock (rc.getD []) := by
  cases rc with
  | none => exact (remove_free (by decide)).symm
  | some t => rfl

theorem HeldRc.removed_free (hu : ¬ markBegin <:+: u) (h : HeldRc e u rc) : ¬ markBegin <:+: removeGuardedBlock (rc.getD []) := by
  rcases h with h | ⟨-, h⟩
  · rwa [h]
  · rw [h]
    exact not_infix_cleared hu

theorem HeldRc.step (hu : ¬ markBegin <:+: u) (h : HeldRc e u rc) (hop : op.Harmless) (he : op.Exports → e) :
    HeldRc e u (op.apply rc) := by
  cases op with
  | exports name value =>
    rw [h.exports name value]
    exact .inr ⟨he trivial, remove_exported hu hop⟩
  | unset =>
    unfold HeldRc
    rw [unset_getD, remove_free (h.removed_free hu)]
    exact h

theorem held_run (hu : ¬ markBegin <:+: u) (h : HeldRc e u rc) (hops : ∀ op ∈ ops, op.Harmless ∧ (op.Exports → e)) :
    HeldRc e u (runRc ops rc) := by
  induction ops generalizing rc with
  | nil => exact h
  | cons op ops ih =>
    obtain ⟨⟨hop, he⟩, hops⟩ := List.forall_mem_cons.mp hops
    exact ih (h.step hu hop he) hops

/-- An operation that is repeated changes nothing. -/
theorem HeldRc.again (hu : ¬ markBegin <:+: u) (h : HeldRc e u rc) (hop : op.Harmless) :
    op.apply (op.apply rc) = op.apply rc := by
  cases op with
  | exports name value =>
    have hnext : HeldRc True u (some (exported u name value)) := .inr ⟨trivial, remove_exported hu hop⟩
    rw [h.exports name value, hnext.exports name value]
  | unset =>
    cases rc with
    | none => rfl
    | some t => exact congrArg some (remove_free (h.removed_free hu))

theorem HeldRc.outside_unset (hu : ¬ markBegin <:+: u) (h : HeldRc e u rc) :
    segments markers (rcLines (RcOp.unset.apply rc)) = [rows (removeGuardedBlock (rc.getD []))] := by
  rw [rcLines, unset_getD, segments_free (not_mem_rows (h.removed_free hu))]

theorem runRc_concat : runRc (ops ++ [op]) rc = op.apply (runRc ops rc) := List.foldl_concat ..

/-- The lines after an operation on a file that holds. -/
theorem HeldRc.lines {ss : List (List Text)} (hu : ¬ markBegin <:+: u) (hjoins : Joins ss (rows u)) (htidy : e → Tidy u)
    (h : HeldRc e u rc) (hop : op.Harmless) (he : op.Exports → e) : Joins ss (outside markers (rcLines (op.apply rc))) := by
  have hresize : ∀ {b}, e → AllBlank b → Joins ss (body u ++ b) := by
    intro b he hb
    obtain ⟨b₀, hb₀, hrows⟩ := rows_tidy (htidy he)
    rw [hrows] at hjoins
    exact hjoins.resize hb₀ hb
  cases op with
  | exports name value =>
    obtain ⟨b, hb, hsegments⟩ := rows_exported hu hop
    have houtside : outside markers (rcLines (some (exported u name value))) = body u ++ (b ++ [[]]) := by
      rw [outside, rcLines, Option.getD_some, hsegments]
      simp
    rw [h.exports name value, houtside]
    exact hresize (he trivial) (allBlank_append.mpr ⟨hb, allBlank_singleton⟩)
  | unset =>
    rw [outside, h.outside_unset hu, List.flatten_singleton]
    rcases h with h | ⟨he, h⟩
    · rwa [h]
    · obtain ⟨b, hb, hrows⟩ := @rows_cleared u
      rw [h, hrows]
      exact hresize he hb

/-- A file that is ready is guarded, if the exports are harmless and its last line has no blanks at its end where
there is an export. -/
theorem guarded_of_ready (hready : Ready (rc.getD [])) (htidy : (∃ op ∈ ops, op.Exports) → Tidy (removeGuardedBlock (rc.getD [])))
    (hops : ∀ op ∈ ops, op.Harmless) : Guarded rc ops := by
  obtain ⟨hu, hjoins⟩ := hready.removed
  rcases List.eq_nil_or_concat ops with rfl | ⟨before, op, rfl⟩
  · exact ⟨joins_flatten, fun _ _ h => (nomatch h), fun h => (nomatch h), fun _ h => (nomatch h)⟩
  rw [List.concat_eq_append] at *
  have hlast : (before ++ [op]).getLast? = some op := List.getLast?_concat
  have hmem : op ∈ before ++ [op] := List.mem_append_right _ (List.mem_singleton.mpr rfl)
  have hheld : HeldRc (∃ op' ∈ before ++ [op], op'.Exports) (removeGuardedBlock (rc.getD [])) (runRc before rc) :=
    held_run hu (.inl rfl) fun op' hop' =>
      ⟨hops op' (List.mem_append_left _ hop'), fun he => ⟨op', List.mem_append_left _ hop', he⟩⟩
  refine ⟨?_, fun name value h => ?_, fun h => ?_, fun op' h => ?_⟩
  · rw [runRc_concat]
    exact hheld.lines hu hjoins htidy (hops op hmem) fun he => ⟨op, hmem, he⟩
  · obtain rfl := Option.some.inj (hlast.symm.trans h)
    obtain ⟨b, -, hsegments⟩ := rows_exported hu (hops _ hmem)
    rw [runRc_concat, hheld.exports name value, blocks, rcLines, Option.getD_some, hsegments]
    rfl
  · obtain rfl := Option.some.inj (hlast.symm.trans h)
    rw [runRc_concat, blocks, hheld.outside_unset hu]
    rfl
  · obtain rfl := Option.some.inj (hlast.symm.trans h)
    rw [runRc_concat, runRc_concat]
    exact hheld.again hu (hops op hmem)

/-- A file of one line, an export and its end. -/
theorem guarded_path : Guarded (some (ofString "PATH=1\n")) [.exports (ofString "A") (ofString "b"), .unset] := by
  refine guarded_of_ready (.free (by decide)) (fun _ => ?_) ?_
  · have hhead : ((ofString "PATH=1\n").drop (trimEnd (ofString "PATH=1\n")).length).head? = some '\n' := by decide
    rw [remove_free (by decide)]
    exact .inr fun c hc => (Option.some.inj (hhead.symm.trans hc)).symm
  · exact List.forall_mem_cons.mpr ⟨by unfold RcOp.Harmless; decide, List.forall_mem_singleton.mpr trivial⟩

/-- The lines after a marker that nothing ended. -/
theorem orphan_removed : ¬ Guarded (some (markBegin ++ ofString "\nb\n")) [.exports (ofString "A") (ofString "b"), .unset] := by
  intro h
  have hrun : runRc [.exports (ofString "A") (ofString "b"), .unset] (some (markBegin ++ ofString "\nb\n")) = some ['\n'] := by
    decide +kernel
  have hlines := h.lines
  rw [hrun] at hlines
  have hsegments : segments markers (rcLines (some (markBegin ++ ofString "\nb\n"))) = [[markBegin, ['b'], []]] := by
    decide +kernel
  rw [hsegments] at hlines
  have hsaid : ¬ ∀ c ∈ ['b'], isWhitespace c = true := fun h => absurd (h 'b' (List.mem_singleton.mpr rfl)) (by decide)
  have hmem := hlines.mem ⟨_, List.mem_singleton.mpr rfl, List.mem_cons_of_mem _ List.mem_cons_self⟩ hsaid
  revert hmem
  decide

end Runs

end Rootmode.ConnectedTools
