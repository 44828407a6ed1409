import Rootmode.Lib.Toml

namespace Lib.Toml

open Text

variable {c d : Char} {m m' : Mode} {s : Slot} {h : Holder} {parts : Path} {str : Str} {line : Text}
  {ls ls' : List Text} {i : Item} {items items' : List Item}

section Read

theorem readLines_cons :
    readLines m (line :: ls) =
      (readLine m line).bind fun r => (readLines r.1 ls).bind fun r' => some (r'.1, r.2 ++ r'.2) := rfl

theorem readLines_append :
    readLines m (ls ++ ls') =
      (readLines m ls).bind fun r => (readLines r.1 ls').bind fun r' => some (r'.1, r.2 ++ r'.2) := by
  induction ls generalizing m with
  | nil =>
    rw [List.nil_append, readLines, Option.bind_some]
    cases readLines m ls' <;> rfl
  | cons line ls ih =>
    rw [List.cons_append, readLines_cons, readLines_cons]
    cases readLine m line with
    | none => rfl
    | some r =>
      rw [Option.bind_some, Option.bind_some, ih]
      cases readLines r.1 ls with
      | none => rfl
      | some r' =>
        rw [Option.bind_some, Option.bind_some, Option.bind_some]
        cases readLines r'.1 ls' with
        | none => rfl
        | some r'' =>
          rw [Option.bind_some, Option.bind_some, Option.bind_some, List.append_assoc]

theorem readLines_cons_eq_some :
    readLines m (line :: ls) = some (m', items) ↔
      ∃ n is is', readLine m line = some (n, is) ∧ readLines n ls = some (m', is') ∧ is ++ is' = items := by
  rw [readLines_cons]
  constructor
  · intro hread
    obtain ⟨⟨n, is⟩, hfirst, hrest⟩ := Option.bind_eq_some_iff.mp hread
    obtain ⟨⟨n', is'⟩, hsecond, heq⟩ := Option.bind_eq_some_iff.mp hrest
    cases heq
    exact ⟨n, is, is', hfirst, hsecond, rfl⟩
  · rintro ⟨n, is, is', hfirst, hsecond, rfl⟩
    rw [hfirst, Option.bind_some, hsecond]
    rfl

theorem readLines_append_eq_some :
    readLines m (ls ++ ls') = some (m', items) ↔
      ∃ n is is', readLines m ls = some (n, is) ∧ readLines n ls' = some (m', is') ∧ is ++ is' = items := by
  rw [readLines_append]
  constructor
  · intro hread
    obtain ⟨⟨n, is⟩, hfirst, hrest⟩ := Option.bind_eq_some_iff.mp hread
    obtain ⟨⟨n', is'⟩, hsecond, heq⟩ := Option.bind_eq_some_iff.mp hrest
    cases heq
    exact ⟨n, is, is', hfirst, hsecond, rfl⟩
  · rintro ⟨n, is, is', hfirst, hsecond, rfl⟩
    rw [hfirst, Option.bind_some, hsecond]
    rfl

end Read

/-- What no part of a document's syntax is spelled with. -/
def Foreign (c : Char) : Prop := isBlank c = false ∧ (c.toNat < 32 ∨ 127 ≤ c.toNat)

section Foreign

theorem Foreign.ne (hc : Foreign c) (hd : 32 ≤ d.toNat ∧ d.toNat < 127) : c ≠ d := by
  rintro rfl
  obtain ⟨-, hlow | hhigh⟩ := hc <;> omega

theorem foreign_of_isControl (hc : isControl c) : Foreign c := by
  rw [isControl, Bool.or_eq_true, Bool.and_eq_true, decide_eq_true_eq, bne_iff_ne, beq_iff_eq] at hc
  rcases hc with ⟨hlow, htab⟩ | hdel
  · refine ⟨?_, .inl hlow⟩
    rw [isBlank, Bool.or_eq_false_iff, beq_eq_false_iff_ne, beq_eq_false_iff_ne]
    refine ⟨?_, htab⟩
    rintro rfl
    exact absurd hlow (by decide)
  · refine ⟨?_, .inr hdel.ge⟩
    rw [isBlank, Bool.or_eq_false_iff, beq_eq_false_iff_ne, beq_eq_false_iff_ne]
    constructor
    · rintro rfl
      exact absurd hdel (by decide)
    · rintro rfl
      exact absurd hdel (by decide)

theorem foreign_of_isWhitespace (hc : isWhitespace c) (hb : isBlank c = false) : Foreign c := by
  refine ⟨hb, ?_⟩
  have hspace : c.toNat ≠ 32 := by
    intro h
    have : c = ' ' := Char.ext (UInt32.toNat_inj.mp h)
    rw [this] at hb
    cases hb
  rw [isWhitespace, decide_eq_true_eq] at hc
  omega

theorem Foreign.alphanum (hc : Foreign c) : c.isAlphanum = false := by
  rw [Bool.eq_false_iff]
  intro halnum
  have hcode := code_of_alphanum halnum
  obtain ⟨-, hlow | hhigh⟩ := hc
  · omega
  · omega

theorem Foreign.digit (hc : Foreign c) : c.isDigit = false := by
  have halnum := hc.alphanum
  rw [Char.isAlphanum, Bool.or_eq_false_iff] at halnum
  exact halnum.2

theorem Foreign.beq (hc : Foreign c) (hd : 32 ≤ d.toNat ∧ d.toNat < 127) : (c == d) = false :=
  beq_eq_false_iff_ne.mpr (hc.ne hd)

theorem Foreign.bare (hc : Foreign c) : isBareKeyChar c = false := by
  rw [isBareKeyChar, hc.alphanum, hc.beq (by decide), hc.beq (by decide)]
  rfl

theorem Foreign.word (hc : Foreign c) : isWordChar c = false := by
  rw [isWordChar, hc.alphanum, hc.beq (by decide), hc.beq (by decide), hc.beq (by decide), hc.beq (by decide),
    hc.beq (by decide)]
  rfl

theorem dotStep_foreign (hc : Foreign c) : dotStep h parts c = none := by
  rw [dotStep, hc.1, if_neg Bool.false_ne_true, if_neg (hc.ne (by decide)), if_neg (hc.ne (by decide)), hc.bare,
    if_neg Bool.false_ne_true]

theorem valueStep_foreign (hc : Foreign c) : valueStep s c = none := by
  rw [valueStep, hc.1, if_neg Bool.false_ne_true, if_neg (hc.ne (by decide)), if_neg (hc.ne (by decide)),
    if_neg (hc.ne (by decide)), if_neg (hc.ne (by decide)), hc.digit, hc.beq (by decide), hc.beq (by decide),
    hc.beq (by decide), hc.beq (by decide), hc.beq (by decide), hc.beq (by decide)]
  rfl

theorem keyEndStep_foreign (hc : Foreign c) : keyEndStep h parts c = none := by
  rw [keyEndStep.eq_def, hc.1, if_neg Bool.false_ne_true, if_neg (hc.ne (by decide))]
  cases h with
  | keyval => exact if_neg (hc.ne (by decide))
  | header => exact if_neg (hc.ne (by decide))
  | entry => exact if_neg fun heq => hc.ne (by decide) heq.1

theorem endStep_foreign (hc : Foreign c) : endStep m c = none := by
  cases m with
  | done =>
    rw [endStep, hc.1, if_neg Bool.false_ne_true, if_neg (hc.ne (by decide))]
  | next =>
    rw [endStep, hc.1, if_neg Bool.false_ne_true, if_neg (hc.ne (by decide)), if_neg (hc.ne (by decide)),
      if_neg (hc.ne (by decide))]
  | field =>
    rw [endStep, hc.1, if_neg Bool.false_ne_true, if_neg (hc.ne (by decide)), if_neg (hc.ne (by decide))]
  | _ => rfl

theorem Foreign.hex (hc : Foreign c) : isHexDigit c = false := by
  rw [Bool.eq_false_iff]
  intro hhex
  rw [isHexDigit, hc.digit, Bool.false_or, Bool.or_eq_true, Bool.and_eq_true, Bool.and_eq_true,
    decide_eq_true_eq, decide_eq_true_eq, decide_eq_true_eq, decide_eq_true_eq] at hhex
  have hval : ∀ {a b : Char}, a ≤ b → a.toNat ≤ b.toNat := fun h => h
  rcases hhex with ⟨hlow, hhigh⟩ | ⟨hlow, hhigh⟩
  · have hlow := hval hlow
    have hhigh := hval hhigh
    obtain ⟨-, h | h⟩ := hc
    · have : 'a'.toNat = 97 := rfl
      omega
    · have : 'f'.toNat = 102 := rfl
      omega
  · have hlow := hval hlow
    have hhigh := hval hhigh
    obtain ⟨-, h | h⟩ := hc
    · have : 'A'.toNat = 65 := rfl
      omega
    · have : 'F'.toNat = 70 := rfl
      omega

/-- A string of one line has no place for a control character, nor have its escapes. -/
theorem Str.step_control (hc : isControl c) : str.step c = none := by
  have hf := foreign_of_isControl hc
  cases str with
  | plain t => rw [Str.step, if_neg (hf.ne (by decide)), if_neg (hf.ne (by decide)), if_pos hc]
  | escape t =>
    have hnone : escaped t c = none := by
      unfold escaped
      split <;> first | exact absurd rfl (hf.ne (by decide)) | rfl
    rw [Str.step, hnone, Option.map_none]
  | unicode t left n =>
    rw [Str.step, hf.hex]
    rfl

theorem escapesStep_control (hc : isControl c) : escapesStep s str c = none := by
  rw [escapesStep, Str.step_control hc]

/-- A control character stands nowhere. -/
theorem step_control (hc : isControl c) : step m c = none := by
  have hf := foreign_of_isControl hc
  cases m with
  | start =>
    rw [step, hf.1, if_neg Bool.false_ne_true, if_neg (hf.ne (by decide)), if_neg (hf.ne (by decide)),
      dotStep_foreign hf]
  | comment m => rw [step, if_pos hc]
  | bracket => rw [step, if_neg (hf.ne (by decide)), dotStep_foreign hf]
  | dot h parts => exact dotStep_foreign hf
  | bare h parts part => rw [step, hf.bare, if_neg Bool.false_ne_true, keyEndStep_foreign hf]
  | basicKey h parts str => rw [step, Str.step_control hc]
  | literalKey h parts part => rw [step, if_neg (hf.ne (by decide)), if_pos hc]
  | keyEnd h parts => exact keyEndStep_foreign hf
  | close parts => exact if_neg (hf.ne (by decide))
  | done item => rw [step, endStep_foreign hf]
  | value s => exact valueStep_foreign hf
  | word s t =>
    rw [step, hf.word, if_neg Bool.false_ne_true, if_neg fun h => hf.ne (by decide) h.1, endStep_foreign hf, ite_self]
  | date s t => rw [step, hf.digit, if_neg Bool.false_ne_true, endStep_foreign hf]
  | quotes s literal two =>
    cases literal with
    | true =>
      rw [step, if_neg (hf.ne (by decide)), endStep_foreign hf, literalStep, if_neg (hf.ne (by decide)), if_pos hc,
        ite_self]
    | false => rw [step, if_neg (hf.ne (by decide)), endStep_foreign hf, basicStep, Str.step_control hc, ite_self]
  | basic s str => rw [step, basicStep, Str.step_control hc]
  | literal s => rw [step, literalStep, if_neg (hf.ne (by decide)), if_pos hc]
  | basics s seen =>
    rw [step, if_neg (hf.ne (by decide)), endStep_foreign hf, if_neg (hf.ne (by decide)), if_pos hc, ite_self]
  | escapes s str =>
    rw [step.eq_def]
    cases str with
    | escape =>
      change (if isBlank c = true then _ else _) = _
      rw [hf.1, if_neg Bool.false_ne_true, escapesStep_control hc]
    | plain | unicode => exact escapesStep_control hc
  | gap s => rw [step, hf.1, if_neg Bool.false_ne_true]
  | literals s seen => rw [step, if_neg (hf.ne (by decide)), endStep_foreign hf, if_pos hc, ite_self]
  | element s =>
    rw [step, hf.1, if_neg Bool.false_ne_true, if_neg (hf.ne (by decide)), if_neg (hf.ne (by decide)),
      valueStep_foreign hf]
  | next s => rw [step, endStep_foreign hf]
  | brace s =>
    rw [step, hf.1, if_neg Bool.false_ne_true, if_neg (hf.ne (by decide)), dotStep_foreign hf]
  | field s => rw [step, endStep_foreign hf]

theorem not_isControl_of_foldlM (h : line.foldlM step m = some m') : ∀ c ∈ line, isControl c = false := by
  induction line generalizing m with
  | nil => exact fun c hc => absurd hc List.not_mem_nil
  | cons d line ih =>
    rw [List.foldlM_cons] at h
    obtain ⟨n, hstep, hrest⟩ := Option.bind_eq_some_iff.mp h
    rw [List.forall_mem_cons]
    refine ⟨?_, ih hrest⟩
    rw [Bool.eq_false_iff]
    intro hd
    rw [step_control hd] at hstep
    cases hstep

/-- No line of a document has a control character. -/
theorem not_isControl_of_readLines (h : readLines m ls = some (m', items)) :
    ∀ line ∈ ls, ∀ c ∈ line, isControl c = false := by
  induction ls generalizing m items with
  | nil => exact fun line hl => absurd hl List.not_mem_nil
  | cons line ls ih =>
    obtain ⟨n, is, is', hline, hrest, -⟩ := readLines_cons_eq_some.mp h
    obtain ⟨k, hfold, -⟩ := Option.bind_eq_some_iff.mp hline
    rw [List.forall_mem_cons]
    exact ⟨not_isControl_of_foldlM hfold, ih hrest⟩

end Foreign

section Resting

/-- Nothing of a line has gone by: a statement may begin, or one that is several lines long goes on. -/
inductive Resting : Mode → Prop
  | start : Resting .start
  | element (s : Slot) : Resting (.element s)
  | next (s : Slot) : Resting (.next s)
  | basics (s : Slot) : Resting (.basics s 0)
  | literals (s : Slot) : Resting (.literals s 0)

theorem resting_settle (h : settle m = some (m', items)) : Resting m' := by
  cases m with
  | done =>
    cases h
    exact .start
  | next s =>
    cases h
    exact .next s
  | _ => cases h

theorem resting_endLine (h : endLine m = some (m', items)) : Resting m' := by
  induction m with
  | start =>
    cases h
    exact .start
  | comment m ih => exact ih h
  | done => exact resting_settle h
  | word s t =>
    rw [endLine] at h
    split at h
    · exact resting_settle h
    · cases h
  | date s t => exact resting_settle h
  | quotes s literal two =>
    cases two with
    | true => exact resting_settle h
    | false => cases h
  | basics s seen =>
    rw [endLine] at h
    split at h
    · exact resting_settle h
    · cases h
      exact .basics s
  | literals s seen =>
    rw [endLine] at h
    split at h
    · exact resting_settle h
    · cases h
      exact .literals s
  | escapes s str =>
    cases str with
    | escape =>
      cases h
      exact .basics s
    | plain | unicode => cases h
  | gap s =>
    cases h
    exact .basics s
  | element s =>
    cases h
    exact .element s
  | next s => exact resting_settle h
  | _ => cases h

theorem resting_readLine (h : readLine m line = some (m', items)) : Resting m' := by
  obtain ⟨n, -, hend⟩ := Option.bind_eq_some_iff.mp h
  exact resting_endLine hend

theorem resting_readLines (hm : Resting m) (h : readLines m ls = some (m', items)) : Resting m' := by
  induction ls generalizing m items with
  | nil =>
    cases h
    exact hm
  | cons line ls ih =>
    obtain ⟨n, is, is', hline, hrest, -⟩ := readLines_cons_eq_some.mp h
    exact ih (resting_readLine hline) hrest

theorem endLine_resting (hm : Resting m) : endLine m = some (m, []) := by
  cases hm <;> rfl

/-- A blank at a line's beginning. -/
theorem step_whitespace (hm : Resting m) (hc : isWhitespace c) (h : step m c = some m') : m' = m := by
  have hquote : c ≠ '"' := by
    rintro rfl
    cases hc
  have hapostrophe : c ≠ '\'' := by
    rintro rfl
    cases hc
  have hbackslash : c ≠ '\\' := by
    rintro rfl
    cases hc
  cases hb : isBlank c with
  | true =>
    cases hm with
    | start =>
      rw [step, hb, if_pos rfl] at h
      exact (Option.some.inj h).symm
    | element s =>
      rw [step, hb, if_pos rfl] at h
      exact (Option.some.inj h).symm
    | next s =>
      rw [step, endStep, hb, if_pos rfl] at h
      exact (Option.some.inj h).symm
    | basics s =>
      rw [step, if_neg hquote, if_neg (by decide), if_neg hbackslash] at h
      split at h
      · cases h
      · exact (Option.some.inj h).symm
    | literals s =>
      rw [step, if_neg hapostrophe, if_neg (by decide)] at h
      split at h
      · cases h
      · exact (Option.some.inj h).symm
  | false =>
    have hf := foreign_of_isWhitespace hc hb
    cases hm with
    | start =>
      rw [step, hb, if_neg Bool.false_ne_true, if_neg (hf.ne (by decide)), if_neg (hf.ne (by decide)),
        dotStep_foreign hf] at h
      cases h
    | element s =>
      rw [step, hb, if_neg Bool.false_ne_true, if_neg (hf.ne (by decide)), if_neg (hf.ne (by decide)),
        valueStep_foreign hf] at h
      cases h
    | next s =>
      rw [step, endStep_foreign hf] at h
      cases h
    | basics s =>
      rw [step, if_neg hquote, if_neg (by decide), if_neg hbackslash] at h
      split at h
      · cases h
      · exact (Option.some.inj h).symm
    | literals s =>
      rw [step, if_neg hapostrophe, if_neg (by decide)] at h
      split at h
      · cases h
      · exact (Option.some.inj h).symm

theorem readLine_blank (hm : Resting m) (hline : ∀ c ∈ line, isWhitespace c) (h : readLine m line = some (m', items)) :
    m' = m ∧ items = [] := by
  obtain ⟨n, hfold, hend⟩ := Option.bind_eq_some_iff.mp h
  have hn : n = m := by
    clear h hend
    induction line with
    | nil => exact (Option.some.inj hfold).symm
    | cons c line ih =>
      rw [List.foldlM_cons] at hfold
      obtain ⟨k, hstep, hrest⟩ := Option.bind_eq_some_iff.mp hfold
      rw [step_whitespace hm (hline c List.mem_cons_self) hstep] at hrest
      exact ih (fun d hd => hline d (List.mem_cons_of_mem _ hd)) hrest
  rw [hn, endLine_resting hm] at hend
  cases hend
  exact ⟨rfl, rfl⟩

theorem readLines_blank (hm : Resting m) (hls : ∀ line ∈ ls, ∀ c ∈ line, isWhitespace c)
    (h : readLines m ls = some (m', items)) : m' = m ∧ items = [] := by
  induction ls generalizing items with
  | nil =>
    cases h
    exact ⟨rfl, rfl⟩
  | cons line ls ih =>
    obtain ⟨n, is, is', hline, hrest, rfl⟩ := readLines_cons_eq_some.mp h
    obtain ⟨rfl, rfl⟩ := readLine_blank hm (hls line List.mem_cons_self) hline
    exact ih (fun l hl => hls l (List.mem_cons_of_mem _ hl)) hrest

end Resting

section Keyed

def Holder.keyed : Holder → Bool
  | .header _ => false
  | _ => true

/-- Part of a key and its value, or a comment, has gone by. -/
def Mode.keyed : Mode → Bool
  | .start => false
  | .comment .start => true
  | .comment m => m.keyed
  | .bracket => false
  | .dot h _ => h.keyed
  | .bare h _ _ => h.keyed
  | .basicKey h _ _ => h.keyed
  | .literalKey h _ _ => h.keyed
  | .keyEnd h _ => h.keyed
  | .close _ => false
  | .done item => item.isKeyval
  | _ => true

theorem keyed_finish : s.finish.keyed := by
  unfold Slot.finish
  split <;> rfl

theorem keyed_endStep (hm : m.keyed) (hstep : endStep m c = some m') : m'.keyed := by
  cases m with
  | done item =>
    rw [endStep] at hstep
    split at hstep
    · cases hstep
      exact hm
    · split at hstep
      · cases hstep
        exact hm
      · cases hstep
  | next s =>
    rw [endStep] at hstep
    repeat' split at hstep
    all_goals cases hstep
    all_goals first | rfl | exact keyed_finish
  | field s =>
    rw [endStep.eq_def] at hstep
    dsimp only at hstep
    repeat' split at hstep
    all_goals cases hstep
    all_goals first | rfl | exact keyed_finish
  | _ => cases hstep

theorem keyed_dotStep (hh : h.keyed) (hstep : dotStep h parts c = some m') : m'.keyed := by
  unfold dotStep at hstep
  repeat' split at hstep
  all_goals cases hstep
  all_goals exact hh

theorem keyed_keyEndStep (hh : h.keyed) (hstep : keyEndStep h parts c = some m') : m'.keyed := by
  unfold keyEndStep at hstep
  split at hstep
  · cases hstep
    exact hh
  · split at hstep
    · cases hstep
      exact hh
    · cases h with
      | keyval =>
        dsimp only at hstep
        split at hstep <;> cases hstep
        rfl
      | header => cases hh
      | entry =>
        dsimp only at hstep
        split at hstep <;> cases hstep
        rfl

theorem keyed_valueStep (hstep : valueStep s c = some m') : m'.keyed := by
  unfold valueStep at hstep
  repeat' split at hstep
  all_goals cases hstep
  all_goals rfl

theorem keyed_step (hm : m.keyed) (hstep : step m c = some m') : m'.keyed := by
  cases m with
  | start => cases hm
  | comment m =>
    rw [step] at hstep
    split at hstep <;> cases hstep
    exact hm
  | bracket => cases hm
  | dot h parts => exact keyed_dotStep hm hstep
  | bare h parts part =>
    rw [step] at hstep
    split at hstep
    · cases hstep
      exact hm
    · exact keyed_keyEndStep hm hstep
  | basicKey h parts str =>
    rw [step] at hstep
    split at hstep <;> cases hstep
    all_goals exact hm
  | literalKey h parts part =>
    rw [step] at hstep
    repeat' split at hstep
    all_goals cases hstep
    all_goals exact hm
  | keyEnd h parts => exact keyed_keyEndStep hm hstep
  | close => cases hm
  | done item => exact keyed_endStep hm (by rwa [step] at hstep)
  | value s => exact keyed_valueStep hstep
  | word s t =>
    rw [step] at hstep
    repeat' split at hstep
    all_goals first | exact keyed_endStep keyed_finish hstep | cases hstep
    all_goals rfl
  | date s t =>
    rw [step] at hstep
    split at hstep
    · cases hstep
      rfl
    · exact keyed_endStep keyed_finish hstep
  | quotes s literal two =>
    cases literal with
    | true =>
      rw [step, literalStep] at hstep
      repeat' split at hstep
      all_goals first | exact keyed_endStep keyed_finish hstep | cases hstep
      all_goals first | rfl | exact keyed_finish
    | false =>
      rw [step, basicStep] at hstep
      repeat' split at hstep
      all_goals first | exact keyed_endStep keyed_finish hstep | cases hstep
      all_goals first | rfl | exact keyed_finish
  | basic s str =>
    rw [step, basicStep] at hstep
    split at hstep <;> cases hstep
    · exact keyed_finish
    · rfl
  | literal s =>
    rw [step, literalStep] at hstep
    repeat' split at hstep
    all_goals cases hstep
    all_goals first | rfl | exact keyed_finish
  | basics s seen =>
    rw [step] at hstep
    repeat' split at hstep
    all_goals first | exact keyed_endStep keyed_finish hstep | cases hstep
    all_goals rfl
  | escapes s str =>
    rw [step.eq_def] at hstep
    dsimp only [escapesStep] at hstep
    repeat' split at hstep
    all_goals cases hstep
    all_goals rfl
  | gap s =>
    rw [step] at hstep
    split at hstep <;> cases hstep
    rfl
  | literals s seen =>
    rw [step] at hstep
    repeat' split at hstep
    all_goals first | exact keyed_endStep keyed_finish hstep | cases hstep
    all_goals rfl
  | element s =>
    rw [step] at hstep
    repeat' split at hstep
    all_goals first | exact keyed_valueStep hstep | cases hstep
    all_goals first | rfl | exact keyed_finish
  | next s => exact keyed_endStep rfl (by rwa [step] at hstep)
  | brace s =>
    rw [step] at hstep
    split at hstep
    · cases hstep
      rfl
    · split at hstep
      · cases hstep
        exact keyed_finish
      · exact keyed_dotStep rfl hstep
  | field s => exact keyed_endStep rfl (by rwa [step] at hstep)

theorem keyed_foldlM (hm : m.keyed) (hfold : line.foldlM step m = some m') : m'.keyed := by
  induction line generalizing m with
  | nil =>
    cases hfold
    exact hm
  | cons c line ih =>
    rw [List.foldlM_cons] at hfold
    obtain ⟨n, hstep, hrest⟩ := Option.bind_eq_some_iff.mp hfold
    exact ih (keyed_step hm hstep) hrest

theorem keyed_of_resting (hm : Resting m) : m = .start ∨ m.keyed := by
  cases hm with
  | start => exact .inl rfl
  | element | next | basics | literals => exact .inr rfl

theorem settle_keyed (hm : m.keyed) (h : settle m = some (m', items)) : ∀ i ∈ items, i.isKeyval := by
  cases m with
  | done item =>
    cases h
    rw [List.forall_mem_singleton]
    exact hm
  | next s =>
    cases h
    exact fun i hi => absurd hi List.not_mem_nil
  | _ => cases h

theorem endLine_keyed (hm : m = .start ∨ m.keyed) (h : endLine m = some (m', items)) : ∀ i ∈ items, i.isKeyval := by
  induction m with
  | start =>
    cases h
    exact fun i hi => absurd hi List.not_mem_nil
  | comment m ih =>
    refine ih ?_ h
    cases m with
    | start => exact .inl rfl
    | _ => exact .inr (hm.resolve_left (by simp))
  | done => exact settle_keyed (hm.resolve_left (by simp)) h
  | word s t =>
    rw [endLine] at h
    split at h
    · exact settle_keyed keyed_finish h
    · cases h
  | date s t => exact settle_keyed keyed_finish h
  | quotes s literal two =>
    cases two with
    | true => exact settle_keyed keyed_finish h
    | false => cases h
  | basics s seen =>
    rw [endLine] at h
    split at h
    · exact settle_keyed keyed_finish h
    · cases h
      exact fun i hi => absurd hi List.not_mem_nil
  | literals s seen =>
    rw [endLine] at h
    split at h
    · exact settle_keyed keyed_finish h
    · cases h
      exact fun i hi => absurd hi List.not_mem_nil
  | escapes s str =>
    cases str with
    | escape =>
      cases h
      exact fun i hi => absurd hi List.not_mem_nil
    | plain | unicode => cases h
  | gap | element =>
    cases h
    exact fun i hi => absurd hi List.not_mem_nil
  | next s => exact settle_keyed rfl h
  | _ => cases h

/-- A line that no bracket begins is no header. -/
def Unbracketed (line : Text) : Prop := (line.dropWhile isWhitespace).head? ≠ some '['

theorem step_start (hb : isBlank c = false) (hne : c ≠ '[') (hstep : step .start c = some m') : m'.keyed := by
  rw [step, hb, if_neg Bool.false_ne_true, if_neg hne] at hstep
  split at hstep
  · cases hstep
    rfl
  · exact keyed_dotStep rfl hstep

theorem keyed_line (hm : Resting m) (hline : Unbracketed line) (hfold : line.foldlM step m = some m') :
    m' = .start ∨ m'.keyed := by
  induction line generalizing m with
  | nil =>
    cases hfold
    exact keyed_of_resting hm
  | cons c line ih =>
    rw [List.foldlM_cons] at hfold
    obtain ⟨n, hstep, hrest⟩ := Option.bind_eq_some_iff.mp hfold
    rcases keyed_of_resting hm with rfl | hkeyed
    · cases hc : isWhitespace c with
      | true =>
        rw [Unbracketed, List.dropWhile_cons, if_pos hc] at hline
        rw [step_whitespace hm hc hstep] at hrest
        exact ih hm hline hrest
      | false =>
        rw [Unbracketed, List.dropWhile_cons, hc, if_neg Bool.false_ne_true] at hline
        have hblank : isBlank c = false := by
          rw [isBlank, Bool.or_eq_false_iff, beq_eq_false_iff_ne, beq_eq_false_iff_ne]
          constructor
          · rintro rfl
            cases hc
          · rintro rfl
            cases hc
        have hne : c ≠ '[' := by
          rintro rfl
          exact hline rfl
        exact .inr (keyed_foldlM (step_start hblank hne hstep) hrest)
    · exact .inr (keyed_foldlM (keyed_step hkeyed hstep) hrest)

/-- Lines that no bracket begins give values to keys only. -/
theorem readLines_keyed (hm : Resting m) (hls : ∀ line ∈ ls, Unbracketed line)
    (h : readLines m ls = some (m', items)) : ∀ i ∈ items, i.isKeyval := by
  induction ls generalizing m items with
  | nil =>
    cases h
    exact fun i hi => absurd hi List.not_mem_nil
  | cons line ls ih =>
    obtain ⟨n, is, is', hline, hrest, rfl⟩ := readLines_cons_eq_some.mp h
    obtain ⟨k, hfold, hend⟩ := Option.bind_eq_some_iff.mp hline
    have hfirst := endLine_keyed (keyed_line hm (hls line List.mem_cons_self) hfold) hend
    have hsecond := ih (resting_readLine hline) (fun l hl => hls l (List.mem_cons_of_mem _ hl)) hrest
    rw [List.forall_mem_append]
    exact ⟨hfirst, hsecond⟩

end Keyed

section Quoted

/-- A text in double quotes, its quotes and backslashes escaped. -/
def quoted (t : Text) : Text :=
  '"' :: t.flatMap (fun c => if c = '\\' ∨ c = '"' then ['\\', c] else [c]) ++ ['"']

theorem basic_quoted {t acc : Text} (ht : ∀ c ∈ t, isControl c = false) :
    ∃ acc', (t.flatMap fun c => if c = '\\' ∨ c = '"' then ['\\', c] else [c]).foldlM step (.basic s (.plain acc)) =
      some (.basic s (.plain acc')) := by
  induction t generalizing acc with
  | nil => exact ⟨acc, rfl⟩
  | cons c t ih =>
    obtain ⟨hc, ht⟩ := List.forall_mem_cons.mp ht
    rw [List.flatMap_cons]
    by_cases hesc : c = '\\' ∨ c = '"'
    · obtain ⟨acc', hacc⟩ := @ih (acc ++ [c]) ht
      refine ⟨acc', ?_⟩
      rw [if_pos hesc, List.foldlM_append]
      have hstep : ['\\', c].foldlM step (.basic s (.plain acc)) = some (.basic s (.plain (acc ++ [c]))) := by
        rcases hesc with rfl | rfl <;> rfl
      rw [hstep]
      exact hacc
    · obtain ⟨acc', hacc⟩ := @ih (acc ++ [c]) ht
      refine ⟨acc', ?_⟩
      obtain ⟨hbackslash, hquote⟩ := not_or.mp hesc
      rw [if_neg hesc, List.singleton_append, List.foldlM_cons, step, basicStep, Str.step, if_neg hquote,
        if_neg hbackslash, hc, if_neg Bool.false_ne_true]
      exact hacc

theorem value_quoted {t : Text} (hne : t ≠ []) (ht : ∀ c ∈ t, isControl c = false) :
    (quoted t).foldlM step (.value s) = some s.finish := by
  have hfirst : ∀ c, c ≠ '"' → step (.quotes s false false) c = step (.basic s (.plain [])) c := by
    intro c hc
    rw [step, if_neg hc]
    rfl
  obtain ⟨c, t, rfl⟩ := List.exists_cons_of_ne_nil hne
  obtain ⟨acc, hacc⟩ := @basic_quoted s _ [] ht
  have hopen : ((c :: t).flatMap fun c => if c = '\\' ∨ c = '"' then ['\\', c] else [c]).foldlM step (.quotes s false false) =
      some (.basic s (.plain acc)) := by
    rw [← hacc, List.flatMap_cons]
    by_cases hesc : c = '\\' ∨ c = '"'
    · rw [if_pos hesc, List.cons_append, List.foldlM_cons, List.foldlM_cons, hfirst _ (by decide)]
    · rw [if_neg hesc, List.cons_append, List.foldlM_cons, List.foldlM_cons, hfirst _ (not_or.mp hesc).2]
  rw [quoted, List.cons_append, List.foldlM_cons]
  change (List.foldlM step (.quotes s false false) _) = _
  rw [List.foldlM_append, hopen]
  rfl

end Quoted

end Lib.Toml
