import Rootmode.ConnectedTools.CodexText

namespace Rootmode.ConnectedTools

open Lib Lib.Text

variable {ls before after table : List Text} {l a key : Text} {ep : Endpoint} {p : Text → Bool}

section First

/-- The first line of a kind stands in one place. -/
theorem first_unique {before' after' : List Text} {l' : Text} (h : before ++ l :: after = before' ++ l' :: after')
    (hl : p l = true) (hl' : p l' = true) (hbefore : ∀ x ∈ before, p x = false) (hbefore' : ∀ x ∈ before', p x = false) :
    before = before' ∧ l = l' ∧ after = after' := by
  induction before generalizing before' with
  | nil =>
    cases before' with
    | nil =>
      cases h
      exact ⟨rfl, rfl, rfl⟩
    | cons b before' =>
      cases h
      rw [hbefore' _ List.mem_cons_self] at hl
      cases hl
  | cons b before ih =>
    cases before' with
    | nil =>
      cases h
      rw [hbefore _ List.mem_cons_self] at hl'
      cases hl'
    | cons b' before' =>
      obtain ⟨rfl, htail⟩ := List.cons.inj h
      obtain ⟨rfl, rfl, rfl⟩ := ih htail (fun x hx => hbefore x (List.mem_cons_of_mem _ hx))
        fun x hx => hbefore' x (List.mem_cons_of_mem _ hx)
      exact ⟨rfl, rfl, rfl⟩

variable (hl : startsKey key l = true) (hbefore : ∀ x ∈ before, startsKey key x = false)

include hl hbefore

theorem setTopLevel_first (htop : top ls = before ++ l :: after) :
    setTopLevel ls key a = before ++ a :: after ++ rest ls := by
  rcases setTopLevel_cases ls key a with ⟨hnone, -⟩ | ⟨before', l', after', htop', hl', hbefore', hset⟩
  · rw [hnone l (htop ▸ List.mem_append_right _ List.mem_cons_self)] at hl
    cases hl
  · obtain ⟨rfl, rfl, rfl⟩ := first_unique (htop.symm.trans htop') hl hl' hbefore hbefore'
    exact hset

theorem removeTopLevel_first (htop : top ls = before ++ l :: after) :
    removeTopLevel ls key = before ++ after ++ rest ls := by
  rcases removeTopLevel_cases ls key with ⟨hnone, -⟩ | ⟨before', l', after', htop', hl', hbefore', hremove⟩
  · rw [hnone l (htop ▸ List.mem_append_right _ List.mem_cons_self)] at hl
    cases hl
  · obtain ⟨rfl, rfl, rfl⟩ := first_unique (htop.symm.trans htop') hl hl' hbefore hbefore'
    exact hremove

omit hl hbefore

/-- An assignment that is made already is left as it is. -/
theorem setTopLevel_self (htop : top ls = before ++ l :: after) (hl : startsKey key l = true)
    (hbefore : ∀ x ∈ before, startsKey key x = false) : setTopLevel ls key l = ls := by
  rw [setTopLevel_first hl hbefore htop, ← htop, top_append_rest]

theorem Headed.rest_eq (h : Headed after) : rest after = after := by
  have happ := top_append_rest after
  rwa [h.top_eq, List.nil_append] at happ

theorem removeProviderTable_first (hl : isProviderHeader l = true) (hbefore : ∀ x ∈ before, isProviderHeader x = false)
    (htable : ∀ x ∈ table, startsTable x = false) (hafter : Headed after) :
    removeProviderTable (before ++ l :: (table ++ after)) = before ++ after := by
  rcases removeProviderTable_cases (before ++ l :: (table ++ after)) with
    ⟨hnone, -⟩ | ⟨before', l', table', after', hls, hl', hbefore', htable', hafter', hremove⟩
  · rw [hnone l (List.mem_append_right _ List.mem_cons_self)] at hl
    cases hl
  · obtain ⟨rfl, rfl, hsplit⟩ := first_unique hls hl hl' hbefore hbefore'
    have hrest := congrArg rest hsplit
    rw [rest_append htable, rest_append htable', hafter.rest_eq, hafter'.rest_eq] at hrest
    rw [hremove, hrest]

end First

section Count

/-- A kind of lines that the providers' headers are of, and that brackets begin. -/
structure Bracketed (p : Text → Bool) : Prop where
  startsTable : ∀ l, p l = true → startsTable l = true
  header : ∀ l, isProviderHeader l = true → p l = true

theorem bracketed_startsTable : Bracketed startsTable := ⟨fun _ h => h, fun _ h => startsTable_of_header h⟩

theorem bracketed_header : Bracketed isProviderHeader := ⟨fun _ h => startsTable_of_header h, fun _ h => h⟩

theorem Bracketed.said (hp : Bracketed p) : ∀ l, p l = true → blank l = false :=
  fun l h => said_of_startsTable (hp.startsTable l h)

theorem Bracketed.countP_plain (hp : Bracketed p) (h : ∀ l ∈ ls, ConnectedTools.startsTable l = false) :
    ls.countP p = 0 := by
  rw [List.countP_eq_zero]
  intro l hl hpl
  have hplain := h l hl
  rw [hp.startsTable l hpl] at hplain
  cases hplain

theorem countP_top (hp : Bracketed p) (ls : List Text) : ls.countP p = (rest ls).countP p := by
  conv_lhs => rw [← top_append_rest ls]
  rw [List.countP_append, hp.countP_plain fun l hl => not_startsTable_of_mem_top hl, Nat.zero_add]

theorem not_startsTable_of_mem_append (h : top ls = before ++ l :: after) :
    (∀ x ∈ before, startsTable x = false) ∧ startsTable l = false ∧ ∀ x ∈ after, startsTable x = false := by
  have hall := fun x (hx : x ∈ top ls) => not_startsTable_of_mem_top hx
  rw [h] at hall
  refine ⟨fun x hx => hall x (List.mem_append_left _ hx), hall l (List.mem_append_right _ List.mem_cons_self), ?_⟩
  exact fun x hx => hall x (List.mem_append_right _ (List.mem_cons_of_mem _ hx))

/-- With the first table of the provider one header goes. -/
theorem countP_removeProviderTable (hp : Bracketed p) (ls : List Text) :
    (∀ l ∈ ls, isProviderHeader l = false) ∧ removeProviderTable ls = ls ∨
      (removeProviderTable ls).countP p + 1 = ls.countP p := by
  rcases removeProviderTable_cases ls with hnone | ⟨before, l, table, after, rfl, hl, -, htable, -, hremove⟩
  · exact .inl hnone
  · refine .inr ?_
    rw [hremove, List.countP_append, List.countP_append, List.countP_cons_of_pos (hp.header l hl),
      List.countP_append, hp.countP_plain htable]
    omega

theorem countP_setTopLevel (hp : Bracketed p) (ha : startsTable a = false) (ls : List Text) (key : Text) :
    (setTopLevel ls key a).countP p = ls.countP p := by
  have hplain : ∀ x, startsTable x = false → [x].countP p = 0 :=
    fun x hx => hp.countP_plain (List.forall_mem_singleton.mpr hx)
  rw [countP_top hp ls]
  rcases setTopLevel_cases ls key a with ⟨-, hset⟩ | ⟨before, l, after, htop, -, -, hset⟩
  · have htop : (top ls).countP p = 0 := hp.countP_plain fun l hl => not_startsTable_of_mem_top hl
    rw [hset, ← List.singleton_append, List.countP_append, List.countP_append, htop, hplain a ha]
    omega
  · obtain ⟨hbefore, -, hafter⟩ := not_startsTable_of_mem_append htop
    rw [hset, ← List.singleton_append, List.countP_append, List.countP_append, List.countP_append,
      hp.countP_plain hbefore, hplain a ha, hp.countP_plain hafter]
    omega

theorem countP_removeTopLevel (hp : Bracketed p) (ls : List Text) (key : Text) :
    (removeTopLevel ls key).countP p = ls.countP p := by
  rcases removeTopLevel_cases ls key with ⟨-, hsame⟩ | ⟨before, l, after, htop, -, -, hremove⟩
  · rw [hsame]
  · obtain ⟨hbefore, -, hafter⟩ := not_startsTable_of_mem_append htop
    rw [hremove, countP_top hp ls, List.countP_append, List.countP_append, hp.countP_plain hbefore,
      hp.countP_plain hafter]
    omega

end Count

section Tops

/-- Whether a line says something. -/
def speaks (line : Text) : Bool := !blank line

/-- How many lines of a kind stand before the first bracket. -/
def countTop (q : Text → Bool) (ls : List Text) : ℕ := (top ls).countP q

variable {q : Text → Bool}

theorem speaks_iff : speaks l = true ↔ blank l = false := by
  rw [speaks, Bool.not_eq_true']

theorem countP_speaks (h : blank l = false) (ls : List Text) : (l :: ls).countP speaks = ls.countP speaks + 1 :=
  List.countP_cons_of_pos (speaks_iff.mpr h)

theorem countP_blank (hq : ∀ l, q l = true → blank l = false) (h : ∀ l ∈ ls, blank l = true) : ls.countP q = 0 := by
  rw [List.countP_eq_zero]
  intro l hl hql
  have hblank := h l hl
  rw [hq l hql] at hblank
  cases hblank

theorem top_removeProviderTable (ls : List Text) : top (removeProviderTable ls) = top ls := by
  rcases removeProviderTable_cases ls with ⟨-, hsame⟩ | ⟨before, l, table, after, rfl, hl, -, -, hafter, hremove⟩
  · rw [hsame]
  · rw [hremove]
    have htable := startsTable_of_header hl
    by_cases hplain : ∀ x ∈ before, startsTable x = false
    · rw [top_append hplain, top_append hplain, hafter.top_eq, top_cons_of_startsTable htable]
    · push Not at hplain
      obtain ⟨x, hx, hstarts⟩ := hplain
      replace hstarts := Bool.eq_true_of_not_eq_false hstarts
      rw [top_append_of_startsTable hx hstarts, top_append_of_startsTable hx hstarts]

theorem top_plain_append (h : ∀ l ∈ before, startsTable l = false) (ls : List Text) : top (before ++ rest ls) = before := by
  rw [top_append h, (headed_rest ls).top_eq, List.append_nil]

theorem countTop_plain_append (h : ∀ l ∈ before, startsTable l = false) (ls : List Text) :
    countTop q (before ++ rest ls) = before.countP q := by
  rw [countTop, top_plain_append h]

theorem countTop_split (htop : top ls = before ++ l :: after) :
    countTop q ls = (before ++ after).countP q + [l].countP q := by
  rw [countTop, htop, ← List.singleton_append, List.countP_append, List.countP_append, List.countP_append]
  omega

/-- An assignment is one more, or takes the place of one. -/
theorem countTop_setTopLevel (ha : startsTable a = false) (ls : List Text) (key : Text) :
    (∀ l ∈ top ls, startsKey key l = false) ∧ countTop q (setTopLevel ls key a) = countTop q ls + [a].countP q ∨
      ∃ l ∈ top ls, startsKey key l = true ∧
        countTop q (setTopLevel ls key a) + [l].countP q = countTop q ls + [a].countP q := by
  rcases setTopLevel_cases ls key a with ⟨hnone, hset⟩ | ⟨before, l, after, htop, hl, -, hset⟩
  · have hplain : ∀ l ∈ top ls ++ [a], startsTable l = false :=
      List.forall_mem_append.mpr ⟨fun l hl => not_startsTable_of_mem_top hl, List.forall_mem_singleton.mpr ha⟩
    refine .inl ⟨hnone, ?_⟩
    rw [hset, List.append_cons, countTop_plain_append hplain, List.countP_append]
    rfl
  · obtain ⟨hbefore, -, hafter⟩ := not_startsTable_of_mem_append htop
    have hplain : ∀ x ∈ before ++ a :: after, startsTable x = false :=
      List.forall_mem_append.mpr ⟨hbefore, List.forall_mem_cons.mpr ⟨ha, hafter⟩⟩
    refine .inr ⟨l, htop ▸ List.mem_append_right _ List.mem_cons_self, hl, ?_⟩
    rw [hset, countTop_plain_append hplain, countTop_split htop, ← List.singleton_append, List.countP_append,
      List.countP_append, List.countP_append]
    omega

theorem countTop_removeTopLevel (ls : List Text) (key : Text) :
    (∀ l ∈ top ls, startsKey key l = false) ∨
      ∃ l ∈ top ls, startsKey key l = true ∧ countTop q (removeTopLevel ls key) + [l].countP q = countTop q ls := by
  rcases removeTopLevel_cases ls key with ⟨hnone, -⟩ | ⟨before, l, after, htop, hl, -, hremove⟩
  · exact .inl hnone
  · obtain ⟨hbefore, -, hafter⟩ := not_startsTable_of_mem_append htop
    refine .inr ⟨l, htop ▸ List.mem_append_right _ List.mem_cons_self, hl, ?_⟩
    rw [hremove, countTop_plain_append (List.forall_mem_append.mpr ⟨hbefore, hafter⟩), countTop_split htop]

/-- With an assignment no less is said than before. -/
theorem countTop_speaks_setTopLevel (ha : startsTable a = false) (hsaid : blank a = false) (ls : List Text) (key : Text) :
    countTop speaks ls ≤ countTop speaks (setTopLevel ls key a) := by
  have hone : [a].countP speaks = 1 := countP_speaks hsaid []
  rcases @countTop_setTopLevel a speaks ha ls key with ⟨-, hmore⟩ | ⟨l, -, -, hsame⟩
  · omega
  · have hmost : [l].countP speaks ≤ 1 := List.countP_le_length
    omega

theorem headed_nil : Headed [] := fun _ hl => by cases hl

variable (hq : ∀ l, q l = true → blank l = false)

include hq

/-- Blank lines, and what a bracket begins, add nothing. -/
theorem countTop_append {blanks : List Text} (hblanks : ∀ l ∈ blanks, blank l = true) (hafter : Headed after) :
    countTop q (before ++ (blanks ++ after)) = countTop q before := by
  unfold countTop
  have hplain : ∀ l ∈ blanks, startsTable l = false := by
    intro l hl
    rw [Bool.eq_false_iff]
    intro htable
    have hblank := hblanks l hl
    rw [said_of_startsTable htable] at hblank
    cases hblank
  by_cases hbefore : ∀ x ∈ before, startsTable x = false
  · have htop : top before = before := by
      have happ := @top_append before [] hbefore
      rwa [List.append_nil, show top [] = [] from rfl, List.append_nil] at happ
    rw [top_append hbefore, top_append hplain, hafter.top_eq, htop, List.append_nil, List.countP_append,
      countP_blank hq hblanks, Nat.add_zero]
  · push Not at hbefore
    obtain ⟨x, hx, hstarts⟩ := hbefore
    replace hstarts := Bool.eq_true_of_not_eq_false hstarts
    rw [top_append_of_startsTable hx hstarts]

theorem countTop_popBlank (ls : List Text) : countTop q (popBlank ls) = countTop q ls := by
  obtain ⟨blanks, hls, hblanks⟩ := popBlank_split ls
  have happ := @countTop_append (popBlank ls) [] q hq blanks hblanks headed_nil
  rw [List.append_nil, ← hls] at happ
  exact happ.symm

theorem countTop_popBlank_append (hafter : Headed after) (ls : List Text) :
    countTop q (popBlank ls ++ [] :: after) = countTop q ls := by
  have hone : ∀ l ∈ [([] : Text)], blank l = true := List.forall_mem_singleton.mpr rfl
  exact (countTop_append hq hone hafter).trans (countTop_popBlank hq ls)

end Tops

end Rootmode.ConnectedTools
