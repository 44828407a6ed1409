import Rootmode.ConnectedTools.CodexCounts

namespace Rootmode.ConnectedTools

open Lib Lib.Text

variable {ls before after table : List Text} {l a key : Text} {ep : Endpoint} {p : Text → Bool}

section Members

theorem removeProviderTable_sublist (ls : List Text) : (removeProviderTable ls).Sublist ls := by
  rcases removeProviderTable_cases ls with ⟨-, hsame⟩ | ⟨before, l, table, after, rfl, -, -, -, -, hremove⟩
  · rw [hsame]
  · rw [hremove]
    refine (List.Sublist.refl before).append (List.Sublist.cons l ?_)
    exact List.sublist_append_right table after

theorem mem_setTopLevel (h : l ∈ setTopLevel ls key a) : l ∈ ls ∨ l = a := by
  rcases setTopLevel_cases ls key a with ⟨-, hset⟩ | ⟨before, x, after, htop, -, -, hset⟩
  · rw [hset, List.mem_append, List.mem_cons] at h
    rcases h with hl | rfl | hl
    · exact .inl ((List.takeWhile_sublist _).mem hl)
    · exact .inr rfl
    · exact .inl ((List.dropWhile_sublist _).mem hl)
  · have hmem : ∀ y ∈ before ++ x :: after, y ∈ ls := fun y hy => (List.takeWhile_sublist _).mem (htop ▸ hy)
    rw [hset, List.mem_append, List.mem_append, List.mem_cons] at h
    rcases h with (hl | rfl | hl) | hl
    · exact .inl (hmem l (List.mem_append_left _ hl))
    · exact .inr rfl
    · exact .inl (hmem l (List.mem_append_right _ (List.mem_cons_of_mem _ hl)))
    · exact .inl ((List.dropWhile_sublist _).mem hl)

theorem removeTopLevel_sublist (ls : List Text) (key : Text) : (removeTopLevel ls key).Sublist ls := by
  rcases removeTopLevel_cases ls key with ⟨-, hsame⟩ | ⟨before, l, after, htop, -, -, hremove⟩
  · rw [hsame]
  · rw [hremove]
    conv_rhs => rw [← top_append_rest ls, htop]
    exact ((List.Sublist.refl before).append (List.Sublist.cons l (List.Sublist.refl after))).append
      (List.Sublist.refl _)

/-- Where an assignment comes to stand. -/
theorem setTopLevel_place (ls : List Text) (key a : Text) :
    ∃ u v, setTopLevel ls key a = u ++ a :: v ∧ (∀ x ∈ u, startsTable x = false) ∧ (∀ x ∈ u ++ v, x ∈ ls) ∧
      countTop speaks ls ≤ u.countP speaks + countTop speaks v + 1 := by
  rcases setTopLevel_cases ls key a with ⟨-, hset⟩ | ⟨before, l, after, htop, hl, -, hset⟩
  · refine ⟨top ls, rest ls, hset, fun x hx => not_startsTable_of_mem_top hx, ?_, ?_⟩
    · rw [top_append_rest]
      exact fun x hx => hx
    · rw [countTop]
      omega
  · obtain ⟨hbefore, -, hafter⟩ := not_startsTable_of_mem_append htop
    refine ⟨before, after ++ rest ls, by rw [hset, List.append_assoc, List.cons_append], hbefore, ?_, ?_⟩
    · intro x hx
      rw [← top_append_rest ls, htop]
      rcases List.mem_append.mp hx with hx | hx
      · exact List.mem_append_left _ (List.mem_append_left _ hx)
      · rcases List.mem_append.mp hx with hx | hx
        · exact List.mem_append_left _ (List.mem_append_right _ (List.mem_cons_of_mem _ hx))
        · exact List.mem_append_right _ hx
    · rw [countTop, countTop, htop, top_append hafter, (headed_rest ls).top_eq, List.append_nil, List.countP_append,
        countP_speaks (said_of_startsKey hl)]
      omega

end Members

section Table

theorem startsTable_assignment {c : Char} (hword : isWhitespace c = false) (hc : c ≠ '[') (v : Text) :
    startsTable (assignment (c :: key) v) = false := by
  have hkeep : ¬ isWhitespace c = true := by
    rw [hword]
    exact Bool.false_ne_true
  rw [Bool.eq_false_iff]
  intro h
  rw [startsTable_iff, assignment, List.append_assoc, List.cons_append, List.dropWhile_cons_of_neg hkeep,
    List.head?_cons] at h
  exact hc (Option.some.inj h)

/-- Below the provider's header there are no brackets. -/
theorem providerTable_eq (ep : Endpoint) : ∃ body, providerTable ep = providerHeader :: body ∧
    ∀ l ∈ body, startsTable l = false := by
  refine ⟨_, rfl, ?_⟩
  simp only [List.forall_mem_cons]
  refine ⟨startsTable_assignment (by decide) (by decide) _, startsTable_assignment (by decide) (by decide) _,
    by decide, startsTable_assignment (by decide) (by decide) _, List.forall_mem_nil _⟩

theorem isProviderHeader_providerHeader : isProviderHeader providerHeader = true := by decide

theorem headed_providerTable (ep : Endpoint) : Headed (providerTable ep) := by
  intro l hl
  cases hl
  exact startsTable_of_header isProviderHeader_providerHeader

theorem countP_providerTable (hp : Bracketed p) (ep : Endpoint) : (providerTable ep).countP p = 1 := by
  obtain ⟨body, htable, hbody⟩ := providerTable_eq ep
  rw [htable, List.countP_cons_of_pos (hp.header _ isProviderHeader_providerHeader), hp.countP_plain hbody]

theorem clean_providerLine : Clean providerLine := ⟨by decide, by decide⟩

theorem startsTable_providerLine : startsTable providerLine = false := by decide

theorem startsTable_modelLine (ep : Endpoint) : startsTable (modelLine ep) = false :=
  startsTable_assignment (by decide) (by decide) ep.model

theorem getLast?_modelLine (ep : Endpoint) : (modelLine ep).getLast? = some '"' := by
  rw [modelLine, assignment, tomlString, ← List.append_assoc, List.getLast?_concat]

end Table

section Break

/-- A model's name of several lines comes back as several lines that say something. -/
theorem said_pieces (h : '\n' ∈ modelLine ep) : 2 ≤ (reread (modelLine ep)).countP speaks := by
  obtain ⟨a, b, hsplit, ha⟩ := List.eq_append_cons_of_mem h
  have hfirst : blank (chomp a) = false := by
    rw [Bool.eq_false_iff, Ne, blank_iff]
    intro hblank
    have hmem : 'm' ∈ chomp a := by
      cases a with
      | nil => cases hsplit
      | cons c a =>
        obtain rfl : 'm' = c := (List.cons.inj hsplit).1
        rcases chomp_cases ('m' :: a) with hsame | hcut
        · rw [hsame]
          exact List.mem_cons_self
        · cases hchomp : chomp ('m' :: a) with
          | nil =>
            rw [hchomp] at hcut
            cases hcut
          | cons d t =>
            rw [hchomp] at hcut
            rw [(List.cons.inj hcut).1]
            exact List.mem_cons_self
    exact absurd (hblank 'm' hmem) (by decide)
  have hquote : '"' ∈ b := by
    have hlast := getLast?_modelLine ep
    rw [hsplit, List.getLast?_append, List.getLast?_cons] at hlast
    cases hb : b.getLast? with
    | none =>
      rw [hb] at hlast
      cases hlast
    | some c =>
      rw [hb] at hlast
      cases hlast
      exact List.mem_of_getLast? hb
  have hsecond : ∃ l ∈ reread b, blank l = false := by
    have hword : ∀ c ∈ ['"'], isWhitespace c = false := List.forall_mem_singleton.mpr (by decide)
    have hinfix : ['"'] <:+: b ++ ['\n'] :=
      (List.singleton_infix_iff _ _).mpr (List.mem_append_left _ hquote)
    obtain ⟨l, hl, hin⟩ := (infix_lines hword (List.cons_ne_nil _ _)).mpr hinfix
    refine ⟨l, hl, ?_⟩
    rw [Bool.eq_false_iff, Ne, blank_iff]
    intro hblank
    exact absurd (hblank '"' ((List.singleton_infix_iff _ _).mp hin)) (by decide)
  have hsome : 0 < (reread b).countP speaks := by
    rw [List.countP_pos_iff]
    obtain ⟨l, hl, hsaid⟩ := hsecond
    exact ⟨l, hl, speaks_iff.mpr hsaid⟩
  rw [hsplit, reread_break ha, countP_speaks hfirst]
  omega

variable {R : List Text}

/-- If connecting again changes nothing, the model's name is one line. -/
theorem modelLine_single (hR : ∀ l ∈ R, Clean l) (hheader : ∃ l ∈ R, isProviderHeader l = true)
    (htable : ∀ l ∈ providerTable ep, Clean l) (hagain : relines (connectLines ep R) = R) : '\n' ∉ modelLine ep := by
  intro hbreak
  obtain ⟨u, v, hset, hu, hmem, hsaid⟩ :=
    setTopLevel_place (setTopLevel (removeProviderTable R) modelProviderKey providerLine) modelKey (modelLine ep)
  have hclean : ∀ x ∈ u ++ v, Clean x := by
    intro x hx
    rcases mem_setTopLevel (hmem x hx) with hold | rfl
    · exact hR x ((removeProviderTable_sublist R).mem hold)
    · exact clean_providerLine
  obtain ⟨hcleanu, hcleanv⟩ := List.forall_mem_append.mp hclean
  have hcleanrest : ∀ x ∈ popBlank v ++ [] :: providerTable ep, Clean x := by
    refine List.forall_mem_append.mpr ⟨fun x hx => hcleanv x ((popBlank_sublist v).mem hx), ?_⟩
    exact List.forall_mem_cons.mpr ⟨⟨List.not_mem_nil, rfl⟩, htable⟩
  have hmodel : blank (modelLine ep) = false := said_of_startsKey (startsKey_modelLine ep)
  have hlines : connectLines ep R = u ++ modelLine ep :: (popBlank v ++ [] :: providerTable ep) := by
    rw [connectLines_eq, hset, popBlank_append_said hmodel, List.append_assoc, List.cons_append]
  rw [hlines, relines_append, relines_cons, relines_clean hcleanu, relines_clean hcleanrest] at hagain
  -- the brackets are as many as before, so that the name's lines have none
  have hbrackets : (reread (modelLine ep)).countP startsTable = 0 := by
    have hcount := congrArg (List.countP startsTable) hagain
    have hremove := (countP_removeProviderTable bracketed_startsTable R).resolve_left (by
      rintro ⟨hnone, -⟩
      obtain ⟨l, hl, hyes⟩ := hheader
      rw [hnone l hl] at hyes
      cases hyes)
    have hprovider := countP_setTopLevel bracketed_startsTable startsTable_providerLine (removeProviderTable R)
      modelProviderKey
    have hwhole := countP_setTopLevel bracketed_startsTable (startsTable_modelLine ep)
      (setTopLevel (removeProviderTable R) modelProviderKey providerLine) modelKey
    rw [hset, List.countP_append, bracketed_startsTable.countP_plain hu,
      List.countP_cons_of_neg (by rw [startsTable_modelLine]; exact Bool.false_ne_true)] at hwhole
    rw [List.countP_append, List.countP_append, List.countP_append, bracketed_startsTable.countP_plain hu,
      countP_popBlank bracketed_startsTable.said,
      List.countP_cons_of_neg (show ¬ startsTable [] = true from Bool.false_ne_true),
      countP_providerTable bracketed_startsTable] at hcount
    omega
  have hplain : ∀ x ∈ u ++ reread (modelLine ep), startsTable x = false := by
    refine List.forall_mem_append.mpr ⟨hu, fun x hx => ?_⟩
    exact Bool.eq_false_of_not_eq_true (List.countP_eq_zero.mp hbrackets x hx)
  -- but before the first bracket there is more to read than before
  have htop := congrArg (countTop speaks) hagain
  have hmore := countTop_speaks_setTopLevel startsTable_providerLine (said_of_startsKey startsKey_providerLine)
    (removeProviderTable R) modelProviderKey
  rw [← List.append_assoc, countTop, top_append hplain, List.countP_append, List.countP_append] at htop
  have hrest : countTop speaks (popBlank v ++ [] :: providerTable ep) = countTop speaks v :=
    countTop_popBlank_append (fun _ => speaks_iff.mp) (headed_providerTable ep) v
  rw [countTop] at hrest
  have hsame : countTop speaks (removeProviderTable R) = countTop speaks R := by
    rw [countTop, countTop, top_removeProviderTable]
  have hpieces := said_pieces hbreak
  omega

end Break

/-- Of a file that is restored: it has no table of the provider and names no provider, and the first model it
names is the one that is asked for. -/
structure Kept (ep : Endpoint) (ls : List Text) : Prop where
  header : ∀ l ∈ ls, isProviderHeader l = false
  provider : ∀ l ∈ top ls, startsKey modelProviderKey l = false
  model : ∃ before after, top ls = before ++ modelLine ep :: after ∧ ∀ l ∈ before, startsKey modelKey l = false

section Kept

/-- With the provider named before the first table. -/
def named (ls : List Text) : List Text := top ls ++ providerLine :: rest ls

theorem top_named (ls : List Text) : top (named ls) = top ls ++ [providerLine] := by
  have hplain : ∀ l ∈ top ls ++ [providerLine], startsTable l = false :=
    List.forall_mem_append.mpr ⟨fun l hl => not_startsTable_of_mem_top hl,
      List.forall_mem_singleton.mpr startsTable_providerLine⟩
  rw [named, ← List.singleton_append, ← List.append_assoc, top_append hplain, (headed_rest ls).top_eq, List.append_nil]

theorem popBlank_named (ls : List Text) : popBlank (named ls) = top ls ++ providerLine :: popBlank (rest ls) :=
  popBlank_append_said (said_of_startsKey startsKey_providerLine) _

theorem removeProviderTable_none (h : ∀ l ∈ ls, isProviderHeader l = false) : removeProviderTable ls = ls := by
  rcases removeProviderTable_cases ls with ⟨-, hsame⟩ | ⟨before, l, table, after, rfl, hl, -⟩
  · exact hsame
  · rw [h l (List.mem_append_right _ List.mem_cons_self)] at hl
    cases hl

theorem setTopLevel_none (h : ∀ l ∈ top ls, startsKey key l = false) : setTopLevel ls key a = top ls ++ a :: rest ls := by
  rcases setTopLevel_cases ls key a with ⟨-, hset⟩ | ⟨before, l, after, htop, hl, -, -⟩
  · exact hset
  · rw [h l (htop ▸ List.mem_append_right _ List.mem_cons_self)] at hl
    cases hl

/-- Where the provider's table is taken out and the line that names the provider. -/
theorem disconnect_named {t r : List Text} (hplain : ∀ l ∈ t, startsTable l = false)
    (hprovider : ∀ l ∈ t, startsKey modelProviderKey l = false)
    (hheader : ∀ l ∈ t ++ providerLine :: r, isProviderHeader l = false) :
    removeProviderTable (popBlank (t ++ providerLine :: r) ++ [] :: providerTable ep) =
        t ++ providerLine :: (popBlank r ++ [[]]) ∧
      disconnectLines (popBlank (t ++ providerLine :: r) ++ [] :: providerTable ep) = t ++ (popBlank r ++ [[]]) := by
  obtain ⟨body, htable, hbody⟩ := providerTable_eq ep
  have hbefore : ∀ l ∈ popBlank (t ++ providerLine :: r) ++ [[]], isProviderHeader l = false :=
    List.forall_mem_append.mpr ⟨fun l hl => hheader l ((popBlank_sublist _).mem hl),
      List.forall_mem_singleton.mpr (by decide)⟩
  have hsplit : popBlank (t ++ providerLine :: r) ++ [] :: providerTable ep =
      (popBlank (t ++ providerLine :: r) ++ [[]]) ++ providerHeader :: (body ++ []) := by
    rw [htable, List.append_nil, List.append_assoc]
    rfl
  have hremoved : removeProviderTable (popBlank (t ++ providerLine :: r) ++ [] :: providerTable ep) =
      t ++ providerLine :: (popBlank r ++ [[]]) := by
    rw [hsplit, removeProviderTable_first isProviderHeader_providerHeader hbefore hbody headed_nil, List.append_nil,
      popBlank_append_said (said_of_startsKey startsKey_providerLine), List.append_assoc, List.cons_append]
  refine ⟨hremoved, ?_⟩
  have hall : ∀ l ∈ t ++ [providerLine], startsTable l = false :=
    List.forall_mem_append.mpr ⟨hplain, List.forall_mem_singleton.mpr startsTable_providerLine⟩
  have htop : top (t ++ providerLine :: (popBlank r ++ [[]])) = t ++ providerLine :: top (popBlank r ++ [[]]) := by
    rw [← List.singleton_append, ← List.append_assoc, top_append hall, List.append_assoc, List.singleton_append]
  have hrest := top_append_rest (t ++ providerLine :: (popBlank r ++ [[]]))
  rw [htop, List.append_assoc, List.append_cancel_left_eq, List.cons_append, List.cons_inj_right] at hrest
  rw [disconnectLines, hremoved, removeTopLevel_first startsKey_providerLine hprovider htop, List.append_assoc, hrest]

namespace Kept

theorem connectLines_eq (h : Kept ep ls) :
    connectLines ep ls = popBlank (named ls) ++ [] :: providerTable ep := by
  obtain ⟨before, after, htop, hbefore⟩ := h.model
  have hmodel : top (named ls) = before ++ modelLine ep :: (after ++ [providerLine]) := by
    rw [top_named, htop, List.append_assoc, List.cons_append]
  rw [ConnectedTools.connectLines_eq, removeProviderTable_none h.header, setTopLevel_none h.provider]
  exact congrArg (fun ls => popBlank ls ++ [] :: providerTable ep)
    (setTopLevel_self hmodel (startsKey_modelLine ep) hbefore)

theorem header_named (h : Kept ep ls) : ∀ l ∈ named ls, isProviderHeader l = false := by
  intro l hl
  rw [named, List.mem_append, List.mem_cons] at hl
  rcases hl with hold | rfl | hold
  · exact h.header l ((List.takeWhile_sublist _).mem hold)
  · exact not_header_of_not_startsTable startsTable_providerLine
  · exact h.header l ((List.dropWhile_sublist _).mem hold)

theorem disconnect (h : Kept ep ls) : removeProviderTable (connectLines ep ls) =
      top ls ++ providerLine :: (popBlank (rest ls) ++ [[]]) ∧
    disconnectLines (connectLines ep ls) = top ls ++ (popBlank (rest ls) ++ [[]]) := by
  rw [h.connectLines_eq]
  exact disconnect_named (fun l hl => not_startsTable_of_mem_top hl) h.provider h.header_named

/-- Connecting again changes nothing. -/
theorem again (h : Kept ep ls) : connectLines ep (connectLines ep ls) = connectLines ep ls := by
  obtain ⟨before, after, hmodel, hbefore⟩ := h.model
  have hplain : ∀ l ∈ top ls ++ [providerLine], startsTable l = false :=
    List.forall_mem_append.mpr ⟨fun l hl => not_startsTable_of_mem_top hl,
      List.forall_mem_singleton.mpr startsTable_providerLine⟩
  have htop : top (top ls ++ providerLine :: (popBlank (rest ls) ++ [[]])) =
      top ls ++ providerLine :: top (popBlank (rest ls) ++ [[]]) := by
    rw [← List.singleton_append, ← List.append_assoc, top_append hplain, List.append_assoc, List.singleton_append]
  have hmodel' : top (top ls ++ providerLine :: (popBlank (rest ls) ++ [[]])) =
      before ++ modelLine ep :: (after ++ providerLine :: top (popBlank (rest ls) ++ [[]])) := by
    rw [htop, hmodel, List.append_assoc, List.cons_append]
  have hone : ∀ l ∈ [([] : Text)], blank l = true := List.forall_mem_singleton.mpr rfl
  rw [ConnectedTools.connectLines_eq, h.disconnect.1, setTopLevel_self htop startsKey_providerLine h.provider,
    setTopLevel_self hmodel' (startsKey_modelLine ep) hbefore, h.connectLines_eq, popBlank_named, ← List.cons_append,
    ← List.append_assoc, popBlank_append_blank hone, ← popBlank_named, popBlank_popBlank]

/-- Disconnecting gives the file back, blank lines at its end apart. -/
theorem restored (h : Kept ep ls) : popBlank (disconnectLines (connectLines ep ls)) = popBlank ls := by
  have hone : ∀ l ∈ [([] : Text)], blank l = true := List.forall_mem_singleton.mpr rfl
  obtain ⟨blanks, hls, hblanks⟩ := popBlank_split (rest ls)
  rw [h.disconnect.2, ← List.append_assoc, popBlank_append_blank hone]
  conv_rhs => rw [← top_append_rest ls, hls, ← List.append_assoc, popBlank_append_blank hblanks]

end Kept

end Kept

section Restored

theorem header_of_restored (h : popBlank (disconnectLines (connectLines ep ls)) = popBlank ls) :
    ∀ l ∈ ls, isProviderHeader l = false := by
  have hp := bracketed_header
  have hwhole := countP_setTopLevel hp (startsTable_modelLine ep)
    (setTopLevel (removeProviderTable ls) modelProviderKey providerLine) modelKey
  rw [countP_setTopLevel hp startsTable_providerLine] at hwhole
  have hconnect : (connectLines ep ls).countP isProviderHeader = (removeProviderTable ls).countP isProviderHeader + 1 := by
    rw [ConnectedTools.connectLines_eq, List.countP_append, countP_popBlank hp.said, hwhole,
      List.countP_cons_of_neg (show ¬ isProviderHeader [] = true by decide), countP_providerTable hp]
  have hback := congrArg (List.countP isProviderHeader) h
  rw [countP_popBlank hp.said, countP_popBlank hp.said, disconnectLines, countP_removeTopLevel hp] at hback
  rcases countP_removeProviderTable hp ls with ⟨hnone, -⟩ | hfewer
  · exact hnone
  · rcases countP_removeProviderTable hp (connectLines ep ls) with ⟨hnone, -⟩ | hfewer'
    · have hzero : (connectLines ep ls).countP isProviderHeader = 0 :=
        List.countP_eq_zero.mpr fun l hl => Bool.eq_false_iff.mp (hnone l hl)
      omega
    · omega

theorem not_startsKey_modelLine (ep : Endpoint) : startsKey modelProviderKey (modelLine ep) = false :=
  not_startsKey_both (startsKey_modelLine ep)

/-- Disconnecting takes the file's own provider, if it names one. -/
theorem provider_of_restored (hheader : ∀ l ∈ ls, isProviderHeader l = false)
    (h : popBlank (disconnectLines (connectLines ep ls)) = popBlank ls) :
    ∀ l ∈ top ls, startsKey modelProviderKey l = false := by
  have hq : ∀ l, startsKey modelProviderKey l = true → blank l = false := fun l hl => said_of_startsKey hl
  have hone : ∀ l, startsKey modelProviderKey l = true → [l].countP (startsKey modelProviderKey) = 1 :=
    fun l hl => List.countP_cons_of_pos hl
  have hnone : ∀ l, startsKey modelProviderKey l = false → [l].countP (startsKey modelProviderKey) = 0 :=
    fun l hl => List.countP_cons_of_neg (Bool.eq_false_iff.mp hl)
  rcases @countTop_setTopLevel providerLine (startsKey modelProviderKey) startsTable_providerLine ls modelProviderKey with
    ⟨hnot, -⟩ | ⟨l, -, hl, hfirst⟩
  · exact hnot
  rw [hone l hl, hone _ startsKey_providerLine] at hfirst
  have hsecond : countTop (startsKey modelProviderKey)
      (setTopLevel (setTopLevel ls modelProviderKey providerLine) modelKey (modelLine ep)) =
        countTop (startsKey modelProviderKey) (setTopLevel ls modelProviderKey providerLine) := by
    rcases @countTop_setTopLevel (modelLine ep) (startsKey modelProviderKey) (startsTable_modelLine ep)
      (setTopLevel ls modelProviderKey providerLine) modelKey with ⟨-, hmore⟩ | ⟨l', -, hl', hsame⟩
    · rw [hmore, hnone _ (not_startsKey_modelLine ep), Nat.add_zero]
    · rw [hnone _ (not_startsKey_modelLine ep), hnone _ (not_startsKey_both hl')] at hsame
      exact hsame
  have hconnect : countTop (startsKey modelProviderKey) (removeProviderTable (connectLines ep ls)) =
      countTop (startsKey modelProviderKey) ls := by
    rw [countTop, top_removeProviderTable, connectLines_eq, removeProviderTable_none hheader]
    have happ := countTop_popBlank_append hq (headed_providerTable ep)
      (setTopLevel (setTopLevel ls modelProviderKey providerLine) modelKey (modelLine ep))
    rw [countTop] at happ
    omega
  have hback := congrArg (countTop (startsKey modelProviderKey)) h
  rw [countTop_popBlank hq, countTop_popBlank hq, disconnectLines] at hback
  rcases @countTop_removeTopLevel (startsKey modelProviderKey) (removeProviderTable (connectLines ep ls)) modelProviderKey with
    hnot | ⟨x, -, hx, hfewer⟩
  · have hzero : countTop (startsKey modelProviderKey) (removeProviderTable (connectLines ep ls)) = 0 :=
      List.countP_eq_zero.mpr fun x hx => Bool.eq_false_iff.mp (hnot x hx)
    rw [hconnect] at hzero
    exact fun x hx => Bool.eq_false_of_not_eq_true (List.countP_eq_zero.mp hzero x hx)
  · rw [hone x hx] at hfewer
    omega

theorem named_of_provider (hprovider : ∀ l ∈ top ls, startsKey modelProviderKey l = false) :
    setTopLevel ls modelProviderKey providerLine = named ls := setTopLevel_none hprovider

theorem rest_named (ls : List Text) : rest (named ls) = rest ls := by
  have hsplit := top_append_rest (named ls)
  rw [top_named, List.append_assoc, List.singleton_append] at hsplit
  exact (List.cons.inj (List.append_cancel_left hsplit)).2

/-- The model's own line stays as it was only where it is the one that is asked for. -/
theorem model_of_restored (hheader : ∀ l ∈ ls, isProviderHeader l = false)
    (hprovider : ∀ l ∈ top ls, startsKey modelProviderKey l = false)
    (h : popBlank (disconnectLines (connectLines ep ls)) = popBlank ls) :
    ∃ before after, top ls = before ++ modelLine ep :: after ∧ ∀ l ∈ before, startsKey modelKey l = false := by
  have hplaintop : ∀ l ∈ top ls, startsTable l = false := fun l hl => not_startsTable_of_mem_top hl
  have hrest : ∀ l ∈ rest ls, isProviderHeader l = false := fun l hl => hheader l ((List.dropWhile_sublist _).mem hl)
  have hmodel : isProviderHeader (modelLine ep) = false := not_header_of_not_startsTable (startsTable_modelLine ep)
  have hproviderLine : isProviderHeader providerLine = false := not_header_of_not_startsTable startsTable_providerLine
  have hsaid : blank (modelLine ep) = false := said_of_startsKey (startsKey_modelLine ep)
  rw [connectLines_eq, removeProviderTable_none hheader, named_of_provider hprovider] at h
  rcases setTopLevel_cases (named ls) modelKey (modelLine ep) with
    ⟨-, hset⟩ | ⟨before, l, after, htop, hl, hbefore, hset⟩
  · -- the model's line is one more, and is left behind
    have hall : ∀ l ∈ top ls ++ providerLine :: modelLine ep :: rest ls, isProviderHeader l = false :=
      List.forall_mem_append.mpr ⟨fun l hl => not_header_of_not_startsTable (hplaintop l hl),
        List.forall_mem_cons.mpr ⟨hproviderLine, List.forall_mem_cons.mpr ⟨hmodel, hrest⟩⟩⟩
    have hlines : setTopLevel (named ls) modelKey (modelLine ep) = top ls ++ providerLine :: modelLine ep :: rest ls := by
      rw [hset, top_named, rest_named, List.append_assoc, List.singleton_append]
    rw [hlines, (disconnect_named hplaintop hprovider hall).2] at h
    have hcount := congrArg (List.countP speaks) h
    have hspeaks : ∀ l, speaks l = true → blank l = false := fun _ => speaks_iff.mp
    have hls : ls.countP speaks = (top ls).countP speaks + (rest ls).countP speaks := by
      conv_lhs => rw [← top_append_rest ls]
      exact List.countP_append
    rw [countP_popBlank hspeaks, countP_popBlank hspeaks, List.countP_append, List.countP_append,
      countP_popBlank hspeaks, countP_speaks hsaid, hls] at hcount
    omega
  · rw [top_named] at htop
    rcases List.eq_nil_or_concat after with rfl | ⟨after, x, rfl⟩
    · obtain ⟨-, hlast⟩ := List.append_inj' htop rfl
      obtain ⟨rfl, -⟩ := List.cons.inj hlast
      rw [not_startsKey_providerLine] at hl
      cases hl
    · rw [List.concat_eq_append, ← List.cons_append, ← List.append_assoc] at htop
      obtain ⟨hinner, hlast⟩ := List.append_inj' htop rfl
      obtain ⟨rfl, -⟩ := List.cons.inj hlast
      have hmem : ∀ x ∈ before ++ after, x ∈ top ls := by
        intro x hx
        rw [hinner]
        exact (List.Sublist.append (List.Sublist.refl before) (List.sublist_cons_self l after)).mem hx
      obtain ⟨hmembefore, hmemafter⟩ := List.forall_mem_append.mp hmem
      have hlift : ∀ p : Text → Bool, (∀ x ∈ top ls, p x = false) → p (modelLine ep) = false →
          ∀ x ∈ before ++ modelLine ep :: after, p x = false := fun p hold hnew =>
        List.forall_mem_append.mpr ⟨fun x hx => hold x (hmembefore x hx),
          List.forall_mem_cons.mpr ⟨hnew, fun x hx => hold x (hmemafter x hx)⟩⟩
      have hplain := hlift startsTable hplaintop (startsTable_modelLine ep)
      have hkeys := hlift (startsKey modelProviderKey) hprovider (not_startsKey_modelLine ep)
      have hall : ∀ x ∈ (before ++ modelLine ep :: after) ++ providerLine :: rest ls, isProviderHeader x = false :=
        List.forall_mem_append.mpr ⟨fun x hx => not_header_of_not_startsTable (hplain x hx),
          List.forall_mem_cons.mpr ⟨hproviderLine, hrest⟩⟩
      have hlines : setTopLevel (named ls) modelKey (modelLine ep) =
          (before ++ modelLine ep :: after) ++ providerLine :: rest ls := by
        rw [hset, rest_named, List.concat_eq_append]
        simp only [List.append_assoc, List.cons_append, List.nil_append]
      rw [hlines, (disconnect_named hplain hkeys hall).2] at h
      have hls : ls = before ++ l :: (after ++ rest ls) := by
        conv_lhs => rw [← top_append_rest ls, hinner, List.append_assoc, List.cons_append]
      conv_rhs at h => rw [hls, popBlank_append_said (said_of_startsKey hl)]
      rw [List.append_assoc, List.cons_append, popBlank_append_said hsaid] at h
      obtain ⟨heq, -⟩ := List.cons.inj (List.append_cancel_left h)
      exact ⟨before, after, heq ▸ hinner, hbefore⟩

theorem kept_of_restored (h : popBlank (disconnectLines (connectLines ep ls)) = popBlank ls) : Kept ep ls :=
  have hheader := header_of_restored h
  have hprovider := provider_of_restored hheader h
  ⟨hheader, hprovider, model_of_restored hheader hprovider h⟩

end Restored

end Rootmode.ConnectedTools
