import Rootmode.Desktop.Routing

namespace Rootmode.Desktop

open Lib Lib.Text

namespace Menu

variable {p : ModelOption → Bool} {f : ModelOption → ModelOption} {l : List ModelOption}
  {rng : Rng} {menu : Menu} {o c existing : ModelOption} {seen : List ModelOption}

section ModifyFirst

theorem modifyFirst_of_find? (h : l.find? p = some o) :
    ∃ before after, l = before ++ o :: after ∧ modifyFirst p f l = before ++ f o :: after := by
  induction l with
  | nil => cases h
  | cons a l ih =>
    by_cases ha : p a
    · rw [List.find?_cons_of_pos ha] at h
      cases h
      exact ⟨[], l, rfl, by simp [modifyFirst, ha]⟩
    · rw [List.find?_cons_of_neg ha] at h
      obtain ⟨before, after, hl, hmod⟩ := ih h
      exact ⟨a :: before, after, by rw [hl]; rfl, by simp [modifyFirst, ha, hmod]⟩

end ModifyFirst

/-- The menu tells what has been seen: every model once, at the least price seen, as someone offered
it, counting what was seen of it. -/
structure Tells (seen menu : List ModelOption) : Prop where
  once : (menu.map (·.model)).Nodup
  listed : ∀ c ∈ seen, c.model ∈ menu.map (·.model)
  least : ∀ o ∈ menu, ∀ c ∈ seen, c.model = o.model → o.price ≤ c.price
  held : ∀ o ∈ menu, ∃ c ∈ seen, o = { c with providers := o.providers }
  counted : ∀ o ∈ menu, o.providers = seen.countP fun c => c.model = o.model

/-- Only who is no dearer takes a place, and only who is no cheaper is turned away. -/
theorem challenge_price (rng : Rng) (c existing : ModelOption) (menu : Menu) :
    if (menu.challenge rng c existing).1 then c.price ≤ existing.price else existing.price ≤ c.price := by
  unfold challenge
  split
  · next hlt => exact hlt.le
  · split
    · next heq =>
      dsimp only
      split
      · exact heq.le
      · exact heq.ge
    · next hnlt _ => exact not_lt.mp hnlt

/-- What a step makes of the menu. -/
theorem add_cases (rng : Rng) (menu : Menu) (c : ModelOption) :
    (c.model ∉ menu.options.map (·.model) ∧ (menu.add rng c).options = menu.options ++ [c]) ∨
    ∃ before o after now, menu.options = before ++ o :: after ∧
      (menu.add rng c).options = before ++ now :: after ∧ o.model = c.model ∧
      ((now = { c with providers := o.providers + 1 } ∧ c.price ≤ o.price) ∨
        (now = { o with providers := o.providers + 1 } ∧ o.price ≤ c.price)) := by
  cases hfound : menu.options.find? fun o => o.model == c.model with
  | some o =>
    right
    have hname : o.model = c.model := by simpa using List.find?_some hfound
    have hprice := challenge_price rng c o menu
    cases htake : (menu.challenge rng c o).1 with
    | true =>
      obtain ⟨before, after, hl, hmod⟩ := modifyFirst_of_find?
        (f := fun _ => { c with providers := o.providers + 1 }) hfound
      rw [htake] at hprice
      refine ⟨before, o, after, _, hl, ?_, hname, .inl ⟨rfl, hprice⟩⟩
      simp only [add, hfound, htake, if_true]
      exact hmod
    | false =>
      obtain ⟨before, after, hl, hmod⟩ := modifyFirst_of_find?
        (f := fun _ => { o with providers := o.providers + 1 }) hfound
      rw [htake] at hprice
      refine ⟨before, o, after, _, hl, ?_, hname, .inr ⟨rfl, hprice⟩⟩
      simp only [add, hfound, htake]
      exact hmod
  | none =>
    left
    refine ⟨?_, by simp only [add, hfound]⟩
    intro hmem
    obtain ⟨o, ho, hname⟩ := List.mem_map.mp hmem
    exact List.find?_eq_none.mp hfound o ho (by simpa using hname)

theorem Tells.nil : Tells [] [] := ⟨.nil, by simp, by simp, by simp, by simp⟩

/-- Names apart, one entry of a list that has no name twice is counted alone. -/
theorem other_name {before after : List ModelOption} {names : List Text}
    (h : names = (before ++ o :: after).map (·.model)) (hnodup : names.Nodup) :
    ∀ r ∈ before ++ after, r.model ≠ o.model := by
  subst h
  simp only [List.map_append, List.map_cons, List.nodup_append, List.nodup_cons] at hnodup
  obtain ⟨-, ⟨hafter, -⟩, hapart⟩ := hnodup
  intro r hr
  rcases List.mem_append.mp hr with hb | ha
  · exact hapart _ (List.mem_map_of_mem hb) _ (.head _)
  · intro heq
    exact hafter (heq ▸ List.mem_map_of_mem ha)

/-- A model nobody offered before. -/
theorem Tells.append {menu : List ModelOption} (h : Tells seen menu) (hone : c.providers = 1)
    (hnew : c.model ∉ menu.map (·.model)) : Tells (seen ++ [c]) (menu ++ [c]) := by
  have hunseen : ∀ s ∈ seen, s.model ≠ c.model := by
    intro s hs heq
    exact hnew (heq ▸ h.listed s hs)
  have hnotnew : ∀ o ∈ menu, c.model ≠ o.model := by
    intro o ho heq
    exact hnew (heq ▸ List.mem_map_of_mem ho)
  constructor
  · rw [List.map_append, List.map_singleton]
    exact h.once.append (List.nodup_singleton _) (by simpa using hnew)
  · intro s hs
    rw [List.map_append]
    rcases List.mem_append.mp hs with hold | hlast
    · exact List.mem_append_left _ (h.listed s hold)
    · obtain rfl := List.mem_singleton.mp hlast
      exact List.mem_append_right _ (.head _)
  · intro o ho s hs hname
    rcases List.mem_append.mp ho with hold | hlast <;> rcases List.mem_append.mp hs with hseen | hsame
    · exact h.least o hold s hseen hname
    · obtain rfl := List.mem_singleton.mp hsame
      exact absurd hname (hnotnew o hold)
    · obtain rfl := List.mem_singleton.mp hlast
      exact absurd hname (hunseen s hseen)
    · obtain rfl := List.mem_singleton.mp hlast
      obtain rfl := List.mem_singleton.mp hsame
      exact le_rfl
  · intro o ho
    rcases List.mem_append.mp ho with hold | hlast
    · obtain ⟨s, hs, heq⟩ := h.held o hold
      exact ⟨s, List.mem_append_left _ hs, heq⟩
    · obtain rfl := List.mem_singleton.mp hlast
      exact ⟨o, List.mem_append_right _ (.head _), rfl⟩
  · intro o ho
    rw [List.countP_append, List.countP_singleton]
    rcases List.mem_append.mp ho with hold | hlast
    · rw [if_neg (by simpa using hnotnew o hold), Nat.add_zero]
      exact h.counted o hold
    · obtain rfl := List.mem_singleton.mp hlast
      rw [if_pos (by simp), hone, List.countP_eq_zero.mpr]
      intro s hs
      simpa using hunseen s hs

/-- A model offered once more, by someone who takes its place or not. -/
theorem Tells.replace {before after : List ModelOption} {now : ModelOption}
    (h : Tells seen (before ++ o :: after)) (hname : o.model = c.model)
    (hnow : (now = { c with providers := o.providers + 1 } ∧ c.price ≤ o.price) ∨
      (now = { o with providers := o.providers + 1 } ∧ o.price ≤ c.price)) :
    Tells (seen ++ [c]) (before ++ now :: after) := by
  have hmodel : now.model = o.model := by
    rcases hnow with ⟨rfl, -⟩ | ⟨rfl, -⟩
    · exact hname.symm
    · rfl
  have hcount : now.providers = o.providers + 1 := by rcases hnow with ⟨rfl, -⟩ | ⟨rfl, -⟩ <;> rfl
  have hprice : now.price ≤ o.price ∧ now.price ≤ c.price := by
    rcases hnow with ⟨rfl, hle⟩ | ⟨rfl, hle⟩
    · exact ⟨hle, le_rfl⟩
    · exact ⟨le_rfl, hle⟩
  have hnames : (before ++ now :: after).map (·.model) = (before ++ o :: after).map (·.model) := by
    simp [hmodel]
  have hother := other_name rfl h.once
  have hmem : o ∈ before ++ o :: after := by simp
  -- an entry is the one that changed, or an older one of another name
  have hcases : ∀ r ∈ before ++ now :: after, r = now ∨
      (r ∈ before ++ o :: after ∧ r.model ≠ o.model) := by
    intro r hr
    by_cases heq : r = now
    · exact .inl heq
    · have hrest : r ∈ before ++ after := by simpa [heq] using hr
      refine .inr ⟨?_, hother r hrest⟩
      rcases List.mem_append.mp hrest with hb | ha
      · exact List.mem_append_left _ hb
      · exact List.mem_append_right _ (.tail _ ha)
  constructor
  · rw [hnames]
    exact h.once
  · intro s hs
    rw [hnames]
    rcases List.mem_append.mp hs with hold | hlast
    · exact h.listed s hold
    · obtain rfl := List.mem_singleton.mp hlast
      exact hname ▸ List.mem_map_of_mem hmem
  · intro r hr s hs hsame
    rcases hcases r hr with rfl | ⟨hold, hne⟩ <;> rcases List.mem_append.mp hs with hs | hs
    · exact hprice.1.trans (h.least o hmem s hs (hsame.trans hmodel))
    · obtain rfl := List.mem_singleton.mp hs
      exact hprice.2
    · exact h.least r hold s hs hsame
    · obtain rfl := List.mem_singleton.mp hs
      exact absurd (hsame.symm.trans hname.symm) hne
  · intro r hr
    rcases hcases r hr with rfl | ⟨hold, -⟩
    · rcases hnow with ⟨rfl, -⟩ | ⟨rfl, -⟩
      · exact ⟨c, by simp, rfl⟩
      · obtain ⟨s, hs, heq⟩ := h.held o hmem
        refine ⟨s, List.mem_append_left _ hs, ?_⟩
        rw [heq]
    · obtain ⟨s, hs, heq⟩ := h.held r hold
      exact ⟨s, List.mem_append_left _ hs, heq⟩
  · intro r hr
    rw [List.countP_append, List.countP_singleton]
    rcases hcases r hr with rfl | ⟨hold, hne⟩
    · rw [hmodel, if_pos (by simpa using hname.symm), hcount, h.counted o hmem]
    · rw [if_neg (by simpa [← hname] using hne.symm), Nat.add_zero]
      exact h.counted r hold

theorem Tells.add (rng : Rng) (h : Tells seen menu.options) (hone : c.providers = 1) :
    Tells (seen ++ [c]) (menu.add rng c).options := by
  rcases add_cases rng menu c with ⟨hnew, heq⟩ | ⟨before, o, after, now, hbefore, heq, hname, hnow⟩
  · rw [heq]
    exact h.append hone hnew
  · rw [heq]
    rw [hbefore] at h
    exact h.replace hname hnow

/-- The menu after a run over what is offered. -/
theorem Tells.foldl (rng : Rng) {rest : List ModelOption} (h : Tells seen menu.options)
    (hone : ∀ c ∈ rest, c.providers = 1) :
    Tells (seen ++ rest) (rest.foldl (Menu.add rng) menu).options := by
  induction rest generalizing seen menu with
  | nil => simpa using h
  | cons c rest ih =>
    have hstep := ih (h.add rng (hone c (.head _))) fun c hc => hone c (.tail _ hc)
    rwa [List.append_assoc] at hstep

theorem Tells.perm {options options' : List ModelOption} (h : Tells seen options)
    (hperm : options'.Perm options) : Tells seen options' where
  once := (hperm.map _).nodup_iff.mpr h.once
  listed c hc := (hperm.map _).mem_iff.mpr (h.listed c hc)
  least o ho := h.least o (hperm.mem_iff.mp ho)
  held o ho := h.held o (hperm.mem_iff.mp ho)
  counted o ho := h.counted o (hperm.mem_iff.mp ho)

/-- What a person is shown of an entry besides who holds it. -/
def shown (o : ModelOption) : Text × ℚ × ℕ := (o.model, o.price, o.providers)

/-- The names, prices and counts are told by what was seen alone. -/
theorem Tells.mem_shown {options : List ModelOption} (h : Tells seen options) (t : Text × ℚ × ℕ) :
    t ∈ options.map shown ↔
      (∃ c ∈ seen, c.model = t.1 ∧ c.price = t.2.1) ∧ (∀ c ∈ seen, c.model = t.1 → t.2.1 ≤ c.price) ∧
        t.2.2 = seen.countP fun c => c.model = t.1 := by
  constructor
  · intro ht
    obtain ⟨o, ho, rfl⟩ := List.mem_map.mp ht
    obtain ⟨c, hc, heq⟩ := h.held o ho
    refine ⟨⟨c, hc, ?_, ?_⟩, h.least o ho, h.counted o ho⟩
    · rw [shown, heq]
    · rw [shown, heq]
  · rintro ⟨⟨c, hc, hname, hprice⟩, hleast, hcount⟩
    obtain ⟨o, ho, hmodel⟩ := List.mem_map.mp (h.listed c hc)
    obtain ⟨s, hs, heq⟩ := h.held o ho
    have hsmodel : s.model = o.model := by rw [heq]
    have hsprice : s.price = o.price := by rw [heq]
    have hle : o.price ≤ t.2.1 := hprice ▸ h.least o ho c hc hmodel.symm
    have hge : t.2.1 ≤ o.price := hsprice ▸ hleast s hs (hsmodel.trans (hmodel.trans hname))
    refine List.mem_map.mpr ⟨o, ho, ?_⟩
    rw [shown, h.counted o ho, hmodel, hname, le_antisymm hle hge, ← hcount]

theorem Tells.nodup_shown {options : List ModelOption} (h : Tells seen options) :
    (options.map shown).Nodup := by
  have hfst : (options.map shown).map Prod.fst = options.map (·.model) := by
    rw [List.map_map]
    rfl
  exact .of_map Prod.fst (hfst ▸ h.once)

/-- What was seen in another order is told the same. -/
theorem Tells.shown_perm {seen' options options' : List ModelOption} (h : Tells seen options)
    (h' : Tells seen' options') (hperm : seen.Perm seen') :
    (options.map shown).Perm (options'.map shown) := by
  rw [List.perm_ext_iff_of_nodup h.nodup_shown h'.nodup_shown]
  intro t
  rw [h.mem_shown, h'.mem_shown, hperm.countP_eq]
  simp only [hperm.mem_iff]

end Menu

section Law

variable {peers peers' : List Peer} {kind : JobKind} {peer : Peer} {m : ModelDescriptor}

theorem mem_offers : (peer, m) ∈ offers peers kind ↔
    (peer ∈ peers ∧ peer.online) ∧ m ∈ peer.models ∧ m.kind = kind := by
  unfold offers
  constructor
  · intro h
    obtain ⟨p, hp, hmem⟩ := List.mem_flatMap.mp h
    obtain ⟨m', hm', heq⟩ := List.mem_map.mp hmem
    cases heq
    exact ⟨List.mem_filter.mp hp, by simpa using hm'⟩
  · rintro ⟨hp, hm⟩
    exact List.mem_flatMap.mpr ⟨peer, List.mem_filter.mpr hp, List.mem_map.mpr ⟨m, by simpa using hm, rfl⟩⟩

theorem offers_perm (h : peers'.Perm peers) (kind : JobKind) : (offers peers' kind).Perm (offers peers kind) :=
  List.Perm.flatMap_right _ (h.filter _)

theorem cheaperOrFirst_iff (a b : ModelOption) :
    cheaperOrFirst a b = true ↔ a.price < b.price ∨ a.price = b.price ∧ a.model ≤ b.model := by
  simp [cheaperOrFirst]

theorem cheaperOrFirst_trans (a b c : ModelOption) (hab : cheaperOrFirst a b = true)
    (hbc : cheaperOrFirst b c = true) : cheaperOrFirst a c = true := by
  rw [cheaperOrFirst_iff] at *
  rcases hab with hab | ⟨hab, hab'⟩ <;> rcases hbc with hbc | ⟨hbc, hbc'⟩
  · exact .inl (hab.trans hbc)
  · exact .inl (hbc ▸ hab)
  · exact .inl (hab ▸ hbc)
  · exact .inr ⟨hab.trans hbc, hab'.trans hbc'⟩

theorem cheaperOrFirst_total (a b : ModelOption) : (cheaperOrFirst a b || cheaperOrFirst b a) = true := by
  rw [Bool.or_eq_true, cheaperOrFirst_iff, cheaperOrFirst_iff]
  rcases lt_trichotomy a.price b.price with hlt | heq | hgt
  · exact .inl (.inl hlt)
  · rcases le_total a.model b.model with hle | hge
    · exact .inl (.inr ⟨heq, hle⟩)
    · exact .inr (.inr ⟨heq.symm, hge⟩)
  · exact .inr (.inl hgt)

theorem modelOptions_sorted (rng : Rng) (peers : List Peer) (kind : JobKind) :
    (modelOptions rng peers kind).Pairwise fun a b => cheaperOrFirst a b = true :=
  List.pairwise_mergeSort cheaperOrFirst_trans cheaperOrFirst_total _

theorem modelOptions_tells (rng : Rng) (peers : List Peer) (kind : JobKind) :
    Menu.Tells ((offers peers kind).map (candidate kind)) (modelOptions rng peers kind) := by
  have hone : ∀ c ∈ (offers peers kind).map (candidate kind), c.providers = 1 := by
    intro c hc
    obtain ⟨offer, -, rfl⟩ := List.mem_map.mp hc
    rfl
  have hempty : Menu.Tells [] ({} : Menu).options := .nil
  exact (hempty.foldl rng hone).perm (List.mergeSort_perm _ _)

/-- The names, prices and counts do not depend on the order of the peers, nor on the draws. -/
theorem modelOptions_shown (rng rng' : Rng) (h : peers'.Perm peers) :
    (modelOptions rng' peers' kind).map Menu.shown = (modelOptions rng peers kind).map Menu.shown := by
  have htells := modelOptions_tells rng peers kind
  have hsort : ∀ rng peers, ((modelOptions rng peers kind).map Menu.shown).Pairwise
      fun s t => s.2.1 < t.2.1 ∨ s.2.1 = t.2.1 ∧ s.1 ≤ t.1 := by
    intro rng peers
    refine List.pairwise_map.mpr ((modelOptions_sorted rng peers kind).imp ?_)
    intro a b hab
    exact (cheaperOrFirst_iff a b).mp hab
  have hperm := (modelOptions_tells rng' peers' kind).shown_perm htells ((offers_perm h kind).map _)
  refine hperm.eq_of_pairwise ?_ (hsort rng' peers') (hsort rng peers)
  -- entries that are not in order either way are one entry
  intro s t hs ht hst hts
  have hname : s.1 = t.1 ∧ s.2.1 = t.2.1 := by
    rcases hst with hst | ⟨heq, hst⟩ <;> rcases hts with hts | ⟨heq', hts⟩
    · exact absurd hts hst.asymm
    · exact absurd heq' hst.ne'
    · exact absurd heq hts.ne'
    · exact ⟨le_antisymm hst hts, heq⟩
  have hs' := ((htells.mem_shown s).mp (hperm.mem_iff.mp hs)).2.2
  have ht' := ((htells.mem_shown t).mp ht).2.2
  exact Prod.ext hname.1 (Prod.ext hname.2 (by rw [hs', ht', hname.1]))

/-- What the menu is to say: every model on offer once, at the least price anyone online asks, held by
who asks it, with how many online peers offer it, in order. -/
structure Aggregates (peers : List Peer) (kind : JobKind) (menu : List ModelOption) : Prop where
  once : (menu.map (·.model)).Nodup
  listed : ∀ name, name ∈ menu.map (·.model) ↔ ∃ offer ∈ offers peers kind, offer.2.id = name
  least : ∀ o ∈ menu, ∀ offer ∈ offers peers kind, offer.2.id = o.model → o.price ≤ offer.2.amount
  held : ∀ o ∈ menu, ∃ offer ∈ offers peers kind,
    offer.1.id = o.peerId ∧ offer.2.id = o.model ∧ offer.2.amount = o.price
  counted : ∀ o ∈ menu, o.providers =
    (((offers peers kind).filter fun offer => offer.2.id = o.model).map (·.1.id)).dedup.length
  sorted : menu.Pairwise fun a b => a.price < b.price ∨ a.price = b.price ∧ a.model ≤ b.model

/-- Nobody online offers one model twice. -/
def OncePerPeer (peers : List Peer) (kind : JobKind) : Prop :=
  ((offers peers kind).map fun offer => (offer.1.id, offer.2.id)).Nodup

instance : Decidable (OncePerPeer peers kind) := inferInstanceAs (Decidable (List.Nodup _))

/-- Pairs are apart exactly where those with one second half have first halves apart. -/
theorem nodup_map_pair_iff {α β γ : Type*} [DecidableEq γ] (f : α → β) (g : α → γ) (l : List α) :
    (l.map fun a => (f a, g a)).Nodup ↔ ∀ c, ((l.filter fun a => g a = c).map f).Nodup := by
  induction l with
  | nil => simp
  | cons a l ih =>
    rw [List.map_cons, List.nodup_cons, ih]
    constructor
    · rintro ⟨hnew, hrest⟩ c
      by_cases hc : g a = c
      · rw [List.filter_cons_of_pos (by simpa using hc), List.map_cons, List.nodup_cons]
        refine ⟨?_, hrest c⟩
        intro hmem
        obtain ⟨b, hb, hfb⟩ := List.mem_map.mp hmem
        obtain ⟨hbl, hgb⟩ := List.mem_filter.mp hb
        exact hnew (List.mem_map.mpr ⟨b, hbl, Prod.ext hfb ((of_decide_eq_true hgb).trans hc.symm)⟩)
      · rw [List.filter_cons_of_neg (by simpa using hc)]
        exact hrest c
    · intro h
      constructor
      · intro hmem
        obtain ⟨b, hb, heq⟩ := List.mem_map.mp hmem
        obtain ⟨hf, hg⟩ := Prod.ext_iff.mp heq
        have hat := h (g a)
        rw [List.filter_cons_of_pos (by simp), List.map_cons, List.nodup_cons] at hat
        exact hat.1 (List.mem_map.mpr ⟨b, List.mem_filter.mpr ⟨hb, by simpa using hg⟩, hf⟩)
      · intro c
        refine (h c).sublist (List.Sublist.map f ?_)
        exact (List.sublist_cons_self a l).filter _

theorem length_dedup_eq_iff {α : Type*} [DecidableEq α] (l : List α) :
    l.dedup.length = l.length ↔ l.Nodup := by
  constructor
  · intro h
    rw [← (List.dedup_sublist l).eq_of_length h]
    exact List.nodup_dedup l
  · intro h
    rw [h.dedup]

/-- Whatever is drawn, an entry counts the offers of its model. -/
theorem providers_eq {rng : Rng} {o : ModelOption} (h : o ∈ modelOptions rng peers kind) :
    o.providers =
      (((offers peers kind).filter fun offer => offer.2.id = o.model).map (·.1.id)).length := by
  rw [(modelOptions_tells rng peers kind).counted o h, List.countP_map, List.countP_eq_length_filter,
    List.length_map]
  rfl

theorem exists_entry (rng : Rng) {offer : Peer × ModelDescriptor} (h : offer ∈ offers peers kind) :
    ∃ o ∈ modelOptions rng peers kind, o.model = offer.2.id :=
  List.mem_map.mp ((modelOptions_tells rng peers kind).listed _ (List.mem_map_of_mem h))

theorem counted_iff (rng : Rng) (peers : List Peer) (kind : JobKind) :
    (∀ o ∈ modelOptions rng peers kind, o.providers =
      (((offers peers kind).filter fun offer => offer.2.id = o.model).map (·.1.id)).dedup.length) ↔
    OncePerPeer peers kind := by
  have hpair := nodup_map_pair_iff (fun offer : Peer × ModelDescriptor => offer.1.id) (·.2.id)
    (offers peers kind)
  constructor
  · intro h
    refine hpair.mpr fun name => ?_
    by_cases hname : ∃ offer ∈ offers peers kind, offer.2.id = name
    · obtain ⟨offer, hoffer, rfl⟩ := hname
      obtain ⟨o, ho, hmodel⟩ := exists_entry rng hoffer
      have hcount := h o ho
      rw [providers_eq ho, hmodel] at hcount
      exact (length_dedup_eq_iff _).mp hcount.symm
    · rw [List.filter_eq_nil_iff.mpr]
      · exact .nil
      · intro offer hoffer
        simpa using fun heq => hname ⟨offer, hoffer, heq⟩
  · intro h o ho
    rw [providers_eq ho]
    exact ((length_dedup_eq_iff _).mpr (hpair.mp h o.model)).symm

theorem modelOptions_aggregates (rng : Rng) (h : OncePerPeer peers kind) :
    Aggregates peers kind (modelOptions rng peers kind) := by
  have htells := modelOptions_tells rng peers kind
  constructor
  · exact htells.once
  · intro name
    constructor
    · intro hname
      obtain ⟨o, ho, rfl⟩ := List.mem_map.mp hname
      obtain ⟨c, hc, heq⟩ := htells.held o ho
      obtain ⟨offer, hoffer, rfl⟩ := List.mem_map.mp hc
      exact ⟨offer, hoffer, by rw [heq]; rfl⟩
    · rintro ⟨offer, hoffer, rfl⟩
      exact htells.listed _ (List.mem_map_of_mem hoffer)
  · intro o ho offer hoffer
    exact htells.least o ho _ (List.mem_map_of_mem hoffer)
  · intro o ho
    obtain ⟨c, hc, heq⟩ := htells.held o ho
    obtain ⟨offer, hoffer, rfl⟩ := List.mem_map.mp hc
    exact ⟨offer, hoffer, by rw [heq]; rfl, by rw [heq]; rfl, by rw [heq]; rfl⟩
  · exact (counted_iff rng peers kind).mpr h
  · exact (modelOptions_sorted rng peers kind).imp fun hab => (cheaperOrFirst_iff _ _).mp hab

/-- The menu says all it is to say, whatever is drawn and in whatever order the peers come, exactly
where nobody offers one model twice. -/
theorem modelOptions_law (peers : List Peer) (kind : JobKind) :
    ((∀ rng, Aggregates peers kind (modelOptions rng peers kind)) ∧
      ∀ peers', peers'.Perm peers → ∀ rng rng',
        (modelOptions rng' peers' kind).map Menu.shown = (modelOptions rng peers kind).map Menu.shown) ↔
    OncePerPeer peers kind := by
  constructor
  · rintro ⟨h, -⟩
    exact (counted_iff (fun _ => 0) peers kind).mp (h fun _ => 0).counted
  · intro h
    exact ⟨fun rng => modelOptions_aggregates rng h, fun _ hperm rng rng' => modelOptions_shown rng rng' hperm⟩

/-- A peer whose two backends list one model. -/
def doubled : List Peer :=
  let llama : ModelDescriptor := { id := ofString "llama", kind := .llm }
  [{ id := ofString "a", label := ofString "a", models := [llama, llama] }]

/-- It counts as two. -/
theorem doubled_miscounts : ¬ ∀ rng, Aggregates doubled .llm (modelOptions rng doubled .llm) := by
  intro h
  exact absurd ((counted_iff (fun _ => 0) doubled .llm).mp (h fun _ => 0).counted) (by decide)

end Law

end Rootmode.Desktop
