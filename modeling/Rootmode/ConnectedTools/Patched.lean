import Rootmode.ConnectedTools.CodexUndone

namespace Rootmode.ConnectedTools

open Lib Lib.Text

section Documents

def modelProviders : Text := ofString "model_providers"

/-- Where the provider's table stands in a document. -/
def ownPath : Toml.Path := [modelProviders, providerText]

/-- The keys of the provider's table. -/
def ownKeys : List Text := [ofString "name", ofString "base_url", ofString "wire_api", ofString "env_key"]

/-- What a statement of a document stands under. -/
inductive Place
  | root
  | own
  | other
  deriving DecidableEq

def Place.after (place : Place) : Toml.Item → Place
  | .keyval _ => place
  | .table path => if path = ownPath then .own else .other
  | .arrayTable _ => .other

/-- A statement that the patch is about. -/
def Place.patches (place : Place) : Toml.Item → Bool
  | .keyval path => place = .own ∨ place = .root ∧ (path = [modelKey] ∨ path = [modelProviderKey])
  | .table path => path = ownPath
  | .arrayTable _ => false

/-- The lines of a document but those of the statements that the patch is about, a statement's lines being held
until its end. -/
def othersFrom (m : Toml.Mode) (place : Place) (held : List Text) : List Text → List Text
  | [] => held
  | line :: ls =>
    match Toml.readLine m line with
    | none => held ++ line :: ls
    | some (.start, []) => held ++ line :: othersFrom .start place [] ls
    | some (m, []) => othersFrom m place (held ++ [line]) ls
    | some (m, item :: _) =>
      (if place.patches item then [] else held ++ [line]) ++ othersFrom m (place.after item) [] ls

def others (ls : List Text) : List Text := othersFrom .start .root [] ls

/-- A document with one model, one provider and one table of the provider. -/
def Single (ls : List Text) : Prop :=
  ∃ items doc, Toml.load ls = some (items, doc) ∧ (Toml.topLevel items).count (.keyval [modelKey]) = 1 ∧
    (Toml.topLevel items).count (.keyval [modelProviderKey]) = 1 ∧ items.count (.table ownPath) = 1

/-- What connecting is to leave: a document with one model, one provider and one table of the provider in which
every other line stands as before, and that connecting again leaves as it is and disconnecting turns back into
what it was. Blank lines at the end are of no account. -/
structure Patched (ep : Endpoint) (f : Text) : Prop where
  valid : Single (lines (connectCodex ep (some f)))
  others : (popBlank (others (lines f))).Sublist (lines (connectCodex ep (some f)))
  again : connectCodex ep (some (connectCodex ep (some f))) = connectCodex ep (some f)
  restored : ∀ g, disconnectCodex (some (connectCodex ep (some f))) = some g →
    popBlank (lines g) = popBlank (lines f)

variable {ls held : List Text} {place : Place} {m m' : Toml.Mode} {items is is' : List Toml.Item} {doc : Toml.Doc}

theorem othersFrom_sublist : (othersFrom m place held ls).Sublist (held ++ ls) := by
  induction ls generalizing m place held with
  | nil =>
    rw [List.append_nil]
    exact List.Sublist.refl held
  | cons line ls ih =>
    rw [othersFrom]
    split
    · exact List.Sublist.refl _
    · exact (List.Sublist.refl held).append (List.Sublist.cons_cons line ih)
    · rw [← List.singleton_append (l := ls), ← List.append_assoc]
      exact ih
    · have hsplit : held ++ line :: ls = (held ++ [line]) ++ ([] ++ ls) := by
        rw [List.append_assoc, List.singleton_append, List.nil_append]
      rw [hsplit]
      refine List.Sublist.append ?_ ih
      split
      · exact List.nil_sublist _
      · exact List.Sublist.refl _

theorem others_sublist (ls : List Text) : (others ls).Sublist ls := othersFrom_sublist

theorem popBlank_mono {ls' : List Text} (h : ls.Sublist ls') : (popBlank ls).Sublist (popBlank ls') := by
  obtain ⟨blanks, hls', hblanks⟩ := popBlank_split ls'
  rw [hls'] at h
  obtain ⟨a, b, rfl, ha, hb⟩ := List.sublist_append_iff.mp h
  rw [popBlank_append_blank fun l hl => hblanks l (hb.mem hl)]
  exact (popBlank_sublist a).trans ha

end Documents

section Reading

variable {ls : List Text} {key v : Text} {ep : Endpoint} {m m' : Toml.Mode} {items is is' : List Toml.Item}
  {doc : Toml.Doc}

theorem tomlString_eq (v : Text) : tomlString v = Toml.quoted v := by
  rw [tomlString, Toml.quoted, Json.replace_char, Json.replace_char, List.flatMap_assoc]
  congr 3
  funext c
  by_cases hslash : c = '\\'
  · rw [if_pos hslash, if_pos (.inl hslash), hslash]
    rfl
  · rw [if_neg hslash, List.flatMap_singleton]
    by_cases hquote : c = '"'
    · rw [if_pos hquote, if_pos (.inr hquote), hquote]
    · rw [if_neg hquote, if_neg (not_or.mpr ⟨hslash, hquote⟩)]

theorem readLine_assignment (hkey : (key ++ ofString " = ").foldlM Toml.step .start = some (.value ⟨[key], []⟩))
    (hne : v ≠ []) (hv : ∀ c ∈ v, Toml.isControl c = false) :
    Toml.readLine .start (assignment key v) = some (.start, [.keyval [key]]) := by
  rw [Toml.readLine, assignment, List.foldlM_append, hkey, tomlString_eq]
  change ((Toml.quoted v).foldlM Toml.step (.value ⟨[key], []⟩)).bind Toml.endLine = _
  rw [Toml.value_quoted hne hv]
  rfl

theorem readLine_header : Toml.readLine .start providerHeader = some (.start, [.table ownPath]) := by rfl

theorem not_isControl_of_isDigit {c : Char} (h : c.isDigit = true) : Toml.isControl c = false := by
  rw [Bool.eq_false_iff]
  intro hcontrol
  have hdigit := (Toml.foreign_of_isControl hcontrol).digit
  rw [h] at hdigit
  cases hdigit

theorem not_isControl_baseUrl (status : GatewayStatus) (fallback : Option Text) :
    ∀ c ∈ (endpointFromStatus status fallback).baseUrl ++ ofString "/v1", Toml.isControl c = false := by
  have hall : ∀ t : Text, t.all (fun c => !Toml.isControl c) = true → ∀ c ∈ t, Toml.isControl c = false := by
    intro t ht c hc
    have hone := List.all_eq_true.mp ht c hc
    rwa [Bool.not_eq_true'] at hone
  refine List.forall_mem_append.mpr ⟨List.forall_mem_append.mpr ⟨hall _ (by rfl), ?_⟩, hall _ (by rfl)⟩
  exact fun c hc => not_isControl_of_isDigit (isDigit_of_mem hc)

theorem readLines_providerTable (status : GatewayStatus) (fallback : Option Text) :
    Toml.readLines .start (providerTable (endpointFromStatus status fallback)) =
      some (.start, .table ownPath :: ownKeys.map fun key => .keyval [key]) := by
  have hname : Toml.readLine .start (assignment (ofString "name") (ofString "rootmode")) =
      some (.start, [.keyval [ofString "name"]]) := by rfl
  have hbase := @readLine_assignment (ofString "base_url") _ (by rfl)
    (List.append_ne_nil_of_right_ne_nil _ (by decide)) (not_isControl_baseUrl status fallback)
  have hwire : Toml.readLine .start (ofString "wire_api = \"responses\"") =
      some (.start, [.keyval [ofString "wire_api"]]) := by rfl
  have henv : Toml.readLine .start (assignment (ofString "env_key") codexEnvVar) =
      some (.start, [.keyval [ofString "env_key"]]) := by rfl
  rw [providerTable, Toml.readLines_cons, readLine_header, Option.bind_some, Toml.readLines_cons, hname,
    Option.bind_some, Toml.readLines_cons, hbase, Option.bind_some, Toml.readLines_cons, hwire, Option.bind_some,
    Toml.readLines_cons, henv]
  rfl

theorem readLine_providerLine : Toml.readLine .start providerLine = some (.start, [.keyval [modelProviderKey]]) := by rfl

/-- The statements of the provider's table. -/
def ownItems : List Toml.Item := .table ownPath :: ownKeys.map fun key => .keyval [key]

theorem readLines_tail (status : GatewayStatus) (fallback : Option Text) (hm : Toml.Resting m)
    (h : Toml.readLines m (rest ls) = some (.start, items)) :
    Toml.readLines m (popBlank (rest ls) ++ [] :: providerTable (endpointFromStatus status fallback)) =
      some (.start, items ++ ownItems) := by
  obtain ⟨blanks, hsplit, hblanks⟩ := popBlank_split (rest ls)
  rw [hsplit] at h
  obtain ⟨n, is, is', hsaid, hblank, rfl⟩ := Toml.readLines_append_eq_some.mp h
  obtain ⟨rfl, rfl⟩ := Toml.readLines_blank (Toml.resting_readLines hm hsaid)
    (fun line hline => blank_iff.mp (hblanks line hline)) hblank
  have htable : Toml.readLines .start ([] :: providerTable (endpointFromStatus status fallback)) =
      some (.start, ownItems) := by
    rw [Toml.readLines_cons, show Toml.readLine .start [] = some (.start, []) from rfl, Option.bind_some,
      readLines_providerTable]
    rfl
  exact Toml.readLines_append_eq_some.mpr ⟨.start, is, ownItems, hsaid, htable, by rw [List.append_nil]⟩

theorem unbracketed_of_mem_top {line : Text} (h : line ∈ top ls) : Toml.Unbracketed line := by
  intro hbracket
  have hplain := not_startsTable_of_mem_top h
  rw [startsTable_iff.mpr hbracket] at hplain
  cases hplain

theorem Kept.connectLines_top (h : Kept ep ls) :
    connectLines ep ls = top ls ++ providerLine :: (popBlank (rest ls) ++ [] :: providerTable ep) := by
  rw [h.connectLines_eq, popBlank_named, List.append_assoc, List.cons_append]

end Reading

section Valid

variable {ls : List Text} {ep : Endpoint} {m : Toml.Mode} {items is is' : List Toml.Item} {doc : Toml.Doc}
  {K : Text}

theorem load_eq_some : Toml.load ls = some (items, doc) ↔
    Toml.readLines .start ls = some (.start, items) ∧ Toml.Doc.empty.build items = some doc := by
  rw [Toml.load]
  constructor
  · intro h
    split at h
    · next items' hread =>
      obtain ⟨doc', hbuild, heq⟩ := Option.map_eq_some_iff.mp h
      cases heq
      exact ⟨hread, hbuild⟩
    · cases h
  · rintro ⟨hread, hbuild⟩
    rw [hread]
    change (Toml.Doc.empty.build items).map (items, ·) = _
    rw [hbuild]
    rfl

theorem count_ownItems (items : List Toml.Item) :
    (items ++ ownItems).count (.table ownPath) = items.count (.table ownPath) + 1 := by
  rw [List.count_append]
  congr 1

theorem topLevel_ownItems (items : List Toml.Item) : Toml.topLevel (items ++ ownItems) = Toml.topLevel items :=
  Toml.Doc.topLevel_table

theorem build_ownItems : (∃ doc', doc.build ownItems = some doc') ↔ doc.Room modelProviders providerText ownKeys := by
  rw [← Option.isSome_iff_exists]
  exact Toml.Doc.build_table (by decide)

/-- Where the lines of the root end, the provider can be named: a statement may begin there and nothing stands under
that key, or a string of several lines goes on, which takes the line in, and the document names a provider itself. -/
def Nameable (m : Toml.Mode) (items : List Toml.Item) (doc : Toml.Doc) : Prop :=
  match m with
  | .start => doc.defs [modelProviderKey] = none
  | .basics _ _ | .literals _ _ => (Toml.topLevel items).count (.keyval [modelProviderKey]) = 1
  | _ => False

/-- Of a document that the patch keeps one. -/
structure Fits (ls : List Text) (items : List Toml.Item) (doc : Toml.Doc) : Prop where
  model : (Toml.topLevel items).count (.keyval [modelKey]) = 1
  provider : ∃ m is, Toml.readLines .start (top ls) = some (m, is) ∧ Nameable m items doc
  table : .table ownPath ∉ items
  room : doc.Room modelProviders providerText ownKeys

theorem single_of_read (hread : Toml.readLines .start ls = some (.start, items)) : Single ls ↔
    (∃ doc, Toml.Doc.empty.build items = some doc) ∧ (Toml.topLevel items).count (.keyval [modelKey]) = 1 ∧
      (Toml.topLevel items).count (.keyval [modelProviderKey]) = 1 ∧ items.count (.table ownPath) = 1 := by
  constructor
  · rintro ⟨items', doc, hload, hcounts⟩
    obtain ⟨hread', hbuild⟩ := load_eq_some.mp hload
    rw [hread] at hread'
    cases hread'
    exact ⟨⟨doc, hbuild⟩, hcounts⟩
  · rintro ⟨⟨doc, hbuild⟩, hcounts⟩
    exact ⟨items, doc, load_eq_some.mpr ⟨hread, hbuild⟩, hcounts⟩

/-- Named where a statement may begin. -/
theorem single_named (his : ∀ i ∈ is, i.isKeyval) (hbuild : Toml.Doc.empty.build (is ++ is') = some doc)
    (hread : Toml.readLines .start ls =
      some (.start, is ++ .keyval [modelProviderKey] :: (is' ++ ownItems))) :
    Single ls ↔ (Toml.topLevel (is ++ is')).count (.keyval [modelKey]) = 1 ∧ doc.defs [modelProviderKey] = none ∧
      .table ownPath ∉ is ++ is' ∧ doc.Room modelProviders providerText ownKeys := by
  have hother : modelProviders ≠ modelProviderKey := by decide
  have hitems : is ++ .keyval [modelProviderKey] :: (is' ++ ownItems) =
      (is ++ .keyval [modelProviderKey] :: is') ++ ownItems := by
    rw [List.append_assoc, List.cons_append]
  have hdoc : (∃ doc', Toml.Doc.empty.build (is ++ .keyval [modelProviderKey] :: (is' ++ ownItems)) = some doc') ↔
      doc.defs [modelProviderKey] = none ∧ doc.Room modelProviders providerText ownKeys := by
    rw [hitems, Toml.Doc.build_append, Toml.Doc.build_insert his, hbuild, Option.bind_some]
    by_cases hnone : doc.defs [modelProviderKey] = none
    · rw [if_pos hnone, Option.bind_some, build_ownItems, Toml.Doc.room_also hother, and_iff_right hnone]
    · rw [if_neg hnone, Option.bind_none]
      constructor
      · rintro ⟨doc', hfalse⟩
        cases hfalse
      · exact fun h => absurd h.1 hnone
  have htop : Toml.topLevel (is ++ .keyval [modelProviderKey] :: (is' ++ ownItems)) =
      is ++ .keyval [modelProviderKey] :: Toml.topLevel is' := by
    have hall : ∀ i ∈ is ++ [.keyval [modelProviderKey]], i.isKeyval :=
      List.forall_mem_append.mpr ⟨his, List.forall_mem_singleton.mpr rfl⟩
    rw [List.append_cons, Toml.Doc.topLevel_append hall, topLevel_ownItems, List.append_assoc, List.singleton_append]
  have hold : Toml.topLevel (is ++ is') = is ++ Toml.topLevel is' := Toml.Doc.topLevel_append his
  have hmodel : (is ++ .keyval [modelProviderKey] :: Toml.topLevel is').count (.keyval [modelKey]) =
      (Toml.topLevel (is ++ is')).count (.keyval [modelKey]) := by
    rw [hold, List.count_append, List.count_append, List.count_cons_of_ne (by decide)]
  have hprovider : (is ++ .keyval [modelProviderKey] :: Toml.topLevel is').count (.keyval [modelProviderKey]) =
      (Toml.topLevel (is ++ is')).count (.keyval [modelProviderKey]) + 1 := by
    rw [hold, List.count_append, List.count_append, List.count_cons_self, Nat.add_assoc]
  have htable : (is ++ .keyval [modelProviderKey] :: (is' ++ ownItems)).count (.table ownPath) =
      (is ++ is').count (.table ownPath) + 1 := by
    rw [hitems, count_ownItems, List.count_append, List.count_append, List.count_cons_of_ne (by simp)]
  rw [single_of_read hread, hdoc, htop, hmodel, hprovider, htable, Nat.add_eq_right, Nat.add_eq_right,
    List.count_eq_zero, List.count_eq_zero]
  constructor
  · rintro ⟨⟨hnone, hroom⟩, hcount, -, hnot⟩
    exact ⟨hcount, hnone, hnot, hroom⟩
  · rintro ⟨hcount, hnone, hnot, hroom⟩
    exact ⟨⟨hnone, hroom⟩, hcount, fun hmem => Toml.Doc.topLevel_root hbuild hmem hnone, hnot⟩

/-- Named within a string, which takes the line in. -/
theorem single_within (hbuild : Toml.Doc.empty.build items = some doc)
    (hread : Toml.readLines .start ls = some (.start, items ++ ownItems)) :
    Single ls ↔ (Toml.topLevel items).count (.keyval [modelKey]) = 1 ∧
      (Toml.topLevel items).count (.keyval [modelProviderKey]) = 1 ∧
      .table ownPath ∉ items ∧ doc.Room modelProviders providerText ownKeys := by
  have hdoc : (∃ doc', Toml.Doc.empty.build (items ++ ownItems) = some doc') ↔
      doc.Room modelProviders providerText ownKeys := by
    rw [Toml.Doc.build_append, hbuild, Option.bind_some, build_ownItems]
  rw [single_of_read hread, hdoc, topLevel_ownItems, count_ownItems, Nat.add_eq_right, List.count_eq_zero]
  constructor
  · rintro ⟨hroom, hmodel, hprovider, hnot⟩
    exact ⟨hmodel, hprovider, hnot, hroom⟩
  · rintro ⟨hmodel, hprovider, hnot, hroom⟩
    exact ⟨hroom, hmodel, hprovider, hnot⟩

theorem not_single_of_read (hread : Toml.readLines .start ls = none) : ¬ Single ls := by
  rintro ⟨items, doc, hload, -⟩
  obtain ⟨hsome, -⟩ := load_eq_some.mp hload
  rw [hread] at hsome
  cases hsome

theorem single_connectLines (status : GatewayStatus) (fallback : Option Text)
    (h : Kept (endpointFromStatus status fallback) ls) (hload : Toml.load ls = some (items, doc)) :
    Single (connectLines (endpointFromStatus status fallback) ls) ↔ Fits ls items doc := by
  obtain ⟨hread, hbuild⟩ := load_eq_some.mp hload
  rw [← top_append_rest ls] at hread
  obtain ⟨m, is, is', htop, hrest, rfl⟩ := Toml.readLines_append_eq_some.mp hread
  have hm : Toml.Resting m := Toml.resting_readLines .start htop
  have his := Toml.readLines_keyed .start (fun line hline => unbracketed_of_mem_top hline) htop
  have hprovider : (∃ m' is₁, Toml.readLines .start (top ls) = some (m', is₁) ∧ Nameable m' (is ++ is') doc) ↔
      Nameable m (is ++ is') doc := by
    rw [htop]
    constructor
    · rintro ⟨m', is₁, heq, hname⟩
      cases heq
      exact hname
    · exact fun hname => ⟨m, is, rfl, hname⟩
  have hfits : Fits ls (is ++ is') doc ↔ (Toml.topLevel (is ++ is')).count (.keyval [modelKey]) = 1 ∧
      Nameable m (is ++ is') doc ∧ .table ownPath ∉ is ++ is' ∧ doc.Room modelProviders providerText ownKeys := by
    constructor
    · exact fun hfit => ⟨hfit.model, hprovider.mp hfit.provider, hfit.table, hfit.room⟩
    · rintro ⟨hmodel, hname, htable, hroom⟩
      exact ⟨hmodel, hprovider.mpr hname, htable, hroom⟩
  rw [hfits, h.connectLines_top]
  have hwhole : Toml.readLines .start (top ls ++ providerLine ::
      (popBlank (rest ls) ++ [] :: providerTable (endpointFromStatus status fallback))) =
      ((Toml.readLine m providerLine).bind fun r =>
        (Toml.readLines r.1 (popBlank (rest ls) ++ [] :: providerTable (endpointFromStatus status fallback))).bind
          fun r' => some (r'.1, is ++ (r.2 ++ r'.2))) := by
    rw [Toml.readLines_append, htop, Option.bind_some, Toml.readLines_cons, Option.bind_assoc]
    congr 1
    funext r
    rw [Option.bind_assoc]
    rfl
  cases hm with
  | start =>
    rw [readLine_providerLine, Option.bind_some, readLines_tail status fallback .start hrest, Option.bind_some] at hwhole
    exact single_named his hbuild hwhole
  | element s | next s => exact iff_of_false (not_single_of_read hwhole) fun hfalse => hfalse.2.1
  | basics s =>
    have hstay : Toml.readLine (.basics s 0) providerLine = some (.basics s 0, []) := by rfl
    rw [hstay, Option.bind_some, readLines_tail status fallback (.basics s) hrest, Option.bind_some, List.nil_append, ← List.append_assoc] at hwhole
    exact single_within hbuild hwhole
  | literals s =>
    have hstay : Toml.readLine (.literals s 0) providerLine = some (.literals s 0, []) := by rfl
    rw [hstay, Option.bind_some, readLines_tail status fallback (.literals s) hrest, Option.bind_some, List.nil_append, ← List.append_assoc] at hwhole
    exact single_within hbuild hwhole

end Valid

section Clean

variable {ls : List Text} {ep : Endpoint} {m m' : Toml.Mode} {items : List Toml.Item} {doc : Toml.Doc}

theorem clean_of_readLines (h : Toml.readLines m ls = some (m', items)) : ∀ l ∈ ls, Clean l := by
  intro l hl
  have hplain := Toml.not_isControl_of_readLines h l hl
  refine clean_of_not_mem ?_ ?_
  · intro hline
    exact absurd (hplain _ hline) (by decide)
  · intro hreturn
    exact absurd (hplain _ hreturn) (by decide)

theorem clean_of_load (h : Toml.load ls = some (items, doc)) : ∀ l ∈ ls, Clean l :=
  clean_of_readLines (load_eq_some.mp h).1

theorem clean_connectLines (hls : ∀ l ∈ ls, Clean l) (hmodel : Clean (modelLine ep))
    (htable : ∀ l ∈ providerTable ep, Clean l) : ∀ l ∈ connectLines ep ls, Clean l := by
  rw [connectLines_eq, List.forall_mem_append]
  refine ⟨?_, List.forall_mem_cons.mpr ⟨⟨List.not_mem_nil, rfl⟩, htable⟩⟩
  intro l hl
  rcases mem_setTopLevel ((popBlank_sublist _).mem hl) with hl | rfl
  · rcases mem_setTopLevel hl with hl | rfl
    · exact hls l ((removeProviderTable_sublist ls).mem hl)
    · exact clean_providerLine
  · exact hmodel

theorem disconnectLines_sublist (ls : List Text) : (disconnectLines ls).Sublist ls :=
  (removeTopLevel_sublist _ _).trans (removeProviderTable_sublist ls)

theorem connectCodex_some (ep : Endpoint) (t : Text) :
    connectCodex ep (some t) = fileText (connectLines ep (lines t)) := rfl

theorem disconnectCodex_some (t : Text) : disconnectCodex (some t) = some (fileText (disconnectLines (lines t))) := rfl

end Clean

variable {status : GatewayStatus} {fallback : Option Text} {f : Text} {items : List Toml.Item} {doc : Toml.Doc}

/-- The patch does as it should exactly to files that ask for the model already, name no provider and have room
for the provider's table. -/
theorem patched_iff (h : Toml.load (lines f) = some (items, doc)) :
    Patched (endpointFromStatus status fallback) f ↔
      Kept (endpointFromStatus status fallback) (lines f) ∧ Fits (lines f) items doc := by
  have htable := clean_of_readLines (readLines_providerTable status fallback)
  have hls := clean_of_load h
  have hread := lines_connectCodex (endpointFromStatus status fallback) f
  constructor
  · intro hpatched
    obtain ⟨items', doc', hload, -⟩ := hpatched.valid
    have hheader : ∃ l ∈ lines (connectCodex (endpointFromStatus status fallback) (some f)), isProviderHeader l = true := by
      refine ⟨providerHeader, ?_, isProviderHeader_providerHeader⟩
      rw [hread]
      refine List.mem_flatMap.mpr ⟨providerHeader, ?_, ?_⟩
      · rw [connectLines_eq]
        exact List.mem_append_right _ (List.mem_cons_of_mem _ List.mem_cons_self)
      · rw [(htable _ List.mem_cons_self).reread]
        exact List.mem_singleton_self _
    have hagain := lines_connectCodex (endpointFromStatus status fallback)
      (connectCodex (endpointFromStatus status fallback) (some f))
    rw [hpatched.again] at hagain
    have hsingle := modelLine_single (clean_of_load hload) hheader htable hagain.symm
    have hmodel := clean_of_getLast? hsingle (getLast?_modelLine _) (by decide)
    have hconnect := clean_connectLines hls hmodel htable
    rw [relines_clean hconnect] at hread
    have hrestored := hpatched.restored _ (disconnectCodex_some _)
    rw [hread, popBlank_lines_fileText fun l hl => hconnect l ((disconnectLines_sublist _).mem hl)] at hrestored
    have hkept := kept_of_restored hrestored
    have hvalid := hpatched.valid
    rw [hread] at hvalid
    exact ⟨hkept, (single_connectLines status fallback hkept h).mp hvalid⟩
  · rintro ⟨hkept, hfits⟩
    obtain ⟨before, after, htop, -⟩ := hkept.model
    have hmem : modelLine (endpointFromStatus status fallback) ∈ lines f := by
      rw [← top_append_rest (lines f), htop]
      exact List.mem_append_left _ (List.mem_append_right _ List.mem_cons_self)
    have hconnect := clean_connectLines hls (hls _ hmem) htable
    rw [relines_clean hconnect] at hread
    refine ⟨?_, ?_, ?_, ?_⟩
    · rw [hread]
      exact (single_connectLines status fallback hkept h).mpr hfits
    · have hnamed : (lines f).Sublist (named (lines f)) := by
        conv_lhs => rw [← top_append_rest (lines f)]
        exact (List.Sublist.refl _).append (List.sublist_cons_self _ _)
      rw [hread, hkept.connectLines_eq]
      refine (popBlank_mono (others_sublist _)).trans ((popBlank_mono hnamed).trans ?_)
      exact List.sublist_append_left _ _
    · rw [connectCodex_some _ (connectCodex _ _), hread, hkept.again, connectCodex_some]
    · intro g hg
      rw [disconnectCodex_some] at hg
      obtain rfl := Option.some.inj hg
      rw [hread, popBlank_lines_fileText fun l hl => hconnect l ((disconnectLines_sublist _).mem hl)]
      exact hkept.restored

theorem patched_asked :
    Patched (endpointFromStatus ⟨8080, [], some ['m']⟩ none) (ofString "model = \"m\"\n[tui]\nbell = true\n") := by
  refine (patched_iff rfl).mpr ⟨⟨by decide, by decide, ⟨[], [], by decide, fun l hl => by cases hl⟩⟩, ?_⟩
  refine ⟨by decide, ⟨.start, [.keyval [modelKey]], rfl, rfl⟩, by decide, by decide⟩

end Rootmode.ConnectedTools
