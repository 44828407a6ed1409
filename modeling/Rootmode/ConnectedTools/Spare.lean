import Rootmode.ConnectedTools.Connectors

namespace Rootmode.ConnectedTools

open Lib Lib.Entries Lib.Json

/-- An object with nothing under a key. -/
def Spare (k : String) (x : Json) : Prop := ∃ es, x = obj es ∧ lookup k es = none

def IsObj (x : Json) : Prop := ∃ es, x = obj es

def envKeys : List String := ["ANTHROPIC_BASE_URL", "ANTHROPIC_AUTH_TOKEN", "ANTHROPIC_MODEL"]

/-- A value with nothing where the connector writes, and objects where it writes into one. -/
def ConfigFile.Free : ConfigFile → Json → Prop
  | .opencode, v => Spare "model" v ∧ ∀ x, v.get "provider" = some x → Spare providerKey x
  | .claudeCode, v => IsObj v ∧ ∀ x, v.get "env" = some x → x ≠ obj [] ∧ ∀ k ∈ envKeys, Spare k x
  | .piModels, v => Spare providerKey v
  | .piSettings, v => Spare "provider" v ∧ Spare "model" v
  | .crush, v => IsObj v ∧ ∀ x, v.get "providers" = some x → Spare providerKey x
  | .zed, v => IsObj v ∧ ∀ x, v.get "language_models" = some x →
      IsObj x ∧ x ≠ obj [] ∧ ∀ y, x.get "openai_compatible" = some y → Spare providerKey y

variable {k c : String} {ks : List String} {v w x y e : Json} {es fs : List (String × Json)} {ep : Endpoint}

section Hold

theorem isObj_asObject (x : Json) : IsObj (asObject x) := by
  cases x with
  | obj es => exact ⟨es, rfl⟩
  | null | bool | num | str | arr => exact ⟨[], rfl⟩

theorem asObject_of_not (h : ¬ IsObj x) : asObject x = obj [] := by
  cases x with
  | obj es => exact absurd ⟨es, rfl⟩ h
  | null | bool | num | str | arr => rfl

theorem not_obj (h : ¬ IsObj x) : ∀ es, x ≠ obj es := fun es hx => h ⟨es, hx⟩

/-- No object holds what is not one. -/
theorem isObj_of_held (h : Held x (obj fs)) : IsObj x := by
  by_contra hx
  exact hx ⟨fs, ((held_of_not_obj (not_obj hx)).mp h).symm⟩

theorem isObj_of_kept (h : Kept v (obj fs)) : IsObj v := by
  by_contra hv
  exact hv ⟨fs, ((kept_of_not_obj (not_obj hv)).mp h).symm⟩

/-- What an entry put in and taken out leaves is all there was, if there was none. -/
theorem held_spare : Held x (((asObject x).insert k e).remove k) ↔ Spare k x := by
  constructor
  · intro hheld
    obtain ⟨fs, hfs⟩ := isObj_asObject x
    rw [hfs] at hheld
    obtain ⟨es, rfl⟩ := isObj_of_held hheld
    cases hfs
    refine ⟨_, rfl, ?_⟩
    by_contra hsome
    obtain ⟨z, hz⟩ := Option.ne_none_iff_exists'.mp hsome
    refine not_held_of_get (k := k) hz ?_ hheld
    rw [get_remove, if_pos rfl]
  · rintro ⟨es, rfl, hnone⟩
    refine held_of_get (fun k' z hz => ?_) ?_
    · have hne : k ≠ k' := by
        rintro rfl
        rw [get_obj, hnone] at hz
        cases hz
      rw [get_remove, if_neg hne]
      exact (get_insert_of_ne _ hne).trans hz
    · rintro rfl
      simp [asObject, Json.insert, Json.remove, put, without]

/-- Where all else is the same, a file keeps its settings if it does under the keys that are not. -/
theorem kept_iff_at (h : ∀ k, k ∉ ks → w.get k = (obj es).get k) :
    Kept (obj es) w ↔ ∀ k ∈ ks, ∀ x, (obj es).get k = some x → ∃ y, w.get k = some y ∧ Held x y := by
  rw [kept_obj]
  constructor
  · exact fun hkept k _ x hx => hkept k x hx
  · intro hkept k x hx
    by_cases hk : k ∈ ks
    · exact hkept k hk x hx
    · exact ⟨x, (h k hk).trans hx, Held.refl x⟩

theorem held_iff_at (hne : es ≠ []) (h : ∀ k, k ∉ ks → w.get k = (obj es).get k) :
    Held (obj es) w ↔ ∀ k ∈ ks, ∀ x, (obj es).get k = some x → ∃ y, w.get k = some y ∧ Held x y :=
  (held_obj hne).trans (kept_obj.symm.trans (kept_iff_at h))

theorem spare_iff_get : Spare k (obj es) ↔ (obj es).get k = none := by
  constructor
  · rintro ⟨_, hes, hnone⟩
    cases hes
    exact hnone
  · exact fun hnone => ⟨es, rfl, hnone⟩

end Hold

section Round

variable {f g : Json → Json}

theorem get_inside (hc : (obj es).get c = some (obj fs)) (k : String) :
    (inside (obj es) c g).get k = if c = k then some (g (obj fs)) else (obj es).get k := by
  rw [inside, hc]
  exact get_insert_obj

/-- An object in an object, changed and changed back. -/
theorem get_inside_entry (hf : ∀ fs, IsObj (f (obj fs))) (k : String) :
    (inside (entry (obj es) c f) c g).get k =
      if c = k then some (g (f (asObject (((obj es).get c).getD (obj []))))) else (obj es).get k := by
  obtain ⟨fs, hfs⟩ := isObj_asObject (((obj es).get c).getD (obj []))
  obtain ⟨hs, hhs⟩ := hf fs
  have hentry : entry (obj es) c f = obj (put c (obj hs) es) := by
    rw [entry, hfs, hhs]
    rfl
  have hget : (obj (put c (obj hs) es)).get c = some (obj hs) := by
    rw [get_obj, lookup_put, if_pos rfl]
  rw [hentry, get_inside hget, hfs, hhs]
  split
  · rfl
  · next hne => rw [get_obj, lookup_put, if_neg hne, get_obj]

theorem kept_inside_entry (hf : ∀ fs, IsObj (f (obj fs))) :
    Kept (obj es) (inside (entry (obj es) c f) c g) ↔
      ∀ x, (obj es).get c = some x → Held x (g (f (asObject x))) := by
  have hsame : ∀ k, k ∉ [c] → (inside (entry (obj es) c f) c g).get k = (obj es).get k := by
    intro k hk
    rw [get_inside_entry hf, if_neg fun h => hk (List.mem_singleton.mpr h.symm)]
  rw [kept_iff_at hsame, List.forall_mem_singleton]
  refine forall₂_congr fun x hx => ?_
  rw [get_inside_entry hf, if_pos rfl, hx]
  simp only [Option.some.injEq, exists_eq_left', Option.getD_some]

theorem isObj_insert (fs : List (String × Json)) : IsObj ((obj fs).insert k e) := ⟨_, rfl⟩

theorem kept_spare : Kept (obj es) (inside (entry (obj es) c (·.insert k e)) c (·.remove k)) ↔
    ∀ x, (obj es).get c = some x → Spare k x := by
  rw [kept_inside_entry fun fs => isObj_insert fs]
  exact forall₂_congr fun x _ => held_spare

theorem isObj_inside (hx : IsObj x) : IsObj (inside x c g) := by
  obtain ⟨es, rfl⟩ := hx
  unfold inside
  split
  · exact ⟨_, rfl⟩
  · exact ⟨_, rfl⟩

/-- An entry two objects deep. -/
theorem held_inside_entry : Held x (inside (entry (asObject x) c (·.insert k e)) c (·.remove k)) ↔
    IsObj x ∧ x ≠ obj [] ∧ ∀ y, x.get c = some y → Spare k y := by
  constructor
  · intro hheld
    have hobj : IsObj x := by
      obtain ⟨fs, hfs⟩ := isObj_asObject x
      rw [hfs] at hheld
      obtain ⟨hs, hhs⟩ := isObj_inside (c := c) (g := (·.remove k))
        (show IsObj (entry (obj fs) c (·.insert k e)) from ⟨_, rfl⟩)
      rw [hhs] at hheld
      exact isObj_of_held hheld
    obtain ⟨es, rfl⟩ := hobj
    have hes : es ≠ [] := by
      rintro rfl
      have hnone : (obj []).get c = some _ :=
        held_nil.mp hheld ▸ (get_inside_entry (fun fs => isObj_insert fs) c).trans (if_pos rfl)
      cases hnone
    exact ⟨⟨es, rfl⟩, fun h => hes (Json.obj.inj h), kept_spare.mp (kept_obj.mpr ((held_obj hes).mp hheld))⟩
  · rintro ⟨⟨es, rfl⟩, hne, hspare⟩
    have hes : es ≠ [] := fun h => hne (congrArg obj h)
    exact (held_obj hes).mpr (kept_obj.mp (kept_spare.mpr hspare))

end Round

section Tools

/-- Nothing that was there is kept where nothing is left. -/
theorem gone_iff :
    (∀ x, (obj es).get k = some x → ∃ y, (none : Option Json) = some y ∧ Held x y) ↔ Spare k (obj es) := by
  rw [spare_iff_get, Option.eq_none_iff_forall_ne_some]
  simp

theorem kept_crush :
    Kept (obj es) (disconnectCrush (connectCrush ep (obj es))) ↔ ConfigFile.Free .crush (obj es) :=
  kept_spare.trans (and_iff_right ⟨es, rfl⟩).symm

theorem kept_nested {c' : String} :
    Kept (obj es) (inside (entry (obj es) c fun x => entry x c' (·.insert k e)) c (inside · c' (·.remove k))) ↔
      ∀ x, (obj es).get c = some x →
        IsObj x ∧ x ≠ obj [] ∧ ∀ y, x.get c' = some y → Spare k y := by
  rw [kept_inside_entry fun fs => ⟨_, rfl⟩]
  exact forall₂_congr fun x _ => held_inside_entry

theorem kept_zed : Kept (obj es) (disconnectZed (connectZed ep (obj es))) ↔ ConfigFile.Free .zed (obj es) :=
  kept_nested.trans (and_iff_right ⟨es, rfl⟩).symm

theorem kept_piModels :
    Kept (obj es) (disconnectPiModels (connectPiModels ep (obj es))) ↔ ConfigFile.Free .piModels (obj es) := by
  have hget (k : String) : (disconnectPiModels (connectPiModels ep (obj es))).get k =
      if providerKey = k then none else (obj es).get k := by
    have hstep := @get_remove providerKey k (connectPiModels ep (obj es))
    refine hstep.trans ?_
    split
    · rfl
    · next hne => exact get_insert_of_ne _ hne
  have hsame : ∀ k, k ∉ [providerKey] →
      (disconnectPiModels (connectPiModels ep (obj es))).get k = (obj es).get k := by
    intro k hk
    rw [hget, if_neg fun h => hk (List.mem_singleton.mpr h.symm)]
  rw [kept_iff_at hsame, List.forall_mem_singleton, hget, if_pos rfl]
  exact gone_iff

theorem kept_piSettings :
    Kept (obj es) (disconnectPiSettings (connectPiSettings ep (obj es))) ↔
      ConfigFile.Free .piSettings (obj es) := by
  have hprovider : (connectPiSettings ep (obj es)).get "provider" = some (word providerKey) := by
    refine (get_insert_of_ne _ (by decide)).trans ?_
    exact get_insert_obj.trans (if_pos rfl)
  have hobj : asObject (connectPiSettings ep (obj es)) = connectPiSettings ep (obj es) := rfl
  have hround : disconnectPiSettings (connectPiSettings ep (obj es)) =
      ((connectPiSettings ep (obj es)).remove "provider").remove "model" := by
    rw [disconnectPiSettings, hobj, hprovider]
    exact if_pos rfl
  have hget (k : String) : (disconnectPiSettings (connectPiSettings ep (obj es))).get k =
      if "model" = k then none else if "provider" = k then none else (obj es).get k := by
    rw [hround, get_remove, get_remove]
    split
    · rfl
    · next hmodel =>
      split
      · rfl
      · next hprovider => exact (get_insert_of_ne _ hmodel).trans (get_insert_of_ne _ hprovider)
  have hsame : ∀ k, k ∉ ["provider", "model"] →
      (disconnectPiSettings (connectPiSettings ep (obj es))).get k = (obj es).get k := by
    intro k hk
    simp only [List.mem_cons, List.not_mem_nil, or_false, not_or] at hk
    rw [hget, if_neg (Ne.symm hk.2), if_neg (Ne.symm hk.1)]
  rw [kept_iff_at hsame, List.forall_mem_cons, List.forall_mem_singleton, hget, hget, if_pos rfl, if_pos rfl]
  exact and_congr gone_iff gone_iff

theorem get_opencode (k : String) : (disconnectOpencode (connectOpencode ep (obj es))).get k =
    if "model" = k then none
    else if "provider" = k then
      some (((asObject (((obj es).get "provider").getD (obj []))).insert providerKey (opencodeProvider ep)).remove
        providerKey)
    else (obj es).get k := by
  obtain ⟨fs, hfs⟩ := isObj_asObject (((obj es).get "provider").getD (obj []))
  set ps := put providerKey (opencodeProvider ep) fs with hps
  have hconfig : connectOpencode ep (obj es) =
      obj (put "model" (str (ownPrefix ++ ep.model)) (put "provider" (obj ps) es)) := by
    unfold connectOpencode entry
    rw [show asObject (obj es) = obj es from rfl, hfs]
    rfl
  set config := put "model" (str (ownPrefix ++ ep.model)) (put "provider" (obj ps) es) with hconfig'
  have hprovider : (obj config).get "provider" = some (obj ps) := by
    rw [get_obj, lookup_put, if_neg (by decide), lookup_put, if_pos rfl]
  have hget := get_inside (g := (·.remove providerKey)) hprovider
  have hmodel : (inside (obj config) "provider" (·.remove providerKey)).get "model" =
      some (str (ownPrefix ++ ep.model)) := by
    rw [hget, if_neg (by decide), get_obj, lookup_put, if_pos rfl]
  have hround : disconnectOpencode (obj config) =
      (inside (obj config) "provider" (·.remove providerKey)).remove "model" := by
    rw [disconnectOpencode, show asObject (obj config) = obj config from rfl]
    simp only [hmodel]
    exact if_pos (List.isPrefixOf_iff_prefix.mpr (List.prefix_append _ _))
  rw [hconfig, hround, get_remove, hget, hfs]
  split
  · rfl
  · next hne =>
    split
    · rfl
    · next hne' => rw [get_obj, lookup_put, if_neg hne, lookup_put, if_neg hne', get_obj]

theorem kept_opencode :
    Kept (obj es) (disconnectOpencode (connectOpencode ep (obj es))) ↔ ConfigFile.Free .opencode (obj es) := by
  have hsame : ∀ k, k ∉ ["model", "provider"] →
      (disconnectOpencode (connectOpencode ep (obj es))).get k = (obj es).get k := by
    intro k hk
    simp only [List.mem_cons, List.not_mem_nil, or_false, not_or] at hk
    rw [get_opencode, if_neg (Ne.symm hk.1), if_neg (Ne.symm hk.2)]
  rw [kept_iff_at hsame, List.forall_mem_cons, List.forall_mem_singleton]
  refine and_congr ?_ (forall₂_congr fun x hx => ?_)
  · rw [get_opencode, if_pos rfl]
    exact gone_iff
  · rw [get_opencode, if_neg (by decide), if_pos rfl, hx]
    simp only [Option.some.injEq, exists_eq_left', Option.getD_some]
    exact held_spare

/-- What disconnecting leaves of the environment. -/
def leftEnv (ep : Endpoint) (fs : List (String × Json)) : List (String × Json) :=
  envKeys.foldl (fun es k => without k es)
    (put "ANTHROPIC_MODEL" (str ep.model) (put "ANTHROPIC_AUTH_TOKEN" (str ep.token)
      (put "ANTHROPIC_BASE_URL" (str ep.baseUrl) fs)))

theorem lookup_leftEnv_of_mem (hk : k ∈ envKeys) : lookup k (leftEnv ep fs) = none := by
  simp only [envKeys, List.mem_cons, List.not_mem_nil, or_false] at hk
  rcases hk with rfl | rfl | rfl
  all_goals simp [leftEnv, envKeys, lookup_without]

theorem lookup_leftEnv (hk : k ∉ envKeys) : lookup k (leftEnv ep fs) = lookup k fs := by
  simp only [envKeys, List.mem_cons, List.not_mem_nil, or_false, not_or] at hk
  obtain ⟨hurl, htoken, hmodel⟩ := hk
  simp only [leftEnv, envKeys, List.foldl_cons, List.foldl_nil, lookup_without, lookup_put,
    if_neg (Ne.symm hurl), if_neg (Ne.symm htoken), if_neg (Ne.symm hmodel)]

theorem get_claudeCode (hfs : asObject (((obj es).get "env").getD (obj [])) = obj fs) (k : String) :
    (disconnectClaudeCode (connectClaudeCode ep (obj es))).get k =
      if "env" = k then if leftEnv ep fs = [] then none else some (obj (leftEnv ep fs))
      else (obj es).get k := by
  set ps := put "ANTHROPIC_MODEL" (str ep.model) (put "ANTHROPIC_AUTH_TOKEN" (str ep.token)
    (put "ANTHROPIC_BASE_URL" (str ep.baseUrl) fs)) with hps
  have hconfig : connectClaudeCode ep (obj es) = obj (put "env" (obj ps) es) := by
    unfold connectClaudeCode entry
    rw [show asObject (obj es) = obj es from rfl, hfs]
    rfl
  have henv : (obj (put "env" (obj ps) es)).get "env" = some (obj ps) := by
    rw [get_obj, lookup_put, if_pos rfl]
  have hleft : ["ANTHROPIC_BASE_URL", "ANTHROPIC_AUTH_TOKEN", "ANTHROPIC_MODEL"].foldl Json.remove (obj ps) =
      obj (leftEnv ep fs) := rfl
  rw [hconfig]
  unfold disconnectClaudeCode asObject
  simp only [henv, hleft]
  cases leftEnv ep fs with
  | nil =>
    simp only [if_true]
    rw [get_remove]
    split
    · rfl
    · next hne => rw [get_obj, lookup_put, if_neg hne, get_obj]
  | cons e left =>
    simp only [reduceCtorEq, if_false]
    rw [get_insert_obj]
    split
    · rfl
    · next hne => rw [get_obj, lookup_put, if_neg hne, get_obj]

/-- The environment is kept where it held something, and none of what is set there. -/
theorem held_leftEnv : Held (obj fs) (obj (leftEnv ep fs)) ∧ leftEnv ep fs ≠ [] ↔
    fs ≠ [] ∧ ∀ k ∈ envKeys, Spare k (obj fs) := by
  constructor
  · rintro ⟨hheld, hne⟩
    have hspare : ∀ k ∈ envKeys, Spare k (obj fs) := by
      intro k hk
      by_contra hsome
      rw [spare_iff_get] at hsome
      obtain ⟨z, hz⟩ := Option.ne_none_iff_exists'.mp hsome
      exact not_held_of_get hz (show (obj _).get k = none from lookup_leftEnv_of_mem hk) hheld
    refine ⟨?_, hspare⟩
    rintro rfl
    exact hne (Json.obj.inj (held_nil.mp hheld))
  · rintro ⟨hne, hspare⟩
    have hget : ∀ k x, (obj fs).get k = some x → (obj (leftEnv ep fs)).get k = some x := by
      intro k x hx
      have hk : k ∉ envKeys := by
        intro hk
        rw [spare_iff_get.mp (hspare k hk)] at hx
        cases hx
      exact (lookup_leftEnv hk).trans hx
    refine ⟨held_of_get hget fun hnil => absurd hnil hne, ?_⟩
    intro hnil
    obtain ⟨e, rest, rfl⟩ := List.exists_cons_of_ne_nil hne
    have hhead := hget e.1 e.2 (get_cons_self e rest)
    rw [hnil] at hhead
    cases hhead

theorem kept_claudeCode :
    Kept (obj es) (disconnectClaudeCode (connectClaudeCode ep (obj es))) ↔
      ConfigFile.Free .claudeCode (obj es) := by
  obtain ⟨fs, hfs⟩ := isObj_asObject (((obj es).get "env").getD (obj []))
  have hget := @get_claudeCode es fs ep hfs
  have hsame : ∀ k, k ∉ ["env"] →
      (disconnectClaudeCode (connectClaudeCode ep (obj es))).get k = (obj es).get k := by
    intro k hk
    rw [hget, if_neg fun h => hk (List.mem_singleton.mpr h.symm)]
  rw [kept_iff_at hsame, List.forall_mem_singleton]
  refine Iff.trans (forall₂_congr fun x hx => ?_) (and_iff_right ⟨es, rfl⟩).symm
  rw [hx, Option.getD_some] at hfs
  have hfound : (∃ y, (disconnectClaudeCode (connectClaudeCode ep (obj es))).get "env" = some y ∧ Held x y) ↔
      Held x (obj (leftEnv ep fs)) ∧ leftEnv ep fs ≠ [] := by
    rw [hget, if_pos rfl]
    split
    · next hnil => simp [hnil]
    · next hne => simp [hne]
  rw [hfound]
  by_cases hobj : IsObj x
  · obtain ⟨fs', rfl⟩ := hobj
    cases hfs
    rw [held_leftEnv, ne_eq, ne_eq, Json.obj.injEq]
  · have hspare : ¬ ∀ k ∈ envKeys, Spare k x := by
      intro hall
      obtain ⟨fs', hx', -⟩ := hall "ANTHROPIC_MODEL" (by decide)
      exact hobj ⟨fs', hx'⟩
    exact iff_of_false (fun h => hobj (isObj_of_held h.1)) fun h => hspare h.2

theorem isObj_disconnected (file : ConfigFile) (v : Json) : IsObj (file.disconnected v) := by
  have hremove (es : List (String × Json)) (k : String) : IsObj ((obj es).remove k) := ⟨_, rfl⟩
  have hinsert (es : List (String × Json)) (k : String) (j : Json) : IsObj ((obj es).insert k j) := ⟨_, rfl⟩
  obtain ⟨es, hes⟩ := isObj_asObject v
  cases file with
  | opencode =>
    obtain ⟨hs, hhs⟩ := isObj_inside (c := "provider") (g := (·.remove providerKey)) (isObj_asObject v)
    simp only [ConfigFile.disconnected, disconnectOpencode, hhs]
    split
    · split
      · exact hremove hs _
      · exact ⟨hs, rfl⟩
    · exact ⟨hs, rfl⟩
  | claudeCode =>
    simp only [ConfigFile.disconnected, disconnectClaudeCode, hes]
    split
    · split
      · exact hremove es _
      · exact hinsert es _ _
    · exact ⟨es, rfl⟩
  | piModels =>
    simp only [ConfigFile.disconnected, disconnectPiModels, hes]
    exact hremove es _
  | piSettings =>
    simp only [ConfigFile.disconnected, disconnectPiSettings, hes]
    split
    · split
      · exact hremove _ _
      · exact ⟨es, rfl⟩
    · exact ⟨es, rfl⟩
  | crush =>
    simp only [ConfigFile.disconnected, disconnectCrush]
    exact isObj_inside (isObj_asObject v)
  | zed =>
    simp only [ConfigFile.disconnected, disconnectZed]
    exact isObj_inside (isObj_asObject v)

theorem Spare.isObj (h : Spare k x) : IsObj x := h.imp fun _ => And.left

theorem ConfigFile.Free.isObj {file : ConfigFile} (h : file.Free v) : IsObj v := by
  cases file with
  | opencode | piSettings => exact h.1.isObj
  | claudeCode | crush | zed => exact h.1
  | piModels => exact Spare.isObj h

/-- A connector undoes what it did where it wrote over nothing. -/
theorem kept_iff_free (file : ConfigFile) (v : Json) :
    Kept v (file.disconnected (file.connected ep v)) ↔ file.Free v := by
  by_cases hobj : IsObj v
  · obtain ⟨es, rfl⟩ := hobj
    cases file with
    | opencode => exact kept_opencode
    | claudeCode => exact kept_claudeCode
    | piModels => exact kept_piModels
    | piSettings => exact kept_piSettings
    | crush => exact kept_crush
    | zed => exact kept_zed
  · refine iff_of_false (fun hkept => ?_) fun hfree => hobj hfree.isObj
    obtain ⟨es, hes⟩ := isObj_disconnected file (file.connected ep v)
    rw [hes] at hkept
    exact hobj (isObj_of_kept hkept)

end Tools

end Rootmode.ConnectedTools
