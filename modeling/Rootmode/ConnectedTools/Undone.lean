import Rootmode.ConnectedTools.Spare

namespace Rootmode.ConnectedTools

open Function Lib Lib.Entries Lib.Json Protocol

section Strings

variable {p : Text → Prop} {k c : String} {v x : Json} {es : List (String × Json)} {f : Json → Json}

theorem each_asObject (h : Each p v) : Each p (asObject v) := by
  cases v with
  | obj es => exact h
  | null | bool | num | str | arr => trivial

theorem each_insert (hk : p k.toList) (hx : Each p x) (h : Each p v) : Each p (v.insert k x) := by
  cases v with
  | obj es => exact each_put hk hx h
  | null | bool | num | str | arr => exact h

theorem each_remove (h : Each p v) : Each p (v.remove k) := by
  cases v with
  | obj es => exact each_without h
  | null | bool | num | str | arr => exact h

theorem each_get (h : Each p v) (hx : v.get k = some x) : Each p x := by
  cases v with
  | obj es =>
    obtain ⟨e, he, rfl⟩ := Option.map_eq_some_iff.mp hx
    exact (eachEntry_iff.mp h e (List.mem_of_find?_eq_some he)).2
  | null | bool | num | str | arr => cases hx

theorem each_entry (hk : p k.toList) (hf : ∀ x, Each p x → Each p (f x)) (h : Each p v) :
    Each p (entry v k f) := by
  refine each_insert hk (hf _ (each_asObject ?_)) h
  cases hget : v.get k with
  | none => trivial
  | some x => exact each_get h hget

theorem each_inside (hk : p k.toList) (hf : ∀ x, Each p x → Each p (f x)) (h : Each p v) :
    Each p (inside v k f) := by
  unfold inside
  split
  · next hget => exact each_insert hk (hf _ (each_get h hget)) h
  · exact h

theorem each_object (h : ∀ e ∈ es, p e.1.toList ∧ Each p e.2) : Each p (object es) := by
  have hall (acc : List (String × Json)) (hacc : Each p (obj acc)) : Each p (obj (putAll es acc)) := by
    induction es generalizing acc with
    | nil => exact hacc
    | cons e es ih =>
      obtain ⟨hkey, hvalue⟩ := h e (.head _)
      exact ih (fun d hd => h d (.tail _ hd)) _ (each_put hkey hvalue hacc)
  exact hall [] trivial

end Strings

section Unbroken

variable {ep : Endpoint} {v : Json}

/-- No text of it has a comma that a closing bracket follows. -/
structure Endpoint.Sound (ep : Endpoint) : Prop where
  baseUrl : Unbroken ep.baseUrl
  token : Unbroken ep.token
  model : Unbroken ep.model

theorem unbroken_v1 (h : ep.Sound) : Each Unbroken (v1 ep) :=
  h.baseUrl.append (by decide) (by decide)

theorem breaks_own (t u : Text) (h : t.all fun c => escape c == [c] && c != ',') :
    breaks (t.flatMap escape ++ u) = breaks u := by
  induction t with
  | nil => rfl
  | cons c t ih =>
    simp only [List.all_cons, Bool.and_eq_true, beq_iff_eq, bne_iff_ne] at h
    obtain ⟨⟨hself, hcomma⟩, htail⟩ := h
    rw [List.flatMap_cons, hself, List.append_assoc, List.singleton_append, breaks, decide_eq_false hcomma]
    exact ih htail

theorem unbroken_ownPrefix (h : ep.Sound) : Unbroken (ownPrefix ++ ep.model) := by
  have hplain := breaks_own ownPrefix (ep.model.flatMap escape) (by decide)
  rw [Unbroken, List.flatMap_append, hplain]
  exact h.model

/-- Texts of the program itself. -/
theorem unbroken_word {s : String} (h : Unbroken s.toList) : Each Unbroken (word s) := h

theorem unbroken_opencodeProvider (h : ep.Sound) : Each Unbroken (opencodeProvider ep) := by
  have hoptions : Each Unbroken (object [("baseURL", v1 ep), ("apiKey", str ep.token)]) := by
    refine each_object ?_
    simp only [List.forall_mem_cons, List.not_mem_nil, false_implies, implies_true, and_true]
    exact ⟨⟨by decide, unbroken_v1 h⟩, by decide, h.token⟩
  have hmodel : Each Unbroken (object [("name", str ep.model)]) := by
    exact each_object (List.forall_mem_singleton.mpr
      ⟨show Unbroken "name".toList by decide, h.model⟩)
  have hmodels : Each Unbroken (object [(String.ofList ep.model, object [("name", str ep.model)])]) := by
    refine each_object (List.forall_mem_singleton.mpr ⟨?_, hmodel⟩)
    rw [String.toList_ofList]
    exact h.model
  refine each_object ?_
  simp only [List.forall_mem_cons, List.not_mem_nil, false_implies, implies_true, and_true]
  exact ⟨⟨by decide, unbroken_word (by decide)⟩,
    ⟨by decide, unbroken_word (by decide)⟩, ⟨by decide, hoptions⟩,
    by decide, hmodels⟩

theorem unbroken_connected (file : ConfigFile) (h : ep.Sound) (hv : Each Unbroken v) :
    Each Unbroken (file.connected ep v) := by
  have hroot := each_asObject hv
  cases file with
  | opencode =>
    unfold ConfigFile.connected connectOpencode
    refine each_insert (by decide) (unbroken_ownPrefix h) (each_entry (by decide) ?_ hroot)
    exact fun x hx => each_insert (by decide) (unbroken_opencodeProvider h) hx
  | claudeCode =>
    unfold ConfigFile.connected connectClaudeCode
    refine each_entry (by decide) (fun env henv => ?_) hroot
    exact each_insert (by decide) h.model
      (each_insert (by decide) h.token (each_insert (by decide) h.baseUrl henv))
  | piModels =>
    unfold ConfigFile.connected connectPiModels
    refine each_insert (by decide) (each_object ?_) hroot
    simp only [List.forall_mem_cons, List.not_mem_nil, false_implies, implies_true, and_true]
    exact ⟨⟨by decide, unbroken_v1 h⟩, ⟨by decide, h.token⟩,
      ⟨by decide, unbroken_word (by decide)⟩, by decide, h.model, trivial⟩
  | piSettings =>
    unfold ConfigFile.connected connectPiSettings
    exact each_insert (by decide) h.model
      (each_insert (by decide) (unbroken_word (by decide)) hroot)
  | crush =>
    unfold ConfigFile.connected connectCrush
    refine each_entry (by decide) (fun x hx => each_insert (by decide) (each_object ?_) hx) hroot
    have hmodel : Each Unbroken (object [("id", str ep.model), ("name", str ep.model)]) := by
      refine each_object ?_
      simp only [List.forall_mem_cons, List.not_mem_nil, false_implies, implies_true, and_true]
      exact ⟨⟨by decide, h.model⟩, by decide, h.model⟩
    simp only [List.forall_mem_cons, List.not_mem_nil, false_implies, implies_true, and_true]
    exact ⟨⟨by decide, unbroken_word (by decide)⟩, ⟨by decide, unbroken_v1 h⟩,
      ⟨by decide, h.token⟩, by decide, hmodel, trivial⟩
  | zed =>
    unfold ConfigFile.connected connectZed
    refine each_entry (by decide) (fun lm hlm => ?_) hroot
    refine each_entry (by decide)
      (fun x hx => each_insert (by decide) (each_object ?_) hx) hlm
    have hmodel : Each Unbroken (object [("name", str ep.model), ("max_tokens", count 32000)]) := by
      refine each_object ?_
      simp only [List.forall_mem_cons, List.not_mem_nil, false_implies, implies_true, and_true]
      exact ⟨⟨by decide, h.model⟩, by decide, trivial⟩
    simp only [List.forall_mem_cons, List.not_mem_nil, false_implies, implies_true, and_true]
    exact ⟨⟨by decide, unbroken_v1 h⟩, by decide, hmodel, trivial⟩

theorem unbroken_disconnected (file : ConfigFile) (hv : Each Unbroken v) :
    Each Unbroken (file.disconnected v) := by
  have hroot := each_asObject hv
  cases file with
  | opencode =>
    have hinside : Each Unbroken (inside (asObject v) "provider" (·.remove providerKey)) :=
      each_inside (by decide) (fun _ => each_remove) hroot
    simp only [ConfigFile.disconnected, disconnectOpencode]
    split
    · split
      · exact each_remove hinside
      · exact hinside
    · exact hinside
  | claudeCode =>
    simp only [ConfigFile.disconnected, disconnectClaudeCode, List.foldl_cons, List.foldl_nil]
    split
    · next env henv =>
      have hleft := each_remove (k := "ANTHROPIC_MODEL") (each_remove (k := "ANTHROPIC_AUTH_TOKEN")
        (each_remove (k := "ANTHROPIC_BASE_URL") (each_get hroot henv)))
      split
      · exact each_remove hroot
      · exact each_insert (by decide) hleft hroot
    · exact hroot
  | piModels => exact each_remove hroot
  | piSettings =>
    simp only [ConfigFile.disconnected, disconnectPiSettings]
    split
    · split
      · exact each_remove (each_remove hroot)
      · exact hroot
    · exact hroot
  | crush =>
    unfold ConfigFile.disconnected disconnectCrush
    exact each_inside (by decide) (fun _ => each_remove) hroot
  | zed =>
    unfold ConfigFile.disconnected disconnectZed
    exact each_inside (by decide)
      (fun _ hx => each_inside (by decide) (fun _ => each_remove) hx) hroot

end Unbroken

section Disk

variable {S : SerdeJson} {m : Machine} {ep : Endpoint} {tool : Tool} {file : ConfigFile} {disk : Disk}
  {change : ConfigFile → Json → Json} {path : Text}

theorem writeText_self (content : Bytes) : writeText path content disk path = some content :=
  update_self ..

theorem backupPath_ne (path : Text) : path ≠ backupPath path := by
  intro h
  have hlength := congrArg List.length h
  rw [backupPath, List.length_append] at hlength
  exact absurd hlength (by simp)

/-- Only a file and its backup are written. -/
theorem writeText_of_ne {content : Bytes} {other : Text} (hpath : other ≠ path)
    (hbackup : other ≠ backupPath path) : writeText path content disk other = disk other := by
  rw [writeText, update_of_ne hpath, backupOnce]
  split
  · exact update_of_ne hbackup ..
  · rfl

theorem join_inj (m : Machine) (dir : Text) {a b : String} (h : m.join dir a = m.join dir b) : a = b := by
  unfold Machine.join at h
  split at h
  · exact String.toList_inj.mp (List.append_cancel_left h)
  · exact String.toList_inj.mp (List.cons.inj (List.append_cancel_left h)).2

theorem join_backup (m : Machine) (dir : Text) (a : String) :
    backupPath (m.join dir a) = m.join dir (a ++ ".rootmode-bak") := by
  unfold backupPath Machine.join
  split
  · rw [String.toList_append, List.append_assoc]
  · rw [String.toList_append, List.append_assoc, List.cons_append]

/-- What a tool's file holds once each of its files was rewritten. -/
theorem rewritten (hfile : file ∈ tool.files) :
    tool.files.foldl (rewrite S m change) disk (configPath m file) =
      some (printed S (change file (readJsonLenient S (disk (configPath m file))))) := by
  have hone (disk : Disk) (file : ConfigFile) : rewrite S m change disk file (configPath m file) =
      some (printed S (change file (readJsonLenient S (disk (configPath m file))))) := writeText_self _
  cases tool with
  | opencode | claudeCode | crush | zed =>
    rw [Tool.files, List.mem_singleton] at hfile
    rw [hfile]
    exact hone disk _
  | pi =>
    have hmodels : configPath m .piModels ≠ configPath m .piSettings := fun h => by
      have := join_inj m _ h
      revert this
      decide
    have hmodels' : configPath m .piModels ≠ backupPath (configPath m .piSettings) := fun h => by
      have := join_inj m _ (h.trans (join_backup m _ _))
      revert this
      decide
    have hsettings' : configPath m .piSettings ≠ backupPath (configPath m .piModels) := fun h => by
      have := join_inj m _ (h.trans (join_backup m _ _))
      revert this
      decide
    simp only [Tool.files, List.mem_cons, List.not_mem_nil, or_false] at hfile
    simp only [Tool.files, List.foldl_cons, List.foldl_nil]
    rcases hfile with rfl | rfl
    · exact (writeText_of_ne hmodels hmodels').trans (hone disk _)
    · refine (hone _ _).trans ?_
      rw [show rewrite S m change disk .piModels (configPath m .piSettings) = disk (configPath m .piSettings) from
        writeText_of_ne hmodels.symm hsettings']

end Disk

section Law

variable (S : SerdeJson) (m : Machine) (ep : Endpoint) (tool : Tool) (file : ConfigFile) (disk : Disk)
  (content : Bytes)

/-- Connecting and disconnecting keep the settings of a file that can be read, and change no other. -/
def Respected : Prop :=
  match jsonc S content with
  | some v => ∃ after w, disconnect S m tool (connect S m ep tool disk) (configPath m file) = some after ∧
      jsonc S after = some w ∧ Kept v w
  | none => connect S m ep tool disk (configPath m file) = some content ∧
      disconnect S m tool disk (configPath m file) = some content

/-- What the connectors write of a value is read back. -/
structure Faithful (v : Json) : Prop where
  connected : ReadsBack S (file.connected ep v)
  disconnected : ReadsBack S (file.disconnected v)
  undone : ReadsBack S (file.disconnected (file.connected ep v))

variable {S m ep tool file disk content}

/-- What a file holds after both, from what is read of it before and between them. -/
theorem disconnect_connect {u u' : Json} (hfile : file ∈ tool.files)
    (hdisk : disk (configPath m file) = some content) (hfirst : readJsonLenient S (some content) = u)
    (hsecond : readJsonLenient S (some (printed S (file.connected ep u))) = u') :
    disconnect S m tool (connect S m ep tool disk) (configPath m file) =
      some (printed S (file.disconnected u')) := by
  rw [disconnect, rewritten hfile, connect, rewritten hfile, hdisk, hfirst, hsecond]

/-- A file that cannot be read is written over. -/
theorem not_respected_of_none (hS : (printer S).Numeric) (hfile : file ∈ tool.files)
    (hdisk : disk (configPath m file) = some content) (hnone : jsonc S content = none)
    (hback : ReadsBack S (file.connected ep (readJsonLenient S (some content)))) :
    ¬ Respected S m ep tool file disk content := by
  intro h
  rw [Respected, hnone] at h
  have hwritten := h.1
  rw [connect, rewritten hfile, hdisk] at hwritten
  have hjson := jsonc_printed hS hback
  rw [Option.some.inj hwritten, hnone] at hjson
  cases hjson

/-- A file that both readings find its value in. -/
theorem respected_of_read {v : Json} (hS : (printer S).Numeric) (hep : ep.Sound) (hfile : file ∈ tool.files)
    (hdisk : disk (configPath m file) = some content) (hread : Faithful S ep file v)
    (hv : jsonc S content = some v) (hlenient : readJsonLenient S (some content) = v)
    (hunbroken : Each Unbroken v) : Respected S m ep tool file disk content ↔ file.Free v := by
  have hsecond : readJsonLenient S (some (printed S (file.connected ep v))) = file.connected ep v :=
    readJsonLenient_printed hS hread.connected (unbroken_connected file hep hunbroken)
  have hafter := disconnect_connect hfile hdisk hlenient hsecond
  have hjson := jsonc_printed hS hread.undone
  rw [Respected, hv]
  constructor
  · rintro ⟨after, w, hw, hread, hkept⟩
    cases hafter.symm.trans hw
    cases hjson.symm.trans hread
    exact (kept_iff_free file v).mp hkept
  · intro hfree
    exact ⟨_, _, hafter, hjson, (kept_iff_free file v).mpr hfree⟩

/-- A connector keeps the settings of the files it wrote over nothing in. -/
theorem respected_iff (hS : (printer S).Numeric) (hep : ep.Sound) (hfile : file ∈ tool.files)
    (hdisk : disk (configPath m file) = some content)
    (hread : Faithful S ep file (readJsonLenient S (some content)))
    (hplain : ∀ v, jsonc S content = some v → Harmless content ∧ Each Unbroken v) :
    Respected S m ep tool file disk content ↔ ∃ v, jsonc S content = some v ∧ file.Free v := by
  cases hv : jsonc S content with
  | none =>
    refine iff_of_false (not_respected_of_none hS hfile hdisk hv hread.connected) ?_
    rintro ⟨v, ⟨⟩, -⟩
  | some v =>
    obtain ⟨hharmless, hunbroken⟩ := hplain v hv
    have hlenient : readJsonLenient S (some content) = v := by
      rw [readJsonLenient_of_harmless hharmless, hv]
      rfl
    rw [hlenient] at hread
    rw [respected_of_read hS hep hfile hdisk hread hv hlenient hunbroken]
    simp only [Option.some.injEq, exists_eq_left']

end Law

section Shelf

/-- A reader of the texts of some values. -/
def known (vs : List Json) : SerdeJson where
  float _ := "0.5".toList
  fromStr t := vs.find? fun v => toStringPretty ⟨fun _ => "0.5".toList, fun _ => none⟩ v ++ ['\n'] = t

theorem numeric_known (vs : List Json) : (printer (known vs)).Numeric where
  ne_nil _ := show "0.5".toList ≠ [] by decide
  chars _ := List.all_eq_true.mp (show "0.5".toList.all isNumeric = true by decide)

def unix : Machine := ⟨false, "/home/a".toList, none, none⟩

def gateway : Endpoint := ⟨"http://127.0.0.1:8765".toList, "k".toList, "auto".toList⟩

theorem sound_gateway : gateway.Sound := by
  constructor
  all_goals decide

def holding (file : ConfigFile) (content : Bytes) : Disk := fun path =>
  if path = configPath unix file then some content else none

theorem holding_self (file : ConfigFile) (content : Bytes) :
    holding file content (configPath unix file) = some content := if_pos rfl

/-- A file of one entry. -/
def single (k s : String) : Json := object [(k, word s)]

theorem unbroken_single {k s : String} (hk : Unbroken k.toList) (hs : Unbroken s.toList) :
    Each Unbroken (single k s) := ⟨⟨hk, hs⟩, trivial⟩

def theme : Json := single "theme" "dark"

def themeReader : SerdeJson := known [theme, connectOpencode gateway theme, disconnectOpencode theme,
  disconnectOpencode (connectOpencode gateway theme)]

set_option maxRecDepth 4000 in
theorem respected_theme : Respected themeReader unix gateway .opencode .opencode
    (holding .opencode (printed themeReader theme)) (printed themeReader theme) := by
  have hS : (printer themeReader).Numeric := numeric_known _
  have hback : ReadsBack themeReader theme := rfl
  have hread : Faithful themeReader gateway .opencode theme := ⟨rfl, rfl, rfl⟩
  have hunbroken : Each Unbroken theme := unbroken_single (by decide) (by decide)
  have hlenient := readJsonLenient_printed hS hback hunbroken
  have hjson := jsonc_printed hS hback
  have hfree : ConfigFile.Free .opencode theme := by
    refine ⟨⟨_, rfl, rfl⟩, fun x hx => ?_⟩
    cases hx
  have hplain : ∀ v, jsonc themeReader (printed themeReader theme) = some v →
      Harmless (printed themeReader theme) ∧ Each Unbroken v := by
    intro v hv
    cases hjson.symm.trans hv
    exact ⟨harmless_printed hS hunbroken, hunbroken⟩
  exact (respected_iff hS sound_gateway (List.mem_singleton_self _) (holding_self _ _)
    (hlenient.symm ▸ hread) hplain).mpr ⟨theme, hjson, hfree⟩

def ownModel : Json := single "model" "mine"

def ownReader : SerdeJson := known [ownModel, connectOpencode gateway ownModel,
  disconnectOpencode ownModel, disconnectOpencode (connectOpencode gateway ownModel)]

def emptyReader : SerdeJson := known [connectCrush gateway (obj [])]

def globs : Json := single "ignore" "a,]"

def cutGlobs : Json := single "ignore" "a]"

def globReader : SerdeJson :=
  known [globs, cutGlobs, connectCrush gateway cutGlobs, disconnectCrush (connectCrush gateway cutGlobs)]

set_option maxRecDepth 4000 in
/-- A model of one's own is gone, a file that does not parse is written over, and a string is cut. -/
theorem not_respected :
    ¬ Respected ownReader unix gateway .opencode .opencode
      (holding .opencode (printed ownReader ownModel)) (printed ownReader ownModel) ∧
    ¬ Respected emptyReader unix gateway .crush .crush (holding .crush (Hex.utf8 ['\x7b'])) (Hex.utf8 ['\x7b']) ∧
    ¬ Respected globReader unix gateway .crush .crush
      (holding .crush (printed globReader globs)) (printed globReader globs) := by
  refine ⟨fun h => ?_, ?_, fun h => ?_⟩
  · have hS : (printer ownReader).Numeric := numeric_known _
    have hread : Faithful ownReader gateway .opencode ownModel := ⟨rfl, rfl, rfl⟩
    have hback : ReadsBack ownReader ownModel := rfl
    have hunbroken : Each Unbroken ownModel := unbroken_single (by decide) (by decide)
    have hfree := (respected_of_read hS sound_gateway (List.mem_singleton_self _) (holding_self _ _) hread
      (jsonc_printed hS hback) (readJsonLenient_printed hS hback hunbroken) hunbroken).mp h
    obtain ⟨es, hes, hnone⟩ := hfree.1
    cases hes
    cases hnone
  · have hnone : jsonc emptyReader (Hex.utf8 ['\x7b']) = none := by
      rw [jsonc, readText_utf8, Option.bind_some]
      rfl
    have hlenient : readJsonLenient emptyReader (some (Hex.utf8 ['\x7b'])) = obj [] := by
      unfold readJsonLenient
      rw [Option.bind_some, readText_utf8]
      rfl
    refine not_respected_of_none (numeric_known _) (List.mem_singleton_self _) (holding_self _ _) hnone ?_
    rw [hlenient]
    rfl
  · have hS : (printer globReader).Numeric := numeric_known _
    have hcut : readJsonLenient globReader (some (printed globReader globs)) = cutGlobs := by
      unfold readJsonLenient printed
      rw [Option.bind_some, readText_utf8]
      rfl
    have hback : ReadsBack globReader (connectCrush gateway cutGlobs) := rfl
    have hunbroken : Each Unbroken cutGlobs := unbroken_single (by decide) (by decide)
    have hsecond := readJsonLenient_printed hS hback (unbroken_connected .crush sound_gateway hunbroken)
    have hafter : disconnect globReader unix .crush (connect globReader unix gateway .crush
        (holding .crush (printed globReader globs))) (configPath unix .crush) = _ :=
      disconnect_connect (List.mem_singleton_self _) (holding_self .crush _) hcut hsecond
    have hglobs : ReadsBack globReader globs := rfl
    rw [Respected, jsonc_printed hS hglobs] at h
    obtain ⟨after, w, hw, hread, hkept⟩ := h
    cases hafter.symm.trans hw
    have hundone : ReadsBack globReader (disconnectCrush (connectCrush gateway cutGlobs)) := rfl
    cases (jsonc_printed hS hundone).symm.trans hread
    have hset : Setting globs ["ignore"] (word "a,]") :=
      ⟨rfl, final_of_not_obj (by rintro es ⟨⟩), by rintro ⟨⟩⟩
    have hleft : reach ["ignore"] (disconnectCrush (connectCrush gateway cutGlobs)) = some (word "a]") := rfl
    have hsame := Option.some.inj (hleft.symm.trans (hkept _ _ hset))
    exact absurd (Json.str.inj hsame) (by decide)

end Shelf

end Rootmode.ConnectedTools
