import Rootmode.ConnectedTools.Connectors
import Rootmode.Lib.Pointer
import Rootmode.Lib.Layout

namespace Rootmode.ConnectedTools

open Lib Lib.Text

/-- Of the gateway's status what a connector needs. -/
structure GatewayStatus where
  port : ℕ
  token : Text
  model : Option Text

def GatewayStatus.baseUrl (status : GatewayStatus) : Text :=
  ofString "http://127.0.0.1:" ++ Nat.toDigits 10 status.port

def endpointFromStatus (status : GatewayStatus) (fallbackModel : Option Text) : Endpoint :=
  ⟨status.baseUrl, status.token, (status.model.or fallbackModel).getD (ofString "auto")⟩

def codexLines (file : Option Text) : List Text := (file.map lines).getD []

def tomlString (value : Text) : Text :=
  '"' :: replace ['"'] ['\\', '"'] (replace ['\\'] ['\\', '\\'] value) ++ ['"']

def startsTable (line : Text) : Bool := ['['].isPrefixOf (line.dropWhile isWhitespace)

def firstTableIndex (ls : List Text) : ℕ := ls.findIdx startsTable

def providerHeader : Text := ofString "[model_providers." ++ ofString providerKey ++ ofString "]"

def isProviderHeader (line : Text) : Bool := trim line == providerHeader

def removeProviderTable (ls : List Text) : List Text :=
  match ls.findIdx? isProviderHeader with
  | none => ls
  | some start =>
    let stop := start + 1 + ((ls.drop (start + 1)).takeWhile fun line => !startsTable line).length
    ls.take start ++ ls.drop stop

def startsKey (key line : Text) : Bool := (key ++ [' ']).isPrefixOf (line.dropWhile isWhitespace)

def setTopLevel (ls : List Text) (key assignment : Text) : List Text :=
  let limit := firstTableIndex ls
  match (ls.take limit).findIdx? (startsKey key) with
  | some i => ls.set i assignment
  | none => ls.take limit ++ assignment :: ls.drop limit

def removeTopLevel (ls : List Text) (key : Text) : List Text :=
  let limit := firstTableIndex ls
  match (ls.take limit).findIdx? (startsKey key) with
  | some i => ls.take i ++ ls.drop (i + 1)
  | none => ls

def codexEnvVar : Text := ofString "ROOTMODE_GATEWAY_TOKEN"

def assignment (key value : Text) : Text := key ++ ofString " = " ++ tomlString value

def modelKey : Text := ofString "model"

def modelProviderKey : Text := ofString "model_provider"

/-- The lines without the blank ones at their end. -/
def popBlank (ls : List Text) : List Text := ls.rdropWhile fun line => trim line == []

/-- The provider's table. -/
def providerTable (ep : Endpoint) : List Text :=
  [providerHeader,
    assignment (ofString "name") (ofString "rootmode"),
    assignment (ofString "base_url") (ep.baseUrl ++ ofString "/v1"),
    ofString "wire_api = \"responses\"",
    assignment (ofString "env_key") codexEnvVar]

def connectLines (ep : Endpoint) (ls : List Text) : List Text :=
  let ls := removeProviderTable ls
  let ls := setTopLevel ls modelProviderKey (assignment modelProviderKey (ofString providerKey))
  let ls := setTopLevel ls modelKey (assignment modelKey ep.model)
  popBlank ls ++ [] :: providerTable ep

def disconnectLines (ls : List Text) : List Text :=
  removeTopLevel (removeProviderTable ls) modelProviderKey

def fileText (ls : List Text) : Text := ['\n'].intercalate ls ++ ['\n']

/-- What is written where there is this file, or none. -/
def connectCodex (ep : Endpoint) (file : Option Text) : Text := fileText (connectLines ep (codexLines file))

def disconnectCodex (file : Option Text) : Option Text :=
  file.map fun text => fileText (disconnectLines (codexLines (some text)))

variable {ls ls' before after : List Text} {l line a key : Text} {ep : Endpoint} {p : Text → Bool}

section Top

/-- The lines before the first that a bracket begins. -/
def top (ls : List Text) : List Text := ls.takeWhile fun line => !startsTable line

def rest (ls : List Text) : List Text := ls.dropWhile fun line => !startsTable line

theorem top_append_rest (ls : List Text) : top ls ++ rest ls = ls := List.takeWhile_append_dropWhile

theorem not_startsTable_of_mem_top (h : l ∈ top ls) : startsTable l = false := by
  have := List.mem_takeWhile_imp h
  rwa [Bool.not_eq_true'] at this

theorem firstTableIndex_eq : firstTableIndex ls = (top ls).length := by
  rw [firstTableIndex, top]
  induction ls with
  | nil => rfl
  | cons l ls ih =>
    rw [List.findIdx_cons, List.takeWhile_cons]
    cases startsTable l with
    | true => rfl
    | false => exact congrArg (· + 1) ih

theorem take_firstTableIndex : ls.take (firstTableIndex ls) = top ls := by
  rw [firstTableIndex_eq]
  conv_lhs =>
    rw [← top_append_rest ls]
  rw [top_append_rest]
  conv_lhs =>
    arg 2
    rw [← top_append_rest ls]
  exact List.take_left

theorem drop_firstTableIndex : ls.drop (firstTableIndex ls) = rest ls := by
  rw [firstTableIndex_eq]
  conv_lhs =>
    arg 2
    rw [← top_append_rest ls]
  exact List.drop_left

theorem top_append (h : ∀ l ∈ before, startsTable l = false) : top (before ++ after) = before ++ top after := by
  refine List.takeWhile_append_of_pos fun l hl => ?_
  rw [h l hl]
  rfl

theorem rest_append (h : ∀ l ∈ before, startsTable l = false) : rest (before ++ after) = rest after := by
  refine List.dropWhile_append_of_pos fun l hl => ?_
  rw [h l hl]
  rfl

theorem top_cons_of_startsTable (h : startsTable l) : top (l :: ls) = [] := by
  rw [top, List.takeWhile_cons, h]
  rfl

/-- What comes from the first line on that a bracket begins is of no account. -/
theorem top_append_of_startsTable (hl : l ∈ before) (h : startsTable l) : top (before ++ after) = top before := by
  induction before with
  | nil => cases hl
  | cons b before ih =>
    rw [top, List.cons_append, List.takeWhile_cons, top, List.takeWhile_cons]
    cases hb : startsTable b with
    | true => rfl
    | false =>
      have hmem : l ∈ before := by
        rcases List.mem_cons.mp hl with rfl | hmem
        · rw [h] at hb
          cases hb
        · exact hmem
      exact congrArg (b :: ·) (ih hmem)

/-- Lines of which a bracket begins the first, if there is one. -/
def Headed (ls : List Text) : Prop := ∀ l ∈ ls.head?, startsTable l

theorem headed_rest (ls : List Text) : Headed (rest ls) := by
  intro l hl
  have := List.head?_dropWhile_not (fun line => !startsTable line) ls
  rw [rest] at hl
  rw [Option.mem_def.mp hl] at this
  simpa using this

theorem Headed.top_eq (h : Headed ls) : top ls = [] := by
  cases ls with
  | nil => rfl
  | cons l ls => exact top_cons_of_startsTable (h l rfl)

end Top

section Find

theorem findIdx?_cases (p : Text → Bool) (ls : List Text) :
    (ls.findIdx? p = none ∧ ∀ l ∈ ls, p l = false) ∨
      ∃ before l after, ls = before ++ l :: after ∧ ls.findIdx? p = some before.length ∧ p l ∧ ∀ x ∈ before, p x = false := by
  induction ls with
  | nil => exact .inl ⟨rfl, fun l hl => absurd hl List.not_mem_nil⟩
  | cons l ls ih =>
    rw [List.findIdx?_cons]
    cases hl : p l with
    | true => exact .inr ⟨[], l, ls, rfl, rfl, hl, fun x hx => absurd hx List.not_mem_nil⟩
    | false =>
      rcases ih with ⟨hnone, hall⟩ | ⟨before, l', after, rfl, hsome, hl', hbefore⟩
      · refine .inl ⟨by rw [hnone]; rfl, ?_⟩
        rw [List.forall_mem_cons]
        exact ⟨hl, hall⟩
      · refine .inr ⟨l :: before, l', after, rfl, by rw [hsome]; rfl, hl', ?_⟩
        rw [List.forall_mem_cons]
        exact ⟨hl, hbefore⟩

theorem setTopLevel_cases (ls : List Text) (key a : Text) :
    ((∀ l ∈ top ls, startsKey key l = false) ∧ setTopLevel ls key a = top ls ++ a :: rest ls) ∨
      ∃ before l after, top ls = before ++ l :: after ∧ startsKey key l ∧ (∀ x ∈ before, startsKey key x = false) ∧
        setTopLevel ls key a = before ++ a :: after ++ rest ls := by
  unfold setTopLevel
  simp only [take_firstTableIndex, drop_firstTableIndex]
  rcases findIdx?_cases (startsKey key) (top ls) with ⟨hnone, hall⟩ | ⟨before, l, after, htop, hsome, hl, hbefore⟩
  · rw [hnone]
    exact .inl ⟨hall, rfl⟩
  · rw [hsome]
    refine .inr ⟨before, l, after, htop, hl, hbefore, ?_⟩
    change ls.set before.length a = _
    conv_lhs => rw [← top_append_rest ls, htop]
    rw [List.append_assoc, List.cons_append, List.set_append_right _ _ (Nat.le_refl _), Nat.sub_self, List.set_cons_zero,
      List.append_assoc, List.cons_append]

theorem removeTopLevel_cases (ls : List Text) (key : Text) :
    ((∀ l ∈ top ls, startsKey key l = false) ∧ removeTopLevel ls key = ls) ∨
      ∃ before l after, top ls = before ++ l :: after ∧ startsKey key l ∧ (∀ x ∈ before, startsKey key x = false) ∧
        removeTopLevel ls key = before ++ after ++ rest ls := by
  unfold removeTopLevel
  simp only [take_firstTableIndex]
  rcases findIdx?_cases (startsKey key) (top ls) with ⟨hnone, hall⟩ | ⟨before, l, after, htop, hsome, hl, hbefore⟩
  · rw [hnone]
    exact .inl ⟨hall, rfl⟩
  · rw [hsome]
    refine .inr ⟨before, l, after, htop, hl, hbefore, ?_⟩
    have hls : ls = before ++ l :: (after ++ rest ls) := by
      rw [← List.cons_append, ← List.append_assoc, ← htop, top_append_rest]
    change ls.take before.length ++ ls.drop (before.length + 1) = _
    conv_lhs => rw [hls]
    rw [List.take_left, List.drop_append, List.drop_eq_nil_of_le (Nat.le_succ _), Nat.add_sub_cancel_left,
      List.nil_append, List.drop_one, List.tail_cons, List.append_assoc]

theorem removeProviderTable_cases (ls : List Text) :
    ((∀ l ∈ ls, isProviderHeader l = false) ∧ removeProviderTable ls = ls) ∨
      ∃ before l table after, ls = before ++ l :: (table ++ after) ∧ isProviderHeader l ∧
        (∀ x ∈ before, isProviderHeader x = false) ∧ (∀ x ∈ table, startsTable x = false) ∧ Headed after ∧
        removeProviderTable ls = before ++ after := by
  unfold removeProviderTable
  rcases findIdx?_cases isProviderHeader ls with ⟨hnone, hall⟩ | ⟨before, l, after, hls, hsome, hl, hbefore⟩
  · rw [hnone]
    exact .inl ⟨hall, rfl⟩
  · rw [hsome]
    refine .inr ⟨before, l, top after, rest after, by rw [top_append_rest, hls], hl, hbefore,
      fun x hx => not_startsTable_of_mem_top hx, headed_rest after, ?_⟩
    have hdrop : ls.drop (before.length + 1) = after := by
      rw [hls, List.drop_append, List.drop_eq_nil_of_le (Nat.le_succ _), Nat.add_sub_cancel_left, List.nil_append]
      rfl
    change ls.take before.length ++ ls.drop (before.length + 1 + (top (ls.drop (before.length + 1))).length) = _
    rw [← List.drop_drop, hdrop, ← firstTableIndex_eq, drop_firstTableIndex, hls, List.take_left]

end Find

end Rootmode.ConnectedTools
