import Rootmode.Contracts.FeeVault

namespace Rootmode.FeeVault

open Lib Lib.Checked Lib.Transition

variable {τ : Type} {E : Deployment τ} {C : Storage → Call → Prop} {m : Msg} {c : Call} {w w' : World τ}
  {s s' : Storage} {now minOut : ℕ} {router : Address} {params : ExactInputSingleParams}
  {log before : List Trade} {b : Trade}

section Calls

@[simp] theorem pure_eq_ok {α : Type} (a b : α) : (pure a : Except Revert α) = .ok b ↔ a = b := by
  change Except.ok a = Except.ok b ↔ a = b
  exact Except.ok.injEq a b ▸ Iff.rfl

theorem setAdmin_eq_ok {newAdmin : Address} (h : setAdmin m newAdmin s = .ok s') :
    s' = { s with admin := newAdmin } := by
  simp only [setAdmin, onlyAdmin, bind_eq_ok, require_eq_ok, pure_eq_ok] at h
  obtain ⟨-, -, -, -, rfl⟩ := h
  rfl

theorem setSwap_eq_ok {projectToken router sink : Address} {poolFee epoch : ℕ}
    (h : setSwap m projectToken router poolFee sink epoch s = .ok s') :
    s' = { s with projectToken, router, poolFee, sink, epoch } := by
  simp only [setSwap, onlyAdmin, bind_eq_ok, require_eq_ok, pure_eq_ok] at h
  obtain ⟨-, -, rfl⟩ := h
  rfl

theorem setBuyToken_eq_ok {enabled : Bool} (h : setBuyToken m enabled s = .ok s') :
    s' = { s with buyToken := enabled } ∧
      (enabled → s.projectToken ≠ 0 ∧ s.router ≠ 0 ∧ s.sink ≠ 0 ∧ 0 < s.epoch) := by
  simp only [setBuyToken, onlyAdmin, bind_eq_ok, require_eq_ok, pure_eq_ok] at h
  obtain ⟨-, -, -, hswap, -, hepoch, rfl⟩ := h
  refine ⟨rfl, fun hon => ?_⟩
  obtain ⟨htoken, hrouter, hsink⟩ : s.projectToken ≠ 0 ∧ s.router ≠ 0 ∧ s.sink ≠ 0 := by
    simpa only [not_or] using hswap hon
  exact ⟨htoken, hrouter, hsink, Nat.pos_of_ne_zero (hepoch hon)⟩

theorem withdraw_vault {receiver : Address} {amount : ℕ} (h : withdraw E m receiver amount w = .ok w') :
    w'.vault = w.vault := by
  simp only [withdraw, onlyAdmin, bind_eq_ok, require_eq_ok, pure_eq_ok] at h
  obtain ⟨-, -, -, -, -, -, -, -, x, -, -, -, rfl⟩ := h
  rfl

/-- What a buyback asks of the router, and of the vault before it may. -/
theorem prepare_eq_ok (h : prepare E m minOut w = .ok (router, params, w')) :
    w.vault.buyToken = true ∧ w.vault.lastBuyback + w.vault.epoch ≤ m.timestamp ∧
      w'.vault = { w.vault with lastBuyback := m.timestamp } ∧
      router = w.vault.router ∧ params.tokenOut = w.vault.projectToken ∧ params.recipient = w.vault.sink := by
  simp only [prepare, onlyAdmin, bind_eq_ok, require_eq_ok, pure_eq_ok, add_eq_ok, narrow_eq_ok] at h
  obtain ⟨-, -, -, hon, next, ⟨-, rfl⟩, -, hnext, -, -, lastBuyback, ⟨-, rfl⟩, x, -, -, -, heq⟩ := h
  cases heq
  exact ⟨hon, hnext, rfl, rfl, rfl, rfl⟩

end Calls

section Safe

/-- Any setting is safe while the switch is off, and a complete one always. -/
theorem setSwap_safe {projectToken router sink : Address} {poolFee epoch : ℕ}
    (h : setSwap m projectToken router poolFee sink epoch s = .ok s') :
    s'.Safe ↔ Careful s (.setSwap projectToken router poolFee sink epoch) := by
  rw [setSwap_eq_ok h]
  exact Iff.rfl

theorem exec_safe (h : exec E m c w = .ok w') (hC : Careful w.vault c) (hs : w.vault.Safe) :
    w'.vault.Safe := by
  cases c with
  | setAdmin newAdmin =>
    obtain ⟨s, hcall, rfl⟩ := (map_eq_ok _ _ _).mp h
    rw [setAdmin_eq_ok hcall]
    exact hs
  | setSwap projectToken router poolFee sink epoch =>
    obtain ⟨s, hcall, rfl⟩ := (map_eq_ok _ _ _).mp h
    exact (setSwap_safe hcall).mpr hC
  | setBuyToken enabled =>
    obtain ⟨s, hcall, rfl⟩ := (map_eq_ok _ _ _).mp h
    obtain ⟨rfl, hset⟩ := setBuyToken_eq_ok hcall
    exact hset
  | withdraw receiver amount =>
    rw [withdraw_vault h]
    exact hs
  | buyback minOut => cases h

/-- No call but a buyback begins an epoch. -/
theorem exec_lastBuyback (h : exec E m c w = .ok w') : w'.vault.lastBuyback = w.vault.lastBuyback := by
  cases c with
  | setAdmin newAdmin =>
    obtain ⟨s, hcall, rfl⟩ := (map_eq_ok _ _ _).mp h
    rw [setAdmin_eq_ok hcall]
  | setSwap projectToken router poolFee sink epoch =>
    obtain ⟨s, hcall, rfl⟩ := (map_eq_ok _ _ _).mp h
    rw [setSwap_eq_ok hcall]
  | setBuyToken enabled =>
    obtain ⟨s, hcall, rfl⟩ := (map_eq_ok _ _ _).mp h
    rw [(setBuyToken_eq_ok hcall).1]
  | withdraw receiver amount => rw [withdraw_vault h]
  | buyback minOut => cases h

end Safe

section Runs

/-- A vault that guards its switch, and that began its epoch no earlier than its last buyback. -/
structure Kept (v : Storage) (log : List Trade) : Prop where
  safe : v.Safe
  real : ∀ b ∈ log, b.Real
  apart : log.Pairwise Trade.Before
  last : ∀ b ∈ log, b.time ≤ v.lastBuyback

theorem exec_kept (h : exec E m c w = .ok w') (hC : Careful w.vault c) (hk : Kept w.vault log) :
    Kept w'.vault log where
  safe := exec_safe h hC hk.safe
  real := hk.real
  apart := hk.apart
  last := by
    rw [exec_lastBuyback h]
    exact hk.last

theorem prepare_kept (h : prepare E m minOut w = .ok (router, params, w')) (hk : Kept w.vault log) :
    Kept w'.vault (log ++ [⟨m.timestamp, w.vault.epoch, router, params⟩]) := by
  obtain ⟨hon, hnext, hvault, hrouter, htoken, hrecipient⟩ := prepare_eq_ok h
  obtain ⟨htoken', hrouter', hsink', hepoch⟩ := hk.safe hon
  constructor
  · rw [hvault]
    exact hk.safe
  · intro b hb
    rcases List.mem_append.mp hb with hb | hb
    · exact hk.real b hb
    · rw [List.mem_singleton.mp hb]
      exact ⟨hrouter ▸ hrouter', htoken ▸ htoken', hrecipient ▸ hsink', hepoch⟩
  · rw [List.pairwise_append]
    refine ⟨hk.apart, List.pairwise_singleton _ _, fun a ha b hb => ?_⟩
    rw [List.mem_singleton.mp hb]
    have := hk.last a ha
    change a.time + w.vault.epoch ≤ m.timestamp
    omega
  · intro b hb
    rw [hvault]
    change b.time ≤ m.timestamp
    rcases List.mem_append.mp hb with hb | hb
    · have := hk.last b hb
      omega
    · rw [List.mem_singleton.mp hb]

/-- One time on the chain: by induction on the calls, those of a router among them. -/
theorem turn_kept (h : Turn E Careful now w w' log) (hk : Kept w.vault before) : Kept w'.vault (before ++ log) := by
  induction h generalizing before with
  | idle w =>
    rw [List.append_nil]
    exact hk
  | others t' hturn ih => exact ih hk
  | call sender hdecodes hC hexec hturn ih => exact ih (exec_kept hexec hC hk)
  | buyback sender hdecodes hC hprepare hrouter hturn ihrouter ih =>
    have hafter := ih (ihrouter (prepare_kept hprepare hk))
    rwa [List.append_assoc, List.append_assoc, List.singleton_append] at hafter

theorem step_kept {a b : Chain τ} {now : ℕ} (h : Step E Careful a now b) (hk : Kept a.world.vault a.log) :
    Kept b.world.vault b.log := by
  cases h with
  | mk hnow hturn => exact turn_kept hturn hk

theorem genesis_kept {a : Chain τ} (h : a.Genesis) : Kept a.world.vault a.log := by
  obtain ⟨hvault, hlog⟩ := h
  rw [hlog]
  constructor
  · rw [hvault]
    intro hon
    cases hon
  · exact fun b hb => absurd hb List.not_mem_nil
  · exact List.Pairwise.nil
  · exact fun b hb => absurd hb List.not_mem_nil

/-- In every run that changes the settings to complete ones while the switch is on, it is on only while all
is set, every buyback is through a real router to a real sink, and an epoch lies between any two. -/
theorem guarded_of_careful {a b : Chain τ} (ha : a.Genesis) (hrun : Runs (Step E Careful) a b) : b.Guarded := by
  have hk : Kept b.world.vault b.log :=
    hrun.invariant (P := fun c => Kept c.world.vault c.log) (fun hstep => step_kept hstep) (genesis_kept ha)
  exact ⟨hk.safe, hk.real, hk.apart⟩

end Runs

section Local

open MockUsdc

/-- The token of the local chain as a vault sees it. -/
def localUsdc : Usdc Token where
  address := 7
  balanceOf := Token.balanceOf
  transfer := MockUsdc.transfer
  approve t owner spender amount := some (true, MockUsdc.approve t owner spender amount)

def localVault : Deployment Token := ⟨localUsdc, 9⟩

/-- A vault with a thousand units of fees. -/
def funded : Token := (mint empty 9 1000).getD empty

def fresh : Chain Token := ⟨0, ⟨{ admin := 1 }, funded⟩, []⟩

def switchedOn : Storage :=
  { admin := 1, projectToken := 2, router := 3, poolFee := 500, sink := 4, epoch := 3600, buyToken := true }

/-- The router is asked to buy, and takes what it was approved. -/
def bought : Chain Token where
  now := 5000
  world := ⟨{ switchedOn with lastBuyback := 5000 }, empty⟩
  log := [⟨5000, 3600, 3, ⟨7, 2, 500, 4, 1000, 10, 0⟩⟩]

set_option maxRecDepth 4000 in
theorem fresh_bought : Runs (Step localVault Careful) fresh bought := by
  have hset : Turn localVault Careful 100 fresh.world ⟨switchedOn, funded⟩ [] := by
    refine .call 1 (c := .setSwap 2 3 500 4 3600) ⟨by norm_num, by norm_num⟩ (fun hon => by cases hon) rfl ?_
    exact .call 1 (c := .setBuyToken true) trivial trivial rfl (.idle _)
  have hbuy : Turn localVault Careful 5000 ⟨switchedOn, funded⟩ bought.world bought.log := by
    exact .buyback 1 (show (Call.buyback 10).Decodes by decide) trivial rfl (.others empty (.idle _)) (.idle _)
  exact ((Runs.refl fresh).tail (.mk (by decide) hset)).tail (.mk (by decide) hbuy)

theorem guarded_bought : bought.Guarded := guarded_of_careful (a := fresh) ⟨rfl, rfl⟩ fresh_bought

/-- The swap path taken back while the switch is on. -/
def unset : Chain Token where
  now := 100
  world := ⟨{ switchedOn with router := 0, sink := 0, epoch := 0 }, funded⟩
  log := []

set_option maxRecDepth 4000 in
theorem fresh_unset : Runs (Step localVault fun _ _ => True) fresh unset := by
  have hset : Turn localVault (fun _ _ => True) 100 fresh.world unset.world [] := by
    refine .call 1 (c := .setSwap 2 3 500 4 3600) ⟨by norm_num, by norm_num⟩ trivial rfl ?_
    refine .call 1 (c := .setBuyToken true) trivial trivial rfl ?_
    exact .call 1 (c := .setSwap 2 0 500 0 0) ⟨by norm_num, by norm_num⟩ trivial rfl (.idle _)
  exact Runs.single (.mk (by decide) hset)

theorem unguarded_unset :
    fresh.Genesis ∧ Runs (Step localVault fun _ _ => True) fresh unset ∧ ¬ unset.Guarded := by
  refine ⟨⟨rfl, rfl⟩, fresh_unset, fun h => ?_⟩
  exact absurd (h.safe rfl).2.1 (by decide)

end Local

end Rootmode.FeeVault
