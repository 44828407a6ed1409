import Rootmode.Contracts.Erc20
import Mathlib.Tactic.NormNum

namespace Rootmode.MockUsdc

open Lib Lib.Bytes Lib.TotalMap

/-- The token of the local chain.  The balances add up to the supply, so the checked additions of
`transfer` and `transferFrom` never overflow. -/
structure Token where
  balanceOf : Address → ℕ
  allowance : Address → Address → ℕ
  nonces : Address → ℕ
  totalSupply : ℕ
  supply : ∑ a, balanceOf a = totalSupply
  bound : totalSupply < 2 ^ 256

theorem Token.moved_lt (t : Token) (a b : Address) {n : ℕ} (h : n ≤ t.balanceOf a) (c : Address) :
    moved t.balanceOf a b n c < 2 ^ 256 := by
  have hle := le_sum (moved t.balanceOf a b n) c
  have hsum := sum_moved t.balanceOf a b h
  have := t.supply
  have := t.bound
  omega

def empty : Token where
  balanceOf _ := 0
  allowance _ _ := 0
  nonces _ := 0
  totalSupply := 0
  supply := by simp
  bound := by norm_num

def mint (t : Token) (receiver : Address) (amount : ℕ) : Option Token :=
  if h : t.totalSupply + amount < 2 ^ 256 then
    some { t with
      balanceOf := Function.update t.balanceOf receiver (t.balanceOf receiver + amount)
      totalSupply := t.totalSupply + amount
      supply := by
        have := sum_update id t.balanceOf receiver (t.balanceOf receiver + amount)
        have := t.supply
        simp only [id] at *
        omega
      bound := h }
  else none

def approve (t : Token) (owner spender : Address) (amount : ℕ) : Token :=
  { t with
    allowance := Function.update t.allowance owner
      (Function.update (t.allowance owner) spender amount) }

/-- `balanceOf[sender] -= amount; balanceOf[to] += amount`. -/
def pay (t : Token) (sender receiver : Address) (amount : ℕ)
    (h : amount ≤ t.balanceOf sender) : Token :=
  { t with
    balanceOf := moved t.balanceOf sender receiver amount
    supply := (sum_moved _ _ _ h).trans t.supply }

def transfer (t : Token) (sender receiver : Address) (amount : ℕ) : Option (Bool × Token) :=
  if h : amount ≤ t.balanceOf sender then some (true, pay t sender receiver amount h) else none

def transferFrom (t : Token) (spender sender receiver : Address) (amount : ℕ) :
    Option (Bool × Token) :=
  if amount ≤ t.allowance sender spender then
    if h : amount ≤ t.balanceOf sender then
      some (true, approve (pay t sender receiver amount h) sender spender
        (t.allowance sender spender - amount))
    else none
  else none

def permitTypehash : String :=
  "Permit(address owner,address spender,uint256 value,uint256 nonce,uint256 deadline)"

def permitDigest (C : Crypto) (chainId : ℕ) (self : Address) (t : Token)
    (owner spender : Address) (amount deadline : ℕ) : Bytes32 :=
  C.typedDigest (C.domainSeparator "rootmode USD" chainId self)
    (C.keccak256 (abiEncode
      [(C.keccak256 (ascii permitTypehash)).toNat, owner.toNat, spender.toNat, amount,
        t.nonces owner, deadline]))

def permit (C : Crypto) (chainId : ℕ) (self : Address) (t : Token) (now : ℕ)
    (owner spender : Address) (amount deadline v : ℕ) (r s : Bytes32) : Option Token :=
  let signer := C.ecrecover (permitDigest C chainId self t owner spender amount deadline)
    v r.toNat s.toNat
  if deadline < now then none
  else if signer = 0 ∨ signer ≠ owner then none
  else
    let t := approve t owner spender amount
    some { t with nonces := Function.update t.nonces owner (t.nonces owner + 1) }

def erc20 (C : Crypto) (chainId : ℕ) (self : Address) : Erc20 Token where
  balanceOf := Token.balanceOf
  transfer := transfer
  transferFrom := transferFrom
  permit := permit C chainId self
  balanceOf_lt t a := by
    have hle := le_sum t.balanceOf a
    have := t.supply
    have := t.bound
    omega
  transfer_moves := by
    intro t t' a b n h
    unfold transfer at h
    split at h
    · next hn =>
      simp only [Option.some.injEq, Prod.mk.injEq, true_and] at h
      subst h
      exact ⟨hn, rfl⟩
    · cases h
  transfer_pays := by
    intro t a n b h
    exact ⟨_, dif_pos h⟩
  transferFrom_moves := by
    intro t t' c a b n h
    unfold transferFrom at h
    split at h
    · split at h
      · next hn =>
        simp only [Option.some.injEq, Prod.mk.injEq, true_and] at h
        subst h
        exact ⟨hn, rfl⟩
      · cases h
    · cases h
  permit_keeps := by
    intro t t' now a b n d v r s h
    simp only [permit] at h
    split at h
    · cases h
    · split at h
      · cases h
      · cases h
        rfl

end Rootmode.MockUsdc
