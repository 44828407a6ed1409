import Rootmode.Core.Payments
import Rootmode.Contracts.Pot
import Rootmode.Lib.Effect

namespace Rootmode.Worker

open Lib Lib.Bytes Lib.Checked Lib.Text Payments

inductive WorkerError
  | config (message : String)
  | net (message : String)
  | rejected (message : String)
  deriving DecidableEq

def WorkerError.text : WorkerError → String
  | .config message => s!"config: {message}"
  | .net message => s!"network: {message}"
  | .rejected message => s!"rejected: {message}"

/-- What the node's configuration says about settlement. -/
structure PaymentsConfig where
  contract : Text
  chainId : ℕ
  rpc : Text
  sender : Text
  key : Text
  requireAuth : Bool
  deriving DecidableEq

/-- The domain signatures must be good for, none when this node is not charging. -/
def PaymentsConfig.domain (payments : PaymentsConfig) : Option Domain :=
  let contract := trim payments.contract
  if contract = [] then none
  else some { chainId := payments.chainId, verifyingContract := contract }

/-- What the node does to the chain, whose state its calls, and everybody else's meanwhile, move
on. -/
structure Rpc (κ : Type) where
  /-- `eth_call` to the pot, which answers with a hex string. -/
  ethCall : Bytes → Effect WorkerError κ Text
  /-- Sign a call to the pot, send it and wait until it is mined. -/
  sendCall : Bytes → Effect WorkerError κ Text
  sleep : κ → κ
  now : κ → ℕ

/-- The on-chain channel as the node reads it. -/
structure ChannelState where
  remaining : ℕ
  reserved : ℕ
  earned : ℕ
  /-- Zero when unknown. -/
  maxPerJob : ℕ
  appKey : Text
  deriving DecidableEq

namespace Chain

/-- The zero address: an empty app-key slot. -/
def isZeroAddress (address : Text) : Bool := (trimStart0x address).all (· == '0')

def wordAddress (address : Text) : Except WorkerError Bytes :=
  match Hex.decode (trimStart0x address) with
  | .error e => .error (.rejected e.text)
  | .ok bytes =>
    let shown := address.str
    if bytes.length = 20 then .ok (List.replicate 12 0 ++ bytes)
    else .error (.rejected s!"not an address: {shown}")

def readU64 (word : Text) : ℕ := (Hex.parse 64 (word.dropWhile (· = '0'))).getD 0

/-- The characters of `hex` from `i` up to `j`. -/
def slice (hex : Text) (i j : ℕ) : Text := (hex.drop i).take (j - i)

variable (C : Crypto) {κ : Type} (R : Rpc κ) (payments : PaymentsConfig)

def selector (signature : String) : Bytes := (word (C.keccak256 (ascii signature))).take 4

/-- What a reply to `channels(client, worker)` says: six words or more. -/
def decodeChannel (raw : Text) : Except WorkerError ChannelState :=
  let hex := trimStart0x raw
  if hex.length < 64 * 6 then
    .ok { remaining := 0, reserved := 0, earned := 0, maxPerJob := 0, appKey := [] }
  else do
    let reserved := readU64 (slice hex 0 64)
    let closeAt := readU64 (slice hex (64 * 3) (64 * 4))
    let appKey := ofString "0x" ++ slice hex (64 * 4 + 24) (64 * 5)
    let earned := readU64 (slice hex (64 * 5) (64 * 6))
    let maxPerJob := if 64 * 7 ≤ hex.length then readU64 (slice hex (64 * 6) (64 * 7)) else 0
    require (closeAt = 0)
      (.rejected "this client is closing the channel; unused lock is returning")
    return { remaining := reserved - earned, reserved, earned, maxPerJob, appKey }

/-- The channel of a client and a payout as the chain has it, none without an RPC. -/
def channelState (client worker : Text) : Effect WorkerError κ (Option ChannelState) :=
  if trim payments.rpc = [] ∨ trim payments.contract = [] then pure none
  else do
    let client ← .lift (wordAddress client)
    let worker ← .lift (wordAddress worker)
    let raw ← R.ethCall (selector C "channels(address,address)" ++ client ++ worker)
    let state ← .lift (decodeChannel raw)
    return some state

/-- Padded with zeros to a multiple of 32 bytes. -/
def padded (sig : Bytes) : Bytes := sig ++ List.replicate ((32 - sig.length % 32) % 32) 0

/-- The calldata of `reserve` and `settle`. -/
def encodeCall (signature : String) (client worker : Text) (amount deadline : ℕ) (sig : Bytes) :
    Except WorkerError Bytes := do
  let client ← wordAddress client
  let worker ← wordAddress worker
  return selector C signature ++ client ++ worker ++ bigEndian 32 amount ++ bigEndian 32 deadline ++
    bigEndian 32 (5 * 32) ++ bigEndian 32 sig.length ++ padded sig

/-- Whether a reply shows the channel where a call would take it. -/
def shows (done : ChannelState → Prop) [DecidablePred done] :
    Except WorkerError (Option ChannelState) → Bool
  | .ok (some ch) => done ch
  | _ => false

/-- Send a call about a channel unless the chain shows it is done. -/
def sendUnless (done : ChannelState → Prop) [DecidablePred done] (client worker : Text)
    (data : Except WorkerError Bytes) : Effect WorkerError κ (Option Text) := do
  let state ← .attempt (channelState C R payments client worker)
  if shows done state then return none
  else do
    let data ← .lift data
    let hash ← R.sendCall data
    return some hash

/-- Post a signed reserve, unless the chain already holds a lock as high. -/
def reserve (ticket : ReserveTicket) (sig : Bytes) : Effect WorkerError κ (Option Text) :=
  sendUnless C R payments (fun ch => ticket.maxAmount ≤ ch.reserved) ticket.client
    ticket.workerPayout
    (encodeCall C "reserve(address,address,uint256,uint64,bytes)" ticket.client ticket.workerPayout
      ticket.maxAmount ticket.deadline sig)

/-- Settle a spend ticket, unless the chain has already recognised as much. -/
def settle (ticket : SpendTicket) (sig : Bytes) : Effect WorkerError κ (Option Text) :=
  sendUnless C R payments (fun ch => ticket.cumulative ≤ ch.earned) ticket.client
    ticket.workerPayout
    (encodeCall C "settle(address,address,uint256,uint64,bytes)" ticket.client ticket.workerPayout
      ticket.cumulative ticket.deadline sig)

end Chain

end Rootmode.Worker
