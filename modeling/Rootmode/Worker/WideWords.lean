import Rootmode.Worker.ChainView
import Rootmode.Worker.Deferral

namespace Rootmode.Worker

open Lib Lib.Bytes Lib.Checked Lib.Text Lib.Effect Payments

/-- The largest number of 64 bits. -/
def maxU64 : ℕ := 2 ^ 64 - 1

variable {κ : Type} (cfg : Config) (C : Crypto) (R : Rpc κ) {n m : ℕ}

/-- A chain whose pot answers with the channel that `view` sees in its state. -/
def Rpc.showing (view : κ → Pot.Channel) : Rpc κ :=
  { R with ethCall := fun data s =>
      let after := R.ethCall data s
      (after.1.map fun _ => Chain.returnData (view after.2), after.2) }

/-- What the node reads of a channel. -/
def replyOf (ch : Pot.Channel) : Except WorkerError (Option ChannelState) :=
  (Chain.decodeChannel (Chain.returnData ch)).map some

def ChannelState.withCap (cap : Micros) (state : ChannelState) : ChannelState := { state with maxPerJob := cap }

/-- The check of a lock without that of the bill against the cap. -/
def checkUncapped (bonds : Bonds) (submit : JobSubmit) (payout : Text) : Effect WorkerError κ ChannelState := do
  let payer ← .lift (demand submit.payer (.rejected
    "priced jobs need a payer address so this node can check the on-chain lock"))
  let d ← .lift (demand cfg.payments.domain (.rejected "this node has no settlement contract"))
  let reply ← readChannel cfg C R payer payout
  let state ← .lift (demand reply (.rejected "this node cannot verify payment without an RPC (set payments.rpc); priced work refused"))
  let need := needOf bonds submit state
  let state ← raised cfg C R submit payer payout need state
  .lift (.ok ⟨⟩ : Except WorkerError Unit)
  .lift (require (need ≤ state.remaining) (.rejected
    (if submit.reserve = none then "priced job is missing a reserve ticket"
    else "no remaining reserve on this channel; lock funds before sending work")))
  .lift (require (Chain.isZeroAddress state.appKey = false)
    (.rejected "no app key is registered on-chain for this payer"))
  let now ← .read R.now
  .lift (checkBond C d submit.bond state.appKey now)
  return state

def ensureUncapped (bonds : Bonds) (submit : JobSubmit) : Effect WorkerError κ Bonds :=
  match payoutOf cfg.payoutAddress with
  | none => pure bonds
  | some payout => do
    let state ← checkUncapped cfg C R bonds submit payout
    return stash bonds submit state

section Clip

theorem clip_of_lt (h : n < 2 ^ 64) : Chain.clip n = n := if_pos h

theorem clip_of_le (h : 2 ^ 64 ≤ n) : Chain.clip n = 0 := if_neg (Nat.not_lt.mpr h)

theorem clip_maxU64 : Chain.clip maxU64 = maxU64 := clip_of_lt (by norm_num [maxU64])

end Clip

section Read

variable {view : κ → Pot.Channel}

/-- Of a channel the cap is read by itself. -/
theorem decodeChannel_capped {ch : Pot.Channel} (hch : ch.Typed) (hn : n < 2 ^ 256) (hm : m < 2 ^ 256) :
    Chain.decodeChannel (Chain.returnData { ch with maxPerJob := m }) =
      (Chain.decodeChannel (Chain.returnData { ch with maxPerJob := n })).map (ChannelState.withCap (Chain.clip m)) := by
  have hfirst : Pot.Channel.Typed { ch with maxPerJob := n } := { hch with maxPerJob_lt := hn }
  have hsecond : Pot.Channel.Typed { ch with maxPerJob := m } := { hch with maxPerJob_lt := hm }
  rw [Chain.decodeChannel_returnData hfirst, Chain.decodeChannel_returnData hsecond]
  split
  · rfl
  · rfl

/-- The chain with the cap on every channel it shows. -/
def Rpc.capped (view : κ → Pot.Channel) (n : ℕ) : Rpc κ := R.showing fun s => { view s with maxPerJob := n }

variable {payments : PaymentsConfig} {client worker payer payout : Text} {need : Micros} {post : ReservePost} {sig : Bytes}
  {state : ChannelState} (hview : ∀ s, (view s).Typed) (hn : n < 2 ^ 256) (hm : m < 2 ^ 256)

include hview hn hm

theorem along_channelState :
    Along (Option.map (ChannelState.withCap (Chain.clip m))) (Chain.channelState C (R.capped view n) payments client worker)
      (Chain.channelState C (R.capped view m) payments client worker) := by
  unfold Chain.channelState
  split
  · exact along_pure _
  · refine along_bind fun a => along_bind fun b => ?_
    intro s
    simp only [Rpc.capped, Rpc.showing, bind, Effect.bind]
    cases R.ethCall (Chain.selector C "channels(address,address)" ++ a ++ b) s with
    | mk outcome t =>
      cases outcome with
      | error e => rfl
      | ok raw =>
        simp only [Except.map, lift, decodeChannel_capped (hview t) hn hm]
        cases Chain.decodeChannel (Chain.returnData { view t with maxPerJob := n }) <;> rfl

theorem along_readChannel :
    Along (Option.map (ChannelState.withCap (Chain.clip m))) (readChannel cfg C (R.capped view n) payer payout)
      (readChannel cfg C (R.capped view m) payer payout) :=
  along_channelState C R hview hn hm

theorem along_awaitLock (k : ℕ) (state : ChannelState) :
    Along (ChannelState.withCap (Chain.clip m)) (awaitLock cfg C (R.capped view n) payer payout need k state)
      (awaitLock cfg C (R.capped view m) payer payout need k (state.withCap (Chain.clip m))) := by
  induction k generalizing state with
  | zero => exact along_pure _
  | succ k ih =>
    rw [awaitLock, awaitLock]
    change Along _ _ (if state.remaining < need then _ else _)
    split
    · refine along_bind fun _ => (along_readChannel cfg C R hview hn hm).attempt.bind fun reply => ?_
      match reply with
      | .ok (some state) => exact ih state
      | .ok none => exact ih state
      | .error e => exact ih state
    · exact along_pure _

theorem along_reserve (ticket : ReserveTicket) :
    Along id (Chain.reserve C (R.capped view n) payments ticket sig)
      (Chain.reserve C (R.capped view m) payments ticket sig) := by
  unfold Chain.reserve Chain.sendUnless
  refine (along_channelState C R hview hn hm).attempt.bind fun reply => ?_
  have hshows : Chain.shows (fun ch => ticket.maxAmount ≤ ch.reserved) (reply.map (Option.map (ChannelState.withCap (Chain.clip m)))) =
      Chain.shows (fun ch => ticket.maxAmount ≤ ch.reserved) reply := by
    match reply with
    | .ok (some state) => rfl
    | .ok none => rfl
    | .error e => rfl
  rw [hshows]
  exact Along.refl _

theorem along_postReserve :
    Along (ChannelState.withCap (Chain.clip m)) (postReserve cfg C (R.capped view n) post sig payer payout need)
      (postReserve cfg C (R.capped view m) post sig payer payout need) := by
  unfold postReserve
  refine (along_reserve C R hview hn hm post.ticket).attempt.bind fun posted => ?_
  refine (along_readChannel cfg C R hview hn hm).bind fun reply => ?_
  refine Along.bind (f := (ChannelState.withCap (Chain.clip m))) (along_lift ?_) fun state => ?_
  · cases reply <;> rfl
  · match posted with
    | .ok _ => exact along_pure _
    | .error e =>
      refine (along_awaitLock cfg C R hview hn hm 8 state).bind fun state => ?_
      exact along_bind fun _ => along_pure _

theorem along_awaitRaise (state : ChannelState) :
    Along (ChannelState.withCap (Chain.clip m)) (awaitRaise cfg C (R.capped view n) post payer payout need state)
      (awaitRaise cfg C (R.capped view m) post payer payout need (state.withCap (Chain.clip m))) := by
  unfold awaitRaise
  change Along _ _ (if post.ticket.maxAmount ≤ state.reserved ∧ state.remaining < need then _ else _)
  split
  · exact along_awaitLock cfg C R hview hn hm 8 state
  · exact along_pure _

theorem along_raised (submit : JobSubmit) (state : ChannelState) :
    Along (ChannelState.withCap (Chain.clip m)) (raised cfg C (R.capped view n) submit payer payout need state)
      (raised cfg C (R.capped view m) submit payer payout need (state.withCap (Chain.clip m))) := by
  unfold raised
  match submit.reserve with
  | none => exact along_pure _
  | some post =>
    dsimp only
    unfold raiseLock
    refine along_bind fun _ => along_bind fun _ => along_bind fun sig => ?_
    refine (along_awaitRaise cfg C R hview hn hm state).bind fun state => ?_
    change Along _ _ (if state.reserved < post.ticket.maxAmount then _ else _)
    split
    · exact along_postReserve cfg C R hview hn hm
    · exact along_pure _

omit hview hn hm in
/-- No bill is over the largest cap, nor held to one that is not known. -/
theorem checkFlat_free (submit : JobSubmit) {cap : Micros} (hcap : cap = 0 ∨ cap = maxU64) (state : ChannelState) :
    checkFlat cfg submit (state.withCap cap) = .ok ⟨⟩ := by
  have hflat : flatMicros cfg submit.payload ≤ maxU64 := by
    have hlt : flatMicros cfg submit.payload < 2 ^ 64 := castWord_lt 64 _
    exact Nat.le_sub_one_of_lt hlt
  unfold checkFlat
  dsimp only
  rcases hcap with rfl | rfl
  · exact if_neg fun h => absurd h.1 (Nat.lt_irrefl 0)
  · split
    · exact (require_eq_ok _ _ _).mpr hflat
    · rfl

/-- The check of a lock comes to what it would if no bill were held to the cap. -/
theorem along_checkLock (bonds : Bonds) (submit : JobSubmit) (hfree : Chain.clip m = 0 ∨ Chain.clip m = maxU64) :
    Along (ChannelState.withCap (Chain.clip m)) (checkUncapped cfg C (R.capped view n) bonds submit payout)
      (checkLock cfg C (R.capped view m) bonds submit payout) := by
  unfold checkUncapped checkLock
  refine along_bind fun payer => along_bind fun d => ?_
  refine (along_readChannel cfg C R hview hn hm).bind fun reply => ?_
  refine Along.bind (f := ChannelState.withCap (Chain.clip m)) (along_lift ?_) fun state => ?_
  · cases reply <;> rfl
  · refine (along_raised cfg C R hview hn hm submit state).bind fun state => ?_
    rw [checkFlat_free cfg submit hfree]
    exact along_bind fun _ => along_bind fun _ => along_bind fun _ => along_bind fun now => along_bind fun _ => along_pure _

theorem along_ensureLock (bonds : Bonds) (submit : JobSubmit) (hfree : Chain.clip m = 0 ∨ Chain.clip m = maxU64) :
    Along id (ensureUncapped cfg C (R.capped view n) bonds submit) (ensureLock cfg C (R.capped view m) bonds submit) := by
  unfold ensureUncapped ensureLock
  cases payoutOf cfg.payoutAddress with
  | none => exact Along.refl _
  | some payout =>
    refine (along_checkLock cfg C R hview hn hm bonds submit hfree).bind fun state => ?_
    exact along_pure (f := id) (stash bonds submit state)

/-- Whether a lock will do is not asked of a cap that no bill is over. -/
theorem ensureLock_free (bonds : Bonds) (submit : JobSubmit) (hn' : Chain.clip n = 0 ∨ Chain.clip n = maxU64)
    (hm' : Chain.clip m = 0 ∨ Chain.clip m = maxU64) :
    ensureLock cfg C (R.capped view n) bonds submit = ensureLock cfg C (R.capped view m) bonds submit :=
  (along_ensureLock cfg C R hview hn hn bonds submit hn').eq.trans
    (along_ensureLock cfg C R hview hn hm bonds submit hm').eq.symm

end Read

section Settling

variable {now : ℕ} {ticket : SpendTicket}

/-- What is near the largest cap is worth a transaction anyway. -/
theorem worthSettling_free {ch : Pot.Channel} (hch : ch.Typed) (hn : n < 2 ^ 256) (hm : m < 2 ^ 256)
    (hn' : Chain.clip n = 0 ∨ Chain.clip n = maxU64) (hm' : Chain.clip m = 0 ∨ Chain.clip m = maxU64) :
    worthSettling now ticket (replyOf { ch with maxPerJob := n }) =
      worthSettling now ticket (replyOf { ch with maxPerJob := m }) := by
  have hnear : ∀ {cap delta : Micros}, cap = 0 ∨ cap = maxU64 →
      (settleMinMicros ≤ delta ∨ 0 < cap ∧ cap / 2 ≤ delta ↔ settleMinMicros ≤ delta) := by
    intro cap delta hcap
    constructor
    · rintro (h | ⟨hpos, h⟩)
      · exact h
      · rcases hcap with rfl | rfl
        · exact absurd hpos (Nat.lt_irrefl 0)
        · have hhalf : settleMinMicros ≤ maxU64 / 2 := by decide
          exact hhalf.trans h
    · exact .inl
  have hfirst : Pot.Channel.Typed { ch with maxPerJob := n } := { hch with maxPerJob_lt := hn }
  have hsecond : Pot.Channel.Typed { ch with maxPerJob := m } := { hch with maxPerJob_lt := hm }
  rw [replyOf, replyOf, Chain.decodeChannel_returnData hfirst, Chain.decodeChannel_returnData hsecond]
  by_cases hclose : ch.closeAt = 0
  · rw [if_pos hclose, if_pos hclose]
    simp only [Except.map, worthSettling, Chain.stateOf, hnear hn', hnear hm']
  · rw [if_neg hclose, if_neg hclose]

/-- A total that the chain is said to have settled already is worth no transaction. -/
theorem worthSettling_maxU64 {ch : Pot.Channel} (hch : ch.Typed) (hclose : ch.closeAt = 0) (hwide : 2 ^ 64 ≤ ch.earned) :
    worthSettling 0 ⟨[], [], settleMinMicros, settleBeforeDeadlineSecs⟩ (replyOf ch) = true ∧
      worthSettling 0 ⟨[], [], settleMinMicros, settleBeforeDeadlineSecs⟩ (replyOf { ch with earned := maxU64 }) = false := by
  have hmax : Pot.Channel.Typed { ch with earned := maxU64 } := { hch with earned_lt := by norm_num [maxU64] }
  unfold replyOf
  rw [Chain.decodeChannel_returnData hch, Chain.decodeChannel_returnData hmax, if_pos hclose]
  change worthSettling _ _ (Except.map some (.ok (Chain.stateOf ch))) = true ∧
    worthSettling _ _ (Except.map some (if ch.closeAt = 0 then _ else _)) = false
  rw [if_pos hclose]
  simp only [Except.map, worthSettling, Chain.stateOf, clip_of_le hwide, clip_maxU64]
  constructor
  · rw [if_neg (by decide), if_neg (by decide)]
    exact decide_eq_true (.inl (by decide))
  · rw [if_neg (by decide), if_pos (by decide)]

end Settling

end Rootmode.Worker
