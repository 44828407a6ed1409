import Rootmode.Contracts.LocalChain
import Rootmode.Desktop.Issue
import Rootmode.Worker.WideWords

namespace Rootmode.Desktop

open Lib Lib.Bytes Lib.Checked Lib.Text Payments Worker

namespace ChainReads

def readU64 (word : Text) : ℕ := (Hex.parse 64 (word.dropWhile (· = '0'))).getD 0

/-- What a reply to `accounts(client)` says: balance, caps and what is spent today. -/
def account (raw : Text) : Micros × Micros × Micros × Micros :=
  let hex := trimStart0x raw
  if hex.length < 64 * 4 then (0, 0, 0, 0)
  else
    (readU64 (Chain.slice hex 0 64), readU64 (Chain.slice hex 64 128), readU64 (Chain.slice hex 128 192),
      readU64 (Chain.slice hex 192 256))

/-- What a reply to `channels(client, worker)` says: six words or more. -/
def channel (raw : Text) : ChannelSnap :=
  let hex := trimStart0x raw
  if hex.length < 64 * 6 then ⟨0, 0, 0, 0⟩
  else
    { reserved := readU64 (Chain.slice hex 0 64)
      paid := readU64 (Chain.slice hex 64 128)
      earned := readU64 (Chain.slice hex (64 * 5) (64 * 6))
      maxPerJob := if 64 * 7 ≤ hex.length then readU64 (Chain.slice hex (64 * 6) (64 * 7)) else 0 }

/-- The storage words of an account. -/
def words (a : Pot.Account) : List ℕ :=
  [a.balance, a.maxPerJob, a.maxPerDay, a.spentToday, a.dayStart, a.appKey.toNat]

/-- What the contract's getter answers for an account. -/
def returnData (a : Pot.Account) : Text := ofString "0x" ++ Hex.encode (abiEncode (words a))

end ChainReads

/-- The machine while the chain shows it this channel and this account. -/
def Outside.showing (o : Outside) (ch : Pot.Channel) (a : Pot.Account) : Outside :=
  let account := ChainReads.account (ChainReads.returnData a)
  { o with
    status := o.status.map fun st => { st with balanceMicros := account.1, maxPerJobMicros := account.2.1 }
    channel := fun k => (o.channel k).map fun _ => ChainReads.channel (Chain.returnData ch)
    again := fun k => (o.again k).map fun _ => ChainReads.channel (Chain.returnData ch) }

/-- What a word on the chain may say of a channel or an account. -/
inductive Role
  | reserved | paid | earned | channelCap | balance | accountCap
  deriving DecidableEq

/-- The channel with the word in its place. -/
def Role.channel (role : Role) (n : ℕ) (ch : Pot.Channel) : Pot.Channel :=
  match role with
  | .reserved => { ch with reserved := n }
  | .paid => { ch with paid := n }
  | .earned => { ch with earned := n }
  | .channelCap => { ch with maxPerJob := n }
  | .balance | .accountCap => ch

/-- The account with the word in its place. -/
def Role.account (role : Role) (n : ℕ) (a : Pot.Account) : Pot.Account :=
  match role with
  | .balance => { a with balance := n }
  | .accountCap => { a with maxPerJob := n }
  | _ => a

/-- The words of a channel and of an account fit their storage. -/
structure StoredWords (ch : Pot.Channel) (a : Pot.Account) : Prop where
  typed : ch.Typed
  paid_lt : ch.paid < 2 ^ 256
  balance_lt : a.balance < 2 ^ 256
  maxPerJob_lt : a.maxPerJob < 2 ^ 256

/-- No decision tells two words in one place apart: not that on the lock of a job, nor on whether a ticket
is worth a transaction, nor on the bond that is issued. -/
structure Indistinct (role : Role) (n m : ℕ) : Prop where
  lock : ∀ {κ : Type} (cfg : Config) (C : Crypto) (R : Rpc κ) (view : κ → Pot.Channel),
    (∀ s, (view s).Typed) → ∀ (bonds : Bonds) (submit : JobSubmit),
      ensureLock cfg C (R.showing fun s => role.channel n (view s)) bonds submit =
        ensureLock cfg C (R.showing fun s => role.channel m (view s)) bonds submit
  settle : ∀ (ch : Pot.Channel), ch.Typed → ∀ (now : ℕ) (ticket : SpendTicket),
    worthSettling now ticket (replyOf (role.channel n ch)) = worthSettling now ticket (replyOf (role.channel m ch))
  issue : ∀ (C : Crypto) (o : Outside) (ch : Pot.Channel) (a : Pot.Account), StoredWords ch a →
    ∀ (jobId : Uuid) (price : Price) (kind : JobKind) (payload : JobPayload) (client payout : Text) (w : Wallet),
      issueTicket C (o.showing (role.channel n ch) (role.account n a)) jobId price kind payload client payout w =
        issueTicket C (o.showing (role.channel m ch) (role.account m a)) jobId price kind payload client payout w

/-- A word of the chain that is read as it is if it fits, and that decides as the largest number does if it
does not. -/
structure ReadSafely (role : Role) (n : ℕ) : Prop where
  exact : n < 2 ^ 64 → Chain.readU64 (Hex.encode (bigEndian 32 n)) = n ∧
    ChainReads.readU64 (Hex.encode (bigEndian 32 n)) = n
  wide : 2 ^ 64 ≤ n → Indistinct role n maxU64

section Read

variable {ch : Pot.Channel} {a : Pot.Account} {n : ℕ} {o : Outside}

theorem readU64_word (h : n < 2 ^ 256) : ChainReads.readU64 (Hex.encode (bigEndian 32 n)) = Chain.clip n :=
  Chain.readU64_word h

/-- What the machine reads of a channel. -/
def snapOf (ch : Pot.Channel) : ChannelSnap where
  reserved := Chain.clip ch.reserved
  paid := Chain.clip ch.paid
  earned := Chain.clip ch.earned
  maxPerJob := Chain.clip ch.maxPerJob

theorem channel_returnData (hch : ch.Typed) (hpaid : ch.paid < 2 ^ 256) :
    ChainReads.channel (Chain.returnData ch) = snapOf ch := by
  have hlength : (Hex.encode (abiEncode (Chain.words ch))).length = 64 * 8 := by
    rw [Hex.length_encode, Chain.length_abiEncode]
    rfl
  have hreserved : ChainReads.readU64 (Chain.slice (Hex.encode (abiEncode (Chain.words ch))) 0 64) =
      Chain.clip ch.reserved :=
    (congrArg ChainReads.readU64 (Chain.slice_word (i := 0) rfl)).trans (readU64_word hch.reserved_lt)
  have hpaid : ChainReads.readU64 (Chain.slice (Hex.encode (abiEncode (Chain.words ch))) 64 128) =
      Chain.clip ch.paid :=
    (congrArg ChainReads.readU64 (Chain.slice_word (i := 1) rfl)).trans (readU64_word hpaid)
  have hearned : ChainReads.readU64 (Chain.slice (Hex.encode (abiEncode (Chain.words ch))) (64 * 5) (64 * 6)) =
      Chain.clip ch.earned :=
    (congrArg ChainReads.readU64 (Chain.slice_word (i := 5) rfl)).trans (readU64_word hch.earned_lt)
  have hmaxPerJob : ChainReads.readU64 (Chain.slice (Hex.encode (abiEncode (Chain.words ch))) (64 * 6) (64 * 7)) =
      Chain.clip ch.maxPerJob :=
    (congrArg ChainReads.readU64 (Chain.slice_word (i := 6) rfl)).trans (readU64_word hch.maxPerJob_lt)
  simp only [ChainReads.channel, Chain.returnData, Chain.trimStart0x_ofString_encode, hlength, hreserved, hpaid, hearned,
    hmaxPerJob]
  rfl

theorem account_returnData (hbalance : a.balance < 2 ^ 256) (hcap : a.maxPerJob < 2 ^ 256) :
    (ChainReads.account (ChainReads.returnData a)).1 = Chain.clip a.balance ∧
      (ChainReads.account (ChainReads.returnData a)).2.1 = Chain.clip a.maxPerJob := by
  have hlength : (Hex.encode (abiEncode (ChainReads.words a))).length = 64 * 6 := by
    rw [Hex.length_encode, Chain.length_abiEncode]
    rfl
  have hbalance : ChainReads.readU64 (Chain.slice (Hex.encode (abiEncode (ChainReads.words a))) 0 64) =
      Chain.clip a.balance :=
    (congrArg ChainReads.readU64 (Chain.slice_word (i := 0) rfl)).trans (readU64_word hbalance)
  have hcap : ChainReads.readU64 (Chain.slice (Hex.encode (abiEncode (ChainReads.words a))) 64 128) =
      Chain.clip a.maxPerJob :=
    (congrArg ChainReads.readU64 (Chain.slice_word (i := 1) rfl)).trans (readU64_word hcap)
  simp only [ChainReads.account, ChainReads.returnData, Chain.trimStart0x_ofString_encode, hlength, hbalance, hcap]
  exact ⟨rfl, rfl⟩

end Read

section Outcomes

variable {C : Crypto} {o : Outside} {jobId : Uuid} {price : Price} {kind : JobKind} {payload : JobPayload}
  {client payout : Text} {w : Wallet} {t : Terms} {e : AppError}

/-- The terms a bond would be issued on. -/
structure Offered (o : Outside) (price : Price) (kind : JobKind) (payload : JobPayload) (t : Terms) : Prop where
  config : o.config = some t.cfg
  status : o.status = .ok t.st
  channel : channelWithRetry o.channel = .ok t.ch
  fits : jobCap price kind payload t.st t.ch = .ok t.need

theorem issueTicket_uncovered (h : Offered o price kind payload t)
    (hover : satAdd 64 t.ch.remaining (t.extra client payout w) < t.lockNeed client payout w) :
    ∃ message, issueTicket C o jobId price kind payload client payout w = .error (.invalid message) := by
  unfold Terms.extra Terms.lockNeed Terms.cumulative Terms.authorised at hover
  unfold issueTicket
  rw [h.config, h.status, h.channel]
  simp only [bind, Except.bind, demand, h.fits]
  rw [require, if_neg (Nat.not_le.mpr hover)]
  exact ⟨_, rfl⟩

theorem signReserve_unsigned {cfg : ChainConfig} {ch : ChannelSnap} {need free : Micros} {raiseCaps : Bool}
    {e' : AppError} (hkey : o.key = .error e)
    (h : signReserveIfNeeded C o cfg client payout ch need free raiseCaps = .error e') : e' = e := by
  unfold signReserveIfNeeded at h
  dsimp only at h
  rw [hkey] at h
  split at h
  · cases h
  · cases h
    rfl

/-- A bond that is covered is refused by the key at the most. -/
theorem issueTicket_unsigned (h : Offered o price kind payload t) (hkey : o.key = .error e)
    (hcovered : t.lockNeed client payout w ≤ satAdd 64 t.ch.remaining (t.extra client payout w)) :
    issueTicket C o jobId price kind payload client payout w = .error e := by
  unfold Terms.extra Terms.lockNeed Terms.cumulative Terms.authorised at hcovered
  unfold issueTicket
  rw [h.config, h.status, h.channel]
  simp only [bind, Except.bind, demand, h.fits]
  rw [require, if_pos hcovered]
  dsimp only
  split
  · next herr => rw [signReserve_unsigned hkey herr]
  · simp only [signLatest, hkey, bind, Except.bind]

end Outcomes

section Capped

variable {C : Crypto} {o : Outside} {ch : Pot.Channel} {a : Pot.Account} {n m : ℕ} {price : Price} {kind : JobKind}
  {payload : JobPayload} {st : PotStatus}

theorem channelWithRetry_map (tries : ℕ → Except AppError ChannelSnap) (snap : ChannelSnap) :
    channelWithRetry (fun k => (tries k).map fun _ => snap) = (channelWithRetry tries).map fun _ => snap := by
  simp only [channelWithRetry]
  cases tries 0 with
  | ok _ => rfl
  | error _ =>
    cases tries 1 with
    | ok _ => rfl
    | error _ => cases tries 2 <;> rfl

theorem chunkMicros_le (hkind : kind ≠ .llm) : chunkMicros price kind ≤ maxU64 :=
  match kind with
  | .llm => absurd rfl hkind
  | .image | .video => min_le_right _ _

theorem jobLockMicros_le : jobLockMicros price kind payload ≤ maxU64 := by
  have hone : 1 ≤ maxU64 := by norm_num [maxU64]
  unfold jobLockMicros
  split
  · exact max_le (min_le_right _ _) hone
  · refine max_le ?_ hone
    unfold lockMicros
    split
    · exact min_le_right _ _
    · unfold worstCaseMicros
      split <;> exact min_le_right _ _

theorem raisesCap_free {ch : ChannelSnap} (hst : st.cap ≤ maxU64) (hcap : ch.maxPerJob = 0 ∨ ch.maxPerJob = maxU64) :
    raisesCap st ch = false := by
  unfold raisesCap
  rcases hcap with hcap | hcap
  · simp [hcap]
  · simp [hcap, hst]

/-- The largest cap limits a job no more than one that is not known. -/
theorem jobCap_free {ch : ChannelSnap} (hst : st.cap ≤ maxU64) (hcap : ch.maxPerJob = 0 ∨ ch.maxPerJob = maxU64) :
    jobCap price kind payload st ch = .ok (max (min (jobLockMicros price kind payload) st.cap) 1) := by
  have hone : 1 ≤ maxU64 := by norm_num [maxU64]
  have hlimit : channelCap st ch = ch.maxPerJob := by
    rw [channelCap, raisesCap_free hst hcap]
    rfl
  rw [jobCap_eq_ok, hlimit]
  rcases hcap with hcap | hcap
  · rw [hcap]
    exact ⟨.inl rfl, (if_pos rfl).symm⟩
  · rw [hcap, if_neg (by norm_num [maxU64])]
    constructor
    · by_cases hkind : kind = .llm
      · exact .inr (.inl hkind)
      · exact .inr (.inr (chunkMicros_le hkind))
    · exact (min_eq_left (max_le (min_le_of_right_le hst) hone)).symm

/-- What an account allows a job is a number of 64 bits. -/
theorem cap_showing (hbalance : a.balance < 2 ^ 256) (hcap : a.maxPerJob < 2 ^ 256)
    (h : (o.showing ch a).status = .ok st) : st.cap ≤ maxU64 := by
  have hcap := (account_returnData hbalance hcap).2
  have hle : Chain.clip a.maxPerJob ≤ maxU64 := by
    unfold Chain.clip maxU64
    split <;> omega
  obtain ⟨st', hst⟩ : ∃ st', o.status = .ok st' := by
    cases hst : o.status with
    | ok st' => exact ⟨st', rfl⟩
    | error e =>
      rw [Outside.showing, hst] at h
      cases h
  rw [Outside.showing, hst] at h
  cases h
  unfold PotStatus.cap defaultMaxJob
  dsimp only
  split
  · norm_num [maxU64]
  · rwa [hcap]

/-- Of a channel's cap the issuing of a bond reads what the job may cost under it. -/
theorem issueTicket_congr {o' : Outside} {cap : Micros} (hconfig : o'.config = o.config) (hstatus : o'.status = o.status)
    (hkey : o'.key = o.key) (hnow : o'.now = o.now)
    (hchannel : channelWithRetry o'.channel = (channelWithRetry o.channel).map fun ch => { ch with maxPerJob := cap })
    (hcap : ∀ st ch, o.status = .ok st → channelWithRetry o.channel = .ok ch →
      jobCap price kind payload st { ch with maxPerJob := cap } = jobCap price kind payload st ch ∧
        raisesCap st { ch with maxPerJob := cap } = raisesCap st ch)
    (jobId : Uuid) (client payout : Text) (w : Wallet) :
    issueTicket C o' jobId price kind payload client payout w = issueTicket C o jobId price kind payload client payout w := by
  unfold issueTicket signReserveIfNeeded signLatest
  rw [hconfig, hstatus, hkey, hnow, hchannel]
  cases o.config with
  | none => rfl
  | some cfg =>
    cases hst : o.status with
    | error e => rfl
    | ok st =>
      cases hch : channelWithRetry o.channel with
      | error e => rfl
      | ok ch =>
        obtain ⟨hcap, hraises⟩ := hcap st ch hst hch
        simp only [Except.map, bind, Except.bind, demand, hcap, hraises]
        rfl

section Showing

variable {ch' : Pot.Channel}

theorem config_showing : (o.showing ch a).config = (o.showing ch' a).config := rfl

theorem status_showing : (o.showing ch a).status = (o.showing ch' a).status := rfl

theorem key_showing : (o.showing ch a).key = (o.showing ch' a).key := rfl

theorem now_showing : (o.showing ch a).now = (o.showing ch' a).now := rfl

end Showing

theorem channel_showing : channelWithRetry (o.showing ch a).channel =
    (channelWithRetry o.channel).map fun _ => ChainReads.channel (Chain.returnData ch) :=
  channelWithRetry_map o.channel _

/-- A bond is issued under the largest cap as it is under one that is not known. -/
theorem issueTicket_free (hn : n < 2 ^ 256) (hm : m < 2 ^ 256) (hch : StoredWords ch a)
    (hn' : Chain.clip n = 0 ∨ Chain.clip n = maxU64) (hm' : Chain.clip m = 0 ∨ Chain.clip m = maxU64) (jobId : Uuid)
    (client payout : Text) (w : Wallet) :
    issueTicket C (o.showing { ch with maxPerJob := n } a) jobId price kind payload client payout w =
      issueTicket C (o.showing { ch with maxPerJob := m } a) jobId price kind payload client payout w := by
  have hfirst : Pot.Channel.Typed { ch with maxPerJob := n } := { hch.typed with maxPerJob_lt := hn }
  have hsecond : Pot.Channel.Typed { ch with maxPerJob := m } := { hch.typed with maxPerJob_lt := hm }
  have hcap : ∀ {st}, (o.showing { ch with maxPerJob := m } a).status = .ok st → st.cap ≤ maxU64 :=
    cap_showing hch.balance_lt hch.maxPerJob_lt
  have hread : ∀ {snap}, channelWithRetry (o.showing { ch with maxPerJob := m } a).channel = .ok snap →
      snap.maxPerJob = Chain.clip m := by
    intro snap h
    rw [channel_showing, channel_returnData hsecond hch.paid_lt] at h
    cases hread : channelWithRetry o.channel with
    | error e =>
      rw [hread] at h
      cases h
    | ok _ =>
      rw [hread] at h
      cases h
      rfl
  have hchannel : channelWithRetry (o.showing { ch with maxPerJob := n } a).channel =
      (channelWithRetry (o.showing { ch with maxPerJob := m } a).channel).map
        fun snap => { snap with maxPerJob := Chain.clip n } := by
    rw [channel_showing, channel_showing, channel_returnData hfirst hch.paid_lt, channel_returnData hsecond hch.paid_lt]
    cases channelWithRetry o.channel <;> rfl
  refine issueTicket_congr config_showing status_showing key_showing now_showing hchannel (fun st snap hst hsnap => ?_)
    jobId client payout w
  rw [← hread hsnap] at hm'
  rw [jobCap_free (hcap hst) hm', jobCap_free (hcap hst) hn', raisesCap_free (hcap hst) hm', raisesCap_free (hcap hst) hn']
  exact ⟨rfl, rfl⟩

/-- A cap that does not fit is taken for none, which limits nothing either. -/
theorem indistinct_channelCap (hwide : 2 ^ 64 ≤ n) (hn : n < 2 ^ 256) : Indistinct .channelCap n maxU64 := by
  have hmax : maxU64 < 2 ^ 256 := by norm_num [maxU64]
  have hnone : Chain.clip n = 0 ∨ Chain.clip n = maxU64 := .inl (clip_of_le hwide)
  have hfull : Chain.clip maxU64 = 0 ∨ Chain.clip maxU64 = maxU64 := .inr clip_maxU64
  constructor
  · intro κ cfg C R view hview bonds submit
    exact ensureLock_free cfg C R hview hn hmax bonds submit hnone hfull
  · intro ch hch now ticket
    exact worthSettling_free hch hn hmax hnone hfull
  · intro C o ch a hch jobId price kind payload client payout w
    exact issueTicket_free hn hmax hch hnone hfull jobId client payout w

end Capped

section Tells

/-- A picture for a dollar. -/
def aPicture : Price := { amount := 1 }

def unsigned : AppError := .notFound "app key"

/-- A machine that knows its pot and has no key. -/
def keyless : Outside where
  config := some ⟨8453, []⟩
  status := .ok ⟨none, 0, 0⟩
  channel := fun _ => .ok ⟨0, 0, 0, 0⟩
  again := fun _ => .ok ⟨0, 0, 0, 0⟩
  key := .error unsigned
  now := 0

/-- The terms of a bond for the picture on a channel that has no cap. -/
def terms (ch : ChannelSnap) (balance cap : Micros) : Terms where
  cfg := ⟨8453, []⟩
  st := ⟨none, balance, cap⟩
  ch := ch
  need := max (min (jobLockMicros aPicture .image (.image {})) (PotStatus.cap ⟨none, balance, cap⟩)) 1

/-- Whether the lock, with what can be added to it, is enough for the picture. -/
def covered (ch : ChannelSnap) (balance cap : Micros) : Bool :=
  decide ((terms ch balance cap).lockNeed [] [] Wallet.empty ≤
    satAdd 64 ch.remaining ((terms ch balance cap).extra [] [] Wallet.empty))

variable {C : Crypto} {ch : Pot.Channel} {a : Pot.Account} {role : Role} {n m : ℕ}

theorem issueTicket_keyless (h : StoredWords ch a) (huncapped : ch.maxPerJob = 0) :
    issueTicket C (keyless.showing ch a) 0 aPicture .image (.image {}) [] [] Wallet.empty = .error unsigned ↔
      covered (snapOf ch) (Chain.clip a.balance) (Chain.clip a.maxPerJob) = true := by
  obtain ⟨hbalance, hcap⟩ := account_returnData h.balance_lt h.maxPerJob_lt
  have hchannel : channelWithRetry (keyless.showing ch a).channel = .ok (snapOf ch) := by
    rw [channel_showing, channel_returnData h.typed h.paid_lt]
    rfl
  have hstatus : (keyless.showing ch a).status = .ok ⟨none, Chain.clip a.balance, Chain.clip a.maxPerJob⟩ := by
    rw [← hbalance, ← hcap]
    rfl
  have hfree : (snapOf ch).maxPerJob = 0 := by
    rw [snapOf, huncapped]
    rfl
  have hoffered : Offered (keyless.showing ch a) aPicture .image (.image {})
      (terms (snapOf ch) (Chain.clip a.balance) (Chain.clip a.maxPerJob)) :=
    ⟨rfl, hstatus, hchannel, jobCap_free (cap_showing h.balance_lt h.maxPerJob_lt hstatus) (.inl hfree)⟩
  rw [covered, decide_eq_true_eq]
  constructor
  · intro hissue
    by_contra hover
    obtain ⟨message, hmessage⟩ := issueTicket_uncovered hoffered (Nat.not_le.mp hover)
    rw [hmessage] at hissue
    cases hissue
  · exact issueTicket_unsigned hoffered rfl

/-- What two words that are not told apart make of the picture. -/
theorem Indistinct.covered (h : Indistinct role n m) (hst : StoredWords ch a)
    (hn : StoredWords (role.channel n ch) (role.account n a)) (hm : StoredWords (role.channel m ch) (role.account m a))
    (hrole : role ≠ .channelCap) (huncapped : ch.maxPerJob = 0) :
    covered (snapOf (role.channel n ch)) (Chain.clip (role.account n a).balance) (Chain.clip (role.account n a).maxPerJob) =
      covered (snapOf (role.channel m ch)) (Chain.clip (role.account m a).balance)
        (Chain.clip (role.account m a).maxPerJob) := by
  have hkept : ∀ k, (role.channel k ch).maxPerJob = 0 := by
    intro k
    cases role with
    | channelCap => exact absurd rfl hrole
    | reserved | paid | earned | balance | accountCap => exact huncapped
  have hissue := h.issue LocalChain.crypto keyless ch a hst 0 aPicture .image (.image {}) [] [] Wallet.empty
  rw [Bool.eq_iff_iff, ← issueTicket_keyless (C := LocalChain.crypto) hn (hkept n),
    ← issueTicket_keyless (C := LocalChain.crypto) hm (hkept m), hissue]

/-- Words in the places where they fit are stored. -/
theorem stored_at (hch : StoredWords ch a) (hn : n < 2 ^ 256) : StoredWords (role.channel n ch) (role.account n a) := by
  obtain ⟨htyped, hpaid, hbalance, hcap⟩ := hch
  cases role with
  | reserved => exact ⟨{ htyped with reserved_lt := hn }, hpaid, hbalance, hcap⟩
  | paid => exact ⟨{ htyped with }, hn, hbalance, hcap⟩
  | earned => exact ⟨{ htyped with earned_lt := hn }, hpaid, hbalance, hcap⟩
  | channelCap => exact ⟨{ htyped with maxPerJob_lt := hn }, hpaid, hbalance, hcap⟩
  | balance => exact ⟨htyped, hpaid, hn, hcap⟩
  | accountCap => exact ⟨htyped, hpaid, hbalance, hn⟩

theorem stored_locked {k : ℕ} (hk : k < 2 ^ 256) : StoredWords { reserved := k } {} :=
  have hzero := Nat.two_pow_pos 256
  ⟨⟨hk, Nat.two_pow_pos 64, hzero, hzero, fun h => absurd rfl h⟩, hzero, hzero, hzero⟩

/-- A word that does not fit is taken for zero, and that is told apart from the largest number. -/
theorem not_indistinct (hwide : 2 ^ 64 ≤ n) (hn : n < 2 ^ 256) (hrole : role ≠ .channelCap) : ¬ Indistinct role n maxU64 := by
  intro h
  have hmax : maxU64 < 2 ^ 256 := by norm_num [maxU64]
  have hzero : Chain.clip n = 0 := clip_of_le hwide
  have hempty := stored_locked (k := 0) (by decide)
  have hdollar := stored_locked (k := 1_000_000) (by norm_num)
  have hcents := stored_locked (k := 600_000) (by norm_num)
  cases role with
  | channelCap => exact hrole rfl
  | reserved =>
    have hsame := h.covered hempty (stored_at hempty hn) (stored_at hempty hmax) hrole rfl
    simp only [Role.channel, Role.account, snapOf, hzero, clip_maxU64] at hsame
    revert hsame
    decide +kernel
  | paid =>
    have hsame := h.covered hdollar (stored_at hdollar hn) (stored_at hdollar hmax) hrole rfl
    simp only [Role.channel, Role.account, snapOf, hzero, clip_maxU64] at hsame
    revert hsame
    decide +kernel
  | earned =>
    have htyped : Pot.Channel.Typed { reserved := 0, earned := n } := (@stored_at _ _ .earned _ hempty hn).typed
    obtain ⟨hworth, hidle⟩ := worthSettling_maxU64 htyped rfl hwide
    have hsame := h.settle _ hempty.typed 0 ⟨[], [], settleMinMicros, settleBeforeDeadlineSecs⟩
    rw [Role.channel, Role.channel, hworth, hidle] at hsame
    cases hsame
  | balance =>
    have hsame := h.covered hempty (stored_at hempty hn) (stored_at hempty hmax) hrole rfl
    simp only [Role.channel, Role.account, snapOf, hzero, clip_maxU64] at hsame
    revert hsame
    decide +kernel
  | accountCap =>
    have hsame := h.covered hcents (stored_at hcents hn) (stored_at hcents hmax) hrole rfl
    simp only [Role.channel, Role.account, snapOf, hzero, clip_maxU64] at hsame
    revert hsame
    decide +kernel

/-- The words that are read safely are those of 64 bits, and a channel's cap of any width. -/
theorem readSafely_iff (hn : n < 2 ^ 256) : ReadSafely role n ↔ n < 2 ^ 64 ∨ role = .channelCap := by
  constructor
  · intro h
    by_contra hneither
    rw [not_or, Nat.not_lt] at hneither
    exact not_indistinct hneither.1 hn hneither.2 (h.wide hneither.1)
  · intro h
    refine ⟨fun hnarrow => ⟨?_, ?_⟩, fun hwide => ?_⟩
    · rw [Chain.readU64_word hn, clip_of_lt hnarrow]
    · rw [readU64_word hn, clip_of_lt hnarrow]
    · obtain rfl := h.resolve_left (Nat.not_lt.mpr hwide)
      exact indistinct_channelCap hwide hn

/-- A channel's cap without limit. -/
theorem readSafely_unlimited : ReadSafely .channelCap (2 ^ 256 - 1) := (readSafely_iff (by norm_num)).mpr (.inr rfl)

/-- An account without limit is held to the default. -/
theorem account_unlimited : ¬ ReadSafely .accountCap (2 ^ 256 - 1) := fun h =>
  not_indistinct (by norm_num) (by norm_num) (by decide) (h.wide (by norm_num))

end Tells

end Rootmode.Desktop
