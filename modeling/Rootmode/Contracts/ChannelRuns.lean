import Rootmode.Contracts.Channels
import Rootmode.Contracts.LocalChain

namespace Rootmode.Channels

open Lib Lib.Checked Lib.TotalMap Lib.Transition
open Pot (Deployment Msg)

variable {τ : Type} {E : Deployment τ} {m : Msg} {w w' : World τ} {id : Bytes32}

/-- The contract, the token and the time of the last block that touched them. -/
structure Chain (τ : Type) where
  now : ℕ
  world : World τ

inductive Act
  | call (m : Msg) (c : Call)
  | token (now : ℕ)

/-- One step of a chain, as for the pot. -/
inductive Step (E : Deployment τ) : Labelled (Chain τ) Act
  | call {s : Chain τ} {m : Msg} {c : Call} {w : World τ} :
      s.now ≤ m.timestamp → m.sender ≠ E.self → exec E m c s.world = .ok w →
      Step E s (.call m c) ⟨m.timestamp, w⟩
  | revert {s : Chain τ} {m : Msg} {c : Call} {e : Revert} :
      s.now ≤ m.timestamp → m.sender ≠ E.self → exec E m c s.world = .error e →
      Step E s (.call m c) ⟨m.timestamp, s.world⟩
  | token {s : Chain τ} {now : ℕ} {usdc : τ} :
      s.now ≤ now → held E s.world ≤ held E ⟨s.world.book, usdc⟩ →
      Step E s (.token now) ⟨now, ⟨s.world.book, usdc⟩⟩

def Chain.Genesis (s : Chain τ) : Prop := s.world.book = {}

/-- What one successful call may do to a channel. -/
inductive Touches (E : Deployment τ) (m : Msg) (w : World τ) (id : Bytes32) : Call → Channel → Prop
  | reserve {client workerPayout : Address} {maxAmount deadline : ℕ} {sig : Bytes} :
      ReserveGuard E m id client workerPayout maxAmount deadline sig w.book →
      Touches E m w id (.reserve id client workerPayout maxAmount deadline sig)
        ((w.book.channels id).raised client workerPayout maxAmount deadline)
  | redeem {cumulative : ℕ} {metadataHash : Bytes32} {sig : Bytes} :
      RedeemGuard E id cumulative metadataHash sig w.book →
      Touches E m w id (.redeem id cumulative metadataHash sig)
        { w.book.channels id with paid := cumulative }
  | close : (w.book.channels id).deadline < m.timestamp →
      Touches E m w id (.close id) (w.book.channels id).closed

section Channels

variable {c : Call} {ch : Channel}

/-- A write to one channel is seen there and nowhere else. -/
theorem setChannel_or {T : Channel → Prop} (s : Storage) {id id' : Bytes32} {ch : Channel}
    (hT : id' = id → T ch) :
    (s.setChannel id ch).channels id' = s.channels id' ∨ T ((s.setChannel id ch).channels id') := by
  by_cases h : id' = id
  · subst h
    rw [s.setChannel_self]
    exact .inr (hT rfl)
  · exact .inl (s.setChannel_of_ne ch h)

/-- Every call leaves a channel as it is or touches it in one of three ways. -/
theorem exec_channel (hm : m.sender ≠ E.self) (h : exec E m c w = .ok w') (id : Bytes32) :
    w'.book.channels id = w.book.channels id ∨ Touches E m w id c (w'.book.channels id) := by
  obtain ⟨-, h⟩ := exec_eq_ok.mp h
  cases c with
  | deposit client amount =>
    left
    rw [(deposit_ok hm h).1, Storage.setBalance_channels]
  | withdraw amount =>
    left
    rw [(withdraw_ok h).2.1, Storage.setBalance_channels]
  | reserve channelId client workerPayout maxAmount deadline sig =>
    simp only [run, bind_eq_ok, reserve_eq_ok, pure_eq_ok] at h
    obtain ⟨book, ⟨g, rfl⟩, rfl⟩ := h
    refine setChannel_or _ ?_
    rintro rfl
    exact .reserve g
  | redeem channelId cumulative metadataHash sig =>
    obtain ⟨g, hbook, -⟩ := redeem_ok h
    rw [hbook]
    refine setChannel_or _ ?_
    rintro rfl
    exact .redeem g
  | close channelId =>
    simp only [run, bind_eq_ok, close_eq_ok, pure_eq_ok] at h
    obtain ⟨book, ⟨-, hlate, -, -, rfl⟩, rfl⟩ := h
    refine setChannel_or _ ?_
    rintro rfl
    exact .close hlate

def Storage.Ordered (s : Storage) : Prop := ∀ id, (s.channels id).paid ≤ (s.channels id).reserved

theorem Touches.ordered (h : Touches E m w id c ch)
    (ho : (w.book.channels id).paid ≤ (w.book.channels id).reserved) : ch.paid ≤ ch.reserved := by
  cases h with
  | reserve g =>
    have hpaid := ho.trans g.rises.le
    simpa [Channel.raised] using hpaid
  | redeem g => exact g.locked
  | close _ => exact le_rfl

theorem Touches.grows (h : Touches E m w id c ch) : (w.book.channels id).paid ≤ ch.paid := by
  cases h with
  | reserve _ => simp [Channel.raised]
  | redeem g => exact g.rises.le
  | close _ => exact le_rfl

theorem exec_ordered (hm : m.sender ≠ E.self) (h : exec E m c w = .ok w') (ho : w.book.Ordered) :
    w'.book.Ordered := by
  intro id
  rcases exec_channel hm h id with hsame | htouch
  · rw [hsame]
    exact ho id
  · exact htouch.ordered (ho id)

theorem exec_grows (hm : m.sender ≠ E.self) (h : exec E m c w = .ok w') (id : Bytes32) :
    (w.book.channels id).paid ≤ (w'.book.channels id).paid := by
  rcases exec_channel hm h id with hsame | htouch
  · rw [hsame]
  · exact htouch.grows

end Channels

section Sums

variable (s : Storage)

/-- What the contract owes: every free balance and everything reserved and not paid out. -/
def owed : ℕ := ∑ client, s.balanceOf client + ∑ id, (s.channels id).unspent

theorem owed_setBalance (client : Address) (balance : ℕ) :
    owed (s.setBalance client balance) + s.balanceOf client = owed s + balance := by
  have hsum := sum_update (fun n => n) s.balanceOf client balance
  simp only [owed, Storage.setBalance] at *
  omega

theorem owed_setChannel (id : Bytes32) (ch : Channel) :
    owed (s.setChannel id ch) + (s.channels id).unspent = owed s + ch.unspent := by
  have hsum := sum_update Channel.unspent s.channels id ch
  simp only [owed, Storage.setChannel] at *
  omega

theorem owed_empty : owed {} = 0 := by
  have hbalances : ∑ client, ({} : Storage).balanceOf client = 0 :=
    Finset.sum_eq_zero fun _ _ => rfl
  have hchannels : ∑ id, (({} : Storage).channels id).unspent = 0 :=
    Finset.sum_eq_zero fun _ _ => rfl
  rw [owed, hbalances, hchannels]

variable {s} {client workerPayout : Address} {maxAmount deadline cumulative : ℕ} {sig : Bytes}
  {metadataHash : Bytes32}

/-- The lock moves money from the balance to the channel. -/
theorem owed_lock (g : ReserveGuard E m id client workerPayout maxAmount deadline sig s)
    (ho : s.Ordered) : owed (lock s id client workerPayout maxAmount deadline) = owed s := by
  have hrise := g.rises
  have hfund := g.funded
  have hpaid := ho id
  have hbalance := owed_setBalance s client
    (s.balanceOf client - (maxAmount - (s.channels id).reserved))
  have hchannel := owed_setChannel (s.setBalance client
    (s.balanceOf client - (maxAmount - (s.channels id).reserved))) id
      ((s.channels id).raised client workerPayout maxAmount deadline)
  simp only [lock]
  simp only [Storage.setBalance_channels, Channel.unspent, Channel.raised,
    Channel.opened_paid] at *
  omega

/-- A payment lowers what is owed by what it pays. -/
theorem owed_redeemed (g : RedeemGuard E id cumulative metadataHash sig s) :
    owed (s.setChannel id { s.channels id with paid := cumulative }) +
      (cumulative - (s.channels id).paid) = owed s := by
  have hrise := g.rises
  have hlock := g.locked
  have hchannel := owed_setChannel s id { s.channels id with paid := cumulative }
  simp only [Channel.unspent] at *
  omega

theorem owed_unlock (id : Bytes32) : owed (unlock s id) = owed s := by
  have hchannel := owed_setChannel s id (s.channels id).closed
  have hbalance := owed_setBalance (s.setChannel id (s.channels id).closed) (s.channels id).client
    (s.balanceOf (s.channels id).client + (s.channels id).unspent)
  simp only [unlock]
  simp only [Storage.setChannel_balanceOf, Channel.unspent, Channel.closed, Nat.sub_self] at *
  omega

/-- No call lets what is owed outgrow what is held. -/
theorem exec_surplus {c : Call} (hm : m.sender ≠ E.self) (ho : w.book.Ordered)
    (h : exec E m c w = .ok w') : owed w'.book + held E w ≤ owed w.book + held E w' := by
  obtain ⟨-, h⟩ := exec_eq_ok.mp h
  cases c with
  | deposit client amount =>
    obtain ⟨hbook, hheld⟩ := deposit_ok hm h
    have howed := owed_setBalance w.book client (w.book.balanceOf client + amount)
    rw [hbook]
    omega
  | withdraw amount =>
    obtain ⟨hle, hbook, hheld⟩ := withdraw_ok h
    have howed := owed_setBalance w.book m.sender (w.book.balanceOf m.sender - amount)
    rw [hbook]
    omega
  | reserve channelId client workerPayout maxAmount deadline sig =>
    simp only [run, bind_eq_ok, reserve_eq_ok, pure_eq_ok] at h
    obtain ⟨book, ⟨g, rfl⟩, rfl⟩ := h
    simp only [owed_lock g ho, held, le_refl]
  | redeem channelId cumulative metadataHash sig =>
    obtain ⟨g, hbook, hheld⟩ := redeem_ok h
    have howed := owed_redeemed g
    rw [hbook]
    omega
  | close channelId =>
    simp only [run, bind_eq_ok, close_eq_ok, pure_eq_ok] at h
    obtain ⟨book, ⟨-, -, -, -, rfl⟩, rfl⟩ := h
    simp only [owed_unlock, held, le_refl]

end Sums

/-- What the client signs before a worker earmarks its money. -/
structure ReserveAuth where
  channelId : Bytes32
  client : Address
  workerPayout : Address
  maxAmount : ℕ
  deadline : ℕ
  deriving DecidableEq

namespace ReserveAuth

variable (t : ReserveAuth)

def call (sig : Bytes) : Call :=
  .reserve t.channelId t.client t.workerPayout t.maxAmount t.deadline sig

/-- The channel it was used on is open, and does not close before its deadline. -/
structure Outlasted (s : Storage) : Prop where
  isOpen : (s.channels t.channelId).client ≠ 0
  deadline_le : t.deadline ≤ (s.channels t.channelId).deadline

/-- The authorisation is out of date, or as much as it asks for is reserved. -/
def Spent (now : ℕ) (s : Storage) : Prop :=
  t.deadline < now ∨ t.maxAmount ≤ (s.channels t.channelId).reserved

variable {t}

theorem used_eq_ok {sig : Bytes} :
    exec E m (t.call sig) w = .ok w' ↔
      (t.call sig).Decodes ∧
      ReserveGuard E m t.channelId t.client t.workerPayout t.maxAmount t.deadline sig w.book ∧
      ⟨lock w.book t.channelId t.client t.workerPayout t.maxAmount t.deadline, w.usdc⟩ = w' := by
  simp only [exec_eq_ok, call, run, bind_eq_ok, reserve_eq_ok, pure_eq_ok]
  constructor
  · rintro ⟨hdec, book, ⟨g, rfl⟩, rfl⟩
    exact ⟨hdec, g, rfl⟩
  · rintro ⟨hdec, g, rfl⟩
    exact ⟨hdec, _, ⟨g, rfl⟩, rfl⟩

section Raise

variable {ch : Channel} {client workerPayout : Address} {maxAmount deadline : ℕ}

theorem raised_client (hclient : client ≠ 0) :
    (ch.raised client workerPayout maxAmount deadline).client ≠ 0 := by
  by_cases h : ch.client = 0
  · simpa [Channel.raised, Channel.opened, h] using hclient
  · simp only [Channel.raised, Channel.opened, if_neg h]
    exact h

theorem le_raised_deadline :
    deadline ≤ (ch.raised client workerPayout maxAmount deadline).deadline := by
  simp only [Channel.raised]
  split
  · exact le_rfl
  · next h => exact not_lt.mp h

/-- The deadline of an open channel only moves back. -/
theorem raised_deadline_le (h : ch.client ≠ 0) :
    ch.deadline ≤ (ch.raised client workerPayout maxAmount deadline).deadline := by
  simp only [Channel.raised, Channel.opened, if_neg h]
  split
  · next hlt => exact hlt.le
  · exact le_rfl

end Raise

theorem outlasted_of_used {sig : Bytes} (h : exec E m (t.call sig) w = .ok w') :
    t.Outlasted w'.book := by
  obtain ⟨-, g, rfl⟩ := used_eq_ok.mp h
  refine ⟨?_, ?_⟩
  · simp only [lock, Storage.setChannel_self]
    exact raised_client (recover_ne_zero g.signed)
  · simp only [lock, Storage.setChannel_self]
    exact le_raised_deadline

theorem spent_of_used {sig : Bytes} (h : exec E m (t.call sig) w = .ok w') :
    t.Spent m.timestamp w'.book := by
  obtain ⟨-, -, rfl⟩ := used_eq_ok.mp h
  right
  simp [lock, Channel.raised]

theorem Spent.not_used {now : ℕ} (h : t.Spent now w.book) (hnow : now ≤ m.timestamp)
    {sig : Bytes} : exec E m (t.call sig) w ≠ .ok w' := by
  intro hexec
  obtain ⟨-, g, -⟩ := used_eq_ok.mp hexec
  rcases h with hlate | hreserved
  · exact absurd g.live (not_lt.mpr (hlate.le.trans hnow))
  · exact absurd g.rises (not_lt.mpr hreserved)

theorem Outlasted.exec {c : Call} (ho : t.Outlasted w.book) (hm : m.sender ≠ E.self)
    (h : exec E m c w = .ok w') : t.Outlasted w'.book := by
  obtain ⟨hopen, hdeadline⟩ := ho
  rcases exec_channel hm h t.channelId with hsame | htouch
  · exact ⟨hsame ▸ hopen, hsame ▸ hdeadline⟩
  · refine ⟨?_, ?_⟩
    · generalize w'.book.channels t.channelId = ch at htouch ⊢
      cases htouch with
      | reserve g => exact raised_client (recover_ne_zero g.signed)
      | redeem _ => exact hopen
      | close _ => exact hopen
    · generalize w'.book.channels t.channelId = ch at htouch ⊢
      cases htouch with
      | reserve _ => exact hdeadline.trans (raised_deadline_le hopen)
      | redeem _ => exact hdeadline
      | close _ => exact hdeadline

/-- Only a close lowers what is reserved, and by then the authorisation is out of date. -/
theorem Spent.exec {now : ℕ} {c : Call} (h : t.Spent now w.book) (ho : t.Outlasted w.book)
    (hnow : now ≤ m.timestamp) (hm : m.sender ≠ E.self) (hexec : exec E m c w = .ok w') :
    t.Spent m.timestamp w'.book := by
  rcases h with hlate | hreserved
  · exact .inl (hlate.trans_le hnow)
  unfold Spent
  rcases exec_channel hm hexec t.channelId with hsame | htouch
  · rw [hsame]
    exact .inr hreserved
  · generalize w'.book.channels t.channelId = ch at htouch ⊢
    cases htouch with
    | reserve g => exact .inr (hreserved.trans g.rises.le)
    | redeem _ => exact .inr hreserved
    | close hlate => exact .inl (ho.deadline_le.trans_lt hlate)

end ReserveAuth

section Runs

variable {s s' s₀ : Chain τ} {a : Act} {t : ReserveAuth}

/-- The books balance: no channel paid more than it reserved, and everything owed is held. -/
structure Solvent (E : Deployment τ) (w : World τ) : Prop where
  ordered : w.book.Ordered
  covered : owed w.book ≤ held E w

theorem exec_solvent {c : Call} (hm : m.sender ≠ E.self) (h : exec E m c w = .ok w')
    (hw : Solvent E w) : Solvent E w' where
  ordered := exec_ordered hm h hw.ordered
  covered := by
    have hsurplus := exec_surplus hm hw.ordered h
    have hcovered := hw.covered
    omega

theorem Step.solvent (h : Step E s a s') (hs : Solvent E s.world) : Solvent E s'.world := by
  cases h with
  | call _ hm hexec => exact exec_solvent hm hexec hs
  | revert _ _ _ => exact hs
  | token _ hheld => exact ⟨hs.ordered, hs.covered.trans hheld⟩

theorem Step.grows (h : Step E s a s') (id : Bytes32) :
    (s.world.book.channels id).paid ≤ (s'.world.book.channels id).paid := by
  cases h with
  | call _ hm hexec => exact exec_grows hm hexec id
  | revert _ _ _ => exact le_rfl
  | token _ _ => exact le_rfl

theorem Chain.Genesis.solvent (h : s.Genesis) : Solvent E s.world where
  ordered id := by
    rw [h]
  covered := by
    rw [h, owed_empty]
    exact Nat.zero_le _

/-- The channel of an authorisation that was used outlasts it, and it cannot be used again. -/
def Used (t : ReserveAuth) (s : Chain τ) : Prop :=
  t.Outlasted s.world.book ∧ t.Spent s.now s.world.book

theorem Step.used (h : Step E s a s') (hs : Used t s) : Used t s' := by
  obtain ⟨houtlasted, hspent⟩ := hs
  cases h with
  | call hnow hm hexec => exact ⟨houtlasted.exec hm hexec, hspent.exec houtlasted hnow hm hexec⟩
  | revert hnow _ _ => exact ⟨houtlasted, hspent.imp_left (·.trans_le hnow)⟩
  | token hnow _ => exact ⟨houtlasted, hspent.imp_left (·.trans_le hnow)⟩

/-- Whatever is called in whatever order, the contract holds everything it owes, no channel pays more
than it reserved or takes a payment back, and an authorisation takes effect once: its channel closes
only when it is out of date. -/
theorem channels_safe (h₀ : s₀.Genesis) (h : Runs (Step E) s₀ s) :
    owed s.world.book ≤ held E s.world ∧
    s.world.book.Ordered ∧
    (∀ a s', Step E s a s' → ∀ id,
      (s.world.book.channels id).paid ≤ (s'.world.book.channels id).paid) ∧
    ∀ (t : ReserveAuth) m sig w r, s.now ≤ m.timestamp → m.sender ≠ E.self →
      exec E m (t.call sig) s.world = .ok w → Runs (Step E) ⟨m.timestamp, w⟩ r →
      t.deadline ≤ (r.world.book.channels t.channelId).deadline ∧
      (∀ m' w', exec E m' (.close t.channelId) r.world = .ok w' →
        (r.world.book.channels t.channelId).deadline < m'.timestamp) ∧
      ∀ m' sig' w', r.now ≤ m'.timestamp → exec E m' (t.call sig') r.world ≠ .ok w' := by
  have hs : Solvent E s.world :=
    h.invariant (P := fun s => Solvent E s.world) Step.solvent h₀.solvent
  refine ⟨hs.covered, hs.ordered, ?_, ?_⟩
  · intro a s' hstep id
    exact hstep.grows id
  · intro t m sig w r _ _ huse hrun
    have hused : Used t r :=
      hrun.invariant Step.used ⟨ReserveAuth.outlasted_of_used huse, ReserveAuth.spent_of_used huse⟩
    refine ⟨hused.1.deadline_le, ?_, ?_⟩
    · intro m' w' hclose
      obtain ⟨-, hclose⟩ := exec_eq_ok.mp hclose
      simp only [run, bind_eq_ok, close_eq_ok, pure_eq_ok] at hclose
      obtain ⟨book, ⟨-, hlate, -⟩, -⟩ := hclose
      exact hlate
    · intro m' sig' w' hnow
      exact hused.2.not_used hnow

end Runs

section Local

open LocalChain (deployment sign recover_sign)

/-- Half a dollar for an hour. -/
def half : ReserveAuth := ⟨7, LocalChain.client, LocalChain.worker, 500_000, 1_003_600⟩

def halfSig : Bytes :=
  sign half.client (reserveDigest deployment half.channelId half.client half.workerPayout
    half.maxAmount half.deadline)

/-- The authorisation of a quarter of a dollar, for some job. -/
def quarterSig : Bytes := sign half.client (spendDigest deployment half.channelId half.client 250_000 5)

/-- The contract next to the token of the local chain. -/
def start : Chain MockUsdc.Token := ⟨1_000_000, ⟨{}, LocalChain.start.world.usdc⟩⟩

theorem start_genesis : start.Genesis := rfl

/-- The chain after a call was sent to it, whatever came of it. -/
def Chain.after (E : Deployment τ) (s : Chain τ) (m : Msg) (c : Call) : Chain τ where
  now := m.timestamp
  world :=
    match exec E m c s.world with
    | .ok w => w
    | .error _ => s.world

theorem Step.after {s : Chain τ} {m : Msg} (c : Call) (hnow : s.now ≤ m.timestamp)
    (hm : m.sender ≠ E.self) : Step E s (.call m c) (s.after E m c) := by
  unfold Chain.after
  cases h : exec E m c s.world with
  | ok w => exact .call hnow hm h
  | error e => exact .revert hnow hm h

def funded : Chain MockUsdc.Token :=
  start.after deployment ⟨LocalChain.client, 1_000_000⟩ (.deposit LocalChain.client 1_000_000)

def reserved : Chain MockUsdc.Token where
  now := 1_000_100
  world := ⟨lock funded.world.book half.channelId half.client half.workerPayout half.maxAmount
    half.deadline, funded.world.usdc⟩

theorem half_used :
    exec deployment ⟨LocalChain.worker, 1_000_100⟩ (half.call halfSig) funded.world =
      .ok reserved.world := by
  refine ReserveAuth.used_eq_ok.mpr ⟨⟨by decide, by decide, ?_⟩, ?_, rfl⟩
  · exact (LocalChain.length_sign _ _).le
  · refine ⟨by decide, ?_, .inl (by decide), by decide, by decide⟩
    exact (mapError_eq_ok _ _ _).mpr (recover_sign rfl (by decide) _)

theorem quarter_redeemed :
    ∃ w, exec deployment ⟨LocalChain.worker, 1_000_200⟩
        (.redeem half.channelId 250_000 5 quarterSig) reserved.world = .ok w ∧
      (w.book.channels half.channelId).paid = 250_000 := by
  have hclient : (reserved.world.book.channels half.channelId).client = LocalChain.client := by
    decide
  have g : RedeemGuard deployment half.channelId 250_000 5 quarterSig reserved.world.book := by
    refine ⟨?_, by decide, by decide, ?_⟩
    · rw [hclient]
      decide
    · rw [hclient]
      exact (mapError_eq_ok _ _ _).mpr (recover_sign rfl (by decide) _)
  have hbalance : deployment.token.balanceOf reserved.world.usdc deployment.self = 1_000_000 := by
    decide
  have hworker : ∃ usdc, Pot.push deployment LocalChain.worker 225_000 reserved.world.usdc =
      .ok usdc := Pot.push_pays _ (by omega)
  obtain ⟨usdc, hworker⟩ := hworker
  have hvault : ∃ usdc', Pot.pushSome deployment deployment.feeVault 25_000 usdc = .ok usdc' := by
    have hleft := Pot.push_held hworker
    exact Pot.pushSome_pays _ (by omega)
  obtain ⟨usdc', hvault⟩ := hvault
  refine ⟨_, exec_eq_ok.mpr ⟨⟨by decide, (LocalChain.length_sign _ _).le⟩, redeem_pays g
    (by decide) ((mapError_eq_ok _ _ _).mpr hworker) ((mapError_eq_ok _ _ _).mpr hvault)⟩, ?_⟩
  simp only [Storage.setChannel_self]

/-- A quarter of a dollar is paid out of the half, and the authorisation is used up. -/
theorem channels_safe_half :
    (∃ s : Chain MockUsdc.Token, (s.world.book.channels half.channelId).paid = 250_000 ∧
      owed s.world.book ≤ held deployment s.world) ∧
    ∀ sig w, exec deployment ⟨LocalChain.worker, 1_000_300⟩ (half.call sig) reserved.world ≠
      .ok w := by
  obtain ⟨w, hredeem, hpaid⟩ := quarter_redeemed
  have hfunded : Runs (Step deployment) start funded := .single (.after _ (by decide) (by decide))
  have hreserved : Runs (Step deployment) start reserved :=
    hfunded.tail (.call (by decide) (by decide) half_used)
  have hredeemed : Runs (Step deployment) start ⟨1_000_200, w⟩ :=
    hreserved.tail (.call (by decide) (by decide) hredeem)
  refine ⟨⟨_, hpaid, (channels_safe start_genesis hredeemed).1⟩, ?_⟩
  intro sig w
  obtain ⟨-, -, -, honce⟩ := channels_safe start_genesis hfunded
  exact (honce half _ _ _ _ (by decide) (by decide) half_used (.refl _)).2.2 _ _ _ (by decide)

end Local

end Rootmode.Channels
