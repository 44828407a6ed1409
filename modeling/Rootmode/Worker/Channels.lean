import Rootmode.Core.Payments

namespace Rootmode.Worker

open Lib Lib.Checked Lib.Text Payments

/-- A channel as this worker knows it. -/
structure Channel where
  channelId : Text
  client : Text
  /-- The highest cumulative amount this client has signed for. -/
  authorised : Micros
  reserved : Micros
  latest : SpendingAuth
  /-- The newest pot ticket, kept whole because settlement needs its signature. -/
  spend : Option SpendTicket
  spendSig : Option Text
  settled : Micros
  updatedAt : ℤ
  contract : Text
  deriving DecidableEq

/-- Earned and not yet paid out. -/
def Channel.owed (ch : Channel) : Micros := ch.authorised - ch.settled

/-- The open channels by their id, and the contract this node settles on. -/
structure Channels where
  contract : Text
  opened : Text → Option Channel

namespace Channels

variable (C : Crypto) (chs : Channels)

def insert (id : Text) (ch : Channel) : Channels :=
  { chs with opened := Function.update chs.opened id (some ch) }

/-- The ledger key for a client and a payout on this node's contract. -/
def idFor (client worker : Text) : Text := channelId C client worker (lower chs.contract)

/-- What the entry of a channel has authorised, nothing when there is none. -/
def authorisedAt (id : Text) : Micros := (chs.opened id).elim 0 Channel.authorised

def authorisedFor (client worker : Text) : Micros := chs.authorisedAt (chs.idFor C client worker)

def owedFor (id : Text) : Micros := (chs.opened id).elim 0 Channel.owed

/-- A channel belongs to the address that opened it. -/
def checkOwner (id client : Text) : Except String Unit :=
  match chs.opened id with
  | none => .ok ⟨⟩
  | some ch =>
    let owner := ch.client.str
    let shown := client.str
    require (eqIgnoreAsciiCase ch.client client) s!"this channel belongs to {owner}, not to {shown}"

/-- The entry a legacy authorisation leaves. -/
def legacy (auth : SpendingAuth) (now : ℤ) : Channel :=
  let existing := chs.opened auth.channelId
  { channelId := auth.channelId
    client := auth.client
    authorised := auth.cumulative
    reserved := max (existing.elim auth.cumulative Channel.reserved) auth.cumulative
    latest := auth
    spend := existing.bind Channel.spend
    spendSig := existing.bind Channel.spendSig
    settled := existing.elim 0 Channel.settled
    updatedAt := now
    contract := chs.contract }

/-- Check a legacy authorisation and record it, with what this job earns. -/
def accept (auth : SpendingAuth) (d : Domain) (now : ℤ) : Except String (Micros × Channels) := do
  let existing := chs.opened auth.channelId
  let already := existing.elim 0 Channel.authorised
  let reserved := max (existing.elim auth.cumulative Channel.reserved) auth.cumulative
  let earned ← (auth.check C d already reserved).mapError CoreError.text
  chs.checkOwner auth.channelId auth.client
  return (earned, chs.insert auth.channelId (chs.legacy auth now))

/-- `0x` and 64 zeros. -/
def noMetadata : Text := ofString "0x" ++ Hex.encode (List.replicate 32 0)

/-- The entry a pot ticket leaves. -/
def banked (ticket : SpendTicket) (sig : Text) (now : ℤ) : Channel :=
  let id := chs.idFor C ticket.client ticket.workerPayout
  let existing := chs.opened id
  { channelId := id
    client := ticket.client
    authorised := ticket.cumulative
    reserved := max (existing.elim ticket.cumulative Channel.reserved) ticket.cumulative
    latest := existing.elim
      { channelId := id
        client := ticket.client
        cumulative := ticket.cumulative
        metadataHash := noMetadata
        sig := none }
      Channel.latest
    spend := some ticket
    spendSig := some sig
    settled := existing.elim 0 Channel.settled
    updatedAt := now
    contract := chs.contract }

/-- Bank a pot ticket, which must raise the cumulative by at least `expectedDelta`. -/
def acceptSpend (ticket : SpendTicket) (sig : Text) (d : Domain) (appKey : Text)
    (expectedDelta : Micros) (now : ℤ) : Except String (Micros × Channels) := do
  (ticket.check C d sig appKey (max now 0).toNat).mapError CoreError.text
  let id := chs.idFor C ticket.client ticket.workerPayout
  chs.checkOwner id ticket.client
  let already := chs.authorisedAt id
  let cumulative := ticket.cumulative
  require (satAdd 64 already expectedDelta ≤ cumulative)
    s!"ticket cumulative {cumulative} is less than {already} + {expectedDelta} (already authorised {already})"
  require (already < cumulative)
    s!"cumulative spend must rise: {cumulative} is not more than {already}"
  return (expectedDelta, chs.insert id (chs.banked C ticket sig now))

/-- Record what a settlement transaction paid up to. -/
def settled (id : Text) (upto : Micros) : Channels :=
  match chs.opened id with
  | none => chs
  | some ch => chs.insert id { ch with settled := max ch.settled upto }

variable {C} {chs}

@[simp] theorem insert_contract (id : Text) (ch : Channel) :
    (chs.insert id ch).contract = chs.contract := rfl

@[simp] theorem insert_opened_self (id : Text) (ch : Channel) :
    (chs.insert id ch).opened id = some ch := by simp [insert]

theorem insert_opened_of_ne {id other : Text} (ch : Channel) (h : other ≠ id) :
    (chs.insert id ch).opened other = chs.opened other := by simp [insert, h]

@[simp] theorem insert_idFor (id : Text) (ch : Channel) (client worker : Text) :
    (chs.insert id ch).idFor C client worker = chs.idFor C client worker := rfl

theorem checkOwner_eq_ok {id client : Text} :
    chs.checkOwner id client = .ok ⟨⟩ ↔
      ∀ ch, chs.opened id = some ch → eqIgnoreAsciiCase ch.client client = true := by
  unfold checkOwner
  cases chs.opened id with
  | none => simp
  | some ch => simp

@[simp] theorem authorisedAt_insert_self (id : Text) (ch : Channel) :
    (chs.insert id ch).authorisedAt id = ch.authorised := by simp [authorisedAt]

theorem authorisedAt_congr {chs' : Channels} {id : Text} (h : chs'.opened id = chs.opened id) :
    chs'.authorisedAt id = chs.authorisedAt id := by rw [authorisedAt, h, authorisedAt]

/-- Everything `accept` checks of a legacy authorisation. -/
structure LegacyGuard (C : Crypto) (chs : Channels) (auth : SpendingAuth) (d : Domain) : Prop where
  signed : ∃ signer, auth.recover C d = .ok signer ∧ eqIgnoreAsciiCase signer auth.client = true
  rises : chs.authorisedAt auth.channelId < auth.cumulative
  owned : chs.checkOwner auth.channelId auth.client = .ok ⟨⟩

/-- The ceiling never refuses: without a reservation it is the authorisation's own total. -/
theorem accept_eq_ok {auth : SpendingAuth} {d : Domain} {now : ℤ} {earned : Micros}
    {chs' : Channels} :
    chs.accept C auth d now = .ok (earned, chs') ↔
      LegacyGuard C chs auth d ∧ earned = auth.cumulative - chs.authorisedAt auth.channelId ∧
        chs' = chs.insert auth.channelId (chs.legacy auth now) := by
  simp only [accept, SpendingAuth.check, bind_eq_ok, mapError_eq_ok, require_eq_ok]
  constructor
  · rintro ⟨_, ⟨signer, hsigner, -, hsame, -, hrises, -, -, hearned⟩, _, howned, h⟩
    cases hearned
    cases h
    exact ⟨⟨⟨signer, hsigner, hsame⟩, hrises, howned⟩, rfl, rfl⟩
  · rintro ⟨⟨⟨signer, hsigner, hsame⟩, hrises, howned⟩, rfl, rfl⟩
    exact ⟨_, ⟨signer, hsigner, ⟨⟩, hsame, ⟨⟩, hrises, ⟨⟩, le_max_right _ _, rfl⟩, ⟨⟩, howned, rfl⟩

/-- Everything `acceptSpend` checks of a pot ticket. -/
structure SpendGuard (C : Crypto) (chs : Channels) (ticket : SpendTicket) (sig : Text) (d : Domain)
    (appKey : Text) (expectedDelta : Micros) (now : ℤ) : Prop where
  signed : ticket.check C d sig appKey (max now 0).toNat = .ok ⟨⟩
  owned : chs.checkOwner (chs.idFor C ticket.client ticket.workerPayout) ticket.client = .ok ⟨⟩
  covers : satAdd 64 (chs.authorisedFor C ticket.client ticket.workerPayout) expectedDelta ≤
    ticket.cumulative
  rises : chs.authorisedFor C ticket.client ticket.workerPayout < ticket.cumulative

theorem acceptSpend_eq_ok {ticket : SpendTicket} {sig appKey : Text} {d : Domain}
    {expectedDelta earned : Micros} {now : ℤ} {chs' : Channels} :
    chs.acceptSpend C ticket sig d appKey expectedDelta now = .ok (earned, chs') ↔
      SpendGuard C chs ticket sig d appKey expectedDelta now ∧ earned = expectedDelta ∧
        chs' = chs.insert (chs.idFor C ticket.client ticket.workerPayout)
          (chs.banked C ticket sig now) := by
  simp only [acceptSpend, bind_eq_ok, mapError_eq_ok, require_eq_ok]
  constructor
  · rintro ⟨_, hsigned, _, howned, -, hcovers, -, hrises, h⟩
    cases h
    exact ⟨⟨hsigned, howned, hcovers, hrises⟩, rfl, rfl⟩
  · rintro ⟨g, rfl, rfl⟩
    exact ⟨⟨⟩, g.signed, ⟨⟩, g.owned, ⟨⟩, g.covers, ⟨⟩, g.rises, rfl⟩

end Channels

end Rootmode.Worker
