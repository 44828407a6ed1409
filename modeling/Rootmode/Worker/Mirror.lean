import Rootmode.Lib.Object
import Rootmode.Lib.Pretty
import Rootmode.Worker.Ledger

namespace Rootmode.Worker

open Lib Lib.Checked Lib.Text Lib.Entries Payments

/-- How the list of channels is written and which texts are read as one. -/
structure LedgerFormat where
  write : List Channel → Text
  read : Text → Option (List Channel)

/-- The open channels in memory, and the file that mirrors them, if it can be read. -/
structure Mirror where
  contract : Text
  opened : List (Text × Channel)
  file : Option Text

namespace Mirror

variable (C : Crypto) (F : LedgerFormat)

/-- The ledger in memory. -/
def channels (m : Mirror) : Channels where
  contract := m.contract
  opened id := lookup id m.opened

def list (m : Mirror) : List Channel := m.opened.map Prod.snd

/-- The file is written whole and moved into place. -/
def write (m : Mirror) : Mirror := { m with file := some (F.write m.list) }

def insert (m : Mirror) (id : Text) (ch : Channel) : Mirror := { m with opened := put id ch m.opened }

/-- Entries of another contract are left behind, and those of before contracts were recorded once their
ticket has expired. -/
def keeps (contract : Text) (now : ℕ) (ch : Channel) : Bool :=
  if ch.contract = [] then ch.spend.all fun t => now ≤ t.deadline
  else eqIgnoreAsciiCase ch.contract contract

def load (file : Option Text) (contract : Text) (now : ℕ) : Mirror :=
  let found := (file.bind F.read).getD []
  let kept := found.filter (keeps contract now)
  let m : Mirror :=
    { contract, opened := putAll (kept.map fun ch => (ch.channelId, ch)) [], file }
  if kept.length < found.length then m.write F else m

def accept (m : Mirror) (auth : SpendingAuth) (d : Domain) (now : ℤ) : Except String (Micros × Mirror) := do
  let (earned, _) ← m.channels.accept C auth d now
  return (earned, (m.insert auth.channelId (m.channels.legacy auth now)).write F)

def acceptSpend (m : Mirror) (ticket : SpendTicket) (sig : Text) (d : Domain) (appKey : Text)
    (expectedDelta : Micros) (now : ℤ) : Except String (Micros × Mirror) := do
  let (earned, _) ← m.channels.acceptSpend C ticket sig d appKey expectedDelta now
  let id := m.channels.idFor C ticket.client ticket.workerPayout
  return (earned, (m.insert id (m.channels.banked C ticket sig now)).write F)

def settled (m : Mirror) (id : Text) (upto : Micros) : Mirror :=
  let m := match lookup id m.opened with
    | none => m
    | some ch => m.insert id { ch with settled := max ch.settled upto }
  m.write F

inductive Call
  | accept (auth : SpendingAuth) (d : Domain) (now : ℤ)
  | acceptSpend (ticket : SpendTicket) (sig : Text) (d : Domain) (appKey : Text) (expectedDelta : Micros)
      (now : ℤ)
  | settled (id : Text) (upto : Micros)

/-- What a call leaves, which is what was there where it is refused. -/
def call (m : Mirror) : Call → Mirror
  | .accept auth d now => ((m.accept C F auth d now).toOption.map Prod.snd).getD m
  | .acceptSpend ticket sig d appKey expectedDelta now =>
    ((m.acceptSpend C F ticket sig d appKey expectedDelta now).toOption.map Prod.snd).getD m
  | .settled id upto => m.settled F id upto

def run (m : Mirror) (calls : List Call) : Mirror := calls.foldl (call C F) m

variable {C F} {m m' : Mirror} {id contract other : Text} {ch : Channel} {auth : SpendingAuth} {d : Domain}
  {ticket : SpendTicket} {sig appKey : Text} {expectedDelta earned upto : Micros} {now : ℤ} {clock : ℕ}
  {file : Option Text} {calls : List Call}

section Memory

theorem channels_insert : (m.insert id ch).channels = m.channels.insert id ch := by
  unfold insert channels Channels.insert
  simp only [Channels.mk.injEq, true_and]
  funext id'
  rw [lookup_put, Function.update_apply]
  by_cases hid : id = id'
  · rw [if_pos hid, if_pos hid.symm]
  · rw [if_neg hid, if_neg (Ne.symm hid)]

theorem channels_write : (m.write F).channels = m.channels := rfl

theorem accept_eq_ok : m.accept C F auth d now = .ok (earned, m') ↔
    m.channels.accept C auth d now = .ok (earned, m'.channels) ∧
      m' = (m.insert auth.channelId (m.channels.legacy auth now)).write F := by
  unfold accept
  simp only [bind_eq_ok]
  constructor
  · rintro ⟨⟨earned', chs⟩, haccept, h⟩
    cases h
    have hchs := (Channels.accept_eq_ok.mp haccept).2.2
    subst hchs
    exact ⟨by rw [haccept, channels_write, channels_insert], rfl⟩
  · rintro ⟨haccept, rfl⟩
    exact ⟨_, haccept, rfl⟩

theorem acceptSpend_eq_ok : m.acceptSpend C F ticket sig d appKey expectedDelta now = .ok (earned, m') ↔
    m.channels.acceptSpend C ticket sig d appKey expectedDelta now = .ok (earned, m'.channels) ∧
      m' = (m.insert (m.channels.idFor C ticket.client ticket.workerPayout)
        (m.channels.banked C ticket sig now)).write F := by
  unfold acceptSpend
  simp only [bind_eq_ok]
  constructor
  · rintro ⟨⟨earned', chs⟩, haccept, h⟩
    cases h
    have hchs := (Channels.acceptSpend_eq_ok.mp haccept).2.2
    subst hchs
    exact ⟨by rw [haccept, channels_write, channels_insert], rfl⟩
  · rintro ⟨haccept, rfl⟩
    exact ⟨_, haccept, rfl⟩

theorem channels_settled : (m.settled F id upto).channels = m.channels.settled id upto := by
  have hopened : m.channels.opened id = lookup id m.opened := rfl
  unfold settled Channels.settled
  dsimp only
  rw [channels_write, hopened]
  cases lookup id m.opened with
  | none => rfl
  | some ch => exact channels_insert

end Memory

section Calls

/-- A call changes nothing, or writes the file after at most one entry was put. -/
theorem call_cases (m : Mirror) (a : Call) : m.call C F a = m ∨ m.call C F a = m.write F ∨
    ∃ id ch, ch.channelId = id ∧ ch.contract = m.contract ∧ m.call C F a = (m.insert id ch).write F ∨
      ∃ was, lookup id m.opened = some was ∧ ch.channelId = was.channelId ∧ ch.contract = was.contract ∧
        m.call C F a = (m.insert id ch).write F := by
  cases a with
  | accept auth d now =>
    have hcall : m.call C F (.accept auth d now) =
        ((m.accept C F auth d now).toOption.map Prod.snd).getD m := rfl
    rw [hcall]
    cases haccept : m.accept C F auth d now with
    | error e => exact .inl rfl
    | ok out =>
      refine .inr (.inr ⟨auth.channelId, m.channels.legacy auth now, .inl ⟨rfl, rfl, ?_⟩⟩)
      exact (accept_eq_ok.mp haccept).2
  | acceptSpend ticket sig d appKey expectedDelta now =>
    have hcall : m.call C F (.acceptSpend ticket sig d appKey expectedDelta now) =
        ((m.acceptSpend C F ticket sig d appKey expectedDelta now).toOption.map Prod.snd).getD m := rfl
    rw [hcall]
    cases haccept : m.acceptSpend C F ticket sig d appKey expectedDelta now with
    | error e => exact .inl rfl
    | ok out =>
      refine .inr (.inr ⟨_, m.channels.banked C ticket sig now, .inl ⟨rfl, rfl, ?_⟩⟩)
      exact (acceptSpend_eq_ok.mp haccept).2
  | settled id upto =>
    unfold call settled
    dsimp only
    cases hopened : lookup id m.opened with
    | none => exact .inr (.inl rfl)
    | some ch => exact .inr (.inr ⟨id, { ch with settled := max ch.settled upto }, .inr ⟨ch, hopened, rfl, rfl, rfl⟩⟩)

/-- Each entry is of this contract and stands under its own id, and the file has them all. -/
structure Sound (F : LedgerFormat) (contract : Text) (m : Mirror) : Prop where
  contract_eq : m.contract = contract
  ordered : Ordered m.opened
  own : ∀ e ∈ m.opened, e.2.channelId = e.1 ∧ e.2.contract = contract
  mirrored : m.file = some (F.write m.list) ∨ m.opened = [] ∧ (m.file.bind F.read).getD [] = []

theorem Sound.write (h : m.Sound F contract) : (m.write F).Sound F contract :=
  ⟨h.contract_eq, h.ordered, h.own, .inl rfl⟩

theorem Sound.insert_write (h : m.Sound F contract) (hid : ch.channelId = id) (hcontract : ch.contract = contract) :
    ((m.insert id ch).write F).Sound F contract where
  contract_eq := h.contract_eq
  ordered := h.ordered.put
  own := by
    intro e he
    rcases mem_put he with rfl | hold
    · exact ⟨hid, hcontract⟩
    · exact h.own e hold
  mirrored := .inl rfl

theorem mem_of_lookup {es : List (Text × Channel)} (h : lookup id es = some ch) : (id, ch) ∈ es := by
  induction es with
  | nil => cases h
  | cons e es ih =>
    rw [lookup_cons] at h
    split at h
    · next hkey =>
      cases h
      rw [← hkey]
      exact .head _
    · exact .tail _ (ih h)

theorem Sound.call (h : m.Sound F contract) (a : Call) : (m.call C F a).Sound F contract := by
  rcases call_cases m a with hsame | hwrite | ⟨id, ch, ⟨hid, hcontract, hcall⟩ | ⟨was, hwas, hid, hcontract, hcall⟩⟩
  · rw [hsame]
    exact h
  · rw [hwrite]
    exact h.write
  · rw [hcall]
    exact h.insert_write hid (hcontract.trans h.contract_eq)
  · obtain ⟨hkey, hown⟩ := h.own _ (mem_of_lookup hwas)
    rw [hcall]
    exact h.insert_write (hid.trans hkey) (hcontract.trans hown)

theorem Sound.run (h : m.Sound F contract) (calls : List Call) : (m.run C F calls).Sound F contract := by
  induction calls generalizing m with
  | nil => exact h
  | cons a calls ih => exact ih (h.call a)

end Calls

section Load

theorem load_opened (file : Option Text) (contract : Text) (clock : ℕ) :
    (load F file contract clock).opened =
      putAll ((((file.bind F.read).getD []).filter (keeps contract clock)).map fun ch => (ch.channelId, ch)) [] := by
  unfold load
  dsimp only
  split <;> rfl

theorem put_ne_nil {es : List (Text × Channel)} : put id ch es ≠ [] := by
  cases es with
  | nil => exact List.cons_ne_nil _ _
  | cons e es =>
    unfold put
    split
    · exact List.cons_ne_nil _ _
    · split <;> exact List.cons_ne_nil _ _

theorem putAll_eq_nil {es acc : List (Text × Channel)} (h : putAll es acc = []) : es = [] ∧ acc = [] := by
  induction es generalizing acc with
  | nil => exact ⟨rfl, h⟩
  | cons e es ih => exact absurd (@ih (put e.1 e.2 acc) h).2 put_ne_nil

/-- A ledger that starts empty has nothing in its file, or a list of nothing. -/
theorem load_sound (hempty : (load F file contract clock).opened = []) :
    (load F file contract clock).Sound F contract := by
  have hnone := hempty
  rw [load_opened] at hnone
  have hkept := List.map_eq_nil_iff.mp (putAll_eq_nil hnone).1
  refine ⟨by unfold load; dsimp only; split <;> rfl, by rw [hempty]; exact List.Pairwise.nil,
    by rw [hempty]; rintro _ ⟨⟩, ?_⟩
  unfold load at hempty ⊢
  dsimp only at hempty ⊢
  rw [hkept] at hempty ⊢
  split
  · exact .inl rfl
  · next hall =>
    refine .inr ⟨rfl, ?_⟩
    rw [List.length_nil, Nat.pos_iff_ne_zero, not_not] at hall
    exact List.eq_nil_of_length_eq_zero hall

theorem filter_keeps (hcontract : contract ≠ []) (h : m.Sound F contract) :
    m.list.filter (keeps other clock) = if eqIgnoreAsciiCase contract other then m.list else [] := by
  have hown : ∀ ch ∈ m.list, keeps other clock ch = eqIgnoreAsciiCase contract other := by
    intro ch hch
    obtain ⟨e, he, rfl⟩ := List.mem_map.mp hch
    rw [keeps, (h.own e he).2, if_neg hcontract]
  split
  · next hsame => exact List.filter_eq_self.mpr fun ch hch => (hown ch hch).trans hsame
  · next hother => exact List.filter_eq_nil_iff.mpr fun ch hch => by rw [hown ch hch]; exact hother

theorem rekeyed (h : m.Sound F contract) : (m.list.map fun ch => (ch.channelId, ch)) = m.opened := by
  rw [list, List.map_map]
  conv_rhs => rw [← List.map_id m.opened]
  refine List.map_congr_left fun e he => ?_
  exact Prod.ext (h.own e he).1 rfl

theorem Sound.load (h : m.Sound F contract) (hcontract : contract ≠ [])
    (hread : F.read (F.write m.list) = some m.list) :
    (load F m.file other clock).opened = if eqIgnoreAsciiCase contract other then m.opened else [] := by
  rw [load_opened]
  rcases h.mirrored with hfile | ⟨hnone, hfile⟩
  · rw [hfile, Option.bind_some, hread, Option.getD_some, filter_keeps hcontract h]
    split
    · rw [rekeyed h, h.ordered.putAll_self]
    · rfl
  · rw [hfile, hnone, ite_self]
    rfl

/-- Whatever is called, the file is read back as what is in memory by a node of this contract, and as nothing
by a node of another. -/
theorem load_run (C : Crypto) (F : LedgerFormat) (file : Option Text) (contract : Text) (clock : ℕ)
    (calls : List Call) (hcontract : contract ≠ []) (hempty : (load F file contract clock).opened = [])
    (hread : F.read (F.write ((load F file contract clock).run C F calls).list) =
      some ((load F file contract clock).run C F calls).list) :
    let m := (load F file contract clock).run C F calls
    (∀ other now, eqIgnoreAsciiCase contract other → (load F m.file other now).opened = m.opened) ∧
    (∀ other now, ¬ eqIgnoreAsciiCase contract other → (load F m.file other now).opened = []) := by
  intro m
  have hsound : m.Sound F contract := (load_sound hempty).run calls
  refine ⟨fun other now hsame => ?_, fun other now hother => ?_⟩
  · rw [hsound.load hcontract hread, if_pos hsame]
  · rw [hsound.load hcontract hread, if_neg hother]

end Load

section Local

open Json

def ticketJson (t : SpendTicket) : Json :=
  .obj [("client", .str t.client), ("worker_payout", .str t.workerPayout), ("cumulative", count t.cumulative),
    ("deadline", count t.deadline)]

def authJson (a : SpendingAuth) : Json :=
  .obj ([("channel_id", .str a.channelId), ("client", .str a.client), ("cumulative", count a.cumulative),
    ("metadata_hash", .str a.metadataHash)] ++ (a.sig.map fun sig => ("sig", .str sig)).toList)

def channelJson (ch : Channel) : Json :=
  .obj ([("channel_id", .str ch.channelId), ("client", .str ch.client), ("authorised", count ch.authorised),
    ("reserved", count ch.reserved), ("latest", authJson ch.latest)] ++
    (ch.spend.map fun t => ("spend", ticketJson t)).toList ++
    (ch.spendSig.map fun sig => ("spend_sig", .str sig)).toList ++
    [("settled", count ch.settled), ("updated_at", .num (.int ch.updatedAt))] ++
    if ch.contract = [] then [] else [("contract", .str ch.contract)])

/-- Writes lists without anything to escape, and reads one of them. -/
def localFormat (known : List Channel) : LedgerFormat where
  write l := pretty ⟨fun _ => [], fun c => [c]⟩ 0 (.arr (l.map channelJson))
  read t := if t = pretty ⟨fun _ => [], fun c => [c]⟩ 0 (.arr (known.map channelJson)) then some known else none

theorem read_local (known : List Channel) :
    (localFormat known).read ((localFormat known).write known) = some known := if_pos rfl

/-- The call that banks a quarter of a dollar. -/
def localCall : Call :=
  let p := Ledger.presented 250_000 250_000
  .acceptSpend p.ticket p.sig p.domain p.appKey p.expectedDelta p.now

def localEntry : Channel :=
  let p := Ledger.presented 250_000 250_000
  (Ledger.start (addressText LocalChain.pot)).channels.banked LocalChain.crypto p.ticket p.sig p.now

theorem load_none : load F none contract clock = ⟨contract, [], none⟩ := rfl

theorem call_of_ok (h : m.acceptSpend C F ticket sig d appKey expectedDelta now = .ok (earned, m')) :
    m.call C F (.acceptSpend ticket sig d appKey expectedDelta now) = m' := by
  have hcall : m.call C F (.acceptSpend ticket sig d appKey expectedDelta now) =
      ((m.acceptSpend C F ticket sig d appKey expectedDelta now).toOption.map Prod.snd).getD m := rfl
  rw [hcall, h]
  rfl

/-- An empty ledger once a ticket was banked on it. -/
theorem call_first {p : Ledger.Presented} {chs : Channels}
    (h : p.accept C (Ledger.start contract).channels = .ok (earned, chs)) :
    (load F none contract clock).run C F
        [.acceptSpend p.ticket p.sig p.domain p.appKey p.expectedDelta p.now] =
      ((load F none contract clock).insert (p.entry C (Ledger.start contract).channels)
        ((Ledger.start contract).channels.banked C p.ticket p.sig p.now)).write F := by
  refine call_of_ok (acceptSpend_eq_ok.mpr ⟨(?_ : _ = Except.ok (earned, _)), rfl⟩)
  have hstart : (load F none contract clock).channels = (Ledger.start contract).channels := rfl
  rw [channels_write, channels_insert, hstart, ← (Ledger.accept_eq_ok.mp h).2.2]
  exact h

theorem load_run_local :
    (load (localFormat [localEntry]) (some ((localFormat [localEntry]).write [localEntry]))
      ((addressText LocalChain.pot).map Char.toUpper) 2_000_000).opened =
        [(localEntry.channelId, localEntry)] := by
  have hfirst := @Ledger.presented_first 250_000 250_000 (addressText LocalChain.pot) (by decide) le_rfl
  have hrun := @call_first _ (localFormat [localEntry]) _ _ 1_000_000 _ _ hfirst
  have hlist : ((load (localFormat [localEntry]) none (addressText LocalChain.pot) 1_000_000).run
      LocalChain.crypto (localFormat [localEntry]) [localCall]).list = [localEntry] := by
    rw [localCall, hrun, load_none]
    rfl
  have hlaw := load_run LocalChain.crypto (localFormat [localEntry]) none (addressText LocalChain.pot)
    1_000_000 [localCall] (by decide) (by rw [load_none]) (by rw [hlist, read_local])
  rw [localCall, hrun, load_none] at hlaw
  exact hlaw.1 _ _ (by decide)

end Local

end Mirror

end Rootmode.Worker
