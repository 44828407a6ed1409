import Rootmode.Desktop.Spends
import Rootmode.Lib.Transition
import Rootmode.Worker.ChainView

namespace Rootmode.Desktop

open Lib Lib.Text Lib.Transition Payments Worker

/-- A `Settled` event of the pot. -/
structure SettledEvent where
  client : Address
  payout : Address
  cumulative : ℕ
  block : ℕ
  txHash : Text
  deriving DecidableEq

/-- A word that does not fit reads as nothing. -/
def readU64 (n : ℕ) : Micros := if n < 2 ^ 64 then n else 0

def SettledEvent.settlement (e : SettledEvent) : Settlement where
  txHash := e.txHash
  payout := addressText e.payout
  cumulative := readU64 e.cumulative
  block := e.block

abbrev SettledEvent.row (e : SettledEvent) : SettlementRow := e.settlement.row

theorem SettledEvent.row_payout (e : SettledEvent) : e.row.payout = addressText e.payout :=
  Worker.Chain.lower_addressText e.payout

/-- How a scan goes: the newest block there is, how many slices the node answers, how many events of the
next one are written down when it breaks off, and whether replies can be resolved after it. -/
structure Scan where
  head : ℕ
  slices : ℕ
  records : ℕ
  resolves : Bool

/-- One request asks for this many blocks. -/
def span : ℕ := 9_000

/-- What the node answers for a slice of blocks: the pot's events of one client. -/
def logs (events : List SettledEvent) (client : Address) (first last : ℕ) : List SettledEvent :=
  events.filter fun e => e.client = client ∧ first ≤ e.block ∧ e.block ≤ last

theorem mem_logs {events : List SettledEvent} {client : Address} {first last : ℕ} {e : SettledEvent} :
    e ∈ logs events client first last ↔
      e ∈ events ∧ e.client = client ∧ first ≤ e.block ∧ e.block ≤ last := by
  simp [logs]

namespace Store

def record (db : Store) (events : List SettledEvent) : Store :=
  events.foldl (fun db e => db.recordSettlement e.settlement) db

/-- The events of a slice are written down, and then that it was read. -/
def readSlice (db : Store) (found : List SettledEvent) (last : ℕ) : Store :=
  { db.record found with settleScanBlock := some (last + 1) }

variable (events : List SettledEvent) (client : Address) (head : ℕ)

/-- Where a slice that starts at a block ends. -/
def sliceEnd (first : ℕ) : ℕ := min (first + span - 1) head

/-- The slices from a block on: where the scan gets, what it read, and what is written down of it. -/
def walk : ℕ → ℕ → Store → ℕ × List SettledEvent × Store
  | 0, first, db => (first, [], db)
  | slices + 1, first, db =>
    if first ≤ head then
      let last := sliceEnd head first
      let found := logs events client first last
      let rest := walk slices (last + 1) (db.readSlice found last)
      (rest.1, found ++ rest.2.1, rest.2.2)
    else (first, [], db)

/-- Pull a wallet's events from the pot, from where the last scan stopped: what was read, and what it
leaves. -/
def sync (chainId floor : ℕ) (scan : Scan) (db : Store) : List SettledEvent × Store :=
  let first := db.settlementScanFrom chainId floor
  if scan.head = 0 ∨ scan.head < first then ([], db)
  else
    let walked := walk events client scan.head scan.slices first db
    if walked.1 ≤ scan.head then
      -- the node does not answer, or an event cannot be written down
      let part := (logs events client walked.1 (sliceEnd scan.head walked.1)).take scan.records
      (walked.2.1 ++ part, walked.2.2.record part)
    else
      (walked.2.1,
        if walked.2.1 ≠ [] ∧ scan.resolves then walked.2.2.resolveAbandoned else walked.2.2)

variable {events} {client} {head} {db db' : Store} {chainId floor first next : ℕ} {scan : Scan}
  {found : List SettledEvent}

theorem record_settlements : (db.record found).settlements =
    (found.map SettledEvent.row).foldl (fun rows row => Table.put SettlementRow.txHash row rows)
      db.settlements := by
  induction found generalizing db with
  | nil => rfl
  | cons e found ih => exact ih

@[simp] theorem record_spends : (db.record found).spends = db.spends := by
  induction found generalizing db with
  | nil => rfl
  | cons e found ih => exact ih

@[simp] theorem record_settleScanBlock :
    (db.record found).settleScanBlock = db.settleScanBlock := by
  induction found generalizing db with
  | nil => rfl
  | cons e found ih => exact ih

@[simp] theorem readSlice_settleScanBlock {last : ℕ} :
    (db.readSlice found last).settleScanBlock = some (last + 1) := rfl

@[simp] theorem readSlice_spends {last : ℕ} : (db.readSlice found last).spends = db.spends :=
  record_spends

@[simp] theorem readSlice_settlements {last : ℕ} :
    (db.readSlice found last).settlements = (db.record found).settlements := rfl

theorem record_append {more : List SettledEvent} :
    db.record (found ++ more) = (db.record found).record more := List.foldl_append

/-- What a scan from a block to another leaves: its events are written down, and the next one starts
where it got. -/
structure Walked (events : List SettledEvent) (client : Address) (head first next : ℕ)
    (found : List SettledEvent) (db db' : Store) : Prop where
  spends : db'.spends = db.spends
  settlements : db'.settlements = (db.record found).settlements
  from_first : first ≤ next
  to_head : next ≤ max first (head + 1)
  block : db'.settleScanBlock = if next = first then db.settleScanBlock else some next
  found : ∀ e, e ∈ found ↔ e ∈ events ∧ e.client = client ∧ first ≤ e.block ∧ e.block < next

theorem walk_walked (events : List SettledEvent) (client : Address) (head slices first : ℕ)
    (db : Store) : Walked events client head first (walk events client head slices first db).1
      (walk events client head slices first db).2.1 db
      (walk events client head slices first db).2.2 := by
  induction slices generalizing first db with
  | zero =>
    refine ⟨rfl, rfl, le_refl _, le_max_left _ _, by simp [walk], ?_⟩
    intro e
    simp only [walk, List.not_mem_nil, false_iff]
    omega
  | succ slices ih =>
    by_cases hmore : first ≤ head
    · have hslice : first ≤ sliceEnd head first ∧ sliceEnd head first ≤ head := by
        unfold sliceEnd span
        omega
      have hrest := ih (sliceEnd head first + 1)
        (db.readSlice (logs events client first (sliceEnd head first)) (sliceEnd head first))
      have hfrom := hrest.from_first
      have hto := hrest.to_head
      simp only [walk, if_pos hmore]
      refine ⟨by rw [hrest.spends, readSlice_spends], ?_, by omega, by omega, ?_, ?_⟩
      · rw [hrest.settlements, record_append, record_settlements, record_settlements,
          readSlice_settlements]
      · rw [hrest.block, if_neg (show _ ≠ first by omega)]
        split
        · next heq => rw [heq, readSlice_settleScanBlock]
        · rfl
      · intro e
        rw [List.mem_append, mem_logs, hrest.found]
        constructor
        · rintro (⟨he, hc, hlo, hhi⟩ | ⟨he, hc, hlo, hhi⟩)
          · exact ⟨he, hc, hlo, by omega⟩
          · exact ⟨he, hc, by omega, hhi⟩
        · rintro ⟨he, hc, hlo, hhi⟩
          by_cases hin : e.block ≤ sliceEnd head first
          · exact .inl ⟨he, hc, hlo, hin⟩
          · exact .inr ⟨he, hc, by omega, hhi⟩
    · simp only [walk, if_neg hmore]
      refine ⟨rfl, rfl, le_refl _, le_max_left _ _, by simp, ?_⟩
      intro e
      simp only [List.not_mem_nil, false_iff]
      omega

/-- What a scan leaves, whether it went through or not. -/
structure Synced (events : List SettledEvent) (client : Address) (chainId floor : ℕ) (scan : Scan)
    (db : Store) (found : List SettledEvent) (db' : Store) (next : ℕ) : Prop where
  settlements : db'.settlements = (db.record found).settlements
  spends : db'.spends = db.spends ∨ db'.spends = db.spends.map db'.resolved
  from_first : db.settlementScanFrom chainId floor ≤ next
  to_head : next ≤ max (db.settlementScanFrom chainId floor) (scan.head + 1)
  block : db'.settleScanBlock =
    if next = db.settlementScanFrom chainId floor then db.settleScanBlock else some next
  own : ∀ e ∈ found, e ∈ events ∧ e.client = client ∧
    db.settlementScanFrom chainId floor ≤ e.block ∧ e.block ≤ scan.head
  whole : ∀ e ∈ events, e.client = client → db.settlementScanFrom chainId floor ≤ e.block →
    e.block < next → e ∈ found

theorem Synced.block_cases (h : Synced events client chainId floor scan db found db' next) :
    db'.settleScanBlock = db.settleScanBlock ∨
      (db'.settleScanBlock = some next ∧ db.settlementScanFrom chainId floor < next ∧
        next ≤ scan.head + 1) := by
  have hblock := h.block
  have hfrom := h.from_first
  have hto := h.to_head
  split at hblock
  · exact .inl hblock
  · exact .inr ⟨hblock, by omega, by omega⟩

theorem resolved_resolveAbandoned : db.resolveAbandoned.resolved = db.resolved := rfl

theorem sync_synced (events : List SettledEvent) (client : Address) (chainId floor : ℕ)
    (scan : Scan) (db : Store) : ∃ next, Synced events client chainId floor scan db
    (sync events client chainId floor scan db).1 (sync events client chainId floor scan db).2 next := by
  have hw := walk_walked events client scan.head scan.slices (db.settlementScanFrom chainId floor) db
  unfold sync
  dsimp only
  generalize walk events client scan.head scan.slices (db.settlementScanFrom chainId floor) db =
    walked at hw ⊢
  have hwalked := hw.to_head
  split
  · refine ⟨db.settlementScanFrom chainId floor, rfl, .inl rfl, le_refl _, le_max_left _ _,
      by simp, by simp, ?_⟩
    intro e _ _ hlo hhi
    omega
  · split
    · refine ⟨walked.1, ?_, .inl (by rw [record_spends, hw.spends]), hw.from_first, hw.to_head,
        by rw [record_settleScanBlock, hw.block], ?_, ?_⟩
      · rw [record_append, record_settlements, hw.settlements, ← record_settlements]
      · intro e he
        have := hw.from_first
        rcases List.mem_append.mp he with hwhole | hpart
        · obtain ⟨hin, hc, hlo, hhi⟩ := (hw.found e).mp hwhole
          exact ⟨hin, hc, hlo, by omega⟩
        · obtain ⟨hin, hc, hlo, hhi⟩ := mem_logs.mp (List.mem_of_mem_take hpart)
          unfold sliceEnd at hhi
          exact ⟨hin, hc, by omega, by omega⟩
      · intro e he hc hlo hhi
        exact List.mem_append_left _ ((hw.found e).mpr ⟨he, hc, hlo, hhi⟩)
    · refine ⟨walked.1, ?_, ?_, hw.from_first, hw.to_head, ?_, ?_, ?_⟩
      · split <;> exact hw.settlements
      · split
        · exact .inr (by rw [resolved_resolveAbandoned, ← hw.spends]; rfl)
        · exact .inl hw.spends
      · split <;> exact hw.block
      · intro e he
        obtain ⟨hin, hc, hlo, hhi⟩ := (hw.found e).mp he
        exact ⟨hin, hc, hlo, by omega⟩
      · intro e he hc hlo hhi
        exact (hw.found e).mpr ⟨he, hc, hlo, hhi⟩

end Store

/-- The ledger of spends beside the chain it is read against: the wallet in use, the wallet that each
row's ticket was signed for, the events that were read, and where the first scan started. -/
structure Books where
  wallet : Option Address := none
  head : ℕ := 0
  events : List SettledEvent := []
  db : Store
  client : Uuid → Address := fun _ => 0
  read : List SettledEvent := []
  start : Option ℕ := none

inductive BooksAct
  | switch (wallet : Option Address)
  | spend (entry : SpendEntry) (client : Address)
  | mine (events : List SettledEvent) (head : ℕ)
  | deposit (chainId block : ℕ)
  | sync (scan : Scan)

namespace Books

/-- A bill is written down for the wallet its ticket was signed for. -/
def recordSpend (b : Books) (entry : SpendEntry) (client : Address) : Books :=
  { b with
    db := b.db.recordSpend entry
    client := Function.update b.client entry.jobId client }

/-- Read the events of a wallet. -/
def scanned (b : Books) (wallet : Address) (chainId floor : ℕ) (scan : Scan) : Books :=
  let synced := b.db.sync b.events wallet chainId floor scan
  { b with
    db := synced.2
    read := synced.1 ++ b.read
    start := if synced.2.settleScanBlock = none then none
      else b.start.or (some (b.db.settlementScanFrom chainId floor)) }

end Books

section Runs

variable (chainId floor : ℕ)

/-- What may happen to the ledger: another wallet is connected, a job of any wallet ends, blocks are
mined, and the pot is scanned. -/
inductive BooksStep : Labelled Books BooksAct
  | switch {b} (wallet : Option Address) : BooksStep b (.switch wallet) { b with wallet }
  /-- A reply that ended without a bill has no ticket. -/
  | spend {b} (entry : SpendEntry) (client : Address) :
      (entry.abandoned = true → entry.cumulativeMicros = none) →
      BooksStep b (.spend entry client) (b.recordSpend entry client)
  | mine {b} (events : List SettledEvent) (head : ℕ) : b.head ≤ head →
      (∀ e ∈ events, b.head < e.block ∧ e.block ≤ head) →
      BooksStep b (.mine events head) { b with events := events ++ b.events, head }
  | deposit {b} (chain block : ℕ) : BooksStep b (.deposit chain block)
      { b with db := { b.db with deposits := (chain, block) :: b.db.deposits } }
  | sync {b wallet} (scan : Scan) : b.wallet = some wallet → scan.head ≤ b.head →
      BooksStep b (.sync scan) (b.scanned wallet chainId floor scan)

namespace Books

variable (b : Books)

/-- An event of the row's own channel. -/
def OwnEvent (row : SpendRow) (t : SettlementRow) : Prop :=
  ∃ e ∈ b.events, e.client = b.client row.jobId ∧ row.payout = some (addressText e.payout) ∧ e.row = t

/-- Every row is shown and priced by events of its own channel, and no event of the wallet in use is
passed over. -/
structure Attributed : Prop where
  shown : ∀ limit row t, (row, some t) ∈ b.db.spendHistory limit → b.OwnEvent row t
  priced : ∀ row ∈ b.db.spends, row.abandoned = true → row.cumulativeMicros ≠ none →
    ∃ t, Store.Kept row t ∧ b.OwnEvent row t
  unmissed : ∀ e ∈ b.events, some e.client = b.wallet →
    ∀ first ∈ b.start, first ≤ e.block → ∀ next ∈ b.db.settleScanBlock, e.block < next → e ∈ b.read

end Books

/-- A settlement on a row's payout that reaches its ticket, or is of just its bond where it has no
ticket. -/
def SpendRow.ReachedBy (row : SpendRow) (t : SettlementRow) : Prop :=
  some t.payout = row.payout ∧ (∀ cumulative ∈ row.cumulativeMicros, cumulative ≤ t.cumulative) ∧
    (row.cumulativeMicros = none → row.abandoned = true ∧ some t.cumulative = row.bondCumulative)

instance (row : SpendRow) (t : SettlementRow) : Decidable (row.ReachedBy t) :=
  inferInstanceAs (Decidable (_ ∧ _ ∧ _))

namespace Books

variable (b : Books)

/-- A settlement of the row's own that is on record collects it before another one does. -/
def CollectedBefore (row : SpendRow) (t : SettlementRow) : Prop :=
  ∃ own ∈ b.db.settlements, b.OwnEvent row own ∧ row.ReachedBy own ∧ own.Before t

/-- What a settlement means for a row: it is the row's own, or comes too late for it or not at all. -/
def Harmless (row : SpendRow) (t : SettlementRow) : Prop :=
  row.ReachedBy t → b.OwnEvent row t ∨ b.CollectedBefore row t

/-- The events that a scan may read. -/
def Due (wallet : Address) (scan : Scan) (e : SettledEvent) : Prop :=
  e ∈ b.events ∧ e.client = wallet ∧ b.db.settlementScanFrom chainId floor ≤ e.block ∧
    e.block ≤ scan.head

end Books

/-- Wallets that share a payout keep out of each other's way: none is connected after blocks with its
settlements were scanned for another, and one's settlements reach no ticket of another's that its own
has not collected before.  A transaction settles one channel. -/
def Separate (b : Books) : BooksAct → Prop
  | .switch wallet => ∀ e ∈ b.events, some e.client = wallet →
      ∀ first ∈ b.start, first ≤ e.block → ∀ next ∈ b.db.settleScanBlock, e.block < next → e ∈ b.read
  | .spend entry client => ∀ t ∈ b.db.settlements, entry.row.ReachedBy t →
      (b.recordSpend entry client).OwnEvent entry.row t ∨
        (b.recordSpend entry client).CollectedBefore entry.row t
  | .sync scan => ∀ wallet ∈ b.wallet, ∀ e, b.Due chainId floor wallet scan e →
      (∀ row ∈ b.db.spends, b.Harmless row e.row) ∧
      ∀ t ∈ b.db.settlements, t.txHash = e.row.txHash → t = e.row
  | .mine _ _ | .deposit _ _ => True

variable {chainId floor} {b b' : Books} {row : SpendRow} {t : SettlementRow} {a : BooksAct}

namespace Books

theorem OwnEvent.mono (h : b.OwnEvent row t) (hevents : ∀ e ∈ b.events, e ∈ b'.events)
    (hclient : b'.client row.jobId = b.client row.jobId) : b'.OwnEvent row t := by
  obtain ⟨e, he, hown, hpayout, hrow⟩ := h
  exact ⟨e, hevents e he, hclient ▸ hown, hpayout, hrow⟩

theorem Harmless.mono (h : b.Harmless row t) (hevents : ∀ e ∈ b.events, e ∈ b'.events)
    (hclient : b'.client row.jobId = b.client row.jobId)
    (hkept : ∀ own ∈ b.db.settlements, b.OwnEvent row own → own ∈ b'.db.settlements) :
    b'.Harmless row t := by
  intro hreached
  rcases h hreached with hown | ⟨own, hmem, hown, hfirst⟩
  · exact .inl (hown.mono hevents hclient)
  · exact .inr ⟨own, hkept own hmem hown, hown.mono hevents hclient, hfirst⟩

/-- The invariant: nothing on record is in the way of a row, and what a scan has passed was read. -/
structure Sound (floor : ℕ) (b : Books) : Prop where
  harmless : ∀ row ∈ b.db.spends, ∀ t ∈ b.db.settlements, b.Harmless row t
  bonded : ∀ row ∈ b.db.spends, row.abandoned = true →
    row.cumulativeMicros = none ∨ row.cumulativeMicros = row.bondCumulative
  priced : ∀ row ∈ b.db.spends, row.abandoned = true → row.cumulativeMicros ≠ none →
    ∃ t, Store.Kept row t ∧ b.OwnEvent row t
  unmissed : ∀ e ∈ b.events, some e.client = b.wallet →
    ∀ first ∈ b.start, first ≤ e.block → ∀ next ∈ b.db.settleScanBlock, e.block < next → e ∈ b.read
  next_le : ∀ next ∈ b.db.settleScanBlock, next ≤ b.head + 1
  floor_le : ∀ next ∈ b.db.settleScanBlock, floor ≤ next
  started : b.db.settleScanBlock = none ↔ b.start = none

theorem collected_own (h : ∀ t ∈ b.db.settlements, b.Harmless row t)
    (hshown : b.db.collected row = some t) : b.OwnEvent row t := by
  obtain ⟨hmem, hpayout, cumulative, hcumulative, hreaches, hleast⟩ := Store.collected_eq_some hshown
  have hreached : row.ReachedBy t :=
    ⟨hpayout, by rintro c hc; cases hcumulative.symm.trans hc; exact hreaches,
      by rw [hcumulative]; rintro ⟨⟩⟩
  rcases h t hmem hreached with hown | ⟨own, howned, -, hown, hfirst⟩
  · exact hown
  · exact absurd hfirst (hleast own howned hown.1 (hown.2.1 _ hcumulative))

theorem Sound.attributed (hs : b.Sound floor) : b.Attributed where
  shown limit row t hshown := by
    obtain ⟨hrow, hcollected⟩ := Store.mem_spendHistory hshown
    exact collected_own (hs.harmless row hrow) hcollected.symm
  priced := hs.priced
  unmissed := hs.unmissed

theorem Sound.switch {wallet : Option Address} (hs : b.Sound floor)
    (hsep : Separate chainId floor b (.switch wallet)) : Sound floor { b with wallet } :=
  { hs with unmissed := hsep }

theorem Sound.spend {entry : SpendEntry} {client : Address}
    (hentry : entry.abandoned = true → entry.cumulativeMicros = none) (hs : b.Sound floor)
    (hsep : Separate chainId floor b (.spend entry client)) :
    (b.recordSpend entry client).Sound floor := by
  have hother {row : SpendRow} (hne : row.jobId ≠ entry.jobId) :
      (b.recordSpend entry client).client row.jobId = b.client row.jobId :=
    Function.update_of_ne hne ..
  refine { hs with harmless := ?_, bonded := ?_, priced := ?_ }
  · intro row hrow t ht
    rcases Table.mem_put.mp hrow with ⟨hold, hne⟩ | rfl
    · exact (hs.harmless row hold t ht).mono (fun _ he => he) (hother hne) (fun _ h _ => h)
    · exact hsep t ht
  · intro row hrow haside
    rcases Table.mem_put.mp hrow with ⟨hold, -⟩ | rfl
    · exact hs.bonded row hold haside
    · exact .inl (congrArg (Option.map asI64) (hentry haside))
  · intro row hrow haside hticket
    rcases Table.mem_put.mp hrow with ⟨hold, hne⟩ | rfl
    · obtain ⟨t, hkept, hown⟩ := hs.priced row hold haside hticket
      exact ⟨t, hkept, hown.mono (fun _ he => he) (hother hne)⟩
    · exact absurd (congrArg (Option.map asI64) (hentry haside)) hticket

theorem Sound.mine {events : List SettledEvent} {head : ℕ} (hhead : b.head ≤ head)
    (hnew : ∀ e ∈ events, b.head < e.block ∧ e.block ≤ head) (hs : b.Sound floor) :
    Sound floor { b with events := events ++ b.events, head } := by
  have hevents : ∀ e ∈ b.events, e ∈ events ++ b.events := fun e => List.mem_append_right events
  refine { hs with harmless := ?_, priced := ?_, unmissed := ?_, next_le := ?_ }
  · intro row hrow t ht
    exact (hs.harmless row hrow t ht).mono hevents rfl fun _ h _ => h
  · intro row hrow haside hticket
    obtain ⟨t, hkept, hown⟩ := hs.priced row hrow haside hticket
    exact ⟨t, hkept, hown.mono hevents rfl⟩
  · intro e he hwallet first hfirst hlo next hnext hhi
    rcases List.mem_append.mp he with hmined | hold
    · have := hs.next_le next hnext
      have := (hnew e hmined).1
      omega
    · exact hs.unmissed e hold hwallet first hfirst hlo next hnext hhi
  · intro next hnext
    exact (hs.next_le next hnext).trans (Nat.add_le_add_right hhead 1)

/-- What a scan writes down is in the way of no row. -/
theorem Harmless.recorded {wallet : Address} {scan : Scan} {found : List SettledEvent} {next : ℕ}
    {db : Store} (hsep : ∀ e, b.Due chainId floor wallet scan e →
      (∀ row ∈ b.db.spends, b.Harmless row e.row) ∧
      ∀ t ∈ b.db.settlements, t.txHash = e.row.txHash → t = e.row)
    (hsync : Store.Synced b.events wallet chainId floor scan b.db found db next) (hs : b.Sound floor)
    (hrow : row ∈ b.db.spends) (ht : t ∈ db.settlements) (hdb : b'.db.settlements = db.settlements)
    (hevents : b'.events = b.events) (hclient : b'.client = b.client) : b'.Harmless row t := by
  have hkept : ∀ own ∈ b.db.settlements, own ∈ db.settlements := by
    intro own hown
    rw [hsync.settlements, Store.record_settlements]
    apply Table.mem_foldl_put_of_same hown
    intro new hnew hkey
    obtain ⟨e, he, rfl⟩ := List.mem_map.mp hnew
    exact ((hsep e (hsync.own e he)).2 own hown hkey.symm).symm
  have hharmless : b.Harmless row t := by
    rw [hsync.settlements, Store.record_settlements] at ht
    rcases Table.mem_of_mem_foldl_put ht with hold | hnew
    · exact hs.harmless row hrow t hold
    · obtain ⟨e, he, rfl⟩ := List.mem_map.mp hnew
      exact (hsep e (hsync.own e he)).1 row hrow
  exact hharmless.mono (fun _ he => hevents ▸ he) (congrFun hclient _)
    fun own hown _ => hdb ▸ hkept own hown

theorem ReachedBy_of_kept (haside : row.abandoned = true) (hnone : row.cumulativeMicros = none)
    (hkept : Store.Kept row t) : row.ReachedBy t :=
  ⟨hkept.1, by rw [hnone]; rintro _ ⟨⟩, fun _ => ⟨haside, hkept.2⟩⟩

/-- Where a bond was settled, its own channel settled it. -/
theorem exists_own_kept (hall : ∀ t ∈ b.db.settlements, b.Harmless row t)
    (haside : row.abandoned = true) (hnone : row.cumulativeMicros = none)
    (ht : t ∈ b.db.settlements) (hkept : Store.Kept row t) :
    ∃ own ∈ b.db.settlements, b.OwnEvent row own ∧ Store.Kept row own := by
  rcases hall t ht (ReachedBy_of_kept haside hnone hkept) with hown | ⟨own, hmem, hown, hreached, -⟩
  · exact ⟨t, ht, hown, hkept⟩
  · exact ⟨own, hmem, hown, hreached.1, (hreached.2.2 hnone).2⟩

/-- A reply whose bond was settled goes on to be collected by its own channel. -/
theorem Harmless.resolved (hall : ∀ t ∈ b.db.settlements, b.Harmless row t)
    (hbonded : row.abandoned = true →
      row.cumulativeMicros = none ∨ row.cumulativeMicros = row.bondCumulative)
    (ht : t ∈ b.db.settlements) : b.Harmless (b.db.resolved row) t := by
  rcases Store.resolved_cases b.db row with
    hsame | ⟨haside, ⟨kept, hmem, hkept⟩, chunk, -, hrow⟩
  · rw [hsame]
    exact hall t ht
  rw [hrow]
  rcases hbonded haside with hnone | hbond
  · obtain ⟨own, howned, hown, hownKept⟩ := exists_own_kept hall haside hnone hmem hkept
    have hreached (t : SettlementRow) (hk : Store.Kept row t) :
        SpendRow.ReachedBy { row with costMicros := chunk, cumulativeMicros := row.bondCumulative } t :=
      ⟨hk.1, fun c hc => (Option.some.inj (hk.2.trans hc)).ge,
        fun hbond => by cases hk.2.trans hbond⟩
    rintro ⟨hpayout, hleast, -⟩
    have hle : own.cumulative ≤ t.cumulative := hleast _ hownKept.2.symm
    rcases hle.eq_or_lt with heq | hlt
    · have htKept : Store.Kept row t := ⟨hpayout, heq ▸ hownKept.2⟩
      rcases hall t ht (ReachedBy_of_kept haside hnone htKept) with
        hself | ⟨first, hfirst, hfirstOwn, hfirstReached, hbefore⟩
      · exact .inl hself
      · exact .inr ⟨first, hfirst, hfirstOwn,
          hreached first ⟨hfirstReached.1, (hfirstReached.2.2 hnone).2⟩, hbefore⟩
    · exact .inr ⟨own, howned, hown, hreached own hownKept, .inl hlt⟩
  · have hsame : { row with costMicros := chunk, cumulativeMicros := row.bondCumulative } =
        { row with costMicros := chunk } := by rw [← hbond]
    rw [hsame]
    exact hall t ht

theorem priced_resolved (hall : ∀ t ∈ b.db.settlements, b.Harmless row t)
    (hpriced : row.abandoned = true → row.cumulativeMicros ≠ none →
      ∃ t, Store.Kept row t ∧ b.OwnEvent row t)
    (haside : (b.db.resolved row).abandoned = true)
    (hticket : (b.db.resolved row).cumulativeMicros ≠ none) :
    ∃ t, Store.Kept (b.db.resolved row) t ∧ b.OwnEvent (b.db.resolved row) t := by
  rcases Store.resolved_cases b.db row with
    hsame | ⟨haside, ⟨kept, hmem, hkept⟩, chunk, -, hrow⟩
  · rw [hsame] at haside hticket ⊢
    exact hpriced haside hticket
  rw [hrow]
  by_cases hnone : row.cumulativeMicros = none
  · obtain ⟨own, -, hown, hownKept⟩ := exists_own_kept hall haside hnone hmem hkept
    exact ⟨own, hownKept, hown⟩
  · exact hpriced haside hnone

theorem settlementScanFrom_eq {db : Store} {next : ℕ} (chainId : ℕ) (h : db.settleScanBlock = some next)
    (hfloor : floor ≤ next) : db.settlementScanFrom chainId floor = next := by
  unfold Store.settlementScanFrom
  rw [h]
  exact max_eq_left hfloor

theorem floor_le_settlementScanFrom (db : Store) : floor ≤ db.settlementScanFrom chainId floor := by
  unfold Store.settlementScanFrom
  split <;> exact le_max_right _ _

theorem scanned_start {wallet : Address} {scan : Scan}
    (h : (b.scanned wallet chainId floor scan).db.settleScanBlock ≠ none) :
    (b.scanned wallet chainId floor scan).start =
      b.start.or (some (b.db.settlementScanFrom chainId floor)) := if_neg h

/-- No event of the wallet that a scan is for is passed over. -/
theorem Sound.unmissed_scanned {wallet : Address} {scan : Scan} {next : ℕ}
    (hwallet : b.wallet = some wallet) (hs : b.Sound floor)
    (hsync : Store.Synced b.events wallet chainId floor scan b.db
      (b.db.sync b.events wallet chainId floor scan).1
      (b.db.sync b.events wallet chainId floor scan).2 next) :
    ∀ e ∈ b.events, e.client = wallet → ∀ first ∈ (b.scanned wallet chainId floor scan).start,
      first ≤ e.block → ∀ till ∈ (b.scanned wallet chainId floor scan).db.settleScanBlock,
        e.block < till → e ∈ (b.scanned wallet chainId floor scan).read := by
  intro e he hown first hfirst hlo till htill hhi
  have hold (h : e ∈ b.read) : e ∈ (b.scanned wallet chainId floor scan).read :=
    List.mem_append_right _ h
  have hnew (h : b.db.settlementScanFrom chainId floor ≤ e.block) (hnext : e.block < next) :
      e ∈ (b.scanned wallet chainId floor scan).read :=
    List.mem_append_left _ (hsync.whole e he hown h hnext)
  have hblock : (b.scanned wallet chainId floor scan).db.settleScanBlock = _ := hsync.block
  have hstart : first ∈ b.start.or (some (b.db.settlementScanFrom chainId floor)) := by
    have hsome : (b.scanned wallet chainId floor scan).db.settleScanBlock ≠ none := by
      intro hnone
      cases hnone.symm.trans htill
    exact scanned_start hsome ▸ hfirst
  rw [htill] at hblock
  cases hcursor : b.db.settleScanBlock with
  | none =>
    rw [hs.started.mp hcursor] at hstart
    cases hstart
    split at hblock
    · exact absurd hblock.symm (by rw [hcursor]; rintro ⟨⟩)
    · cases hblock
      exact hnew hlo hhi
  | some last =>
    have hfrom := settlementScanFrom_eq chainId hcursor (hs.floor_le last hcursor)
    obtain ⟨first', hfirst'⟩ : ∃ first', b.start = some first' := by
      rw [← Option.ne_none_iff_exists']
      intro hnone
      cases hcursor.symm.trans (hs.started.mpr hnone)
    rw [hfirst'] at hstart
    cases hstart
    have hunmissed (h : e.block < last) : e ∈ b.read :=
      hs.unmissed e he (by rw [hwallet, hown]) first hfirst' hlo last hcursor h
    split at hblock
    · cases hblock.trans hcursor
      exact hold (hunmissed hhi)
    · cases hblock
      by_cases hread : e.block < last
      · exact hold (hunmissed hread)
      · exact hnew (by omega) hhi

theorem Sound.sync {wallet : Address} {scan : Scan} (hwallet : b.wallet = some wallet)
    (hhead : scan.head ≤ b.head) (hs : b.Sound floor)
    (hsep : Separate chainId floor b (.sync scan)) :
    (b.scanned wallet chainId floor scan).Sound floor := by
  obtain ⟨next, hsync⟩ := Store.sync_synced b.events wallet chainId floor scan b.db
  generalize hb' : b.scanned wallet chainId floor scan = b'
  have hdb : b'.db = (b.db.sync b.events wallet chainId floor scan).2 := by rw [← hb']; rfl
  have hevents : b'.events = b.events := by rw [← hb']; rfl
  have hclient : b'.client = b.client := by rw [← hb']; rfl
  have hhead' : b'.head = b.head := by rw [← hb']; rfl
  have hharmless : ∀ row ∈ b.db.spends, ∀ t ∈ b'.db.settlements, b'.Harmless row t :=
    fun row hrow t ht => Harmless.recorded (hsep wallet hwallet) hsync hs hrow (hdb ▸ ht)
      (by rw [hdb]) hevents hclient
  have hspends : b'.db.spends = b.db.spends ∨ b'.db.spends = b.db.spends.map b'.db.resolved := by
    rw [hdb]
    exact hsync.spends
  have hkeep {row : SpendRow} {t : SettlementRow} (h : b.OwnEvent row t) : b'.OwnEvent row t :=
    h.mono (fun _ he => hevents ▸ he) (congrFun hclient _)
  refine ⟨?_, ?_, ?_, ?_, ?_, ?_, ?_⟩
  · intro row hrow t ht
    rcases hspends with hsame | hresolved
    · exact hharmless row (hsame ▸ hrow) t ht
    · rw [hresolved] at hrow
      obtain ⟨old, hold, rfl⟩ := List.mem_map.mp hrow
      exact Harmless.resolved (hharmless old hold) (hs.bonded old hold) ht
  · intro row hrow haside
    rcases hspends with hsame | hresolved
    · exact hs.bonded row (hsame ▸ hrow) haside
    · rw [hresolved] at hrow
      obtain ⟨old, hold, rfl⟩ := List.mem_map.mp hrow
      rcases Store.resolved_cases b'.db old with hsame | ⟨-, -, chunk, -, hcharged⟩
      · rw [hsame] at haside ⊢
        exact hs.bonded old hold haside
      · rw [hcharged]
        exact .inr rfl
  · intro row hrow haside hticket
    have hpriced {row : SpendRow} (hrow : row ∈ b.db.spends) (haside : row.abandoned = true)
        (hticket : row.cumulativeMicros ≠ none) : ∃ t, Store.Kept row t ∧ b'.OwnEvent row t := by
      obtain ⟨t, hkept, hown⟩ := hs.priced row hrow haside hticket
      exact ⟨t, hkept, hkeep hown⟩
    rcases hspends with hsame | hresolved
    · exact hpriced (hsame ▸ hrow) haside hticket
    · rw [hresolved] at hrow
      obtain ⟨old, hold, rfl⟩ := List.mem_map.mp hrow
      exact priced_resolved (hharmless old hold) (hpriced hold) haside hticket
  · intro e he hown
    rw [← hb'] at he hown ⊢
    exact hs.unmissed_scanned hwallet hsync e he (Option.some.inj (hown.trans hwallet))
  · intro till htill
    rw [hdb] at htill
    rcases hsync.block_cases with hsame | ⟨hnext, -, hle⟩
    · exact hhead' ▸ hs.next_le till (hsame ▸ htill)
    · cases hnext.symm.trans htill
      omega
  · intro till htill
    rw [hdb] at htill
    rcases hsync.block_cases with hsame | ⟨hnext, hlt, -⟩
    · exact hs.floor_le till (hsame ▸ htill)
    · cases hnext.symm.trans htill
      exact (floor_le_settlementScanFrom b.db).trans hlt.le
  · rw [← hb']
    constructor
    · exact fun hnone => if_pos hnone
    · intro hnone
      by_contra hsome
      rw [scanned_start hsome] at hnone
      cases hstart : b.start <;> rw [hstart] at hnone <;> cases hnone

theorem Sound.step (h : restrict (BooksStep chainId floor) (Separate chainId floor) b a b')
    (hs : b.Sound floor) : b'.Sound floor := by
  obtain ⟨hsep, hstep⟩ := h
  cases hstep with
  | switch wallet => exact hs.switch hsep
  | spend entry client hentry => exact hs.spend hentry hsep
  | mine events head hhead hnew => exact hs.mine hhead hnew
  | deposit chain block => exact { hs with }
  | sync scan hwallet hhead => exact hs.sync hwallet hhead hsep

/-- A ledger that nothing was written to yet. -/
def fresh (wallet : Option Address) (head : ℕ) (events : List SettledEvent)
    (deposits : List (ℕ × ℕ)) : Books := { wallet, head, events, db := { deposits } }

theorem Sound.fresh {wallet : Option Address} {head : ℕ} {events : List SettledEvent}
    {deposits : List (ℕ × ℕ)} : (fresh wallet head events deposits).Sound floor where
  harmless := by rintro _ ⟨⟩
  bonded := by rintro _ ⟨⟩
  priced := by rintro _ ⟨⟩
  unmissed := by rintro _ _ _ _ ⟨⟩
  next_le := by rintro _ ⟨⟩
  floor_le := by rintro _ ⟨⟩
  started := ⟨fun _ => rfl, fun _ => rfl⟩

end Books

/-- In every run whose wallets keep out of each other's way, rows are shown and priced by their own
channels and no event of the wallet in use is passed over. -/
theorem attributed_of_separate {wallet : Option Address} {head : ℕ} {events : List SettledEvent}
    {deposits : List (ℕ × ℕ)}
    (h : Runs (restrict (BooksStep chainId floor) (Separate chainId floor))
      (.fresh wallet head events deposits) b) : b.Attributed :=
  (h.invariant (P := Books.Sound floor) Books.Sound.step Books.Sound.fresh).attributed

end Runs

section Local

/-- A second wallet. -/
def secondClient : Address := 0xb0b

/-- A reply that was billed, for the first wallet. -/
def billed : SpendEntry where
  jobId := 7
  costMicros := 100
  recordedAt := 1
  cumulativeMicros := some 100
  payout := some (addressText LocalChain.worker)
  abandoned := false
  bondCumulative := none
  chunkMicros := none

/-- A reply that was stopped. -/
def stopped : SpendEntry where
  jobId := 8
  costMicros := 0
  recordedAt := 2
  cumulativeMicros := none
  payout := some (addressText LocalChain.worker)
  abandoned := true
  bondCumulative := some 150
  chunkMicros := some 50

def settledFor (client : Address) (cumulative : ℕ) : SettledEvent where
  client := client
  payout := LocalChain.worker
  cumulative := cumulative
  block := 5
  txHash := ofString "0x5e771e"

def wholeScan : Scan := ⟨10, 1, 0, true⟩

/-- The first wallet has a reply that was billed and one that was stopped, and some blocks follow. -/
def spent (events : List SettledEvent) : Books :=
  let b := (Books.fresh (some LocalChain.client) 0 [] []).recordSpend billed LocalChain.client
  { b.recordSpend stopped LocalChain.client with events, head := 10 }

theorem spent_runs {C : Books → BooksAct → Prop} {events : List SettledEvent}
    (hblocks : ∀ e ∈ events, 0 < e.block ∧ e.block ≤ 10)
    (hspend : ∀ b entry client, b.db.settlements = [] → C b (.spend entry client))
    (hmine : ∀ b, C b (.mine events 10)) :
    Runs (restrict (BooksStep 31337 0) C) (.fresh (some LocalChain.client) 0 [] []) (spent events) := by
  have hstart : Runs (restrict (BooksStep 31337 0) C) (.fresh (some LocalChain.client) 0 [] [])
      (.fresh (some LocalChain.client) 0 [] []) := .refl _
  have hbilled := hstart.tail ⟨hspend _ billed LocalChain.client rfl, .spend _ _ (by decide)⟩
  have hstopped := hbilled.tail
    ⟨hspend _ stopped LocalChain.client rfl, .spend _ _ (by decide)⟩
  have hmined := hstopped.tail ⟨hmine _, .mine events 10 (by decide) hblocks⟩
  rwa [show events ++ (_ : Books).events = events from List.append_nil events] at hmined

theorem forall_settledFor (client : Address) (cumulative : ℕ) :
    ∀ e ∈ [settledFor client cumulative], 0 < e.block ∧ e.block ≤ 10 := by
  intro e he
  rw [List.mem_singleton.mp he]
  exact ⟨Nat.succ_pos 4, show 5 ≤ 10 by decide⟩

theorem spends_spent (events : List SettledEvent) :
    (spent events).db.spends = [billed.row, stopped.row] := rfl

/-- A bill is shown with a settlement of its own wallet. -/
theorem attributed_of_separate_local :
    let b := (spent [settledFor LocalChain.client 150]).scanned LocalChain.client 31337 0 wholeScan
    b.Attributed ∧ b.db.collected billed.row = some (settledFor LocalChain.client 150).row := by
  intro b
  have hspent := spent_runs (C := Separate 31337 0)
    (forall_settledFor LocalChain.client 150)
    (fun b entry client hnone t ht => absurd (hnone ▸ ht) List.not_mem_nil) (fun b => trivial)
  have hsep : Separate 31337 0 (spent [settledFor LocalChain.client 150]) (.sync wholeScan) := by
    rintro wallet ⟨⟩ e ⟨he, -⟩
    rw [List.mem_singleton.mp he]
    refine ⟨?_, by rintro _ ⟨⟩⟩
    intro row hrow _
    rw [spends_spent] at hrow
    have hpayout : ∀ row ∈ [billed.row, stopped.row],
        row.payout = some (addressText LocalChain.worker) := by decide
    have hclient : ∀ row ∈ [billed.row, stopped.row],
        LocalChain.client = (spent []).client row.jobId := by decide
    exact .inl ⟨_, .head _, hclient row hrow, hpayout row hrow, rfl⟩
  exact ⟨attributed_of_separate (hspent.tail (a := .sync wholeScan) ⟨hsep, .sync _ rfl (by decide)⟩),
    by decide⟩

/-- A bill is shown with a settlement of another wallet and a stopped reply is priced by it; and one of
the wallet in use is passed over, since it was mined while another wallet was connected. -/
theorem not_attributed_local :
    (∃ b, Runs (BooksStep 31337 0) (.fresh (some LocalChain.client) 0 [] []) b ∧
      (∃ limit row t, (row, some t) ∈ b.db.spendHistory limit ∧ ¬ b.OwnEvent row t) ∧
      ∃ row ∈ b.db.spends, row.abandoned = true ∧ row.cumulativeMicros ≠ none ∧
        ∀ t, ¬ b.OwnEvent row t) ∧
    ∃ b, Runs (BooksStep 31337 0) (.fresh (some LocalChain.client) 0 [] []) b ∧
      ∃ e ∈ b.events, some e.client = b.wallet ∧ (∃ first ∈ b.start, first ≤ e.block) ∧
        (∃ next ∈ b.db.settleScanBlock, e.block < next) ∧ e ∉ b.read := by
  let e := settledFor secondClient 150
  have hspent := (spent_runs (C := fun _ _ => True)
    (forall_settledFor secondClient 150)
    (fun _ _ _ _ => trivial) (fun _ => trivial)).of_restrict
  have hforeign (b : Books) (hevents : b.events = [e]) {row : SpendRow} {t : SettlementRow}
      (hclient : b.client row.jobId ≠ secondClient) : ¬ b.OwnEvent row t := by
    rintro ⟨e', he', hown, -⟩
    rw [hevents] at he'
    rw [List.mem_singleton.mp he'] at hown
    exact hclient hown.symm
  refine ⟨?_, ?_⟩
  · have hscanned := (hspent.tail (.switch (some secondClient))).tail
      (.sync wholeScan rfl (by decide))
    generalize hb : Books.scanned _ secondClient 31337 0 wholeScan = b at hscanned
    have hcollected : b.db.collected billed.row = some e.row := by
      rw [← hb]
      decide
    have hspends : b.db.spends =
        [billed.row, { stopped.row with costMicros := 50, cumulativeMicros := some 150 }] := by
      rw [← hb]
      decide
    refine ⟨b, hscanned, ⟨2, billed.row, e.row, ?_, ?_⟩, ?_⟩
    · rw [← hcollected]
      exact Store.mem_spendHistory_of_listed (by rw [hspends]; exact .head _) rfl
        (by rw [hspends]; exact le_refl _)
    · exact hforeign b (by rw [← hb]; rfl) (by rw [← hb]; decide)
    · refine ⟨_, by rw [hspends]; exact .tail _ (.head _), rfl, by rintro ⟨⟩, fun t => ?_⟩
      exact hforeign b (by rw [← hb]; rfl) (by rw [← hb]; decide)
  · have hscanned := (hspent.tail (.sync wholeScan rfl (by decide))).tail
      (.switch (some secondClient))
    exact ⟨_, hscanned, e, .head _, rfl, ⟨0, by decide⟩, ⟨11, by decide⟩,
      by decide⟩

end Local

end Rootmode.Desktop
