import Mathlib.Data.List.MinMax
import Rootmode.Lib.Table
import Rootmode.Worker.Admission

namespace Rootmode.Desktop

open Lib Lib.Text Payments Worker

/-- A word as a signed word of the same bits. -/
def asI64 (n : ℕ) : ℤ := if n < 2 ^ 63 then n else n - 2 ^ 64

/-- One bill of a job, or the bond of one that ended without. -/
structure SpendEntry where
  jobId : Uuid
  costMicros : Micros
  recordedAt : ℤ
  /-- The ticket the charge rode on. -/
  cumulativeMicros : Option Micros
  payout : Option Text
  abandoned : Bool
  bondCumulative : Option Micros
  chunkMicros : Option Micros
  deriving DecidableEq

/-- A row of the spend ledger. -/
structure SpendRow where
  jobId : Uuid
  costMicros : ℤ
  recordedAt : ℤ
  cumulativeMicros : Option ℤ
  payout : Option Text
  abandoned : Bool
  bondCumulative : Option ℤ
  chunkMicros : Option ℤ
  deriving DecidableEq

/-- A `Settled` event: which transaction collected which ticket. -/
structure Settlement where
  txHash : Text
  payout : Text
  cumulative : Micros
  block : ℕ
  deriving DecidableEq

structure SettlementRow where
  txHash : Text
  payout : Text
  cumulative : ℤ
  block : ℤ
  deriving DecidableEq

/-- The order in which settlements collect: by their total, and then by their block. -/
def SettlementRow.Before (t u : SettlementRow) : Prop :=
  t.cumulative < u.cumulative ∨ (t.cumulative = u.cumulative ∧ t.block < u.block)

instance : DecidableRel SettlementRow.Before := fun t u =>
  inferInstanceAs (Decidable (t.cumulative < u.cumulative ∨ _ ∧ _))

instance : Std.Irrefl SettlementRow.Before where
  irrefl t := by unfold SettlementRow.Before; omega

instance : IsTrans SettlementRow SettlementRow.Before where
  trans t u v := by unfold SettlementRow.Before; omega

def SpendEntry.row (s : SpendEntry) : SpendRow where
  jobId := s.jobId
  costMicros := asI64 s.costMicros
  recordedAt := s.recordedAt
  cumulativeMicros := s.cumulativeMicros.map asI64
  payout := s.payout.map lower
  abandoned := s.abandoned
  bondCumulative := s.bondCumulative.map asI64
  chunkMicros := s.chunkMicros.map asI64

def Settlement.row (t : Settlement) : SettlementRow where
  txHash := lower t.txHash
  payout := lower t.payout
  cumulative := asI64 t.cumulative
  block := asI64 t.block

/-- What the desktop keeps of its spends: the ledger, the settlements it read off the chain, where the
next reading starts, and the chain and block of every deposit. -/
structure Store where
  spends : List SpendRow := []
  settlements : List SettlementRow := []
  settleScanBlock : Option ℕ := none
  deposits : List (ℕ × ℕ) := []
  deriving DecidableEq

namespace Store

variable (db : Store)

/-- A job is billed once: its row takes the place of the one it had. -/
def recordSpend (s : SpendEntry) : Store :=
  { db with spends := Table.put SpendRow.jobId s.row db.spends }

def recordSettlement (t : Settlement) : Store :=
  { db with settlements := Table.put SettlementRow.txHash t.row db.settlements }

/-- A settle of exactly the row's bond. -/
def Kept (s : SpendRow) (t : SettlementRow) : Prop :=
  some t.payout = s.payout ∧ some t.cumulative = s.bondCumulative

instance (s : SpendRow) (t : SettlementRow) : Decidable (Kept s t) :=
  inferInstanceAs (Decidable (_ ∧ _))

/-- An abandoned reply whose bond was settled cost its chunk. -/
def resolved (s : SpendRow) : SpendRow :=
  match s.chunkMicros with
  | none => s
  | some chunk =>
    if s.abandoned = true ∧ s.costMicros = 0 ∧ ∃ t ∈ db.settlements, Kept s t then
      { s with costMicros := chunk, cumulativeMicros := s.bondCumulative }
    else s

/-- Resolve abandoned replies against the chain. -/
def resolveAbandoned : Store := { db with spends := db.spends.map db.resolved }

/-- The block a settlement scan starts from: where the last one stopped, else the first deposit. -/
def settlementScanFrom (chainId floor : ℕ) : ℕ :=
  match db.settleScanBlock with
  | some block => max block floor
  | none =>
    let blocks := (db.deposits.filter fun d => d.1 = chainId ∧ 0 < d.2).map Prod.snd
    max (blocks.min?.getD floor) floor

/-- The settle that collected a reply: the first one on its channel that reaches its ticket. -/
def collected (s : SpendRow) : Option SettlementRow :=
  match s.cumulativeMicros with
  | none => none
  | some cumulative =>
    (db.settlements.filter fun t => some t.payout = s.payout ∧ cumulative ≤ t.cumulative).foldl
      (List.argAux SettlementRow.Before) none

/-- An abandoned reply is not listed before the chain shows that its chunk was kept. -/
def listed (s : SpendRow) : Bool := !(s.abandoned && s.costMicros == 0)

/-- Every bill, newest first, with the settle that collected it. -/
def spendHistory (limit : ℕ) : List (SpendRow × Option SettlementRow) :=
  (((db.spends.filter listed).reverse.mergeSort fun a b => b.recordedAt ≤ a.recordedAt).take
    limit).map fun s => (s, db.collected s)

variable {db} {s : SpendRow} {t : SettlementRow} {entry : SpendEntry} {limit : ℕ}

@[simp] theorem recordSpend_settlements :
    (db.recordSpend entry).settlements = db.settlements := rfl

@[simp] theorem recordSettlement_spends {t : Settlement} :
    (db.recordSettlement t).spends = db.spends := rfl

theorem mem_spendHistory {shown : Option SettlementRow} (h : (s, shown) ∈ db.spendHistory limit) :
    s ∈ db.spends ∧ shown = db.collected s := by
  rw [spendHistory, List.mem_map] at h
  obtain ⟨row, hrow, heq⟩ := h
  cases heq
  have hsorted := List.mem_of_mem_take hrow
  rw [List.mem_mergeSort, List.mem_reverse] at hsorted
  exact ⟨List.mem_of_mem_filter hsorted, rfl⟩

/-- A listing that is long enough has every row that is listed. -/
theorem mem_spendHistory_of_listed (hrow : s ∈ db.spends) (hlisted : listed s = true)
    (hlimit : db.spends.length ≤ limit) : (s, db.collected s) ∈ db.spendHistory limit := by
  refine List.mem_map_of_mem ?_
  rw [List.take_of_length_le]
  · rw [List.mem_mergeSort, List.mem_reverse]
    exact List.mem_filter.mpr ⟨hrow, hlisted⟩
  · rw [List.length_mergeSort, List.length_reverse]
    exact (List.length_filter_le _ _).trans hlimit

theorem mem_of_foldl_argAux {r : SettlementRow → SettlementRow → Prop} [DecidableRel r]
    {ts : List SettlementRow} {best : Option SettlementRow}
    (h : ts.foldl (List.argAux r) best = some t) : t ∈ ts ∨ best = some t := by
  induction ts generalizing best with
  | nil => exact .inr h
  | cons u ts ih =>
    rcases ih h with hmem | hbest
    · exact .inl (.tail _ hmem)
    · cases best with
      | none =>
        cases hbest
        exact .inl (.head _)
      | some b =>
        simp only [List.argAux] at hbest
        split at hbest
        · cases hbest
          exact .inl (.head _)
        · exact .inr hbest

/-- What a reply is shown as collected by is on record, on its payout, and reaches its ticket, and none
that does so comes before it. -/
theorem collected_eq_some (h : db.collected s = some t) :
    t ∈ db.settlements ∧ some t.payout = s.payout ∧
      ∃ cumulative, s.cumulativeMicros = some cumulative ∧ cumulative ≤ t.cumulative ∧
        ∀ u ∈ db.settlements, some u.payout = s.payout → cumulative ≤ u.cumulative →
          ¬ u.Before t := by
  unfold collected at h
  split at h
  · cases h
  · next cumulative hcumulative =>
    rcases mem_of_foldl_argAux h with hmem | hnone
    · simp only [List.mem_filter, decide_eq_true_eq] at hmem
      refine ⟨hmem.1, hmem.2.1, cumulative, hcumulative, hmem.2.2, ?_⟩
      intro u hu hpayout hle
      refine List.not_of_mem_foldl_argAux _ inferInstance inferInstance ?_ h
      simp only [List.mem_filter, decide_eq_true_eq]
      exact ⟨hu, hpayout, hle⟩
    · cases hnone

/-- Only the cost and the ticket of a row change, and only where its bond was settled. -/
theorem resolved_cases (db : Store) (s : SpendRow) : db.resolved s = s ∨
    (s.abandoned = true ∧ (∃ t ∈ db.settlements, Kept s t) ∧
      ∃ chunk, s.chunkMicros = some chunk ∧
        db.resolved s = { s with costMicros := chunk, cumulativeMicros := s.bondCumulative }) := by
  unfold resolved
  split
  · exact .inl rfl
  · next chunk hchunk =>
    split
    · next hkept => exact .inr ⟨hkept.1, hkept.2.2, chunk, hchunk, rfl⟩
    · exact .inl rfl

end Store

end Rootmode.Desktop
