import Rootmode.Worker.Jobs
import Rootmode.Worker.LocalNode

namespace Rootmode.LocalNode

open Lib Lib.Checked Lib.Text Lib.Transition Payments Worker

/-- A node between jobs, whose ledger is empty. -/
def resting : Node where
  channels := ledger
  bonds _ := none
  tasks _ := none

/-- The chat of the client's, before it is let through. -/
def chat (jobId : Uuid) (cumulative : ℕ) : JobSubmit := job jobId hello cumulative 1_003_600

def payload (cumulative : ℕ) : JobPayload :=
  .llm { hello with
    maxTokens := min hello.maxTokens (ceilingFor (advertisedPrice config (.llm hello)) 0 cumulative) }

/-- The chat while its backend runs. -/
def served (jobId : Uuid) (cumulative : ℕ) : Task :=
  { (Task.start config (chat jobId cumulative)).clamped (payload cumulative) with phase := .running }

/-- The lock the chats are let through on, as the node reads it. -/
def shown : ChannelState := Chain.stateOf (lockOf (lockedUp 1_000_000))

/-- What is held for the chat then. -/
def chunk (jobId : Uuid) (cumulative : ℕ) : Bond :=
  stashed LocalChain.crypto ledger (pay jobId LocalChain.worker cumulative 1_003_600) shown

/-- The ledger once the chunk is banked. -/
def banked (jobId : Uuid) (cumulative : ℕ) : Channels :=
  ledger.insert
    (ledger.idFor LocalChain.crypto (addressText LocalChain.client) (addressText LocalChain.worker))
    (ledger.banked LocalChain.crypto (ticket LocalChain.worker cumulative 1_003_600)
      (pay jobId LocalChain.worker cumulative 1_003_600).sig 0)

/-- What the local node asks for its chats. -/
def listed : Price := advertisedPrice config (.llm hello)

/-- What it holds for a chat let through on a thousand micros. -/
def thousand : Bond := chunk 1 1_000

section Steps

variable {n : Node} {i : ℕ} {jobId : Uuid} {cumulative : ℕ}

theorem step_payment (hfree : n.tasks i = none) :
    Step config LocalChain.crypto rpc n (.payment i (chat jobId cumulative) 0)
      (n.put i (some (Task.start config (chat jobId cumulative)))) := by
  have hpriced : holdbackFor config (chat jobId cumulative).payload := hello_priced
  refine .payment hfree ?_
  rw [decide_eq_true hpriced]
  exact takePayment_local n.channels

theorem step_bond (hledger : n.channels = ledger) (hpos : 0 < cumulative)
    (htask : n.tasks i = some (Task.start config (chat jobId cumulative))) :
    Step config LocalChain.crypto rpc n (.bond i)
      ((n.put i (some ((Task.start config (chat jobId cumulative)).clamped (payload cumulative)))).hold
        jobId (some { pay := pay jobId LocalChain.worker cumulative 1_003_600
                      delta := cumulative
                      appKey := [] })) := by
  have hpriced : holdbackFor config (chat jobId cumulative).payload := hello_priced
  have hphase : (Task.start config (chat jobId cumulative)).phase = .paid := if_pos hpriced
  have g : BondGuard config LocalChain.crypto n.channels (chat jobId cumulative)
      (pay jobId LocalChain.worker cumulative 1_003_600) := by
    rw [hledger]
    exact bondGuard_local hpos
  have hrise : (pay jobId LocalChain.worker cumulative 1_003_600).rise LocalChain.crypto n.channels =
      cumulative := by
    rw [hledger]
    rfl
  have htake : takeBond config LocalChain.crypto n.channels n.bonds (chat jobId cumulative) =
      .ok (cumulative, _, Function.update n.bonds jobId
        (some { pay := pay jobId LocalChain.worker cumulative 1_003_600
                delta := cumulative
                appKey := [] })) :=
    takeBond_eq_ok.mpr ⟨_, g, hrise.symm, rfl, by rw [hrise]; rfl⟩
  exact .bond htask hphase htake (clampToChunk_llm.mpr ⟨hello_cost.trans_lt hpos, rfl⟩)

theorem step_lock (hcovers : cumulative ≤ 1_000_000)
    (htask : n.tasks i = some ((Task.start config (chat jobId cumulative)).clamped
      (payload cumulative)))
    (hbond : n.bonds jobId = some { pay := pay jobId LocalChain.worker cumulative 1_003_600
                                    delta := cumulative
                                    appKey := [] }) :
    Step config LocalChain.crypto rpc n (.lock i (some shown))
      ((n.put i (some (served jobId cumulative))).hold jobId (some (chunk jobId cumulative))) := by
  have hcheck : checkLock config LocalChain.crypto rpc n.bonds
      ((Task.start config (chat jobId cumulative)).clamped (payload cumulative)).submit
      (addressText LocalChain.worker) (lockedUp 1_000_000) = (.ok shown, lockedUp 1_000_000) :=
    checkLock_local hbond rfl rfl (lockedUp_covers 1_003_600 hcovers (by decide))
  have hlocked : locked (n.bonds jobId) (some shown) = some (chunk jobId cumulative) := by
    rw [hbond]
    rfl
  have hstep := Step.lock htask rfl (Passes.locked config_payout hcheck)
  exact hlocked ▸ hstep

theorem step_invoice {amount : Micros} (hpos : 0 < amount)
    (htask : n.tasks i = some (served jobId cumulative))
    (hbond : n.bonds jobId = some (chunk jobId cumulative)) :
    Step config LocalChain.crypto rpc n (.invoice i amount)
      ((n.put i (some { served jobId cumulative with
        phase := .invoiced (chunk jobId cumulative) (billed (chunk jobId cumulative) amount) })).hold
        jobId none) := by
  have hpriced : holdbackFor config (chat jobId cumulative).payload := hello_priced
  exact .invoice htask rfl (decide_eq_true hpriced) hpos hbond

theorem named_chat {total : ℕ} : Named config (chat jobId cumulative)
    (pay jobId LocalChain.worker total 1_003_600) where
  sameJob := rfl
  sameWorker := by
    intro payout hpayout
    rw [config_payout] at hpayout
    cases hpayout
    exact eqIgnoreAsciiCase_refl _
  samePayer := by
    intro payer hpayer
    cases hpayer
    exact eqIgnoreAsciiCase_refl _

/-- The key a chat's chunk was verified against. -/
theorem key_chunk : (chunk jobId cumulative).appKey = addressText LocalChain.app := by
  have hkey : shown.appKey = addressText LocalChain.app := by decide
  exact hkey

theorem chunk_delta (hpos : 0 < cumulative) : (chunk jobId cumulative).delta = cumulative := by
  have hearned : shown.earned = 0 := by decide
  have habove : (chunk jobId cumulative).delta =
      min cumulative (max (cumulative - shown.earned) 1) := rfl
  rw [habove, hearned, Nat.sub_zero, max_eq_left hpos, min_self]

theorem vouched_chat {total : ℕ} : Vouched config LocalChain.crypto (chat jobId cumulative)
    (pay jobId LocalChain.worker total 1_003_600) (chunk jobId cumulative).appKey where
  named := named_chat
  signed := by
    rw [key_chunk]
    exact ⟨domain, 0, payments_domain, check_pay jobId (by decide)⟩

/-- The first chunk on an empty ledger is banked. -/
theorem step_capture {amount : Micros} (hledger : n.channels = ledger) (hpos : 0 < cumulative)
    (htask : n.tasks i = some { served jobId cumulative with
      phase := .invoiced (chunk jobId cumulative) amount }) :
    Step config LocalChain.crypto rpc n (.capture i none 0)
      { n.put i none with channels := banked jobId cumulative } := by
  have hcheck : (ticket LocalChain.worker cumulative 1_003_600).check LocalChain.crypto domain
      (pay jobId LocalChain.worker cumulative 1_003_600).sig (chunk jobId cumulative).appKey 0 =
      .ok ⟨⟩ := by
    rw [key_chunk]
    exact check_pay jobId (by decide)
  have hcovers : satAdd 64 0 (chunk jobId cumulative).delta ≤ cumulative := by
    have hdelta : (chunk jobId cumulative).delta ≤ cumulative := min_le_left cumulative _
    refine (Nat.min_le_left _ _).trans ?_
    rw [Nat.zero_add]
    exact hdelta
  have hnamed : Named config (chat jobId cumulative)
      (pay jobId LocalChain.worker cumulative 1_003_600) := named_chat
  have hbank : bankPay config LocalChain.crypto ledger (served jobId cumulative).submit
      (chunk jobId cumulative).pay (chunk jobId cumulative).delta (chunk jobId cumulative).appKey 0 =
      .ok (banked jobId cumulative) :=
    bankPay_eq_ok.mpr ⟨⟨rfl, hnamed.sameWorker, hnamed.samePayer⟩,
      ⟨domain, payments_domain, hcheck, rfl, hcovers, hpos⟩, rfl⟩
  have hcapture : captureChunk config LocalChain.crypto n.channels (served jobId cumulative).submit
      (chunk jobId cumulative) amount none 0 =
      .ok ((chunk jobId cumulative).pay, banked jobId cumulative) := by
    rw [hledger, captureChunk_silent]
    exact (map_eq_ok _ _ _).mpr ⟨_, hbank, rfl⟩
  exact .capture htask rfl hcapture

end Steps

end Rootmode.LocalNode
