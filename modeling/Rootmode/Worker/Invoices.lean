import Rootmode.Worker.LocalJobs

namespace Rootmode.Worker.Invoices

open Lib Lib.Checked Lib.Transition Payments

structure Invoice where
  amount : Micros
  topUp : Bool
  /-- The total the client signs for to pay it. -/
  total : Micros
  deriving DecidableEq

/-- A one-shot wait for an answer, which is told by the invoice it was sent for. -/
inductive Wait
  | pending
  | got (invoice : ℕ) (pay : JobPay)
  deriving DecidableEq

/-- Where a job stands that is paid for under one id. -/
inductive Phase
  | running
  | toppingUp (invoice : ℕ) (wait : Wait)
  /-- The final invoice is out; its answer arrived, if it did, while it was waited for. -/
  | capturing (invoice : ℕ) (wait : Wait) (arrived : Option JobPay)
  /-- What the last wait took, what answered the final invoice in time, and what was banked. -/
  | settled (invoice : ℕ) (taken : Option (ℕ × JobPay)) (arrived : Option JobPay)
      (banked : Option (JobPay × Micros))
  /-- Stopped, or given up by its backend. -/
  | left
  deriving DecidableEq

structure State where
  phase : Phase
  bond : Bond
  channels : Channels
  invoices : List Invoice
  /-- The client's answers on their way. -/
  replies : List (ℕ × JobPay)

inductive Act
  | askTopUp
  | bill (amount : Micros)
  | leave
  | answer (invoice : ℕ) (pay : JobPay)
  | deliver (invoice : ℕ) (pay : JobPay)
  | takeTopUp (now : ℕ)
  | giveUp
  | capture (now : ℕ)
  | expire (now : ℕ)
  | elsewhere (channels : Channels)

/-- What a top-up asks for. -/
def topUpMicros (price : Price) : JobKind → Micros
  | .llm => price.chunkMicros
  | .image | .video => castWord 64 (max (roundAway (price.amount * 1_000_000)) 1)

/-- An answer comes in under the job's id.  Whoever waits gets it; where nobody does it is dropped. -/
def Phase.hand (n : ℕ) (pay : JobPay) : Phase → Phase
  | .toppingUp i .pending => .toppingUp i (.got n pay)
  | .capturing i wait arrived =>
    .capturing i (if wait = .pending then .got n pay else wait)
      (arrived.or (if n = i then some pay else none))
  | phase => phase

variable (cfg : Config) (C : Crypto) (submit : JobSubmit) (price : Price)

def start (bond : Bond) (chs : Channels) : State where
  phase := .running
  bond
  channels := chs
  invoices := []
  replies := []

namespace State

variable (s : State)

def topUpInvoice : Invoice where
  amount := topUpMicros price submit.payload.kind
  topUp := true
  total := s.bond.pay.ticket.cumulative + topUpMicros price submit.payload.kind

def finalInvoice (amount : Micros) : Invoice where
  amount := billed s.bond amount
  topUp := false
  total := s.channels.authorisedFor C s.bond.pay.ticket.client s.bond.pay.ticket.workerPayout +
    billed s.bond amount

/-- The end of the last wait. -/
def settle (i : ℕ) (amount : Micros) (taken : Option (ℕ × JobPay)) (arrived : Option JobPay)
    (now : ℕ) : State :=
  let captured :=
    (captureChunk cfg C s.channels submit s.bond amount (taken.map Prod.snd) now).toOption
  let banked := captured.map fun captured =>
    (captured.1, billedFor cfg C s.channels submit s.bond amount (taken.map Prod.snd) now)
  { s with
    phase := .settled i taken arrived banked
    channels := captured.elim s.channels Prod.snd }

@[simp] theorem settle_bond {s : State} (i : ℕ) (amount : Micros) (taken : Option (ℕ × JobPay))
    (arrived : Option JobPay) (now : ℕ) :
    (s.settle cfg C submit i amount taken arrived now).bond = s.bond := rfl

end State

/-- The ticket a client answers an invoice with. -/
structure Answers (s : State) (invoice : Invoice) (pay : JobPay) : Prop where
  vouched : Vouched cfg C submit pay s.bond.appKey
  sameClient : pay.ticket.client = s.bond.pay.ticket.client
  sameWorker : pay.ticket.workerPayout = s.bond.pay.ticket.workerPayout
  total : pay.ticket.cumulative = invoice.total

/-- The worker's waits, the client's answers and whatever delays them, in any order. -/
inductive Step : Labelled State Act
  | askTopUp {s} : s.phase = .running →
      Step s .askTopUp { s with
        phase := .toppingUp s.invoices.length .pending
        invoices := s.invoices ++ [s.topUpInvoice submit price] }
  | bill {s amount} : s.phase = .running → 0 < amount →
      Step s (.bill amount) { s with
        phase := .capturing s.invoices.length .pending none
        invoices := s.invoices ++ [s.finalInvoice C amount] }
  | leave {s} : s.phase = .running → Step s .leave { s with phase := .left }
  | answer {s n invoice pay} : s.invoices[n]? = some invoice → Answers cfg C submit s invoice pay →
      Step s (.answer n pay) { s with replies := (n, pay) :: s.replies }
  | deliver {s n pay} : (n, pay) ∈ s.replies →
      Step s (.deliver n pay)
        { s with phase := s.phase.hand n pay, replies := s.replies.erase (n, pay) }
  | takeTopUp {s i n pay now} : s.phase = .toppingUp i (.got n pay) →
      Step s (.takeTopUp now) { s with
        phase := .running
        bond := (requestTopUp cfg C s.channels s.bond pay now).getD s.bond }
  -- late, or stopped
  | giveUp {s i wait} : s.phase = .toppingUp i wait → Step s .giveUp { s with phase := .running }
  | capture {s i n pay arrived invoice now} : s.phase = .capturing i (.got n pay) arrived →
      s.invoices[i]? = some invoice →
      Step s (.capture now) (s.settle cfg C submit i invoice.amount (some (n, pay)) arrived now)
  | expire {s i wait arrived invoice now} : s.phase = .capturing i wait arrived →
      s.invoices[i]? = some invoice →
      Step s (.expire now) (s.settle cfg C submit i invoice.amount none none now)
  | elsewhere {s chs} : Step s (.elsewhere chs) { s with channels := chs }

/-- A job is billed its final invoice, on the ticket that answers it, where that came in time, and
its chunk otherwise. -/
def Right (s : State) : Prop :=
  match s.phase with
  | .settled i taken arrived banked =>
    (∀ n pay, taken = some (n, pay) → n = i) ∧
    ∃ invoice, s.invoices[i]? = some invoice ∧
      banked = some (arrived.elim (s.bond.pay, s.bond.delta) (·, invoice.amount))
  | _ => True

def SettlesRight (start : State) : Prop :=
  ∀ s, Runs (Step cfg C submit price) start s → Right s

/-- No answer to a top-up comes in while the final invoice waits for its own, and the ledger has room
for what is banked. -/
def InTurn (s : State) : Act → Prop
  | .deliver n _ => ∀ i arrived, s.phase = .capturing i .pending arrived → n = i
  | .capture now => ∀ i n pay arrived invoice, s.phase = .capturing i (.got n pay) arrived →
      s.invoices[i]? = some invoice → Room C s.channels pay.ticket invoice.amount now
  | .expire now => Room C s.channels s.bond.pay.ticket s.bond.delta now
  | _ => True

section Waits

variable {P : JobPay → Prop} {phase : Phase}

/-- What a wait has got is one of the client's answers, and the last wait has got the answer to its
own invoice. -/
def Phase.Waits (P : JobPay → Prop) : Phase → Prop
  | .toppingUp _ (.got _ pay) => P pay
  | .capturing _ .pending arrived => arrived = none
  | .capturing i (.got n pay) arrived => n = i ∧ arrived = some pay ∧ P pay
  | _ => True

theorem Phase.Waits.hand (h : phase.Waits P) {n : ℕ} {pay : JobPay} (hpay : P pay)
    (hturn : ∀ i arrived, phase = .capturing i .pending arrived → n = i) :
    (phase.hand n pay).Waits P := by
  cases phase with
  | toppingUp i wait =>
    cases wait with
    | pending => exact hpay
    | got m taken => exact h
  | capturing i wait arrived =>
    cases wait with
    | pending =>
      obtain rfl : arrived = none := h
      obtain rfl := hturn i none rfl
      simp [Phase.hand, Phase.Waits, hpay]
    | got m taken =>
      obtain ⟨rfl, rfl, htaken⟩ := h
      exact ⟨rfl, rfl, htaken⟩
  | running => trivial
  | settled => trivial
  | left => trivial

/-- A job that is settled stays so. -/
theorem Phase.hand_settled {i : ℕ} {taken : Option (ℕ × JobPay)} {arrived : Option JobPay}
    {banked : Option (JobPay × Micros)} {n : ℕ} {pay : JobPay} :
    phase.hand n pay = .settled i taken arrived banked ↔ phase = .settled i taken arrived banked := by
  cases phase with
  | toppingUp j wait => cases wait <;> simp [Phase.hand]
  | _ => simp [Phase.hand]

end Waits

structure State.InOrder (s : State) : Prop where
  chunk : Vouched cfg C submit s.bond.pay s.bond.appKey
  replies : ∀ n pay, (n, pay) ∈ s.replies → Vouched cfg C submit pay s.bond.appKey
  waits : s.phase.Waits (Vouched cfg C submit · s.bond.appKey)
  right : Right s

section Steps

variable {cfg} {C} {submit} {price} {s s' : State} {a : Act}

/-- The key a job is held to stays. -/
theorem Step.appKey (h : Step cfg C submit price s a s') : s'.bond.appKey = s.bond.appKey := by
  cases h with
  | @takeTopUp _ i n pay now hphase =>
    show ((requestTopUp cfg C s.channels s.bond pay now).getD s.bond).appKey = s.bond.appKey
    cases hraise : requestTopUp cfg C s.channels s.bond pay now with
    | none => rfl
    | some bond => exact (requestTopUp_some hraise).2
  | _ => rfl

theorem Step.chunk (h : Step cfg C submit price s a s') (hs : s.InOrder cfg C submit) :
    Vouched cfg C submit s'.bond.pay s'.bond.appKey := by
  cases h with
  | @takeTopUp _ i n pay now hphase =>
    have hwaits := hs.waits
    simp only [hphase, Phase.Waits] at hwaits
    cases hraise : requestTopUp cfg C s.channels s.bond pay now with
    | none => exact hs.chunk
    | some bond => exact Vouched.of_requestTopUp hraise hwaits.named
  | _ => exact hs.chunk

theorem Step.replies (h : Step cfg C submit price s a s') (hs : s.InOrder cfg C submit) :
    ∀ n pay, (n, pay) ∈ s'.replies → Vouched cfg C submit pay s'.bond.appKey := by
  rw [h.appKey]
  intro n pay hmem
  cases h with
  | answer _ hanswers =>
    rcases List.mem_cons.mp hmem with hnew | hold
    · cases hnew
      exact hanswers.vouched
    · exact hs.replies n pay hold
  | deliver _ => exact hs.replies n pay (List.mem_of_mem_erase hmem)
  | _ => exact hs.replies n pay hmem

theorem Step.waits (hC : InTurn C s a) (h : Step cfg C submit price s a s')
    (hs : s.InOrder cfg C submit) :
    s'.phase.Waits (Vouched cfg C submit · s'.bond.appKey) := by
  rw [h.appKey]
  cases h with
  | @deliver _ n pay hmem => exact hs.waits.hand (hs.replies n pay hmem) hC
  | askTopUp | leave | takeTopUp | giveUp | capture | expire => trivial
  | bill => rfl
  | answer | elsewhere => exact hs.waits

/-- The answer to the final invoice is banked for what that asks. -/
theorem settle_right_of_answer {i : ℕ} {invoice : Invoice} {pay : JobPay} {now : ℕ}
    (hinvoice : s.invoices[i]? = some invoice) (hv : Vouched cfg C submit pay s.bond.appKey)
    (hroom : Room C s.channels pay.ticket invoice.amount now) :
    Right (s.settle cfg C submit i invoice.amount (some (i, pay)) (some pay) now) := by
  obtain ⟨chs, hbank⟩ := bankPay_of_room hv hroom
  refine ⟨?_, invoice, hinvoice, ?_⟩
  · rintro n pay' ⟨⟩
    rfl
  · simp [captureChunk_of_paid hbank, billedFor_of_paid hbank, Except.toOption]

/-- Silence costs the chunk. -/
theorem settle_right_of_silence {i : ℕ} {invoice : Invoice} {now : ℕ}
    (hinvoice : s.invoices[i]? = some invoice) (hs : s.InOrder cfg C submit)
    (hroom : Room C s.channels s.bond.pay.ticket s.bond.delta now) :
    Right (s.settle cfg C submit i invoice.amount none none now) := by
  obtain ⟨chs, hbank⟩ := bankPay_of_room hs.chunk hroom
  refine ⟨nofun, invoice, hinvoice, ?_⟩
  simp [captureChunk_silent, hbank, billedFor, Except.toOption, Except.map]

theorem Step.right (hC : InTurn C s a) (h : Step cfg C submit price s a s')
    (hs : s.InOrder cfg C submit) : Right s' := by
  cases h with
  | @deliver _ n pay hmem =>
    unfold Right
    split
    · next i taken arrived banked hsettled =>
      have hright := hs.right
      simp only [Right, Phase.hand_settled.mp hsettled] at hright
      exact hright
    · trivial
  | @capture _ i n pay arrived invoice now hphase hinvoice =>
    have hwaits := hs.waits
    simp only [hphase, Phase.Waits] at hwaits
    obtain ⟨rfl, rfl, hvouched⟩ := hwaits
    exact settle_right_of_answer hinvoice hvouched (hC _ _ _ _ _ hphase hinvoice)
  | expire _ hinvoice => exact settle_right_of_silence hinvoice hs hC
  | askTopUp | bill | leave | takeTopUp | giveUp => trivial
  | answer | elsewhere => exact hs.right

theorem Step.inOrder (hC : InTurn C s a) (h : Step cfg C submit price s a s')
    (hs : s.InOrder cfg C submit) : s'.InOrder cfg C submit where
  chunk := h.chunk hs
  replies := h.replies hs
  waits := h.waits hC hs
  right := h.right hC hs

end Steps

section Admitted

variable {cfg} {C} {submit} {price} {κ : Type} {R : Rpc κ} {chs : Channels} {bonds : Bonds}
  {now : ℤ} {k k' : κ} {a : Admission} {payout : Text} {bond : Bond} {s : State}

/-- A job that a node let through, knowing where it is paid, is settled as its final invoice was
answered, in every run in which no late answer to a top-up meets the last wait. -/
theorem settles_right_of_inTurn (hpayout : payoutOf cfg.payoutAddress = some payout)
    (hadmitted : admitJob cfg C R chs bonds submit now k = (.ok a, k'))
    (hpriced : holdbackFor cfg submit.payload) (hheld : a.bonds submit.jobId = some bond)
    (hrun : Runs (restrict (Step cfg C a.submit price) (InTurn C)) (start bond a.channels) s) :
    Right s := by
  have hs : s.InOrder cfg C a.submit := by
    refine hrun.invariant (P := State.InOrder cfg C a.submit) ?_ ?_
    · intro s e s' hstep hs
      exact hstep.2.inOrder hstep.1 hs
    · exact ⟨admitted_vouched hpayout hadmitted hpriced hheld, nofun, trivial, trivial⟩
  exact hs.right

end Admitted

section Local

open LocalNode

/-- The chat once its final invoice is out. -/
def invoiced : State :=
  { start thousand ledger with
    phase := .capturing 0 .pending none
    invoices := [⟨500, false, 500⟩] }

theorem room_thousand : Room LocalChain.crypto ledger thousand.pay.ticket thousand.delta 0 where
  live := by decide
  owned := rfl
  covers := by decide
  rises := by decide

/-- A client that does not answer its final invoice is billed its chunk. -/
theorem settles_right_silent : ∃ a : Admission, a.bonds 1 = some thousand ∧
    Right (invoiced.settle config LocalChain.crypto a.submit 0 500 none none 0) := by
  obtain ⟨a, hadmitted, hledger, -, hheld⟩ := admit_hello (fun _ => none) 1 (by decide : 0 < 1_000)
    (lockedUp_covers 1_003_600 (by decide) (by decide))
  have hbill : Runs (restrict (Step config LocalChain.crypto a.submit listed)
      (InTurn LocalChain.crypto)) (start thousand a.channels) invoiced := by
    rw [hledger]
    exact .single (a := Act.bill 500) ⟨trivial, .bill rfl (by decide)⟩
  have hexpire := hbill.tail (a := Act.expire 0) ⟨room_thousand, .expire rfl rfl⟩
  exact ⟨a, hheld, settles_right_of_inTurn config_payout hadmitted hello_priced hheld hexpire⟩

/-- What the client signs for the chat's first top-up. -/
def late : JobPay := pay 1 LocalChain.worker 20_001_000 1_003_600

theorem answers_late {s : State} (hbond : s.bond = thousand) :
    Answers config LocalChain.crypto (chat 1 1_000) s
      ((start thousand ledger).topUpInvoice (chat 1 1_000) listed) late := by
  have htotal : late.ticket.cumulative =
      ((start thousand ledger).topUpInvoice (chat 1 1_000) listed).total := by decide +kernel
  refine ⟨?_, ?_, ?_, htotal⟩
  · rw [hbond]
    exact vouched_chat
  · rw [hbond]
    rfl
  · rw [hbond]
    rfl

/-- The answer to a top-up that was given up comes in while the final invoice waits. -/
theorem late_answer_taken :
    ¬ SettlesRight config LocalChain.crypto (chat 1 1_000) listed (start thousand ledger) := by
  intro h
  have hask : Runs (Step config LocalChain.crypto (chat 1 1_000) listed) (start thousand ledger) _ :=
    .single (.askTopUp rfl)
  have hgiven := hask.tail (.giveUp rfl)
  have hanswer := hgiven.tail (a := Act.answer 0 late) (.answer rfl (answers_late rfl))
  have hbill := hanswer.tail (a := Act.bill 500) (.bill rfl (by decide))
  have hdeliver := hbill.tail (.deliver (List.mem_singleton_self _))
  have hcapture := hdeliver.tail (a := Act.capture 0) (.capture rfl rfl)
  exact absurd ((h _ hcapture).1 0 late rfl) (by decide)

end Local

end Rootmode.Worker.Invoices
