import Rootmode.Worker.LocalJobs

namespace Rootmode.Worker

open Lib Lib.Checked Lib.Text Lib.Transition Payments

variable {κ : Type} {cfg : Config} {C : Crypto} {R : Rpc κ}

/-- The ledger entry a ticket is banked under on a node of this contract. -/
def entryOf (C : Crypto) (contract : Text) (t : SpendTicket) : Text :=
  channelId C t.client t.workerPayout (lower contract)

/-- The entry a prepaid job counts on. -/
def Task.entry (C : Crypto) (contract : Text) (t : Task) : Option Text :=
  if t.holdback then t.submit.bond.map fun pay => entryOf C contract pay.ticket else none

/-- Job `i` counts on the entry `id`. -/
def Node.On (C : Crypto) (contract id : Text) (n : Node) (i : ℕ) : Prop :=
  ∃ t, n.tasks i = some t ∧ t.entry C contract = some id

/-- The chunk that a job on the entry `id` is let through with. -/
def promised (C : Crypto) (contract id : Text) (n : Node) : Event → List Bond
  | .lock i state =>
    match n.tasks i with
    | some t =>
      if t.entry C contract = some id then (locked (n.bonds t.submit.jobId) state).toList else []
    | none => []
  | _ => []

/-- Nobody is heard of on the entry `id` once his job is let through, and each of its jobs gets to
its capture. -/
def Silent (C : Crypto) (contract id : Text) (n : Node) : Event → Prop
  | .topUp i pay _ => ¬ n.On C contract id i ∧ entryOf C contract pay.ticket ≠ id
  | .capture i paid _ =>
    ∀ pay ∈ paid, ¬ n.On C contract id i ∧ entryOf C contract pay.ticket ≠ id
  | .fail i | .free i => ¬ n.On C contract id i
  | _ => True

/-- When every capture has run, the ledger has risen by all the chunks jobs were let through with. -/
def BanksEveryChunk (cfg : Config) (C : Crypto) (R : Rpc κ) (id : Text) (n₀ : Node) : Prop :=
  ∀ log n, Logged (Step cfg C R) (promised C n₀.channels.contract id)
      (fun _ => Silent C n₀.channels.contract id) n₀ log n →
    (∀ i, ¬ n.On C n₀.channels.contract id i) →
    n₀.channels.authorisedAt id + (log.map Bond.delta).sum ≤ n.channels.authorisedAt id

/-- The money a chunk stands for, out of all that was ever paid under its entry. -/
def Bond.slice (bond : Bond) : Slice :=
  ⟨bond.pay.ticket.cumulative - bond.delta, bond.pay.ticket.cumulative⟩

/-- Two chunks that stand for different money. -/
def Bond.Apart (b c : Bond) : Prop := b.slice.Apart c.slice

instance : Std.Symm Bond.Apart := ⟨fun _ _ h => h.symm⟩

/-- The jobs in flight have ids of their own, no legacy authorisation is banked under `id`, a job is
let through there only on a lock, for money no job before it was let through with, and its chunk is
still good when it is captured. -/
def Separate (C : Crypto) (contract id : Text) (log : List Bond) (n : Node) : Event → Prop
  | .payment _ submit _ =>
    (∀ j t, n.tasks j = some t → t.submit.jobId ≠ submit.jobId) ∧
    ∀ auth ∈ submit.spend, auth.channelId ≠ id
  | .lock i state => n.On C contract id i → state ≠ none ∧
    ∀ bond ∈ promised C contract id n (.lock i state), ∀ b ∈ log, bond.Apart b
  | .capture i _ now => ∀ t pay, n.tasks i = some t → t.entry C contract = some id →
    t.submit.bond = some pay →
    now < pay.ticket.deadline ∧ n.channels.checkOwner id pay.ticket.client = .ok ()
  | _ => True

/-- The chunk a job would capture as it stands. -/
def Task.chunk (t : Task) (bonds : Bonds) : Option Bond :=
  match t.phase with
  | .paid => none
  | .bonded | .running => bonds t.submit.jobId
  | .invoiced bond _ => some bond

/-- The job is let through. -/
def Phase.through : Phase → Bool
  | .paid | .bonded => false
  | .running | .invoiced _ _ => true

/-- A chunk whose job is let through: what it is, that its job was promised, and that the key it is
held under signed it. -/
structure Held (cfg : Config) (C : Crypto) (log : List Bond) (pay : JobPay) (bond : Bond) : Prop where
  logged : bond ∈ log
  ticket : bond.pay = pay
  signed : ∃ d signer, cfg.payments.domain = some d ∧ pay.ticket.recover C d pay.sig = .ok signer ∧
    eqIgnoreAsciiCase signer bond.appKey = true

/-- A chunk worth something, all of it above what the ledger started from. -/
structure Bond.Rises (base : ℕ) (bond : Bond) : Prop where
  pos : 0 < bond.delta
  above : base + bond.delta ≤ bond.pay.ticket.cumulative

/-- How a job stands to the entry `id`. -/
structure Kept (cfg : Config) (C : Crypto) (contract id : Text) (base : ℕ) (log : List Bond)
    (bonds : Bonds) (t : Task) : Prop where
  prepaid : t.phase ≠ .running → t.holdback = true
  own : t.holdback = true → ∀ bond, t.chunk bonds = some bond →
    entryOf C contract bond.pay.ticket = id → t.entry C contract = some id
  named : ∀ pay, t.entry C contract = some id → t.submit.bond = some pay → t.phase ≠ .paid →
    Named cfg t.submit pay
  bonded : ∀ pay, t.entry C contract = some id → t.submit.bond = some pay → t.phase = .bonded →
    ∃ delta, bonds t.submit.jobId = some ⟨pay, delta, []⟩ ∧ Bond.Rises base ⟨pay, delta, []⟩
  owed : ∀ pay, t.entry C contract = some id → t.submit.bond = some pay → t.phase.through = true →
    ∃ bond, t.chunk bonds = some bond ∧ Held cfg C log pay bond

/-- The job will capture `bond` for the entry `id`. -/
structure Task.Owes (C : Crypto) (contract id : Text) (bonds : Bonds) (t : Task) (bond : Bond) : Prop
    where
  on : t.entry C contract = some id
  through : t.phase.through = true
  chunk : t.chunk bonds = some bond

/-- Every chunk promised on `id` is on the ledger or on its way there, and no two stand for the same
money. -/
structure Tally (cfg : Config) (C : Crypto) (contract id : Text) (base : ℕ) (log : List Bond)
    (n : Node) : Prop where
  settles : n.channels.contract = contract
  distinct : ∀ {i j t u}, n.tasks i = some t → n.tasks j = some u →
    t.submit.jobId = u.submit.jobId → i = j
  kept : ∀ {i t}, n.tasks i = some t → Kept cfg C contract id base log n.bonds t
  rises : ∀ bond ∈ log, bond.Rises base
  apart : log.Pairwise Bond.Apart
  due : ∀ bond ∈ log, bond.pay.ticket.cumulative ≤ n.channels.authorisedAt id ∨
    ∃ i t, n.tasks i = some t ∧ t.Owes C contract id n.bonds bond
  top : n.channels.authorisedAt id = base ∨
    ∃ bond ∈ log, n.channels.authorisedAt id = bond.pay.ticket.cumulative

section Entries

variable {contract id : Text} {base : ℕ} {log : List Bond} {bonds bonds' : Bonds} {t : Task}

theorem entry_of_bond {pay : JobPay} (hholdback : t.holdback = true) (hpay : t.submit.bond = some pay) :
    t.entry C contract = some (entryOf C contract pay.ticket) := by
  rw [Task.entry, if_pos hholdback, hpay, Option.map_some]

theorem bond_of_entry (h : t.entry C contract = some id) :
    ∃ pay, t.submit.bond = some pay ∧ entryOf C contract pay.ticket = id := by
  unfold Task.entry at h
  split at h
  · exact Option.map_eq_some_iff.mp h
  · cases h

theorem promised_lock {n : Node} {i : ℕ} {state : Option ChannelState} {bond : Bond}
    (htask : n.tasks i = some t) (hentry : t.entry C contract = some id)
    (hbond : locked (n.bonds t.submit.jobId) state = some bond) :
    promised C contract id n (.lock i state) = [bond] := by
  simp [promised, htask, hentry, hbond]

theorem chunk_congr (h : bonds' t.submit.jobId = bonds t.submit.jobId) :
    t.chunk bonds' = t.chunk bonds := by
  unfold Task.chunk
  cases t.phase with
  | paid => rfl
  | bonded => exact h
  | running => exact h
  | invoiced bond amount => rfl

theorem Held.mono {pay : JobPay} {bond : Bond} (h : Held cfg C log pay bond) (new : List Bond) :
    Held cfg C (new ++ log) pay bond :=
  ⟨List.mem_append_right new h.logged, h.ticket, h.signed⟩

/-- A job stands as it did when nothing held for it changes. -/
theorem Kept.congr (h : Kept cfg C contract id base log bonds t)
    (hbonds : bonds' t.submit.jobId = bonds t.submit.jobId) (new : List Bond) :
    Kept cfg C contract id base (new ++ log) bonds' t where
  prepaid := h.prepaid
  own := by
    rw [chunk_congr hbonds]
    exact h.own
  named := h.named
  bonded := by
    intro pay hentry hpay hphase
    rw [hbonds]
    exact h.bonded pay hentry hpay hphase
  owed := by
    intro pay hentry hpay hthrough
    rw [chunk_congr hbonds]
    obtain ⟨bond, hchunk, hheld⟩ := h.owed pay hentry hpay hthrough
    exact ⟨bond, hchunk, hheld.mono new⟩

theorem Task.Owes.congr {bond : Bond} (h : t.Owes C contract id bonds bond)
    (hbonds : bonds' t.submit.jobId = bonds t.submit.jobId) : t.Owes C contract id bonds' bond :=
  ⟨h.on, h.through, (chunk_congr hbonds).trans h.chunk⟩

theorem start_kept {submit : JobSubmit} :
    Kept cfg C contract id base log bonds (Task.start cfg submit) := by
  by_cases hpriced : holdbackFor cfg submit.payload
  · constructor <;> simp [Task.start, hpriced, Task.chunk, Phase.through]
  · constructor <;> simp [Task.start, hpriced, Task.chunk, Task.entry]

end Entries

section Steps

variable {contract id : Text} {base : ℕ} {log : List Bond} {n n' : Node} {e : Event} {task : Task}

/-- What is to be shown of a step: how its own job stands after it, that the ledger has not gone
down, and where the chunk its job owed has gone. -/
theorem Step.tally_of (h : Step cfg C R n e n') (hn : Tally cfg C contract id base log n)
    (new : List Bond) (hrises : ∀ bond ∈ new, bond.Rises base)
    (hapart : (new ++ log).Pairwise Bond.Apart)
    (hself : ∀ t, n'.tasks e.job = some t → Kept cfg C contract id base (new ++ log) n'.bonds t)
    (hfresh : ∀ t, n'.tasks e.job = some t → ∀ j u, j ≠ e.job → n.tasks j = some u →
      u.submit.jobId ≠ t.submit.jobId)
    (hledger : n.channels.authorisedAt id ≤ n'.channels.authorisedAt id)
    (htop : n'.channels.authorisedAt id = n.channels.authorisedAt id ∨
      ∃ bond ∈ log, n'.channels.authorisedAt id = bond.pay.ticket.cumulative)
    (hdue : ∀ bond, bond ∈ new ∨ (∃ t, n.tasks e.job = some t ∧ t.Owes C contract id n.bonds bond) →
      bond.pay.ticket.cumulative ≤ n'.channels.authorisedAt id ∨
      ∃ t, n'.tasks e.job = some t ∧ t.Owes C contract id n'.bonds bond) :
    Tally cfg C contract id base (new ++ log) n' := by
  -- what is held for the other jobs stays as it is
  have hbonds {j : ℕ} {u : Task} (hj : j ≠ e.job) (hu : n.tasks j = some u) :
      n'.bonds u.submit.jobId = n.bonds u.submit.jobId := by
    apply h.bonds_of_ne
    intro t ht hsame
    exact hj (hn.distinct hu ht hsame)
  refine ⟨h.contract.trans hn.settles, ?_, ?_, ?_, hapart, ?_, ?_⟩
  · intro i j t u ht hu hsame
    by_cases hi : i = e.job
    · by_cases hj : j = e.job
      · exact hi.trans hj.symm
      · rw [h.tasks_of_ne hj] at hu
        exact absurd hsame.symm (hfresh t (hi ▸ ht) j u hj hu)
    · rw [h.tasks_of_ne hi] at ht
      by_cases hj : j = e.job
      · exact absurd hsame (hfresh u (hj ▸ hu) i t hi ht)
      · rw [h.tasks_of_ne hj] at hu
        exact hn.distinct ht hu hsame
  · intro i t ht
    by_cases hi : i = e.job
    · subst hi
      exact hself t ht
    · rw [h.tasks_of_ne hi] at ht
      exact (hn.kept ht).congr (hbonds hi ht) new
  · intro bond hbond
    cases List.mem_append.mp hbond with
    | inl hnew => exact hrises bond hnew
    | inr hold => exact hn.rises bond hold
  · intro bond hbond
    have hself (hsrc : bond ∈ new ∨
        (∃ t, n.tasks e.job = some t ∧ t.Owes C contract id n.bonds bond)) :
        bond.pay.ticket.cumulative ≤ n'.channels.authorisedAt id ∨
        ∃ i t, n'.tasks i = some t ∧ t.Owes C contract id n'.bonds bond := by
      cases hdue bond hsrc with
      | inl hle => exact .inl hle
      | inr howes => exact .inr ⟨e.job, howes⟩
    cases List.mem_append.mp hbond with
    | inl hnew => exact hself (.inl hnew)
    | inr hold =>
      rcases hn.due bond hold with hle | ⟨i, t, ht, howes⟩
      · exact .inl (hle.trans hledger)
      · by_cases hi : i = e.job
        · subst hi
          exact hself (.inr ⟨t, ht, howes⟩)
        · refine .inr ⟨i, t, ?_, howes.congr (hbonds hi ht)⟩
          rw [h.tasks_of_ne hi]
          exact ht
  · cases htop with
    | inl hsame =>
      rw [hsame]
      cases hn.top with
      | inl hbase => exact .inl hbase
      | inr hlog =>
        obtain ⟨bond, hbond, heq⟩ := hlog
        exact .inr ⟨bond, List.mem_append_right new hbond, heq⟩
    | inr hlog =>
      obtain ⟨bond, hbond, heq⟩ := hlog
      exact .inr ⟨bond, List.mem_append_right new hbond, heq⟩

theorem Tally.base_le (hn : Tally cfg C contract id base log n) :
    base ≤ n.channels.authorisedAt id := by
  rcases hn.top with heq | ⟨bond, hbond, heq⟩
  · exact heq.ge
  · rw [heq]
    exact (Nat.le_add_right base _).trans (hn.rises bond hbond).above

/-- The ledger's total is not inside a chunk that is promised: what the chunk stands for is all above
it, or all below. -/
theorem Tally.outside (hn : Tally cfg C contract id base log n) {bond : Bond} (hbond : bond ∈ log) :
    bond.pay.ticket.cumulative ≤ n.channels.authorisedAt id ∨
      n.channels.authorisedAt id + bond.delta ≤ bond.pay.ticket.cumulative := by
  have hrises := hn.rises bond hbond
  rcases hn.top with heq | ⟨other, hother, heq⟩
  · rw [heq]
    exact .inr hrises.above
  · by_cases hsame : bond = other
    · rw [hsame, heq]
      exact .inl le_rfl
    · have hapart : bond.Apart other := hn.apart.forall hbond hother hsame
      have habove := hrises.above
      rw [heq]
      cases hapart with
      | inl hle =>
        refine .inl (hle.trans ?_)
        exact Nat.sub_le _ _
      | inr hle =>
        have hbound : bond.delta ≤ bond.pay.ticket.cumulative :=
          (Nat.le_add_left bond.delta base).trans habove
        exact .inr ((Nat.add_le_add_right hle bond.delta).trans (Nat.sub_add_cancel hbound).le)

/-- A chunk above the ledger's total is banked when its capture runs in time. -/
theorem Tally.banks (hn : Tally cfg C contract id base log n) {i : ℕ} {bond : Bond} {amount : Micros}
    {now : ℕ} (htask : n.tasks i = some task) (hphase : task.phase = .invoiced bond amount)
    (hentry : task.entry C contract = some id)
    (hgood : ∀ pay, task.submit.bond = some pay → now < pay.ticket.deadline ∧
      n.channels.checkOwner id pay.ticket.client = .ok ())
    (hlow : n.channels.authorisedAt id < bond.pay.ticket.cumulative) :
    ∃ result, captureChunk cfg C n.channels task.submit bond amount none now = .ok result := by
  have hkept := hn.kept htask
  obtain ⟨pay, hpay, hid⟩ := bond_of_entry hentry
  obtain ⟨b, hchunk, hheld⟩ := hkept.owed pay hentry hpay (by rw [hphase]; rfl)
  obtain rfl : bond = b := by
    rw [Task.chunk, hphase] at hchunk
    exact Option.some.inj hchunk
  obtain ⟨hlive, howned⟩ := hgood pay hpay
  obtain ⟨d, signer, hd, hsigner, hkey⟩ := hheld.signed
  have hidFor : n.channels.idFor C pay.ticket.client pay.ticket.workerPayout = id := by
    rw [← hid, Channels.idFor, hn.settles, entryOf]
  have hroom : n.channels.authorisedAt id + bond.delta ≤ pay.ticket.cumulative := by
    rw [← hheld.ticket]
    exact (hn.outside hheld.logged).resolve_left (not_le.mpr hlow)
  have hnamed : Named cfg task.submit bond.pay := by
    rw [hheld.ticket]
    exact hkept.named pay hentry hpay (by simp [hphase])
  have hguard : Channels.SpendGuard C n.channels bond.pay.ticket bond.pay.sig d bond.appKey
      bond.delta now := by
    rw [hheld.ticket]
    refine ⟨?_, ?_, ?_, ?_⟩
    · simp only [SpendTicket.check, bind_eq_ok, require_eq_ok]
      refine ⟨⟨⟩, ?_, signer, hsigner, hkey⟩
      simpa using hlive
    · rw [hidFor]
      exact howned
    · rw [Channels.authorisedFor, hidFor]
      exact (Nat.min_le_left _ _).trans hroom
    · rw [Channels.authorisedFor, hidFor, ← hheld.ticket]
      exact hlow
  rw [captureChunk_silent]
  refine ⟨_, (map_eq_ok _ _ _).mpr ⟨_, bankPay_eq_ok.mpr ⟨hnamed, ⟨d, hd, hguard⟩, rfl⟩, rfl⟩⟩

/-- A step that ends its job, which owed nothing that is not on the ledger. -/
theorem Step.tally_ends (h : Step cfg C R n e n') (hn : Tally cfg C contract id base log n)
    (hend : n'.tasks e.job = none) (hsame : n'.channels = n.channels)
    (howes : ∀ t bond, n.tasks e.job = some t → t.Owes C contract id n.bonds bond →
      bond.pay.ticket.cumulative ≤ n.channels.authorisedAt id) :
    Tally cfg C contract id base log n' := by
  have hgone {P : Task → Prop} : ∀ t, n'.tasks e.job = some t → P t := by
    intro t ht
    rw [hend] at ht
    cases ht
  refine h.tally_of hn [] (by simp) hn.apart hgone hgone (hsame ▸ le_rfl)
    (.inl (hsame ▸ rfl)) ?_
  rintro bond (hnew | ⟨t, ht, ho⟩)
  · cases hnew
  · rw [hsame]
    exact .inl (howes t bond ht ho)

/-- A step that moves its job on under the same id and leaves the ledger. -/
theorem Step.tally_stays (h : Step cfg C R n e n') (hn : Tally cfg C contract id base log n)
    {t' : Task} (htask : n.tasks e.job = some task) (htask' : n'.tasks e.job = some t')
    (hjob : t'.submit.jobId = task.submit.jobId) (hsame : n'.channels = n.channels)
    (new : List Bond) (hrises : ∀ bond ∈ new, bond.Rises base)
    (hapart : (new ++ log).Pairwise Bond.Apart)
    (hkept : Kept cfg C contract id base (new ++ log) n'.bonds t')
    (howes : ∀ bond, bond ∈ new ∨ task.Owes C contract id n.bonds bond →
      t'.Owes C contract id n'.bonds bond) :
    Tally cfg C contract id base (new ++ log) n' := by
  refine h.tally_of hn new hrises hapart ?_ ?_ (hsame ▸ le_rfl) (.inl (hsame ▸ rfl)) ?_
  · intro t ht
    rw [htask'] at ht
    cases ht
    exact hkept
  · intro t ht j u hj hu hu'
    rw [htask'] at ht
    cases ht
    exact hj (hn.distinct hu htask (hu'.trans hjob))
  · rintro bond (hnew | ⟨t, ht, ho⟩)
    · exact .inr ⟨t', htask', howes bond (.inl hnew)⟩
    · rw [htask] at ht
      cases ht
      exact .inr ⟨t', htask', howes bond (.inr ho)⟩

theorem not_owes_of_not_through {bonds : Bonds} {bond : Bond} (h : task.phase.through = false)
    (howes : task.Owes C contract id bonds bond) : False := by
  have hthrough := howes.through
  rw [h] at hthrough
  cases hthrough

theorem takePayment_authorisedAt {chs chs' : Channels} {submit : JobSubmit} {holdback : Bool}
    {now : ℤ} (h : takePayment cfg C chs submit holdback now = .ok chs')
    (hne : ∀ auth ∈ submit.spend, auth.channelId ≠ id) :
    chs'.authorisedAt id = chs.authorisedAt id := by
  rcases takePayment_ok h with hsame | ⟨auth, _, _, hspend, -, haccept⟩
  · rw [hsame]
  · rw [(Channels.accept_eq_ok.mp haccept).2.2]
    exact Channels.authorisedAt_congr (Channels.insert_opened_of_ne _ (hne auth hspend).symm)

theorem Tally.payment (hn : Tally cfg C contract id base log n) {i : ℕ} {submit : JobSubmit}
    {now : ℤ} (h : Step cfg C R n (.payment i submit now) n')
    (hsep : Separate C contract id log n (.payment i submit now)) :
    Tally cfg C contract id base log n' := by
  have hstep := h.tally_of hn [] (by simp) hn.apart
  cases h with
  | payment hfree hpayment =>
    have hkeeps := takePayment_authorisedAt hpayment hsep.2
    refine hstep ?_ ?_ hkeeps.ge (.inl hkeeps) ?_
    · intro t ht
      obtain rfl : Task.start cfg submit = t := Option.some.inj ((n.put_tasks_self i _).symm.trans ht)
      exact start_kept
    · intro t ht j u _ hu
      obtain rfl : Task.start cfg submit = t := Option.some.inj ((n.put_tasks_self i _).symm.trans ht)
      exact hsep.1 j u hu
    · rintro bond (hnew | ⟨t, ht, -⟩)
      · cases hnew
      · cases hfree.symm.trans ht

theorem Tally.bond (hn : Tally cfg C contract id base log n) {i : ℕ} {delta already : Micros}
    {bonds : Bonds} {payload : JobPayload} (htask : n.tasks i = some task)
    (hphase : task.phase = .paid)
    (htake : takeBond cfg C n.channels n.bonds task.submit = .ok (delta, already, bonds))
    (h : Step cfg C R n (.bond i)
      { n.put i (some (task.clamped payload)) with bonds }) :
    Tally cfg C contract id base log { n.put i (some (task.clamped payload)) with bonds } := by
  have hkept := hn.kept htask
  have hholdback : task.holdback = true := hkept.prepaid (by simp [hphase])
  obtain ⟨pay, g, -, -, rfl⟩ := takeBond_eq_ok.mp htake
  have hbond : Function.update n.bonds task.submit.jobId
      (some { pay, delta := pay.rise C n.channels, appKey := [] }) task.submit.jobId =
      some { pay, delta := pay.rise C n.channels, appKey := [] } := Function.update_self _ _ _
  have hon : (task.clamped payload).entry C contract = some (entryOf C contract pay.ticket) :=
    entry_of_bond hholdback g.carried
  refine h.tally_stays hn htask (n.put_tasks_self i _) rfl rfl [] (by simp) hn.apart ?_ ?_
  · refine ⟨fun _ => hholdback, ?_, ?_, ?_, ?_⟩
    · intro _ bond hchunk hid
      obtain rfl := Option.some.inj (hbond.symm.trans hchunk)
      rw [hon]
      exact congrArg some hid
    · intro pay' _ hpay' _
      obtain rfl : pay = pay' := Option.some.inj (g.carried.symm.trans hpay')
      exact ⟨g.sameJob, g.sameWorker, g.samePayer⟩
    · intro pay' hentry hpay' _
      obtain rfl : pay = pay' := Option.some.inj (g.carried.symm.trans hpay')
      rw [hon] at hentry
      have hledger : n.channels.authorisedFor C pay.ticket.client pay.ticket.workerPayout =
          n.channels.authorisedAt id := by
        rw [Channels.authorisedFor, Channels.idFor, hn.settles, ← Option.some.inj hentry, entryOf]
      have hbase := hn.base_le
      have hrises := g.rises
      refine ⟨_, hbond, ?_, ?_⟩
      · exact Nat.sub_pos_of_lt hrises
      · change base + (pay.ticket.cumulative -
          n.channels.authorisedFor C pay.ticket.client pay.ticket.workerPayout) ≤ pay.ticket.cumulative
        rw [hledger] at hrises ⊢
        exact (Nat.add_le_add_right hbase _).trans (Nat.add_sub_cancel' hrises.le).le
    · rintro _ _ _ ⟨⟩
  · rintro bond (hnew | howes)
    · cases hnew
    · exact (not_owes_of_not_through (by rw [hphase]; rfl) howes).elim

/-- A job that passes at its lock has its chunk signed by the key the chunk is then held under. -/
theorem Passes.signed {submit : JobSubmit} {state : ChannelState} {pay : JobPay}
    (h : Passes cfg C R submit (some state)) (hpay : submit.bond = some pay) :
    ∃ d signer, cfg.payments.domain = some d ∧ pay.ticket.recover C d pay.sig = .ok signer ∧
      eqIgnoreAsciiCase signer state.appKey = true := by
  cases h with
  | locked _ hcheck =>
    obtain ⟨_, _, _, -, -, -, -, hguard⟩ := checkLock_ok hcheck
    obtain ⟨d, hd, hcheck⟩ := hguard.signed pay hpay
    simp only [SpendTicket.check, bind_eq_ok, require_eq_ok] at hcheck
    obtain ⟨-, -, signer, hsigner, hkey⟩ := hcheck
    exact ⟨d, signer, hd, hsigner, hkey⟩

theorem Bond.Rises.stash {pay : JobPay} {delta : Micros} {appKey : Text}
    (h : Bond.Rises base ⟨pay, delta, appKey⟩) (state : ChannelState) :
    (Bond.stash ⟨pay, delta, appKey⟩ state).Rises base where
  pos := lt_min h.pos (lt_max_of_lt_right Nat.one_pos)
  above := (Nat.add_le_add_left (min_le_left delta _) base).trans h.above

theorem locked_pay {bond : Option Bond} {state : Option ChannelState} {b : Bond}
    (h : locked bond state = some b) : ∃ old, bond = some old ∧ b.pay = old.pay := by
  cases state with
  | none => exact ⟨b, h, rfl⟩
  | some st =>
    obtain ⟨old, hold, rfl⟩ := Option.map_eq_some_iff.mp h
    exact ⟨old, hold, rfl⟩

theorem Tally.lock (hn : Tally cfg C contract id base log n) {i : ℕ} {state : Option ChannelState}
    (htask : n.tasks i = some task) (hphase : task.phase = .bonded)
    (hpasses : Passes cfg C R task.submit state)
    (hsep : Separate C contract id log n (.lock i state))
    (h : Step cfg C R n (.lock i state) ((n.put i (some { task with phase := .running })).hold
      task.submit.jobId (locked (n.bonds task.submit.jobId) state))) :
    Tally cfg C contract id base (promised C contract id n (.lock i state) ++ log)
      ((n.put i (some { task with phase := .running })).hold task.submit.jobId
        (locked (n.bonds task.submit.jobId) state)) := by
  have hkept := hn.kept htask
  have hholdback : task.holdback = true := hkept.prepaid (by simp [hphase])
  have hself := (n.put i (some { task with phase := .running })).hold_bonds_self task.submit.jobId
    (locked (n.bonds task.submit.jobId) state)
  have hnotOwes {bond : Bond} (howes : task.Owes C contract id n.bonds bond) : False :=
    not_owes_of_not_through (by rw [hphase]; rfl) howes
  by_cases hentry : task.entry C contract = some id
  · obtain ⟨hsome, hapart⟩ := hsep ⟨task, htask, hentry⟩
    obtain ⟨st, rfl⟩ := Option.ne_none_iff_exists'.mp hsome
    obtain ⟨pay, hpay, hid⟩ := bond_of_entry hentry
    obtain ⟨delta, hbond, hrises⟩ := hkept.bonded pay hentry hpay hphase
    have hpromised : promised C contract id n (.lock i (some st)) =
        [Bond.stash ⟨pay, delta, []⟩ st] :=
      promised_lock htask hentry (by rw [hbond]; rfl)
    rw [hpromised] at hapart ⊢
    rw [hbond] at hself
    refine h.tally_stays hn htask (n.put_tasks_self i _) rfl rfl _ ?_ ?_ ?_ ?_
    · rintro bond hnew
      obtain rfl := List.mem_singleton.mp hnew
      exact hrises.stash st
    · exact List.pairwise_cons.mpr ⟨hapart _ (List.mem_singleton_self _), hn.apart⟩
    · refine ⟨fun hne => absurd rfl hne, ?_, ?_, by rintro _ _ _ ⟨⟩, ?_⟩
      · intro _ bond _ _
        exact hentry
      · intro pay' _ hpay' _
        exact hkept.named pay' hentry hpay' (by simp [hphase])
      · intro pay' _ hpay' _
        obtain rfl : pay = pay' := Option.some.inj (hpay.symm.trans hpay')
        rw [hbond]
        exact ⟨_, hself, List.mem_append_left _ (List.mem_singleton_self _), rfl,
          hpasses.signed hpay⟩
    · rintro bond (hnew | howes)
      · obtain rfl := List.mem_singleton.mp hnew
        rw [hbond]
        exact ⟨hentry, rfl, hself⟩
      · exact (hnotOwes howes).elim
  · have hpromised : promised C contract id n (.lock i state) = [] := by
      simp [promised, htask, hentry]
    rw [hpromised]
    refine h.tally_stays hn htask (n.put_tasks_self i _) rfl rfl [] (by simp) hn.apart ?_ ?_
    · refine ⟨fun hne => absurd rfl hne, ?_, fun _ hid => absurd hid hentry,
        fun _ hid => absurd hid hentry, fun _ hid => absurd hid hentry⟩
      intro _ bond hchunk hid
      obtain ⟨old, hold, hsame⟩ := locked_pay (hself.symm.trans hchunk)
      refine hkept.own hholdback old ?_ (hsame ▸ hid)
      rw [Task.chunk, hphase]
      exact hold
    · rintro bond (hnew | howes)
      · cases hnew
      · exact (hnotOwes howes).elim

/-- What is banked by a capture on another entry is nothing to this one. -/
theorem bankPay_elsewhere {chs chs' : Channels} {submit : JobSubmit} {pay : JobPay} {amount : Micros}
    {appKey : Text} {now : ℕ} (h : bankPay cfg C chs submit pay amount appKey now = .ok chs')
    (hne : entryOf C chs.contract pay.ticket ≠ id) : chs'.authorisedAt id = chs.authorisedAt id := by
  rw [(bankPay_eq_ok.mp h).2.2]
  exact Channels.authorisedAt_congr (Channels.insert_opened_of_ne _ hne.symm)

theorem Tally.capture (hn : Tally cfg C contract id base log n) {i : ℕ} {bond : Bond}
    {amount : Micros} {paid : Option JobPay} {now : ℕ} {pay : JobPay} {chs : Channels}
    (htask : n.tasks i = some task) (hphase : task.phase = .invoiced bond amount)
    (hcapture : captureChunk cfg C n.channels task.submit bond amount paid now = .ok (pay, chs))
    (hsilent : Silent C contract id n (.capture i paid now))
    (h : Step cfg C R n (.capture i paid now) { n.put i none with channels := chs }) :
    Tally cfg C contract id base log { n.put i none with channels := chs } := by
  have hkept := hn.kept htask
  have hgone {P : Task → Prop} : ∀ t, (n.put i none).tasks i = some t → P t := by
    intro t ht
    rw [Node.put_tasks_self] at ht
    cases ht
  have hstep := h.tally_of hn [] (by simp) hn.apart hgone hgone
  by_cases hentry : task.entry C contract = some id
  · have hnone : paid = none := by
      cases paid with
      | none => rfl
      | some p => exact absurd ⟨task, htask, hentry⟩ (hsilent p rfl).1
    subst hnone
    obtain ⟨ticket, hticket, hid⟩ := bond_of_entry hentry
    obtain ⟨b, hchunk, hheld⟩ := hkept.owed ticket hentry hticket (by rw [hphase]; rfl)
    rw [Task.chunk, hphase] at hchunk
    obtain rfl : bond = b := Option.some.inj hchunk
    rcases captureChunk_ok hcapture with ⟨-, hbank⟩ | ⟨⟨⟩, -⟩
    obtain ⟨-, ⟨d, -, g⟩, rfl⟩ := bankPay_eq_ok.mp hbank
    have hidFor : n.channels.idFor C bond.pay.ticket.client bond.pay.ticket.workerPayout = id := by
      rw [hheld.ticket, ← hid, Channels.idFor, hn.settles, entryOf]
    have hrises := g.rises
    rw [Channels.authorisedFor, hidFor] at hrises
    have hnew : (n.channels.insert (n.channels.idFor C bond.pay.ticket.client
        bond.pay.ticket.workerPayout) (n.channels.banked C bond.pay.ticket bond.pay.sig
          now)).authorisedAt id = bond.pay.ticket.cumulative := by
      rw [hidFor]
      exact Channels.authorisedAt_insert_self _ _
    refine hstep ?_ (.inr ⟨bond, hheld.logged, hnew⟩) ?_
    · exact hrises.le.trans hnew.ge
    · rintro b (hb | ⟨t, ht, howes⟩)
      · cases hb
      · obtain rfl : task = t := Option.some.inj (htask.symm.trans ht)
        have hchunk := howes.chunk
        rw [Task.chunk, hphase] at hchunk
        obtain rfl : bond = b := Option.some.inj hchunk
        exact .inl hnew.ge
  · have hkeeps : chs.authorisedAt id = n.channels.authorisedAt id := by
      rcases captureChunk_ok hcapture with ⟨-, hbank⟩ | ⟨hpaid, hbank⟩
      · refine bankPay_elsewhere hbank ?_
        rw [hn.settles]
        intro hid
        refine hentry (hkept.own (hkept.prepaid (by simp [hphase])) bond ?_ hid)
        rw [Task.chunk, hphase]
      · refine bankPay_elsewhere hbank ?_
        rw [hn.settles]
        exact (hsilent pay hpaid).2
    refine hstep hkeeps.ge (.inl hkeeps) ?_
    rintro b (hb | ⟨t, ht, howes⟩)
    · cases hb
    · obtain rfl : task = t := Option.some.inj (htask.symm.trans ht)
      exact absurd howes.on hentry

theorem Tally.unbanked (hn : Tally cfg C contract id base log n) {i : ℕ} {bond : Bond}
    {amount : Micros} {paid : Option JobPay} {now : ℕ} {e : String}
    (htask : n.tasks i = some task) (hphase : task.phase = .invoiced bond amount)
    (hcapture : captureChunk cfg C n.channels task.submit bond amount paid now = .error e)
    (hsilent : Silent C contract id n (.capture i paid now))
    (hsep : Separate C contract id log n (.capture i paid now))
    (h : Step cfg C R n (.capture i paid now) (n.put i none)) :
    Tally cfg C contract id base log (n.put i none) := by
  refine h.tally_ends hn (n.put_tasks_self i none) rfl ?_
  intro t b ht howes
  obtain rfl : task = t := Option.some.inj (htask.symm.trans ht)
  have hchunk := howes.chunk
  rw [Task.chunk, hphase] at hchunk
  obtain rfl : bond = b := Option.some.inj hchunk
  have hnone : paid = none := by
    cases paid with
    | none => rfl
    | some p => exact absurd ⟨task, htask, howes.on⟩ (hsilent p rfl).1
  subst hnone
  by_contra hlow
  obtain ⟨result, hok⟩ := hn.banks htask hphase howes.on
    (fun pay hpay => hsep task pay htask howes.on hpay) (not_le.mp hlow)
  cases hcapture.symm.trans hok

/-- A step that keeps apart what is promised keeps the tally, with what it promises added. -/
theorem Step.tally (h : Step cfg C R n e n') (hsilent : Silent C contract id n e)
    (hsep : Separate C contract id log n e) (hn : Tally cfg C contract id base log n) :
    Tally cfg C contract id base (promised C contract id n e ++ log) n' := by
  have hstep := h
  have hnotOwes {i : ℕ} {t u : Task} {bond : Bond} (ht : n.tasks i = some t)
      (hphase : t.phase.through = false) (hu : n.tasks i = some u)
      (howes : u.Owes C contract id n.bonds bond) : False := by
    obtain rfl : t = u := Option.some.inj (ht.symm.trans hu)
    exact not_owes_of_not_through hphase howes
  have helsewhere {i : ℕ} (hoff : ¬ n.On C contract id i) {u : Task} {bond : Bond}
      (hu : n.tasks i = some u) (howes : u.Owes C contract id n.bonds bond) : False :=
    hoff ⟨u, hu, howes.on⟩
  cases h with
  | payment _ _ => exact hn.payment hstep hsep
  | bond htask hphase htake _ => exact hn.bond htask hphase htake hstep
  | @refuseChunk i task _ htask hphase _ =>
    refine hstep.tally_ends hn (n.put_tasks_self i none) rfl fun t bond ht howes => ?_
    exact (hnotOwes htask (by rw [hphase]; rfl) ht howes).elim
  | @refusePrompt i task _ _ _ _ htask hphase _ _ =>
    refine hstep.tally_ends hn (n.put_tasks_self i none) rfl fun t bond ht howes => ?_
    exact (hnotOwes htask (by rw [hphase]; rfl) ht howes).elim
  | lock htask hphase hpasses => exact hn.lock htask hphase hpasses hsep hstep
  | @refuseLock i task htask hphase =>
    refine hstep.tally_ends hn (n.put_tasks_self i none) rfl fun t bond ht howes => ?_
    exact (hnotOwes htask (by rw [hphase]; rfl) ht howes).elim
  | @fail i _ _ _ =>
    refine hstep.tally_ends hn (n.put_tasks_self i none) rfl fun t bond ht howes => ?_
    exact (helsewhere hsilent ht howes).elim
  | @topUp i task pay now bond bond' htask hphase _ hbond htop =>
    have hoff : task.entry C contract ≠ some id := fun hentry => hsilent.1 ⟨task, htask, hentry⟩
    have hself := n.hold_bonds_self task.submit.jobId (some bond')
    refine hstep.tally_stays hn htask htask rfl rfl [] (by simp) hn.apart ?_ ?_
    · refine ⟨fun hne => absurd hphase hne, ?_, fun _ hid => absurd hid hoff,
        fun _ hid => absurd hid hoff, fun _ hid => absurd hid hoff⟩
      intro _ b hchunk hid
      rw [Task.chunk, hphase] at hchunk
      obtain rfl : bond' = b := Option.some.inj (hself.symm.trans hchunk)
      rw [(requestTopUp_some htop).1] at hid
      exact absurd hid hsilent.2
    · rintro b (hnew | howes)
      · cases hnew
      · exact absurd howes.on hoff
  | @invoice i task bond amount htask hphase hholdback _ hbond =>
    have hkept := hn.kept htask
    have hchunk : task.chunk n.bonds = some bond := by
      rw [Task.chunk, hphase]
      exact hbond
    refine hstep.tally_stays hn htask (n.put_tasks_self i _) rfl rfl [] (by simp) hn.apart ?_ ?_
    · refine ⟨fun _ => hholdback, ?_, ?_, by rintro _ _ _ ⟨⟩, ?_⟩
      · rintro _ _ ⟨⟩ hid
        exact hkept.own hholdback bond hchunk hid
      · intro pay hentry hpay _
        exact hkept.named pay hentry hpay (by simp [hphase])
      · intro pay hentry hpay _
        obtain ⟨b, hb, hheld⟩ := hkept.owed pay hentry hpay (by rw [hphase]; rfl)
        obtain rfl : bond = b := Option.some.inj (hchunk.symm.trans hb)
        exact ⟨bond, rfl, hheld⟩
    · rintro b (hnew | howes)
      · cases hnew
      · exact ⟨howes.on, rfl, hchunk.symm.trans howes.chunk⟩
  | @unbonded i task amount htask hphase _ _ hnone =>
    refine hstep.tally_ends hn (n.put_tasks_self i none) rfl fun t bond ht howes => ?_
    obtain rfl : task = t := Option.some.inj (htask.symm.trans ht)
    have hchunk := howes.chunk
    rw [Task.chunk, hphase] at hchunk
    cases hnone.symm.trans hchunk
  | @free i task htask hphase =>
    refine hstep.tally_ends hn (n.put_tasks_self i none) rfl fun t bond ht howes => ?_
    exact (helsewhere hsilent ht howes).elim
  | capture htask hphase hcapture => exact hn.capture htask hphase hcapture hsilent hstep
  | unbanked htask hphase hcapture => exact hn.unbanked htask hphase hcapture hsilent hsep hstep

theorem tally_idle {n₀ : Node} (hidle : ∀ i, n₀.tasks i = none) :
    Tally cfg C n₀.channels.contract id (n₀.channels.authorisedAt id) [] n₀ where
  settles := rfl
  distinct := by
    intro i j t u ht
    rw [hidle] at ht
    cases ht
  kept := by
    intro i t ht
    rw [hidle] at ht
    cases ht
  rises := by simp
  apart := .nil
  due := by simp
  top := .inl rfl

/-- When nothing is owed any more, all that was promised is on the ledger. -/
theorem Tally.banked (hn : Tally cfg C contract id base log n)
    (hdone : ∀ i, ¬ n.On C contract id i) :
    base + (log.map Bond.delta).sum ≤ n.channels.authorisedAt id := by
  have hbanked (bond : Bond) (hbond : bond ∈ log) :
      bond.pay.ticket.cumulative ≤ n.channels.authorisedAt id := by
    rcases hn.due bond hbond with hle | ⟨i, t, ht, howes⟩
    · exact hle
    · exact absurd ⟨t, ht, howes.on⟩ (hdone i)
  have hsize : (log.map Bond.delta) = (log.map Bond.slice).map Slice.size := by
    rw [List.map_map]
    apply List.map_congr_left
    intro bond hbond
    have habove := (hn.rises bond hbond).above
    have hle : bond.delta ≤ bond.pay.ticket.cumulative :=
      (Nat.le_add_left bond.delta base).trans habove
    exact (Nat.sub_sub_self hle).symm
  have hsum : ((log.map Bond.slice).map Slice.size).sum ≤ n.channels.authorisedAt id - base := by
    apply Slice.sum_size_le (List.pairwise_map.mpr hn.apart)
    intro s hs
    obtain ⟨bond, hbond, rfl⟩ := List.mem_map.mp hs
    exact ⟨Nat.le_sub_of_add_le (hn.rises bond hbond).above, hbanked bond hbond⟩
  have hbase := hn.base_le
  rw [hsize]
  exact (Nat.add_le_add_left hsum base).trans (Nat.add_sub_cancel' hbase).le

/-- A node whose jobs are let through for money of their own has banked every chunk it let a job
through with when all of them are captured, though not one of their clients is heard of again. -/
theorem banks_every_chunk_of_separate {n₀ : Node} (hidle : ∀ i, n₀.tasks i = none)
    (h : Logged (Step cfg C R) (promised C n₀.channels.contract id) (fun log n e =>
      Silent C n₀.channels.contract id n e ∧ Separate C n₀.channels.contract id log n e) n₀ log n)
    (hdone : ∀ i, ¬ n.On C n₀.channels.contract id i) :
    n₀.channels.authorisedAt id + (log.map Bond.delta).sum ≤ n.channels.authorisedAt id := by
  have htally : Tally cfg C n₀.channels.contract id (n₀.channels.authorisedAt id) log n :=
    h.invariant (P := fun log n =>
        Tally cfg C n₀.channels.contract id (n₀.channels.authorisedAt id) log n)
      (fun hmeets hstep hn => hstep.tally hmeets.1 hmeets.2 hn) (tally_idle hidle)
  exact htally.banked hdone

end Steps

section Local

open LocalNode

/-- The ledger entry of the client. -/
def clientEntry : Text :=
  ledger.idFor LocalChain.crypto (addressText LocalChain.client) (addressText LocalChain.worker)

variable {n₀ n : Node} {log : List Bond} {P : List Bond → Node → Event → Prop} {i : ℕ}
  {jobId : Uuid} {cumulative : ℕ}

theorem served_entry : (served jobId cumulative).entry LocalChain.crypto ledger.contract =
    some clientEntry := by
  have hpriced : holdbackFor config (chat jobId cumulative).payload := hello_priced
  have hpay : (served jobId cumulative).submit.bond =
      some (pay jobId LocalChain.worker cumulative 1_003_600) := rfl
  rw [entry_of_bond (decide_eq_true hpriced) hpay, entryOf, clientEntry, Channels.idFor]
  rfl

/-- A run goes on with a chat that passes at its lock. -/
theorem logged_pass
    (h : Logged (Step config LocalChain.crypto rpc)
      (promised LocalChain.crypto ledger.contract clientEntry) P n₀ log n)
    (hcovers : cumulative ≤ 1_000_000)
    (htask : n.tasks i = some ((Task.start config (chat jobId cumulative)).clamped
      (LocalNode.payload cumulative)))
    (hheld : n.bonds jobId = some { pay := pay jobId LocalChain.worker cumulative 1_003_600
                                    delta := cumulative
                                    appKey := [] })
    (hlock : P log n (.lock i (some shown))) :
    Logged (Step config LocalChain.crypto rpc)
      (promised LocalChain.crypto ledger.contract clientEntry) P n₀ (chunk jobId cumulative :: log)
      ((n.put i (some (served jobId cumulative))).hold jobId (some (chunk jobId cumulative))) := by
  have hentry : ((Task.start config (chat jobId cumulative)).clamped
      (LocalNode.payload cumulative)).entry LocalChain.crypto ledger.contract = some clientEntry :=
    served_entry
  have hbond : locked (n.bonds jobId) (some shown) = some (chunk jobId cumulative) := by
    rw [hheld]
    rfl
  have hlocked := h.tail hlock (step_lock hcovers htask hheld)
  rwa [promised_lock htask hentry hbond] at hlocked

/-- A run goes on with a chat that is let through. -/
theorem logged_lock
    (h : Logged (Step config LocalChain.crypto rpc)
      (promised LocalChain.crypto ledger.contract clientEntry) P n₀ log n)
    (hledger : n.channels = ledger) (hfree : n.tasks i = none) (hpos : 0 < cumulative)
    (hcovers : cumulative ≤ 1_000_000) (hpayment : P log n (.payment i (chat jobId cumulative) 0))
    (hbond : ∀ n, P log n (.bond i))
    (hlock : ∀ n : Node, n.tasks i = some ((Task.start config (chat jobId cumulative)).clamped
        (LocalNode.payload cumulative)) →
      n.bonds jobId = some { pay := pay jobId LocalChain.worker cumulative 1_003_600
                             delta := cumulative
                             appKey := [] } → P log n (.lock i (some shown))) :
    Logged (Step config LocalChain.crypto rpc)
      (promised LocalChain.crypto ledger.contract clientEntry) P n₀ (chunk jobId cumulative :: log)
      ((n.put i (some (served jobId cumulative))).hold jobId (some (chunk jobId cumulative))) := by
  have hpaid := h.tail hpayment (step_payment hfree)
  have hbonded := hpaid.tail (hbond _) (step_bond hledger hpos (n.put_tasks_self i _))
  have htask := (n.put i (some (Task.start config (chat jobId cumulative)))).put_tasks_self i
    (some ((Task.start config (chat jobId cumulative)).clamped (LocalNode.payload cumulative)))
  have hheld := ((n.put i (some (Task.start config (chat jobId cumulative)))).put i
    (some ((Task.start config (chat jobId cumulative)).clamped
      (LocalNode.payload cumulative)))).hold_bonds_self jobId
    (some { pay := pay jobId LocalChain.worker cumulative 1_003_600
            delta := cumulative
            appKey := [] })
  have hlocked := logged_pass hbonded hcovers htask hheld (hlock _ htask hheld)
  simpa [Node.put, Node.hold, promised] using hlocked

/-- The run goes on with the capture of the first chat on the ledger. -/
theorem logged_capture {amount : Micros}
    (h : Logged (Step config LocalChain.crypto rpc)
      (promised LocalChain.crypto ledger.contract clientEntry) P n₀ log n)
    (hledger : n.channels = ledger) (hpos : 0 < cumulative) (hamount : 0 < amount)
    (htask : n.tasks i = some (served jobId cumulative))
    (hbond : n.bonds jobId = some (chunk jobId cumulative))
    (hinvoice : P log n (.invoice i amount))
    (hcapture : ∀ n : Node, n.channels = ledger → n.tasks i = some { served jobId cumulative with
      phase := .invoiced (chunk jobId cumulative) (billed (chunk jobId cumulative) amount) } →
      P log n (.capture i none 0)) :
    Logged (Step config LocalChain.crypto rpc)
      (promised LocalChain.crypto ledger.contract clientEntry) P n₀ log
      { (n.put i none).hold jobId none with channels := banked jobId cumulative } := by
  have hinvoiced := h.tail hinvoice (step_invoice hamount htask hbond)
  have htask' := n.put_tasks_self i (some { served jobId cumulative with
    phase := .invoiced (chunk jobId cumulative) (billed (chunk jobId cumulative) amount) })
  have hcaptured := hinvoiced.tail (hcapture _ hledger htask') (step_capture hledger hpos htask')
  simpa [Node.put, Node.hold, promised] using hcaptured

/-- What a step is to meet in a run where the chunks are banked. -/
abbrev Meets (log : List Bond) (n : Node) (e : Event) : Prop :=
  Silent LocalChain.crypto ledger.contract clientEntry n e ∧
    Separate LocalChain.crypto ledger.contract clientEntry log n e

/-- A lone client who goes silent is charged the whole chunk. -/
theorem banks_every_chunk_silent :
    resting.channels.authorisedAt clientEntry + ([chunk 1 50_000].map Bond.delta).sum ≤
      (banked 1 50_000).authorisedAt clientEntry := by
  have hlocked : Logged (Step config LocalChain.crypto rpc)
      (promised LocalChain.crypto ledger.contract clientEntry) Meets resting [chunk 1 50_000]
      ((resting.put 0 (some (served 1 50_000))).hold 1 (some (chunk 1 50_000))) := by
    refine logged_lock .refl rfl rfl (by decide) (by decide) ⟨trivial, ?_⟩ (fun _ => ⟨trivial, trivial⟩)
      ?_
    · refine ⟨?_, ?_⟩
      · rintro j t ⟨⟩
      · rintro auth ⟨⟩
    · intro n htask _
      refine ⟨trivial, fun _ => ⟨nofun, ?_⟩⟩
      rintro bond _ b ⟨⟩
  have hrun : Logged (Step config LocalChain.crypto rpc)
      (promised LocalChain.crypto ledger.contract clientEntry) Meets resting [chunk 1 50_000]
      { (((resting.put 0 (some (served 1 50_000))).hold 1 (some (chunk 1 50_000))).put 0 none).hold 1
          none with channels := banked 1 50_000 } := by
    have htask := resting.put_tasks_self 0 (some (served 1 50_000))
    have hbond := (resting.put 0 (some (served 1 50_000))).hold_bonds_self 1 (some (chunk 1 50_000))
    refine logged_capture hlocked rfl (by decide) Nat.one_pos htask hbond ⟨trivial, trivial⟩ ?_
    intro n hledger htask'
    refine ⟨by rintro p ⟨⟩, ?_⟩
    intro t p ht _ hpay
    obtain rfl := Option.some.inj (htask'.symm.trans ht)
    have hcarried : (served 1 50_000).submit.bond =
        some (pay 1 LocalChain.worker 50_000 1_003_600) := rfl
    obtain rfl := Option.some.inj (hcarried.symm.trans hpay)
    rw [hledger]
    exact ⟨Nat.lt_of_sub_pos (by decide : 0 < 1_003_600 - 0), rfl⟩
  have hidle : ∀ i, resting.tasks i = none := fun _ => rfl
  have hbanked := banks_every_chunk_of_separate hidle hrun
  apply hbanked
  rintro i ⟨t, ht, -⟩
  have hnone : (((resting.put 0 (some (served 1 50_000))).hold 1 (some (chunk 1 50_000))).put 0
      none).tasks i = none := by
    by_cases hi : i = 0
    · rw [hi, Node.put_tasks_self]
    · rw [Node.put_tasks_of_ne _ hi, Node.hold_tasks, Node.put_tasks_of_ne _ hi]
      rfl
  cases hnone.symm.trans ht

/-- The ledger stands at the first chat's chunk when the second chat is billed. -/
theorem capture_refused {amount : Micros} : ∃ e, captureChunk config LocalChain.crypto
    (banked 1 50_000) (served 2 80_000).submit (chunk 2 80_000) amount none 0 = .error e := by
  rw [captureChunk_silent]
  cases hbank : bankPay config LocalChain.crypto (banked 1 50_000) (served 2 80_000).submit
    (chunk 2 80_000).pay (chunk 2 80_000).delta (chunk 2 80_000).appKey 0 with
  | error e => exact ⟨e, rfl⟩
  | ok chs =>
    obtain ⟨-, ⟨d, -, g⟩, -⟩ := bankPay_eq_ok.mp hbank
    have hledger : (banked 1 50_000).authorisedFor LocalChain.crypto
        (addressText LocalChain.client) (addressText LocalChain.worker) = 50_000 :=
      Channels.authorisedAt_insert_self _ _
    have hcovers := g.covers
    rw [chunk_delta (by decide)] at hcovers
    have hraised : satAdd 64 50_000 80_000 ≤ 80_000 := hledger ▸ hcovers
    exact absurd hraised (by decide)

/-- The node with both chats let through. -/
def crowded : Node :=
  (((resting.put 0 (some (served 1 50_000))).hold 1 (some (chunk 1 50_000))).put 1
    (some (served 2 80_000))).hold 2 (some (chunk 2 80_000))

theorem logged_crowded : Logged (Step config LocalChain.crypto rpc)
    (promised LocalChain.crypto ledger.contract clientEntry)
    (fun _ => Silent LocalChain.crypto ledger.contract clientEntry) resting
    [chunk 2 80_000, chunk 1 50_000] crowded := by
  have hfirst : Logged (Step config LocalChain.crypto rpc)
      (promised LocalChain.crypto ledger.contract clientEntry)
      (fun _ => Silent LocalChain.crypto ledger.contract clientEntry) resting [chunk 1 50_000]
      ((resting.put 0 (some (served 1 50_000))).hold 1 (some (chunk 1 50_000))) :=
    logged_lock .refl rfl rfl (by decide) (by decide) trivial (fun _ => trivial)
      fun _ _ _ => trivial
  exact logged_lock hfirst rfl rfl (by decide) (by decide) trivial (fun _ => trivial)
    fun _ _ _ => trivial

/-- The same node when the first chat is captured. -/
def relieved : Node :=
  { (crowded.put 0 none).hold 1 none with channels := banked 1 50_000 }

theorem logged_relieved : Logged (Step config LocalChain.crypto rpc)
    (promised LocalChain.crypto ledger.contract clientEntry)
    (fun _ => Silent LocalChain.crypto ledger.contract clientEntry) resting
    [chunk 2 80_000, chunk 1 50_000] relieved := by
  have htask : crowded.tasks 0 = some (served 1 50_000) := by
    rw [crowded, Node.hold_tasks, Node.put_tasks_of_ne _ Nat.zero_ne_one, Node.hold_tasks,
      Node.put_tasks_self]
  have hbond : crowded.bonds 1 = some (chunk 1 50_000) := by
    rw [crowded, Node.hold_bonds_of_ne _ (by decide), Node.put_bonds, Node.hold_bonds_self]
  exact logged_capture logged_crowded rfl (by decide) Nat.one_pos htask hbond trivial
    (fun _ _ _ => by rintro p ⟨⟩)

theorem relieved_tasks (hi : i ≠ 1) : relieved.tasks i = none := by
  have hleft : (crowded.put 0 none).tasks i = none := by
    by_cases hfirst : i = 0
    · rw [hfirst, Node.put_tasks_self]
    · rw [Node.put_tasks_of_ne _ hfirst, crowded, Node.hold_tasks, Node.put_tasks_of_ne _ hi,
        Node.hold_tasks, Node.put_tasks_of_ne _ hfirst]
      rfl
  exact hleft

/-- Two chats are let through on the same money. -/
theorem two_chats_one_chunk :
    ¬ BanksEveryChunk config LocalChain.crypto rpc clientEntry resting := by
  intro hbanks
  have htask : relieved.tasks 1 = some (served 2 80_000) := by
    have hleft : (crowded.put 0 none).tasks 1 = some (served 2 80_000) := by
      rw [Node.put_tasks_of_ne _ Nat.one_ne_zero, crowded, Node.hold_tasks, Node.put_tasks_self]
    exact hleft
  have hbond : relieved.bonds 2 = some (chunk 2 80_000) := by
    have hleft : ((crowded.put 0 none).hold 1 none).bonds 2 = some (chunk 2 80_000) := by
      rw [Node.hold_bonds_of_ne _ (by decide), Node.put_bonds, crowded, Node.hold_bonds_self]
    exact hleft
  -- the second chat is billed, and its chunk is refused
  obtain ⟨e, hrefused⟩ : ∃ e, captureChunk config LocalChain.crypto
      relieved.channels (served 2 80_000).submit (chunk 2 80_000) (billed (chunk 2 80_000) 1) none 0 =
      .error e := capture_refused
  have hinvoiced := logged_relieved.tail (a := Event.invoice 1 1) trivial
    (step_invoice Nat.one_pos htask hbond)
  have hbilled := (relieved.put 1 (some { served 2 80_000 with
    phase := .invoiced (chunk 2 80_000) (billed (chunk 2 80_000) 1) })).hold_tasks 2 none
  have hend := hinvoiced.tail (a := Event.capture 1 none 0) (by rintro p ⟨⟩)
    (.unbanked ((congrFun hbilled 1).trans (Node.put_tasks_self _ _ _)) rfl hrefused)
  have hlow := hbanks _ _ hend ?_
  · have hsum : 0 + ((chunk 2 80_000).delta + ((chunk 1 50_000).delta + 0)) ≤ 50_000 :=
      hlow.trans (Channels.authorisedAt_insert_self _ _).le
    rw [chunk_delta (by decide), chunk_delta (by decide)] at hsum
    exact absurd hsum (by decide)
  · rintro i ⟨t, ht, -⟩
    have hnone : (((relieved.put 1 (some { served 2 80_000 with
        phase := .invoiced (chunk 2 80_000) (billed (chunk 2 80_000) 1) })).hold 2 none).put 1
        none).tasks i = none := by
      by_cases hi : i = 1
      · rw [hi, Node.put_tasks_self]
      · rw [Node.put_tasks_of_ne _ hi, Node.hold_tasks, Node.put_tasks_of_ne _ hi]
        exact relieved_tasks hi
    cases hnone.symm.trans ht

end Local

end Rootmode.Worker
