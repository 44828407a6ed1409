import Rootmode.Contracts.Locks
import Rootmode.Contracts.Payouts

namespace Rootmode.Pot

open Lib Lib.Checked Lib.TotalMap Lib.Transition

variable {τ : Type} {E : Deployment τ} {m : Msg} {c : Call} {w w' : World τ} {client workerPayout key : Address}

/-- A call that took effect, and the storage it found. -/
structure Deed where
  msg : Msg
  call : Call
  pot : Storage

def deeds (E : Deployment τ) (s : Chain τ) : Act → List Deed
  | .call m c => if (exec E m c s.world).isOk then [⟨m, c, s.world.pot⟩] else []
  | .token _ => []

inductive TicketKind
  | reserve
  | spend
  deriving DecidableEq

def TicketKind.typehash : TicketKind → String
  | .reserve => reserveTypehash
  | .spend => ticketTypehash

/-- A ticket as a call presents it. -/
structure Presented where
  kind : TicketKind
  amount : ℕ
  deadline : ℕ
  sig : Bytes

/-- The ticket that a call presents for a channel. -/
def Call.presents (client workerPayout : Address) : Call → Option Presented
  | .reserve c p amount deadline sig =>
    if c = client ∧ p = workerPayout then some ⟨.reserve, amount, deadline, sig⟩ else none
  | .commit c p amount deadline sig | .settle c p amount deadline sig =>
    if c = client ∧ p = workerPayout then some ⟨.spend, amount, deadline, sig⟩ else none
  | _ => none

/-- A ticket carries the signature of a key. -/
def Presented.SignedBy (E : Deployment τ) (client workerPayout key : Address) (t : Presented) : Prop :=
  recover E (ticketDigest E t.kind.typehash client workerPayout t.amount t.deadline) t.sig = .ok key

/-- The client itself put a key on its account. -/
def Deed.Names (client key : Address) (d : Deed) : Prop :=
  d.msg.sender = client ∧
    match d.call with
    | .deposit _ _ _ appKey | .depositWithPermit _ _ _ appKey _ _ _ _ | .setLimits _ _ appKey => appKey = key
    | _ => False

/-- The tickets that took effect on a channel, newest first. -/
def presented (client workerPayout : Address) (log : List Deed) : List Presented :=
  log.filterMap fun d => d.call.presents client workerPayout

def largest (kind : TicketKind) (ts : List Presented) : ℕ :=
  ((ts.filter (·.kind = kind)).map Presented.amount).foldr max 0

/-- What a client put into the contract with a call. -/
def Deed.putIn (client : Address) (d : Deed) : ℕ :=
  match d.call with
  | .deposit amount _ _ _ | .depositWithPermit amount _ _ _ _ _ _ _ => if d.msg.sender = client then amount else 0
  | _ => 0

/-- What a client got back from the contract with a call. -/
def Deed.takenOut (client : Address) (d : Deed) : ℕ :=
  match d.call with
  | .withdrawAll => if d.msg.sender = client then (d.pot.accounts client).balance else 0
  | _ => 0

/-- What a client has free, and everything that was ever locked for a worker and not given back. -/
def entrusted (client : Address) (s : Storage) : ℕ :=
  (s.accounts client).balance + ∑ workerPayout, (s.channels client workerPayout).reserved

section Tickets

variable {t : Presented} {ts : List Presented} {kind : TicketKind}

theorem largest_cons_of_kind (h : t.kind = kind) : largest kind (t :: ts) = max t.amount (largest kind ts) := by
  have hmeets : decide (t.kind = kind) = true := decide_eq_true h
  simp only [largest, List.filter_cons, hmeets, if_true, List.map_cons, List.foldr_cons]

theorem largest_cons_of_ne (h : t.kind ≠ kind) : largest kind (t :: ts) = largest kind ts := by
  have hmisses : decide (t.kind = kind) = false := decide_eq_false h
  simp only [largest, List.filter_cons, hmisses, Bool.false_eq_true, if_false]

/-- What a call that presents a ticket for a channel leaves there. -/
inductive Heeds (E : Deployment τ) (client workerPayout : Address) (a : Account) (ch ch' : Channel) (t : Presented) : Prop
  | reserve : t.kind = .reserve → t.SignedBy E client workerPayout a.appKey → a.appKey ≠ 0 →
      ch.appKey = 0 ∨ ch.appKey = a.appKey → ch'.appKey = a.appKey → ch'.earned = ch.earned →
      ch'.reserved = t.amount → Heeds E client workerPayout a ch ch' t
  | spend : t.kind = .spend → t.SignedBy E client workerPayout ch.appKey → ch.appKey ≠ 0 →
      ch.earned < t.amount → ch'.appKey = ch.appKey → ch'.earned = t.amount → ch'.reserved = ch.reserved →
      Heeds E client workerPayout a ch ch' t

theorem heeds_recognized {cumulative deadline : ℕ} {sig : Bytes}
    (g : RecognizeGuard E m client workerPayout cumulative deadline sig w.pot) {ch' : Channel}
    (hkey : ch'.appKey = (w.pot.channels client workerPayout).appKey) (hearned : ch'.earned = cumulative)
    (hreserved : ch'.reserved = (w.pot.channels client workerPayout).reserved) :
    Heeds E client workerPayout (w.pot.accounts client) (w.pot.channels client workerPayout) ch'
      ⟨.spend, cumulative, deadline, sig⟩ :=
  .spend rfl g.signed g.isOpen g.rises hkey hearned hreserved

theorem exec_presents (h : exec E m c w = .ok w') (ht : c.presents client workerPayout = some t) :
    Heeds E client workerPayout (w.pot.accounts client) (w.pot.channels client workerPayout)
      (w'.pot.channels client workerPayout) t := by
  have hrun := (exec_eq_ok.mp h).2
  cases c with
  | reserve c p amount deadline sig =>
    obtain ⟨⟨rfl, rfl⟩, hsome⟩ := Option.ite_none_right_eq_some.mp ht
    cases hsome
    simp only [run, Checked.bind_eq_ok, reserve_eq_ok, pure_eq_ok] at hrun
    obtain ⟨pot, ⟨g, rfl⟩, rfl⟩ := hrun
    rw [lock, Storage.setChannel_self]
    exact .reserve rfl g.signed g.hasKey g.sameKey rfl rfl rfl
  | commit c p amount deadline sig =>
    obtain ⟨⟨rfl, rfl⟩, hsome⟩ := Option.ite_none_right_eq_some.mp ht
    cases hsome
    obtain ⟨g, rfl⟩ := commit_eq_ok.mp hrun
    rw [recognized, Storage.setChannel_self]
    exact heeds_recognized g rfl rfl rfl
  | settle c p amount deadline sig =>
    obtain ⟨⟨rfl, rfl⟩, hsome⟩ := Option.ite_none_right_eq_some.mp ht
    cases hsome
    obtain ⟨g, hpay⟩ := settle_eq_ok.mp hrun
    rw [(pay_ok hpay).2.2.1, Storage.setChannel_self, recognized, Storage.setChannel_self]
    exact heeds_recognized g rfl rfl rfl
  | deposit | depositWithPermit | withdrawAll | setLimits | collect | requestClose | close => cases ht

/-- A call that presents no ticket for a channel locks nothing there and earns nothing. -/
theorem exec_silent (h : exec E m c w = .ok w') (ht : c.presents client workerPayout = none) :
    (w'.pot.channels client workerPayout).appKey = (w.pot.channels client workerPayout).appKey ∧
      (w'.pot.channels client workerPayout).earned = (w.pot.channels client workerPayout).earned ∧
      (w'.pot.channels client workerPayout).reserved ≤ (w.pot.channels client workerPayout).reserved := by
  rcases exec_channel h client workerPayout with hsame | htouch
  · rw [hsame]
    exact ⟨rfl, rfl, le_rfl⟩
  · generalize w'.pot.channels client workerPayout = ch at htouch ⊢
    cases htouch with
    | reserve | commit | settle =>
      rw [Call.presents, if_pos ⟨rfl, rfl⟩] at ht
      cases ht
    | collect | requestClose => exact ⟨rfl, rfl, le_rfl⟩
    | close _ hle => exact ⟨rfl, rfl, hle⟩

end Tickets

section Keys

theorem credited_appKey (a : Account) (amount maxPerJob maxPerDay : ℕ) (appKey : Address) :
    (credited a amount maxPerJob maxPerDay appKey).appKey = a.appKey ∨
      (credited a amount maxPerJob maxPerDay appKey).appKey = appKey := by
  by_cases h : appKey ≠ 0
  · exact .inr (if_pos h)
  · exact .inl (if_neg h)

theorem setAccount_cases {P : Account → Prop} (s : Storage) (d : Address) (a : Account) (hkeeps : P (s.accounts client))
    (hset : d = client → P a) : P ((s.setAccount d a).accounts client) := by
  by_cases h : client = d
  · subst h
    rw [Storage.setAccount_self]
    exact hset rfl
  · rw [Storage.setAccount_of_ne _ a h]
    exact hkeeps

theorem pay_accounts (h : pay E client workerPayout w = .ok w') : w'.pot.accounts = w.pot.accounts := by
  rw [(pay_ok h).2.2.1]
  rfl

/-- What a call may do to the key on an account. -/
def Rekeyed (client : Address) (d : Deed) (key key' : Address) : Prop := key' = key ∨ key' = 0 ∨ d.Names client key'

theorem rekeyed_credit {amount maxPerJob maxPerDay : ℕ} {appKey : Address} {s s' : Storage}
    (h : credit m amount maxPerJob maxPerDay appKey s = .ok s')
    (hnames : m.sender = client → (⟨m, c, s⟩ : Deed).Names client appKey) :
    Rekeyed client ⟨m, c, s⟩ (s.accounts client).appKey (s'.accounts client).appKey := by
  obtain ⟨-, rfl⟩ := credit_eq_ok.mp h
  refine setAccount_cases (P := fun a => Rekeyed client ⟨m, c, s⟩ (s.accounts client).appKey a.appKey) s m.sender _ ?_ ?_
  · exact .inl rfl
  · rintro rfl
    rcases credited_appKey (s.accounts m.sender) amount maxPerJob maxPerDay appKey with hkeeps | hset
    · exact .inl hkeeps
    · rw [hset]
      exact .inr (.inr (hnames rfl))

/-- A key comes onto an account by a call of the client only. -/
theorem exec_appKey (h : exec E m c w = .ok w') :
    Rekeyed client ⟨m, c, w.pot⟩ (w.pot.accounts client).appKey (w'.pot.accounts client).appKey := by
  have hrun := (exec_eq_ok.mp h).2
  have hsame : w'.pot.accounts = w.pot.accounts →
      Rekeyed client ⟨m, c, w.pot⟩ (w.pot.accounts client).appKey (w'.pot.accounts client).appKey := by
    intro haccounts
    rw [haccounts]
    exact .inl rfl
  have hset : ∀ (s : Storage) (d : Address) (a : Account), s.accounts = w.pot.accounts → (d = client → a.appKey = (w.pot.accounts d).appKey) →
      Rekeyed client ⟨m, c, w.pot⟩ (w.pot.accounts client).appKey ((s.setAccount d a).accounts client).appKey := by
    intro s d a hs hkey
    refine setAccount_cases (P := fun a => Rekeyed client _ _ a.appKey) s d a ?_ ?_
    · rw [hs]
      exact .inl rfl
    · rintro rfl
      exact .inl (hkey rfl)
  cases c with
  | deposit amount maxPerJob maxPerDay appKey =>
    exact rekeyed_credit (deposit_eq_ok.mp hrun).2.2 fun hm => ⟨hm, rfl⟩
  | depositWithPermit amount maxPerJob maxPerDay appKey deadline v r s =>
    exact rekeyed_credit (depositWithPermit_eq_ok.mp hrun).2.2 fun hm => ⟨hm, rfl⟩
  | withdrawAll =>
    rw [(withdrawAll_ok hrun).1]
    refine setAccount_cases (P := fun a => Rekeyed client _ _ a.appKey) w.pot m.sender _ ?_ ?_
    · exact .inl rfl
    · exact fun _ => .inr (.inl rfl)
  | setLimits maxPerJob maxPerDay appKey =>
    cases hrun
    refine setAccount_cases (P := fun a => Rekeyed client _ _ a.appKey) w.pot m.sender _ ?_ ?_
    · exact .inl rfl
    · rintro rfl
      by_cases hkey : appKey ≠ 0
      · exact .inr (.inr (by rw [if_pos hkey]; exact ⟨rfl, rfl⟩))
      · exact .inl (if_neg hkey)
  | reserve d p amount deadline sig =>
    simp only [run, Checked.bind_eq_ok, reserve_eq_ok, pure_eq_ok] at hrun
    obtain ⟨pot, ⟨-, rfl⟩, rfl⟩ := hrun
    exact hset w.pot d _ rfl fun _ => rfl
  | commit d p amount deadline sig =>
    obtain ⟨-, rfl⟩ := commit_eq_ok.mp hrun
    exact hset w.pot d _ rfl fun _ => Account.rolled_appKey _ _
  | settle d p amount deadline sig =>
    obtain ⟨-, hpay⟩ := settle_eq_ok.mp hrun
    rw [pay_accounts hpay]
    exact hset w.pot d _ rfl fun _ => Account.rolled_appKey _ _
  | collect d p => exact hsame (pay_accounts hrun)
  | requestClose p =>
    simp only [run, Checked.bind_eq_ok, requestClose_eq_ok, pure_eq_ok] at hrun
    obtain ⟨pot, ⟨-, -, -, -, rfl⟩, rfl⟩ := hrun
    exact hsame rfl
  | close d p =>
    simp only [run, Checked.bind_eq_ok, close_eq_ok, pure_eq_ok] at hrun
    obtain ⟨pot, ⟨-, -, -, -, rfl⟩, rfl⟩ := hrun
    exact hset w.pot d _ rfl fun _ => rfl

end Keys

section Sums

variable (s : Storage) (c p : Address)

theorem entrusted_setAccount (a : Account) : entrusted client (s.setAccount c a) +
    (if c = client then (s.accounts client).balance else 0) =
      entrusted client s + if c = client then a.balance else 0 := by
  simp only [entrusted, Storage.setAccount_channels]
  by_cases h : c = client
  · subst h
    rw [if_pos rfl, if_pos rfl, Storage.setAccount_self]
    omega
  · rw [if_neg h, if_neg h, Storage.setAccount_of_ne _ _ (Ne.symm h)]

theorem entrusted_setChannel (ch : Channel) : entrusted client (s.setChannel c p ch) +
    (if c = client then (s.channels client p).reserved else 0) =
      entrusted client s + if c = client then ch.reserved else 0 := by
  simp only [entrusted, Storage.setChannel_accounts]
  by_cases h : c = client
  · subst h
    have hrow : (s.setChannel c p ch).channels c = Function.update (s.channels c) p ch := Function.update_self ..
    have hsum := sum_update Channel.reserved (s.channels c) p ch
    rw [if_pos rfl, if_pos rfl, hrow]
    omega
  · have hrow : (s.setChannel c p ch).channels client = s.channels client := Function.update_of_ne (Ne.symm h) ..
    rw [if_neg h, if_neg h, hrow]

end Sums

section Books

theorem entrusted_empty : entrusted client {} = 0 := by
  have hchannels : ∑ p, (({} : Storage).channels client p).reserved = 0 := Finset.sum_eq_zero fun _ _ => rfl
  rw [entrusted, hchannels]

theorem entrusted_credit {amount maxPerJob maxPerDay : ℕ} {appKey : Address} {s s' : Storage}
    (h : credit m amount maxPerJob maxPerDay appKey s = .ok s') :
    entrusted client s' = entrusted client s + if m.sender = client then amount else 0 := by
  obtain ⟨-, rfl⟩ := credit_eq_ok.mp h
  have hset := @entrusted_setAccount client s m.sender (credited (s.accounts m.sender) amount maxPerJob maxPerDay appKey)
  by_cases hm : m.sender = client
  · subst hm
    simp only [if_true, credited] at hset ⊢
    omega
  · simpa only [if_neg hm, add_zero] using hset

theorem entrusted_lock {c p : Address} {amount deadline : ℕ} {sig : Bytes} {s : Storage}
    (g : ReserveGuard E m c p amount deadline sig s) : entrusted client (lock s c p amount deadline) = entrusted client s := by
  have hrises := g.rises
  have hfunded := g.funded
  set a : Account := { s.accounts c with
    balance := (s.accounts c).balance - (amount - (s.channels c p).reserved) } with ha
  have hacc := @entrusted_setAccount client s c a
  have hch := @entrusted_setChannel client (s.setAccount c a) c p ((s.channels c p).raised (s.accounts c) amount deadline)
  simp only [lock, ← ha]
  simp only [Storage.setAccount_channels, Channel.raised, ha] at *
  by_cases hc : c = client
  · subst hc
    simp only [if_true] at hacc hch
    omega
  · simp only [if_neg hc] at hacc hch
    omega

theorem entrusted_recognized (m : Msg) (s : Storage) (c p : Address) (cumulative : ℕ) :
    entrusted client (recognized m s c p cumulative) = entrusted client s := by
  set a : Account := { (s.accounts c).rolled m.timestamp with
    spentToday := ((s.accounts c).rolled m.timestamp).spentToday + (cumulative - (s.channels c p).earned) } with ha
  have hacc := @entrusted_setAccount client s c a
  have hch := @entrusted_setChannel client (s.setAccount c a) c p { s.channels c p with earned := cumulative }
  simp only [recognized, ← ha]
  simp only [Storage.setAccount_channels, ha, Account.rolled_balance] at *
  by_cases hc : c = client
  · subst hc
    omega
  · simp only [if_neg hc] at hacc hch
    omega

theorem entrusted_setChannel_same {s : Storage} {c p : Address} {ch : Channel}
    (h : ch.reserved = (s.channels c p).reserved) : entrusted client (s.setChannel c p ch) = entrusted client s := by
  have hch := @entrusted_setChannel client s c p ch
  by_cases hc : c = client
  · subst hc
    rw [h] at hch
    omega
  · simpa only [if_neg hc, add_zero] using hch

theorem entrusted_pay {c p : Address} (h : pay E c p w = .ok w') : entrusted client w'.pot = entrusted client w.pot := by
  rw [(pay_ok h).2.2.1]
  exact entrusted_setChannel_same rfl

theorem entrusted_unlock {s : Storage} {c p : Address} (hle : (s.channels c p).earned ≤ (s.channels c p).reserved) :
    entrusted client (unlock s c p) = entrusted client s := by
  set a : Account := { s.accounts c with balance := (s.accounts c).balance + (s.channels c p).unspent } with ha
  have hacc := @entrusted_setAccount client s c a
  have hch := @entrusted_setChannel client (s.setAccount c a) c p (s.channels c p).closed
  simp only [unlock, ← ha]
  simp only [Storage.setAccount_channels, Channel.closed, Channel.unspent, ha] at *
  by_cases hc : c = client
  · subst hc
    simp only [if_true] at hacc hch
    omega
  · simp only [if_neg hc] at hacc hch
    omega

theorem untouched {d : Deed} {s : Storage} (h : entrusted client s = entrusted client d.pot)
    (hout : d.takenOut client = 0) (hin : d.putIn client = 0) :
    entrusted client s + d.takenOut client = entrusted client d.pot + d.putIn client := by
  rw [h, hout, hin]

/-- Only the client's own deposits and withdrawals change what it has entrusted to the contract. -/
theorem exec_entrusted (h : exec E m c w = .ok w') :
    entrusted client w'.pot + (⟨m, c, w.pot⟩ : Deed).takenOut client =
      entrusted client w.pot + (⟨m, c, w.pot⟩ : Deed).putIn client := by
  have hrun := (exec_eq_ok.mp h).2
  cases c with
  | deposit amount maxPerJob maxPerDay appKey =>
    rw [entrusted_credit (deposit_eq_ok.mp hrun).2.2, Deed.takenOut, Deed.putIn, add_zero]
  | depositWithPermit amount maxPerJob maxPerDay appKey deadline v r s =>
    rw [entrusted_credit (depositWithPermit_eq_ok.mp hrun).2.2, Deed.takenOut, Deed.putIn, add_zero]
  | withdrawAll =>
    rw [(withdrawAll_ok hrun).1]
    have hset := @entrusted_setAccount client w.pot m.sender { w.pot.accounts m.sender with balance := 0, appKey := 0 }
    simp only [Deed.takenOut, Deed.putIn, ite_self] at hset ⊢
    by_cases hm : m.sender = client
    · subst hm
      exact hset
    · simpa only [if_neg hm] using hset
  | setLimits maxPerJob maxPerDay appKey =>
    cases hrun
    have hset := @entrusted_setAccount client w.pot m.sender { w.pot.accounts m.sender with
      maxPerJob, maxPerDay, appKey := if appKey ≠ 0 then appKey else (w.pot.accounts m.sender).appKey }
    refine untouched ?_ rfl rfl
    rw [setLimits]
    by_cases hm : m.sender = client
    · subst hm
      simp only [if_true] at hset
      exact Nat.add_right_cancel hset
    · simpa only [if_neg hm, add_zero] using hset
  | reserve d p amount deadline sig =>
    simp only [run, Checked.bind_eq_ok, reserve_eq_ok, pure_eq_ok] at hrun
    obtain ⟨pot, ⟨g, rfl⟩, rfl⟩ := hrun
    exact untouched (entrusted_lock g) rfl rfl
  | commit d p amount deadline sig =>
    obtain ⟨-, rfl⟩ := commit_eq_ok.mp hrun
    exact untouched (entrusted_recognized ..) rfl rfl
  | settle d p amount deadline sig =>
    obtain ⟨-, hpay⟩ := settle_eq_ok.mp hrun
    exact untouched ((entrusted_pay hpay).trans (entrusted_recognized ..)) rfl rfl
  | collect d p => exact untouched (entrusted_pay hrun) rfl rfl
  | requestClose p =>
    simp only [run, Checked.bind_eq_ok, requestClose_eq_ok, pure_eq_ok] at hrun
    obtain ⟨pot, ⟨-, -, -, -, rfl⟩, rfl⟩ := hrun
    exact untouched (entrusted_setChannel_same rfl) rfl rfl
  | close d p =>
    simp only [run, Checked.bind_eq_ok, close_eq_ok, pure_eq_ok] at hrun
    obtain ⟨pot, ⟨-, -, hle, -, rfl⟩, rfl⟩ := hrun
    exact untouched (entrusted_unlock hle) rfl rfl

end Books

section Runs

variable {s s' s₀ : Chain τ} {a : Act} {log : List Deed}

theorem deeds_of_ok (h : exec E m c s.world = .ok w) : deeds E s (.call m c) = [⟨m, c, s.world.pot⟩] := by
  rw [deeds, h]
  rfl

theorem deeds_of_error {e : Revert} (h : exec E m c s.world = .error e) : deeds E s (.call m c) = [] := by
  rw [deeds, h]
  rfl

theorem presented_cons (d : Deed) (log : List Deed) : presented client workerPayout (d :: log) =
    (d.call.presents client workerPayout).toList ++ presented client workerPayout log := by
  rw [presented, List.filterMap_cons]
  cases d.call.presents client workerPayout <;> rfl

/-- Whatever took effect on a channel was signed with one key, and the client itself put that key on its account. -/
structure Consents (E : Deployment τ) (client workerPayout : Address) (log : List Deed) (s : Storage) : Prop where
  account : (s.accounts client).appKey ≠ 0 → ∃ d ∈ log, d.Names client (s.accounts client).appKey
  named : (s.channels client workerPayout).appKey ≠ 0 →
    ∃ d ∈ log, d.Names client (s.channels client workerPayout).appKey
  signed : ∀ t ∈ presented client workerPayout log,
    t.SignedBy E client workerPayout (s.channels client workerPayout).appKey
  unopened : (s.channels client workerPayout).appKey = 0 → presented client workerPayout log = []
  earned : (s.channels client workerPayout).earned = largest .spend (presented client workerPayout log)
  reserved : (s.channels client workerPayout).reserved ≤ largest .reserve (presented client workerPayout log)

theorem Consents.exec (h : Consents E client workerPayout log w.pot) (hexec : exec E m c w = .ok w') :
    Consents E client workerPayout (⟨m, c, w.pot⟩ :: log) w'.pot := by
  have haccount : (w'.pot.accounts client).appKey ≠ 0 →
      ∃ d ∈ (⟨m, c, w.pot⟩ :: log : List Deed), d.Names client (w'.pot.accounts client).appKey := by
    intro hkey
    rcases exec_appKey hexec with hsame | hzero | hnames
    · rw [hsame] at hkey ⊢
      obtain ⟨d, hd, hnames⟩ := h.account hkey
      exact ⟨d, List.mem_cons_of_mem _ hd, hnames⟩
    · exact absurd hzero hkey
    · exact ⟨_, List.mem_cons_self, hnames⟩
  cases ht : c.presents client workerPayout with
  | none =>
    obtain ⟨hkey, hearned, hreserved⟩ := exec_silent hexec ht
    have hlog : presented client workerPayout (⟨m, c, w.pot⟩ :: log) = presented client workerPayout log := by
      rw [presented_cons, ht]
      rfl
    refine ⟨haccount, ?_, ?_, ?_, ?_, ?_⟩
    · rw [hkey]
      intro hopen
      obtain ⟨d, hd, hnames⟩ := h.named hopen
      exact ⟨d, List.mem_cons_of_mem _ hd, hnames⟩
    · rw [hkey, hlog]
      exact h.signed
    · rw [hkey, hlog]
      exact h.unopened
    · rw [hearned, hlog]
      exact h.earned
    · rw [hlog]
      exact hreserved.trans h.reserved
  | some t =>
    have hlog : presented client workerPayout (⟨m, c, w.pot⟩ :: log) = t :: presented client workerPayout log := by
      rw [presented_cons, ht]
      rfl
    cases exec_presents hexec ht with
    | reserve hkind hsigned hkeyed hsame hkey hearned hreserved =>
      refine ⟨haccount, ?_, ?_, ?_, ?_, ?_⟩
      · rw [hkey]
        exact fun hopen => (h.account hopen).imp fun d hd => ⟨List.mem_cons_of_mem _ hd.1, hd.2⟩
      · rw [hkey, hlog]
        refine List.forall_mem_cons.mpr ⟨hsigned, ?_⟩
        rcases hsame with hzero | hsame
        · rw [h.unopened hzero]
          exact List.forall_mem_nil _
        · rw [← hsame]
          exact h.signed
      · exact fun hzero => absurd (hkey.symm.trans hzero) hkeyed
      · rw [hearned, hlog, largest_cons_of_ne (by rw [hkind]; decide)]
        exact h.earned
      · rw [hreserved, hlog, largest_cons_of_kind hkind]
        exact le_max_left ..
    | spend hkind hsigned hopen hrises hkey hearned hreserved =>
      refine ⟨haccount, ?_, ?_, ?_, ?_, ?_⟩
      · rw [hkey]
        exact fun hopen => (h.named hopen).imp fun d hd => ⟨List.mem_cons_of_mem _ hd.1, hd.2⟩
      · rw [hkey, hlog]
        exact List.forall_mem_cons.mpr ⟨hsigned, h.signed⟩
      · exact fun hzero => absurd (hkey.symm.trans hzero) hopen
      · rw [hearned, hlog, largest_cons_of_kind hkind, ← h.earned, max_eq_left hrises.le]
      · rw [hreserved, hlog, largest_cons_of_ne (by rw [hkind]; decide)]
        exact h.reserved

theorem Consents.step (h : Consents E client workerPayout log s.world.pot) (hstep : Step E s a s') :
    Consents E client workerPayout (deeds E s a ++ log) s'.world.pot := by
  cases hstep with
  | call _ _ hexec =>
    rw [deeds_of_ok hexec]
    exact h.exec hexec
  | revert _ _ hexec =>
    rw [deeds_of_error hexec]
    exact h
  | token _ _ => exact h

theorem consents_genesis (h₀ : s₀.Genesis) (h : Logged (Step E) (deeds E) (fun _ _ _ => True) s₀ log s)
    (client workerPayout : Address) : Consents E client workerPayout log s.world.pot := by
  refine h.invariant (P := fun log s => Consents E client workerPayout log s.world.pot)
    (fun _ hstep hs => hs.step hstep) ?_
  rw [h₀]
  exact ⟨fun hkey => absurd rfl hkey, fun hkey => absurd rfl hkey, List.forall_mem_nil _, fun _ => rfl, rfl, le_rfl⟩

/-- Everything locked and everything earned on a channel is by tickets under one key, which the client itself put on
its account; what is earned is the largest amount signed for. -/
theorem spent_by_consent (h₀ : s₀.Genesis) (h : Logged (Step E) (deeds E) (fun _ _ _ => True) s₀ log s)
    (client workerPayout : Address) :
    (∀ t ∈ presented client workerPayout log,
      t.SignedBy E client workerPayout (s.world.pot.channels client workerPayout).appKey) ∧
    ((s.world.pot.channels client workerPayout).appKey ≠ 0 →
      ∃ d ∈ log, d.Names client (s.world.pot.channels client workerPayout).appKey) ∧
    (presented client workerPayout log ≠ [] → (s.world.pot.channels client workerPayout).appKey ≠ 0) ∧
    (s.world.pot.channels client workerPayout).earned = largest .spend (presented client workerPayout log) ∧
    (s.world.pot.channels client workerPayout).reserved ≤ largest .reserve (presented client workerPayout log) := by
  have hconsents := consents_genesis h₀ h client workerPayout
  exact ⟨hconsents.signed, hconsents.named, fun hne hzero => hne (hconsents.unopened hzero), hconsents.earned,
    hconsents.reserved⟩

open LocalChain in
/-- A quarter of a dollar is earned, as the last of the tickets says. -/
theorem spent_by_consent_quarter : ∃ log : List Deed,
    (quarter.world.pot.channels LocalChain.client worker).earned = 250_000 ∧
      (quarter.world.pot.channels LocalChain.client worker).earned =
        largest .spend (presented LocalChain.client worker log) ∧
      ∀ t ∈ presented LocalChain.client worker log, t.SignedBy deployment LocalChain.client worker app := by
  obtain ⟨log, hlog⟩ := quarter_runs.logged (deeds deployment)
  have hconsent := spent_by_consent start_genesis hlog LocalChain.client worker
  exact ⟨log, by decide, hconsent.2.2.2.1, hconsent.1⟩

/-- The books of a client agree with what was logged. -/
structure Booked (client : Address) (log : List Deed) (s : Storage) : Prop where
  balance : entrusted client s + (log.map (Deed.takenOut client)).sum = (log.map (Deed.putIn client)).sum

theorem Booked.exec (h : Booked client log w.pot) (hexec : exec E m c w = .ok w') :
    Booked client (⟨m, c, w.pot⟩ :: log) w'.pot := by
  have hchange := @exec_entrusted _ _ _ _ _ _ client hexec
  have hbalance := h.balance
  refine ⟨?_⟩
  rw [List.map_cons, List.map_cons, List.sum_cons, List.sum_cons]
  omega

theorem Booked.step (h : Booked client log s.world.pot) (hstep : Step E s a s') :
    Booked client (deeds E s a ++ log) s'.world.pot := by
  cases hstep with
  | call _ _ hexec =>
    rw [deeds_of_ok hexec]
    exact h.exec hexec
  | revert _ _ hexec =>
    rw [deeds_of_error hexec]
    exact h
  | token _ _ => exact h

theorem booked_genesis (h₀ : s₀.Genesis) (client : Address) : Booked client [] s₀.world.pot := by
  refine ⟨?_⟩
  rw [h₀, entrusted_empty]
  rfl

/-- A client can tell where everything it put in is: it took it out, has it free, or locked it for a worker, who earns
no more than the client's key signed for. -/
theorem books_balance (h₀ : s₀.Genesis) (h : Logged (Step E) (deeds E) (fun _ _ _ => True) s₀ log s)
    (client : Address) :
    entrusted client s.world.pot + (log.map (Deed.takenOut client)).sum = (log.map (Deed.putIn client)).sum := by
  have hbooked : Booked client log s.world.pot :=
    h.invariant (P := fun log s => Booked client log s.world.pot) (fun _ hstep hs => hs.step hstep)
      (booked_genesis h₀ client)
  exact hbooked.balance

open LocalChain in
theorem books_balance_quarter : ∃ log : List Deed,
    entrusted LocalChain.client quarter.world.pot + (log.map (Deed.takenOut LocalChain.client)).sum =
      (log.map (Deed.putIn LocalChain.client)).sum := by
  obtain ⟨log, hlog⟩ := quarter_runs.logged (deeds deployment)
  exact ⟨log, books_balance start_genesis hlog LocalChain.client⟩

end Runs

end Rootmode.Pot
