import Rootmode.Desktop.Pot

namespace Rootmode.Desktop

open Lib Lib.Checked Lib.Text Payments Worker

/-- What a bond is issued on: the pot, the account and the channel as they were read, and what the job
may cost. -/
structure Terms where
  cfg : ChainConfig
  st : PotStatus
  ch : ChannelSnap
  need : Micros

namespace Terms

variable (t : Terms) (client payout : Text) (w : Wallet)

/-- What is authorised already. -/
def authorised : Micros := max (cachedCumulative w t.cfg client payout) t.ch.onChain

def cumulative : Micros := satAdd 64 (t.authorised client payout w) t.need

/-- The lock the bond asks for. -/
def lockNeed : Micros := max (t.cumulative client payout w - t.ch.earned) 1

/-- What is added to the lock. -/
def extra : Micros :=
  reserveExtra t.ch.remaining (t.lockNeed client payout w) t.st.balanceMicros (raisesCap t.st t.ch)

end Terms

section Issued

variable (C : Crypto) (o : Outside) (jobId : Uuid) (price : Price) (kind : JobKind)
  (payload : JobPayload) (client payout : Text) (w : Wallet)

/-- Everything `issueTicket` reads, checks and signs. -/
structure Issued (t : Terms) (bond : JobPay) (reserve : Option ReservePost) (w' : Wallet) : Prop where
  config : o.config = some t.cfg
  status : o.status = .ok t.st
  channel : channelWithRetry o.channel = .ok t.ch
  fits : jobCap price kind payload t.st t.ch = .ok t.need
  covered : t.lockNeed client payout w ≤ satAdd 64 t.ch.remaining (t.extra client payout w)
  reserved : signReserveIfNeeded C o t.cfg client payout t.ch (t.lockNeed client payout w)
    t.st.balanceMicros (raisesCap t.st t.ch) = .ok reserve
  signed : ∃ signed, signLatest C o t.cfg client payout (t.cumulative client payout w) = .ok signed ∧
    bond = jobPay jobId signed
  wallet : w' = (w.sign ⟨jobId, t.cfg.pot, bond.ticket, .bond t.ch.onChain t.need⟩).setJob jobId
    (some { price, kind, paid := false, sha256 := none, ceiling := t.need, jobCap := t.need
            cost := none, payout, bondCumulative := t.cumulative client payout w })

variable {C} {o} {jobId} {price} {kind} {payload} {client} {payout} {w} {bond : JobPay}
  {reserve : Option ReservePost} {w' : Wallet} {cfg : ChainConfig} {t : Terms}
  {cumulative : Micros} {signed : SpendTicket × Text}

theorem issueTicket_eq_ok :
    issueTicket C o jobId price kind payload client payout w = .ok ((bond, reserve), w') ↔
      ∃ t, Issued C o jobId price kind payload client payout w t bond reserve w' := by
  simp only [issueTicket, bind_eq_ok, demand_eq_ok, require_eq_ok]
  constructor
  · rintro ⟨cfg, hcfg, st, hst, ch, hch, need, hneed, -, hcovered, reserve', hreserve, signed,
      hsigned, h⟩
    cases h
    exact ⟨⟨cfg, st, ch, need⟩, hcfg, hst, hch, hneed, hcovered, hreserve, ⟨signed, hsigned, rfl⟩, rfl⟩
  · rintro ⟨⟨cfg, st, ch, need⟩, hcfg, hst, hch, hneed, hcovered, hreserve, ⟨signed, hsigned, rfl⟩, rfl⟩
    exact ⟨cfg, hcfg, st, hst, ch, hch, need, hneed, ⟨⟩, hcovered, reserve, hreserve, signed, hsigned,
      rfl⟩

/-- What a signed ticket says, and that its signature is the app key's. -/
theorem signLatest_eq_ok : signLatest C o cfg client payout cumulative = .ok signed ↔
    ∃ key digest, o.key = .ok key ∧ key digest = .ok signed.2 ∧
      signed.1.digest C cfg.domain = .ok digest ∧
      signed.1 =
        { client, workerPayout := payout, cumulative, deadline := o.now + ticketTtlSecs } := by
  simp only [signLatest, bind_eq_ok, mapError_eq_ok]
  constructor
  · rintro ⟨key, hkey, digest, hdigest, sig, hsig, h⟩
    cases h
    exact ⟨key, digest, hkey, hsig, hdigest, rfl⟩
  · obtain ⟨ticket, sig⟩ := signed
    rintro ⟨key, digest, hkey, hsig, hdigest, rfl⟩
    exact ⟨key, hkey, digest, hdigest, sig, hsig, rfl⟩

theorem Issued.ticket (h : Issued C o jobId price kind payload client payout w t bond reserve w') :
    bond.ticket = { client, workerPayout := payout, cumulative := t.cumulative client payout w
                    deadline := o.now + ticketTtlSecs } := by
  obtain ⟨signed, hsigned, rfl⟩ := h.signed
  obtain ⟨-, -, -, -, -, hticket⟩ := signLatest_eq_ok.mp hsigned
  exact hticket

theorem Issued.sameJob (h : Issued C o jobId price kind payload client payout w t bond reserve w') :
    bond.jobId = jobId := by
  obtain ⟨signed, -, rfl⟩ := h.signed
  rfl

end Issued

section Ready

variable (C : Crypto) (cfg : ChainConfig) (client : Text)

/-- The machine knows its pot and its payer, and signs with its app key. -/
structure Ready (o : Outside) : Prop where
  config : o.config = some cfg
  client : ∃ st, o.status = .ok st ∧ st.client = some client
  signs : ∃ key, o.key = .ok key ∧ ∀ digest, ∃ sig signer, key digest = .ok sig ∧
    Payments.recover C digest (ofString "0x" ++ sig) = .ok signer

variable {C} {cfg} {client} {o : Outside} {payout : Text}

variable (C) (cfg) (client) (payout) in
/-- The addresses a ticket between the two names can be read. -/
def Legible : Prop :=
  ∃ c p s, wordAddress client = .ok c ∧ wordAddress payout = .ok p ∧
    cfg.domain.separatorNamed C potDomainName = .ok s

theorem spend_legible {a : SpendTicket} :
    (∃ digest, a.digest C cfg.domain = .ok digest) ↔ Legible C cfg a.client a.workerPayout := by
  simp only [SpendTicket.digest, digestOfNamed, bind_eq_ok]
  constructor
  · rintro ⟨-, c, hc, p, hp, s, hs, -⟩
    exact ⟨c, p, s, hc, hp, hs⟩
  · rintro ⟨c, p, s, hc, hp, hs⟩
    exact ⟨_, c, hc, p, hp, s, hs, rfl⟩

theorem reserve_legible {a : ReserveTicket} (h : Legible C cfg a.client a.workerPayout) :
    ∃ digest, a.digest C cfg.domain = .ok digest := by
  obtain ⟨c, p, s, hc, hp, hs⟩ := h
  simp only [ReserveTicket.digest, digestOfNamed, bind_eq_ok]
  exact ⟨_, c, hc, p, hp, s, hs, rfl⟩

theorem signLatest_ready (cumulative : Micros) (hready : Ready C cfg client o)
    (h : Legible C cfg client payout) :
    ∃ sig, signLatest C o cfg client payout cumulative = .ok
      ({ client, workerPayout := payout, cumulative, deadline := o.now + ticketTtlSecs }, sig) := by
  obtain ⟨key, hkey, hsigns⟩ := hready.signs
  let b : SpendTicket :=
    { client, workerPayout := payout, cumulative, deadline := o.now + ticketTtlSecs }
  obtain ⟨digest, hdigest⟩ : ∃ digest, b.digest C cfg.domain = .ok digest := spend_legible.mpr h
  obtain ⟨sig, -, hsig, -⟩ := hsigns digest
  exact ⟨sig, signLatest_eq_ok.mpr ⟨key, digest, hkey, hsig, hdigest, rfl⟩⟩

theorem signReserve_ready (ch : ChannelSnap) (need free : Micros) (raiseCaps : Bool)
    (hready : Ready C cfg client o) (h : Legible C cfg client payout) :
    ∃ reserve, signReserveIfNeeded C o cfg client payout ch need free raiseCaps = .ok reserve := by
  obtain ⟨key, hkey, hsigns⟩ := hready.signs
  let ticket : ReserveTicket :=
    { client, workerPayout := payout, deadline := o.now + ticketTtlSecs
      maxAmount := satAdd 64 ch.reserved (reserveExtra ch.remaining need free raiseCaps) }
  obtain ⟨digest, hdigest⟩ : ∃ digest, ticket.digest C cfg.domain = .ok digest := reserve_legible h
  obtain ⟨sig, -, hsig, -⟩ := hsigns digest
  unfold signReserveIfNeeded
  dsimp only
  split
  · exact ⟨none, rfl⟩
  · simp only [bind_eq_ok, mapError_eq_ok]
    exact ⟨_, key, hkey, digest, hdigest, sig, hsig, rfl⟩

theorem Issued.legible {jobId : Uuid} {price : Price} {kind : JobKind} {payload : JobPayload}
    {w w' : Wallet} {t : Terms} {bond : JobPay} {reserve : Option ReservePost}
    (h : Issued C o jobId price kind payload client payout w t bond reserve w') :
    Legible C t.cfg client payout := by
  obtain ⟨signed, hsigned, -⟩ := h.signed
  obtain ⟨-, digest, -, -, hdigest, hticket⟩ := signLatest_eq_ok.mp hsigned
  have hlegible := spend_legible.mp ⟨digest, hdigest⟩
  rwa [hticket] at hlegible

end Ready

section Caps

variable {price : Price} {kind : JobKind} {payload : JobPayload} {st : PotStatus} {ch : ChannelSnap}
  {need : Micros}

theorem jobLockMicros_pos : 0 < jobLockMicros price kind payload := by
  unfold jobLockMicros
  split
  · exact lt_max_of_lt_right Nat.one_pos
  · exact lt_max_of_lt_right Nat.one_pos

/-- A job's price fits the caps of the account and of the channel. -/
structure FitsCaps (price : Price) (kind : JobKind) (payload : JobPayload) (st : PotStatus)
    (ch : ChannelSnap) : Prop where
  account : jobLockMicros price kind payload ≤ st.cap
  channel : channelCap st ch ≠ 0 → jobLockMicros price kind payload ≤ channelCap st ch

theorem jobCap_eq_ok : jobCap price kind payload st ch = .ok need ↔
    (channelCap st ch = 0 ∨ kind = .llm ∨ chunkMicros price kind ≤ channelCap st ch) ∧
    need =
      if channelCap st ch = 0 then max (min (jobLockMicros price kind payload) st.cap) 1
      else min (max (min (jobLockMicros price kind payload) st.cap) 1) (channelCap st ch) := by
  unfold jobCap
  dsimp only
  by_cases hzero : channelCap st ch = 0
  · rw [if_pos hzero, if_pos hzero, Except.ok.injEq, eq_comm]
    simp only [hzero, true_or, true_and]
  · rw [if_neg hzero, if_neg hzero]
    by_cases hover : kind ≠ .llm ∧ channelCap st ch < chunkMicros price kind
    · rw [if_pos hover]
      simp only [reduceCtorEq, false_iff, not_and]
      intro hfits
      have := hfits.resolve_left hzero |>.resolve_left hover.1
      exact absurd this (not_le.mpr hover.2)
    · rw [if_neg hover, Except.ok.injEq, eq_comm, iff_and_self]
      intro _
      rw [not_and, not_lt] at hover
      by_cases hkind : kind = .llm
      · exact .inr (.inl hkind)
      · exact .inr (.inr (hover hkind))

/-- A job whose price fits is bonded at its price. -/
theorem need_of_fits (h : jobCap price kind payload st ch = .ok need)
    (hfits : FitsCaps price kind payload st ch) : need = jobLockMicros price kind payload := by
  have hpos : 0 < jobLockMicros price kind payload := jobLockMicros_pos
  have hlock : max (min (jobLockMicros price kind payload) st.cap) 1 =
      jobLockMicros price kind payload := by
    rw [min_eq_left hfits.account, max_eq_left hpos]
  rw [(jobCap_eq_ok.mp h).2, hlock]
  split
  · rfl
  · next hne => exact min_eq_left (hfits.channel hne)

end Caps

end Rootmode.Desktop
