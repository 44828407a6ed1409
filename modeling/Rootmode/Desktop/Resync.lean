import Rootmode.Desktop.Attempt
import Rootmode.Desktop.Issue
import Rootmode.Lib.Split

namespace Rootmode.Desktop

open Lib Lib.Checked Lib.Text Payments Worker Relation

section Refusals

/-- What a node says to a chunk that does not even pay for the prompt. -/
def shortChunk (raise : Micros) (already : Micros) (prompt : ℕ) (cost : Micros) : WorkerError :=
  let raise := dollars 4 raise
  let shown := dollars 4 cost
  .rejected s!"the prepaid ticket raises this channel by only {raise} (already authorised {already}), and the prompt alone is {prompt} tokens (about {shown} at this model's input rate)"

/-- What it says to one that does not raise the channel. -/
def noRise : WorkerError := .rejected "chunk ticket does not raise the authorised spend"

/-- What comes before the first dollar sign of a short chunk's refusal. -/
def opening : Text := ofString "rejected: the prepaid ticket raises this channel by only "

theorem splitFrom_opening (t : Text) :
    splitFrom (ofString "already authorised ") 0 [] (opening ++ t) =
      splitFrom (ofString "already authorised ") 0 opening t := by
  simp [opening, ofString, splitFrom]

/-- An amount is written in digits. -/
theorem not_mem_dollars (places : ℕ) (micros : Micros) : 'a' ∉ (dollars places micros).toList := by
  intro h
  have hdigits : ∀ n : ℕ, 'a' ∉ (toString n).toList := by
    intro n hn
    rw [toList_toString] at hn
    exact absurd (isDigit_of_mem hn) (by decide)
  simp only [dollars, String.toList_append, List.mem_append] at h
  rcases h with ((h | h) | h) | h
  · exact absurd h (by decide)
  · exact hdigits _ h
  · exact absurd h (by decide)
  · rw [show ∀ t : Text, (toString (String.ofList t)).toList = t from fun t => String.toList_ofList,
      List.mem_append] at h
    rcases h with h | h
    · exact absurd (List.eq_of_mem_replicate h) (by decide)
    · exact hdigits _ h

theorem shortChunk_text (raise already : Micros) (prompt : ℕ) (cost : Micros) :
    ∃ rest, ofString (shortChunk raise already prompt cost).text =
      opening ++ ((dollars 4 raise).toList ++ (ofString " (" ++
        (ofString "already authorised " ++ (Nat.toDigits 10 already ++ ')' :: rest)))) := by
  let shown := dollars 4 cost
  refine ⟨ofString s!", and the prompt alone is {prompt} tokens (about {shown} at this model's input rate)", ?_⟩
  have hself (s : String) : toString s = s := rfl
  have hopening : opening =
      "rejected: ".toList ++ "the prepaid ticket raises this channel by only ".toList := by decide
  have hbefore : " (already authorised ".toList = " (".toList ++ "already authorised ".toList := by
    decide
  have hafter : "), and the prompt alone is ".toList = ')' :: ", and the prompt alone is ".toList := by
    decide
  simp only [shortChunk, WorkerError.text, ofString, hself, String.toList_append, toList_toString,
    hopening, hbefore, hafter, List.append_assoc, List.cons_append, shown]

/-- The refusal of a short chunk names the node's total. -/
theorem authorisedIn_shortChunk {raise already : Micros} {prompt : ℕ} {cost : Micros}
    (hlt : already < 2 ^ 64) : authorisedIn (ofString (shortChunk raise already prompt cost).text) =
      (some already).filter fun n => 0 < n := by
  obtain ⟨rest, htext⟩ := shortChunk_text raise already prompt cost
  have hsep : ofString "already authorised " = 'a' :: ofString "lready authorised " := by decide
  obtain ⟨more, parts, hparts⟩ := splitFrom_head (ofString "already authorised ") 0
    (Nat.toDigits 10 already ++ [')']) rest
  have hsplit : (split (ofString "already authorised ")
      (ofString (shortChunk raise already prompt cost).text))[1]? =
      some (Nat.toDigits 10 already ++ ')' :: more) := by
    have hbetween : 'a' ∉ ofString " (" := by decide
    have hdigits : 'a' ∉ Nat.toDigits 10 already ++ [')'] := by
      intro h
      rcases List.mem_append.mp h with h | h
      · exact absurd (isDigit_of_mem h) (by decide)
      · exact absurd h (by decide)
    rw [htext, split, splitFrom_opening, hsep, splitFrom_avoid (not_mem_dollars 4 raise),
      splitFrom_avoid hbetween, splitFrom_sep, List.getElem?_cons_succ]
    rw [List.append_cons (Nat.toDigits 10 already) ')' rest, splitFrom_avoid hdigits,
      List.nil_append, ← hsep, hparts, List.getElem?_cons_zero, List.append_cons _ ')' more]
  rw [authorisedIn, hsplit, Option.bind_some, takeWhile_toDigits (by decide), parseU64_toDigits hlt]

end Refusals

section Verdict

variable (node : Config) (C : Crypto) (chs : Channels) (bonds : Bonds)

/-- What a node makes of a priced job before it looks at the chain. -/
def verdict (submit : JobSubmit) : Except WorkerError JobPayload := do
  let (delta, already, _) ← takeBond node C chs bonds submit
  clampToChunk node submit.payload delta already

/-- A job as the desktop sends it off. -/
def submitted (jobId : Uuid) (payload : JobPayload) (client : Text) (bond : JobPay)
    (reserve : Option ReservePost) : JobSubmit where
  jobId
  payload
  payer := some client
  bond := some bond
  reserve

/-- The node is paid on the desktop's pot, at the address the desktop pays. -/
structure SameChannel (cfg : ChainConfig) (payout : Text) : Prop where
  domain : ∃ d, node.payments.domain = some d ∧ ∀ t : SpendTicket, t.digest C d = t.digest C cfg.domain
  payout : ∀ address ∈ payoutOf node.payoutAddress, eqIgnoreAsciiCase payout address

/-- What a prompt costs at the node, nothing where the job has none. -/
def promptPrice : JobPayload → Micros
  | .llm params => promptMicros (advertisedPrice node (.llm params)) params.promptTokens
  | _ => 0

variable {node} {C} {chs} {bonds} {cfg : ChainConfig} {o : Outside} {jobId : Uuid} {price : Price}
  {payload : JobPayload} {client payout : Text} {w w' : Wallet} {t : Terms} {bond : JobPay}
  {reserve : Option ReservePost}

/-- The node can read the signature of what the desktop issues. -/
theorem Issued.readable {kind : JobKind}
    (h : Issued C o jobId price kind payload client payout w t bond reserve w')
    (hready : Ready C cfg client o) (hsame : SameChannel node C cfg payout) :
    ∃ d signer, node.payments.domain = some d ∧ bond.ticket.recover C d bond.sig = .ok signer := by
  obtain ⟨d, hd, hdigests⟩ := hsame.domain
  obtain ⟨signed, hsigned, rfl⟩ := h.signed
  obtain ⟨key, digest, hkey, hsig, hdigest, -⟩ := signLatest_eq_ok.mp hsigned
  obtain ⟨key', hkey', hsigns⟩ := hready.signs
  obtain rfl : key = key' := Except.ok.inj (hkey.symm.trans hkey')
  obtain rfl : t.cfg = cfg := Option.some.inj (h.config.symm.trans hready.config)
  obtain ⟨sig, signer, hsig', hrecover⟩ := hsigns digest
  obtain rfl : signed.2 = sig := Except.ok.inj (hsig.symm.trans hsig')
  refine ⟨d, signer, hd, ?_⟩
  simp only [SpendTicket.recover, bind_eq_ok]
  exact ⟨digest, (hdigests _).trans hdigest, hrecover⟩

theorem takeBond_issued {kind : JobKind}
    (h : Issued C o jobId price kind payload client payout w t bond reserve w')
    (hready : Ready C cfg client o) (hsame : SameChannel node C cfg payout) :
    takeBond node C chs bonds (submitted jobId payload client bond reserve) =
      if chs.authorisedFor C client payout < bond.ticket.cumulative then
        .ok (bond.ticket.cumulative - chs.authorisedFor C client payout,
          chs.authorisedFor C client payout, Function.update bonds jobId
            (some { pay := bond, appKey := []
                    delta := bond.ticket.cumulative - chs.authorisedFor C client payout }))
      else .error noRise := by
  obtain ⟨d, signer, hd, hrecover⟩ := h.readable hready hsame
  have hclient : bond.ticket.client = client := by rw [h.ticket]
  have hworker : bond.ticket.workerPayout = payout := by rw [h.ticket]
  have hpayer : ∀ payer ∈ some client, eqIgnoreAsciiCase client payer = true := by
    rintro payer ⟨⟩
    exact eqIgnoreAsciiCase_refl client
  split
  · next hrise =>
    refine takeBond_eq_ok.mpr ⟨bond, ⟨rfl, h.sameJob, ⟨d, signer, hd, hrecover⟩, ?_, ?_, ?_⟩, ?_⟩
    · rw [hworker]
      exact hsame.payout
    · rw [hclient]
      exact hpayer
    · rw [hclient, hworker]
      exact hrise
    · simp only [JobPay.rise, hclient, hworker, submitted, and_self]
  · next hflat =>
    have hpaid : (∀ address ∈ payoutOf node.payoutAddress, eqIgnoreAsciiCase payout address) ↔ True :=
      iff_true_intro hsame.payout
    simp only [takeBond, submitted, demand, require, h.sameJob, hd, hrecover, hclient, hworker, hpaid,
      iff_true_intro hpayer, hflat, bind, Except.bind, Except.mapError, noRise, if_true, if_false]

theorem verdict_issued {kind : JobKind}
    (h : Issued C o jobId price kind payload client payout w t bond reserve w')
    (hready : Ready C cfg client o) (hsame : SameChannel node C cfg payout) :
    verdict node C chs bonds (submitted jobId payload client bond reserve) =
      if chs.authorisedFor C client payout < bond.ticket.cumulative then
        clampToChunk node payload (bond.ticket.cumulative - chs.authorisedFor C client payout)
          (chs.authorisedFor C client payout)
      else .error noRise := by
  rw [verdict, takeBond_issued h hready hsame]
  split
  · rfl
  · rfl

theorem clampToChunk_ok_iff {raise already : Micros} (hpos : 0 < raise) :
    (∃ p, clampToChunk node payload raise already = .ok p) ↔ promptPrice node payload < raise := by
  cases payload with
  | llm params =>
    simp only [clampToChunk_llm, exists_and_left, exists_eq, and_true]
    exact Iff.rfl
  | image _ => simp [clampToChunk, promptPrice, hpos]
  | video _ => simp [clampToChunk, promptPrice, hpos]

theorem clampToChunk_error {raise already : Micros} {e : WorkerError}
    (h : clampToChunk node payload raise already = .error e) :
    ∃ prompt cost, e = shortChunk raise already prompt cost := by
  unfold clampToChunk at h
  split at h
  · dsimp only at h
    split at h
    · exact ⟨_, _, (Except.error.inj h).symm⟩
    · cases h
  · cases h

end Verdict

section Bonds

variable (C : Crypto) (cfg : ChainConfig) (client payout : Text) (jobId : Uuid) (price : Price)
  (payload : JobPayload)

/-- The desktop issues a bond for a job whose price fits the caps it read. -/
structure Bonded (o : Outside) (w : Wallet) (ch : ChannelSnap) (bond : JobPay)
    (reserve : Option ReservePost) (w' : Wallet) : Prop where
  ready : Ready C cfg client o
  channel : channelWithRetry o.channel = .ok ch
  fits : ∀ st, o.status = .ok st → FitsCaps price payload.kind payload st ch
  issued : issueTicket C o jobId price payload.kind payload client payout w = .ok ((bond, reserve), w')

variable {C} {cfg} {client} {payout} {jobId} {price} {payload} {node : Config} {chs : Channels}
  {bonds : Bonds} {o : Outside} {w w' : Wallet} {ch : ChannelSnap} {bond : JobPay}
  {reserve : Option ReservePost} {theirs : Micros} {e : WorkerError}

theorem Bonded.terms (h : Bonded C cfg client payout jobId price payload o w ch bond reserve w') :
    ∃ t, Issued C o jobId price payload.kind payload client payout w t bond reserve w' ∧
      t.cumulative client payout w = satAdd 64 (max (cachedCumulative w cfg client payout) ch.onChain)
        (jobLockMicros price payload.kind payload) := by
  obtain ⟨t, ht⟩ := issueTicket_eq_ok.mp h.issued
  refine ⟨t, ht, ?_⟩
  obtain rfl : t.cfg = cfg := Option.some.inj (ht.config.symm.trans h.ready.config)
  obtain rfl : t.ch = ch := Except.ok.inj (ht.channel.symm.trans h.channel)
  rw [Terms.cumulative, Terms.authorised, need_of_fits ht.fits (h.fits t.st ht.status)]

/-- A bond passes where what it adds to the node's total is more than the prompt costs. -/
theorem Bonded.passes_iff (h : Bonded C cfg client payout jobId price payload o w ch bond reserve w')
    (hsame : SameChannel node C cfg payout) :
    (∃ p, verdict node C chs bonds (submitted jobId payload client bond reserve) = .ok p) ↔
      promptPrice node payload <
        bond.ticket.cumulative - chs.authorisedFor C client payout := by
  obtain ⟨t, ht, -⟩ := h.terms
  rw [verdict_issued ht h.ready hsame]
  split
  · next hrise => exact clampToChunk_ok_iff (Nat.sub_pos_of_lt hrise)
  · next hflat =>
    rw [Nat.sub_eq_zero_of_le (not_lt.mp hflat)]
    simp

/-- Only to a bond over its own total does the node name that. -/
theorem Bonded.refusal (h : Bonded C cfg client payout jobId price payload o w ch bond reserve w')
    (hsame : SameChannel node C cfg payout)
    (hrefused : verdict node C chs bonds (submitted jobId payload client bond reserve) = .error e) :
    authorisedIn (ofString e.text) =
      if chs.authorisedFor C client payout < bond.ticket.cumulative then
        (some (chs.authorisedFor C client payout)).filter fun n => 0 < n
      else none := by
  obtain ⟨t, ht, htotal⟩ := h.terms
  rw [verdict_issued ht h.ready hsame] at hrefused
  split at hrefused
  · next hrise =>
    have hword : bond.ticket.cumulative < 2 ^ 64 := by
      rw [ht.ticket, htotal]
      exact satAdd_lt 64 _ _
    obtain ⟨prompt, cost, rfl⟩ := clampToChunk_error hrefused
    rw [if_pos hrise, authorisedIn_shortChunk (hrise.trans hword)]
  · next hflat =>
    cases hrefused
    rw [if_neg hflat]
    decide

theorem cached_congr (h : w'.latest = w.latest) :
    cachedCumulative w' cfg client payout = cachedCumulative w cfg client payout := by
  rw [cachedCumulative, h, cachedCumulative]

/-- What a ticket on record says is what is on record. -/
theorem cached_setLatest {t : LatestTicket} (hpot : t.pot = cfg.pot)
    (hclient : t.ticket.client = client) :
    cachedCumulative (w.setLatest (channelKey client payout) t) cfg client payout =
      t.ticket.cumulative := by
  simp only [cachedCumulative, Wallet.setLatest, Function.update_self, Option.filter_some, hpot,
    hclient, eqIgnoreAsciiCase_refl, if_true, Option.map_some, Option.getD_some]

/-- The desktop is brought up to the total a refusal names, and past no total it has. -/
theorem cached_adopt {row : PendingJob} (message : Text) (hready : Ready C cfg client o)
    (hrow : w.jobs jobId = some row) (hpayout : row.payout = payout) (h : Legible C cfg client payout) :
    cachedCumulative (adoptAuthorised C o jobId message w) cfg client payout =
      max (cachedCumulative w cfg client payout) ((authorisedIn message).getD 0) := by
  obtain ⟨st, hst, hpayer⟩ := hready.client
  subst hpayout
  unfold adoptAuthorised
  cases hnamed : authorisedIn message with
  | none => simp
  | some theirs =>
    simp only [hrow, hready.config, hst, hpayer, Option.getD_some]
    split
    · next hle => exact (max_eq_left hle).symm
    · next hlt =>
      obtain ⟨sig, hsigned⟩ := signLatest_ready theirs hready h
      simp only [hsigned]
      rw [max_eq_right (not_le.mp hlt).le]
      exact cached_setLatest rfl rfl

end Bonds

section Resync

variable {C : Crypto} {cfg : ChainConfig} {client payout : Text} {jobId : Uuid} {price : Price}
  {payload : JobPayload} {node : Config} {chs : Channels} {bonds bonds₂ : Bonds} {o o₁ o₂ : Outside}
  {w w₁ w₂ w₃ : Wallet} {ch ch₂ : ChannelSnap} {bond bond₂ : JobPay}
  {reserve reserve₂ : Option ReservePost} {e : WorkerError}

/-- Nothing is adopted of a refusal that names no total, or names nothing. -/
theorem named_total (ours theirs : Micros) (c : Prop) [Decidable c] :
    max ours ((if c then (some theirs).filter fun n => 0 < n else none).getD 0) =
      if c then max ours theirs else ours := by
  by_cases hc : c
  · rw [if_pos hc, if_pos hc]
    cases theirs with
    | zero => rfl
    | succ n => rfl
  · rw [if_neg hc, if_neg hc]
    exact Nat.max_zero ours

/-- What the desktop remembers once it has read the refusal: the node's own total only where its bond
was over it. -/
theorem Bonded.adopts (hsame : SameChannel node C cfg payout)
    (h : Bonded C cfg client payout jobId price payload o w ch bond reserve w₁)
    (hrefused : verdict node C chs bonds (submitted jobId payload client bond reserve) = .error e)
    (hadopts : Ready C cfg client o₁) :
    cachedCumulative (adoptAuthorised C o₁ jobId (ofString e.text) w₁) cfg client payout =
      if chs.authorisedFor C client payout < bond.ticket.cumulative then
        max (cachedCumulative w cfg client payout) (chs.authorisedFor C client payout)
      else cachedCumulative w cfg client payout := by
  obtain ⟨t, ht, -⟩ := h.terms
  have hlegible := ht.legible
  obtain rfl : t.cfg = cfg := Option.some.inj (ht.config.symm.trans h.ready.config)
  have hlatest : cachedCumulative w₁ t.cfg client payout = cachedCumulative w t.cfg client payout := by
    rw [ht.wallet]
    rfl
  have hrow : ∃ row, w₁.jobs jobId = some row ∧ row.payout = payout := by
    rw [ht.wallet]
    exact ⟨_, Function.update_self _ _ _, rfl⟩
  obtain ⟨row, hrow, hpayout⟩ := hrow
  rw [cached_adopt (ofString e.text) hadopts hrow hpayout hlegible, h.refusal hsame hrefused, hlatest,
    named_total]

/-- The total the next bond starts from.  The node's own total, `theirs`, is taken over only where the
first bond was over it. -/
def resumesAt (theirs ours lock before after : Micros) : Micros :=
  max (if theirs < satAdd 64 (max ours before) lock then max ours theirs else ours) after

/-- Whatever the two remember, once a refusal was read the next bond for the job passes. -/
def Resyncs (node : Config) (C : Crypto) (chs : Channels) (cfg : ChainConfig) (client payout : Text)
    (jobId : Uuid) (price : Price) (payload : JobPayload) : Prop :=
  ∀ (bonds bonds₂ : Bonds) {o o₁ o₂ : Outside} {w w₁ w₂ w₃ : Wallet} {ch ch₂ : ChannelSnap}
    {bond bond₂ : JobPay} {reserve reserve₂ : Option ReservePost} {e : WorkerError},
    SameChannel node C cfg payout →
    cachedCumulative w cfg client payout < chs.authorisedFor C client payout →
    Bonded C cfg client payout jobId price payload o w ch bond reserve w₁ →
    verdict node C chs bonds (submitted jobId payload client bond reserve) = .error e →
    Ready C cfg client o₁ → w₂.latest = (adoptAuthorised C o₁ jobId (ofString e.text) w₁).latest →
    Bonded C cfg client payout jobId price payload o₂ w₂ ch₂ bond₂ reserve₂ w₃ →
    ∃ p, verdict node C chs bonds₂ (submitted jobId payload client bond₂ reserve₂) = .ok p

/-- A job whose bond a node refused is bonded again after the refusal was read.  The node takes the
new bond exactly where that raises its own total by more than the prompt costs. -/
theorem next_bond_passes_iff (hsame : SameChannel node C cfg payout)
    (hfirst : Bonded C cfg client payout jobId price payload o w ch bond reserve w₁)
    (hrefused : verdict node C chs bonds (submitted jobId payload client bond reserve) = .error e)
    (hadopts : Ready C cfg client o₁)
    (hlater : w₂.latest = (adoptAuthorised C o₁ jobId (ofString e.text) w₁).latest)
    (hnext : Bonded C cfg client payout jobId price payload o₂ w₂ ch₂ bond₂ reserve₂ w₃) :
    (∃ p, verdict node C chs bonds₂ (submitted jobId payload client bond₂ reserve₂) = .ok p) ↔
      promptPrice node payload <
        satAdd 64 (resumesAt (chs.authorisedFor C client payout) (cachedCumulative w cfg client payout)
          (jobLockMicros price payload.kind payload) ch.onChain ch₂.onChain)
          (jobLockMicros price payload.kind payload) - chs.authorisedFor C client payout := by
  obtain ⟨t, ht, htotal⟩ := hfirst.terms
  obtain ⟨t₂, ht₂, htotal₂⟩ := hnext.terms
  have hcumulative : bond.ticket.cumulative = t.cumulative client payout w := by rw [ht.ticket]
  have hcumulative₂ : bond₂.ticket.cumulative = t₂.cumulative client payout w₂ := by rw [ht₂.ticket]
  rw [hnext.passes_iff hsame, hcumulative₂, htotal₂, cached_congr hlater,
    hfirst.adopts hsame hrefused hadopts, hcumulative, htotal, resumesAt]

/-- The bond is not over the node's total, so that nothing is learnt of the refusal. -/
def Behind (chs : Channels) (C : Crypto) (cfg : ChainConfig) (client payout : Text) (lock onChain : Micros)
    (w : Wallet) : Prop :=
  satAdd 64 (max (cachedCumulative w cfg client payout) onChain) lock ≤ chs.authorisedFor C client payout

/-- A refused try at a job, on a channel of which the chain goes on showing one total. -/
inductive Refused (node : Config) (C : Crypto) (chs : Channels) (cfg : ChainConfig) (client payout : Text)
    (jobId : Uuid) (price : Price) (payload : JobPayload) (onChain : Micros) : Wallet → Wallet → Prop
  | again {o o₁ : Outside} {w w₁ w₂ : Wallet} {ch : ChannelSnap} {bond : JobPay}
      {reserve : Option ReservePost} {bonds : Bonds} {e : WorkerError} :
      Bonded C cfg client payout jobId price payload o w ch bond reserve w₁ → ch.onChain = onChain →
      verdict node C chs bonds (submitted jobId payload client bond reserve) = .error e →
      w₂.latest = (adoptAuthorised C o₁ jobId (ofString e.text) w₁).latest →
      Refused node C chs cfg client payout jobId price payload onChain w w₂

variable {onChain : Micros}

theorem refusal_of_behind (hsame : SameChannel node C cfg payout)
    (hbehind : Behind chs C cfg client payout (jobLockMicros price payload.kind payload) ch.onChain w)
    (h : Bonded C cfg client payout jobId price payload o w ch bond reserve w₁) :
    verdict node C chs bonds (submitted jobId payload client bond reserve) = .error noRise := by
  obtain ⟨t, ht, htotal⟩ := h.terms
  rw [verdict_issued ht h.ready hsame, if_neg]
  rw [ht.ticket, htotal]
  exact not_lt.mpr hbehind

theorem Refused.behind (hsame : SameChannel node C cfg payout)
    (h : Refused node C chs cfg client payout jobId price payload onChain w w₂)
    (hbehind : Behind chs C cfg client payout (jobLockMicros price payload.kind payload) onChain w) :
    Behind chs C cfg client payout (jobLockMicros price payload.kind payload) onChain w₂ := by
  cases h with
  | @again o o₁ _ w₁ _ ch bond reserve bonds e hbonded hrest hrefused hlater =>
    subst hrest
    rw [refusal_of_behind hsame hbehind hbonded] at hrefused
    cases hrefused
    obtain ⟨t, ht, -⟩ := hbonded.terms
    have hnone : authorisedIn (ofString noRise.text) = none := by decide
    have hkeeps : w₂.latest = w.latest := by
      rw [hlater, adoptAuthorised, hnone, ht.wallet]
      rfl
    rw [Behind, cached_congr hkeeps]
    exact hbehind

/-- A desktop that far behind is refused whenever it tries again. -/
theorem refused_for_ever (hsame : SameChannel node C cfg payout)
    (hbehind : Behind chs C cfg client payout (jobLockMicros price payload.kind payload) ch.onChain w)
    (hruns : ReflTransGen (Refused node C chs cfg client payout jobId price payload ch.onChain) w w₂)
    (hnext : Bonded C cfg client payout jobId price payload o w₂ ch bond reserve w₃) :
    verdict node C chs bonds (submitted jobId payload client bond reserve) = .error noRise := by
  have hstays : Behind chs C cfg client payout (jobLockMicros price payload.kind payload) ch.onChain
      w₂ := by
    clear hnext
    induction hruns with
    | refl => exact hbehind
    | tail _ hrefused ih => exact hrefused.behind hsame ih
  exact refusal_of_behind hsame hstays hnext

end Resync

section Local

open LocalNode

/-- The desktop whose three dollars are locked for the local node, and which signs with its app key. -/
def desk : Outside where
  config := some ⟨31337, addressText LocalChain.pot⟩
  status := .ok
    { client := some (addressText LocalChain.client), balanceMicros := 10_000_000
      maxPerJobMicros := 500_000 }
  channel _ := .ok { reserved := 3_000_000, paid := 0, earned := 0, maxPerJob := 500_000 }
  again _ := .ok { reserved := 3_000_000, paid := 0, earned := 0, maxPerJob := 500_000 }
  key := .ok fun digest => .ok (Hex.encode (LocalChain.sign LocalChain.app digest))
  now := 0

def deskChannel : ChannelSnap where
  reserved := 3_000_000
  paid := 0
  earned := 0
  maxPerJob := 500_000

def deskChain : ChainConfig := ⟨31337, addressText LocalChain.pot⟩

theorem desk_ready : Ready LocalChain.crypto deskChain (addressText LocalChain.client) desk where
  config := rfl
  client := ⟨_, rfl, rfl⟩
  signs := ⟨_, rfl, fun digest => ⟨_, _, rfl, recover_sigText LocalChain.app_ne_zero digest⟩⟩

theorem desk_same : SameChannel config LocalChain.crypto deskChain (addressText LocalChain.worker) where
  domain := ⟨domain, payments_domain, fun _ => rfl⟩
  payout := by
    intro address haddress
    rw [config_payout] at haddress
    cases haddress
    exact eqIgnoreAsciiCase_refl _

theorem chat_lock : jobLockMicros (Price.new 20) chat.kind chat = 3_000 := by decide +kernel

theorem desk_legible : Legible LocalChain.crypto deskChain (addressText LocalChain.client)
    (addressText LocalChain.worker) :=
  ⟨_, _, _, Chain.wordAddress_addressText _, Chain.wordAddress_addressText _, by
    simp only [Domain.separatorNamed, bind_eq_ok]
    exact ⟨_, Chain.wordAddress_addressText _, rfl⟩⟩

/-- What the desktop bonds the chat on. -/
def deskTerms : Terms where
  cfg := deskChain
  st := { client := some (addressText LocalChain.client), balanceMicros := 10_000_000
          maxPerJobMicros := 500_000 }
  ch := deskChannel
  need := 3_000

/-- As long as its own total is covered the desktop bonds the chat. -/
theorem desk_bonds (w : Wallet) (hcached : cachedCumulative w deskChain (addressText LocalChain.client)
      (addressText LocalChain.worker) ≤ 1_000_000) :
    ∃ bond reserve w', Bonded LocalChain.crypto deskChain (addressText LocalChain.client)
      (addressText LocalChain.worker) 7 (Price.new 20) chat desk w deskChannel bond reserve w' := by
  have hcovered : deskTerms.lockNeed (addressText LocalChain.client) (addressText LocalChain.worker) w ≤
      satAdd 64 deskTerms.ch.remaining
        (deskTerms.extra (addressText LocalChain.client) (addressText LocalChain.worker) w) := by
    have hstart : deskTerms.authorised (addressText LocalChain.client) (addressText LocalChain.worker) w ≤
        1_000_000 := max_le hcached (Nat.zero_le _)
    have htotal : deskTerms.cumulative (addressText LocalChain.client) (addressText LocalChain.worker) w ≤
        1_000_000 + 3_000 := (Nat.min_le_left _ _).trans (Nat.add_le_add_right hstart _)
    have hneed : deskTerms.lockNeed (addressText LocalChain.client) (addressText LocalChain.worker) w ≤
        3_000_000 := max_le ((Nat.sub_le _ _).trans (htotal.trans (by decide))) (by decide)
    exact hneed.trans (le_satAdd (by decide) _)
  obtain ⟨sig, hsigned⟩ := signLatest_ready
    (deskTerms.cumulative (addressText LocalChain.client) (addressText LocalChain.worker) w)
    desk_ready desk_legible
  obtain ⟨reserve, hreserve⟩ := signReserve_ready deskTerms.ch
    (deskTerms.lockNeed (addressText LocalChain.client) (addressText LocalChain.worker) w)
    deskTerms.st.balanceMicros (raisesCap deskTerms.st deskTerms.ch) desk_ready desk_legible
  have hcap : jobCap (Price.new 20) chat.kind chat deskTerms.st deskTerms.ch = .ok 3_000 := by
    decide +kernel
  refine ⟨_, reserve, _, desk_ready, rfl, ?_, issueTicket_eq_ok.mpr ⟨deskTerms, rfl, rfl, rfl, hcap,
    hcovered, hreserve, ⟨_, hsigned, rfl⟩, rfl⟩⟩
  rintro st ⟨⟩
  constructor
  · decide +kernel
  · intro _
    decide +kernel

/-- The node's ledger once so much is authorised. -/
def ledgerAt (authorised : Micros) : Channels :=
  let id := ledger.idFor LocalChain.crypto (addressText LocalChain.client)
    (addressText LocalChain.worker)
  ledger.insert id
    { channelId := id
      client := addressText LocalChain.client
      authorised
      reserved := authorised
      latest := { channelId := id, client := addressText LocalChain.client, cumulative := authorised
                  metadataHash := Channels.noMetadata, sig := none }
      spend := none
      spendSig := none
      settled := 0
      updatedAt := 0
      contract := ledger.contract }

theorem ledgerAt_authorised (authorised : Micros) :
    (ledgerAt authorised).authorisedFor LocalChain.crypto (addressText LocalChain.client)
      (addressText LocalChain.worker) = authorised :=
  Channels.authorisedAt_insert_self _ _

/-- The first try at the chat where the node has more authorised than the desktop remembers, and
the next one. -/
theorem desk_retries {authorised : Micros} (hshort : 3_000 - authorised ≤ 1_000)
    (hsmall : authorised ≤ 1_000_000) :
    ∃ bond reserve w₁ e bond₂ reserve₂ w₂,
      Bonded LocalChain.crypto deskChain (addressText LocalChain.client)
        (addressText LocalChain.worker) 7 (Price.new 20) chat desk .empty deskChannel bond reserve w₁ ∧
      verdict config LocalChain.crypto (ledgerAt authorised) (fun _ => none)
        (submitted 7 chat (addressText LocalChain.client) bond reserve) = .error e ∧
      Bonded LocalChain.crypto deskChain (addressText LocalChain.client)
        (addressText LocalChain.worker) 7 (Price.new 20) chat desk
        (adoptAuthorised LocalChain.crypto desk 7 (ofString e.text) w₁) deskChannel bond₂ reserve₂ w₂ := by
  obtain ⟨bond, reserve, w₁, h⟩ := desk_bonds .empty (by decide)
  obtain ⟨t, ht, htotal⟩ := h.terms
  have hcumulative : bond.ticket.cumulative = 3_000 := by
    rw [ht.ticket, htotal, chat_lock]
    decide
  have hprompt : promptPrice config chat = 1_000 := by decide +kernel
  have hfails : ¬ ∃ p, verdict config LocalChain.crypto (ledgerAt authorised) (fun _ => none)
      (submitted 7 chat (addressText LocalChain.client) bond reserve) = .ok p := by
    rw [h.passes_iff desk_same, ledgerAt_authorised, hcumulative, hprompt]
    exact not_lt.mpr hshort
  obtain ⟨e, hrefused⟩ : ∃ e, verdict config LocalChain.crypto (ledgerAt authorised) (fun _ => none)
      (submitted 7 chat (addressText LocalChain.client) bond reserve) = .error e := by
    cases hverdict : verdict config LocalChain.crypto (ledgerAt authorised) (fun _ => none)
        (submitted 7 chat (addressText LocalChain.client) bond reserve) with
    | ok p => exact absurd ⟨p, hverdict⟩ hfails
    | error e => exact ⟨e, rfl⟩
  have hcached : cachedCumulative (adoptAuthorised LocalChain.crypto desk 7 (ofString e.text) w₁)
      deskChain (addressText LocalChain.client) (addressText LocalChain.worker) ≤ 1_000_000 := by
    rw [h.adopts desk_same hrefused desk_ready, ledgerAt_authorised]
    split
    · exact max_le (Nat.zero_le _) hsmall
    · exact Nat.zero_le _
  obtain ⟨bond₂, reserve₂, w₂, h₂⟩ := desk_bonds _ hcached
  exact ⟨bond, reserve, w₁, e, bond₂, reserve₂, w₂, h, hrefused, h₂⟩

/-- The refusal of a bond of three thousand over a total of two and a half names that total. -/
theorem desk_resyncs : ∃ bond reserve w₁ e bond₂ reserve₂ w₂,
    Bonded LocalChain.crypto deskChain (addressText LocalChain.client)
      (addressText LocalChain.worker) 7 (Price.new 20) chat desk .empty deskChannel bond reserve w₁ ∧
    verdict config LocalChain.crypto (ledgerAt 2_500) (fun _ => none)
      (submitted 7 chat (addressText LocalChain.client) bond reserve) = .error e ∧
    Bonded LocalChain.crypto deskChain (addressText LocalChain.client)
      (addressText LocalChain.worker) 7 (Price.new 20) chat desk
      (adoptAuthorised LocalChain.crypto desk 7 (ofString e.text) w₁) deskChannel bond₂ reserve₂ w₂ ∧
    ∃ p, verdict config LocalChain.crypto (ledgerAt 2_500) (fun _ => none)
      (submitted 7 chat (addressText LocalChain.client) bond₂ reserve₂) = .ok p := by
  obtain ⟨bond, reserve, w₁, e, bond₂, reserve₂, w₂, h, hrefused, h₂⟩ :=
    desk_retries (by decide : 3_000 - 2_500 ≤ 1_000) (by decide)
  refine ⟨bond, reserve, w₁, e, bond₂, reserve₂, w₂, h, hrefused, h₂, ?_⟩
  rw [next_bond_passes_iff desk_same h hrefused desk_ready rfl h₂, ledgerAt_authorised]
  decide +kernel

/-- Ten thousand ahead the node names nothing, and the desktop is refused again and again. -/
theorem desk_stuck :
    ¬ Resyncs config LocalChain.crypto (ledgerAt 10_000) deskChain (addressText LocalChain.client)
      (addressText LocalChain.worker) 7 (Price.new 20) chat ∧
    ∀ {w w' : Wallet} {bonds : Bonds} {bond : JobPay} {reserve : Option ReservePost},
      ReflTransGen (Refused config LocalChain.crypto (ledgerAt 10_000) deskChain
        (addressText LocalChain.client) (addressText LocalChain.worker) 7 (Price.new 20) chat
        deskChannel.onChain) .empty w →
      Bonded LocalChain.crypto deskChain (addressText LocalChain.client)
        (addressText LocalChain.worker) 7 (Price.new 20) chat desk w deskChannel bond reserve w' →
      verdict config LocalChain.crypto (ledgerAt 10_000) bonds
        (submitted 7 chat (addressText LocalChain.client) bond reserve) = .error noRise := by
  have hbehind : Behind (ledgerAt 10_000) LocalChain.crypto deskChain (addressText LocalChain.client)
      (addressText LocalChain.worker) (jobLockMicros (Price.new 20) chat.kind chat) deskChannel.onChain
      .empty := by
    rw [Behind, ledgerAt_authorised, chat_lock]
    decide
  obtain ⟨bond, reserve, w₁, e, bond₂, reserve₂, w₂, h, hrefused, h₂⟩ :=
    desk_retries (by decide : 3_000 - 10_000 ≤ 1_000) (by decide)
  constructor
  · intro hresyncs
    have hless : cachedCumulative Wallet.empty deskChain (addressText LocalChain.client)
        (addressText LocalChain.worker) < (ledgerAt 10_000).authorisedFor LocalChain.crypto
          (addressText LocalChain.client) (addressText LocalChain.worker) := by
      rw [ledgerAt_authorised]
      decide
    obtain ⟨p, hp⟩ := hresyncs _ (fun _ => none) desk_same hless h hrefused desk_ready rfl h₂
    rw [refused_for_ever desk_same hbehind (.single (.again h rfl hrefused rfl)) h₂] at hp
    cases hp
  · intro w w' bonds bond reserve hruns hnext
    exact refused_for_ever desk_same hbehind hruns hnext

end Local

end Rootmode.Desktop
