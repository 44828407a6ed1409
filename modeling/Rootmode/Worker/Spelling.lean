import Rootmode.Worker.Ledger
import Rootmode.Worker.TypedData

namespace Rootmode.Worker.Ledger

open Lib Lib.Bytes Lib.Checked Lib.Text Lib.Transition Payments Chain

/-- An address may come with its `0x` or without. -/
def has0x : Text → Bool
  | '0' :: 'x' :: _ => true
  | _ => false

/-- An address in lower case, with its `0x` or without. -/
def spelled (marked : Bool) (a : Address) : Text :=
  (if marked then ofString "0x" else []) ++ Hex.encode (bigEndian 20 a.toNat)

/-- Both spell the client's address with its `0x` or both without, and so the worker's. -/
def Alike (t u : Payments.SpendTicket) : Prop :=
  has0x t.client = has0x u.client ∧ has0x t.workerPayout = has0x u.workerPayout

instance (t u : Payments.SpendTicket) : Decidable (Alike t u) := inferInstanceAs (Decidable (_ ∧ _))

variable (C : Crypto)

/-- What is hashed to the entry of a ticket. -/
def entryBytes (contract : Text) (t : Payments.SpendTicket) : Bytes :=
  Hex.utf8 (lower t.client) ++ Hex.utf8 (lower t.workerPayout) ++ Hex.utf8 (lower contract)

/-- The digest's own bytes and what is hashed on the way to them. -/
def digestBytes (d : Domain) (t : Payments.SpendTicket) : List Bytes :=
  (Ticket.spend t).read.preimage C d.chainId (addressOf d.verifyingContract) ::
    (Ticket.spend t).read.hashed C d.chainId (addressOf d.verifyingContract)

/-- Everything that is hashed when a ticket is presented. -/
def Presented.hashed (p : Presented) (chs : Channels) : List Bytes :=
  entryBytes chs.contract p.ticket :: digestBytes C p.domain p.ticket

/-- One ticket, signed once, however its addresses are spelled. -/
def SameTicket (p q : Presented) : Prop :=
  ∃ digest, p.ticket.digest C p.domain = .ok digest ∧ q.ticket.digest C q.domain = .ok digest

/-- A ticket that was banked comes back with its `0x`s where they were. -/
def OneSpelling (s : State) : Act → Prop
  | .acceptSpend p => ∀ id q, (id, q) ∈ s.banked → SameTicket C p q → Alike p.ticket q.ticket
  | .settled _ _ => True

variable {C} {chs chs' : Channels} {d d' : Domain} {t t' : Payments.SpendTicket} {a b : Address}
  {u x y contract : Text} {marked marked' : Bool} {p q : Presented} {s s' : State} {act : Act}

section Texts

theorem has0x_append_strip0x (u : Text) :
    u = (if has0x u then ofString "0x" else []) ++ strip0x u := by
  unfold has0x
  split
  · rfl
  · next hno =>
    rcases Hex.strip0x_cases u with hsame | hprefix
    · exact hsame.symm
    · exact absurd hprefix (hno _)

theorem decode_of_wordAddress {w : Bytes} (h : Payments.wordAddress u = .ok w) :
    Hex.decode (strip0x u) = .ok (bigEndian 20 (addressOf u).toNat) := by
  obtain ⟨bytes, hbytes, hw⟩ := wordAddress_ok h
  rw [bigEndian_add 12 20 (by have := (addressOf u).isLt; omega)] at hw
  unfold Payments.wordAddress at h
  rw [hbytes] at h
  dsimp only at h
  split at h
  · cases h
    rw [hbytes, List.append_cancel_left hw]
  · cases h

/-- A text that names an address is told, up to case, by the address and its `0x`. -/
theorem lower_of_wordAddress {w : Bytes} (h : Payments.wordAddress u = .ok w) :
    lower u = spelled (has0x u) (addressOf u) := by
  have hrest : lower (strip0x u) = Hex.encode (bigEndian 20 (addressOf u).toNat) :=
    Hex.lower_of_decode (decode_of_wordAddress h)
  have hsplit : lower u =
      lower (if has0x u then ofString "0x" else []) ++ lower (strip0x u) := by
    conv_lhs => rw [has0x_append_strip0x u]
    exact List.map_append
  rw [hsplit, hrest, spelled]
  cases has0x u with
  | false => rfl
  | true => rfl

theorem encode_append_ne_0x :
    Hex.encode (bigEndian 20 b.toNat) ++ y ≠ ofString "0x" ++ x := by
  intro heq
  have hforty : (Hex.encode (bigEndian 20 b.toNat) ++ y).take 40 =
      Hex.encode (bigEndian 20 b.toNat) := List.take_left' (by simp)
  rw [heq] at hforty
  exact Hex.encode_ne_0x _ _ hforty.symm

theorem length_spelled (marked : Bool) (a : Address) :
    (spelled marked a).length = (if marked then 2 else 0) + 40 := by
  cases marked with
  | false => simp [spelled]
  | true => simp [spelled, ofString]

/-- A spelling is read off the text it begins. -/
theorem spelled_append_injective (h : spelled marked a ++ x = spelled marked' b ++ y) :
    marked = marked' ∧ a = b ∧ x = y := by
  have hmarked : marked = marked' := by
    cases marked with
    | false =>
      cases marked' with
      | false => rfl
      | true =>
        simp only [spelled, Bool.false_eq_true, if_false, if_true, List.nil_append,
          List.append_assoc] at h
        exact absurd h encode_append_ne_0x
    | true =>
      cases marked' with
      | true => rfl
      | false =>
        simp only [spelled, Bool.false_eq_true, if_false, if_true, List.nil_append,
          List.append_assoc] at h
        exact absurd h.symm encode_append_ne_0x
  subst hmarked
  obtain ⟨hspelled, hrest⟩ := List.append_inj h (by rw [length_spelled, length_spelled])
  exact ⟨rfl, addressText_injective (congrArg (ofString "0x" ++ ·) (List.append_cancel_left hspelled)),
    hrest⟩

end Texts

section Entries

/-- The entry is the hash of one text, the two spellings and the contract's. -/
theorem entryBytes_eq (hclient : ∃ w, Payments.wordAddress t.client = .ok w)
    (hpayout : ∃ w, Payments.wordAddress t.workerPayout = .ok w) :
    entryBytes contract t = Hex.utf8 (spelled (has0x t.client) (addressOf t.client) ++
      (spelled (has0x t.workerPayout) (addressOf t.workerPayout) ++ lower contract)) := by
  obtain ⟨w, hw⟩ := hclient
  obtain ⟨v, hv⟩ := hpayout
  rw [entryBytes, lower_of_wordAddress hw, lower_of_wordAddress hv]
  simp only [Hex.utf8, List.flatMap_append, List.append_assoc]

theorem entryBytes_eq_iff (ht : (Ticket.spend t).Named) (ht' : (Ticket.spend t').Named) :
    entryBytes contract t = entryBytes contract t' ↔
      Alike t t' ∧ addressOf t.client = addressOf t'.client ∧
        addressOf t.workerPayout = addressOf t'.workerPayout := by
  rw [entryBytes_eq ht.client ht.workerPayout, entryBytes_eq ht'.client ht'.workerPayout]
  constructor
  · intro h
    obtain ⟨hclient, haddress, hrest⟩ := spelled_append_injective (Hex.utf8_injective h)
    obtain ⟨hpayout, hto, -⟩ := spelled_append_injective hrest
    exact ⟨⟨hclient, hpayout⟩, haddress, hto⟩
  · rintro ⟨⟨hclient, hpayout⟩, haddress, hto⟩
    rw [hclient, hpayout, haddress, hto]

theorem entry_eq_iff : p.entry C chs = q.entry C chs ↔
    C.keccak256 (entryBytes chs.contract p.ticket) =
      C.keccak256 (entryBytes chs.contract q.ticket) := by
  constructor
  · intro h
    exact Pot.word_injective (Hex.encode_injective (List.append_cancel_left h))
  · intro h
    exact congrArg (fun k => ofString "0x" ++ Hex.encode (word k)) h

theorem entry_congr (h : chs'.contract = chs.contract) : p.entry C chs' = p.entry C chs := by
  rw [Presented.entry, Presented.entry, Channels.idFor, Channels.idFor, h]

theorem named_of_digest {digest : Bytes32} (h : t.digest C d = .ok digest) :
    (Ticket.spend t).Named ∧ ∃ w, Payments.wordAddress d.verifyingContract = .ok w := by
  have hmap := (Ticket.digest_eq_map C d (.spend t)).symm.trans h
  cases hbytes : (Ticket.spend t).preimage C d with
  | error e =>
    rw [hbytes] at hmap
    cases hmap
  | ok bytes => exact Ticket.named_of_preimage hbytes

theorem digest_eq_keccak {digest : Bytes32} (h : t.digest C d = .ok digest) :
    C.keccak256 ((Ticket.spend t).read.preimage C d.chainId (addressOf d.verifyingContract)) =
      digest := by
  obtain ⟨hnamed, w, hw⟩ := named_of_digest h
  obtain ⟨-, -, hword⟩ := wordAddress_ok hw
  have hmap := (Ticket.digest_eq_map C d (.spend t)).symm.trans h
  rw [Ticket.preimage_of_named hnamed hw] at hmap
  exact Except.ok.inj hmap

theorem Presented.Typed.sized (hp : p.Typed) : (Ticket.spend p.ticket).Sized :=
  ⟨hp.cumulative_lt, hp.deadline_lt⟩

theorem collides_of_sublists {xs xs' ys ys' : List Bytes} (hx : xs ⊆ xs') (hy : ys ⊆ ys')
    (h : Pot.Collides C xs ys) : Pot.Collides C xs' ys' := by
  obtain ⟨x, hxs, y, hys, hne, heq⟩ := h
  exact ⟨x, hx hxs, y, hy hys, hne, heq⟩

theorem ascii_ofList (cs : List Char) :
    ascii (String.ofList cs) = cs.map fun c => UInt8.ofNat c.toNat := by
  rw [ascii, String.toList_ofList]

/-- What is signed once is one ticket up to spelling, unless something collides. -/
theorem SameTicket.read_eq (hp : p.Typed) (hq : q.Typed) (h : SameTicket C p q) :
    (Ticket.spend p.ticket).read = (Ticket.spend q.ticket).read ∨
      Pot.Collides C (digestBytes C p.domain p.ticket) (digestBytes C q.domain q.ticket) := by
  obtain ⟨digest, hpdigest, hqdigest⟩ := h
  obtain ⟨hpnamed, v, hv⟩ := named_of_digest hpdigest
  obtain ⟨hqnamed, w, hw⟩ := named_of_digest hqdigest
  have hkeccak := (digest_eq_keccak hpdigest).trans (digest_eq_keccak hqdigest).symm
  rcases Pot.eq_or_collides (digestBytes C p.domain p.ticket) (digestBytes C q.domain q.ticket)
    (.head _) (.head _) hkeccak with hsame | hcollides
  · have hqpre := Ticket.preimage_of_named (C := C) hqnamed hw
    rw [← hsame] at hqpre
    rcases Ticket.preimage_injective hp.sized hq.sized hp.chainId_lt hq.chainId_lt
      (Ticket.preimage_of_named hpnamed hv) hqpre with ⟨hread, -⟩ | hcollides
    · exact .inl hread
    · exact .inr (collides_of_sublists (List.subset_cons_self _ _) (List.subset_cons_self _ _)
        hcollides)
  · exact .inr hcollides

/-- Two spellings of one ticket are banked on one entry exactly where they are alike. -/
theorem entry_eq_iff_alike (hp : p.Typed) (hq : q.Typed) (h : SameTicket C p q) :
    (p.entry C chs = q.entry C chs ↔ Alike p.ticket q.ticket) ∨
      Pot.Collides C (p.hashed C chs) (q.hashed C chs) := by
  rcases h.read_eq hp hq with hread | hcollides
  · obtain ⟨digest, hpdigest, hqdigest⟩ := h
    have hbytes : entryBytes chs.contract p.ticket = entryBytes chs.contract q.ticket ↔ _ :=
      entryBytes_eq_iff (named_of_digest hpdigest).1 (named_of_digest hqdigest).1
    have hclient : addressOf p.ticket.client = addressOf q.ticket.client :=
      congrArg Pot.Terms.client hread
    have hpayout : addressOf p.ticket.workerPayout = addressOf q.ticket.workerPayout :=
      congrArg Pot.Terms.workerPayout hread
    by_cases hsame : entryBytes chs.contract p.ticket = entryBytes chs.contract q.ticket
    · left
      refine ⟨fun _ => (hbytes.mp hsame).1, fun _ => ?_⟩
      rw [entry_eq_iff, hsame]
    · by_cases hentry : p.entry C chs = q.entry C chs
      · exact .inr ⟨_, .head _, _, .head _, hsame, entry_eq_iff.mp hentry⟩
      · left
        refine ⟨fun h => absurd h hentry, fun halike => ?_⟩
        exact absurd (hbytes.mpr ⟨halike, hclient, hpayout⟩) hsame
  · exact .inr (collides_of_sublists (List.subset_cons_self _ _) (List.subset_cons_self _ _) hcollides)

/-- Tickets between other parties are banked on other entries. -/
theorem entry_ne_of_addresses (hp : (Ticket.spend p.ticket).Named)
    (hq : (Ticket.spend q.ticket).Named)
    (h : (addressOf p.ticket.client, addressOf p.ticket.workerPayout) ≠
      (addressOf q.ticket.client, addressOf q.ticket.workerPayout)) :
    p.entry C chs ≠ q.entry C chs ∨ Pot.Collides C (p.hashed C chs) (q.hashed C chs) := by
  by_cases hentry : p.entry C chs = q.entry C chs
  · right
    refine ⟨_, .head _, _, .head _, ?_, entry_eq_iff.mp hentry⟩
    intro hsame
    obtain ⟨-, hclient, hpayout⟩ := (entryBytes_eq_iff hp hq).mp hsame
    exact h (Prod.ext hclient hpayout)
  · exact .inl hentry

end Entries

section Runs

variable (C) in
/-- What a state remembers of the tickets it has banked. -/
structure State.Told (s : State) : Prop where
  typed : ∀ id p, (id, p) ∈ s.banked → p.Typed
  entry : ∀ id p, (id, p) ∈ s.banked → p.entry C s.channels = id

variable (C) in
/-- No signed ticket was banked twice, unless something collides. -/
def State.BankedOnce (s : State) : Prop :=
  s.banked.Pairwise fun x y => SameTicket C x.2 y.2 →
    Pot.Collides C (digestBytes C x.2.domain x.2.ticket) (digestBytes C y.2.domain y.2.ticket)

theorem settled_contract (id : Text) (upto : Micros) :
    (chs.settled id upto).contract = chs.contract := by
  unfold Channels.settled
  split
  · rfl
  · rfl

theorem Step.same_contract (h : Step C s act s') : s'.channels.contract = s.channels.contract := by
  cases h with
  | accepted _ haccept => rw [(accept_eq_ok.mp haccept).2.2, Channels.insert_contract]
  | refused _ _ => rfl
  | settled _ => exact settled_contract _ _

theorem Step.told (h : Step C s act s') (hs : s.Told C) : s'.Told C where
  typed := by
    intro id p hmem
    cases h with
    | accepted hq _ =>
      rcases List.mem_cons.mp hmem with hnew | hold
      · cases hnew
        exact hq
      · exact hs.typed id p hold
    | refused _ _ => exact hs.typed id p hmem
    | settled _ => exact hs.typed id p hmem
  entry := by
    intro id p hmem
    rw [entry_congr h.same_contract]
    cases h with
    | accepted _ _ =>
      rcases List.mem_cons.mp hmem with hnew | hold
      · cases hnew
        rfl
      · exact hs.entry id p hold
    | refused _ _ => exact hs.entry id p hmem
    | settled _ => exact hs.entry id p hmem

/-- A ticket that was banked is refused in the spelling it had. -/
theorem not_accepted_again {earned : Micros} {id : Text} (hsound : s.Sound) (htold : s.Told C)
    (hmem : (id, q) ∈ s.banked) (hp : p.Typed) (hsame : SameTicket C p q)
    (halike : Alike p.ticket q.ticket) (h : p.accept C s.channels = .ok (earned, chs)) :
    Pot.Collides C (digestBytes C p.domain p.ticket) (digestBytes C q.domain q.ticket) := by
  rcases hsame.read_eq hp (htold.typed id q hmem) with hread | hcollides
  · obtain ⟨digest, hpdigest, hqdigest⟩ := hsame
    have hbytes : entryBytes s.channels.contract p.ticket =
        entryBytes s.channels.contract q.ticket :=
      (entryBytes_eq_iff (named_of_digest hpdigest).1 (named_of_digest hqdigest).1).mpr
        ⟨halike, congrArg Pot.Terms.client hread, congrArg Pot.Terms.workerPayout hread⟩
    have hentry : p.entry C s.channels = id := by
      rw [← htold.entry id q hmem, entry_eq_iff, hbytes]
    have hamount : p.ticket.cumulative = q.ticket.cumulative := congrArg Pot.Terms.amount hread
    have hrises := accepted_rises h
    rw [accepted_authorised h, hentry, hamount] at hrises
    exact absurd (hsound.banked_le id q hmem) (not_le.mpr hrises)
  · exact hcollides

theorem Step.bankedOnce (h : Step C s act s') (hone : OneSpelling C s act) (hsound : s.Sound)
    (htold : s.Told C) (hs : s.BankedOnce C) : s'.BankedOnce C := by
  cases h with
  | accepted hp haccept =>
    refine List.pairwise_cons.mpr ⟨?_, hs⟩
    rintro ⟨id, q⟩ hmem hsame
    exact not_accepted_again hsound htold hmem hp hsame (hone id q hmem hsame) haccept
  | refused _ _ => exact hs
  | settled _ => exact hs

/-- Where every ticket keeps its spelling, none is banked twice. -/
theorem bankedOnce_of_runs (h : Runs (restrict (Step C) (OneSpelling C)) (start contract) s) :
    s.BankedOnce C := by
  have hall : s.Sound ∧ s.Told C ∧ s.BankedOnce C := by
    refine h.invariant (P := fun s => s.Sound ∧ s.Told C ∧ s.BankedOnce C) ?_ ⟨?_, ?_, .nil⟩
    · rintro s act s' ⟨hone, hstep⟩ ⟨hsound, htold, hs⟩
      exact ⟨hstep.sound hsound, hstep.told htold, hstep.bankedOnce hone hsound htold hs⟩
    · exact sound_of_runs (C := C) (.refl _)
    · refine ⟨?_, ?_⟩
      · intro id p hmem
        cases hmem
      · intro id p hmem
        cases hmem
  exact hall.2.2

/-- Two spellings of a ticket have one entry where their `0x`s agree, other parties have other
entries, and in the runs that keep to one spelling a ticket is banked once. -/
theorem entry_spelling :
    (∀ {chs : Channels} {p q : Presented}, p.Typed → q.Typed → SameTicket C p q →
      (p.entry C chs = q.entry C chs ↔ Alike p.ticket q.ticket) ∨
        Pot.Collides C (p.hashed C chs) (q.hashed C chs)) ∧
    (∀ {chs : Channels} {p q : Presented}, (Ticket.spend p.ticket).Named →
      (Ticket.spend q.ticket).Named →
      (addressOf p.ticket.client, addressOf p.ticket.workerPayout) ≠
        (addressOf q.ticket.client, addressOf q.ticket.workerPayout) →
      p.entry C chs ≠ q.entry C chs ∨ Pot.Collides C (p.hashed C chs) (q.hashed C chs)) ∧
    ∀ {contract : Text} {s : State},
      Runs (restrict (Step C) (OneSpelling C)) (start contract) s → s.BankedOnce C :=
  ⟨entry_eq_iff_alike, entry_ne_of_addresses, bankedOnce_of_runs⟩

end Runs

section Local

/-- Who signed and when it expires is all that is checked. -/
theorem check_congr {sig key : Text} {now : ℕ} (hdeadline : t.deadline = t'.deadline)
    (hdigest : t.digest C d = t'.digest C d) : t.check C d sig key now = t'.check C d sig key now := by
  unfold Payments.SpendTicket.check Payments.SpendTicket.recover
  rw [hdeadline, hdigest]

/-- The same ticket, its client written without the `0x`. -/
def bare (p : Presented) : Presented :=
  { p with ticket := { p.ticket with client := bareText LocalChain.client } }

/-- A ticket of as much for another worker. -/
def other (p : Presented) : Presented :=
  { p with ticket := { p.ticket with workerPayout := addressText LocalChain.vault } }

theorem bare_typed (hp : p.Typed) : (bare p).Typed :=
  ⟨hp.cumulative_lt, hp.deadline_lt, hp.expectedDelta_lt, hp.chainId_lt⟩

theorem digest_bare (cumulative expectedDelta : Micros) :
    (bare (presented cumulative expectedDelta)).ticket.digest LocalChain.crypto LocalNode.domain =
      (presented cumulative expectedDelta).ticket.digest LocalChain.crypto LocalNode.domain := by
  have hclient : Payments.wordAddress (bareText LocalChain.client) =
      Payments.wordAddress (addressText LocalChain.client) := by
    rw [wordAddress_bareText, Chain.wordAddress_addressText]
  simp only [Payments.SpendTicket.digest, bare, presented, LocalNode.ticket, hclient]

theorem bare_same (cumulative expectedDelta : Micros) :
    SameTicket LocalChain.crypto (bare (presented cumulative expectedDelta))
      (presented cumulative expectedDelta) :=
  ⟨_, (digest_bare cumulative expectedDelta).trans LocalNode.digest_ticket, LocalNode.digest_ticket⟩

theorem bare_entry_ne (chs : Channels) (hcontract : chs.contract = addressText LocalChain.pot)
    (cumulative expectedDelta : Micros) :
    (bare (presented cumulative expectedDelta)).entry LocalChain.crypto chs ≠
      (presented cumulative expectedDelta).entry LocalChain.crypto chs := by
  rw [Ne, entry_eq_iff, hcontract]
  have hhash : LocalChain.hash (Hex.utf8 (lower (bareText LocalChain.client)) ++
      Hex.utf8 (lower (addressText LocalChain.worker)) ++
      Hex.utf8 (lower (addressText LocalChain.pot))) ≠
    LocalChain.hash (Hex.utf8 (lower (addressText LocalChain.client)) ++
      Hex.utf8 (lower (addressText LocalChain.worker)) ++
      Hex.utf8 (lower (addressText LocalChain.pot))) := by
    decide +kernel
  exact hhash

/-- The ledger of the local worker once a quarter of a dollar was banked. -/
def quarter : State where
  channels := kept (start (addressText LocalChain.pot)).channels 250_000 250_000
  banked := [((presented 250_000 250_000).entry LocalChain.crypto
    (start (addressText LocalChain.pot)).channels, presented 250_000 250_000)]

theorem quarter_runs : Runs (restrict (Step LocalChain.crypto) (OneSpelling LocalChain.crypto))
    (start (addressText LocalChain.pot)) quarter := by
  refine .single (a := .acceptSpend (presented 250_000 250_000)) ⟨?_, ?_⟩
  · intro id q hmem
    cases hmem
  · exact .accepted (presented_typed (by decide) (by decide))
      (presented_first _ (by decide) le_rfl)

/-- The ticket that was banked, without a `0x`. -/
theorem bare_accepted : ∃ chs, (bare (presented 250_000 250_000)).accept LocalChain.crypto
    quarter.channels = .ok (250_000, chs) := by
  have hnone : quarter.channels.opened ((bare (presented 250_000 250_000)).entry LocalChain.crypto
      quarter.channels) = none := by
    rw [show quarter.channels = kept (start (addressText LocalChain.pot)).channels 250_000 250_000
      from rfl, kept, Channels.insert_opened_of_ne]
    · rfl
    · exact bare_entry_ne _ rfl 250_000 250_000
  have hnothing : quarter.channels.authorisedAt ((bare (presented 250_000 250_000)).entry
      LocalChain.crypto quarter.channels) = 0 := by
    rw [Channels.authorisedAt, hnone]
    rfl
  refine ⟨_, accept_eq_ok.mpr ⟨⟨?_, ?_, ?_, ?_⟩, rfl, rfl⟩⟩
  · have hcheck : (bare (presented 250_000 250_000)).ticket.check LocalChain.crypto LocalNode.domain
        (presented 250_000 250_000).sig (addressText LocalChain.app) 1_000_000 =
      (presented 250_000 250_000).ticket.check LocalChain.crypto LocalNode.domain
        (presented 250_000 250_000).sig (addressText LocalChain.app) 1_000_000 :=
      check_congr rfl (digest_bare 250_000 250_000)
    exact hcheck.trans (LocalNode.check_pay 0 (by decide))
  · rw [Channels.checkOwner_eq_ok]
    intro ch hch
    cases hnone.symm.trans hch
  · exact (congrArg (satAdd 64 · 250_000) hnothing).trans_le (by decide)
  · exact hnothing.trans_lt (by decide)

/-- The quarter with and without its `0x`, the quarter and one for another worker, and the ledger
that has banked it. -/
theorem entry_spelling_local :
    ((bare (presented 250_000 250_000)).entry LocalChain.crypto quarter.channels =
        (presented 250_000 250_000).entry LocalChain.crypto quarter.channels ↔
      Alike (bare (presented 250_000 250_000)).ticket (presented 250_000 250_000).ticket) ∧
    (presented 250_000 250_000).entry LocalChain.crypto quarter.channels ≠
      (other (presented 250_000 250_000)).entry LocalChain.crypto quarter.channels ∧
    quarter.BankedOnce LocalChain.crypto := by
  obtain ⟨hspelling, hparties, hruns⟩ := @entry_spelling LocalChain.crypto
  have htyped : (presented 250_000 250_000).Typed := presented_typed (by decide) (by decide)
  -- the kernel is slow to read the characters of a literal, so it is given their lists
  have hname : ascii "RootmodePot" = _ := ascii_ofList _
  have hversion : ascii "1" = _ := ascii_ofList _
  have hdomain : ascii domainTypehash = _ := ascii_ofList _
  have hspend : ascii Pot.ticketTypehash = _ := ascii_ofList _
  refine ⟨(hspelling (bare_typed htyped) htyped (bare_same _ _)).resolve_right ?_,
    (hparties (named_of_digest LocalNode.digest_ticket).1
      (named_of_digest LocalNode.digest_ticket).1 ?_).resolve_right ?_, hruns quarter_runs⟩
  · simp only [Pot.Collides, Presented.hashed, digestBytes, Pot.Terms.hashed, Pot.Terms.preimage,
      Pot.Terms.structBytes, Pot.separatorBytes, Ticket.read, Ticket.kind, Pot.Kind.typehash, bare,
      presented, LocalNode.ticket, hname, hversion, hdomain, hspend]
    decide +kernel
  · decide
  · simp only [Pot.Collides, Presented.hashed, digestBytes, Pot.Terms.hashed, Pot.Terms.preimage,
      Pot.Terms.structBytes, Pot.separatorBytes, Ticket.read, Ticket.kind, Pot.Kind.typehash, other,
      presented, LocalNode.ticket, hname, hversion, hdomain, hspend]
    decide +kernel

/-- One signature, banked with the client's `0x` and again without. -/
theorem banked_twice_local :
    ∃ s p q, Runs (Step LocalChain.crypto) (start (addressText LocalChain.pot)) s ∧
      SameTicket LocalChain.crypto q p ∧ q.sig = p.sig ∧
      q.entry LocalChain.crypto s.channels ≠ p.entry LocalChain.crypto s.channels ∧
      s.banked.map Prod.snd = [q, p] := by
  obtain ⟨chs, haccept⟩ := bare_accepted
  have hrun : Runs (Step LocalChain.crypto) (start (addressText LocalChain.pot)) quarter :=
    .single (.accepted (presented_typed (by decide) (by decide))
      (presented_first _ (by decide) le_rfl))
  have hstep : Step LocalChain.crypto quarter (.acceptSpend (bare (presented 250_000 250_000))) _ :=
    .accepted (bare_typed (presented_typed (by decide) (by decide))) haccept
  refine ⟨_, presented 250_000 250_000, bare (presented 250_000 250_000), hrun.tail hstep,
    bare_same _ _, rfl, ?_, rfl⟩
  exact bare_entry_ne _ hstep.same_contract _ _

end Local

end Rootmode.Worker.Ledger
