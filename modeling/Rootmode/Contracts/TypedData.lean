import Rootmode.Contracts.Pot

namespace Rootmode.Pot

open Lib Lib.Bytes

/-- The two kinds of ticket the contract takes. -/
inductive Kind
  | reserve | spend
  deriving DecidableEq

def Kind.typehash : Kind → String
  | .reserve => reserveTypehash
  | .spend => ticketTypehash

/-- What a ticket says, as the contract reads it. -/
structure Terms where
  kind : Kind
  client : Address
  workerPayout : Address
  amount : ℕ
  deadline : ℕ
  deriving DecidableEq

attribute [ext] Terms

structure Terms.Sized (t : Terms) : Prop where
  amount_lt : t.amount < 2 ^ 256
  deadline_lt : t.deadline < 2 ^ 256

variable (C : Crypto)

/-- What is hashed to the struct hash of a ticket. -/
def Terms.structBytes (t : Terms) : Bytes :=
  abiEncode [(C.keccak256 (ascii t.kind.typehash)).toNat, t.client.toNat, t.workerPayout.toNat,
    t.amount, t.deadline]

/-- What is hashed to the domain separator. -/
def separatorBytes (chainId : ℕ) (verifying : Address) : Bytes :=
  abiEncode [(C.keccak256 (ascii domainTypehash)).toNat, (C.keccak256 (ascii "RootmodePot")).toNat,
    (C.keccak256 (ascii "1")).toNat, chainId, verifying.toNat]

/-- What is hashed to the digest the app key signs. -/
def Terms.preimage (t : Terms) (chainId : ℕ) (verifying : Address) : Bytes :=
  [0x19, 0x01] ++ bigEndian 32 (C.keccak256 (separatorBytes C chainId verifying)).toNat ++
    bigEndian 32 (C.keccak256 (t.structBytes C)).toNat

/-- The strings hashed on the way to a digest. -/
def Terms.hashed (t : Terms) (chainId : ℕ) (verifying : Address) : List Bytes :=
  [ascii t.kind.typehash, t.structBytes C, separatorBytes C chainId verifying]

/-- One string of each list, and the same hash of both. -/
def Collides (xs ys : List Bytes) : Prop :=
  ∃ x ∈ xs, ∃ y ∈ ys, x ≠ y ∧ C.keccak256 x = C.keccak256 y

theorem ticketDigest_eq {τ : Type} (E : Deployment τ) (t : Terms) :
    ticketDigest E t.kind.typehash t.client t.workerPayout t.amount t.deadline =
      E.crypto.keccak256 (t.preimage E.crypto E.chainId E.self) := rfl

section Injective

variable {C} {t t' : Terms} {chainId chainId' : ℕ} {verifying verifying' : Address}

theorem kind_of_typehash {k k' : Kind} (h : ascii k.typehash = ascii k'.typehash) : k = k' := by
  have hdiffer : ascii reserveTypehash ≠ ascii ticketTypehash := by decide
  cases k with
  | reserve =>
    cases k' with
    | reserve => rfl
    | spend => exact absurd h hdiffer
  | spend =>
    cases k' with
    | reserve => exact absurd h.symm hdiffer
    | spend => rfl

theorem abiEncode_cons (n : ℕ) (ns : List ℕ) : abiEncode (n :: ns) = bigEndian 32 n ++ abiEncode ns :=
  rfl

/-- Words that fit are read off their encoding. -/
theorem abiEncode_injective : ∀ {ms ns : List ℕ}, (∀ m ∈ ms, m < 2 ^ 256) → (∀ n ∈ ns, n < 2 ^ 256) →
    ms.length = ns.length → abiEncode ms = abiEncode ns → ms = ns := by
  intro ms
  induction ms with
  | nil =>
    intro ns _ _ hlength _
    exact (List.length_eq_zero_iff.mp hlength.symm).symm
  | cons m ms ih =>
    intro ns hms hns hlength h
    cases ns with
    | nil => cases hlength
    | cons n ns =>
      rw [abiEncode_cons, abiEncode_cons] at h
      obtain ⟨hhead, htail⟩ := List.append_inj h (by simp)
      have hm := hms m (.head ms)
      have hn := hns n (.head ns)
      rw [bigEndian_injective (by omega) (by omega) hhead]
      apply congrArg
      apply ih
      · exact fun k hk => hms k (.tail m hk)
      · exact fun k hk => hns k (.tail n hk)
      · exact Nat.succ.inj hlength
      · exact htail

theorem word_injective {h h' : Bytes32} (heq : bigEndian 32 h.toNat = bigEndian 32 h'.toNat) :
    h = h' :=
  BitVec.eq_of_toNat_eq (bigEndian_injective (by have := h.isLt; omega)
    (by have := h'.isLt; omega) heq)

theorem eq_or_collides (xs ys : List Bytes) {x y : Bytes} (hx : x ∈ xs) (hy : y ∈ ys)
    (h : C.keccak256 x = C.keccak256 y) : x = y ∨ Collides C xs ys := by
  by_cases heq : x = y
  · exact .inl heq
  · exact .inr ⟨x, hx, y, hy, heq, h⟩

theorem hash_lt (h : Bytes32) : h.toNat < 2 ^ 256 := h.isLt

theorem address_lt (a : Address) : a.toNat < 2 ^ 256 := a.isLt.trans (by decide)

theorem words_lt {a b c d e : ℕ} (ha : a < 2 ^ 256) (hb : b < 2 ^ 256) (hc : c < 2 ^ 256)
    (hd : d < 2 ^ 256) (he : e < 2 ^ 256) : ∀ n ∈ [a, b, c, d, e], n < 2 ^ 256 := by
  simp only [List.forall_mem_cons]
  exact ⟨ha, hb, hc, hd, he, List.forall_mem_nil _⟩

theorem separatorBytes_injective (hchain : chainId < 2 ^ 256) (hchain' : chainId' < 2 ^ 256)
    (h : separatorBytes C chainId verifying = separatorBytes C chainId' verifying') :
    chainId = chainId' ∧ verifying = verifying' := by
  have hwords := abiEncode_injective
    (words_lt (hash_lt _) (hash_lt _) (hash_lt _) hchain (address_lt verifying))
    (words_lt (hash_lt _) (hash_lt _) (hash_lt _) hchain' (address_lt verifying')) rfl h
  simp only [List.cons.injEq, and_true, true_and] at hwords
  exact ⟨hwords.1, BitVec.eq_of_toNat_eq hwords.2⟩

/-- What a struct hash is of gives the ticket, its kind by the hash of its type. -/
theorem structBytes_injective (ht : t.Sized) (ht' : t'.Sized)
    (h : t.structBytes C = t'.structBytes C) :
    C.keccak256 (ascii t.kind.typehash) = C.keccak256 (ascii t'.kind.typehash) ∧
      t.client = t'.client ∧ t.workerPayout = t'.workerPayout ∧ t.amount = t'.amount ∧
      t.deadline = t'.deadline := by
  have hwords := abiEncode_injective
    (words_lt (hash_lt _) (address_lt _) (address_lt _) ht.amount_lt ht.deadline_lt)
    (words_lt (hash_lt _) (address_lt _) (address_lt _) ht'.amount_lt ht'.deadline_lt) rfl h
  simp only [List.cons.injEq, and_true] at hwords
  obtain ⟨hkind, hclient, hpayout, hrest⟩ := hwords
  exact ⟨BitVec.eq_of_toNat_eq hkind, BitVec.eq_of_toNat_eq hclient, BitVec.eq_of_toNat_eq hpayout,
    hrest⟩

/-- One pre-image, one ticket for one contract on one chain, or a collision among what is hashed. -/
theorem preimage_injective (ht : t.Sized) (ht' : t'.Sized) (hchain : chainId < 2 ^ 256)
    (hchain' : chainId' < 2 ^ 256)
    (h : t.preimage C chainId verifying = t'.preimage C chainId' verifying') :
    (t = t' ∧ chainId = chainId' ∧ verifying = verifying') ∨
      Collides C (t.hashed C chainId verifying) (t'.hashed C chainId' verifying') := by
  obtain ⟨hdomain, hstruct⟩ := List.append_inj h (by simp)
  have hseparator := word_injective (List.append_cancel_left hdomain)
  have hterms := word_injective hstruct
  rcases eq_or_collides (t.hashed C chainId verifying) (t'.hashed C chainId' verifying')
    (.tail _ (.tail _ (.head _))) (.tail _ (.tail _ (.head _))) hseparator with hsame | hcollides
  · rcases eq_or_collides (t.hashed C chainId verifying) (t'.hashed C chainId' verifying')
      (.tail _ (.head _)) (.tail _ (.head _)) hterms with hterms | hcollides
    · obtain ⟨htype, hclient, hpayout, hamount, hdeadline⟩ := structBytes_injective ht ht' hterms
      rcases eq_or_collides (t.hashed C chainId verifying) (t'.hashed C chainId' verifying')
        (.head _) (.head _) htype with hkind | hcollides
      · left
        refine ⟨?_, separatorBytes_injective hchain hchain' hsame⟩
        exact Terms.ext (kind_of_typehash hkind) hclient hpayout hamount hdeadline
      · exact .inr hcollides
    · exact .inr hcollides
  · exact .inr hcollides

end Injective

end Rootmode.Pot
