import Rootmode.P2p.Queries
import Mathlib.Data.Finset.SDiff
import Mathlib.Data.List.TakeWhile

set_option linter.unusedSectionVars false

namespace Rootmode.P2p

open Lib Function

variable {Peer Key Tx QueryId : Type} [DecidableEq Peer] [DecidableEq Key] [DecidableEq QueryId]
  {s : EventLoop Peer Key Tx QueryId} {i : Input Peer Key Tx QueryId} {is : List (Input Peer Key Tx QueryId)}
  {config : NodeConfig Peer} {declared bs : List (Multiaddr Peer)} {a : Multiaddr Peer}

/-- The addresses that were bound, placeholders apart. -/
def boundBy : Input Peer Key Tx QueryId → List (Multiaddr Peer)
  | .newListenAddr address => if isUnspecified address then [] else [address]
  | _ => []

/-- Whether any address is one the wider internet can dial. -/
def anyPublic (addrs : List (Multiaddr Peer)) : Bool := addrs.any reachableFromAfar

/-- What went out of the private addresses before the first public one was known. -/
def withdrawn (declared bs : List (Multiaddr Peer)) : List (Multiaddr Peer) :=
  if anyPublic declared then [] else if anyPublic bs then bs.takeWhile fun a => !reachableFromAfar a else []

/-- Of the bound addresses those that are of use: the public ones, if there is any, and else all. -/
def useful (declared bs : List (Multiaddr Peer)) : List (Multiaddr Peer) :=
  if anyPublic declared || anyPublic bs then bs.filter reachableFromAfar else bs

/-- What a node is to advertise that was told of some addresses and bound others. -/
def advertised (declared bs : List (Multiaddr Peer)) : Finset (Multiaddr Peer) :=
  (declared.toFinset \ (withdrawn declared bs).toFinset) ∪ (useful declared bs).toFinset

structure Advertises (declared bs : List (Multiaddr Peer)) (s : EventLoop Peer Key Tx QueryId) : Prop where
  hasPublicExternal : s.hasPublicExternal = (anyPublic declared || anyPublic bs)
  advertisedPrivate : s.advertisedPrivate = if s.hasPublicExternal then [] else bs
  external : s.external = advertised declared bs

section Lists

theorem anyPublic_concat : anyPublic (bs ++ [a]) = (anyPublic bs || reachableFromAfar a) := by
  rw [anyPublic, List.any_append, List.any_cons, List.any_nil, Bool.or_false]
  rfl

theorem takeWhile_of_none (h : anyPublic bs = false) : bs.takeWhile (fun a => !reachableFromAfar a) = bs := by
  rw [List.takeWhile_eq_self_iff]
  intro b hb
  rw [Bool.not_eq_true']
  exact Bool.eq_false_of_not_eq_true fun hpublic => by
    rw [anyPublic, List.any_eq_true.mpr ⟨b, hb, hpublic⟩] at h
    cases h

theorem filter_of_none (h : anyPublic bs = false) : bs.filter reachableFromAfar = [] := by
  rw [List.filter_eq_nil_iff]
  intro b hb hpublic
  rw [anyPublic, List.any_eq_true.mpr ⟨b, hb, hpublic⟩] at h
  cases h

theorem takeWhile_of_any (h : anyPublic bs = true) :
    (bs ++ [a]).takeWhile (fun a => !reachableFromAfar a) = bs.takeWhile fun a => !reachableFromAfar a := by
  rw [List.takeWhile_append, if_neg]
  intro hlength
  have hall := List.takeWhile_eq_self_iff.mp ((List.takeWhile_prefix _).eq_of_length hlength)
  obtain ⟨b, hb, hpublic⟩ := List.any_eq_true.mp h
  have hprivate := hall b hb
  rw [hpublic] at hprivate
  cases hprivate

theorem withdrawn_private (h : reachableFromAfar a = false) (hpublic : (anyPublic declared || anyPublic bs) = true) :
    withdrawn declared (bs ++ [a]) = withdrawn declared bs := by
  rw [withdrawn, withdrawn, anyPublic_concat, h, Bool.or_false]
  cases hd : anyPublic declared with
  | true => rfl
  | false =>
    rw [hd, Bool.false_or] at hpublic
    rw [if_neg Bool.false_ne_true, if_neg Bool.false_ne_true, hpublic, if_pos rfl, if_pos rfl, takeWhile_of_any hpublic]

end Lists

section Binding

theorem advertised_eq (declared bs : List (Multiaddr Peer)) : advertised declared bs =
    (declared.toFinset \ (withdrawn declared bs).toFinset) ∪ (useful declared bs).toFinset := rfl

theorem external_goPublic : s.goPublic.external =
    if s.hasPublicExternal then s.external else s.external \ s.advertisedPrivate.toFinset := by
  rw [EventLoop.goPublic]
  split <;> rfl

theorem useful_public (ha : reachableFromAfar a = true) :
    useful declared (bs ++ [a]) = bs.filter reachableFromAfar ++ [a] := by
  rw [useful, anyPublic_concat, ha, Bool.or_true, Bool.or_true, if_pos rfl, List.filter_append,
    List.filter_cons_of_pos ha, List.filter_nil]

/-- The first public address takes the place of the private ones, and every other one is one more. -/
theorem advertised_public (ha : reachableFromAfar a = true) : advertised declared (bs ++ [a]) =
    insert a (if anyPublic declared || anyPublic bs then advertised declared bs
      else advertised declared bs \ bs.toFinset) := by
  rw [advertised_eq, useful_public ha, List.toFinset_append, List.toFinset_cons, List.toFinset_nil, insert_empty_eq]
  cases hpublic : anyPublic declared || anyPublic bs with
  | true =>
    have hwithdrawn : withdrawn declared (bs ++ [a]) = withdrawn declared bs := by
      rw [withdrawn, withdrawn, anyPublic_concat, ha, Bool.or_true, if_pos rfl]
      cases hd : anyPublic declared with
      | true => rfl
      | false =>
        rw [hd, Bool.false_or] at hpublic
        rw [hpublic, if_pos rfl, takeWhile_of_any hpublic]
    rw [if_pos rfl, hwithdrawn, advertised_eq, useful, hpublic, if_pos rfl, ← Finset.union_assoc,
      Finset.union_comm _ {a}, ← Finset.insert_eq]
  | false =>
    obtain ⟨hdeclared, hbound⟩ := Bool.or_eq_false_iff.mp hpublic
    have hbefore : withdrawn declared bs = [] := by
      rw [withdrawn, hdeclared, hbound, if_neg Bool.false_ne_true, if_neg Bool.false_ne_true]
    have hafter : withdrawn declared (bs ++ [a]) = bs := by
      rw [withdrawn, hdeclared, anyPublic_concat, ha, Bool.or_true, if_neg Bool.false_ne_true, if_pos rfl,
        List.takeWhile_append_of_pos, List.takeWhile_cons, ha]
      · exact List.append_nil bs
      · intro b hb
        exact List.takeWhile_eq_self_iff.mp (takeWhile_of_none hbound) b hb
    rw [if_neg Bool.false_ne_true, hafter, filter_of_none hbound, List.toFinset_nil, Finset.empty_union, advertised_eq,
      hbefore, List.toFinset_nil, Finset.sdiff_empty, useful, hpublic, if_neg Bool.false_ne_true,
      Finset.union_sdiff_right, Finset.union_comm, ← Finset.insert_eq]

theorem advertised_private (ha : reachableFromAfar a = false) : advertised declared (bs ++ [a]) =
    if anyPublic declared || anyPublic bs then advertised declared bs else insert a (advertised declared bs) := by
  have hany : (anyPublic declared || anyPublic (bs ++ [a])) = (anyPublic declared || anyPublic bs) := by
    rw [anyPublic_concat, ha, Bool.or_false]
  rw [advertised_eq, advertised_eq, useful, useful, hany]
  cases hpublic : anyPublic declared || anyPublic bs with
  | true =>
    rw [if_pos rfl, if_pos rfl, if_pos rfl, withdrawn_private ha hpublic, List.filter_append,
      List.filter_cons_of_neg (Bool.eq_false_iff.mp ha), List.filter_nil, List.append_nil]
  | false =>
    obtain ⟨hdeclared, hbound⟩ := Bool.or_eq_false_iff.mp hpublic
    have hafter : withdrawn declared (bs ++ [a]) = withdrawn declared bs := by
      rw [withdrawn, withdrawn, anyPublic_concat, ha, hbound]
      rfl
    rw [if_neg Bool.false_ne_true, if_neg Bool.false_ne_true, if_neg Bool.false_ne_true, hafter, List.toFinset_append,
      List.toFinset_cons, List.toFinset_nil, insert_empty_eq, ← Finset.union_assoc, Finset.union_comm _ {a},
      ← Finset.insert_eq]

theorem Advertises.bind_public (h : Advertises declared bs s) (ha : reachableFromAfar a = true) :
    Advertises declared (bs ++ [a]) ((s.listen a).goPublic.publish a) := by
  have hany : (anyPublic declared || anyPublic (bs ++ [a])) = true := by
    rw [anyPublic_concat, ha, Bool.or_true, Bool.or_true]
  have hpublic : ((s.listen a).goPublic.publish a).hasPublicExternal = true := by
    change (s.listen a).goPublic.hasPublicExternal = true
    rw [EventLoop.goPublic]
    split
    · assumption
    · rfl
  refine ⟨hpublic.trans hany.symm, ?_, ?_⟩
  · rw [hpublic, if_pos rfl]
    change (s.listen a).goPublic.advertisedPrivate = []
    rw [EventLoop.goPublic]
    split
    · next hsame =>
      change s.advertisedPrivate = []
      rw [h.advertisedPrivate]
      exact if_pos hsame
    · rfl
  · change insert a (s.listen a).goPublic.external = _
    rw [external_goPublic, advertised_public ha, ← h.hasPublicExternal, ← h.external]
    cases hs : s.hasPublicExternal with
    | true =>
      rw [if_pos rfl]
      exact congrArg (insert a) (if_pos hs)
    | false =>
      have hprivate := h.advertisedPrivate
      rw [hs, if_neg Bool.false_ne_true] at hprivate
      rw [if_neg Bool.false_ne_true, ← hprivate]
      exact congrArg (insert a) (if_neg (Bool.eq_false_iff.mp hs))

theorem Advertises.bind_private (h : Advertises declared bs s) (ha : reachableFromAfar a = false)
    (hs : s.hasPublicExternal = true) : Advertises declared (bs ++ [a]) (s.listen a) := by
  have hpublic := h.hasPublicExternal
  rw [hs] at hpublic
  refine ⟨?_, ?_, ?_⟩
  · change s.hasPublicExternal = _
    rw [anyPublic_concat, ha, Bool.or_false]
    exact h.hasPublicExternal
  · change s.advertisedPrivate = if s.hasPublicExternal then [] else _
    rw [h.advertisedPrivate, hs, if_pos rfl, if_pos rfl]
  · change s.external = _
    rw [h.external, advertised_private ha, ← hpublic, if_pos rfl]

theorem Advertises.bind_alone (h : Advertises declared bs s) (ha : reachableFromAfar a = false)
    (hs : s.hasPublicExternal = false) : Advertises declared (bs ++ [a])
      { (s.listen a).publish a with advertisedPrivate := s.advertisedPrivate ++ [a] } := by
  have hpublic := h.hasPublicExternal
  rw [hs] at hpublic
  refine ⟨?_, ?_, ?_⟩
  · change s.hasPublicExternal = _
    rw [anyPublic_concat, ha, Bool.or_false]
    exact h.hasPublicExternal
  · change s.advertisedPrivate ++ [a] = if s.hasPublicExternal then [] else _
    rw [h.advertisedPrivate, hs, if_neg Bool.false_ne_true, if_neg Bool.false_ne_true]
  · change insert a s.external = _
    rw [h.external, advertised_private ha, ← hpublic, if_neg Bool.false_ne_true]

end Binding

section Steps

/-- What leaves the advertised addresses as they are. -/
structure Unbound (s s' : EventLoop Peer Key Tx QueryId) : Prop where
  hasPublicExternal : s'.hasPublicExternal = s.hasPublicExternal
  advertisedPrivate : s'.advertisedPrivate = s.advertisedPrivate
  external : s'.external = s.external

theorem Unbound.refl (s : EventLoop Peer Key Tx QueryId) : Unbound s s := ⟨rfl, rfl, rfl⟩

theorem Unbound.trans {t r : EventLoop Peer Key Tx QueryId} (h : Unbound s t) (h' : Unbound t r) : Unbound s r :=
  ⟨h'.1.trans h.1, h'.2.trans h.2, h'.3.trans h.3⟩

theorem Advertises.unbound {s' : EventLoop Peer Key Tx QueryId} (h : Advertises declared bs s) (hs : Unbound s s') :
    Advertises declared bs s' := by
  refine ⟨hs.hasPublicExternal.trans h.hasPublicExternal, ?_, hs.external.trans h.external⟩
  rw [hs.advertisedPrivate, hs.hasPublicExternal, h.advertisedPrivate]

theorem unbound_connectionEstablished (peer : Peer) (listens : Bool) :
    Unbound s (s.onConnectionEstablished peer listens) := by
  have hconnect : Unbound s (s.connect peer) := ⟨rfl, rfl, rfl⟩
  have hwalk : ∀ t : EventLoop Peer Key Tx QueryId, Unbound t t.walkOnce := by
    intro t
    rw [EventLoop.walkOnce]
    split
    · exact ⟨rfl, rfl, rfl⟩
    · exact .refl t
  have hreserve : ∀ t : EventLoop Peer Key Tx QueryId, Unbound t (t.reserve peer listens) := by
    intro t
    rw [EventLoop.reserve]
    split
    · exact .refl t
    · split
      · exact .refl t
      · split
        · exact ⟨rfl, rfl, rfl⟩
        · exact ⟨rfl, rfl, rfl⟩
  exact hconnect.trans ((hwalk _).trans (hreserve _))

theorem unbound_discovered (peers : List (Peer × Multiaddr Peer)) :
    Unbound s (peers.foldl EventLoop.onDiscovered s) := by
  induction peers generalizing s with
  | nil => exact .refl s
  | cons found peers ih =>
    refine Unbound.trans ?_ ih
    rw [EventLoop.onDiscovered]
    split
    · exact ⟨rfl, rfl, rfl⟩
    · exact ⟨rfl, rfl, rfl⟩

theorem unbound_answer (id : QueryId) : Unbound s (s.answer id) := by
  rw [EventLoop.answer]
  split
  · exact ⟨rfl, rfl, rfl⟩
  · exact .refl s

theorem unbound_gotProviders (id : QueryId) (providers : Finset Peer) (last : Bool) :
    Unbound s (s.onGotProviders id providers last) := by
  have hcollect : Unbound s (s.collect id providers) := by
    rw [EventLoop.collect]
    split
    · exact ⟨rfl, rfl, rfl⟩
    · exact .refl s
  rw [EventLoop.onGotProviders]
  split
  · exact hcollect.trans (unbound_answer id)
  · exact hcollect

theorem unbound_gotClosestPeers (id : QueryId) (last : Bool) : Unbound s (s.onGotClosestPeers id last) := by
  rw [EventLoop.onGotClosestPeers]
  split
  · split
    · exact ⟨rfl, rfl, rfl⟩
    · exact .refl s
  · exact .refl s

theorem unbound_listenerClosed (addresses : List (Multiaddr Peer)) : Unbound s (s.onListenerClosed addresses) := by
  rw [EventLoop.onListenerClosed]
  split
  · exact ⟨rfl, rfl, rfl⟩
  · exact .refl s

theorem unbound_reconnectIfAlone : Unbound s s.reconnectIfAlone := by
  rw [EventLoop.reconnectIfAlone]
  split
  · exact .refl s
  · exact ⟨rfl, rfl, rfl⟩

theorem Advertises.onNewListenAddr (h : Advertises declared bs s) (a : Multiaddr Peer) :
    Advertises declared (bs ++ if isUnspecified a then [] else [a]) (s.onNewListenAddr a) := by
  rw [EventLoop.onNewListenAddr]
  split
  · rw [List.append_nil]
    exact h.unbound ⟨rfl, rfl, rfl⟩
  · split
    · next hpublic => exact h.bind_public hpublic
    · next hprivate =>
      have ha := Bool.eq_false_of_not_eq_true hprivate
      split
      · next hs => exact h.bind_private ha hs
      · next hs => exact h.bind_alone ha (Bool.eq_false_of_not_eq_true hs)

theorem Advertises.step (h : Advertises declared bs s) (i : Input Peer Key Tx QueryId) :
    Advertises declared (bs ++ boundBy i) (s.step i) := by
  have hsame : ∀ s', Unbound s s' → Advertises declared (bs ++ []) s' := by
    intro s' hs'
    rw [List.append_nil]
    exact h.unbound hs'
  cases i with
  | newListenAddr address => exact h.onNewListenAddr address
  | connectionEstablished peer listens => exact hsame _ (unbound_connectionEstablished peer listens)
  | discovered peers => exact hsame _ (unbound_discovered peers)
  | gotProviders id providers last => exact hsame _ (unbound_gotProviders id providers last)
  | getProvidersFailed id => exact hsame _ (unbound_answer id)
  | gotClosestPeers id last => exact hsame _ (unbound_gotClosestPeers id last)
  | listenerClosed addresses => exact hsame _ (unbound_listenerClosed addresses)
  | watchdog => exact hsame _ unbound_reconnectIfAlone
  | provide | findProviders | findPeer | addAddress | bootstrap | connectionClosed | identified | expired =>
    exact hsame _ ⟨rfl, rfl, rfl⟩

theorem Advertises.run (h : Advertises declared bs s) (is : List (Input Peer Key Tx QueryId)) :
    Advertises declared (bs ++ is.flatMap boundBy) (s.run is) := by
  induction is generalizing s bs with
  | nil =>
    rw [List.flatMap_nil, List.append_nil]
    exact h
  | cons i is ih =>
    rw [List.flatMap_cons, ← List.append_assoc]
    exact ih (h.step i)

end Steps

/-- Once there is a public address, private ones are only advertised where the operator says so. -/
theorem reachable_of_mem_advertised (hpublic : (anyPublic declared || anyPublic bs) = true)
    (ha : a ∈ advertised declared bs) : a ∈ declared ∨ reachableFromAfar a = true := by
  rw [advertised_eq, useful, hpublic, if_pos rfl, Finset.mem_union, Finset.mem_sdiff, List.mem_toFinset,
    List.mem_toFinset, List.mem_toFinset, List.mem_filter] at ha
  rcases ha with ⟨hdeclared, -⟩ | ⟨-, hreach⟩
  · exact .inl hdeclared
  · exact .inr hreach

theorem advertises_new (config : NodeConfig Peer) :
    Advertises config.external [] (EventLoop.new config : EventLoop Peer Key Tx QueryId) := by
  refine ⟨(Bool.or_false _).symm, ?_, ?_⟩
  · exact (ite_self _).symm
  · have hwithdrawn : withdrawn config.external [] = [] := by
      rw [withdrawn]
      split <;> rfl
    have huseful : useful config.external [] = [] := by
      rw [useful]
      split <;> rfl
    rw [advertised_eq, hwithdrawn, huseful, List.toFinset_nil, Finset.sdiff_empty, Finset.union_empty]
    rfl

/-- What a node advertises, after whatever has happened, depends on the addresses it was told of and on those it
has bound. -/
theorem external_run (config : NodeConfig Peer) (is : List (Input Peer Key Tx QueryId)) :
    ((EventLoop.new config).run is).external = advertised config.external (is.flatMap boundBy) :=
  ((advertises_new config).run is).external

end Rootmode.P2p
