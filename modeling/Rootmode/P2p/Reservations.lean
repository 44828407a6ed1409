import Rootmode.P2p.Reachable

set_option linter.unusedSectionVars false

namespace Rootmode.P2p

open Lib Function

variable {Peer Key Tx QueryId : Type} [DecidableEq Peer] [DecidableEq Key] [DecidableEq QueryId]
  {s : EventLoop Peer Key Tx QueryId} {i : Input Peer Key Tx QueryId} {is : List (Input Peer Key Tx QueryId)}
  {config : NodeConfig Peer} {p peer : Peer} {calls calls' : List (Call Peer Key)}

/-- Whether a call asks a peer to hold a slot. -/
def Call.requests (p : Peer) : Call Peer Key → Bool
  | .listenOn addr => peerOf addr = some p
  | _ => false

/-- How often a relay was asked to hold a slot. -/
def requests (p : Peer) (calls : List (Call Peer Key)) : ℕ := calls.countP (Call.requests p)

def held (p : Peer) (s : EventLoop Peer Key Tx QueryId) : ℕ := if p ∈ s.reserved then 1 else 0

namespace EventLoop

/-- Whether an input is the end of a reservation with a peer, or of the attempt to get one. -/
def loses (s : EventLoop Peer Key Tx QueryId) (p : Peer) : Input Peer Key Tx QueryId → Bool
  | .connectionEstablished peer listens => peer = p && (s.relays p).isSome && p ∉ s.reserved && !listens
  | .listenerClosed addresses => p ∈ s.reserved && addresses.any isCircuit && p ∈ addresses.filterMap peerOf
  | .watchdog => p ∈ s.reserved && !s.entryPoints.isEmpty && s.connected = ∅
  | _ => false

def losses (p : Peer) : EventLoop Peer Key Tx QueryId → List (Input Peer Key Tx QueryId) → ℕ
  | _, [] => 0
  | s, i :: is => (s.loses p i).toNat + losses p (s.step i) is

end EventLoop

section Calls

theorem requests_append : requests p (calls ++ calls') = requests p calls + requests p calls' := List.countP_append

theorem requests_none (h : ∀ call ∈ calls, call.requests p = false) : requests p calls = 0 :=
  List.countP_eq_zero.mpr fun call hcall => Bool.eq_false_iff.mp (h call hcall)

theorem peerOf_circuit {addr : Multiaddr Peer} (h : peerOf addr = some p) : peerOf (addr ++ [.p2pCircuit]) = some p := by
  rw [peerOf, List.findSome?_append]
  exact congrArg (Option.or · _) h

end Calls

section Relays

/-- A relay's address names the relay. -/
def Named (relays : Peer → Option (Multiaddr Peer)) : Prop := ∀ p addr, relays p = some addr → peerOf addr = some p

theorem named_wantRelay {relays : Peer → Option (Multiaddr Peer)} (h : Named relays) (addr : Multiaddr Peer) :
    Named (wantRelay relays addr) := by
  rw [wantRelay]
  split
  · next peer hpeer =>
    intro p addr' hp
    by_cases heq : p = peer
    · rw [heq, update_self] at hp
      rw [← Option.some.inj hp, heq]
      exact hpeer
    · rw [update_of_ne heq] at hp
      exact h p addr' hp
  · exact h

theorem named_relaysOf (config : NodeConfig Peer) : Named (relaysOf config) := by
  have hnone : Named (fun _ : Peer => none) := fun p addr hnone => by cases hnone
  have hfold : ∀ (addrs : List (Multiaddr Peer)) (relays : Peer → Option (Multiaddr Peer)), Named relays →
      Named (addrs.foldl wantRelay relays) := by
    intro addrs
    induction addrs with
    | nil => exact fun relays h => h
    | cons addr addrs ih => exact fun relays h => ih _ (named_wantRelay h addr)
  rw [relaysOf]
  split
  · exact hfold config.bootstrap _ hnone
  · exact hnone

end Relays

section Quiet

/-- What neither asks a peer for anything nor changes what is held. -/
structure Quiet (p : Peer) (s s' : EventLoop Peer Key Tx QueryId) : Prop where
  relays : s'.relays = s.relays
  reserved : p ∈ s'.reserved ↔ p ∈ s.reserved
  calls : requests p s'.calls = requests p s.calls

theorem Quiet.refl (p : Peer) (s : EventLoop Peer Key Tx QueryId) : Quiet p s s := ⟨rfl, Iff.rfl, rfl⟩

theorem Quiet.trans {t r : EventLoop Peer Key Tx QueryId} (h : Quiet p s t) (h' : Quiet p t r) : Quiet p s r :=
  ⟨h'.1.trans h.1, h'.2.trans h.2, h'.3.trans h.3⟩

theorem requests_more (h : ∀ call ∈ calls', call.requests p = false) : requests p (calls ++ calls') = requests p calls := by
  rw [requests_append, requests_none h, Nat.add_zero]

theorem quiet_send {call : Call Peer Key} (h : call.requests p = false) : Quiet p s (s.send call) :=
  ⟨rfl, Iff.rfl, requests_more (List.forall_mem_singleton.mpr h)⟩

theorem quiet_walkOnce : Quiet p s s.walkOnce := by
  rw [EventLoop.walkOnce]
  split
  · have hsend : Quiet p s (s.send .bootstrap) := quiet_send rfl
    exact hsend.trans ⟨rfl, Iff.rfl, rfl⟩
  · exact .refl p s

theorem quiet_newListenAddr (address : Multiaddr Peer) : Quiet p s (s.onNewListenAddr address) := by
  have hpublic : Quiet p (s.listen address) (s.listen address).goPublic := by
    rw [EventLoop.goPublic]
    split
    · exact .refl p _
    · exact ⟨rfl, Iff.rfl, rfl⟩
  have hlisten : Quiet p s (s.listen address) := ⟨rfl, Iff.rfl, rfl⟩
  rw [EventLoop.onNewListenAddr]
  split
  · exact hlisten
  · split
    · exact hlisten.trans (hpublic.trans ⟨rfl, Iff.rfl, rfl⟩)
    · split
      · exact hlisten
      · exact ⟨rfl, Iff.rfl, rfl⟩

theorem quiet_discovered (peers : List (Peer × Multiaddr Peer)) : Quiet p s (peers.foldl EventLoop.onDiscovered s) := by
  induction peers generalizing s with
  | nil => exact .refl p s
  | cons found peers ih =>
    refine Quiet.trans ?_ ih
    have hsend : Quiet p s (s.send (.addAddress found.1 found.2)) := quiet_send rfl
    rw [EventLoop.onDiscovered]
    split
    · exact hsend
    · exact hsend.trans ⟨rfl, Iff.rfl, rfl⟩

theorem quiet_gotProviders (id : QueryId) (providers : Finset Peer) (last : Bool) :
    Quiet p s (s.onGotProviders id providers last) := by
  have hcollect : Quiet p s (s.collect id providers) := by
    rw [EventLoop.collect]
    split
    · exact ⟨rfl, Iff.rfl, rfl⟩
    · exact .refl p s
  have hanswer : ∀ t : EventLoop Peer Key Tx QueryId, Quiet p t (t.answer id) := by
    intro t
    rw [EventLoop.answer]
    split
    · exact ⟨rfl, Iff.rfl, rfl⟩
    · exact .refl p t
  rw [EventLoop.onGotProviders]
  split
  · exact hcollect.trans (hanswer _)
  · exact hcollect

theorem quiet_getProvidersFailed (id : QueryId) : Quiet p s (s.onGetProvidersFailed id) := by
  rw [EventLoop.onGetProvidersFailed, EventLoop.answer]
  split
  · exact ⟨rfl, Iff.rfl, rfl⟩
  · exact .refl p s

theorem quiet_gotClosestPeers (id : QueryId) (last : Bool) : Quiet p s (s.onGotClosestPeers id last) := by
  rw [EventLoop.onGotClosestPeers]
  split
  · split
    · exact ⟨rfl, Iff.rfl, rfl⟩
    · exact .refl p s
  · exact .refl p s

end Quiet

section Step

/-- Every request to a relay is still held, or was in vain. -/
structure Accounts (p : Peer) (lost : ℕ) (s : EventLoop Peer Key Tx QueryId) : Prop where
  named : Named s.relays
  balance : requests p s.calls = lost + held p s

variable {lost : ℕ}

theorem Accounts.quiet {s' : EventLoop Peer Key Tx QueryId} (h : Accounts p lost s) (hs : Quiet p s s') :
    Accounts p (lost + false.toNat) s' := by
  refine ⟨hs.relays ▸ h.named, ?_⟩
  rw [hs.calls, h.balance, held, held, if_congr hs.reserved rfl rfl]
  rfl

theorem held_of_mem (h : p ∈ s.reserved) : held p s = 1 := if_pos h

theorem held_of_notMem (h : p ∉ s.reserved) : held p s = 0 := if_neg h

theorem walkOnce_relays : s.walkOnce.relays = s.relays := by
  rw [EventLoop.walkOnce]
  split <;> rfl

theorem walkOnce_reserved : s.walkOnce.reserved = s.reserved := by
  rw [EventLoop.walkOnce]
  split <;> rfl

/-- Another peer is asked. -/
theorem quiet_reserve (hnamed : Named s.relays) (hne : peer ≠ p) (listens : Bool) : Quiet p s (s.reserve peer listens) := by
  rw [EventLoop.reserve]
  split
  · exact .refl p s
  · next addr hrelay =>
    have hcall : (.listenOn (addr ++ [.p2pCircuit]) : Call Peer Key).requests p = false := by
      rw [Call.requests, peerOf_circuit (hnamed _ _ hrelay)]
      simpa using hne
    split
    · exact .refl p s
    · split
      · refine ⟨rfl, ?_, requests_more (List.forall_mem_singleton.mpr hcall)⟩
        change p ∈ insert peer s.reserved ↔ _
        rw [Finset.mem_insert, or_iff_right (Ne.symm hne)]
      · exact quiet_send hcall

theorem Accounts.reserve (h : Accounts p lost s) (peer : Peer) (listens : Bool) :
    Accounts p (lost + (s.loses p (.connectionEstablished peer listens)).toNat) (s.reserve peer listens) := by
  by_cases hp : peer = p
  · subst hp
    rw [EventLoop.reserve, EventLoop.loses]
    cases hrelay : s.relays peer with
    | none => simpa using h
    | some addr =>
      by_cases hheld : peer ∈ s.reserved
      · simpa [hheld] using h
      · have hcall : (.listenOn (addr ++ [.p2pCircuit]) : Call Peer Key).requests peer = true := by
          rw [Call.requests, peerOf_circuit (h.named _ _ hrelay)]
          simp
        have hasked : requests peer (s.calls ++ [.listenOn (addr ++ [.p2pCircuit])]) = lost + 1 := by
          rw [requests_append, h.balance, held_of_notMem hheld, requests, List.countP_cons_of_pos hcall, List.countP_nil]
        cases listens with
        | true =>
          have hmem : peer ∈ insert peer s.reserved := Finset.mem_insert_self ..
          simp only [hheld, if_false, if_true]
          refine ⟨h.named, ?_⟩
          change requests peer (s.calls ++ _) = _ + if peer ∈ insert peer s.reserved then 1 else 0
          rw [hasked, if_pos hmem]
          simp
        | false =>
          simp only [hheld, if_false]
          refine ⟨h.named, ?_⟩
          change requests peer (s.calls ++ _) = _ + held peer s
          rw [hasked, held_of_notMem hheld]
          simp
  · have hkeeps : s.loses p (.connectionEstablished peer listens) = false := by
      rw [EventLoop.loses, decide_eq_false hp]
      rfl
    rw [hkeeps]
    exact h.quiet (quiet_reserve h.named hp listens)

theorem Accounts.connectionEstablished (h : Accounts p lost s) (peer : Peer) (listens : Bool) :
    Accounts p (lost + (s.loses p (.connectionEstablished peer listens)).toNat)
      (s.onConnectionEstablished peer listens) := by
  have hquiet : Quiet p s (s.connect peer).walkOnce :=
    Quiet.trans (t := s.connect peer) ⟨rfl, Iff.rfl, rfl⟩ quiet_walkOnce
  have hloses : s.loses p (.connectionEstablished peer listens) =
      (s.connect peer).walkOnce.loses p (.connectionEstablished peer listens) := by
    rw [EventLoop.loses, EventLoop.loses, walkOnce_relays, walkOnce_reserved]
    rfl
  rw [hloses]
  exact (h.quiet hquiet).reserve peer listens

theorem Accounts.listenerClosed (h : Accounts p lost s) (addresses : List (Multiaddr Peer)) :
    Accounts p (lost + (s.loses p (.listenerClosed addresses)).toNat) (s.onListenerClosed addresses) := by
  rw [EventLoop.onListenerClosed, EventLoop.loses]
  cases hcircuit : addresses.any isCircuit with
  | false => simpa using h
  | true =>
    refine ⟨h.named, ?_⟩
    change requests p s.calls = _ + if p ∈ s.reserved \ (addresses.filterMap peerOf).toFinset then 1 else 0
    rw [h.balance, held]
    by_cases hheld : p ∈ s.reserved
    · by_cases hnamed : p ∈ addresses.filterMap peerOf
      · rw [if_pos hheld, if_neg fun hmem => (Finset.mem_sdiff.mp hmem).2 (List.mem_toFinset.mpr hnamed),
          decide_eq_true hheld, decide_eq_true hnamed]
        rfl
      · have hkeeps : p ∈ s.reserved \ (addresses.filterMap peerOf).toFinset :=
          Finset.mem_sdiff.mpr ⟨hheld, fun hmem => hnamed (List.mem_toFinset.mp hmem)⟩
        rw [if_pos hheld, if_pos hkeeps, decide_eq_false hnamed, Bool.and_false]
        rfl
    · rw [if_neg hheld, if_neg fun hmem => hheld (Finset.mem_sdiff.mp hmem).1, decide_eq_false hheld, Bool.false_and,
        Bool.false_and]
      rfl

theorem Accounts.watchdog (h : Accounts p lost s) :
    Accounts p (lost + (s.loses p .watchdog).toNat) s.reconnectIfAlone := by
  rw [EventLoop.reconnectIfAlone, EventLoop.loses]
  have hdials : requests p (s.calls ++ s.entryPoints.map .dial) = requests p s.calls := by
    refine requests_more fun call hcall => ?_
    obtain ⟨addr, -, rfl⟩ := List.mem_map.mp hcall
    rfl
  by_cases hbusy : s.entryPoints.isEmpty ∨ s.connected ≠ ∅
  · have hkeeps : (decide (p ∈ s.reserved) && !s.entryPoints.isEmpty && decide (s.connected = ∅)) = false := by
      rcases hbusy with hempty | hconnected
      · rw [hempty, Bool.not_true, Bool.and_false, Bool.false_and]
      · rw [decide_eq_false hconnected, Bool.and_false]
    rw [if_pos hbusy, hkeeps]
    exact h
  · obtain ⟨hentries, halone⟩ := not_or.mp hbusy
    rw [if_neg hbusy, Bool.eq_false_of_not_eq_true hentries, decide_eq_true (not_not.mp halone), Bool.not_false,
      Bool.and_true, Bool.and_true]
    refine ⟨h.named, ?_⟩
    change requests p (s.calls ++ _) = _ + if p ∈ (∅ : Finset Peer) then 1 else 0
    rw [hdials, h.balance, held, if_neg (Finset.notMem_empty p)]
    by_cases hheld : p ∈ s.reserved
    · rw [if_pos hheld, decide_eq_true hheld]
      rfl
    · rw [if_neg hheld, decide_eq_false hheld]
      rfl

theorem Accounts.step (h : Accounts p lost s) (i : Input Peer Key Tx QueryId) :
    Accounts p (lost + (s.loses p i).toNat) (s.step i) := by
  cases i with
  | connectionEstablished peer listens => exact h.connectionEstablished peer listens
  | listenerClosed addresses => exact h.listenerClosed addresses
  | watchdog => exact h.watchdog
  | newListenAddr address => exact h.quiet (quiet_newListenAddr address)
  | discovered peers => exact h.quiet (quiet_discovered peers)
  | gotProviders id providers last => exact h.quiet (quiet_gotProviders id providers last)
  | getProvidersFailed id => exact h.quiet (quiet_getProvidersFailed id)
  | gotClosestPeers id last => exact h.quiet (quiet_gotClosestPeers id last)
  | addAddress peer addr => exact h.quiet (quiet_send rfl)
  | bootstrap => exact h.quiet (quiet_send rfl)
  | provide keys =>
    refine h.quiet ⟨rfl, Iff.rfl, requests_more ?_⟩
    exact List.forall_mem_cons.mpr ⟨rfl, List.forall_mem_singleton.mpr rfl⟩
  | identified peer listenAddrs =>
    refine h.quiet ⟨rfl, Iff.rfl, requests_more fun call hcall => ?_⟩
    obtain ⟨addr, -, rfl⟩ := List.mem_map.mp hcall
    rfl
  | findProviders | findPeer | connectionClosed | expired => exact h.quiet ⟨rfl, Iff.rfl, rfl⟩

theorem Accounts.run (h : Accounts p lost s) (is : List (Input Peer Key Tx QueryId)) :
    Accounts p (lost + s.losses p is) (s.run is) := by
  induction is generalizing s lost with
  | nil => exact h
  | cons i is ih =>
    rw [EventLoop.losses, ← Nat.add_assoc]
    exact ih (h.step i)

end Step

/-- A relay is asked once, and once more for each reservation that is lost and each request that fails. -/
theorem requests_run (config : NodeConfig Peer) (is : List (Input Peer Key Tx QueryId)) (p : Peer) :
    requests p ((EventLoop.new config).run is).calls = (EventLoop.new config).losses p is + held p ((EventLoop.new config).run is) := by
  have hstart : Accounts p 0 (EventLoop.new config : EventLoop Peer Key Tx QueryId) := by
    refine ⟨named_relaysOf config, requests_none fun call hcall => ?_⟩
    obtain ⟨addr, -, hcall⟩ := List.mem_flatMap.mp hcall
    rw [List.mem_append, Option.mem_toList, List.mem_singleton] at hcall
    rcases hcall with hroute | rfl
    · obtain ⟨peer, -, rfl⟩ := Option.map_eq_some_iff.mp hroute
      rfl
    · rfl
  have hrun := (hstart.run is).balance
  rwa [Nat.zero_add] at hrun

/-- A relay that is connected holds a slot, where it could be asked. -/
theorem reserved_of_connected (h : (s.relays p).isSome) : p ∈ (s.step (.connectionEstablished p true)).reserved := by
  obtain ⟨addr, hrelay⟩ := Option.isSome_iff_exists.mp h
  change p ∈ ((s.connect p).walkOnce.reserve p true).reserved
  rw [EventLoop.reserve, walkOnce_relays, show (s.connect p).relays p = some addr from hrelay, walkOnce_reserved]
  change p ∈ EventLoop.reserved (if p ∈ s.reserved then _ else _)
  split
  · rw [walkOnce_reserved]
    assumption
  · rw [if_pos rfl]
    exact Finset.mem_insert_self ..

end Rootmode.P2p
