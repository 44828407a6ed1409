import Rootmode.P2p.Node

set_option linter.unusedSectionVars false

namespace Rootmode.P2p

open Lib Lib.Gather Function

variable {Peer Key Tx QueryId : Type} [DecidableEq Peer] [DecidableEq Key] [DecidableEq QueryId]
  {s : EventLoop Peer Key Tx QueryId} {i : Input Peer Key Tx QueryId} {is before after : List (Input Peer Key Tx QueryId)}
  {config : NodeConfig Peer} {tx : Tx} {id : QueryId} {peer : Peer} {call : Call Peer Key}

namespace EventLoop

theorem run_cons : s.run (i :: is) = (s.step i).run is := rfl

theorem run_append : s.run (before ++ after) = (s.run before).run after := List.foldl_append

/-- What of the loop the questions and answers about providers are. -/
def providers (s : EventLoop Peer Key Tx QueryId) : Gather.State QueryId Tx Peer := ⟨s.pendingProviders, s.answers⟩

/-- What of the loop the walks towards peers are, which tell nothing but that they are over. -/
def lookups (s : EventLoop Peer Key Tx QueryId) : Gather.State QueryId Tx Empty :=
  ⟨fun id => (s.pendingLookups id).map (·, ∅), s.walked.map (·, ∅)⟩

section Apart

/-- What only other parts of the loop notice. -/
structure Apart (s s' : EventLoop Peer Key Tx QueryId) : Prop where
  pendingProviders : s'.pendingProviders = s.pendingProviders
  pendingLookups : s'.pendingLookups = s.pendingLookups
  answers : s'.answers = s.answers
  walked : s'.walked = s.walked

theorem Apart.refl (s : EventLoop Peer Key Tx QueryId) : Apart s s := ⟨rfl, rfl, rfl, rfl⟩

theorem Apart.trans {t r : EventLoop Peer Key Tx QueryId} (h : Apart s t) (h' : Apart t r) : Apart s r :=
  ⟨h'.1.trans h.1, h'.2.trans h.2, h'.3.trans h.3, h'.4.trans h.4⟩

theorem apart_goPublic : Apart s s.goPublic := by
  rw [goPublic]
  split
  · exact .refl s
  · exact ⟨rfl, rfl, rfl, rfl⟩

theorem apart_onNewListenAddr (address : Multiaddr Peer) : Apart s (s.onNewListenAddr address) := by
  have hlisten : Apart s (s.listen address) := ⟨rfl, rfl, rfl, rfl⟩
  rw [onNewListenAddr]
  split
  · exact hlisten
  · split
    · exact hlisten.trans (apart_goPublic.trans ⟨rfl, rfl, rfl, rfl⟩)
    · split
      · exact hlisten
      · exact ⟨rfl, rfl, rfl, rfl⟩

theorem apart_walkOnce : Apart s s.walkOnce := by
  rw [walkOnce]
  split
  · exact ⟨rfl, rfl, rfl, rfl⟩
  · exact .refl s

theorem apart_reserve (peer : Peer) (listens : Bool) : Apart s (s.reserve peer listens) := by
  rw [reserve]
  split
  · exact .refl s
  · split
    · exact .refl s
    · split
      · exact ⟨rfl, rfl, rfl, rfl⟩
      · exact ⟨rfl, rfl, rfl, rfl⟩

theorem apart_onConnectionEstablished (peer : Peer) (listens : Bool) :
    Apart s (s.onConnectionEstablished peer listens) := by
  have hconnect : Apart s (s.connect peer) := ⟨rfl, rfl, rfl, rfl⟩
  exact hconnect.trans (apart_walkOnce.trans (apart_reserve peer listens))

theorem apart_discovered (peers : List (Peer × Multiaddr Peer)) : Apart s (peers.foldl onDiscovered s) := by
  induction peers generalizing s with
  | nil => exact .refl s
  | cons found peers ih =>
    refine Apart.trans ?_ ih
    rw [onDiscovered]
    split
    · exact ⟨rfl, rfl, rfl, rfl⟩
    · exact ⟨rfl, rfl, rfl, rfl⟩

theorem apart_onListenerClosed (addresses : List (Multiaddr Peer)) : Apart s (s.onListenerClosed addresses) := by
  rw [onListenerClosed]
  split
  · exact ⟨rfl, rfl, rfl, rfl⟩
  · exact .refl s

theorem apart_reconnectIfAlone : Apart s s.reconnectIfAlone := by
  rw [reconnectIfAlone]
  split
  · exact .refl s
  · exact ⟨rfl, rfl, rfl, rfl⟩

end Apart

section Providers

/-- What an input says about queries for providers. -/
def ofProviders : Input Peer Key Tx QueryId → List (Event QueryId Tx Peer)
  | .findProviders tx id => [.ask id tx]
  | .gotProviders id providers last => [.hear id providers last]
  | .getProvidersFailed id => [.hear id ∅ true]
  | _ => []

theorem Apart.providers {s' : EventLoop Peer Key Tx QueryId} (h : Apart s s') : s'.providers = s.providers := by
  rw [EventLoop.providers, h.pendingProviders, h.answers]
  rfl

theorem providers_onGotProviders (providers : Finset Peer) (last : Bool) :
    (s.onGotProviders id providers last).providers = s.providers.hear id providers last := by
  cases hw : s.pendingProviders id with
  | none =>
    have hcollect : s.collect id providers = s := by
      rw [collect, hw]
    have hanswer : s.answer id = s := by
      rw [answer, hw]
    rw [Gather.State.hear_none hw, onGotProviders, hcollect, hanswer]
    split <;> rfl
  | some entry =>
    have hcollect : s.collect id providers = { s with
        pendingProviders := update s.pendingProviders id (some (entry.1, entry.2 ∪ providers)) } := by
      rw [collect, hw]
    cases last with
    | false =>
      rw [Gather.State.hear_more hw, onGotProviders, hcollect]
      rfl
    | true =>
      rw [Gather.State.hear_last hw, onGotProviders, hcollect, if_pos rfl, answer]
      simp only [update_self, update_idem]
      rfl

theorem providers_onGetProvidersFailed : (s.onGetProvidersFailed id).providers = s.providers.hear id ∅ true := by
  rw [onGetProvidersFailed, answer]
  cases hw : s.pendingProviders id with
  | none => rw [Gather.State.hear_none hw]
  | some entry =>
    rw [Gather.State.hear_last hw, Finset.union_empty]
    rfl

theorem providers_step (i : Input Peer Key Tx QueryId) : (s.step i).providers = s.providers.run (ofProviders i) := by
  cases i with
  | findProviders tx id => rfl
  | gotProviders id providers last => exact providers_onGotProviders providers last
  | getProvidersFailed id => exact providers_onGetProvidersFailed
  | gotClosestPeers id last =>
    have hstep : (s.onGotClosestPeers id last).providers = s.providers := by
      rw [onGotClosestPeers]
      split
      · split <;> rfl
      · rfl
    exact hstep
  | newListenAddr address => exact (apart_onNewListenAddr address).providers
  | connectionEstablished peer listens => exact (apart_onConnectionEstablished peer listens).providers
  | discovered peers => exact (apart_discovered peers).providers
  | listenerClosed addresses => exact (apart_onListenerClosed addresses).providers
  | watchdog => exact apart_reconnectIfAlone.providers
  | provide | findPeer | addAddress | bootstrap | connectionClosed | identified | expired => rfl

theorem providers_run : (s.run is).providers = s.providers.run (is.flatMap ofProviders) := by
  induction is generalizing s with
  | nil => rfl
  | cons i is ih =>
    rw [run_cons, ih, providers_step, List.flatMap_cons, Gather.run_append]

end Providers

section Lookups

/-- What an input says about walks towards peers. -/
def ofLookups : Input Peer Key Tx QueryId → List (Event QueryId Tx Empty)
  | .findPeer tx id => [.ask id tx]
  | .gotClosestPeers id last => [.hear id ∅ last]
  | _ => []

theorem Apart.lookups {s' : EventLoop Peer Key Tx QueryId} (h : Apart s s') : s'.lookups = s.lookups := by
  rw [EventLoop.lookups, h.pendingLookups, h.walked]
  rfl

theorem lookups_update (m : QueryId → Option Tx) (o : Option Tx) :
    (fun k => (update m id o k).map (·, (∅ : Finset Empty))) = update (fun k => (m k).map (·, ∅)) id (o.map (·, ∅)) := by
  funext k
  by_cases hk : k = id
  · rw [hk, update_self, update_self]
  · rw [update_of_ne hk, update_of_ne hk]

theorem lookups_onGotClosestPeers (last : Bool) :
    (s.onGotClosestPeers id last).lookups = s.lookups.hear id ∅ last := by
  rw [onGotClosestPeers]
  cases hw : s.pendingLookups id with
  | none =>
    have hnone : s.lookups.waiting id = none := congrArg (Option.map (·, ∅)) hw
    rw [Gather.State.hear_none hnone]
    split <;> rfl
  | some tx =>
    have hsome : s.lookups.waiting id = some (tx, ∅) := congrArg (Option.map (·, ∅)) hw
    cases last with
    | false =>
      rw [Gather.State.hear_more hsome, Finset.union_empty, ← hsome, update_eq_self]
      rfl
    | true =>
      rw [Gather.State.hear_last hsome, Finset.union_empty, if_pos rfl]
      simp only [lookups, lookups_update, List.map_append, List.map_cons, List.map_nil, Option.map_none]

theorem lookups_step (i : Input Peer Key Tx QueryId) : (s.step i).lookups = s.lookups.run (ofLookups i) := by
  cases i with
  | findPeer tx id =>
    change Gather.State.mk (fun k => (update s.pendingLookups id (some tx) k).map (·, ∅)) _ = _
    rw [lookups_update]
    rfl
  | gotClosestPeers id last => exact lookups_onGotClosestPeers last
  | gotProviders id providers last =>
    have hcollect : (s.collect id providers).lookups = s.lookups := by
      rw [collect]
      split <;> rfl
    have hanswer : ∀ t : EventLoop Peer Key Tx QueryId, (t.answer id).lookups = t.lookups := by
      intro t
      rw [answer]
      split <;> rfl
    change (s.onGotProviders id providers last).lookups = s.lookups
    rw [onGotProviders]
    split
    · rw [hanswer, hcollect]
    · exact hcollect
  | getProvidersFailed id =>
    change (s.answer id).lookups = s.lookups
    rw [answer]
    split <;> rfl
  | newListenAddr address => exact (apart_onNewListenAddr address).lookups
  | connectionEstablished peer listens => exact (apart_onConnectionEstablished peer listens).lookups
  | discovered peers => exact (apart_discovered peers).lookups
  | listenerClosed addresses => exact (apart_onListenerClosed addresses).lookups
  | watchdog => exact apart_reconnectIfAlone.lookups
  | provide | findProviders | addAddress | bootstrap | connectionClosed | identified | expired => rfl

theorem lookups_run : (s.run is).lookups = s.lookups.run (is.flatMap ofLookups) := by
  induction is generalizing s with
  | nil => rfl
  | cons i is ih =>
    rw [run_cons, ih, lookups_step, List.flatMap_cons, Gather.run_append]

end Lookups

end EventLoop

section Queries

/-- A query is begun for no one else under an id of its own. -/
def Input.Foreign (tx : Tx) (id : QueryId) : Input Peer Key Tx QueryId → Prop
  | .findProviders tx' id' | .findPeer tx' id' => tx' ≠ tx ∧ id' ≠ id
  | _ => True

theorem ofProviders_foreign (h : i.Foreign tx id) :
    ∀ e ∈ EventLoop.ofProviders i, Event.Foreign id tx e := by
  cases i with
  | findProviders tx' id' => exact List.forall_mem_singleton.mpr ⟨h.2, h.1⟩
  | gotProviders | getProvidersFailed => exact List.forall_mem_singleton.mpr trivial
  | _ => exact List.forall_mem_nil _

theorem ofLookups_foreign (h : i.Foreign tx id) : ∀ e ∈ EventLoop.ofLookups i, Event.Foreign id tx e := by
  cases i with
  | findPeer tx' id' => exact List.forall_mem_singleton.mpr ⟨h.2, h.1⟩
  | gotClosestPeers => exact List.forall_mem_singleton.mpr trivial
  | _ => exact List.forall_mem_nil _

variable [DecidableEq Tx]

/-- Whatever else goes on, a search for providers has one answer, once its query is over: the peers that were
reported for it. -/
theorem findProviders_answered (hbefore : ∀ i ∈ before, i.Foreign tx id) (hafter : ∀ i ∈ after, i.Foreign tx id) :
    ((EventLoop.new config).run (before ++ .findProviders tx id :: after) : EventLoop Peer Key Tx QueryId).answers.filter
        (·.1 = tx) =
      ((heard id ∅ (after.flatMap EventLoop.ofProviders)).map (tx, ·)).toList := by
  have hrun := @EventLoop.providers_run _ _ _ _ _ _ _ (EventLoop.new config) (before ++ .findProviders tx id :: after)
  rw [List.flatMap_append, List.flatMap_cons] at hrun
  have hforeign : ∀ is : List (Input Peer Key Tx QueryId), (∀ i ∈ is, i.Foreign tx id) →
      ∀ e ∈ is.flatMap EventLoop.ofProviders, Event.Foreign id tx e := by
    intro is his e he
    obtain ⟨i, hi, he⟩ := List.mem_flatMap.mp he
    exact ofProviders_foreign (his i hi) e he
  have hask := answersTo_ask (hforeign before hbefore) (hforeign after hafter)
  rw [← hask]
  exact congrArg (Gather.State.answersTo · tx) hrun

/-- Two queries at once, and the answers mixed. -/
theorem findProviders_answered_both :
    ((EventLoop.new ⟨[], false, []⟩).run ([.findProviders 2 2] ++ .findProviders 1 1 ::
        [.gotProviders 2 {5} true, .gotProviders 1 {7} false, .getProvidersFailed 1, .gotProviders 1 {9} true]) :
          EventLoop ℕ ℕ ℕ ℕ).answers.filter (·.1 = 1) = [(1, {7})] :=
  (findProviders_answered (by simp [Input.Foreign]) (by simp [Input.Foreign])).trans (by decide)

/-- A walk towards a peer is over for the one who asked for it once, when its query is. -/
theorem findPeer_walked (hbefore : ∀ i ∈ before, i.Foreign tx id) (hafter : ∀ i ∈ after, i.Foreign tx id) :
    ((EventLoop.new config).run (before ++ .findPeer tx id :: after) : EventLoop Peer Key Tx QueryId).walked.count tx =
      (heard id ∅ (after.flatMap EventLoop.ofLookups)).toList.length := by
  have hrun := @EventLoop.lookups_run _ _ _ _ _ _ _ (EventLoop.new config) (before ++ .findPeer tx id :: after)
  rw [List.flatMap_append, List.flatMap_cons] at hrun
  have hforeign : ∀ is : List (Input Peer Key Tx QueryId), (∀ i ∈ is, i.Foreign tx id) →
      ∀ e ∈ is.flatMap EventLoop.ofLookups, Event.Foreign id tx e := by
    intro is his e he
    obtain ⟨i, hi, he⟩ := List.mem_flatMap.mp he
    exact ofLookups_foreign (his i hi) e he
  have hask := answersTo_ask (hforeign before hbefore) (hforeign after hafter)
  have hanswers := congrArg List.length ((congrArg (Gather.State.answersTo · tx) hrun).trans hask)
  change (((_ : List Tx).map (·, (∅ : Finset Empty))).filter (·.1 = tx)).length = _ at hanswers
  rw [List.filter_map, List.length_map, Option.toList_map, List.length_map] at hanswers
  rw [← hanswers, List.count, List.countP_eq_length_filter]
  rfl

end Queries

end Rootmode.P2p
