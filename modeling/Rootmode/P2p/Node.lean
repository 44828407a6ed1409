import Mathlib.Data.Finset.Lattice.Basic
import Mathlib.Data.Finset.SDiff
import Rootmode.Lib.Gather
import Rootmode.Lib.Text

namespace Rootmode.P2p

open Lib Function

universe u

variable {Peer Key Tx QueryId : Type}

/-- A part of an address, what follows the host being of no account but for the peers it names. -/
inductive Protocol (Peer : Type)
  | ip4 (a b c d : UInt8)
  | ip6 (segments : Vector UInt16 8)
  | dns (name : Text)
  | dns4 (name : Text)
  | dns6 (name : Text)
  | dnsaddr (name : Text)
  | p2p (peer : Peer)
  | p2pCircuit
  | other (text : Text)
  deriving DecidableEq

abbrev Multiaddr (Peer : Type) := List (Protocol Peer)

section Addresses

def isLoopback4 (a _b _c _d : UInt8) : Bool := a == 127

def isPrivate (a b _c _d : UInt8) : Bool :=
  a == 10 || (a == 172 && b &&& 0xf0 == 16) || (a == 192 && b == 168)

def isLinkLocal (a b _c _d : UInt8) : Bool := a == 169 && b == 254

def isUnspecified4 (a b c d : UInt8) : Bool := a == 0 && b == 0 && c == 0 && d == 0

def isBroadcast (a b c d : UInt8) : Bool := a == 255 && b == 255 && c == 255 && d == 255

def isDocumentation (a b c _d : UInt8) : Bool :=
  (a == 192 && b == 0 && c == 2) || (a == 198 && b == 51 && c == 100) || (a == 203 && b == 0 && c == 113)

def isLoopback6 (segments : Vector UInt16 8) : Bool := segments == #v[0, 0, 0, 0, 0, 0, 0, 1]

def isUnspecified6 (segments : Vector UInt16 8) : Bool := segments == #v[0, 0, 0, 0, 0, 0, 0, 0]

/-- Whether an address has any chance of working from another network. -/
def reachableFromAfar (addr : Multiaddr Peer) : Bool :=
  match addr.head? with
  | some (.ip4 a b c d) =>
    let cgnat := a == 100 && b &&& 0b11000000 == 64
    !(isLoopback4 a b c d || isPrivate a b c d || isLinkLocal a b c d || isUnspecified4 a b c d ||
      isBroadcast a b c d || isDocumentation a b c d || cgnat)
  | some (.ip6 s) =>
    let uniqueLocal := s[0] &&& 0xfe00 == 0xfc00
    let linkLocal := s[0] &&& 0xffc0 == 0xfe80
    !(isLoopback6 s || isUnspecified6 s || uniqueLocal || linkLocal)
  | some (.dns _) | some (.dns4 _) | some (.dns6 _) | some (.dnsaddr _) => true
  | _ => false

def isUnspecified (addr : Multiaddr Peer) : Bool :=
  addr.any fun
    | .ip4 a b c d => isUnspecified4 a b c d
    | .ip6 s => isUnspecified6 s
    | _ => false

def peerOf (addr : Multiaddr Peer) : Option Peer :=
  addr.findSome? fun
    | .p2p peer => some peer
    | _ => none

/-- Through a relay. -/
def isCircuit (addr : Multiaddr Peer) : Bool :=
  addr.any fun
    | .p2pCircuit => true
    | _ => false

end Addresses

structure NodeConfig (Peer : Type) where
  bootstrap : List (Multiaddr Peer)
  relayReservation : Bool
  external : List (Multiaddr Peer)

/-- What the loop asks of the swarm. -/
inductive Call (Peer Key : Type)
  | dial (addr : Multiaddr Peer)
  | listenOn (addr : Multiaddr Peer)
  | addAddress (peer : Peer) (addr : Multiaddr Peer)
  | bootstrap
  | startProviding (keys : Finset Key)
  | stopProviding (keys : Finset Key)

/-- The loop, the addresses it has the swarm advertise, whom the swarm is connected to, and what went out. -/
structure EventLoop (Peer Key Tx QueryId : Type) where
  listeners : List (Multiaddr Peer)
  pendingProviders : QueryId → Option (Tx × Finset Peer)
  pendingLookups : QueryId → Option Tx
  localPeers : Finset Peer
  bootstrapped : Bool
  haveBootstrap : Bool
  relays : Peer → Option (Multiaddr Peer)
  reserved : Finset Peer
  entryPoints : List (Multiaddr Peer)
  provided : Finset Key
  advertisedPrivate : List (Multiaddr Peer)
  hasPublicExternal : Bool
  external : Finset (Multiaddr Peer)
  connected : Finset Peer
  calls : List (Call Peer Key)
  answers : List (Tx × Finset Peer)
  walked : List Tx
  events : List Peer

/-- A command, with the id of the query that is begun for it, or something the swarm reports. -/
inductive Input (Peer Key Tx QueryId : Type)
  | provide (keys : Finset Key)
  | findProviders (tx : Tx) (id : QueryId)
  | findPeer (tx : Tx) (id : QueryId)
  | addAddress (peer : Peer) (addr : Multiaddr Peer)
  | bootstrap
  | newListenAddr (address : Multiaddr Peer)
  | connectionEstablished (peer : Peer) (listens : Bool)
  | connectionClosed (peer : Peer)
  | identified (peer : Peer) (listenAddrs : List (Multiaddr Peer))
  | discovered (peers : List (Peer × Multiaddr Peer))
  | expired (peers : List (Peer × Multiaddr Peer))
  | gotProviders (id : QueryId) (providers : Finset Peer) (last : Bool)
  | getProvidersFailed (id : QueryId)
  | gotClosestPeers (id : QueryId) (last : Bool)
  | listenerClosed (addresses : List (Multiaddr Peer))
  | watchdog

variable [DecidableEq Peer] [DecidableEq Key] [DecidableEq QueryId]

/-- A relay to reserve with, where the address says which peer it is. -/
def wantRelay (relays : Peer → Option (Multiaddr Peer)) (addr : Multiaddr Peer) : Peer → Option (Multiaddr Peer) :=
  match peerOf addr with
  | some peer => update relays peer (some addr)
  | none => relays

def relaysOf (config : NodeConfig Peer) : Peer → Option (Multiaddr Peer) :=
  if config.relayReservation then config.bootstrap.foldl wantRelay fun _ => none else fun _ => none

def EventLoop.new (config : NodeConfig Peer) : EventLoop Peer Key Tx QueryId where
  listeners := []
  pendingProviders := fun _ => none
  pendingLookups := fun _ => none
  localPeers := ∅
  bootstrapped := false
  haveBootstrap := !config.bootstrap.isEmpty
  relays := relaysOf config
  reserved := ∅
  entryPoints := config.bootstrap
  provided := ∅
  advertisedPrivate := []
  hasPublicExternal := config.external.any reachableFromAfar
  external := config.external.toFinset
  connected := ∅
  calls := config.bootstrap.flatMap fun addr =>
    ((peerOf addr).map fun peer => Call.addAddress peer addr).toList ++ [.dial addr]
  answers := []
  walked := []
  events := []

namespace EventLoop

variable (s : EventLoop Peer Key Tx QueryId)

def send (call : Call Peer Key) : EventLoop Peer Key Tx QueryId := { s with calls := s.calls ++ [call] }

/-- With nobody left to talk to, the entry points are dialled again. -/
def reconnectIfAlone : EventLoop Peer Key Tx QueryId :=
  if s.entryPoints.isEmpty ∨ s.connected ≠ ∅ then s
  else { s with calls := s.calls ++ s.entryPoints.map .dial, bootstrapped := false, reserved := ∅ }

def provide (next : Finset Key) : EventLoop Peer Key Tx QueryId :=
  { s with
    calls := s.calls ++ [.stopProviding (s.provided \ next), .startProviding next]
    provided := next }

def listen (address : Multiaddr Peer) : EventLoop Peer Key Tx QueryId :=
  { s with listeners := s.listeners ++ [address] }

def publish (address : Multiaddr Peer) : EventLoop Peer Key Tx QueryId :=
  { s with external := insert address s.external }

/-- The first address that the wider internet can dial takes the place of the private ones. -/
def goPublic : EventLoop Peer Key Tx QueryId :=
  if s.hasPublicExternal then s
  else { s with
    hasPublicExternal := true
    external := s.external \ s.advertisedPrivate.toFinset
    advertisedPrivate := [] }

def onNewListenAddr (address : Multiaddr Peer) : EventLoop Peer Key Tx QueryId :=
  if isUnspecified address then s.listen address
  else if reachableFromAfar address then (s.listen address).goPublic.publish address
  else if s.hasPublicExternal then s.listen address
  else { (s.listen address).publish address with advertisedPrivate := s.advertisedPrivate ++ [address] }

def connect (peer : Peer) : EventLoop Peer Key Tx QueryId := { s with connected := insert peer s.connected }

def walkOnce : EventLoop Peer Key Tx QueryId :=
  if !s.bootstrapped && s.haveBootstrap then { s.send .bootstrap with bootstrapped := true } else s

/-- A relay is asked to hold a slot, `listens` telling whether it can be asked. -/
def reserve (peer : Peer) (listens : Bool) : EventLoop Peer Key Tx QueryId :=
  match s.relays peer with
  | none => s
  | some addr =>
    if peer ∈ s.reserved then s
    else if listens then { s.send (.listenOn (addr ++ [.p2pCircuit])) with reserved := insert peer s.reserved }
    else s.send (.listenOn (addr ++ [.p2pCircuit]))

def onConnectionEstablished (peer : Peer) (listens : Bool) : EventLoop Peer Key Tx QueryId :=
  (s.connect peer).walkOnce.reserve peer listens

def onIdentified (peer : Peer) (listenAddrs : List (Multiaddr Peer)) : EventLoop Peer Key Tx QueryId :=
  let isLocal := decide (peer ∈ s.localPeers)
  { s with
    calls := s.calls ++ (listenAddrs.filter fun addr => isLocal || reachableFromAfar addr).map (.addAddress peer) }

def onDiscovered (found : Peer × Multiaddr Peer) : EventLoop Peer Key Tx QueryId :=
  if found.1 ∈ s.localPeers then s.send (.addAddress found.1 found.2)
  else { s.send (.addAddress found.1 found.2) with
    localPeers := insert found.1 s.localPeers
    events := s.events ++ [found.1] }

def collect (id : QueryId) (providers : Finset Peer) : EventLoop Peer Key Tx QueryId :=
  match s.pendingProviders id with
  | some (tx, seen) => { s with pendingProviders := update s.pendingProviders id (some (tx, seen ∪ providers)) }
  | none => s

def answer (id : QueryId) : EventLoop Peer Key Tx QueryId :=
  match s.pendingProviders id with
  | some (tx, seen) =>
    { s with pendingProviders := update s.pendingProviders id none, answers := s.answers ++ [(tx, seen)] }
  | none => s

def onGotProviders (id : QueryId) (providers : Finset Peer) (last : Bool) : EventLoop Peer Key Tx QueryId :=
  if last then (s.collect id providers).answer id else s.collect id providers

def onGetProvidersFailed (id : QueryId) : EventLoop Peer Key Tx QueryId := s.answer id

def onGotClosestPeers (id : QueryId) (last : Bool) : EventLoop Peer Key Tx QueryId :=
  if last then
    match s.pendingLookups id with
    | some tx => { s with pendingLookups := update s.pendingLookups id none, walked := s.walked ++ [tx] }
    | none => s
  else s

def onListenerClosed (addresses : List (Multiaddr Peer)) : EventLoop Peer Key Tx QueryId :=
  if addresses.any isCircuit then
    { s with reserved := s.reserved \ (addresses.filterMap peerOf).toFinset }
  else s

def step : Input Peer Key Tx QueryId → EventLoop Peer Key Tx QueryId
  | .provide keys => s.provide keys
  | .findProviders tx id => { s with pendingProviders := update s.pendingProviders id (some (tx, ∅)) }
  | .findPeer tx id => { s with pendingLookups := update s.pendingLookups id (some tx) }
  | .addAddress peer addr => s.send (.addAddress peer addr)
  | .bootstrap => s.send .bootstrap
  | .newListenAddr address => s.onNewListenAddr address
  | .connectionEstablished peer listens => s.onConnectionEstablished peer listens
  | .connectionClosed peer => { s with connected := s.connected.erase peer }
  | .identified peer listenAddrs => s.onIdentified peer listenAddrs
  | .discovered peers => peers.foldl onDiscovered s
  | .expired peers => { s with localPeers := s.localPeers \ (peers.map Prod.fst).toFinset }
  | .gotProviders id providers last => s.onGotProviders id providers last
  | .getProvidersFailed id => s.onGetProvidersFailed id
  | .gotClosestPeers id last => s.onGotClosestPeers id last
  | .listenerClosed addresses => s.onListenerClosed addresses
  | .watchdog => s.reconnectIfAlone

def run (is : List (Input Peer Key Tx QueryId)) : EventLoop Peer Key Tx QueryId := is.foldl step s

end EventLoop

end Rootmode.P2p
