import Rootmode.Core.Wire
import Rootmode.Lib.Checked

namespace Rootmode.Protocol

open Lib Lib.Bytes Lib.Checked Lib.Entries Lib.Text

/-- What an error of the crate says.  Of a text that does not read it repeats serde's words, which are
left out. -/
inductive CoreError
  | version (got expected : ℕ)
  | invalid (message : String)
  | json
  | signature (message : String)
  | key (message : String)
  deriving DecidableEq

def CoreError.text : CoreError → String
  | .version got expected =>
    s!"unsupported protocol version {got} (this client speaks v{expected})"
  | .invalid message => s!"invalid message: {message}"
  | .json => "json"
  | .signature message => s!"signature: {message}"
  | .key message => s!"key material: {message}"

/-- The signature scheme, by the bytes of its keys and signatures, with the words of its errors. -/
structure Ed25519 where
  Secret : Type
  publicKey : Secret → Bytes
  sign : Secret → Bytes → Bytes
  keyOf : Bytes → Except String Unit
  verify : Bytes → Bytes → Bytes → Except String Unit

/-- A signature is good under the key of its secret. -/
structure Ed25519.Correct (E : Ed25519) : Prop where
  length_publicKey : ∀ k, (E.publicKey k).length = 32
  length_sign : ∀ k msg, (E.sign k msg).length = 64
  keyOf_publicKey : ∀ k, E.keyOf (E.publicKey k) = .ok ⟨⟩
  verify_sign : ∀ k msg, E.verify (E.publicKey k) msg (E.sign k msg) = .ok ⟨⟩

/-- Reading and writing JSON: how a float is written, and which texts are read. -/
structure SerdeJson where
  float : Ieee.Finite Ieee.binary64 → Text
  fromStr : Text → Option Json

section Canonical

variable (S : SerdeJson)

def escape (c : Char) : Text :=
  if c = '"' then ['\\', '"']
  else if c = '\\' then ['\\', '\\']
  else if c.toNat = 8 then ['\\', 'b']
  else if c.toNat = 9 then ['\\', 't']
  else if c.toNat = 10 then ['\\', 'n']
  else if c.toNat = 12 then ['\\', 'f']
  else if c.toNat = 13 then ['\\', 'r']
  else if c.toNat < 32 then "\\u00".toList ++ Hex.pair (UInt8.ofNat c.toNat)
  else [c]

def SerdeJson.toString (v : Json) : Text := v.render ⟨S.float, escape⟩

def canonicalBytes (v : Json) : Bytes := Hex.utf8 (S.toString (v.remove "sig"))

def wireJson (v : Json) : Text := S.toString v

/-- What is printed of the value reads as the value. -/
def SerdeJson.ReadsBack (v : Json) : Prop := S.fromStr (S.toString v) = some v

end Canonical

section Identity

variable (E : Ed25519)

def peerId (k : E.Secret) : Text := Hex.encode (E.publicKey k)

def signHex (k : E.Secret) (msg : Bytes) : Text := Hex.encode (E.sign k msg)

def verifyHex (publicKeyHex : Text) (msg : Bytes) (sigHex : Text) : Except CoreError Unit := do
  let pk ← (Hex.decode (trim publicKeyHex)).mapError fun e =>
    let shown := e.text
    .key s!"public key is not hex: {shown}"
  require (pk.length = 32) (.key "public key must be 32 bytes")
  (E.keyOf pk).mapError fun e => .key s!"bad public key: {e}"
  let sig ← (Hex.decode (trim sigHex)).mapError fun e =>
    let shown := e.text
    .signature s!"signature is not hex: {shown}"
  require (sig.length = 64) (.signature "signature must be 64 bytes")
  (E.verify pk msg sig).mapError .signature

variable {E}

theorem verifyHex_signHex (hE : E.Correct) (k : E.Secret) (msg : Bytes) :
    verifyHex E (peerId E k) msg (signHex E k msg) = .ok ⟨⟩ := by
  simp only [verifyHex, peerId, signHex, Hex.trim_encode, bind_eq_ok, mapError_eq_ok,
    require_eq_ok]
  exact ⟨_, Hex.decode_encode _, ⟨⟩, hE.length_publicKey k, ⟨⟩, hE.keyOf_publicKey k, _,
    Hex.decode_encode _, ⟨⟩, hE.length_sign k msg, hE.verify_sign k msg⟩

end Identity

def checkVersion (v : ℕ) : Except CoreError Unit :=
  require (v = protocolVersion) (.version v protocolVersion)

def maxMessageBytes : ℕ := 64 * 1024 * 1024

section Submit

variable (U : UuidFormat) (S : SerdeJson) (E : Ed25519)

namespace JobSubmit

def unsigned (s : JobSubmit) : JobSubmit := { s with sig := none }

/-- The bytes a signature of the submit is over. -/
def preimage (s : JobSubmit) : Bytes := canonicalBytes S ((codec U).encode s.unsigned)

/-- Signed by a node, which it then comes from. -/
def signedBy (s : JobSubmit) (k : E.Secret) : JobSubmit :=
  let s := { s with from_ := peerId E k, sig := none }
  { s with sig := some (signHex E k (canonicalBytes S ((codec U).encode s))) }

def verify (s : JobSubmit) : Except CoreError Unit :=
  match s.sig with
  | none => .error (.signature "message is unsigned")
  | some sig => verifyHex E s.from_ (s.preimage U S) sig

def textAt (v : Json) (k : String) : Option Text :=
  match v.get k with
  | some (.str t) => some t
  | _ => none

/-- What an object on the wire is signed over: all but the signature and the type. -/
def covered (v : Json) : Json := (v.remove "sig").remove "type"

def coveredObject : Json → Except CoreError Json
  | .obj es => .ok (covered (.obj es))
  | _ => .error (.invalid "expected a JSON object")

/-- The signature of a text that arrived, over what arrived. -/
def verifyWire (raw : Text) : Except CoreError Unit := do
  let tree ← demand (S.fromStr raw) .json
  let value := tree.value
  let sender ← demand (textAt value "from") (.signature "message has no from")
  let sig ← demand (textAt value "sig") (.signature "message is unsigned")
  let body ← coveredObject value
  verifyHex E sender (Hex.utf8 (S.toString body)) sig

end JobSubmit

/-- What a client sends a worker. -/
inductive ClientMessage
  | jobSubmit (m : JobSubmit)
  | jobCancel (m : JobCancel)
  | peerHello (m : PeerHello)
  | jobPay (m : JobPay)
  | unknown

namespace ClientMessage

def encode : ClientMessage → Json
  | jobSubmit m => withTag "type" "job.submit" ((JobSubmit.codec U).encode m)
  | jobCancel m => withTag "type" "job.cancel" ((JobCancel.codec U).encode m)
  | peerHello m => withTag "type" "peer.hello" (PeerHello.codec.encode m)
  | jobPay m => withTag "type" "job.pay" ((JobPay.codec U).encode m)
  | unknown => withTag "type" "Unknown" (.obj [])

def decodeAs (rest : Json) (variant : Text) : Option ClientMessage :=
  if variant = "job.submit".toList then ((JobSubmit.codec U).decode rest).map jobSubmit
  else if variant = "job.cancel".toList then ((JobCancel.codec U).decode rest).map jobCancel
  else if variant = "peer.hello".toList then (PeerHello.codec.decode rest).map peerHello
  else if variant = "job.pay".toList then ((JobPay.codec U).decode rest).map jobPay
  else some unknown

def decode (tree : Json) : Option ClientMessage :=
  match splitTag "type" tree with
  | some (.str variant, rest) => decodeAs U rest variant
  | _ => none

/-- The version a message says, if it says one. -/
def checkVersions : ClientMessage → Except CoreError Unit
  | jobSubmit m => checkVersion m.v
  | peerHello m => checkVersion m.v
  | jobPay m => checkVersion m.v
  | jobCancel _ | unknown => .ok ⟨⟩

def parse (raw : Text) : Except CoreError ClientMessage := do
  require ((Hex.utf8 raw).length ≤ maxMessageBytes)
    (.invalid s!"message exceeds {maxMessageBytes} bytes")
  let tree ← demand (S.fromStr raw) .json
  let msg ← demand (decode U tree) .json
  msg.checkVersions
  return msg

end ClientMessage

end Submit

end Rootmode.Protocol
