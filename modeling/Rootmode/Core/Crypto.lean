import Rootmode.Lib.Bytes

namespace Rootmode

open Lib Lib.Bytes

abbrev Address := BitVec 160
abbrev Bytes32 := BitVec 256

/-- The primitives the contracts and the worker call and neither contains: Keccak-256, and the
address of the key behind a secp256k1 signature `(r, s)` with the given parity of `R.y`. -/
structure Crypto where
  keccak256 : Bytes → Bytes32
  recoverSigner : Bytes32 → Bool → Nat → Nat → Option Address

/-- Half the order of secp256k1, above which an `s` is malleable. -/
def secp256k1nHalf : Nat :=
  57896044618658097711785492504343953926418782139537452191302581570759080747168

/-- The EVM precompile: the zero address stands for every failure. -/
def Crypto.ecrecover (C : Crypto) (digest : Bytes32) (v r s : Nat) : Address :=
  if v = 27 then (C.recoverSigner digest false r s).getD 0
  else if v = 28 then (C.recoverSigner digest true r s).getD 0
  else 0

/-- ABI encoding of static words. -/
def abiEncode (words : List Nat) : Bytes := words.flatMap (bigEndian 32)

/-- `keccak256("\x19\x01" || separator || structHash)`. -/
def Crypto.typedDigest (C : Crypto) (separator structHash : Bytes32) : Bytes32 :=
  C.keccak256 ([0x19, 0x01] ++ bigEndian 32 separator.toNat ++ bigEndian 32 structHash.toNat)

def domainTypehash : String :=
  "EIP712Domain(string name,string version,uint256 chainId,address verifyingContract)"

def Crypto.domainSeparator (C : Crypto) (name : String) (chainId : Nat) (verifying : Address) :
    Bytes32 :=
  C.keccak256 (abiEncode
    [(C.keccak256 (ascii domainTypehash)).toNat, (C.keccak256 (ascii name)).toNat,
      (C.keccak256 (ascii "1")).toNat, chainId, verifying.toNat])

end Rootmode
