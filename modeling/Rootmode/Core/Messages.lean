import Rootmode.Core.SignedSubmit
import Rootmode.Lib.Variants

namespace Rootmode.Protocol

open Lib Lib.Checked Lib.Entries

variable {U : UuidFormat} {S : SerdeJson}

section Frees

theorem frees_submit : (JobSubmit.codec U).Frees "type" := by
  intro s
  exact JobSubmit.encode_obj s

theorem frees_cancel : (JobCancel.codec U).Frees "type" := Codec.frees_record _ _ _ (by simp [Fields.names])

theorem frees_hello : PeerHello.codec.Frees "type" := Codec.frees_record _ _ _ (by simp [Fields.names])

theorem frees_pay : (JobPay.codec U).Frees "type" := Codec.frees_record _ _ _ (by simp [Fields.names])

end Frees

/-- A text within the limit that reads as a value, where the value is a message of this version. -/
theorem parse_eq_ok {M : Type} {decode : Json → Option M} {versions : M → Except CoreError Unit} {raw : Text} {v : Json}
    {m : M} (hshort : (Hex.utf8 raw).length ≤ maxMessageBytes) (hread : S.fromStr raw = some v)
    (hdecode : decode v = some m) (hversions : versions m = .ok ⟨⟩) :
    (do
      require ((Hex.utf8 raw).length ≤ maxMessageBytes) (.invalid s!"message exceeds {maxMessageBytes} bytes")
      let tree ← demand (S.fromStr raw) CoreError.json
      let msg ← demand (decode tree) CoreError.json
      versions msg
      return msg : Except CoreError M) = .ok m := by
  rw [require, if_pos hshort, hread]
  change (do
    let msg ← demand (decode v) CoreError.json
    versions msg
    return msg) = _
  rw [hdecode]
  change (do
    versions m
    return m) = _
  rw [hversions]
  rfl

namespace ClientMessage

variable {m : ClientMessage}

def Fits (U : UuidFormat) : ClientMessage → Prop
  | jobSubmit m => (JobSubmit.codec U).Fits m
  | jobCancel m => (JobCancel.codec U).Fits m
  | peerHello m => PeerHello.codec.Fits m
  | jobPay m => (JobPay.codec U).Fits m
  | unknown => True

def Whole (U : UuidFormat) : ClientMessage → Prop
  | jobSubmit m => (JobSubmit.codec U).Whole m
  | jobCancel m => (JobCancel.codec U).Whole m
  | peerHello m => PeerHello.codec.Whole m
  | jobPay m => (JobPay.codec U).Whole m
  | unknown => True

theorem decode_encode (hfits : m.Fits U) (hwhole : m.Whole U) : decode U (encode U m) = some m := by
  cases m with
  | jobSubmit m => exact decode_encode_submit hfits hwhole
  | jobCancel m =>
    rw [encode, decode, frees_cancel.splitTag]
    dsimp only
    rw [decodeAs, if_neg (by decide), if_pos rfl, (JobCancel.codec U).decode_encode m hfits hwhole]
    rfl
  | peerHello m =>
    rw [encode, decode, frees_hello.splitTag]
    dsimp only
    rw [decodeAs, if_neg (by decide), if_neg (by decide), if_pos rfl, PeerHello.codec.decode_encode m hfits hwhole]
    rfl
  | jobPay m =>
    rw [encode, decode, frees_pay.splitTag]
    dsimp only
    rw [decodeAs, if_neg (by decide), if_neg (by decide), if_neg (by decide), if_pos rfl,
      (JobPay.codec U).decode_encode m hfits hwhole]
    rfl
  | unknown => rfl

/-- A message that can go over the wire: of this version, its numbers within their types and finite, its text within
the limit, and read back by the library that printed it. -/
structure Sendable (U : UuidFormat) (S : SerdeJson) (m : ClientMessage) : Prop where
  fits : m.Fits U
  whole : m.Whole U
  versions : m.checkVersions = .ok ⟨⟩
  short : (Hex.utf8 (wireJson S (encode U m))).length ≤ maxMessageBytes
  reads : S.ReadsBack (encode U m)

theorem Sendable.parse (h : m.Sendable U S) : parse U S (wireJson S (encode U m)) = .ok m :=
  parse_eq_ok h.short h.reads (decode_encode h.fits h.whole) h.versions

end ClientMessage

end Rootmode.Protocol
