import Rootmode.Core.Protocol

namespace Rootmode.Protocol

open Lib Lib.Bytes Lib.Checked Lib.Entries Lib.Text

variable {U : UuidFormat} {S : SerdeJson} {E : Ed25519}

namespace JobSubmit

variable {es : List (String × Json)} {s : JobSubmit}

theorem decode_obj : (codec U).decode (.obj es) = some s ↔
    version.read (slot "v" es) = some s.v ∧
    (FieldCodec.required U.codec).read (slot "job_id" es) = some s.jobId ∧
    (FieldCodec.required Codec.text).read (slot "from" es) = some s.from_ ∧
    (FieldCodec.required JobPayload.codec).read (slot "payload" es) = some s.payload ∧
    optionalText.read (slot "sig" es) = some s.sig ∧
    (FieldCodec.optional spendingAuthCodec rfl).read (slot "spend" es) = some s.spend ∧
    optionalText.read (slot "payer" es) = some s.payer ∧
    (FieldCodec.optional (JobPay.codec U) rfl).read (slot "bond" es) = some s.bond ∧
    (FieldCodec.optional ReservePost.codec rfl).read (slot "reserve" es) = some s.reserve := by
  refine Codec.record_decode_obj.trans ?_
  simp only [Fields.read_and]
  simp [Fields.read]

theorem slot_from (h : (codec U).decode (.obj es) = some s) :
    slot "from" es = .entry (.str s.from_) := by
  obtain ⟨-, -, hfrom, -⟩ := decode_obj.mp h
  cases hslot : slot "from" es with
  | missing | repeated =>
    rw [hslot] at hfrom
    nomatch hfrom
  | entry j =>
    rw [hslot] at hfrom
    cases j with
    | str t =>
      cases hfrom
      rfl
    | null | bool | num | arr | obj => nomatch hfrom

theorem slot_sig (h : (codec U).decode (.obj es) = some s) :
    slot "sig" es = .missing ∧ s.sig = none ∨ slot "sig" es = .entry .null ∧ s.sig = none ∨
      ∃ t, slot "sig" es = .entry (.str t) ∧ s.sig = some t := by
  obtain ⟨-, -, -, -, hsig, -⟩ := decode_obj.mp h
  cases hslot : slot "sig" es with
  | missing =>
    rw [hslot] at hsig
    exact .inl ⟨rfl, (Option.some.inj hsig).symm⟩
  | repeated =>
    rw [hslot] at hsig
    nomatch hsig
  | entry j =>
    rw [hslot] at hsig
    cases j with
    | null =>
      exact .inr (.inl ⟨rfl, (Option.some.inj hsig).symm⟩)
    | str t =>
      exact .inr (.inr ⟨t, rfl, (Option.some.inj hsig).symm⟩)
    | bool | num | arr | obj => nomatch hsig

theorem textAt_from (h : (codec U).decode (.obj es) = some s) :
    textAt (.obj es) "from" = some s.from_ := by
  rw [textAt, get_of_slot (slot_from h)]

theorem textAt_sig (h : (codec U).decode (.obj es) = some s) :
    textAt (.obj es) "sig" = s.sig := by
  rcases slot_sig h with ⟨hslot, hsig⟩ | ⟨hslot, hsig⟩ | ⟨t, hslot, hsig⟩
  · rw [textAt, get_of_missing hslot, hsig]
  · rw [textAt, get_of_slot hslot, hsig]
  · rw [textAt, get_of_slot hslot, hsig]

/-- Without its signature an object is the submit without it. -/
theorem decode_without_sig (h : (codec U).decode (.obj es) = some s) :
    (codec U).decode (.obj (without "sig" es)) = some s.unsigned := by
  rw [decode_obj] at h ⊢
  obtain ⟨hv, hjob, hfrom, hpayload, -, hspend, hpayer, hbond, hreserve⟩ := h
  simp only [slot_without]
  exact ⟨hv, hjob, hfrom, hpayload, rfl, hspend, hpayer, hbond, hreserve⟩

/-- The type of a message is none of the submit's fields. -/
theorem decode_without_type :
    (codec U).decode (.obj (without "type" es)) = some s ↔
      (codec U).decode (.obj es) = some s := by
  rw [decode_obj, decode_obj]
  simp only [slot_without]
  exact Iff.rfl

theorem fits_signed (h : (codec U).Fits s) (sender : Text) (sig : Option Text) :
    (codec U).Fits { s with from_ := sender, sig := sig } := by
  obtain ⟨hv, hjob, -, hpayload, -, hspend, hpayer, hbond, hreserve⟩ := h
  exact ⟨hv, hjob, trivial, hpayload, fun _ _ => trivial, hspend, hpayer, hbond, hreserve⟩

theorem whole_signed (h : (codec U).Whole s) (sender : Text) (sig : Option Text) :
    (codec U).Whole { s with from_ := sender, sig := sig } := by
  obtain ⟨hv, hjob, -, hpayload, -, hspend, hpayer, hbond, hreserve⟩ := h
  exact ⟨hv, hjob, trivial, hpayload, fun _ _ => trivial, hspend, hpayer, hbond, hreserve⟩

theorem encode_obj (s : JobSubmit) :
    ∃ es, (codec U).encode s = .obj es ∧ Ordered es ∧ "type" ∉ keys es := by
  obtain ⟨es, hes, hord, hkeys⟩ := Codec.record_encode _ _ _ s
  refine ⟨es, hes, hord, fun hmem => ?_⟩
  have hnot := hkeys "type" hmem
  simp [Fields.names] at hnot

/-- What is signed does not say who signed it. -/
theorem remove_sig_encode (s : JobSubmit) :
    ((codec U).encode s).remove "sig" = ((codec U).encode s.unsigned).remove "sig" := by
  change Json.obj (without "sig" (putAll _ [])) = Json.obj (without "sig" (putAll _ []))
  rw [without_putAll, without_putAll]
  apply congrArg fun es => Json.obj (putAll es [])
  iterate 4 apply Fields.without_write_tail
  exact (Fields.without_write_head ..).trans (Fields.without_write_head ..).symm

end JobSubmit

namespace ClientMessage

variable {s : JobSubmit}

theorem isValue_encode_submit (s : JobSubmit) : (encode U (.jobSubmit s)).IsValue := by
  obtain ⟨es, hes, hord, -⟩ := JobSubmit.encode_obj (U := U) s
  rw [encode, hes]
  exact isValue_withTag hord (hes ▸ (JobSubmit.codec U).isValue s)

theorem decode_encode_submit (hfits : (JobSubmit.codec U).Fits s)
    (hwhole : (JobSubmit.codec U).Whole s) :
    decode U (encode U (.jobSubmit s)) = some (.jobSubmit s) := by
  obtain ⟨es, hes, hord, hnew⟩ := JobSubmit.encode_obj (U := U) s
  have hback : (JobSubmit.codec U).decode (.obj es) = some s :=
    hes ▸ (JobSubmit.codec U).decode_encode s hfits hwhole
  rw [encode, hes, decode, splitTag_withTag hord hnew]
  dsimp only
  rw [decodeAs, if_pos rfl, hback]
  rfl

/-- A text that reads as a submit that was written is that submit. -/
theorem parse_of_fromStr {raw : Text} (hread : S.fromStr raw = some (encode U (.jobSubmit s)))
    (hfits : (JobSubmit.codec U).Fits s) (hwhole : (JobSubmit.codec U).Whole s) :
    parse U S raw =
      if maxMessageBytes < (Hex.utf8 raw).length then
        .error (.invalid s!"message exceeds {maxMessageBytes} bytes")
      else if s.v = protocolVersion then .ok (.jobSubmit s)
      else .error (.version s.v protocolVersion) := by
  rw [parse, hread]
  split
  · next hlong =>
    rw [require, if_neg (not_le.mpr hlong)]
    rfl
  · next hshort =>
    rw [require, if_pos (not_lt.mp hshort)]
    change (do
      let msg ← demand (decode U (encode U (.jobSubmit s))) CoreError.json
      msg.checkVersions
      return msg) = _
    rw [decode_encode_submit hfits hwhole]
    change (do
      checkVersion s.v
      return ClientMessage.jobSubmit s) = _
    rw [checkVersion, require]
    split
    · rfl
    · rfl

/-- What a submit on the wire is signed over is what its signer signed. -/
theorem covered_encode_submit (s : JobSubmit) :
    JobSubmit.covered (encode U (.jobSubmit s)) =
      ((JobSubmit.codec U).encode s.unsigned).remove "sig" := by
  obtain ⟨es, hes, hord, hnew⟩ := JobSubmit.encode_obj (U := U) s
  have hbody : JobSubmit.covered (encode U (.jobSubmit s)) = Json.obj (without "sig" es) := by
    rw [encode, hes, withTag, JobSubmit.covered, Json.remove, Json.remove, without_comm,
      without_put hord hnew]
  rw [hbody, ← JobSubmit.remove_sig_encode, hes]
  rfl

end ClientMessage

namespace JobSubmit

variable {s : JobSubmit}

theorem v_signedBy (s : JobSubmit) (k : E.Secret) : (s.signedBy U S E k).v = s.v := rfl

theorem verify_signedBy (hE : E.Correct) (s : JobSubmit) (k : E.Secret) :
    (s.signedBy U S E k).verify U S E = .ok ⟨⟩ :=
  verifyHex_signHex hE k _

/-- Of an object that is a submit the sender and the signature are the submit's. -/
theorem verifyWire_eq {raw : Text} {tree : Json} {es : List (String × Json)}
    (htree : S.fromStr raw = some tree) (hvalue : tree.value = .obj es)
    (hdec : (codec U).decode (.obj es) = some s) :
    verifyWire S E raw = (do
      let sig ← demand s.sig (.signature "message is unsigned")
      verifyHex E s.from_ (Hex.utf8 (S.toString (covered (.obj es)))) sig) := by
  rw [verifyWire, htree]
  change (do
    let sender ← demand (textAt tree.value "from") (CoreError.signature "message has no from")
    let sig ← demand (textAt tree.value "sig") (CoreError.signature "message is unsigned")
    let body ← coveredObject tree.value
    verifyHex E sender (Hex.utf8 (S.toString body)) sig) = _
  rw [hvalue, textAt_from hdec, textAt_sig hdec]
  rfl

theorem verifyWire_signedBy (hE : E.Correct) {k : E.Secret} {raw : Text}
    (hread : S.fromStr raw = some (ClientMessage.encode U (.jobSubmit (s.signedBy U S E k))))
    (hfits : (codec U).Fits s) (hwhole : (codec U).Whole s) : verifyWire S E raw = .ok ⟨⟩ := by
  have hcovered := ClientMessage.covered_encode_submit (U := U) (s.signedBy U S E k)
  obtain ⟨es, hes, hord, hnew⟩ := encode_obj (U := U) (s.signedBy U S E k)
  have hmsg : ClientMessage.encode U (.jobSubmit (s.signedBy U S E k)) =
      .obj (put "type" (.str "job.submit".toList) es) := by
    rw [ClientMessage.encode, hes, withTag]
  have hvalue : (ClientMessage.encode U (.jobSubmit (s.signedBy U S E k))).value =
      .obj (put "type" (.str "job.submit".toList) es) :=
    (ClientMessage.isValue_encode_submit _).trans hmsg
  have hback : (codec U).decode (.obj es) = some (s.signedBy U S E k) :=
    hes ▸ (codec U).decode_encode _ (fits_signed hfits _ _) (whole_signed hwhole _ _)
  have hput : (codec U).decode (.obj (put "type" (.str "job.submit".toList) es)) =
      some (s.signedBy U S E k) := by
    rw [decode_obj] at hback ⊢
    simp only [slot_put hord]
    exact hback
  refine (verifyWire_eq hread hvalue hput).trans ?_
  rw [← hmsg, hcovered]
  exact verifyHex_signHex hE k _

end JobSubmit

/-- What a submit that arrived as `raw` is signed over: what arrived, where its signature is good for
that, and else what the submit is written as. -/
def signedValue (U : UuidFormat) (S : SerdeJson) (E : Ed25519) (raw : Text) (s : JobSubmit) : Json :=
  if (JobSubmit.verifyWire S E raw).isOk then
    JobSubmit.covered (((S.fromStr raw).getD .null).value)
  else ((JobSubmit.codec U).encode s.unsigned).remove "sig"

def signedBytes (U : UuidFormat) (S : SerdeJson) (E : Ed25519) (raw : Text) (s : JobSubmit) : Bytes :=
  Hex.utf8 (S.toString (signedValue U S E raw s))

section Covered

variable {raw : Text} {s : JobSubmit}

theorem ClientMessage.decodeAs_submit {rest : Json} {variant : Text}
    (h : decodeAs U rest variant = some (.jobSubmit s)) :
    variant = "job.submit".toList ∧ (JobSubmit.codec U).decode rest = some s := by
  unfold decodeAs at h
  split at h
  · next hname =>
    obtain ⟨s', hs, heq⟩ := Option.map_eq_some_iff.mp h
    cases heq
    exact ⟨hname, hs⟩
  · split at h
    · obtain ⟨_, -, heq⟩ := Option.map_eq_some_iff.mp h
      nomatch heq
    · split at h
      · obtain ⟨_, -, heq⟩ := Option.map_eq_some_iff.mp h
        nomatch heq
      · split at h
        · obtain ⟨_, -, heq⟩ := Option.map_eq_some_iff.mp h
          nomatch heq
        · nomatch h

theorem ClientMessage.parse_submit (h : parse U S raw = .ok (.jobSubmit s)) :
    ∃ tree rest, S.fromStr raw = some tree ∧
      splitTag "type" tree = some (.str "job.submit".toList, rest) ∧
      (JobSubmit.codec U).decode rest = some s := by
  rw [parse] at h
  simp only [bind_eq_ok, demand_eq_ok] at h
  obtain ⟨-, -, tree, htree, msg, hmsg, -, -, hret⟩ := h
  cases hret
  rw [decode] at hmsg
  split at hmsg
  · next variant rest hsplit =>
    obtain ⟨rfl, hs⟩ := decodeAs_submit hmsg
    exact ⟨tree, rest, htree, hsplit, hs⟩
  · cases hmsg

/-- A submit that arrived in an object is what the object's value says. -/
theorem ClientMessage.decode_value {es : List (String × Json)} {tree : Json}
    (h : parse U S raw = .ok (.jobSubmit s)) (htree : S.fromStr raw = some tree)
    (hvalue : tree.value = .obj es) : (JobSubmit.codec U).decode (.obj es) = some s := by
  obtain ⟨tree', rest, htree', hsplit, hs⟩ := parse_submit h
  cases htree.symm.trans htree'
  have hvalues := splitTag_value hsplit
  rw [hvalue] at hvalues
  obtain ⟨-, hrest⟩ := splitTag_obj.mp hvalues
  have hstable := (JobSubmit.codec U).stable rest s hs
  rw [hrest] at hstable
  exact JobSubmit.decode_without_type.mp hstable

theorem JobSubmit.obj_of_verifyWire (h : (verifyWire S E raw).isOk = true) :
    ∃ tree es, S.fromStr raw = some tree ∧ tree.value = .obj es := by
  cases hok : verifyWire S E raw with
  | error e =>
    rw [hok] at h
    nomatch h
  | ok u =>
    rw [verifyWire] at hok
    simp only [bind_eq_ok, demand_eq_ok] at hok
    obtain ⟨tree, htree, -, -, -, -, body, hbody, -⟩ := hok
    unfold coveredObject at hbody
    split at hbody
    · next es hes => exact ⟨tree, es, htree, hes⟩
    · cases hbody

theorem signedValue_of_wire {es : List (String × Json)} {tree : Json}
    (hwire : (JobSubmit.verifyWire S E raw).isOk = true) (htree : S.fromStr raw = some tree)
    (hvalue : tree.value = .obj es) :
    signedValue U S E raw s = JobSubmit.covered (.obj es) := by
  rw [signedValue, if_pos hwire, htree, Option.getD_some, hvalue]

/-- Either way the signed value is the submit without its signature. -/
theorem decode_signedValue (h : ClientMessage.parse U S raw = .ok (.jobSubmit s))
    (hwhole : (JobSubmit.verifyWire S E raw).isOk = false → (JobSubmit.codec U).Whole s) :
    (JobSubmit.codec U).decode (signedValue U S E raw s) = some s.unsigned := by
  cases hwire : (JobSubmit.verifyWire S E raw).isOk with
  | true =>
    obtain ⟨tree, es, htree, hvalue⟩ := JobSubmit.obj_of_verifyWire hwire
    rw [signedValue_of_wire hwire htree hvalue]
    apply JobSubmit.decode_without_type.mpr
    exact JobSubmit.decode_without_sig (ClientMessage.decode_value h htree hvalue)
  | false =>
    obtain ⟨-, rest, -, -, hs⟩ := ClientMessage.parse_submit h
    have hfits : (JobSubmit.codec U).Fits s := (JobSubmit.codec U).fits rest s hs
    obtain ⟨es, hes, -, -⟩ := JobSubmit.encode_obj (U := U) s.unsigned
    have hback : (JobSubmit.codec U).decode (.obj es) = some s.unsigned :=
      hes ▸ (JobSubmit.codec U).decode_encode _ (JobSubmit.fits_signed hfits _ _)
        (JobSubmit.whole_signed (hwhole hwire) _ _)
    have hnot : ¬(JobSubmit.verifyWire S E raw).isOk = true := by
      rw [hwire]
      exact Bool.false_ne_true
    rw [signedValue, if_neg hnot, hes]
    exact JobSubmit.decode_without_sig (s := s.unsigned) hback

/-- The signature that lets a submit in is one over the signed bytes. -/
theorem verifyHex_signedBytes (h : ClientMessage.parse U S raw = .ok (.jobSubmit s))
    (hsigned : (JobSubmit.verifyWire S E raw).isOk = true ∨ s.verify U S E = .ok ⟨⟩) :
    ∃ sig, s.sig = some sig ∧ verifyHex E s.from_ (signedBytes U S E raw s) sig = .ok ⟨⟩ := by
  by_cases hwire : (JobSubmit.verifyWire S E raw).isOk = true
  · obtain ⟨tree, es, htree, hvalue⟩ := JobSubmit.obj_of_verifyWire hwire
    have hdec := ClientMessage.decode_value h htree hvalue
    rw [signedBytes, signedValue_of_wire hwire htree hvalue]
    rw [JobSubmit.verifyWire_eq htree hvalue hdec] at hwire
    cases hsig : s.sig with
    | none =>
      rw [hsig] at hwire
      nomatch hwire
    | some sig =>
      rw [hsig] at hwire
      refine ⟨sig, rfl, ?_⟩
      change (verifyHex E s.from_ _ sig).isOk = true at hwire
      cases hok : verifyHex E s.from_ (Hex.utf8 (S.toString (JobSubmit.covered (.obj es)))) sig with
      | ok u => rfl
      | error e =>
        rw [hok] at hwire
        nomatch hwire
  · have hverify := hsigned.resolve_left hwire
    rw [signedBytes, signedValue, if_neg hwire]
    unfold JobSubmit.verify at hverify
    cases hsig : s.sig with
    | none =>
      rw [hsig] at hverify
      nomatch hverify
    | some sig =>
      rw [hsig] at hverify
      exact ⟨sig, rfl, hverify⟩

end Covered

end Rootmode.Protocol
