import Rootmode.Core.SignedSubmit

namespace Rootmode.Protocol

open Lib Lib.Bytes Lib.Checked Lib.Text

variable (U : UuidFormat) (S : SerdeJson) (E : Ed25519)

/-- Whom a node takes jobs from. -/
structure Policy where
  requireSignature : Bool
  allowPeers : List Text

def Policy.mustSign (P : Policy) : Bool := P.requireSignature || !P.allowPeers.isEmpty

/-- The signature and the sender of a submit, which arrived as `raw` if it came over the wire. -/
def authorize (P : Policy) (submit : JobSubmit) (raw : Option Text) : Except String Unit := do
  if P.mustSign || submit.sig.isSome then
    let wireOk := raw.any fun raw => (JobSubmit.verifyWire S E raw).isOk
    if !wireOk then
      (submit.verify U S E).mapError fun e =>
        let shown := e.text
        s!"signature: {shown}"
  require (P.allowPeers = [] ∨ P.allowPeers.any (eqIgnoreAsciiCase · submit.from_))
    "this worker does not accept jobs from your peer id"

/-- A submit that arrived as `raw` and was let in because of its signature.  Where what is signed is
what the submit is written as, its floats are finite. -/
structure LetIn (P : Policy) (raw : Text) (s : JobSubmit) : Prop where
  parsed : ClientMessage.parse U S raw = .ok (.jobSubmit s)
  authorized : authorize U S E P s (some raw) = .ok ⟨⟩
  signed : (P.mustSign || s.sig.isSome) = true
  whole : (JobSubmit.verifyWire S E raw).isOk = false → (JobSubmit.codec U).Whole s
  readsBack : S.ReadsBack (signedValue U S E raw s)

variable {U S E}

theorem signed_of_authorize {P : Policy} {s : JobSubmit} {raw : Text}
    (h : authorize U S E P s (some raw) = .ok ⟨⟩) (hsig : (P.mustSign || s.sig.isSome) = true) :
    (JobSubmit.verifyWire S E raw).isOk = true ∨ s.verify U S E = .ok ⟨⟩ := by
  rw [authorize, if_pos hsig] at h
  cases hwire : (JobSubmit.verifyWire S E raw).isOk with
  | true => exact .inl rfl
  | false =>
    right
    simp only [Option.any_some, hwire, Bool.not_false, if_true] at h
    obtain ⟨u, hverify, -⟩ := (bind_eq_ok _ _ _).mp h
    exact (mapError_eq_ok _ _ _).mp hverify

theorem authorize_of_verify {P : Policy} {s : JobSubmit} {raw : Text} (hallow : P.allowPeers = [])
    (h : JobSubmit.verifyWire S E raw = .ok ⟨⟩ ∨ s.verify U S E = .ok ⟨⟩) :
    authorize U S E P s (some raw) = .ok ⟨⟩ := by
  have hallowed : ∀ e, require (P.allowPeers = [] ∨
      P.allowPeers.any (eqIgnoreAsciiCase · s.from_)) e = (.ok ⟨⟩ : Except String Unit) :=
    fun e => if_pos (.inl hallow)
  rw [authorize]
  split
  · rw [Option.any_some]
    rcases h with h | h
    · rw [h]
      exact hallowed _
    · rw [h]
      dsimp only
      split
      · exact hallowed _
      · exact hallowed _
  · exact hallowed _

namespace LetIn

variable {P P' : Policy} {raw raw' : Text} {s s' : JobSubmit}

theorem verified (h : LetIn U S E P raw s) :
    ∃ sig, s.sig = some sig ∧ verifyHex E s.from_ (signedBytes U S E raw s) sig = .ok ⟨⟩ :=
  verifyHex_signedBytes h.parsed (signed_of_authorize h.authorized h.signed)

/-- The signed bytes say everything but the signature. -/
theorem unsigned_eq (h : LetIn U S E P raw s) (h' : LetIn U S E P' raw' s')
    (hbytes : signedBytes U S E raw s = signedBytes U S E raw' s') : s.unsigned = s'.unsigned := by
  have hread : S.fromStr (S.toString (signedValue U S E raw s)) =
      some (signedValue U S E raw s) := h.readsBack
  have hvalue : signedValue U S E raw s = signedValue U S E raw' s' := by
    rw [Hex.utf8_injective hbytes] at hread
    exact Option.some.inj (hread.symm.trans h'.readsBack)
  have hdec := decode_signedValue h.parsed h.whole
  rw [hvalue] at hdec
  exact Option.some.inj (hdec.symm.trans (decode_signedValue h'.parsed h'.whole))

/-- A signed submit is let in as it was sent, where all that is printed on the way reads back. -/
theorem of_signedBy {k : E.Secret} (hE : E.Correct) (hallow : P.allowPeers = [])
    (hfits : (JobSubmit.codec U).Fits s) (hwhole : (JobSubmit.codec U).Whole s)
    (hv : s.v = protocolVersion) (hlen : (Hex.utf8 raw).length ≤ maxMessageBytes)
    (hread : S.fromStr raw = some (ClientMessage.encode U (.jobSubmit (s.signedBy U S E k))))
    (hbody : S.ReadsBack
      (((JobSubmit.codec U).encode (s.signedBy U S E k).unsigned).remove "sig")) :
    LetIn U S E P raw (s.signedBy U S E k) := by
  have hwire : JobSubmit.verifyWire S E raw = .ok ⟨⟩ :=
    JobSubmit.verifyWire_signedBy hE hread hfits hwhole
  refine ⟨?_, authorize_of_verify hallow (.inl hwire), Bool.or_true _,
    fun _ => JobSubmit.whole_signed hwhole _ _, ?_⟩
  · rw [ClientMessage.parse_of_fromStr hread (JobSubmit.fits_signed hfits _ _)
      (JobSubmit.whole_signed hwhole _ _), if_neg (not_lt.mpr hlen), JobSubmit.v_signedBy,
      if_pos hv]
  · have hvalue : signedValue U S E raw (s.signedBy U S E k) =
        ((JobSubmit.codec U).encode (s.signedBy U S E k).unsigned).remove "sig" := by
      rw [signedValue, hwire, hread]
      refine (if_pos rfl).trans ?_
      rw [Option.getD_some, ClientMessage.isValue_encode_submit]
      exact ClientMessage.covered_encode_submit _
    rw [hvalue]
    exact hbody

end LetIn

/-- A signed submit comes through the wire as it was sent, and a submit that was let in because of its
signature is what was signed. -/
theorem signed_submit (hE : E.Correct) :
    (∀ (s : JobSubmit) (k : E.Secret) (raw : Text), (JobSubmit.codec U).Fits s →
      (JobSubmit.codec U).Whole s →
      raw = wireJson S (ClientMessage.encode U (.jobSubmit (s.signedBy U S E k))) →
      S.ReadsBack (ClientMessage.encode U (.jobSubmit (s.signedBy U S E k))) →
      ClientMessage.parse U S raw =
        (if maxMessageBytes < (Hex.utf8 raw).length then
          .error (.invalid s!"message exceeds {maxMessageBytes} bytes")
        else if s.v = protocolVersion then .ok (.jobSubmit (s.signedBy U S E k))
        else .error (.version s.v protocolVersion)) ∧
      (s.signedBy U S E k).verify U S E = .ok ⟨⟩ ∧ JobSubmit.verifyWire S E raw = .ok ⟨⟩) ∧
    (∀ (P P' : Policy) (raw raw' : Text) (s s' : JobSubmit),
      LetIn U S E P raw s → LetIn U S E P' raw' s' →
      (∃ sig, s.sig = some sig ∧ verifyHex E s.from_ (signedBytes U S E raw s) sig = .ok ⟨⟩) ∧
      (signedBytes U S E raw s = signedBytes U S E raw' s' →
        s.from_ = s'.from_ ∧ s.jobId = s'.jobId ∧ s.payload = s'.payload ∧ s.payer = s'.payer ∧
        s.bond = s'.bond ∧ s.spend = s'.spend ∧ s.reserve = s'.reserve ∧ s.v = s'.v)) := by
  refine ⟨?_, ?_⟩
  · intro s k raw hfits hwhole hraw hread
    subst hraw
    have hfits' : (JobSubmit.codec U).Fits (s.signedBy U S E k) :=
      JobSubmit.fits_signed hfits _ _
    have hwhole' : (JobSubmit.codec U).Whole (s.signedBy U S E k) :=
      JobSubmit.whole_signed hwhole _ _
    have hparse := ClientMessage.parse_of_fromStr hread hfits' hwhole'
    rw [JobSubmit.v_signedBy] at hparse
    exact ⟨hparse, JobSubmit.verify_signedBy hE s k,
      JobSubmit.verifyWire_signedBy hE hread hfits hwhole⟩
  · intro P P' raw raw' s s' h h'
    refine ⟨h.verified, fun hbytes => ?_⟩
    have heq := h.unsigned_eq h' hbytes
    exact ⟨congrArg (·.from_) heq, congrArg (·.jobId) heq, congrArg (·.payload) heq,
      congrArg (·.payer) heq, congrArg (·.bond) heq, congrArg (·.spend) heq,
      congrArg (·.reserve) heq, congrArg (·.v) heq⟩

section Instance

/-- Thirty-two digits in five groups. -/
def dashed (h : Text) : Text :=
  h.take 8 ++ '-' :: (h.drop 8).take 4 ++ '-' :: (h.drop 12).take 4 ++ '-' :: (h.drop 16).take 4 ++
    '-' :: h.drop 20

theorem digit_ne_dash : ∀ n : Fin 16, Hex.digit n ≠ '-' := by decide

theorem filter_dashed (b : Bytes) : (dashed (Hex.encode b)).filter (· ≠ '-') = Hex.encode b := by
  have hdash : ∀ c ∈ Hex.encode b, c ≠ '-' := by
    intro c hc
    obtain ⟨d, -, hd⟩ := List.mem_flatMap.mp hc
    rw [Hex.pair_eq, List.mem_cons, List.mem_singleton] at hd
    rcases hd with rfl | rfl
    · exact digit_ne_dash _
    · exact digit_ne_dash _
  have hself : ∀ t : Text, t.Sublist (Hex.encode b) → t.filter (· ≠ '-') = t := fun t ht =>
    List.filter_eq_self.mpr fun c hc => decide_eq_true (hdash c (ht.subset hc))
  have hmid : ∀ n : ℕ, (((Hex.encode b).drop n).take 4).Sublist (Hex.encode b) := fun n =>
    (List.take_sublist _ _).trans (List.drop_sublist _ _)
  have hcons : ∀ t : Text, ('-' :: t).filter (· ≠ '-') = t.filter (· ≠ '-') := fun _ => rfl
  rw [dashed]
  simp only [List.filter_append, hcons, List.append_assoc]
  rw [hself _ (List.take_sublist _ _), hself _ (hmid 8), hself _ (hmid 12), hself _ (hmid 16),
    hself _ (List.drop_sublist _ _)]
  have hsplit : ∀ n : ℕ, ((Hex.encode b).drop n).take 4 ++ (Hex.encode b).drop (n + 4) =
      (Hex.encode b).drop n := by
    intro n
    rw [← List.drop_drop, List.take_append_drop]
  rw [hsplit 16, hsplit 12, hsplit 8, List.take_append_drop]

def hyphenated : UuidFormat where
  text id := dashed (Hex.encode (bigEndian 16 id.toNat))
  parse t :=
    match Hex.decode (t.filter (· ≠ '-')) with
    | .ok b => some (BitVec.ofNat 128 (ofBigEndian b))
    | .error _ => none
  parse_text id := by
    rw [filter_dashed, Hex.decode_encode]
    dsimp only
    have hlt : id.toNat < 256 ^ 16 := id.isLt
    rw [ofBigEndian_bigEndian, Nat.mod_eq_of_lt hlt, BitVec.ofNat_toNat, BitVec.setWidth_eq]

/-- A stand-in for the scheme: the signature is the end of the message. -/
@[reducible] def ed25519 : Ed25519 where
  Secret := Unit
  publicKey _ := List.replicate 32 7
  sign _ msg := bigEndian 64 (ofBigEndian msg)
  keyOf _ := .ok ⟨⟩
  verify _ msg sig :=
    if sig = bigEndian 64 (ofBigEndian msg) then .ok ⟨⟩
    else .error "signature error: Verification equation was not satisfied"

theorem ed25519_correct : ed25519.Correct := by
  constructor
  · intro k
    exact List.length_replicate
  · intro k msg
    exact length_bigEndian 64 (ofBigEndian msg)
  · intro k
    rfl
  · intro k msg
    simp only [if_true]

def printed (x : Ieee.Finite Ieee.binary64) : Text :=
  if x.exp < 0 then "0.699999988079071".toList
  else if x.neg then "-1e300".toList else "1e300".toList

/-- A chat with nothing in it. -/
def chat (v : ℕ) (temperature : Ieee.Number Ieee.binary32) : JobSubmit where
  v := v
  jobId := 7
  from_ := []
  payload := .llm {
    modelHash := none, modelId := none, messages := [], tools := [], maxTokens := 512
    temperature := temperature, reasoningEffort := none }
  sig := none
  spend := none
  payer := none
  bond := none
  reserve := none

/-- The chat as it is sent by the one node there is. -/
def sentChat (S : SerdeJson) (v : ℕ) (temperature : Ieee.Number Ieee.binary32) : JobSubmit :=
  (chat v temperature).signedBy hyphenated S ed25519 ()

@[irreducible] def chatWire (S : SerdeJson) (v : ℕ) (temperature : Ieee.Number Ieee.binary32) : Text :=
  wireJson S (ClientMessage.encode hyphenated (.jobSubmit (sentChat S v temperature)))

def printer : SerdeJson := ⟨printed, fun _ => none⟩

@[irreducible] def chatBody : Json :=
  ((JobSubmit.codec hyphenated).encode (sentChat printer 1 defaultTemperature).unsigned).remove "sig"

/-- A reader of the texts in a table. -/
def look (table : List (Text × Json)) (t : Text) : Option Json :=
  (table.find? fun e => e.1 = t).map Prod.snd

theorem look_of_nodup {table : List (Text × Json)} {e : Text × Json}
    (hnodup : (table.map Prod.fst).Nodup) (h : e ∈ table) : look table e.1 = some e.2 := by
  induction table with
  | nil => nomatch h
  | cons e' table ih =>
    obtain ⟨hnew, hrest⟩ := List.nodup_cons.mp hnodup
    rcases List.mem_cons.mp h with rfl | hmem
    · simp [look]
    · have hne : e'.1 ≠ e.1 := fun heq => hnew (heq ▸ List.mem_map_of_mem hmem)
      rw [look, List.find?_cons_of_neg (by simpa using hne)]
      exact ih hrest hmem

/-- The chat alone on its line and not, and what is signed of it. -/
def chatTable : List (Text × Json) :=
  [(chatWire printer 1 defaultTemperature,
      ClientMessage.encode hyphenated (.jobSubmit (sentChat printer 1 defaultTemperature))),
    (chatWire printer 1 defaultTemperature ++ ['\n'],
      ClientMessage.encode hyphenated (.jobSubmit (sentChat printer 1 defaultTemperature))),
    (printer.toString chatBody, chatBody)]

/-- The three texts are not the same, and not too long. -/
theorem chatTable_texts : (chatTable.map Prod.fst).Nodup ∧
    (Hex.utf8 (chatWire printer 1 defaultTemperature ++ ['\n'])).length ≤ maxMessageBytes := by
  decide +kernel

def reader : SerdeJson := ⟨printed, look chatTable⟩

theorem chat_fits {v : ℕ} (hv : v < 2 ^ 32) (t : Ieee.Number Ieee.binary32) :
    (JobSubmit.codec hyphenated).Fits (chat v t) := by
  have hparams : JobPayload.Fits (chat v t).payload := by
    simp [chat, JobPayload.Fits, LlmParams.codec, Codec.record, Fields.Fits, FieldCodec.required,
      FieldCodec.optional, FieldCodec.listed, FieldCodec.defaulted, optionalText, Codec.option,
      Codec.list, Codec.float32, Codec.uint]
  simp [JobSubmit.codec, Codec.record, Fields.Fits, FieldCodec.required, FieldCodec.optional,
    FieldCodec.defaulted, optionalText, Codec.option, version, Codec.uint, UuidFormat.codec,
    Codec.text, chat] at hv hparams ⊢
  exact ⟨hv, hparams⟩

theorem chat_whole (v : ℕ) : (JobSubmit.codec hyphenated).Whole (chat v defaultTemperature) := by
  have hparams : JobPayload.Whole (chat v defaultTemperature).payload := by
    simp [chat, JobPayload.Whole, LlmParams.codec, Codec.record, Fields.Whole, FieldCodec.required,
      FieldCodec.optional, FieldCodec.listed, FieldCodec.defaulted, optionalText, Codec.option,
      Codec.list, Codec.float32, Codec.uint, defaultTemperature]
  simp [JobSubmit.codec, Codec.record, Fields.Whole, FieldCodec.required, FieldCodec.optional,
    FieldCodec.defaulted, optionalText, Codec.option, version, Codec.uint, UuidFormat.codec,
    Codec.text, chat] at hparams ⊢
  exact hparams

theorem length_utf8_le_append (t u : Text) : (Hex.utf8 t).length ≤ (Hex.utf8 (t ++ u)).length := by
  rw [Hex.utf8, Hex.utf8, List.flatMap_append, List.length_append]
  exact Nat.le_add_right _ _

theorem chat_short (raw : Text) (h : raw = chatWire printer 1 defaultTemperature ∨
    raw = chatWire printer 1 defaultTemperature ++ ['\n']) :
    (Hex.utf8 raw).length ≤ maxMessageBytes := by
  rcases h with h | h
  · rw [h]
    exact (length_utf8_le_append _ _).trans chatTable_texts.2
  · rw [h]
    exact chatTable_texts.2

theorem reader_chatBody : reader.ReadsBack chatBody := by
  have hmem : (printer.toString chatBody, chatBody) ∈ chatTable := by
    rw [chatTable]
    exact .tail _ (.tail _ (.head _))
  exact look_of_nodup chatTable_texts.1 hmem

theorem sentChat_reader (v : ℕ) (t : Ieee.Number Ieee.binary32) :
    sentChat reader v t = sentChat printer v t := rfl

theorem reader_chat {raw : Text} (h : raw = chatWire printer 1 defaultTemperature ∨
    raw = chatWire printer 1 defaultTemperature ++ ['\n']) :
    reader.fromStr raw = some (ClientMessage.encode hyphenated
      (.jobSubmit (sentChat reader 1 defaultTemperature))) := by
  have hmem : (raw, ClientMessage.encode hyphenated
      (.jobSubmit (sentChat printer 1 defaultTemperature))) ∈ chatTable := by
    rw [chatTable]
    rcases h with h | h
    · rw [h]
      exact .head _
    · rw [h]
      exact .tail _ (.head _)
  exact look_of_nodup chatTable_texts.1 hmem

/-- The chat is let in, alone on its line or not. -/
theorem letIn_chat (raw : Text) (h : raw = chatWire printer 1 defaultTemperature ∨
    raw = chatWire printer 1 defaultTemperature ++ ['\n']) :
    LetIn hyphenated reader ed25519 ⟨true, []⟩ raw (sentChat reader 1 defaultTemperature) := by
  refine .of_signedBy ed25519_correct rfl (chat_fits (by norm_num) _) (chat_whole 1) rfl
    (chat_short raw h) (reader_chat h) ?_
  have hbody := reader_chatBody
  rw [chatBody] at hbody
  exact hbody

/-- The chat on the wire, and on a line. -/
theorem signed_submit_chat :
    (ClientMessage.parse hyphenated reader (chatWire printer 1 defaultTemperature) =
        .ok (.jobSubmit (sentChat reader 1 defaultTemperature)) ∧
      (sentChat reader 1 defaultTemperature).verify hyphenated reader ed25519 = .ok ⟨⟩ ∧
      JobSubmit.verifyWire reader ed25519 (chatWire printer 1 defaultTemperature) = .ok ⟨⟩) ∧
    ∃ sig, (sentChat reader 1 defaultTemperature).sig = some sig ∧
      verifyHex ed25519 (sentChat reader 1 defaultTemperature).from_
        (signedBytes hyphenated reader ed25519 (chatWire printer 1 defaultTemperature ++ ['\n'])
          (sentChat reader 1 defaultTemperature)) sig = .ok ⟨⟩ := by
  have hwire : chatWire printer 1 defaultTemperature =
      wireJson reader (ClientMessage.encode hyphenated (.jobSubmit
        ((chat 1 defaultTemperature).signedBy hyphenated reader ed25519 ()))) := by
    rw [chatWire]
    rfl
  have hback : reader.ReadsBack (ClientMessage.encode hyphenated (.jobSubmit
      ((chat 1 defaultTemperature).signedBy hyphenated reader ed25519 ()))) := by
    have hread := reader_chat (.inl hwire.symm)
    exact hread
  obtain ⟨hround, hcover⟩ := signed_submit (U := hyphenated) (S := reader) ed25519_correct
  obtain ⟨hparse, hverify, hwired⟩ := hround (chat 1 defaultTemperature) () _
    (chat_fits (by norm_num) _) (chat_whole 1) hwire hback
  refine ⟨⟨?_, hverify, hwired⟩, ?_⟩
  · rw [if_neg (not_lt.mpr (chat_short _ (.inl rfl)))] at hparse
    exact hparse.trans (if_pos rfl)
  · exact (hcover _ _ _ _ _ _ (letIn_chat _ (.inr rfl)) (letIn_chat _ (.inl rfl))).1

section Hot

/-- The largest number of 64 bits but for its sign. -/
def huge (neg : Bool) : Ieee.Finite Ieee.binary64 :=
  ⟨neg, 2 ^ 52, 900, by decide, by decide, by decide, by decide⟩

theorem codec_encode (p : JobPayload) : JobPayload.codec.encode p = p.encode := rfl

/-- What is written of a chat does not tell temperatures apart that are not written. -/
theorem encode_chat {v : ℕ} (t t' : Ieee.Number Ieee.binary32) (sender : Text)
    (h : Codec.float32.encode t = Codec.float32.encode t') :
    (JobSubmit.codec hyphenated).encode { chat v t with from_ := sender, sig := none } =
      (JobSubmit.codec hyphenated).encode { chat v t' with from_ := sender, sig := none } := by
  have hparams : JobPayload.encodeParams (chat v t).payload =
      JobPayload.encodeParams (chat v t').payload := by
    simp only [chat, JobPayload.encodeParams, LlmParams.codec, Codec.record, Equiv.coe_fn_mk,
      Fields.write_and, FieldCodec.defaulted, h]
  have hpayload : JobPayload.codec.encode (chat v t).payload =
      JobPayload.codec.encode (chat v t').payload := by
    rw [codec_encode, codec_encode, JobPayload.encode, JobPayload.encode, hparams]
    rfl
  simp only [JobSubmit.codec, Codec.record, Equiv.coe_fn_mk, Fields.write_and,
    FieldCodec.required, hpayload]
  rfl

@[irreducible] def hotSig : Text :=
  signHex ed25519 () (canonicalBytes printer ((JobSubmit.codec hyphenated).encode
    { chat 1 (.infinite false) with from_ := peerId ed25519 (), sig := none }))

/-- A chat whose temperature no float of 32 bits can hold. -/
@[irreducible] def hotTree (neg : Bool) : Json :=
  .obj [("from", .str (peerId ed25519 ())), ("job_id", .str (hyphenated.text 7)),
    ("payload", .obj [("kind", .str "llm".toList), ("max_tokens", .num (.int 512)),
      ("messages", .arr []), ("temperature", .num (.float (huge neg)))]),
    ("sig", .str hotSig), ("type", .str "job.submit".toList), ("v", .num (.int 1))]

theorem signedBy_eq {U : UuidFormat} {S : SerdeJson} {E : Ed25519} (s : JobSubmit) (k : E.Secret) :
    s.signedBy U S E k = { s with
      from_ := peerId E k
      sig := some (signHex E k (canonicalBytes S ((JobSubmit.codec U).encode
        { s with from_ := peerId E k, sig := none }))) } := rfl

theorem sentChat_hot (neg : Bool) : sentChat printer 1 (.infinite neg) =
    { chat 1 (.infinite neg) with from_ := peerId ed25519 (), sig := some hotSig } := by
  rw [sentChat, signedBy_eq, hotSig, encode_chat (.infinite neg) (.infinite false)]
  rfl

theorem cast_huge (neg : Bool) :
    (Ieee.Number.finite (huge neg)).cast Ieee.binary32 = .infinite neg := by
  cases neg with
  | false => decide
  | true => decide

theorem decode_hotTree (neg : Bool) : ClientMessage.decode hyphenated (hotTree neg) =
    some (.jobSubmit (sentChat printer 1 (.infinite neg))) := by
  have hparams : LlmParams.codec.decode (.obj [("max_tokens", .num (.int 512)),
      ("messages", .arr []), ("temperature", .num (.float (huge neg)))]) =
      some ⟨none, none, [], [], 512, .infinite neg, none⟩ := by
    refine Codec.record_decode_obj.mpr ?_
    simp only [Fields.read_and]
    refine ⟨rfl, rfl, rfl, rfl, rfl, ?_, rfl, rfl⟩
    exact congrArg some (cast_huge neg)
  have hpayload : JobPayload.codec.decode (.obj [("kind", .str "llm".toList),
      ("max_tokens", .num (.int 512)), ("messages", .arr []),
      ("temperature", .num (.float (huge neg)))]) =
      some (.llm ⟨none, none, [], [], 512, .infinite neg, none⟩) :=
    congrArg (Option.map JobPayload.llm) hparams
  have hsplit : splitTag "type" (hotTree neg) = some (.str "job.submit".toList,
      .obj [("from", .str (peerId ed25519 ())), ("job_id", .str (hyphenated.text 7)),
        ("payload", .obj [("kind", .str "llm".toList), ("max_tokens", .num (.int 512)),
          ("messages", .arr []), ("temperature", .num (.float (huge neg)))]),
        ("sig", .str hotSig), ("v", .num (.int 1))]) := by
    rw [hotTree]
    rfl
  rw [ClientMessage.decode, hsplit]
  dsimp only
  rw [ClientMessage.decodeAs, if_pos rfl, sentChat_hot]
  refine congrArg (Option.map ClientMessage.jobSubmit) (JobSubmit.decode_obj.mpr ?_)
  refine ⟨rfl, ?_, rfl, ?_, rfl, rfl, rfl, rfl, rfl⟩
  · exact hyphenated.parse_text 7
  · exact hpayload

def hotTable : List (Text × Json) :=
  [(chatWire printer 2 defaultTemperature,
      ClientMessage.encode hyphenated (.jobSubmit (sentChat printer 2 defaultTemperature))),
    (chatWire printer 1 (.infinite false),
      ClientMessage.encode hyphenated (.jobSubmit (sentChat printer 1 (.infinite false)))),
    (printer.toString (hotTree false), hotTree false),
    (printer.toString (hotTree true), hotTree true)]

def hotReader : SerdeJson := ⟨printed, look hotTable⟩

/-- The texts are not the same, and those with a temperature too high are neither too long nor signed as
they are written. -/
theorem hotTable_texts : (hotTable.map Prod.fst).Nodup ∧
    (∀ neg, (JobSubmit.verifyWire hotReader ed25519 (printer.toString (hotTree neg))).isOk = false) ∧
    (∀ neg, (Hex.utf8 (printer.toString (hotTree neg))).length ≤ maxMessageBytes) ∧
    (ClientMessage.parse hyphenated hotReader (chatWire printer 1 (.infinite false))).isOk = false ∧
    (Hex.utf8 (chatWire printer 2 defaultTemperature)).length ≤ maxMessageBytes := by
  decide +kernel

theorem hotReader_next : hotReader.fromStr (chatWire printer 2 defaultTemperature) =
    some (ClientMessage.encode hyphenated (.jobSubmit (sentChat hotReader 2 defaultTemperature))) := by
  have hmem : (chatWire printer 2 defaultTemperature, ClientMessage.encode hyphenated
      (.jobSubmit (sentChat printer 2 defaultTemperature))) ∈ hotTable := by
    rw [hotTable]
    exact .head _
  exact look_of_nodup hotTable_texts.1 hmem

theorem hotReader_hot (neg : Bool) :
    hotReader.fromStr (printer.toString (hotTree neg)) = some (hotTree neg) := by
  have hmem : (printer.toString (hotTree neg), hotTree neg) ∈ hotTable := by
    rw [hotTable]
    cases neg with
    | false => exact .tail _ (.tail _ (.head _))
    | true => exact .tail _ (.tail _ (.tail _ (.head _)))
  exact look_of_nodup hotTable_texts.1 hmem

theorem parse_hot (neg : Bool) :
    ClientMessage.parse hyphenated hotReader (printer.toString (hotTree neg)) =
      .ok (.jobSubmit (sentChat printer 1 (.infinite neg))) := by
  rw [ClientMessage.parse, hotReader_hot, require, if_pos (hotTable_texts.2.2.1 neg)]
  change (do
    let msg ← demand (ClientMessage.decode hyphenated (hotTree neg)) CoreError.json
    msg.checkVersions
    return msg) = _
  rw [decode_hotTree]
  rfl


theorem authorize_hot (neg : Bool) : authorize hyphenated hotReader ed25519 ⟨true, []⟩
    (sentChat printer 1 (.infinite neg)) (some (printer.toString (hotTree neg))) = .ok ⟨⟩ :=
  authorize_of_verify rfl (.inr (JobSubmit.verify_signedBy (S := hotReader) ed25519_correct _ _))

theorem signedBytes_hot (neg : Bool) : signedBytes hyphenated hotReader ed25519
    (printer.toString (hotTree neg)) (sentChat printer 1 (.infinite neg)) =
      canonicalBytes printer ((JobSubmit.codec hyphenated).encode
        { chat 1 (.infinite false) with from_ := peerId ed25519 (), sig := none }) := by
  have hnot : ¬(JobSubmit.verifyWire hotReader ed25519 (printer.toString (hotTree neg))).isOk =
      true := by
    rw [hotTable_texts.2.1]
    exact Bool.false_ne_true
  rw [signedBytes, signedValue, if_neg hnot,
    ← encode_chat (.infinite neg) (.infinite false) (peerId ed25519 ()) rfl]
  rfl

/-- Another version does not come through, and neither does a temperature that is not finite; and one
signature is for two temperatures that both read as infinite. -/
theorem signed_submit_fails :
    ClientMessage.parse hyphenated hotReader (chatWire printer 2 defaultTemperature) =
      .error (.version 2 1) ∧
    (ClientMessage.parse hyphenated hotReader (chatWire printer 1 (.infinite false))).isOk = false ∧
    ∃ (raw raw' : Text) (s s' : JobSubmit),
      ClientMessage.parse hyphenated hotReader raw = .ok (.jobSubmit s) ∧
      ClientMessage.parse hyphenated hotReader raw' = .ok (.jobSubmit s') ∧
      authorize hyphenated hotReader ed25519 ⟨true, []⟩ s (some raw) = .ok ⟨⟩ ∧
      authorize hyphenated hotReader ed25519 ⟨true, []⟩ s' (some raw') = .ok ⟨⟩ ∧
      signedBytes hyphenated hotReader ed25519 raw s =
        signedBytes hyphenated hotReader ed25519 raw' s' ∧
      s.payload ≠ s'.payload := by
  refine ⟨?_, hotTable_texts.2.2.2.1, _, _, _, _, parse_hot false, parse_hot true, authorize_hot false,
    authorize_hot true, (signedBytes_hot false).trans (signedBytes_hot true).symm, ?_⟩
  · refine (ClientMessage.parse_of_fromStr hotReader_next (JobSubmit.fits_signed
      (chat_fits (v := 2) (by norm_num) _) _ _) (JobSubmit.whole_signed (chat_whole 2) _ _)).trans ?_
    rw [if_neg (by decide +kernel)]
    rfl
  · intro heq
    have hparams := JobPayload.llm.inj heq
    have htemp := congrArg LlmParams.temperature hparams
    nomatch htemp

end Hot

end Instance
end Rootmode.Protocol
