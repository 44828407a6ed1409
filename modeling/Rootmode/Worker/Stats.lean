import Rootmode.Lib.Printing
import Rootmode.Worker.Authorize

namespace Rootmode.Stats

open Lib Lib.Bytes Lib.Entries Lib.Ieee Lib.Json Protocol

/-- What a node did over one window. -/
structure Counters where
  requests : ℕ
  images : ℕ
  tokensIn : ℕ
  tokensOut : ℕ
  tokensCached : ℕ
  revenue : Number binary64
  failures : ℕ
  rejected : ℕ

/-- What a node reports of itself. -/
structure Report where
  v : ℕ
  peerId : Text
  label : Text
  country : Option Text
  caps : List Text
  models : List Text
  windowSecs : ℕ
  counters : Counters
  currency : Text
  sig : Option Text

/-- A count that has no entry when it is zero. -/
def nonzero : FieldCodec ℕ where
  codec := .uint 64
  default := some 0
  skips n := n = 0
  default_of_skips n h := by rw [of_decide_eq_true h]
  fits_default n h := by
    cases h
    exact Nat.two_pow_pos 64

namespace Report

variable (S : SerdeJson) (E : Ed25519)

/-- The fields of a report, those of its counters among them. -/
def fields :=
  Fields.and "v" (.required (.uint 32)) <| .and "peer_id" (.required .text) <|
    .and "label" (.required .text) <| .and "country" optionalText <|
    .and "caps" (.required (.list .text)) <| .and "models" (.required (.list .text)) <|
    .and "window_secs" (.required (.uint 64)) <| .and "requests" (.required (.uint 64)) <|
    .and "images" (.required (.uint 64)) <| .and "tokens_in" (.required (.uint 64)) <|
    .and "tokens_out" (.required (.uint 64)) <| .and "tokens_cached" nonzero <|
    .and "revenue" (.required .float64) <| .and "failures" (.required (.uint 64)) <|
    .and "rejected" (.required (.uint 64)) <| .and "currency" (.required .text) <|
    .and "sig" optionalText .done

def entries (r : Report) : List (String × Json) :=
  let c := r.counters
  fields.write (r.v, r.peerId, r.label, r.country, r.caps, r.models, r.windowSecs, c.requests,
    c.images, c.tokensIn, c.tokensOut, c.tokensCached, c.revenue, c.failures, c.rejected,
    r.currency, r.sig, ())

def toValue (r : Report) : Json := object r.entries

def unsigned (r : Report) : Report := { r with sig := none }

/-- What a signature of the report is over. -/
def preimage (r : Report) : Bytes := canonicalBytes S r.unsigned.toValue

def signedBy (r : Report) (k : E.Secret) : Report :=
  { r with sig := some (signHex E k (r.preimage S)) }

/-- The body that is posted. -/
def body (r : Report) : Text := S.toString (.obj r.entries)

end Report

/-- What the collector is written in: reading JSON and hexadecimal, and the shortest digits that read
as a float, with the place of their point. -/
structure Python where
  loads : Text → Option Json
  shortest : Finite binary64 → List (Fin 10) × ℤ
  fromHex : Text → Option Bytes

namespace Python

def decimal (n : ℕ) : Char := Hex.digit (n % 10)

/-- An exponent of at least two digits. -/
def exponent (e : ℤ) : Text :=
  let n := e.natAbs
  'e' :: (if e < 0 then '-' else '+') ::
    ((if n < 100 then [] else [decimal (n / 100)]) ++ [decimal (n / 10), decimal n])

/-- Digits with a point, and with an exponent where they are too far from it. -/
def layout (digits : Text) (point : ℤ) : Text :=
  if point ≤ -4 ∨ 16 < point then
    digits.take 1 ++ (if digits.length ≤ 1 then [] else '.' :: digits.drop 1) ++ exponent (point - 1)
  else if point ≤ 0 then '0' :: '.' :: (List.replicate point.natAbs '0' ++ digits)
  else if digits.length ≤ point.natAbs then
    digits ++ List.replicate (point.natAbs - digits.length) '0' ++ ['.', '0']
  else digits.take point.natAbs ++ '.' :: digits.drop point.natAbs

variable (py : Python)

def repr (x : Finite binary64) : Text :=
  let (digits, point) := py.shortest x
  (if x.neg then ['-'] else []) ++ layout (digits.map fun d => decimal d.val) point

/-- Four digits after a `\u`. -/
def unicodeEscape (n : ℕ) : Text := '\\' :: 'u' :: Hex.encode (bigEndian 2 n)

/-- Only printable ASCII is written as it is. -/
def escape (c : Char) : Text :=
  let n := c.toNat
  if c = '"' then ['\\', '"']
  else if c = '\\' then ['\\', '\\']
  else if n = 8 then ['\\', 'b']
  else if n = 9 then ['\\', 't']
  else if n = 10 then ['\\', 'n']
  else if n = 12 then ['\\', 'f']
  else if n = 13 then ['\\', 'r']
  else if 32 ≤ n ∧ n ≤ 126 then [c]
  else if n < 0x10000 then unicodeEscape n
  else unicodeEscape (0xd800 + (n - 0x10000) / 0x400 % 0x400) ++
    unicodeEscape (0xdc00 + (n - 0x10000) % 0x400)

/-- The sorted dump of a value, without blanks. -/
def canonicalBytes (payload : Json) : Bytes := Hex.utf8 (payload.render ⟨py.repr, escape⟩)

/-- What of a body a signature is checked over. -/
def signedOver (raw : Text) : Option Json :=
  match (py.loads raw).map Json.value with
  | some (.obj es) => some ((Json.obj es).remove "sig")
  | _ => none

def verify (E : Ed25519) (peerId : Text) (payload : Json) (sigHex : Text) : Bool :=
  match py.fromHex peerId, py.fromHex sigHex with
  | some key, some sig =>
    key.length = 32 && sig.length = 64 && (E.verify key (py.canonicalBytes payload) sig).isOk
  | _, _ => false

end Python

section Escape

theorem escape_of_lt {c : Char} (h : c.toNat < 127) : Protocol.escape c = Python.escape c := by
  have hall : ∀ n : Fin 127, Protocol.escape (Char.ofNat n.val) = Python.escape (Char.ofNat n.val) := by
    decide
  have hc := hall ⟨c.toNat, h⟩
  rwa [Char.ofNat_toNat] at hc

/-- Beyond printable ASCII the one writes the character and the other an escape. -/
theorem escape_of_le {c : Char} (h : 127 ≤ c.toNat) : ∃ t,
    c ≠ '\\' ∧ Protocol.escape c = [c] ∧ Python.escape c = '\\' :: t := by
  have hne : ∀ d : Char, d.toNat < 127 → c ≠ d := by
    intro d hd heq
    rw [heq] at h
    omega
  have hquote : c ≠ '"' := hne '"' (by decide)
  have hback : c ≠ '\\' := hne '\\' (by decide)
  have hserde : Protocol.escape c = [c] := by
    rw [Protocol.escape, if_neg hquote, if_neg hback, if_neg (by omega), if_neg (by omega),
      if_neg (by omega), if_neg (by omega), if_neg (by omega), if_neg (by omega)]
  have hpy : Python.escape c = if c.toNat < 0x10000 then Python.unicodeEscape c.toNat else
      Python.unicodeEscape (0xd800 + (c.toNat - 0x10000) / 0x400 % 0x400) ++
        Python.unicodeEscape (0xdc00 + (c.toNat - 0x10000) % 0x400) := by
    rw [Python.escape]
    rw [if_neg hquote, if_neg hback, if_neg (by omega), if_neg (by omega), if_neg (by omega),
      if_neg (by omega), if_neg (by omega), if_neg (by omega)]
  rw [hpy]
  split
  · exact ⟨_, hback, hserde, rfl⟩
  · exact ⟨_, hback, hserde, rfl⟩

theorem escape_eq_iff (c : Char) : Protocol.escape c = Python.escape c ↔ c.toNat < 127 := by
  constructor
  · intro heq
    by_contra hle
    obtain ⟨t, hne, hserde, hpy⟩ := escape_of_le (not_lt.mp hle)
    rw [hserde, hpy] at heq
    exact hne (List.cons.inj heq).1
  · exact escape_of_lt

end Escape

section Layout

theorem decimal_not_delimiter (n : ℕ) : isDelimiter (Python.decimal n) = false := by
  have hall : ∀ d : Fin 10, isDelimiter (Hex.digit d.val) = false := by decide
  exact hall ⟨n % 10, Nat.mod_lt n (by decide)⟩

theorem exponent_not_delimiter (e : ℤ) : ∀ c ∈ Python.exponent e, isDelimiter c = false := by
  unfold Python.exponent
  refine List.forall_mem_cons.mpr ⟨rfl, List.forall_mem_cons.mpr ⟨?_, ?_⟩⟩
  · split
    · rfl
    · rfl
  · refine List.forall_mem_append.mpr ⟨?_, ?_⟩
    · split
      · exact fun _ hc => nomatch hc
      · exact List.forall_mem_singleton.mpr (decimal_not_delimiter _)
    · exact List.forall_mem_cons.mpr
        ⟨decimal_not_delimiter _, List.forall_mem_singleton.mpr (decimal_not_delimiter _)⟩

theorem layout_not_delimiter {digits : Text} (h : ∀ c ∈ digits, isDelimiter c = false) (point : ℤ) :
    ∀ c ∈ Python.layout digits point, isDelimiter c = false := by
  have htake : ∀ n, ∀ c ∈ digits.take n, isDelimiter c = false := fun n c hc =>
    h c (List.mem_of_mem_take hc)
  have hdrop : ∀ n, ∀ c ∈ digits.drop n, isDelimiter c = false := fun n c hc =>
    h c (List.mem_of_mem_drop hc)
  have hzeros : ∀ n, ∀ c ∈ List.replicate n '0', isDelimiter c = false := by
    intro n c hc
    rw [List.eq_of_mem_replicate hc]
    rfl
  unfold Python.layout
  split
  · simp only [List.forall_mem_append]
    refine ⟨⟨htake 1, ?_⟩, exponent_not_delimiter _⟩
    split
    · exact fun _ hc => nomatch hc
    · exact List.forall_mem_cons.mpr ⟨rfl, hdrop 1⟩
  · split
    · simp only [List.forall_mem_cons, List.forall_mem_append]
      exact ⟨rfl, rfl, hzeros _, h⟩
    · split
      · simp only [List.forall_mem_append]
        exact ⟨⟨h, hzeros _⟩, List.forall_mem_cons.mpr ⟨rfl, List.forall_mem_singleton.mpr rfl⟩⟩
      · simp only [List.forall_mem_append, List.forall_mem_cons]
        exact ⟨htake _, rfl, hdrop _⟩

theorem repr_not_delimiter (py : Python) (x : Finite binary64) :
    ∀ c ∈ py.repr x, isDelimiter c = false := by
  have hdigits : ∀ c ∈ (py.shortest x).1.map fun d => Python.decimal d.val,
      isDelimiter c = false := by
    intro c hc
    obtain ⟨d, -, rfl⟩ := List.mem_map.mp hc
    exact decimal_not_delimiter _
  change ∀ c ∈ (if x.neg then ['-'] else []) ++ Python.layout _ _, isDelimiter c = false
  refine List.forall_mem_append.mpr ⟨?_, layout_not_delimiter hdigits _⟩
  split
  · exact List.forall_mem_singleton.mpr rfl
  · exact fun _ hc => nomatch hc

end Layout

section Parity

variable {S : SerdeJson} {py : Python} {E : Ed25519}

/-- No float is written with a comma or a bracket. -/
def Terse (S : SerdeJson) : Prop := ∀ x, ∀ c ∈ S.float x, isDelimiter c = false

theorem comparable (hS : Terse S) (py : Python) :
    Comparable ⟨S.float, Protocol.escape⟩ ⟨py.repr, Python.escape⟩ where
  escape c := by
    by_cases h : c.toNat < 127
    · exact .inl (escape_of_lt h)
    · obtain ⟨t, hne, hserde, hpy⟩ := escape_of_le (not_lt.mp h)
      exact .inr ⟨c, '\\', [], t, hne, hserde, hpy⟩
  left := hS
  right := repr_not_delimiter py

namespace Report

/-- What the report has of text. -/
def texts (r : Report) : List Text :=
  r.peerId :: r.label :: r.currency :: (r.country.toList ++ r.caps ++ r.models)

/-- No character of the report's is beyond printable ASCII. -/
def Plain (r : Report) : Prop := ∀ t ∈ r.texts, ∀ c ∈ t, c.toNat < 127

theorem names_plain : ∀ name ∈ fields.names, ∀ c ∈ name.toList,
    Protocol.escape c = Python.escape c := by
  have hplain : ∀ name ∈ fields.names, (name.toList.all fun c => c.toNat < 127) = true := by
    decide
  exact fun name hname c hc =>
    escape_of_lt (of_decide_eq_true (List.all_eq_true.mp (hplain name hname) c hc))

theorem nodup_entries (r : Report) : (keys r.entries).Nodup := by
  have hnames : fields.names.Nodup := by decide
  exact hnames.sublist (fields.keys_write _)

theorem alike_country (country : Option Text) :
    (country.isSome = true → Alike ⟨S.float, Protocol.escape⟩ ⟨py.repr, Python.escape⟩
      (country.elim .null .str)) ↔ ∀ t, country = some t → ∀ c ∈ t, c.toNat < 127 := by
  cases country with
  | none => simp
  | some t => simp [Alike, escape_eq_iff]

/-- Both print the report alike exactly when it is plain and its revenue is written alike. -/
theorem alike_iff (r : Report) {x : Finite binary64} (hx : r.counters.revenue = .finite x) :
    Alike ⟨S.float, Protocol.escape⟩ ⟨py.repr, Python.escape⟩ r.unsigned.toValue ↔
      r.Plain ∧ S.float x = py.repr x := by
  rw [toValue, alike_object (nodup_entries _)]
  have hkeys : (∀ e ∈ r.unsigned.entries, (∀ c ∈ e.1.toList, Protocol.escape c = Python.escape c) ∧
      Alike ⟨S.float, Protocol.escape⟩ ⟨py.repr, Python.escape⟩ e.2) ↔
      ∀ e ∈ r.unsigned.entries, Alike ⟨S.float, Protocol.escape⟩ ⟨py.repr, Python.escape⟩ e.2 := by
    constructor
    · exact fun h e he => (h e he).2
    · intro h e he
      have hname : e.1 ∈ fields.names :=
        (fields.keys_write _).subset (List.mem_map_of_mem he)
      exact ⟨names_plain e.1 hname, h e he⟩
  rw [hkeys, entries]
  unfold fields
  simp only [Fields.forall_mem_write]
  -- what is left of each field is what its value has of text
  simp only [FieldCodec.required, Codec.uint, unsigned, Alike, imp_self, Codec.text,
    escape_eq_iff, forall_const, optionalText, FieldCodec.optional, Codec.option, Option.mem_def,
    implies_true, Option.isNone_eq_false_iff, Codec.list, alikeItems_iff, List.mem_map,
    forall_exists_index, and_imp, forall_apply_eq_imp_iff₂, nonzero, Codec.float64, hx,
    Option.isNone_none, Bool.true_eq_false, Fields.write, List.not_mem_nil, IsEmpty.forall_iff,
    and_self, and_true, true_and, alike_country]
  simp only [Plain, texts, List.append_assoc, List.mem_cons, List.mem_append, Option.mem_toList,
    or_imp, forall_and, forall_eq]
  tauto

/-- Without its signature a report is the unsigned one. -/
theorem remove_sig_toValue (r : Report) : r.toValue.remove "sig" = r.unsigned.toValue := by
  have hsame : without "sig" r.entries = without "sig" r.unsigned.entries := by
    unfold entries fields
    iterate 16 apply Fields.without_write_tail
    exact (Fields.without_write_head ..).trans (Fields.without_write_head ..).symm
  have hself : without "sig" r.unsigned.entries = r.unsigned.entries := by
    apply List.filter_eq_self.mpr
    unfold entries fields
    simp only [Fields.forall_mem_write]
    simp [unsigned, optionalText, FieldCodec.optional, Fields.write]
  change Json.obj (without "sig" (putAll r.entries [])) = Json.obj (putAll r.unsigned.entries [])
  rw [without_putAll, hsame, hself]

theorem isValue_entries (r : Report) : ∀ e ∈ r.entries, e.2.IsValue := fields.isValue_write _

theorem value_entries (r : Report) : (Json.obj r.entries).value = r.toValue := by
  rw [value, entryValues_self r.isValue_entries]
  rfl

end Report

theorem preimage_eq (r : Report) : r.preimage S =
    Hex.utf8 (r.unsigned.toValue.render ⟨S.float, Protocol.escape⟩) := by
  rw [Report.preimage, Protocol.canonicalBytes, r.unsigned.remove_sig_toValue]
  rfl

theorem signedOver_body {r : Report} {raw : Text} (hread : py.loads raw = some (.obj r.entries)) :
    py.signedOver raw = some r.unsigned.toValue := by
  rw [Python.signedOver, hread, Option.map_some, Report.value_entries,
    ← r.remove_sig_toValue]
  rfl

theorem canonicalBytes_eq_iff (hS : Terse S) (r : Report) {x : Finite binary64}
    (hx : r.counters.revenue = .finite x) :
    py.canonicalBytes r.unsigned.toValue = r.preimage S ↔ r.Plain ∧ S.float x = py.repr x := by
  rw [← Report.alike_iff r hx, ← render_eq_iff (comparable hS py), preimage_eq,
    Python.canonicalBytes]
  exact ⟨fun h => (Hex.utf8_injective h).symm, fun h => congrArg Hex.utf8 h.symm⟩

theorem verify_signHex (hE : E.Correct) (hhex : ∀ b, py.fromHex (Hex.encode b) = some b)
    (k : E.Secret) (payload : Json) :
    py.verify E (peerId E k) payload (signHex E k (py.canonicalBytes payload)) = true := by
  rw [Python.verify, peerId, hhex, signHex, hhex]
  simp [hE.length_publicKey, hE.length_sign, hE.verify_sign, Except.isOk, Except.toBool]

/-- What the collector checks a signature over is what was signed, exactly for a plain report whose
revenue both write alike; and then the signature is good. -/
theorem report_parity (hS : Terse S) (hE : E.Correct)
    (hhex : ∀ b, py.fromHex (Hex.encode b) = some b) (r : Report) (k : E.Secret)
    (x : Finite binary64) (hx : r.counters.revenue = .finite x)
    (hread : py.loads ((r.signedBy S E k).body S) = some (.obj (r.signedBy S E k).entries)) :
    ∃ payload, py.signedOver ((r.signedBy S E k).body S) = some payload ∧
      (py.canonicalBytes payload = r.preimage S ↔ r.Plain ∧ S.float x = py.repr x) ∧
      (r.Plain → S.float x = py.repr x → r.peerId = peerId E k →
        ∃ sig, (r.signedBy S E k).sig = some sig ∧ py.verify E r.peerId payload sig = true) := by
  have hiff : py.canonicalBytes r.unsigned.toValue = r.preimage S ↔ r.Plain ∧ S.float x = py.repr x :=
    canonicalBytes_eq_iff hS r hx
  refine ⟨r.unsigned.toValue, signedOver_body (r := r.signedBy S E k) hread, hiff, ?_⟩
  intro hplain hfloat hpeer
  refine ⟨signHex E k (r.preimage S), rfl, ?_⟩
  rw [hpeer, ← hiff.mpr ⟨hplain, hfloat⟩]
  exact verify_signHex hE hhex k _

section Instance

theorem thirtySecond_prec : 4503599627370496 < 2 ^ binary64.prec := by decide

theorem thirtySecond_fits : binary64.emin ≤ -57 ∧ -57 ≤ binary64.emax ∧
    (-57 = binary64.emin ∨ 2 ^ (binary64.prec - 1) ≤ 4503599627370496) := by decide

/-- A thirty-second of a dollar. -/
def thirtySecond : Finite binary64 :=
  ⟨false, 4503599627370496, -57, thirtySecond_prec, thirtySecond_fits.1, thirtySecond_fits.2.1,
    thirtySecond_fits.2.2⟩

def serde : SerdeJson := ⟨fun _ => "0.03125".toList, fun _ => none⟩

theorem serde_terse : Terse serde := by
  have hplain : ("0.03125".toList.all fun c => !isDelimiter c) = true := by decide
  intro _ c hc
  have hc := List.all_eq_true.mp hplain c hc
  exact Bool.not_eq_true' _ |>.mp hc

def box (label : Text) : Report where
  v := 1
  peerId := peerId ed25519 ()
  label := label
  country := some "DE".toList
  caps := ["llm".toList]
  models := ["llama".toList]
  windowSecs := 300
  counters := {
    requests := 3, images := 0, tokensIn := 0, tokensOut := 0, tokensCached := 0
    revenue := .finite thirtySecond, failures := 0, rejected := 0 }
  currency := "USD".toList
  sig := none

@[irreducible] def boxBody (label : Text) : Text := ((box label).signedBy serde ed25519 ()).body serde

@[irreducible] def boxTree (label : Text) : Json := .obj ((box label).signedBy serde ed25519 ()).entries

/-- A collector that reads one report. -/
def collector (label : Text) : Python where
  loads t := if t = boxBody label then some (boxTree label) else none
  shortest _ := ([3, 1, 2, 5], -1)
  fromHex t := (Hex.decode t).toOption

theorem loads_box (label : Text) :
    (collector label).loads (((box label).signedBy serde ed25519 ()).body serde) =
      some (.obj ((box label).signedBy serde ed25519 ()).entries) := by
  have hread : (collector label).loads (boxBody label) = some (boxTree label) := if_pos rfl
  rw [boxBody, boxTree] at hread
  exact hread

theorem fromHex_encode (label : Text) (b : Bytes) :
    (collector label).fromHex (Hex.encode b) = some b := by
  change (Hex.decode (Hex.encode b)).toOption = some b
  rw [Hex.decode_encode]
  rfl

theorem repr_thirtySecond (label : Text) :
    serde.float thirtySecond = (collector label).repr thirtySecond := by
  rfl

/-- A report from a box with a plain name. -/
theorem report_parity_box : ∃ payload,
    (collector "box".toList).signedOver
      (((box "box".toList).signedBy serde ed25519 ()).body serde) = some payload ∧
    (collector "box".toList).canonicalBytes payload = (box "box".toList).preimage serde ∧
    ∃ sig, ((box "box".toList).signedBy serde ed25519 ()).sig = some sig ∧
      (collector "box".toList).verify ed25519 (box "box".toList).peerId payload sig = true := by
  have hplain : (box "box".toList).Plain := by
    have hall : ((box "box".toList).texts.all fun t => t.all fun c => c.toNat < 127) = true := by
      decide
    intro t ht c hc
    exact of_decide_eq_true (List.all_eq_true.mp (List.all_eq_true.mp hall t ht) c hc)
  obtain ⟨payload, hover, hiff, hverify⟩ := report_parity serde_terse ed25519_correct
    (fromHex_encode _) (box "box".toList) () thirtySecond rfl (loads_box _)
  exact ⟨payload, hover, hiff.mpr ⟨hplain, repr_thirtySecond _⟩,
    hverify hplain (repr_thirtySecond _) rfl⟩

/-- A report from a box with a name beyond ASCII. -/
theorem report_not_parity : ∃ payload,
    (collector "Zürich".toList).signedOver
      (((box "Zürich".toList).signedBy serde ed25519 ()).body serde) = some payload ∧
    (collector "Zürich".toList).canonicalBytes payload ≠ (box "Zürich".toList).preimage serde := by
  refine ⟨_, signedOver_body (loads_box _), ?_⟩
  intro heq
  have hplain := ((canonicalBytes_eq_iff serde_terse (box "Zürich".toList) rfl).mp heq).1
  have hlabel := hplain "Zürich".toList (.tail _ (.head _)) 'ü' (by decide)
  exact absurd hlabel (by decide)

end Instance

end Parity

end Rootmode.Stats
