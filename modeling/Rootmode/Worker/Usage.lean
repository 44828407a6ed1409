import Rootmode.Lib.Transition
import Rootmode.Core.Protocol
import Rootmode.Worker.Catalogue

namespace Rootmode.Usage

open Lib Lib.Checked Lib.Text Lib.Transition Protocol Worker

/-- What one node did over one window.  Revenue is taken as an exact number. -/
structure Counters where
  requests : ℕ := 0
  images : ℕ := 0
  tokensIn : ℕ := 0
  tokensOut : ℕ := 0
  tokensCached : ℕ := 0
  revenue : ℚ := 0
  failures : ℕ := 0
  rejected : ℕ := 0
  deriving DecidableEq

namespace Counters

/-- Counter by counter.  A word that is full starts again. -/
def add (a b : Counters) : Counters where
  requests := (a.requests + b.requests) % 2 ^ 64
  images := (a.images + b.images) % 2 ^ 64
  tokensIn := (a.tokensIn + b.tokensIn) % 2 ^ 64
  tokensOut := (a.tokensOut + b.tokensOut) % 2 ^ 64
  tokensCached := (a.tokensCached + b.tokensCached) % 2 ^ 64
  revenue := a.revenue + b.revenue
  failures := (a.failures + b.failures) % 2 ^ 64
  rejected := (a.rejected + b.rejected) % 2 ^ 64

/-- Nothing happened. -/
def isEmpty (c : Counters) : Bool := c = {}

end Counters

/-- What the meter reads off a finished job. -/
structure Finished where
  kind : JobKind
  /-- The provider or the tokenizer stands behind the numbers. -/
  tokensMeasured : Bool
  usage : Option TokenUsage
  deriving DecidableEq

/-- What a finished job adds to the meter, at what this node charges. -/
def Finished.counted (result : Finished) (price : Price) : Counters :=
  match result.kind with
  | .image | .video => { requests := 1, images := 1, revenue := price.amount }
  | .llm =>
    if result.tokensMeasured then
      let usage := result.usage.getD {}
      { requests := 1
        tokensIn := usage.prompt
        tokensOut := usage.completion
        tokensCached := usage.cached
        revenue := price.chargeLlmMicros usage.prompt usage.completion usage.cached / 1_000_000 }
    else { requests := 1 }

def failedOnce : Counters := { requests := 1, failures := 1 }

def rejectedOnce : Counters := { rejected := 1 }

/-- What a node posts, as far as the collector reads it. -/
structure Report where
  v : ℕ
  peerId : Text
  windowSecs : ℕ
  counters : Counters
  sig : Option Text
  deriving DecidableEq

/-- A node that reports: its name, its windows, and its signature of what it posts, unless it cannot be
put in canonical form. -/
structure Node where
  peerId : Text
  windowSecs : ℕ
  sign : Report → Option Text

/-- A signed account of what a node served since the last one. -/
def Node.report (n : Node) (counters : Counters) : Option Report :=
  let unsigned : Report :=
    { v := protocolVersion, peerId := n.peerId, windowSecs := n.windowSecs, counters, sig := none }
  (n.sign unsigned).map fun sig => { unsigned with sig := some sig }

/-- What the collector keeps of a report. -/
structure Row where
  peerId : Text
  receivedAt : ℤ
  counters : Counters
  deriving DecidableEq

/-- The collector: whether a body has the shape of a report, what its signature is checked by, and how
many reports of a node it takes in an hour. -/
structure Collector where
  requireSig : Bool
  maxReportsPerHour : ℕ
  shaped : Report → Bool
  verifies : Report → Bool

namespace Collector

/-- No window may claim more than this. -/
def Claims (r : Report) : Prop :=
  (1 ≤ r.windowSecs ∧ r.windowSecs ≤ 86_400) ∧
  (∀ n ∈ [r.counters.requests, r.counters.images, r.counters.failures, r.counters.rejected],
    n ≤ 5_000_000) ∧
  (∀ n ∈ [r.counters.tokensIn, r.counters.tokensOut, r.counters.tokensCached],
    n ≤ 50_000_000_000) ∧
  0 ≤ r.counters.revenue ∧ r.counters.revenue ≤ 1_000_000

instance (r : Report) : Decidable (Claims r) := inferInstanceAs (Decidable (_ ∧ _))

/-- How many reports of a node there are since then. -/
def reportsSince (rows : List Row) (peerId : Text) (since : ℤ) : ℕ :=
  rows.countP fun row => row.peerId = peerId ∧ since ≤ row.receivedAt

variable (k : Collector)

/-- Accept one window of counters from one worker. -/
def report (rows : List Row) (now : ℤ) (payload : Report) : Except (ℕ × String) (List Row) := do
  let v := payload.v
  require (k.shaped payload = true ∧ Claims payload) (422, "not a report")
  require (v = 1) (400, s!"unknown report version {v}")
  require (k.requireSig = true → payload.sig.getD [] ≠ []) (401, "unsigned report")
  require (k.requireSig = true → k.verifies payload = true)
    (401, "signature does not match peer_id")
  require (reportsSince rows (lower payload.peerId) (now - 3600) < k.maxReportsPerHour)
    (429, "reporting too often")
  return { peerId := lower payload.peerId, receivedAt := now, counters := payload.counters } :: rows

end Collector

/-- What became of the report that is out. -/
inductive Fate
  | underway | stored | refused
  deriving DecidableEq

/-- A node's meter, the report it waits for an answer to, every report it ever posted, the collector's
rows, and what was recorded on the way, newest first. -/
structure State where
  meter : Counters := {}
  sending : Option (Report × Fate) := none
  posted : List Report := []
  rows : List Row := []
  recorded : List Counters := []
  deriving DecidableEq

namespace State

variable (s : State)

def count (c : Counters) : State :=
  { s with meter := s.meter.add c, recorded := c :: s.recorded }

/-- The counters go back to the meter after a failed send. -/
def restored (counters : Counters) : State :=
  { s with
    meter := if counters.isEmpty then s.meter else s.meter.add counters
    sending := none }

/-- What is out and not stored. -/
def unsettled : Counters :=
  match s.sending with
  | some (_, .stored) | none => {}
  | some (r, _) => r.counters

end State

inductive Act
  | record (result : Finished) (price : Price)
  | failed
  | rejected
  | window
  | arrives (now : ℤ)
  | answered
  | lost
  | repost (r : Report) (now : ℤ)
  | other (r : Report) (now : ℤ)

variable (n : Node) (k : Collector)

/-- A node and its collector.  A report may be lost on the way there, its answer on the way back, and
anyone may post again what the node posted once. -/
inductive Step : Labelled State Act
  | record {s result price} : Step s (.record result price) (s.count (result.counted price))
  | failed {s} : Step s .failed (s.count failedOnce)
  | rejected {s} : Step s .rejected (s.count rejectedOnce)
  | unsigned {s} : s.sending = none → n.report s.meter = none → Step s .window { s with meter := {} }
  | posted {s r} : s.sending = none → n.report s.meter = some r →
      Step s .window
        { s with meter := {}, sending := some (r, .underway), posted := r :: s.posted }
  | stored {s r now rows} : s.sending = some (r, .underway) → k.report s.rows now r = .ok rows →
      Step s (.arrives now) { s with rows, sending := some (r, .stored) }
  | refused {s r now e} : s.sending = some (r, .underway) → k.report s.rows now r = .error e →
      Step s (.arrives now) { s with sending := some (r, .refused) }
  | accepted {s r} : s.sending = some (r, .stored) → Step s .answered { s with sending := none }
  | failure {s r} : s.sending = some (r, .refused) → Step s .answered (s.restored r.counters)
  | lost {s r fate} : s.sending = some (r, fate) → Step s .lost (s.restored r.counters)
  | again {s r now rows} : r ∈ s.posted → k.report s.rows now r = .ok rows →
      Step s (.repost r now) { s with rows }
  | enough {s r now e} : r ∈ s.posted → k.report s.rows now r = .error e →
      Step s (.repost r now) s
  | other {s r now rows} : lower r.peerId ≠ lower n.peerId → k.report s.rows now r = .ok rows →
      Step s (.other r now) { s with rows }

/-- What the collector keeps a sum of.  It has no column for the tokens read from a cache. -/
inductive Column
  | requests | images | tokensIn | tokensOut | revenue | failures | rejected
  deriving DecidableEq

namespace Column

def of : Column → Counters → ℚ
  | .requests, c => c.requests
  | .images, c => c.images
  | .tokensIn, c => c.tokensIn
  | .tokensOut, c => c.tokensOut
  | .revenue, c => c.revenue
  | .failures, c => c.failures
  | .rejected, c => c.rejected

def total (col : Column) (cs : List Counters) : ℚ := (cs.map col.of).sum

/-- What the collector has of the node. -/
def stored (col : Column) (rows : List Row) : ℚ :=
  col.total ((rows.filter fun row => row.peerId = lower n.peerId).map Row.counters)

end Column

/-- The meter has room for what is added to it. -/
def Fits (a b : Counters) : Prop := ∀ col : Column, col ≠ .revenue → col.of a + col.of b < 2 ^ 64

/-- Counters that count nothing the collector keeps. -/
def Blank (c : Counters) : Prop := ∀ col : Column, col.of c = 0

/-- No more is stored than was recorded, and what is not stored is in the meter or out with a report
that will go back there. -/
structure Counted (s : State) : Prop where
  stored_le : ∀ col : Column, col.stored n s.rows ≤ col.total s.recorded
  kept : ∀ col : Column, col.stored n s.rows + col.of s.meter + col.of s.unsettled =
    col.total s.recorded

/-- The meter has room and prices are no refunds, a report that cannot be signed counts nothing, and so
does one whose answer is lost once it is stored or that is stored once more. -/
def Once (s : State) : Act → Prop
  | .record result price => Fits s.meter (result.counted price) ∧ 0 ≤ price.amount
  | .failed => Fits s.meter failedOnce
  | .rejected => Fits s.meter rejectedOnce
  | .window => n.report s.meter = none → Blank s.meter
  | .arrives _ => True
  | .answered => ∀ r, s.sending = some (r, .refused) → Fits s.meter r.counters
  | .lost => ∀ r fate, s.sending = some (r, fate) →
      Fits s.meter r.counters ∧ (fate = .stored → Blank r.counters)
  | .repost r now => ∀ rows, k.report s.rows now r = .ok rows → Blank r.counters
  | .other _ _ => True

variable {n} {k} {col : Column} {a b c : Counters} {s s' : State} {act : Act} {r : Report}
  {rows rows' : List Row} {now : ℤ} {result : Finished} {price : Price}

section Sums

theorem Column.of_empty (col : Column) : col.of {} = 0 := by
  cases col <;> exact Nat.cast_zero

/-- Words that have room add up. -/
theorem Column.of_add (h : Fits a b) (col : Column) : col.of (a.add b) = col.of a + col.of b := by
  have hword : ∀ {x y : ℕ}, (x + y : ℚ) < 2 ^ 64 → (((x + y) % 2 ^ 64 : ℕ) : ℚ) = x + y := by
    intro x y hlt
    rw [Nat.mod_eq_of_lt (by exact_mod_cast hlt)]
    exact Nat.cast_add x y
  cases col with
  | revenue => rfl
  | requests => exact hword (h .requests (by decide))
  | images => exact hword (h .images (by decide))
  | tokensIn => exact hword (h .tokensIn (by decide))
  | tokensOut => exact hword (h .tokensOut (by decide))
  | failures => exact hword (h .failures (by decide))
  | rejected => exact hword (h .rejected (by decide))

theorem Column.of_nonneg (h : 0 ≤ c.revenue) (col : Column) : 0 ≤ col.of c := by
  cases col with
  | revenue => exact h
  | _ => exact Nat.cast_nonneg _

theorem Column.total_cons (col : Column) (c : Counters) (cs : List Counters) :
    col.total (c :: cs) = col.of c + col.total cs := rfl

theorem Column.stored_own {row : Row} (h : row.peerId = lower n.peerId) (col : Column) :
    col.stored n (row :: rows) = col.of row.counters + col.stored n rows := by
  rw [stored, List.filter_cons_of_pos (by simpa using h)]
  rfl

theorem Column.stored_other {row : Row} (h : row.peerId ≠ lower n.peerId) (col : Column) :
    col.stored n (row :: rows) = col.stored n rows := by
  rw [stored, List.filter_cons_of_neg (by simpa using h)]
  rfl

theorem State.of_restored (h : Fits s.meter c) (col : Column) :
    col.of (s.restored c).meter = col.of s.meter + col.of c := by
  unfold State.restored
  by_cases hempty : c.isEmpty
  · rw [if_pos hempty, of_decide_eq_true hempty, col.of_empty, add_zero]
  · rw [if_neg hempty]
    exact Column.of_add h col

theorem Finished.counted_nonneg (h : 0 ≤ price.amount) : 0 ≤ (result.counted price).revenue := by
  unfold counted
  split
  · exact h
  · exact h
  · split
    · exact div_nonneg (Nat.cast_nonneg _) (by norm_num)
    · exact le_rfl

end Sums

section Posts

theorem Node.report_eq_some (h : n.report c = some r) : r.peerId = n.peerId ∧ r.counters = c := by
  unfold Node.report at h
  rw [Option.map_eq_some_iff] at h
  obtain ⟨sig, -, rfl⟩ := h
  exact ⟨rfl, rfl⟩

/-- A report that is taken leaves one row. -/
theorem Collector.report_eq_ok (h : k.report rows now r = .ok rows') :
    rows' = { peerId := lower r.peerId, receivedAt := now, counters := r.counters } :: rows := by
  simp only [report, bind_eq_ok, require_eq_ok] at h
  obtain ⟨-, -, -, -, -, -, -, -, -, -, h⟩ := h
  exact (Except.ok.inj h).symm

theorem stored_report (h : k.report rows now r = .ok rows') (hown : r.peerId = n.peerId)
    (col : Column) : col.stored n rows' = col.of r.counters + col.stored n rows := by
  rw [Collector.report_eq_ok h]
  exact Column.stored_own (congrArg lower hown) col

end Posts

section Runs

/-- Every step keeps the sums. -/
structure State.Sound (n : Node) (s : State) : Prop where
  kept : ∀ col : Column, col.stored n s.rows + col.of s.meter + col.of s.unsettled =
    col.total s.recorded
  own : ∀ r ∈ s.posted, r.peerId = n.peerId ∧ 0 ≤ r.counters.revenue
  out : ∀ r fate, s.sending = some (r, fate) → r ∈ s.posted
  meter_nonneg : 0 ≤ s.meter.revenue

theorem State.Sound.unsettled_nonneg (h : s.Sound n) : 0 ≤ s.unsettled.revenue := by
  unfold unsettled
  split
  · exact le_rfl
  · exact le_rfl
  · next r fate _ hsending => exact (h.own r (h.out r _ hsending)).2

theorem State.Sound.counted (h : s.Sound n) : Counted n s where
  stored_le := by
    intro col
    have hkept := h.kept col
    have hmeter := col.of_nonneg h.meter_nonneg
    have hout := col.of_nonneg h.unsettled_nonneg
    linarith
  kept := h.kept

theorem State.Sound.count (h : s.Sound n) (hfits : Fits s.meter c) (hc : 0 ≤ c.revenue) :
    (s.count c).Sound n where
  kept := by
    intro col
    have hkept := h.kept col
    have hadd := col.of_add hfits
    simp only [State.count, col.total_cons]
    have hout : (s.count c).unsettled = s.unsettled := rfl
    rw [State.count] at hout
    rw [hout, hadd]
    linarith
  own := h.own
  out := h.out
  meter_nonneg := add_nonneg h.meter_nonneg hc

theorem State.unsettled_stored (h : s.sending = some (r, .stored)) : s.unsettled = {} := by
  rw [unsettled, h]

theorem State.unsettled_of_ne {fate : Fate} (h : s.sending = some (r, fate)) (hfate : fate ≠ .stored) :
    s.unsettled = r.counters := by
  rw [unsettled, h]
  cases fate with
  | underway => rfl
  | refused => rfl
  | stored => exact absurd rfl hfate

/-- What was not stored goes back to the meter. -/
theorem State.Sound.restored {fate : Fate} (h : s.Sound n) (hsending : s.sending = some (r, fate))
    (hfits : Fits s.meter r.counters) (hblank : fate = .stored → Blank r.counters) :
    (s.restored r.counters).Sound n where
  kept := by
    intro col
    have hkept := h.kept col
    have hunsettled : col.of s.unsettled = col.of r.counters := by
      by_cases hfate : fate = .stored
      · rw [hblank hfate col]
        subst hfate
        rw [State.unsettled_stored hsending, col.of_empty]
      · rw [State.unsettled_of_ne hsending hfate]
    have hout : col.of (s.restored r.counters).unsettled = 0 := col.of_empty
    have hmeter := State.of_restored hfits col
    have hrows : (s.restored r.counters).rows = s.rows := rfl
    have hrecorded : (s.restored r.counters).recorded = s.recorded := rfl
    rw [hout, hmeter, hrows, hrecorded]
    linarith
  own := h.own
  out := by
    intro r fate hnone
    cases hnone
  meter_nonneg := by
    have hmeter := State.of_restored hfits .revenue
    have hsum := add_nonneg h.meter_nonneg (h.own r (h.out r _ hsending)).2
    exact hsum.trans_eq hmeter.symm

/-- What was out is stored. -/
theorem State.Sound.stored (h : s.Sound n) (hsending : s.sending = some (r, .underway))
    (hreport : k.report s.rows now r = .ok rows) :
    { s with rows, sending := some (r, .stored) : State }.Sound n where
  kept := by
    intro col
    have hkept := h.kept col
    rw [State.unsettled_of_ne hsending (by decide)] at hkept
    have hstored := stored_report hreport (h.own r (h.out r _ hsending)).1 col
    have hout : col.of { s with rows, sending := some (r, .stored) : State }.unsettled = 0 :=
      col.of_empty
    rw [hout, hstored]
    linarith
  own := h.own
  out := by
    rintro _ _ ⟨⟩
    exact h.out r _ hsending
  meter_nonneg := h.meter_nonneg

theorem State.Sound.refused (h : s.Sound n) (hsending : s.sending = some (r, .underway)) :
    { s with sending := some (r, .refused) : State }.Sound n where
  kept := by
    intro col
    have hkept := h.kept col
    rw [State.unsettled_of_ne hsending (by decide)] at hkept
    exact hkept
  own := h.own
  out := by
    rintro _ _ ⟨⟩
    exact h.out r _ hsending
  meter_nonneg := h.meter_nonneg

/-- Rows that change no sum. -/
theorem State.Sound.of_stored_eq (h : s.Sound n)
    (hsame : ∀ col : Column, col.stored n rows = col.stored n s.rows) :
    { s with rows : State }.Sound n where
  kept := by
    intro col
    have hkept := h.kept col
    rw [← hsame col] at hkept
    exact hkept
  own := h.own
  out := h.out
  meter_nonneg := h.meter_nonneg

theorem Step.sound (h : Step n k s act s') (honce : Once n k s act) (hs : s.Sound n) :
    s'.Sound n := by
  cases h with
  | record => exact hs.count honce.1 (Finished.counted_nonneg honce.2)
  | failed => exact hs.count honce le_rfl
  | rejected => exact hs.count honce le_rfl
  | unsigned hnone hsign =>
    refine ⟨?_, hs.own, hs.out, le_rfl⟩
    intro col
    have hkept := hs.kept col
    rw [honce hsign col] at hkept
    rw [col.of_empty]
    exact hkept
  | @posted _ r hnone hsign =>
    obtain ⟨hpeer, hcounters⟩ := Node.report_eq_some hsign
    have hblank : s.unsettled = {} := by rw [State.unsettled, hnone]
    refine ⟨?_, ?_, ?_, le_rfl⟩
    · intro col
      have hkept := hs.kept col
      rw [hblank, col.of_empty] at hkept
      have hout : State.unsettled { s with
          meter := {}, sending := some (r, .underway), posted := r :: s.posted } = s.meter := hcounters
      rw [hout, col.of_empty]
      linarith
    · intro q hq
      rcases List.mem_cons.mp hq with rfl | hold
      · exact ⟨hpeer, hcounters ▸ hs.meter_nonneg⟩
      · exact hs.own q hold
    · rintro _ _ ⟨⟩
      exact List.mem_cons_self
  | stored hsending hreport => exact hs.stored hsending hreport
  | refused hsending _ => exact hs.refused hsending
  | accepted hsending =>
    refine ⟨?_, hs.own, by rintro _ _ ⟨⟩, hs.meter_nonneg⟩
    intro col
    have hkept := hs.kept col
    rw [State.unsettled_stored hsending] at hkept
    exact hkept
  | failure hsending => exact hs.restored hsending (honce _ hsending) (fun h => by cases h)
  | lost hsending =>
    obtain ⟨hfits, hblank⟩ := honce _ _ hsending
    exact hs.restored hsending hfits hblank
  | again hposted hreport =>
    refine hs.of_stored_eq fun col => ?_
    rw [stored_report hreport (hs.own _ hposted).1, honce _ hreport col, zero_add]
  | enough _ _ => exact hs
  | other hpeer hreport =>
    refine hs.of_stored_eq fun col => ?_
    rw [Collector.report_eq_ok hreport]
    exact col.stored_other hpeer

/-- In every run without a loss that counts twice or not at all, everything is counted once. -/
theorem counted_of_once (h : Runs (restrict (Step n k) (Once n k)) {} s) : Counted n s := by
  have hsound : s.Sound n := by
    refine h.invariant (P := State.Sound n) (fun hstep hs => hstep.2.sound hstep.1 hs) ⟨?_, ?_, ?_, le_rfl⟩
    · intro col
      have hnone : col.of (State.unsettled {}) = 0 := col.of_empty
      rw [hnone, col.of_empty, add_zero, add_zero]
      rfl
    · intro r hr
      cases hr
    · intro r fate hnone
      cases hnone
  exact hsound.counted

end Runs

section Local

/-- A node whose signature is a word, and a collector that knows it. -/
def box : Node where
  peerId := ofString "ab"
  windowSecs := 300
  sign _ := some (ofString "signed")

def collector : Collector where
  requireSig := true
  maxReportsPerHour := 240
  shaped _ := true
  verifies r := r.sig = some (ofString "signed")

/-- A node that cannot sign. -/
def mute : Node := { box with sign := fun _ => none }

def answer : Finished :=
  { kind := .llm, tokensMeasured := true, usage := some { prompt := 1000, completion := 500 } }

/-- One answer at a dollar for a million tokens. -/
def one : Counters := answer.counted (.new 1)

def posted : Report :=
  { v := 1, peerId := ofString "ab", windowSecs := 300, counters := one
    sig := some (ofString "signed") }

def row : Row := { peerId := ofString "ab", receivedAt := 0, counters := one }

/-- The box after its first answer, and once that was posted and stored. -/
def answered : State := { meter := one, recorded := [one] }

def filed : State :=
  { sending := some (posted, .stored), posted := [posted], rows := [row], recorded := [one] }

/-- The box once it has given the report up, its answer back on the meter. -/
def again : State := { filed with meter := one, sending := none }

theorem box_reports : box.report one = some posted := rfl

/-- The collector takes the report both times, and the meter is what it was. -/
theorem box_posts : (collector.report [] 0 posted = .ok [row] ∧
      collector.report [row] 0 posted = .ok [row, row]) ∧
    State.count {} one = answered ∧ filed.restored posted.counters = again := by
  decide +kernel

theorem answered_runs (n : Node) : Runs (Step n collector) {} answered := by
  rw [← box_posts.2.1]
  exact .single .record

theorem filed_runs : Runs (Step box collector) {} filed :=
  ((answered_runs box).tail (.posted rfl box_reports)).tail (a := .arrives 0)
    (.stored rfl box_posts.1.1)

theorem again_runs : Runs (Step box collector) {} again := by
  rw [← box_posts.2.2]
  exact filed_runs.tail (.lost rfl)

theorem fits_one : Fits {} one := by
  intro col _
  cases col <;> decide +kernel

/-- The collector has the one answer, and the meter nothing. -/
theorem counted_of_once_local : Counted box filed := by
  have hanswered : Runs (restrict (Step box collector) (Once box collector)) {} answered := by
    rw [← box_posts.2.1]
    exact .single (a := .record answer (.new 1)) ⟨⟨fits_one, by decide +kernel⟩, .record⟩
  apply counted_of_once (k := collector)
  refine (hanswered.tail (a := .window) ⟨?_, .posted rfl box_reports⟩).tail (a := .arrives 0)
    ⟨trivial, .stored rfl box_posts.1.1⟩
  intro hnone
  cases box_reports.symm.trans hnone

/-- One answer is counted twice where the collector's own answer is lost, twice where its report is
posted again, and not at all where it cannot be signed. -/
theorem not_counted_local :
    (∃ s, Runs (Step box collector) {} s ∧
      Column.requests.total s.recorded < Column.requests.stored box s.rows) ∧
    (∃ s, Runs (Step box collector) {} s ∧
      Column.requests.total s.recorded < Column.requests.stored box s.rows) ∧
    ∃ s, Runs (Step mute collector) {} s ∧ s.sending = none ∧
      Column.requests.stored mute s.rows + Column.requests.of s.meter <
        Column.requests.total s.recorded := by
  refine ⟨?_, ?_, ?_⟩
  · refine ⟨_, (again_runs.tail (.posted rfl box_reports)).tail (a := .arrives 0)
      (.stored rfl box_posts.1.2), ?_⟩
    decide +kernel
  · refine ⟨_, filed_runs.tail (a := .repost posted 0) (.again (.head _) box_posts.1.2), ?_⟩
    decide +kernel
  · refine ⟨_, (answered_runs mute).tail (.unsigned rfl rfl), rfl, ?_⟩
    decide +kernel

end Local

end Rootmode.Usage
