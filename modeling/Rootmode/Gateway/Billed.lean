import Rootmode.Core.Budget
import Rootmode.Gateway.Answer

namespace Rootmode.Worker.TokenUsage

open Lib.Checked

variable {u ours theirs : TokenUsage} {reported : Option TokenUsage}

def total (u : TokenUsage) : ℕ := satAdd 64 u.prompt u.completion

/-- What is told of a chat is part of it. -/
structure Parts (u : TokenUsage) : Prop where
  cached_le : u.cached ≤ u.prompt
  reasoning_le : u.reasoning ≤ u.completion

theorem eq_zero (h : u.isZero) (hparts : u.Parts) : u = {} := by
  obtain ⟨prompt, completion, cached, reasoning⟩ := u
  obtain ⟨hcached, hreasoning⟩ := hparts
  simp only [isZero, Bool.and_eq_true, beq_iff_eq] at h hcached hreasoning
  simp only [TokenUsage.mk.injEq]
  omega

theorem reconcile_none : ours.reconcile none = ours := rfl

theorem reconcile_zero (h : theirs.isZero) : ours.reconcile (some theirs) = ours := by
  simp [reconcile, Option.filter, h]

theorem reconcile_some (h : ¬ theirs.isZero) : ours.reconcile (some theirs) =
    { prompt := max ours.prompt theirs.prompt
      completion := max ours.completion theirs.completion
      cached := min theirs.cached (max ours.prompt theirs.prompt)
      reasoning := min (max ours.reasoning theirs.reasoning) (max ours.completion theirs.completion) } := by
  simp [reconcile, Option.filter, h]

/-- A report is one of nothing, or changes the count. -/
theorem reconcile_cases (ours : TokenUsage) (reported : Option TokenUsage) :
    (ours.reconcile reported = ours ∧ ∀ theirs ∈ reported, theirs.isZero) ∨
      ∃ theirs, reported = some theirs ∧ ¬ theirs.isZero := by
  cases reported with
  | none => exact .inl ⟨reconcile_none, fun theirs h => (Option.not_mem_none theirs h).elim⟩
  | some theirs =>
    by_cases hzero : theirs.isZero
    · refine .inl ⟨reconcile_zero hzero, fun other hother => ?_⟩
      rwa [← Option.mem_some.mp hother]
    · exact .inr ⟨theirs, rfl, hzero⟩

theorem prompt_le_reconcile : ours.prompt ≤ (ours.reconcile reported).prompt := by
  obtain ⟨hsame, -⟩ | ⟨theirs, rfl, hsome⟩ := reconcile_cases ours reported
  · rw [hsame]
  · rw [reconcile_some hsome]
    exact le_max_left _ _

theorem completion_le_reconcile : ours.completion ≤ (ours.reconcile reported).completion := by
  obtain ⟨hsame, -⟩ | ⟨theirs, rfl, hsome⟩ := reconcile_cases ours reported
  · rw [hsame]
  · rw [reconcile_some hsome]
    exact le_max_left _ _

theorem reported_le_reconcile : (reported.getD {}).prompt ≤ (ours.reconcile reported).prompt ∧
    (reported.getD {}).completion ≤ (ours.reconcile reported).completion := by
  obtain ⟨hsame, hzero⟩ | ⟨theirs, rfl, hsome⟩ := reconcile_cases ours reported
  · cases reported with
    | none => exact ⟨Nat.zero_le _, Nat.zero_le _⟩
    | some theirs =>
      have hz : theirs.prompt = 0 ∧ theirs.completion = 0 := by
        simpa [isZero] using hzero theirs rfl
      rw [Option.getD_some, hz.1, hz.2]
      exact ⟨Nat.zero_le _, Nat.zero_le _⟩
  · rw [reconcile_some hsome]
    exact ⟨le_max_right _ _, le_max_right _ _⟩

theorem Parts.reconcile (h : ours.Parts) : (ours.reconcile reported).Parts := by
  obtain ⟨hsame, -⟩ | ⟨theirs, rfl, hsome⟩ := reconcile_cases ours reported
  · rwa [hsame]
  · rw [reconcile_some hsome]
    exact ⟨min_le_right _ _, min_le_right _ _⟩

theorem reconcile_again : (ours.reconcile reported).reconcile reported = ours.reconcile reported := by
  obtain ⟨hsame, -⟩ | ⟨theirs, rfl, hsome⟩ := reconcile_cases ours reported
  · rw [hsame, hsame]
  · have hagain := @reconcile_some (ours.reconcile (some theirs)) theirs hsome
    rw [hagain, reconcile_some hsome]
    simp only [TokenUsage.mk.injEq]
    omega

/-- Neither the fresh nor the cached tokens are fewer than what was counted here, as far as it was told to
be cached. -/
theorem parts_le_reconcile (hreported : ∀ theirs ∈ reported, theirs.Parts) (hcached : ours.cached = 0) :
    ours.prompt - min (reported.getD {}).cached ours.prompt ≤
        (ours.reconcile reported).prompt - (ours.reconcile reported).cached ∧
      min (reported.getD {}).cached ours.prompt ≤ (ours.reconcile reported).cached := by
  obtain ⟨hsame, hzero⟩ | ⟨theirs, rfl, hsome⟩ := reconcile_cases ours reported
  · have hnone : (reported.getD {}).cached = 0 := by
      cases reported with
      | none => rfl
      | some theirs => rw [Option.getD_some, eq_zero (hzero theirs rfl) (hreported theirs rfl)]
    rw [hsame, hnone, hcached]
    omega
  · have hle := (hreported theirs rfl).cached_le
    rw [reconcile_some hsome, Option.getD_some]
    dsimp only
    omega

end Rootmode.Worker.TokenUsage

namespace Rootmode.Gateway

open Lib Lib.Checked Lib.Json Lib.Entries Desktop Worker

variable {v : Json} {u ours : TokenUsage} {name : String}

/-- A number of a report, none where it has no such. -/
def asU64 (v : Option Json) : ℕ := (v.bind readU64).getD 0

theorem readU64_lt {v : Json} {n : ℕ} (h : readU64 v = some n) : n < 2 ^ 64 := by
  unfold readU64 at h
  split at h
  · split at h
    · next hn =>
      cases h
      omega
    · cases h
  · cases h

theorem asU64_lt {v : Option Json} : asU64 v < 2 ^ 64 := by
  unfold asU64
  cases h : v.bind readU64 with
  | none => exact Nat.two_pow_pos 64
  | some n =>
    obtain ⟨j, -, hj⟩ := Option.bind_eq_some_iff.mp h
    exact readU64_lt hj

theorem readU64_count {n : ℕ} (h : n < 2 ^ 64) : readU64 (count n) = some n := by
  have hn : (0 : ℤ) ≤ n ∧ (n : ℤ) < 2 ^ 64 := by omega
  rw [count, readU64, if_pos hn, Int.toNat_natCast]

theorem asU64_count {n : ℕ} (h : n < 2 ^ 64) : asU64 (some (count n)) = n := by
  rw [asU64, Option.bind_some, readU64_count h, Option.getD_some]

theorem metaOf_join : (metaOf v name).join.getD 0 = asU64 (v.get name) := by
  rw [metaOf, asU64]
  cases v.get name <;> rfl

theorem usageFromMeta_metaOf : usageFromMeta (metaOf v) =
    if asU64 (v.get "prompt_tokens") = 0 ∧ asU64 (v.get "completion_tokens") = 0 then none
    else some { prompt := asU64 (v.get "prompt_tokens")
                completion := asU64 (v.get "completion_tokens")
                cached := min (asU64 (v.get "cached_tokens")) (asU64 (v.get "prompt_tokens"))
                reasoning := min (asU64 (v.get "reasoning_tokens")) (asU64 (v.get "completion_tokens")) } := by
  unfold usageFromMeta
  simp only [metaOf_join]

theorem reported_parts (theirs : TokenUsage) (h : theirs ∈ usageFromMeta (metaOf v)) : theirs.Parts := by
  rw [usageFromMeta_metaOf] at h
  split at h
  · cases h
  · cases h
    exact ⟨min_le_right _ _, min_le_right _ _⟩

theorem reported_prompt : ((usageFromMeta (metaOf v)).getD {}).prompt = asU64 (v.get "prompt_tokens") := by
  rw [usageFromMeta_metaOf]
  split
  · next hnone => rw [hnone.1, Option.getD_none]
  · rfl

theorem reported_completion :
    ((usageFromMeta (metaOf v)).getD {}).completion = asU64 (v.get "completion_tokens") := by
  rw [usageFromMeta_metaOf]
  split
  · next hnone => rw [hnone.2, Option.getD_none]
  · rfl

theorem reported_cached_le : ((usageFromMeta (metaOf v)).getD {}).cached ≤ asU64 (v.get "cached_tokens") := by
  rw [usageFromMeta_metaOf]
  split
  · exact Nat.zero_le _
  · exact min_le_left _ _

/-- The billed counts, put in the metadata of a result. -/
def writeInto (u : TokenUsage) (v : Json) : Json :=
  ((((((v.insert "prompt_tokens" (count u.prompt)).insert
    "completion_tokens" (count u.completion)).insert
    "cached_tokens" (count u.cached)).insert
    "reasoning_tokens" (count u.reasoning)).insert
    "total_tokens" (count u.total)).insert
    "tokens_measured" (.bool true)).insert
    "tokenizer" (word "openai")

/-- Numbers of 64 bits. -/
structure Words (u : TokenUsage) : Prop where
  prompt_lt : u.prompt < 2 ^ 64
  completion_lt : u.completion < 2 ^ 64

theorem get_writeInto (es : List (String × Json)) :
    (writeInto u (obj es)).get "prompt_tokens" = some (count u.prompt) ∧
    (writeInto u (obj es)).get "completion_tokens" = some (count u.completion) ∧
    (writeInto u (obj es)).get "cached_tokens" = some (count u.cached) ∧
    (writeInto u (obj es)).get "reasoning_tokens" = some (count u.reasoning) := by
  unfold writeInto Json.insert
  simp only [get_obj, lookup_put, String.reduceEq, if_true, if_false, and_self]

theorem usageFromMeta_writeInto (h : u.Parts) (hw : Words u) (es : List (String × Json)) :
    (usageFromMeta (metaOf (writeInto u (obj es)))).getD {} = u := by
  obtain ⟨hprompt, hcompletion, hcached, hreasoning⟩ := get_writeInto (u := u) es
  have hcached' := h.cached_le.trans_lt hw.prompt_lt
  have hreasoning' := h.reasoning_le.trans_lt hw.completion_lt
  rw [usageFromMeta_metaOf, hprompt, hcompletion, hcached, hreasoning, asU64_count hw.prompt_lt,
    asU64_count hw.completion_lt, asU64_count hcached', asU64_count hreasoning',
    min_eq_left h.cached_le, min_eq_left h.reasoning_le]
  split
  · next hnone =>
    have hzero : u.isZero := by simp [TokenUsage.isZero, hnone]
    exact (TokenUsage.eq_zero hzero h).symm
  · rfl

theorem Words.reconcile (h : Words ours) : Words (ours.reconcile (usageFromMeta (metaOf v))) := by
  obtain ⟨hsame, -⟩ | ⟨theirs, htheirs, hsome⟩ :=
    TokenUsage.reconcile_cases ours (usageFromMeta (metaOf v))
  · rwa [hsame]
  · have hprompt : theirs.prompt < 2 ^ 64 := by
      have hread := reported_prompt (v := v)
      rw [htheirs, Option.getD_some] at hread
      exact hread ▸ asU64_lt
    have hcompletion : theirs.completion < 2 ^ 64 := by
      have hread := reported_completion (v := v)
      rw [htheirs, Option.getD_some] at hread
      exact hread ▸ asU64_lt
    rw [htheirs, TokenUsage.reconcile_some hsome]
    exact ⟨max_lt h.prompt_lt hprompt, max_lt h.completion_lt hcompletion⟩

theorem charge_le_reconciled (p : Price) (hcached : ours.cached = 0) (hreasoning : ours.reasoning ≤ ours.completion) :
    p.chargeLlmMicros ours.prompt ours.completion
        (min ((usageFromMeta (metaOf v)).getD {}).cached ours.prompt) ≤
      p.chargeLlmMicros (ours.reconcile (usageFromMeta (metaOf v))).prompt
        (ours.reconcile (usageFromMeta (metaOf v))).completion
        (ours.reconcile (usageFromMeta (metaOf v))).cached := by
  have hparts : ours.Parts := ⟨by omega, hreasoning⟩
  have hbilled := (@TokenUsage.Parts.reconcile ours (usageFromMeta (metaOf v)) hparts).cached_le
  obtain ⟨hfresh, hcache⟩ := TokenUsage.parts_le_reconcile (reported_parts (v := v)) hcached
  rw [Price.chargeLlmMicros_eq, Price.chargeLlmMicros_eq]
  refine Price.charged_mono Price.cost_nonneg ?_
  unfold Price.cost
  rw [min_eq_left (min_le_right _ ours.prompt), min_eq_left hbilled]
  exact Price.cost_le_of_parts hfresh hcache TokenUsage.completion_le_reconcile

/-- What a chat is billed for, from what was counted here and what a result reports. -/
theorem reconcile_law (ours : TokenUsage) (v : Json) (hw : Words ours) (hcached : ours.cached = 0)
    (hreasoning : ours.reasoning ≤ ours.completion) :
    let reported := usageFromMeta (metaOf v)
    let billed := ours.reconcile reported
    max ours.prompt (asU64 (v.get "prompt_tokens")) ≤ billed.prompt ∧
    max ours.completion (asU64 (v.get "completion_tokens")) ≤ billed.completion ∧
    billed.cached ≤ billed.prompt ∧ billed.reasoning ≤ billed.completion ∧
    billed.reconcile reported = billed ∧
    (∀ es, (usageFromMeta (metaOf (writeInto billed (.obj es)))).getD {} = billed) ∧
    (∀ p : Price, p.chargeLlmMicros ours.prompt ours.completion (min (reported.getD {}).cached ours.prompt) ≤
      p.chargeLlmMicros billed.prompt billed.completion billed.cached) := by
  intro reported billed
  have hparts : ours.Parts := ⟨by omega, hreasoning⟩
  have hbilled : billed.Parts := hparts.reconcile
  obtain ⟨hprompt, hcompletion⟩ := @TokenUsage.reported_le_reconcile ours reported
  rw [reported_prompt] at hprompt
  rw [reported_completion] at hcompletion
  refine ⟨max_le TokenUsage.prompt_le_reconcile hprompt, max_le TokenUsage.completion_le_reconcile hcompletion,
    hbilled.cached_le, hbilled.reasoning_le, TokenUsage.reconcile_again, fun es => ?_, fun p => ?_⟩
  · exact usageFromMeta_writeInto hbilled hw.reconcile es
  · exact charge_le_reconciled p hcached hreasoning

/-- A report of more than was counted, and of more cached than there is. -/
def told : Json := .obj [("prompt_tokens", count 120), ("cached_tokens", count 500),
  ("completion_tokens", .num (.int (-3)))]

theorem reconcile_law_told :
    let billed := TokenUsage.reconcile { prompt := 100, completion := 40, reasoning := 10 } (usageFromMeta (metaOf told))
    120 ≤ billed.prompt ∧ 40 ≤ billed.completion ∧ billed.cached ≤ billed.prompt := by
  obtain ⟨hprompt, hcompletion, hcached, -⟩ :=
    reconcile_law { prompt := 100, completion := 40, reasoning := 10 } told ⟨by decide, by decide⟩ rfl (by decide)
  exact ⟨(le_max_right _ _).trans hprompt, (le_max_left _ _).trans hcompletion, hcached⟩

end Rootmode.Gateway
