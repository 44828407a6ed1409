import Rootmode.Gateway.Traces

namespace Rootmode.Gateway

open Lib Lib.Mark Protocol Desktop

/-- What a client may rely on in a stream. -/
structure Proper (ts : List Trace) : Prop where
  blocks : WellFormed (ts.map Trace.block)
  parts : AllFramed (ts.map Trace.part)
  placed : ∀ t ∈ ts, ∀ i x, t.announces = some (i, x) → ∀ t' ∈ ts, ∀ ids, t'.output = some ids →
    ids[i]? = some (some x)

/-- All of a stream's text. -/
def textTraces (id : Text) (shape : Shape) (pieces : ℕ) : List Trace :=
  opening id shape ++ List.replicate pieces (piece shape) ++ closing shape

section Parts

variable (id : Text) (shape : Shape) (next i n pieces : ℕ)

theorem textTraces_blocks : Blocks 0 1 ((textTraces id shape pieces).map Trace.block) := by
  have hpieces : ∀ m ∈ (List.replicate pieces (piece shape)).map Trace.block, m = .inside 0 := by
    intro m hm
    obtain ⟨t, ht, rfl⟩ := List.mem_map.mp hm
    rw [List.eq_of_mem_replicate ht]
    cases shape <;> rfl
  rw [textTraces, List.map_append, List.map_append, List.append_assoc]
  cases shape with
  | responses =>
    have hone := blocks_one 0 (.inside 0 :: ((List.replicate pieces (piece .responses)).map Trace.block ++
      [.inside 0, .inside 0])) (by
        intro m hm
        simp only [List.mem_cons, List.mem_append, List.not_mem_nil, or_false] at hm
        rcases hm with rfl | hm | rfl | rfl
        · exact .inl rfl
        · exact .inl (hpieces m hm)
        · exact .inl rfl
        · exact .inl rfl)
    simpa [opening, closing] using hone
  | anthropic => exact blocks_one 0 _ fun m hm => .inl (hpieces m hm)
  | openAi => exact blocks_one 0 _ fun m hm => .inl (hpieces m hm)

theorem callTraces_blocks :
    Blocks (next + i) (next + i + n) ((callTraces id shape next i n).map Trace.block) := by
  induction n generalizing i with
  | zero => exact .nil _
  | succ n ih =>
    have hone : Blocks (next + i) (next + i + 1) ((callTrace id shape (next + i) i).map Trace.block) := by
      cases shape with
      | responses => exact blocks_one _ [.inside (next + i), .inside (next + i)] (by simp)
      | anthropic => exact blocks_one _ [.inside (next + i)] (by simp)
      | openAi => exact blocks_one _ [.inside (next + i)] (by simp)
    have hrest := ih (i + 1)
    rw [callTraces, List.map_append]
    rw [show next + (i + 1) = next + i + 1 by omega, show next + i + 1 + n = next + i + (n + 1) by omega]
      at hrest
    exact hone.append hrest

/-- The calls say nothing of parts and of the output, and announce their items at their places. -/
structure CallOnly (t : Trace) : Prop where
  part : t.part = .other
  output : t.output = none
  announces : ∀ k x, t.announces = some (k, x) →
    ∃ j, i ≤ j ∧ j < i + n ∧ k = next + j ∧ x = responsesFunctionId id j

theorem callTraces_only : ∀ t ∈ callTraces id shape next i n, CallOnly id next i n t := by
  induction n generalizing i with
  | zero => exact fun t ht => absurd ht List.not_mem_nil
  | succ n ih =>
    intro t ht
    rcases List.mem_append.mp ht with ht | ht
    · have hquiet : ∀ block : Mark ℕ, CallOnly id next i (n + 1) { block } := fun block =>
        ⟨rfl, rfl, fun k x h => by cases h⟩
      cases shape with
      | responses =>
        simp only [callTrace, List.mem_cons, List.not_mem_nil, or_false] at ht
        rcases ht with rfl | rfl | rfl | rfl
        · refine ⟨rfl, rfl, fun k x h => ?_⟩
          cases h
          exact ⟨i, le_refl i, by omega, rfl, rfl⟩
        · exact hquiet _
        · exact hquiet _
        · exact hquiet _
      | anthropic | openAi =>
        simp only [callTrace, List.mem_cons, List.not_mem_nil, or_false] at ht
        rcases ht with rfl | rfl | rfl
        · exact hquiet _
        · exact hquiet _
        · exact hquiet _
    · obtain ⟨hpart, houtput, hannounces⟩ := ih (i + 1) t ht
      refine ⟨hpart, houtput, fun k x h => ?_⟩
      obtain ⟨j, hlo, hhi, hj⟩ := hannounces k x h
      exact ⟨j, by omega, by omega, hj⟩

/-- The text speaks nothing of the output, and announces the message's item as the first. -/
theorem textTraces_only : ∀ t ∈ textTraces id shape pieces, t.output = none ∧
    ∀ k x, t.announces = some (k, x) → k = 0 ∧ x = responsesMessageId id := by
  intro t ht
  have hquiet : ∀ (block : Mark ℕ) (part : Mark (ℕ × ℕ)),
      ({ block, part } : Trace).output = none ∧ ∀ k x,
        ({ block, part } : Trace).announces = some (k, x) → k = 0 ∧ x = responsesMessageId id :=
    fun _ _ => ⟨rfl, fun k x h => by cases h⟩
  rw [textTraces, List.mem_append, List.mem_append] at ht
  rcases ht with (ht | ht) | ht
  · cases shape with
    | responses =>
      simp only [opening, List.mem_cons, List.not_mem_nil, or_false] at ht
      rcases ht with rfl | rfl
      · refine ⟨rfl, fun k x h => ?_⟩
        cases h
        exact ⟨rfl, rfl⟩
      · exact hquiet _ _
    | anthropic | openAi =>
      rw [List.mem_singleton.mp ht]
      exact hquiet _ _
  · rw [List.eq_of_mem_replicate ht]
    cases shape <;> exact hquiet _ _
  · cases shape with
    | responses =>
      simp only [closing, List.mem_cons, List.not_mem_nil, or_false] at ht
      rcases ht with rfl | rfl | rfl <;> exact hquiet _ _
    | anthropic | openAi =>
      rw [List.mem_singleton.mp ht]
      exact hquiet _ _

end Parts

section Whole

variable {id : Text} {shape : Shape} {pieces n : ℕ} {pre quiet : List Trace}
  {output : Option (List (Option Text))}

/-- A stream as it should be: its text, if it speaks something, its calls, and its end. -/
def wholeTraces (id : Text) (shape : Shape) (pre quiet : List Trace) (speaks : Bool) (pieces n : ℕ)
    (output : Option (List (Option Text))) : List Trace :=
  pre ++ ((if speaks then textTraces id shape pieces else []) ++
    (callTraces id shape speaks.toNat 0 n ++ (quiet ++ [{ block := .ends, output }])))

theorem wholeTraces_blocks (speaks : Bool) (hpre : ∀ t ∈ pre, t = {}) (hquiet : ∀ t ∈ quiet, t = {}) :
    WellFormed ((wholeTraces id shape pre quiet speaks pieces n output).map Trace.block) := by
  have hother : ∀ ts : List Trace, (∀ t ∈ ts, t = {}) → ∀ i, Blocks i i (ts.map Trace.block) := by
    intro ts hts i
    apply blocks_of_other
    intro m hm
    obtain ⟨t, ht, rfl⟩ := List.mem_map.mp hm
    rw [hts t ht]
  have htext : Blocks 0 speaks.toNat
      ((if speaks then textTraces id shape pieces else []).map Trace.block) := by
    cases speaks with
    | true => exact textTraces_blocks id shape pieces
    | false => exact .nil 0
  have hcalls := callTraces_blocks id shape speaks.toNat 0 n
  rw [Nat.add_zero] at hcalls
  have hall := ((hother pre hpre 0).append (htext.append (hcalls.append (hother quiet hquiet _)))).wellFormed
  simpa [wholeTraces] using hall

theorem wholeTraces_parts (speaks : Bool) (hpre : ∀ t ∈ pre, t = {}) (hquiet : ∀ t ∈ quiet, t = {}) :
    AllFramed ((wholeTraces id shape pre quiet speaks pieces n output).map Trace.part) := by
  have hother : ∀ ts : List Trace, (∀ t ∈ ts, t = {}) → ∀ m ∈ ts.map Trace.part, m.key = none := by
    intro ts hts m hm
    obtain ⟨t, ht, rfl⟩ := List.mem_map.mp hm
    rw [hts t ht]
    rfl
  have hcalls : ∀ m ∈ (callTraces id shape speaks.toNat 0 n).map Trace.part, m.key = none := by
    intro m hm
    obtain ⟨t, ht, rfl⟩ := List.mem_map.mp hm
    rw [(callTraces_only id shape speaks.toNat 0 n t ht).part]
    rfl
  have hrest : ∀ m ∈ (callTraces id shape speaks.toNat 0 n).map Trace.part ++
      (quiet.map Trace.part ++ [.other]), m.key = none := by
    intro m hm
    simp only [List.mem_append, List.mem_singleton] at hm
    rcases hm with hm | hm | rfl
    · exact hcalls m hm
    · exact hother quiet hquiet m hm
    · rfl
  by_cases htext : speaks = true ∧ shape = .responses
  · obtain ⟨rfl, rfl⟩ := htext
    have hbefore : ∀ m ∈ pre.map Trace.part ++ [.other], m.key = none := by
      intro m hm
      rcases List.mem_append.mp hm with hm | hm
      · exact hother pre hpre m hm
      · rw [List.mem_singleton.mp hm]
        rfl
    have hwithin : ∀ m ∈ List.replicate pieces (Mark.inside ((0, 0) : ℕ × ℕ)) ++ [.inside (0, 0)],
        m = .inside (0, 0) ∨ m.key = none := by
      intro m hm
      rcases List.mem_append.mp hm with hm | hm
      · exact .inl (List.eq_of_mem_replicate hm)
      · exact .inl (List.mem_singleton.mp hm)
    have hafter : ∀ m ∈ Mark.other :: ((callTraces id .responses 1 0 n).map Trace.part ++
        (quiet.map Trace.part ++ [.other])), m.key = none := by
      intro m hm
      rcases List.mem_cons.mp hm with rfl | hm
      · rfl
      · exact hrest m hm
    have hall := allFramed_one hbefore hwithin hafter
    simpa [wholeTraces, textTraces, opening, closing, piece] using hall
  · apply allFramed_of_other
    have htexts : ∀ m ∈ (if speaks then textTraces id shape pieces else []).map Trace.part,
        m.key = none := by
      intro m hm
      obtain ⟨t, ht, rfl⟩ := List.mem_map.mp hm
      cases speaks with
      | false => cases ht
      | true =>
        have hshape : shape ≠ .responses := fun h => htext ⟨rfl, h⟩
        simp only [if_true, textTraces, List.mem_append] at ht
        rcases ht with (ht | ht) | ht
        · cases shape with
          | responses => exact absurd rfl hshape
          | anthropic | openAi =>
            rw [List.mem_singleton.mp ht]
            rfl
        · rw [List.eq_of_mem_replicate ht]
          cases shape with
          | responses => exact absurd rfl hshape
          | anthropic | openAi => rfl
        · cases shape with
          | responses => exact absurd rfl hshape
          | anthropic | openAi =>
            rw [List.mem_singleton.mp ht]
            rfl
    intro m hm
    simp only [wholeTraces, List.map_append, List.mem_append, List.map_cons, List.map_nil] at hm
    rcases hm with hm | hm | hm
    · exact hother pre hpre m hm
    · exact htexts m hm
    · exact hrest m (by simpa using hm)

theorem wholeTraces_proper (speaks : Bool) (hpre : ∀ t ∈ pre, t = {}) (hquiet : ∀ t ∈ quiet, t = {})
    (hmessage : speaks = true → ∀ ids, output = some ids → ids[0]? = some (some (responsesMessageId id)))
    (hcalls : ∀ ids, output = some ids → ∀ j < n,
      ids[speaks.toNat + j]? = some (some (responsesFunctionId id j))) :
    Proper (wholeTraces id shape pre quiet speaks pieces n output) where
  blocks := wholeTraces_blocks speaks hpre hquiet
  parts := wholeTraces_parts speaks hpre hquiet
  placed := by
    have hcases : ∀ t ∈ wholeTraces id shape pre quiet speaks pieces n output,
        (t.output = none ∨ t.output = output) ∧ ∀ k x, t.announces = some (k, x) →
          speaks = true ∧ k = 0 ∧ x = responsesMessageId id ∨
          ∃ j < n, k = speaks.toNat + j ∧ x = responsesFunctionId id j := by
      intro t ht
      simp only [wholeTraces, List.mem_append, List.mem_singleton] at ht
      rcases ht with ht | ht | ht | ht | rfl
      · rw [hpre t ht]
        exact ⟨.inl rfl, fun k x h => by cases h⟩
      · cases speaks with
        | true =>
          obtain ⟨houtput, hannounces⟩ := textTraces_only id shape pieces t ht
          exact ⟨.inl houtput, fun k x h => .inl ⟨rfl, hannounces k x h⟩⟩
        | false => cases ht
      · obtain ⟨-, houtput, hannounces⟩ := callTraces_only id shape speaks.toNat 0 n t ht
        refine ⟨.inl houtput, fun k x h => .inr ?_⟩
        obtain ⟨j, -, hj, heq⟩ := hannounces k x h
        exact ⟨j, by omega, heq⟩
      · rw [hquiet t ht]
        exact ⟨.inl rfl, fun k x h => by cases h⟩
      · exact ⟨.inr rfl, fun k x h => by cases h⟩
    intro t ht k x hannounces t' ht' ids hids
    have houtput : output = some ids := by
      rcases (hcases t' ht').1 with hnone | hsome
      · rw [hnone] at hids
        cases hids
      · rw [← hsome, hids]
    rcases (hcases t ht).2 k x hannounces with ⟨hspeaks, rfl, rfl⟩ | ⟨j, hj, rfl, rfl⟩
    · exact hmessage hspeaks ids houtput
    · exact hcalls ids houtput j hj

end Whole

section Output

variable {id : Text} {a : Answer}

theorem output_calls (i : ℕ) :
    ((a.toolCalls.mapIdx fun i call => callItem id i call call.arguments "completed").map idOf)[i]? =
      if i < a.toolCalls.length then some (some (responsesFunctionId id i)) else none := by
  rw [List.getElem?_map, List.getElem?_mapIdx]
  split
  · next h => rw [List.getElem?_eq_getElem h, Option.map_some, Option.map_some, idOf_callItem]
  · next h => rw [List.getElem?_eq_none (not_lt.mp h), Option.map_none, Option.map_none]

/-- The message is the first item of the output, where there is one. -/
theorem output_eq : (responsesOutputItems id a).map idOf =
    (if a.text ≠ [] ∨ a.toolCalls = [] then [some (responsesMessageId id)] else []) ++
      (a.toolCalls.mapIdx fun i call => callItem id i call call.arguments "completed").map idOf := by
  have hacted : (a.text ≠ [] ∨ ¬ a.acted = true) ↔ (a.text ≠ [] ∨ a.toolCalls = []) := by
    simp [Answer.acted]
  rw [responsesOutputItems, List.map_append]
  congr 1
  by_cases h : a.text ≠ [] ∨ a.toolCalls = []
  · rw [if_pos h, if_pos (hacted.mpr h), List.map_singleton, idOf_messageItem]
  · rw [if_neg h, if_neg (hacted.not.mpr h), List.map_nil]

theorem output_call {next i : ℕ} (hnext : next = if a.text ≠ [] ∨ a.toolCalls = [] then 1 else 0)
    (hi : i < a.toolCalls.length) :
    ((responsesOutputItems id a).map idOf)[next + i]? = some (some (responsesFunctionId id i)) := by
  rw [output_eq, hnext]
  split
  · rw [List.singleton_append, Nat.add_comm, List.getElem?_cons_succ, output_calls, if_pos hi]
  · rw [List.nil_append, Nat.zero_add, output_calls, if_pos hi]

end Output

section OneShot

variable (id model : Text) (created : ℤ) (a : Answer)

theorem trace_anthropicStream : (anthropicStream id model a).map (trace .anthropic) =
    wholeTraces id .anthropic [{}] [{}] (decide (a.text ≠ [])) 1 a.toolCalls.length none := by
  unfold anthropicStream wholeTraces
  by_cases htext : a.text = []
  · have hcalls := trace_toolUses id 0 0 a.toolCalls
    simp only [htext, ne_eq, not_true_eq_false, decide_false, if_true, Bool.false_eq_true, if_false,
      Bool.toNat_false, List.map_append, List.map_cons, List.map_nil, trace_messageStart, hcalls,
      trace_messageDelta, trace_messageStop, List.nil_append, List.cons_append]
  · have hcalls := trace_toolUses id 0 1 a.toolCalls
    simp only [htext, ne_eq, not_false_eq_true, decide_true, if_true, if_false, Bool.toNat_true,
      List.map_append, List.map_cons, List.map_nil, trace_messageStart, anthropicLiveTextStart,
      trace_blockStart, anthropicLiveTextDelta, trace_blockDelta, trace_blockStop, hcalls,
      trace_messageDelta, trace_messageStop, textTraces, opening, piece, closing, List.replicate_one,
      List.nil_append, List.cons_append]

theorem anthropicStream_proper : Proper ((anthropicStream id model a).map (trace .anthropic)) := by
  rw [trace_anthropicStream]
  exact wholeTraces_proper _ (by simp) (by simp) (fun _ ids h => by cases h) (fun ids h => by cases h)

/-- The output of an answer has the message first where the stream has text, or where there are no
calls. -/
theorem output_placed {speaks : Bool} (h : a.toolCalls = [] ∨ (speaks = true ↔ a.text ≠ []))
    {ids : List (Option Text)} (hids : some ((responsesOutputItems id a).map idOf) = some ids) :
    (speaks = true → ids[0]? = some (some (responsesMessageId id))) ∧
      ∀ j < a.toolCalls.length, ids[speaks.toNat + j]? = some (some (responsesFunctionId id j)) := by
  cases hids
  constructor
  · intro hspeaks
    have hmessage : a.text ≠ [] ∨ a.toolCalls = [] := h.symm.imp_left fun hiff => hiff.mp hspeaks
    rw [output_eq, if_pos hmessage]
    rfl
  · intro j hj
    have hcalls : a.toolCalls ≠ [] := List.ne_nil_of_length_pos (by omega)
    have hiff := h.resolve_left hcalls
    apply output_call _ hj
    cases speaks with
    | true => rw [if_pos (.inl (hiff.mp rfl))]; rfl
    | false =>
      have hsilent : ¬ (a.text ≠ [] ∨ a.toolCalls = []) :=
        not_or.mpr ⟨fun htext => Bool.false_ne_true (hiff.mpr htext), hcalls⟩
      rw [if_neg hsilent]
      rfl

theorem trace_responsesLiveEnd (opened : Bool) :
    (responsesLiveEnd id model created a opened).map (trace .responses) =
      (if opened then closing .responses
        else if a.text ≠ [] then textTraces id .responses 1 else []) ++
      (callTraces id .responses (if opened = true ∨ a.text ≠ [] then 1 else 0) 0 a.toolCalls.length ++
        [{ block := .ends, output := some ((responsesOutputItems id a).map idOf) }]) := by
  unfold responsesLiveEnd
  simp only [List.map_append, trace_functionCalls, List.map_cons, List.map_nil,
    trace_responseCompleted, List.append_assoc]
  congr 1
  cases opened with
  | true => simp only [if_true, trace_responsesLiveTextClose]
  | false =>
    by_cases htext : a.text = []
    · simp [htext]
    · simp only [Bool.false_eq_true, if_false, ne_eq, htext, not_false_eq_true, if_true,
        List.map_append, List.map_cons, trace_responsesLiveTextStart, trace_responsesLiveDelta,
        trace_responsesLiveTextClose, textTraces, List.replicate_one, List.append_assoc,
        List.singleton_append]

theorem trace_openaiResponseStream :
    (openaiResponseStream id model created a).map (trace .responses) =
      wholeTraces id .responses [{}, {}] [] (decide (a.text ≠ [])) 1 a.toolCalls.length
        (some ((responsesOutputItems id a).map idOf)) := by
  unfold openaiResponseStream wholeTraces
  by_cases htext : a.text = []
  · simp [htext, trace_responsesLiveStart, trace_responsesLiveInProgress, trace_responsesLiveEnd]
  · simp [htext, trace_responsesLiveStart, trace_responsesLiveInProgress, trace_responsesLiveEnd,
      trace_responsesLiveTextStart, trace_responsesLiveDelta, textTraces]

theorem openaiResponseStream_proper :
    Proper ((openaiResponseStream id model created a).map (trace .responses)) := by
  have hplaced : a.toolCalls = [] ∨ (decide (a.text ≠ []) = true ↔ a.text ≠ []) := .inr decide_eq_true_iff
  rw [trace_openaiResponseStream]
  refine wholeTraces_proper _ (by simp) (by simp) ?_ ?_
  · exact fun hspeaks ids hids => (output_placed id a hplaced hids).1 hspeaks
  · exact fun ids hids => (output_placed id a hplaced hids).2

end OneShot

end Rootmode.Gateway
