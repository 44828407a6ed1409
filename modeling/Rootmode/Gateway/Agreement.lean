import Rootmode.Gateway.Dialects
import Rootmode.Gateway.Folding

namespace Rootmode.Gateway

open Lib Lib.Checked Lib.Json Protocol

section FlatMap

variable {α β : Type} {f g : α → List β} {l : List α}

theorem length_flatMap_le (h : ∀ a ∈ l, (f a).length ≤ (g a).length) :
    (l.flatMap f).length ≤ (l.flatMap g).length := by
  induction l with
  | nil => exact le_rfl
  | cons a l ih =>
    rw [List.flatMap_cons, List.flatMap_cons, List.length_append, List.length_append]
    exact Nat.add_le_add (h a (.head _)) (ih fun b hb => h b (.tail _ hb))

/-- Where no part is longer than its counterpart, the whole is the same only where every part is. -/
theorem flatMap_eq_iff (h : ∀ a ∈ l, (f a).length ≤ (g a).length) :
    l.flatMap f = l.flatMap g ↔ ∀ a ∈ l, f a = g a := by
  induction l with
  | nil => exact iff_of_true rfl (by rintro a ⟨⟩)
  | cons a l ih =>
    have hrest : ∀ b ∈ l, (f b).length ≤ (g b).length := fun b hb => h b (.tail _ hb)
    rw [List.flatMap_cons, List.flatMap_cons, List.forall_mem_cons, ← ih hrest]
    constructor
    · intro heq
      have hlength := congrArg List.length heq
      rw [List.length_append, List.length_append] at hlength
      have hhead := h a (.head _)
      have htail := length_flatMap_le hrest
      exact List.append_inj heq (by omega)
    · rintro ⟨hhead, htail⟩
      rw [hhead, htail]

end FlatMap

section Messages

variable (S : SerdeJson) {turn : Turn}

theorem role_of_mem_results {results : List ToolResult} {m : ChatMessage}
    (h : m ∈ results.map toolMessage) : m.role ≠ role "system" := by
  obtain ⟨r, -, rfl⟩ := List.mem_map.mp h
  exact (by decide : role "tool" ≠ role "system")

/-- No turn becomes an instruction. -/
theorem role_of_mem {m : ChatMessage}
    (h : m ∈ turn.inAnthropic S ∨ m ∈ turn.inOpenAi S ∨ m ∈ turn.inResponses S) :
    m.role ≠ role "system" := by
  have huser : role "user" ≠ role "system" := by decide
  have hassistant : role "assistant" ≠ role "system" := by decide
  cases turn with
  | user results parts =>
    simp only [Turn.inAnthropic, Turn.inOpenAi, Turn.inResponses, List.mem_append, List.mem_filter] at h
    rcases h with (h | h) | (⟨h, -⟩ | ⟨h, -⟩) | (h | h)
    · exact role_of_mem_results h
    · split at h
      · cases h
      · rw [List.mem_singleton.mp h]
        exact huser
    · exact role_of_mem_results h
    · rw [List.mem_singleton.mp h]
      exact huser
    · exact role_of_mem_results h
    · split at h
      · cases h
      · rw [List.mem_singleton.mp h]
        exact huser
  | assistant parts calls =>
    simp only [Turn.inAnthropic, Turn.inOpenAi, Turn.inResponses, List.mem_append, List.mem_filter,
      List.mem_map] at h
    rcases h with h | ⟨h, -⟩ | h | ⟨c, -, rfl⟩
    · split at h
      · cases h
      · rw [List.mem_singleton.mp h]
        exact hassistant
    · rw [List.mem_singleton.mp h]
      exact hassistant
    · split at h
      · cases h
      · rw [List.mem_singleton.mp h]
        exact hassistant
    · exact hassistant

end Messages

section Accepted

variable (S : SerdeJson) (c : Conversation) {ms : List ChatMessage}

/-- The messages of a request that is accepted. -/
def chatMessages (r : Except BadRequest ChatRequest) : Except BadRequest (List ChatMessage) :=
  r.map fun chat => chat.params.messages

/-- What the system text becomes. -/
abbrev Conversation.opener : List ChatMessage := Gateway.opener (some c.system)

theorem opener_role : ∀ m ∈ c.opener, m.role = role "system" := by
  intro m hm
  unfold Conversation.opener Gateway.opener at hm
  simp only at hm
  split at hm
  · cases hm
  · rw [List.mem_singleton.mp hm]
    rfl

/-- A request is accepted for what its turns say. -/
theorem any_turn {p : ChatMessage → Prop} [DecidablePred p] {rest : List ChatMessage}
    (h : ∀ m ∈ rest, m.role ≠ role "system") :
    ((c.opener ++ rest).any fun m => decide (m.role ≠ role "system" ∧ p m)) = true ↔ ∃ m ∈ rest, p m := by
  rw [List.any_eq_true]
  constructor
  · rintro ⟨m, hm, hp⟩
    obtain ⟨hrole, hp⟩ := of_decide_eq_true hp
    rcases List.mem_append.mp hm with hm | hm
    · exact absurd (opener_role c m hm) hrole
    · exact ⟨m, hm, hp⟩
  · rintro ⟨m, hm, hp⟩
    exact ⟨m, List.mem_append_right _ hm, decide_eq_true ⟨h m hm, hp⟩⟩

theorem any_turn_of_role {rest : List ChatMessage} (h : ∀ m ∈ rest, m.role ≠ role "system") :
    ((c.opener ++ rest).any fun m => decide (m.role ≠ role "system")) = true ↔ rest ≠ [] := by
  have hany := any_turn c (p := fun _ => True) h
  simp only [and_true] at hany
  rw [hany, ne_eq, List.eq_nil_iff_forall_not_mem, not_forall_not]

theorem anthropic_accepted : chatMessages (c.anthropic.intoChat S) = .ok ms ↔
    (∃ m ∈ c.turns.flatMap (Turn.inAnthropic S), actual m = true) ∧
      ms = c.opener ++ c.turns.flatMap (Turn.inAnthropic S) := by
  have hrest : ∀ m ∈ c.turns.flatMap (Turn.inAnthropic S), m.role ≠ role "system" := by
    intro m hm
    obtain ⟨turn, -, hm⟩ := List.mem_flatMap.mp hm
    exact role_of_mem S (.inl hm)
  have hgathered : c.anthropic.gathered S = c.opener ++ c.turns.flatMap (Turn.inAnthropic S) :=
    anthropic_messages S c.turns _
  have hfold := foldLateSystemMessages_of_none (opener_role c) hrest
  simp only [chatMessages, AnthropicRequest.intoChat, hgathered, hfold, map_eq_ok, bind_eq_ok,
    require_eq_ok, any_turn c hrest]
  constructor
  · rintro ⟨chat, ⟨-, hsome, hchat⟩, rfl⟩
    cases hchat
    exact ⟨hsome, rfl⟩
  · rintro ⟨hsome, rfl⟩
    exact ⟨_, ⟨⟨⟩, hsome, rfl⟩, rfl⟩

theorem openAi_accepted : chatMessages ((c.openAi S).intoChat S) = .ok ms ↔
    c.turns.flatMap (Turn.inOpenAi S) ≠ [] ∧
      ms = c.opener ++ c.turns.flatMap (Turn.inOpenAi S) := by
  have hrest : ∀ m ∈ c.turns.flatMap (Turn.inOpenAi S), m.role ≠ role "system" := by
    intro m hm
    obtain ⟨turn, -, hm⟩ := List.mem_flatMap.mp hm
    exact role_of_mem S (.inr (.inl hm))
  have hturns : ((c.turns.flatMap (Turn.openAi S)).map (openaiMessage S)).filter actual =
      c.turns.flatMap (Turn.inOpenAi S) := by
    induction c.turns with
    | nil => rfl
    | cons turn turns ih =>
      rw [List.flatMap_cons, List.map_append, List.filter_append, openAi_messages, ih, List.flatMap_cons]
  have hgathered : (c.openAi S).gathered S = c.opener ++ c.turns.flatMap (Turn.inOpenAi S) := by
    rw [← hturns]
    unfold OpenAiRequest.gathered Conversation.openAi Conversation.opener Gateway.opener
    simp only [List.map_cons, List.filter_cons]
    by_cases hblank : c.system.trim = []
    · have hdropped : actual (openaiMessage S { role := role "system", content := str c.system }) = false := by
        simp [actual, openaiMessage, flattenText, hblank]
      rw [hdropped, if_neg Bool.false_ne_true, if_pos hblank, List.nil_append]
    · have hkept : actual (openaiMessage S { role := role "system", content := str c.system }) = true := by
        simp [actual, openaiMessage, flattenText, hblank]
      rw [hkept, if_pos rfl, if_neg hblank]
      rfl
  have hfold := foldLateSystemMessages_of_none (opener_role c) hrest
  simp only [chatMessages, OpenAiRequest.intoChat, hgathered, hfold, map_eq_ok, bind_eq_ok,
    require_eq_ok, any_turn_of_role c hrest]
  constructor
  · rintro ⟨chat, ⟨-, hsome, hchat⟩, rfl⟩
    cases hchat
    exact ⟨hsome, rfl⟩
  · rintro ⟨hsome, rfl⟩
    exact ⟨_, ⟨⟨⟩, hsome, rfl⟩, rfl⟩

theorem responses_accepted : chatMessages ((c.responses S).intoChat S) = .ok ms ↔
    c.turns.flatMap (Turn.inResponses S) ≠ [] ∧
      ms = c.opener ++ c.turns.flatMap (Turn.inResponses S) := by
  have hrest : ∀ m ∈ c.turns.flatMap (Turn.inResponses S), m.role ≠ role "system" := by
    intro m hm
    obtain ⟨turn, -, hm⟩ := List.mem_flatMap.mp hm
    exact role_of_mem S (.inr (.inr hm))
  have hgathered : (c.responses S).gathered S = c.opener ++ c.turns.flatMap (Turn.inResponses S) :=
    responses_messages S c.turns _
  have hfold := foldLateSystemMessages_of_none (opener_role c) hrest
  simp only [chatMessages, ResponsesRequest.intoChat, hgathered, hfold, map_eq_ok, bind_eq_ok,
    require_eq_ok, any_turn_of_role c hrest]
  constructor
  · rintro ⟨chat, ⟨-, hsome, hchat⟩, rfl⟩
    cases hchat
    exact ⟨hsome, rfl⟩
  · rintro ⟨hsome, rfl⟩
    exact ⟨_, ⟨⟨⟩, hsome, rfl⟩, rfl⟩

end Accepted

section Turns

/-- Words that are not all blank, or nothing at all. -/
def Worded (parts : List Part) : Prop := (words parts).trim ≠ [] ∨ Mute parts

/-- A turn that every dialect has as it is. -/
def Turn.Plain : Turn → Prop
  | .user results parts => (∀ r ∈ results, r.content.trim ≠ []) ∧ Worded parts
  | .assistant parts calls => (calls ≠ [] ∨ Worded parts) ∧ (calls = [] ∨ calls.length = 1 ∧ Mute parts)

/-- A turn nothing of which is empty. -/
def Turn.Lasting : Turn → Prop
  | .user results parts => (∀ r ∈ results, r.content.trim ≠ []) ∧ Worded parts
  | .assistant parts calls => calls ≠ [] ∨ Worded parts

/-- A turn that makes one item. -/
def Turn.Single : Turn → Prop
  | .user _ _ => True
  | .assistant parts calls => calls = [] ∨ calls.length = 1 ∧ Mute parts

/-- A turn that says something or does something. -/
def Turn.Speaks : Turn → Prop
  | .user results parts => results ≠ [] ∨ (words parts).trim ≠ []
  | .assistant parts calls => calls ≠ [] ∨ (words parts).trim ≠ []

variable (S : SerdeJson) {turn : Turn} {results : List ToolResult} {parts : List Part}
  {calls : List ToolUse}

theorem trim_nil : Text.trim [] = [] := rfl

theorem actual_toolMessage (r : ToolResult) : actual (toolMessage r) = true ↔ r.content.trim ≠ [] := by
  simp [actual, toolMessage, message]

theorem actual_speech (named : String) (calls : List ToolCall) :
    actual (speech named parts calls) = true ↔ (words parts).trim ≠ [] ∨ calls ≠ [] := by
  simp [actual, speech]

theorem not_mute_of_trim (h : (words parts).trim ≠ []) : ¬ Mute parts := by
  intro hmute
  rw [hmute.1] at h
  exact h rfl

theorem mute_iff : Mute parts ↔ words parts = [] ∧ pictures parts = [] := Iff.rfl

/-- A user's turn that is kept everywhere, or not at all. -/
theorem filter_speech : [speech "user" parts []].filter actual =
    (if Mute parts then [] else [speech "user" parts []]) ↔ Worded parts := by
  unfold Worded
  by_cases hmute : Mute parts
  · have hblank : actual (speech "user" parts []) = false := by
      rw [← Bool.not_eq_true, actual_speech, hmute.1]
      simp [trim_nil]
    simp [hmute, hblank]
  · by_cases hwords : (words parts).trim = []
    · have hblank : actual (speech "user" parts []) = false := by
        rw [← Bool.not_eq_true, actual_speech]
        simp [hwords]
      simp [hmute, hwords, hblank]
    · have hactual : actual (speech "user" parts []) = true := (actual_speech _ _).mpr (.inl hwords)
      simp [hmute, hwords, hactual]

theorem length_filter_speech : ([speech "user" parts []].filter actual).length ≤
    (if Mute parts then [] else [speech "user" parts []]).length := by
  by_cases hactual : actual (speech "user" parts []) = true
  · have hwords : (words parts).trim ≠ [] := ((actual_speech _ _).mp hactual).resolve_right (· rfl)
    simp [hactual, not_mute_of_trim hwords]
  · simp [hactual]

theorem not_quiet (h : actual (speech "assistant" parts (calls.map (useCall S))) = true) :
    ¬ (Mute parts ∧ calls.isEmpty) := by
  rintro ⟨hmute, hcalls⟩
  rw [actual_speech, hmute.1, List.isEmpty_iff.mp hcalls] at h
  exact h.elim (· rfl) (· rfl)

theorem length_inOpenAi_le : (turn.inOpenAi S).length ≤ (turn.inAnthropic S).length := by
  cases turn with
  | user results parts =>
    rw [Turn.inOpenAi, Turn.inAnthropic, List.length_append, List.length_append]
    exact Nat.add_le_add (List.length_filter_le _ _) length_filter_speech
  | assistant parts calls =>
    rw [Turn.inOpenAi, Turn.inAnthropic]
    by_cases hactual : actual (speech "assistant" parts (calls.map (useCall S))) = true
    · rw [if_neg (not_quiet S hactual)]
      exact List.length_filter_le _ _
    · simp [hactual]

theorem length_inAnthropic_le : (turn.inAnthropic S).length ≤ (turn.inResponses S).length := by
  cases turn with
  | user results parts => exact le_rfl
  | assistant parts calls =>
    rw [Turn.inAnthropic, Turn.inResponses]
    cases calls with
    | nil =>
      by_cases hmute : Mute parts
      · simp [hmute]
      · simp [hmute]
    | cons c calls =>
      rw [if_neg (by simp), List.length_append, List.length_map, List.length_singleton, List.length_cons]
      omega

/-- What of a turn the OpenAI dialect leaves out. -/
theorem inOpenAi_eq_inAnthropic : turn.inOpenAi S = turn.inAnthropic S ↔ turn.Lasting := by
  cases turn with
  | user results parts =>
    have hresults : (results.map toolMessage).filter actual = results.map toolMessage ↔
        ∀ r ∈ results, r.content.trim ≠ [] := by
      rw [List.filter_eq_self, List.forall_mem_map]
      exact forall₂_congr fun r _ => actual_toolMessage r
    have hlength := List.length_filter_le actual (results.map toolMessage)
    have hspeech := @length_filter_speech parts
    simp only [Turn.inOpenAi, Turn.inAnthropic, Turn.Lasting, ← hresults, ← filter_speech]
    constructor
    · intro heq
      have htotal := congrArg List.length heq
      rw [List.length_append, List.length_append] at htotal
      exact List.append_inj heq (by omega)
    · rintro ⟨hleft, hright⟩
      rw [hleft, hright]
  | assistant parts calls =>
    rw [Turn.inOpenAi, Turn.inAnthropic]
    by_cases hactual : actual (speech "assistant" parts (calls.map (useCall S))) = true
    · have hkept : calls ≠ [] ∨ Worded parts := by
        rcases (actual_speech _ _).mp hactual with hwords | hcalls
        · exact .inr (.inl hwords)
        · exact .inl fun h => hcalls (by rw [h, List.map_nil])
      rw [if_neg (not_quiet S hactual), List.filter_cons_of_pos hactual, List.filter_nil]
      exact iff_of_true rfl hkept
    · have hquiet : calls = [] ∧ (words parts).trim = [] := by
        rw [actual_speech, not_or, not_not, not_not, List.map_eq_nil_iff] at hactual
        exact ⟨hactual.2, hactual.1⟩
      rw [List.filter_cons_of_neg hactual, List.filter_nil]
      simp [Turn.Lasting, hquiet.1, Worded, hquiet.2]

/-- What of a turn the Responses dialect takes apart. -/
theorem inAnthropic_eq_inResponses : turn.inAnthropic S = turn.inResponses S ↔ turn.Single := by
  cases turn with
  | user results parts => exact iff_of_true rfl trivial
  | assistant parts calls =>
    rw [Turn.inAnthropic, Turn.inResponses, Turn.Single]
    rcases calls with _ | ⟨c, _ | ⟨d, calls⟩⟩
    · simp
    · by_cases hmute : Mute parts
      · simp [hmute, speech, message, hmute.1, hmute.2]
      · simp [hmute]
    · simp only [List.isEmpty_cons, Bool.false_eq_true, and_false, if_false, List.length_cons,
        List.map_cons, reduceCtorEq, false_or]
      refine iff_of_false (fun heq => ?_) (by omega)
      have hlength := congrArg List.length heq
      simp at hlength
      omega

theorem plain_iff : turn.Plain ↔
    turn.inOpenAi S = turn.inAnthropic S ∧ turn.inAnthropic S = turn.inResponses S := by
  rw [inOpenAi_eq_inAnthropic, inAnthropic_eq_inResponses]
  cases turn with
  | user results parts => exact (and_iff_left trivial).symm
  | assistant parts calls => exact Iff.rfl

theorem filter_one_ne_nil {m : ChatMessage} : [m].filter actual ≠ [] ↔ actual m = true := by
  simp [List.filter_eq_nil_iff]

theorem inOpenAi_ne_nil (h : turn.Plain) : turn.inOpenAi S ≠ [] ↔ turn.Speaks := by
  cases turn with
  | user results parts =>
    obtain ⟨hresults, -⟩ := h
    have hkept : (results.map toolMessage).filter actual = results.map toolMessage :=
      List.filter_eq_self.mpr (List.forall_mem_map.mpr fun r hr => (actual_toolMessage r).mpr (hresults r hr))
    rw [Turn.inOpenAi, hkept, ne_eq, List.append_eq_nil_iff, not_and_or, List.map_eq_nil_iff]
    refine or_congr Iff.rfl (filter_one_ne_nil.trans ((actual_speech _ _).trans ?_))
    exact or_iff_left (· rfl)
  | assistant parts calls =>
    rw [Turn.inOpenAi, filter_one_ne_nil, actual_speech, or_comm]
    exact or_congr (not_congr List.map_eq_nil_iff) Iff.rfl

end Turns

section Whole

variable (S : SerdeJson) (c : Conversation)

/-- What one dialect says is what every dialect says. -/
def Conversation.Agreed : Prop := ∃ ms,
  chatMessages (c.anthropic.intoChat S) = .ok ms ∧
  chatMessages ((c.openAi S).intoChat S) = .ok ms ∧
  chatMessages ((c.responses S).intoChat S) = .ok ms

theorem actual_of_mem_inOpenAi {turn : Turn} {m : ChatMessage} (h : m ∈ turn.inOpenAi S) : actual m = true := by
  cases turn with
  | user results parts =>
    rcases List.mem_append.mp h with h | h
    · exact (List.mem_filter.mp h).2
    · exact (List.mem_filter.mp h).2
  | assistant parts calls => exact (List.mem_filter.mp h).2

/-- The three dialects agree where no turn is lost in one and no turn is taken apart in another. -/
theorem messages_agree : c.Agreed S ↔ (∀ turn ∈ c.turns, turn.Plain) ∧ ∃ turn ∈ c.turns, turn.Speaks := by
  have hsame : (c.turns.flatMap (Turn.inOpenAi S) = c.turns.flatMap (Turn.inAnthropic S) ∧
      c.turns.flatMap (Turn.inAnthropic S) = c.turns.flatMap (Turn.inResponses S)) ↔
        ∀ turn ∈ c.turns, turn.Plain := by
    rw [flatMap_eq_iff fun _ _ => length_inOpenAi_le S, flatMap_eq_iff fun _ _ => length_inAnthropic_le S,
      ← forall₂_and]
    exact forall₂_congr fun _ _ => (plain_iff S).symm
  have hspeaks (hplain : ∀ turn ∈ c.turns, turn.Plain) :
      c.turns.flatMap (Turn.inOpenAi S) ≠ [] ↔ ∃ turn ∈ c.turns, turn.Speaks := by
    rw [ne_eq, List.flatMap_eq_nil_iff]
    push Not
    exact exists_congr fun turn => and_congr_right fun hturn => inOpenAi_ne_nil S (hplain turn hturn)
  constructor
  · rintro ⟨ms, ha, ho, hr⟩
    obtain ⟨-, ha⟩ := (anthropic_accepted S c).mp ha
    obtain ⟨hne, ho⟩ := (openAi_accepted S c).mp ho
    obtain ⟨-, hr⟩ := (responses_accepted S c).mp hr
    have hplain := hsame.mp ⟨List.append_cancel_left (ho.symm.trans ha), List.append_cancel_left (ha.symm.trans hr)⟩
    exact ⟨hplain, (hspeaks hplain).mp hne⟩
  · rintro ⟨hplain, hsome⟩
    obtain ⟨hoa, har⟩ := hsame.mpr hplain
    have hne := (hspeaks hplain).mpr hsome
    obtain ⟨m, hm⟩ := List.exists_mem_of_ne_nil _ hne
    obtain ⟨turn, -, hturn⟩ := List.mem_flatMap.mp hm
    refine ⟨c.opener ++ c.turns.flatMap (Turn.inOpenAi S), ?_, ?_, ?_⟩
    · exact (anthropic_accepted S c).mpr ⟨⟨m, hoa ▸ hm, actual_of_mem_inOpenAi S hturn⟩, by rw [hoa]⟩
    · exact (openAi_accepted S c).mpr ⟨hne, rfl⟩
    · exact (responses_accepted S c).mpr ⟨har ▸ hoa ▸ hne, by rw [hoa, har]⟩

end Whole

section Disagree

def unprinted : SerdeJson := ⟨fun _ => [], fun _ => none⟩

def conversation (turns : List Turn) : Conversation := ⟨"m".toList, [], turns⟩

def asks : Turn := .user [] [.text "Hi".toList]

def shows : Turn := .user [] [.picture "image/png".toList "iVBORw0KGgo".toList]

def reads (ids : List String) : Turn :=
  .assistant [] (ids.map fun id => ⟨id.toList, "Read".toList, .obj []⟩)

def nothingRead : Turn := .user [⟨"a".toList, []⟩] []

def asked : ChatMessage := message (role "user") "Hi".toList

def shown : ChatMessage :=
  { message (role "user") [] with images := ["data:image/png;base64,iVBORw0KGgo".toList] }

def called (ids : List String) : ChatMessage :=
  { message (role "assistant") [] with
    toolCalls := ids.map fun id => ⟨id.toList, "Read".toList, "\x7b\x7d".toList⟩ }

def emptyResult : ChatMessage := { message (role "tool") [] with toolCallId := some "a".toList }

/-- A picture lost, one refused, a result lost, and two calls taken apart. -/
theorem messages_disagree :
    (chatMessages ((conversation [asks, shows]).anthropic.intoChat unprinted) = .ok [asked, shown] ∧
      chatMessages (((conversation [asks, shows]).openAi unprinted).intoChat unprinted) = .ok [asked]) ∧
    (chatMessages (((conversation [shows]).responses unprinted).intoChat unprinted) = .ok [shown] ∧
      chatMessages ((conversation [shows]).anthropic.intoChat unprinted) =
        .error "request has no user or assistant turns") ∧
    (chatMessages ((conversation [asks, reads ["a"], nothingRead]).anthropic.intoChat unprinted) =
        .ok [asked, called ["a"], emptyResult] ∧
      chatMessages (((conversation [asks, reads ["a"], nothingRead]).openAi unprinted).intoChat unprinted) =
        .ok [asked, called ["a"]]) ∧
    (chatMessages ((conversation [asks, reads ["a", "b"]]).anthropic.intoChat unprinted) =
        .ok [asked, called ["a", "b"]] ∧
      chatMessages (((conversation [asks, reads ["a", "b"]]).responses unprinted).intoChat unprinted) =
        .ok [asked, called ["a"], called ["b"]]) ∧
    ¬ ∀ S c, Conversation.Agreed S c := by
  refine ⟨⟨rfl, rfl⟩, ⟨rfl, rfl⟩, ⟨rfl, rfl⟩, ⟨rfl, rfl⟩, fun hagreed => ?_⟩
  obtain ⟨ms, ha, ho, -⟩ := hagreed unprinted (conversation [asks, shows])
  have hall : Except.ok ms = .ok [asked, shown] := ha.symm.trans rfl
  have hleft : Except.ok ms = .ok [asked] := ho.symm.trans rfl
  have hboth : Except.ok (ε := BadRequest) [asked, shown] = .ok [asked] := hall.symm.trans hleft
  cases hboth

end Disagree

end Rootmode.Gateway
