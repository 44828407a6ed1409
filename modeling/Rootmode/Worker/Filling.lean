import Rootmode.Worker.Comfy
import Rootmode.Lib.Places

namespace Rootmode.Worker.Comfy

open Lib Lib.Text Lib.Entries Lib.Json

section Filling

variable {prompt : Text} {seed : ℕ} {path whole : Text} {value template graph v w : Json} {ks : List Text}
  {entries : List (String × Text)} {field : String}

def keysOf (path : Text) : List String := (segments path).map Text.str

theorem navigateFrom_ok : navigateFrom path value ks v = .ok w ↔ setAt value (ks.map Text.str) v = some w := by
  induction ks generalizing v w with
  | nil =>
    rw [navigateFrom, List.map_nil, setAt]
    exact ⟨fun h => congrArg some (Except.ok.inj h), fun h => congrArg Except.ok (Option.some.inj h)⟩
  | cons segment rest ih =>
    rw [navigateFrom, List.map_cons, setAt]
    cases hget : v.get (Text.str segment) with
    | none => exact ⟨fun h => (by cases h), fun h => (by cases h)⟩
    | some inner =>
      rw [Option.bind_some]
      constructor
      · intro h
        cases hinner : navigateFrom path value rest inner with
        | error e =>
          dsimp only at h
          rw [hinner] at h
          cases h
        | ok x =>
          dsimp only at h
          rw [hinner] at h
          rw [ih.mp hinner]
          exact congrArg some (Except.ok.inj h)
      · intro h
        obtain ⟨x, hx, rfl⟩ := Option.map_eq_some_iff.mp h
        dsimp only
        rw [ih.mpr hx]
        rfl

theorem navigate_ok : navigate path value v = .ok w ↔ setAt value (keysOf path) v = some w := navigateFrom_ok

/-- The value that goes into a slot, which has to be one of two. -/
def slotValue (prompt : Text) (seed : ℕ) (field : String) : Option Json :=
  if field = "prompt" then some (.str prompt) else if field = "seed" then some (Json.count seed) else none

theorem fillSlots_cons : fillSlots prompt seed ((field, path) :: entries) template = .ok graph ↔
    ∃ value filled, slotValue prompt seed field = some value ∧ setAt value (keysOf path) template = some filled ∧
      fillSlots prompt seed entries filled = .ok graph := by
  have hone : ∀ value : Json, (navigate path value template).bind (fillSlots prompt seed entries) = .ok graph ↔
      ∃ filled, setAt value (keysOf path) template = some filled ∧ fillSlots prompt seed entries filled = .ok graph := by
    intro value
    cases hnav : navigate path value template with
    | error e =>
      refine ⟨fun h => (by cases h), ?_⟩
      rintro ⟨filled, hset, -⟩
      rw [navigate_ok.mpr hset] at hnav
      cases hnav
    | ok filled =>
      refine ⟨fun h => ⟨filled, navigate_ok.mp hnav, h⟩, ?_⟩
      rintro ⟨filled', hset, h⟩
      obtain rfl : filled = filled' := Option.some.inj ((navigate_ok.mp hnav).symm.trans hset)
      exact h
  rw [fillSlots, slotValue]
  split
  · simp [hone]
  · split
    · simp [hone]
    · simp

/-- Which slots a graph can have filled in: the prompt and the seed, both in places that are there, the seed not within
the prompt. -/
structure Fillable (slots : Slots) (template : Json) : Prop where
  fields : ∀ e ∈ slots.entries, e.1 = "prompt" ∨ e.1 = "seed"
  there : ∀ e ∈ slots.entries, (reach (keysOf e.2) template).isSome
  apart : ∀ p ∈ lookup "prompt" slots.entries, ∀ s ∈ lookup "seed" slots.entries,
    ¬ (keysOf p <+: keysOf s ∧ keysOf p ≠ keysOf s)

theorem slotValue_isSome : (slotValue prompt seed field).isSome ↔ field = "prompt" ∨ field = "seed" := by
  unfold slotValue
  split
  · next h => simp [h]
  · next h => split <;> simp_all

theorem fields_of_fill (h : fillSlots prompt seed entries template = .ok graph) :
    ∀ e ∈ entries, e.1 = "prompt" ∨ e.1 = "seed" := by
  induction entries generalizing template with
  | nil => exact fun e he => absurd he List.not_mem_nil
  | cons e entries ih =>
    obtain ⟨value, filled, hvalue, -, hrest⟩ := fillSlots_cons.mp h
    intro e' he'
    rcases List.mem_cons.mp he' with rfl | hmem
    · exact (@slotValue_isSome prompt seed _).mp (by rw [hvalue]; rfl)
    · exact ih hrest e' hmem

/-- There are at most a slot for the prompt and then one for the seed. -/
theorem slots_shape (hord : Ordered entries) (h : ∀ e ∈ entries, e.1 = "prompt" ∨ e.1 = "seed") :
    entries = [] ∨ (∃ p, entries = [("prompt", p)]) ∨ (∃ s, entries = [("seed", s)]) ∨
      ∃ p s, entries = [("prompt", p), ("seed", s)] := by
  have hlast : ∀ {s : Text} {rest : List (String × Text)}, Ordered (("seed", s) :: rest) →
      (∀ e ∈ rest, e.1 = "prompt" ∨ e.1 = "seed") → rest = [] := by
    intro s rest hord hrest
    cases rest with
    | nil => rfl
    | cons e rest =>
      have hlt : "seed" < e.1 := (List.pairwise_cons.mp hord).1 e (.head _)
      rcases hrest e (.head _) with he | he
      · rw [he] at hlt
        exact absurd hlt (by decide)
      · rw [he] at hlt
        exact absurd hlt (lt_irrefl _)
  cases entries with
  | nil => exact .inl rfl
  | cons e rest =>
    obtain ⟨k, path⟩ := e
    rcases h _ (.head _) with hk | hk
    · obtain rfl : k = "prompt" := hk
      cases rest with
      | nil => exact .inr (.inl ⟨path, rfl⟩)
      | cons e rest =>
        obtain ⟨k, path'⟩ := e
        obtain ⟨hlt, hord'⟩ := List.pairwise_cons.mp hord
        rcases h _ (.tail _ (.head _)) with hk | hk
        · obtain rfl : k = "prompt" := hk
          exact absurd (hlt _ (.head _)) (lt_irrefl _)
        · obtain rfl : k = "seed" := hk
          obtain rfl := hlast hord' fun e he => h e (.tail _ (.tail _ he))
          exact .inr (.inr (.inr ⟨path, path', rfl⟩))
    · obtain rfl : k = "seed" := hk
      obtain rfl := hlast hord fun e he => h e (.tail _ he)
      exact .inr (.inr (.inl ⟨path, rfl⟩))

theorem fill_one (hvalue : slotValue prompt seed field = some value) :
    (∃ g, fillSlots prompt seed [(field, path)] template = .ok g) ↔ (reach (keysOf path) template).isSome := by
  rw [← isSome_setAt (z := value), Option.isSome_iff_exists]
  constructor
  · rintro ⟨g, hg⟩
    obtain ⟨value', filled, hvalue', hset, -⟩ := fillSlots_cons.mp hg
    obtain rfl : value = value' := Option.some.inj (hvalue.symm.trans hvalue')
    exact ⟨filled, hset⟩
  · rintro ⟨filled, hset⟩
    exact ⟨filled, fillSlots_cons.mpr ⟨value, filled, hvalue, hset, rfl⟩⟩

/-- The slots of a graph can be filled in exactly where they are there, and the seed's is once the prompt is. -/
theorem fillable_iff {slots : Slots} :
    (∃ g, fillSlots prompt seed slots.entries template = .ok g) ↔ Fillable slots template := by
  have hprompt : slotValue prompt seed "prompt" = some (.str prompt) := rfl
  have hseed : slotValue prompt seed "seed" = some (Json.count seed) := rfl
  obtain ⟨entries, hord⟩ := slots
  dsimp only
  constructor
  · rintro ⟨g, hg⟩
    have hfields := fields_of_fill hg
    refine ⟨hfields, ?_, ?_⟩
    · rcases slots_shape hord hfields with rfl | ⟨p, rfl⟩ | ⟨s, rfl⟩ | ⟨p, s, rfl⟩
      · exact fun e he => absurd he List.not_mem_nil
      · simpa using (fill_one hprompt).mp ⟨g, hg⟩
      · simpa using (fill_one hseed).mp ⟨g, hg⟩
      · obtain ⟨value, filled, hvalue, hset, hrest⟩ := fillSlots_cons.mp hg
        obtain rfl := Option.some.inj (hprompt.symm.trans hvalue)
        have hthere : (reach (keysOf p) template).isSome := by
          rw [← isSome_setAt (z := .str prompt), hset]
          rfl
        have hsecond := ((isSome_reach_setAt hset).mp ((fill_one hseed).mp ⟨g, hrest⟩)).1
        simpa using ⟨hthere, hsecond⟩
    · rcases slots_shape hord hfields with rfl | ⟨p, rfl⟩ | ⟨s, rfl⟩ | ⟨p, s, rfl⟩
      · simp
      · simp
      · simp
      · obtain ⟨value, filled, hvalue, hset, hrest⟩ := fillSlots_cons.mp hg
        obtain rfl := Option.some.inj (hprompt.symm.trans hvalue)
        have hsecond := ((isSome_reach_setAt hset).mp ((fill_one hseed).mp ⟨g, hrest⟩)).2
        simpa using hsecond
  · rintro ⟨hfields, hthere, hapart⟩
    dsimp only at hfields hthere hapart
    rcases slots_shape hord hfields with rfl | ⟨p, rfl⟩ | ⟨s, rfl⟩ | ⟨p, s, rfl⟩
    · exact ⟨template, rfl⟩
    · exact (fill_one hprompt).mpr (hthere _ (.head _))
    · exact (fill_one hseed).mpr (hthere _ (.head _))
    · have hset := hthere _ (.head _)
      rw [← isSome_setAt (z := .str prompt)] at hset
      obtain ⟨filled, hset⟩ := Option.isSome_iff_exists.mp hset
      have hsecond : (reach (keysOf s) filled).isSome :=
        (isSome_reach_setAt hset).mpr ⟨hthere _ (.tail _ (.head _)), hapart p (by simp) s (by simp)⟩
      obtain ⟨g, hg⟩ := (fill_one hseed).mpr hsecond
      exact ⟨g, fillSlots_cons.mpr ⟨_, filled, hprompt, hset, hg⟩⟩

/-- Nothing but the slots changes. -/
theorem reach_fill {q : List String} (h : fillSlots prompt seed entries template = .ok graph)
    (hq : ∀ e ∈ entries, Apart (keysOf e.2) q) : reach q graph = reach q template := by
  induction entries generalizing template with
  | nil =>
    cases h
    rfl
  | cons e entries ih =>
    obtain ⟨value, filled, -, hset, hrest⟩ := fillSlots_cons.mp h
    rw [ih hrest fun e he => hq e (.tail _ he), reach_setAt_of_apart hset (hq e (.head _))]

end Filling

end Rootmode.Worker.Comfy
