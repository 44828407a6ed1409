import Mathlib.Logic.Relation

universe u v

namespace Lib.Transition

open Relation

variable {σ : Type u} {α : Type v}

/-- A labelled transition relation: `step s a s'` when `a` may take `s` to `s'`. -/
abbrev Labelled (σ : Type u) (α : Type v) := σ → α → σ → Prop

def Move (step : Labelled σ α) (s s' : σ) : Prop := ∃ a, step s a s'

/-- `s'` is reached from `s` by a run of any length. -/
def Runs (step : Labelled σ α) : σ → σ → Prop := ReflTransGen (Move step)

/-- The runs all of whose steps meet `C`, a condition on the state before the step and its label. -/
def restrict (step : Labelled σ α) (C : σ → α → Prop) : Labelled σ α :=
  fun s a s' => C s a ∧ step s a s'

def Stuck (step : Labelled σ α) (s : σ) : Prop := ∀ a s', ¬ step s a s'

namespace Runs

variable {step : Labelled σ α} {s t r : σ}

theorem refl (s : σ) : Runs step s s := ReflTransGen.refl

theorem tail (h : Runs step s t) {a : α} (ha : step t a r) : Runs step s r :=
  ReflTransGen.tail h ⟨a, ha⟩

theorem head {a : α} (ha : step s a t) (h : Runs step t r) : Runs step s r :=
  ReflTransGen.head ⟨a, ha⟩ h

theorem single {a : α} (ha : step s a t) : Runs step s t := (refl s).tail ha

theorem trans (h : Runs step s t) (h' : Runs step t r) : Runs step s r :=
  ReflTransGen.trans h h'

/-- What every step preserves, every run preserves. -/
theorem invariant {P : σ → Prop} (h : Runs step s t)
    (hstep : ∀ {s a s'}, step s a s' → P s → P s') (hs : P s) : P t := by
  induction h with
  | refl => exact hs
  | tail _ hlast ih =>
    obtain ⟨a, ha⟩ := hlast
    exact hstep ha ih

/-- A preorder that relates the two ends of every step relates the two ends of every run. -/
theorem relates {R : σ → σ → Prop} (h : Runs step s t)
    (hrefl : ∀ s, R s s) (htrans : ∀ {a b c}, R a b → R b c → R a c)
    (hstep : ∀ {s a s'}, step s a s' → R s s') : R s t := by
  induction h with
  | refl => exact hrefl _
  | tail _ hlast ih =>
    obtain ⟨a, ha⟩ := hlast
    exact htrans ih (hstep ha)

theorem mono {step' : Labelled σ α} (h : Runs step s t)
    (hsub : ∀ {s a s'}, step s a s' → step' s a s') : Runs step' s t := by
  induction h with
  | refl => exact refl _
  | tail _ hlast ih =>
    obtain ⟨a, ha⟩ := hlast
    exact ih.tail (hsub ha)

/-- Where every step shows as a run of another system, a run does. -/
theorem map {τ : Type*} {β : Type*} {step' : Labelled τ β} (f : σ → τ) (h : Runs step s t)
    (hstep : ∀ {s a s'}, step s a s' → Runs step' (f s) (f s')) : Runs step' (f s) (f t) := by
  induction h with
  | refl => exact refl _
  | tail _ hlast ih =>
    obtain ⟨a, ha⟩ := hlast
    exact ih.trans (hstep ha)

theorem of_restrict {C : σ → α → Prop} (h : Runs (restrict step C) s t) : Runs step s t :=
  h.mono And.right

/-- A run of a restricted system may use an invariant `J` of the system it restricts. -/
theorem invariant_of_restrict {C : σ → α → Prop} {J P : σ → Prop}
    (h : Runs (restrict step C) s t)
    (hJ : ∀ {s a s'}, step s a s' → J s → J s')
    (hstep : ∀ {s a s'}, C s a → step s a s' → J s → P s → P s')
    (hsJ : J s) (hsP : P s) : P t := by
  have both : J t ∧ P t := by
    refine h.invariant (P := fun s => J s ∧ P s) ?_ ⟨hsJ, hsP⟩
    intro s a s' ha hs
    exact ⟨hJ ha.2 hs.1, hstep ha.1 ha.2 hs.1 hs.2⟩
  exact both.2

end Runs

section Logged

variable {γ : Type*} {note : σ → α → List γ} {C : List γ → σ → α → Prop} {s t : σ} {log : List γ}
  {step : Labelled σ α}

/-- A run that keeps a log, newest first.  Every step adds its note, and meets `C`, a condition on
what is logged so far, the state before the step and its label. -/
inductive Logged (step : Labelled σ α) (note : σ → α → List γ) (C : List γ → σ → α → Prop) (s : σ) :
    List γ → σ → Prop
  | refl : Logged step note C s [] s
  | tail {log : List γ} {t r : σ} {a : α} : Logged step note C s log t → C log t a → step t a r →
      Logged step note C s (note t a ++ log) r

namespace Logged

/-- What every step preserves, with its note on the log, every run preserves. -/
theorem invariant {P : List γ → σ → Prop} (h : Logged step note C s log t)
    (hstep : ∀ {log t a r}, C log t a → step t a r → P log t → P (note t a ++ log) r)
    (hs : P [] s) : P log t := by
  induction h with
  | refl => exact hs
  | tail _ hmeets hlast ih => exact hstep hmeets hlast ih

end Logged

/-- Every run can be logged. -/
theorem Runs.logged (h : Runs step s t) (note : σ → α → List γ) :
    ∃ log, Logged step note (fun _ _ _ => True) s log t := by
  induction h with
  | refl => exact ⟨[], .refl⟩
  | tail _ hlast ih =>
    obtain ⟨log, hlog⟩ := ih
    obtain ⟨a, ha⟩ := hlast
    exact ⟨_, hlog.tail trivial ha⟩

end Logged

end Lib.Transition
