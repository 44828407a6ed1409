namespace Lib.Notify

/-- How a task stands to an edge-triggered notification: a notice reaches who watches, and nobody
else ever.  A task that watches polls for the notice first and for other things after it. -/
inductive Watch
  /-- The task does not watch. -/
  | off
  /-- The task watches, and is about to poll. -/
  | armed
  /-- The poll at hand has found no notice, and goes on to other things. -/
  | passed
  /-- A notice is there to be found. -/
  | fired
  /-- A notice came when the poll at hand had looked for it. -/
  | late
  deriving DecidableEq

namespace Watch

/-- A notice to whoever watches. -/
def notify : Watch → Watch
  | .armed => .fired
  | .passed => .late
  | w => w

/-- The end of a poll that found nothing at all. -/
def suspend : Watch → Watch
  | .passed => .armed
  | .late => .fired
  | w => w

/-- The poll at hand is past its look for a notice. -/
def Looked (w : Watch) : Prop := w = .passed ∨ w = .late

/-- A notice came and is not lost. -/
def Heard (w : Watch) : Prop := w = .fired ∨ w = .late

instance (w : Watch) : Decidable w.Looked := inferInstanceAs (Decidable (_ ∨ _))
instance (w : Watch) : Decidable w.Heard := inferInstanceAs (Decidable (_ ∨ _))

variable {w : Watch}

@[simp] theorem notify_off : notify .off = .off := rfl

theorem Looked.notify (h : w.Looked) : w.notify.Looked := by
  rcases h with rfl | rfl <;> exact .inr rfl

theorem Heard.notify (h : w.Heard) : w.notify.Heard := by
  rcases h with rfl | rfl
  · exact .inl rfl
  · exact .inr rfl

theorem Heard.suspend (h : w.Heard) : w.suspend = .fired := by
  rcases h with rfl | rfl <;> rfl

theorem heard_notify (h : w ≠ .off) : w.notify.Heard := by
  cases w with
  | off => exact absurd rfl h
  | armed => exact .inl rfl
  | passed => exact .inr rfl
  | fired => exact .inl rfl
  | late => exact .inr rfl

/-- A poll that has looked and heard heard too late for itself. -/
theorem Heard.late_of_looked (h : w.Heard) (hl : w.Looked) : w = .late := by
  rcases hl with rfl | rfl
  · rcases h with h | h <;> cases h
  · rfl

end Watch

end Lib.Notify
