import Netwatcher.Lib.Runs
/-!
# A latest-wins mailbox between one producer and one consumer

The producer publishes each new value by overwriting the slot. The consumer takes what it finds,
and absorbs it in a later step. `synced` is what survives any interleaving: the last value is
never lost, however many were overwritten.
-/
namespace Mailbox
open Runs

structure St (α : Type*) where
  /-- The producer's value. -/
  cur : α
  slot : Option α
  /-- Taken out of the slot, not absorbed yet. -/
  hand : Option α
  /-- The last value the consumer absorbed. -/
  seen : Option α

section
variable {α : Type*}

inductive Step : St α → St α → Prop
  | publish {s : St α} (a : α) : Step s { s with cur := a, slot := some a }
  | take {s : St α} {a : α} : s.slot = some a → s.hand = none →
      Step s { s with slot := none, hand := some a }
  | absorb {s : St α} {a : α} : s.hand = some a → Step s { s with hand := none, seen := some a }

/-- The first publication is the initial state. -/
def system (α : Type*) : Sys (St α) where
  init s := s.slot = some s.cur ∧ s.hand = none
  step := Step

/-- The newest value is in the slot, or else in the consumer's hand, or else absorbed. -/
def Synced (s : St α) : Prop :=
  match s.slot, s.hand with
  | some a, _ => a = s.cur
  | none, some a => a = s.cur
  | none, none => s.seen = some s.cur

theorem Step.synced {s s' : St α} (ih : Synced s) (h : Step s s') : Synced s' := by
  cases h with
  | publish a => simp [Synced]
  | take hs hh => simpa [Synced, hs] using ih
  | @absorb a hh =>
    unfold Synced at ih ⊢
    cases hs : s.slot with
    | some b => simpa [hs] using ih
    | none => simpa [hs, hh] using ih

theorem synced {s : St α} (r : Reach (system α) s) : Synced s :=
  r.inv (I := Synced) (fun s h => by simp [Synced, h.1]) fun _ _ _ ih h => Step.synced ih h

end

end Mailbox
