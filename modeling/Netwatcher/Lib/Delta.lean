import Mathlib.Data.Finset.Disjoint
import Mathlib.Data.Finset.SDiff
import Mathlib.Data.List.Range
import Mathlib.Tactic.Tauto
/-!
# Net changes of a set

A delta takes elements out of a set and puts others in. From one set to another there is a delta
that makes exactly the changes needed (`between`). Two deltas one after the other make one, in which
an element put in and taken out again does not appear (`comp`).

| law | |
| --- | --- |
| `apply_between` | `between s t` turns `s` into `t` |
| `inv_between`   | on the way back what was put in is taken out |
| `comp_between`  | from `s` to `t` and on to `u` is from `s` to `u` |
| `Walk.net`      | a walk through any number of sets is on balance one delta, from its start to its end |
-/
namespace Deltas

/-- What to take out of a set and what to put in; nothing is both. -/
@[ext] structure Delta (α : Type*) where
  added : Finset α
  removed : Finset α
  disjoint : Disjoint added removed

variable {α : Type*} [DecidableEq α]

namespace Delta

def nil : Delta α := ⟨∅, ∅, Finset.disjoint_empty_left _⟩

def between (s t : Finset α) : Delta α := ⟨t \ s, s \ t, disjoint_sdiff_sdiff⟩

def inv (d : Delta α) : Delta α := ⟨d.removed, d.added, d.disjoint.symm⟩

def apply (d : Delta α) (s : Finset α) : Finset α := s \ d.removed ∪ d.added

/-- First `d`, then `e`. -/
def comp (d e : Delta α) : Delta α where
  added := d.added \ e.removed ∪ e.added \ d.removed
  removed := d.removed \ e.added ∪ e.removed \ d.added
  disjoint := by
    have hd := Finset.disjoint_left.1 d.disjoint
    have he := Finset.disjoint_left.1 e.disjoint
    refine Finset.disjoint_left.2 fun a ha hr => ?_
    simp only [Finset.mem_union, Finset.mem_sdiff] at ha hr
    rcases ha with ⟨ha, hna⟩ | ⟨ha, hna⟩ <;> rcases hr with ⟨hr, hnr⟩ | ⟨hr, hnr⟩
    · exact hd ha hr
    · exact hna hr
    · exact hnr ha
    · exact he ha hr

@[simp] theorem added_between (s t : Finset α) : (between s t).added = t \ s := rfl
@[simp] theorem removed_between (s t : Finset α) : (between s t).removed = s \ t := rfl

theorem between_self (s : Finset α) : between s s = nil := by
  ext a <;> simp [nil]

theorem inv_between (s t : Finset α) : (between s t).inv = between t s := rfl

theorem apply_between (s t : Finset α) : (between s t).apply s = t := by
  ext a
  simp only [apply, removed_between, added_between, Finset.mem_union, Finset.mem_sdiff]
  tauto

theorem comp_between (s t u : Finset α) : (between s t).comp (between t u) = between s u := by
  ext a
  · simp only [comp, removed_between, added_between, Finset.mem_union, Finset.mem_sdiff]
    tauto
  · simp only [comp, removed_between, added_between, Finset.mem_union, Finset.mem_sdiff]
    tauto

/-- All of them, in order. -/
def net (ds : List (Delta α)) : Delta α := ds.foldr comp nil

@[simp] theorem net_nil : net ([] : List (Delta α)) = nil := rfl
@[simp] theorem net_cons (d : Delta α) (ds : List (Delta α)) : net (d :: ds) = d.comp (net ds) := rfl

end Delta

open Delta

/-- From `s` to `t` by way of other sets: the delta of each leg. -/
inductive Walk : Finset α → List (Delta α) → Finset α → Prop
  | stay (s : Finset α) : Walk s [] s
  | leg {s t u : Finset α} {ds : List (Delta α)} : Walk t ds u → Walk s (between s t :: ds) u

/-- **A walk is on balance one delta**, whichever way it went. -/
theorem Walk.net {s t : Finset α} {ds : List (Delta α)} (w : Walk s ds t) : Delta.net ds = between s t := by
  induction w with
  | stay s => exact (between_self s).symm
  | @leg s t u ds _ ih => rw [net_cons, ih, comp_between]

/-- The walk along a sequence of sets. -/
theorem walk_along (f : ℕ → Finset α) (m k : ℕ) :
    Walk (f m) ((List.range' m k).map fun i => between (f i) (f (i + 1))) (f (m + k)) := by
  induction k generalizing m with
  | zero => exact .stay _
  | succ k ih =>
    rw [List.range'_succ, List.map_cons]
    have := ih (m + 1)
    rw [show m + 1 + k = m + (k + 1) by omega] at this
    exact .leg this

end Deltas
