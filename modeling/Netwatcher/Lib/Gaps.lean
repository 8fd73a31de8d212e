import Mathlib.Data.List.Basic
/-!
# Filling gaps class by class

Records with a slot that may be empty (`Slot`). A pass over one class of records looks for the first
value in the class and puts it into every empty slot of the class; with no value there it does
nothing (`fill`). Passes over classes that are `Apart` do not see each other.

| rule | use |
| --- | --- |
| `fill_idem`   | a second pass changes nothing |
| `fill_comm`, `fill_fill` | two passes, in either order |
| `filter_fill`, `filter_fill_congr` | the result for a class depends on that class alone |
| `filter_fill_of_apart` | the rest is left as it is |
-/
namespace Gaps

variable {α β : Type*}

/-- A slot of a record, and how a value is put into it. -/
structure Slot (α β : Type*) where
  get : α → Option β
  put : α → β → α
  get_put : ∀ a b, get (put a b) = some b
  put_get : ∀ a b, get a = some b → put a b = a

/-- No record is in both classes. -/
def Apart (c d : α → Bool) : Prop := ∀ a, c a = true → d a = false

theorem Apart.symm {c d : α → Bool} (h : Apart c d) : Apart d c := by
  intro a hd
  by_contra hc
  rw [h a (by simpa using hc)] at hd
  cases hd

/-- To look past the first value for one finds that value again. -/
theorem findSome?_or_self (f : α → Option β) (l : List α) :
    l.findSome? (fun a => (f a).or (l.findSome? f)) = l.findSome? f := by
  cases hv : l.findSome? f with
  | none => simpa using hv
  | some b =>
    cases l with
    | nil => cases hv
    | cons a l =>
      rw [List.findSome?_cons] at hv ⊢
      cases ha : f a with
      | none => rfl
      | some b' => simpa [ha] using hv

namespace Slot

variable (s : Slot α β)

/-- What is put into the slot has no say in the class. -/
def Ignored (c : α → Bool) : Prop := ∀ a b, c (s.put a b) = c a

/-- The first value in the class. -/
def first (c : α → Bool) (l : List α) : Option β := (l.filter c).findSome? s.get

/-- The value goes into the slot, unless there is one already. -/
def complete (value : Option β) (a : α) : α :=
  match value with
  | none => a
  | some b => s.put a ((s.get a).getD b)

def fill (c : α → Bool) (l : List α) : List α :=
  l.map fun a => if c a then s.complete (s.first c l) a else a

/-! ## One record -/

theorem get_complete (value : Option β) (a : α) : s.get (s.complete value a) = (s.get a).or value := by
  cases value with
  | none => simp [complete]
  | some b =>
    rw [complete, s.get_put]
    cases s.get a <;> rfl

variable {s} {c d : α → Bool}

/-- A slot that is not empty is left alone. -/
theorem complete_of_some {a : α} {b : β} (h : s.get a = some b) (value : Option β) : s.complete value a = a := by
  cases value with
  | none => rfl
  | some v => rw [complete, h, Option.getD_some, s.put_get a b h]

theorem complete_complete (value : Option β) (a : α) :
    s.complete value (s.complete value a) = s.complete value a := by
  cases value with
  | none => rfl
  | some b => exact complete_of_some (s.get_put a _) _

theorem Ignored.complete (hc : s.Ignored c) (value : Option β) (a : α) : c (s.complete value a) = c a := by
  cases value with
  | none => rfl
  | some b => exact hc _ _

/-! ## One pass -/

/-- A pass keeps every record in its class. -/
theorem filter_fill_eq_map (hd : s.Ignored d) (c : α → Bool) (l : List α) :
    (s.fill c l).filter d = (l.filter d).map fun a => if c a then s.complete (s.first c l) a else a := by
  rw [fill, List.filter_map]
  congr 1
  refine List.filter_congr fun a _ => ?_
  by_cases ha : c a = true
  · simp only [Function.comp, if_pos ha, hd.complete]
  · simp only [Function.comp, if_neg ha]

/-- **The class is filled from itself.** -/
theorem filter_fill (hc : s.Ignored c) (l : List α) :
    (s.fill c l).filter c = (l.filter c).map (s.complete (s.first c l)) := by
  rw [filter_fill_eq_map hc]
  refine List.map_congr_left fun a ha => ?_
  rw [if_pos (List.mem_filter.1 ha).2]

/-- **The result for a class depends on that class alone.** -/
theorem filter_fill_congr (hc : s.Ignored c) {l l' : List α} (h : l.filter c = l'.filter c) :
    (s.fill c l).filter c = (s.fill c l').filter c := by
  rw [filter_fill hc, filter_fill hc, first, first, h]

/-- Nothing happens to the others. -/
theorem filter_fill_of_apart (hd : s.Ignored d) (h : Apart c d) (l : List α) :
    (s.fill c l).filter d = l.filter d := by
  rw [filter_fill_eq_map hd]
  refine (List.map_congr_left fun a ha => ?_).trans (List.map_id _)
  rw [if_neg (by simp [h.symm a (List.mem_filter.1 ha).2]), id]

theorem first_fill (hc : s.Ignored c) (l : List α) : s.first c (s.fill c l) = s.first c l := by
  rw [first, filter_fill hc, List.findSome?_map]
  have hget : (s.get ∘ s.complete (s.first c l)) = fun a => (s.get a).or (s.first c l) := by
    funext a
    exact s.get_complete _ a
  rw [hget]
  exact findSome?_or_self s.get (l.filter c)

theorem first_fill_of_apart (hd : s.Ignored d) (h : Apart c d) (l : List α) :
    s.first d (s.fill c l) = s.first d l := by
  rw [first, filter_fill_of_apart hd h, first]

/-! ## Two passes -/

/-- **A second pass changes nothing.** -/
theorem fill_idem (hc : s.Ignored c) (l : List α) : s.fill c (s.fill c l) = s.fill c l := by
  rw [fill, first_fill hc, fill, List.map_map]
  refine List.map_congr_left fun a _ => ?_
  by_cases ha : c a = true
  · simp only [Function.comp, if_pos ha, hc.complete, complete_complete]
  · simp only [Function.comp, if_neg ha]

theorem fill_fill (hd : s.Ignored d) (h : Apart c d) (l : List α) :
    s.fill d (s.fill c l) = l.map fun a =>
      if c a then s.complete (s.first c l) a else if d a then s.complete (s.first d l) a else a := by
  rw [fill, first_fill_of_apart hd h, fill, List.map_map]
  refine List.map_congr_left fun a _ => ?_
  by_cases ha : c a = true
  · have hno : d (s.complete (s.first c l) a) = false := by rw [hd.complete, h a ha]
    simp only [Function.comp, if_pos ha, hno, Bool.false_eq_true, if_false]
  · simp only [Function.comp, if_neg ha]

/-- **The order of two passes does not matter.** -/
theorem fill_comm (hc : s.Ignored c) (hd : s.Ignored d) (h : Apart c d) (l : List α) :
    s.fill d (s.fill c l) = s.fill c (s.fill d l) := by
  rw [fill_fill hd h, fill_fill hc h.symm]
  refine List.map_congr_left fun a _ => ?_
  by_cases ha : c a = true
  · simp only [if_pos ha, h a ha, Bool.false_eq_true, if_false]
  · simp only [if_neg ha]

end Slot

end Gaps
