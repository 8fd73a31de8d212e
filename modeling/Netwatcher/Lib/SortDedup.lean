import Mathlib.Data.List.Sort
import Mathlib.Data.List.Destutter
import Mathlib.Data.Finset.Dedup
/-!
# Sort, then drop adjacent duplicates: a canonical form of finite sets

`sortDedup` of two lists is equal iff they have the same members, so comparing the results with
`==` compares sets.
-/
namespace SortDedup

variable {α : Type*} [LinearOrder α]

/-- `v.sort(); v.dedup()`. -/
def sortDedup (l : List α) : List α := (l.insertionSort (· ≤ ·)).destutter (· ≠ ·)

theorem mem_destutter_ne {a : α} : ∀ {l : List α}, a ∈ l.destutter (· ≠ ·) ↔ a ∈ l
  | [] => by simp
  | [b] => by simp
  | b :: c :: l => by
    have ih := mem_destutter_ne (a := a) (l := c :: l)
    rw [List.destutter_cons_cons]
    by_cases h : b = c
    · subst h
      simp only [ne_eq, not_true_eq_false, if_false]
      rw [← List.destutter_cons', ih]
      simp
    · rw [if_pos h, List.mem_cons, ← List.destutter_cons', ih, ← List.mem_cons]

theorem sortedLT_destutter {l : List α} (h : l.Pairwise (· ≤ ·)) :
    (l.destutter (· ≠ ·)).SortedLT := by
  have hle : (l.destutter (· ≠ ·)).Pairwise (· ≤ ·) := h.sublist (List.destutter_sublist _ l)
  have hne : (l.destutter (· ≠ ·)).IsChain (· ≠ ·) := List.isChain_destutter _ l
  rw [List.sortedLT_iff_isChain]
  exact List.isChain_iff_getElem.2 fun i hi =>
    lt_of_le_of_ne (List.pairwise_iff_getElem.1 hle i (i + 1) (by omega) hi (by omega))
      (List.isChain_iff_getElem.1 hne i hi)

@[simp] theorem mem_sortDedup {a : α} {l : List α} : a ∈ sortDedup l ↔ a ∈ l := by
  rw [sortDedup, mem_destutter_ne, List.mem_insertionSort]

theorem sortedLT_sortDedup (l : List α) : (sortDedup l).SortedLT :=
  sortedLT_destutter (List.pairwise_insertionSort _ l)

/-- **Canonical**: equal results iff equal sets. -/
theorem sortDedup_eq_iff {l l' : List α} : sortDedup l = sortDedup l' ↔ ∀ a, a ∈ l ↔ a ∈ l' := by
  constructor
  · intro h a
    rw [← mem_sortDedup, h, mem_sortDedup]
  · intro h
    exact (sortedLT_sortDedup l).eq_of_mem_iff (sortedLT_sortDedup l') fun a => by
      rw [mem_sortDedup, mem_sortDedup, h a]

end SortDedup
