import Mathlib.Data.List.Basic
/-!
# Lists written with a separator

How single items are written and read (`Item`), and from that how a list of them is: joined by a
separator, split at it. Nothing at all stands for the empty list, so an item is never written as
nothing. Reading and writing are inverse to each other, in both directions (`parse_eq_some_iff`).
-/
namespace Separated

/-- A way to write an item without the separator, and to read exactly what is written so. -/
structure Item {σ : Type*} (sep : σ) (α : Type*) where
  write : α → List σ
  read : List σ → Option α
  read_eq_some : ∀ s a, read s = some a ↔ write a = s
  sep_notMem : ∀ a, sep ∉ write a
  write_ne_nil : ∀ a, write a ≠ []

namespace Item

variable {σ α : Type*} [DecidableEq σ] {sep : σ} (item : Item sep α)

def join (as : List α) : List σ := [sep].intercalate (as.map item.write)

def parse (s : List σ) : Option (List α) := if s = [] then some [] else (s.splitOn sep).mapM item.read

variable {item}

omit [DecidableEq σ] in
theorem mapM_read_eq_some {pieces : List (List σ)} {as : List α} :
    pieces.mapM item.read = some as ↔ as.map item.write = pieces := by
  induction pieces generalizing as with
  | nil => simp [eq_comm]
  | cons piece pieces ih =>
    simp only [List.mapM_cons, bind, pure, Option.bind_eq_some_iff, Option.some.injEq]
    constructor
    · rintro ⟨a, ha, as', has, rfl⟩
      rw [List.map_cons, (item.read_eq_some piece a).1 ha, ih.1 has]
    · intro h
      cases as with
      | nil => cases h
      | cons a as =>
        rw [List.map_cons, List.cons.injEq] at h
        exact ⟨a, (item.read_eq_some piece a).2 h.1, as, ih.2 h.2, rfl⟩

omit [DecidableEq σ] in
theorem join_eq_nil {as : List α} : item.join as = [] ↔ as = [] := by
  cases as with
  | nil => simp [join]
  | cons a as =>
    refine iff_of_false ?_ (List.cons_ne_nil a as)
    cases as with
    | nil => simpa [join] using item.write_ne_nil a
    | cons b as => simp [join, List.intercalate_cons_cons]

theorem splitOn_join {as : List α} (h : as ≠ []) : (item.join as).splitOn sep = as.map item.write := by
  refine List.splitOn_intercalate sep ?_ (by simpa using h)
  intro piece hp
  obtain ⟨a, -, rfl⟩ := List.mem_map.1 hp
  exact item.sep_notMem a

/-- **What is read is what was written**, and everything written is read. -/
theorem parse_eq_some_iff {s : List σ} {as : List α} : item.parse s = some as ↔ item.join as = s := by
  unfold parse
  by_cases hs : s = []
  · rw [if_pos hs, hs, join_eq_nil, Option.some.injEq, eq_comm]
  · rw [if_neg hs, mapM_read_eq_some]
    constructor
    · intro h
      rw [join, h, List.intercalate_splitOn]
    · intro h
      have has : as ≠ [] := fun he => hs (by rw [← h, join_eq_nil.2 he])
      rw [← h, splitOn_join has]

end Item

end Separated
