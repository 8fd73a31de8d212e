import Mathlib.Data.Finset.Insert
import Mathlib.Data.Finset.Erase
import Mathlib.Logic.Function.Basic
/-!
# Resources with one owner each

Resources are allocated, handed from one owner to another and freed. `Exact` says that what exists is
what somebody owns, and that nothing has two owners: none leaks and none is freed under an owner.
-/
namespace Owners
open Function

variable {ω : Type*} {own : ω → Option ℕ} {live : Finset ℕ} {next g : ℕ} {o o' : ω}

/-- `own o` is what `o` owns, and `next` has never been allocated. -/
structure Exact (own : ω → Option ℕ) (live : Finset ℕ) (next : ℕ) : Prop where
  mem_live : ∀ g, g ∈ live ↔ ∃ o, own o = some g
  inj : ∀ o o' g, own o = some g → own o' = some g → o = o'
  fresh : ∀ g ∈ live, g < next

theorem exact_nil (own : ω → Option ℕ) (next : ℕ) (h : ∀ o, own o = none) : Exact own ∅ next where
  mem_live g := by simp [h]
  inj o o' g ho := by simp [h] at ho
  fresh g hg := by simp at hg

variable [DecidableEq ω]

theorem update_eq_some {f : ω → Option ℕ} {a : Option ℕ} :
    update f o a o' = some g ↔ o' = o ∧ a = some g ∨ o' ≠ o ∧ f o' = some g := by
  by_cases h : o' = o <;> simp [h]

/-- `o` allocates. -/
theorem Exact.acquire (h : Exact own live next) (ho : own o = none) :
    Exact (update own o (some next)) (insert next live) (next + 1) where
  mem_live g := by
    rw [Finset.mem_insert, h.mem_live]
    constructor
    · rintro (rfl | ⟨p, hp⟩)
      · exact ⟨o, update_self o _ _⟩
      · refine ⟨p, update_eq_some.mpr (.inr ⟨?_, hp⟩)⟩
        rintro rfl
        simp [ho] at hp
    · rintro ⟨p, hp⟩
      rcases update_eq_some.mp hp with ⟨-, he⟩ | ⟨-, hp⟩
      · exact .inl (Option.some.inj he).symm
      · exact .inr ⟨p, hp⟩
  inj p p' g hp hp' := by
    -- nobody owned `next`
    have hno (q : ω) : own q ≠ some next := by
      intro hq
      exact Nat.lt_irrefl next (h.fresh next ((h.mem_live next).mpr ⟨q, hq⟩))
    rcases update_eq_some.mp hp with ⟨rfl, he⟩ | ⟨-, hq⟩ <;>
      rcases update_eq_some.mp hp' with ⟨rfl, he'⟩ | ⟨-, hq'⟩
    · rfl
    · exact absurd (he ▸ hq') (hno p')
    · exact absurd (he' ▸ hq) (hno p)
    · exact h.inj p p' g hq hq'
  fresh g hg := by
    rcases Finset.mem_insert.mp hg with rfl | hg
    · exact Nat.lt_succ_self g
    · exact Nat.lt_succ_of_lt (h.fresh g hg)

/-- `o` frees what it owns. -/
theorem Exact.release (h : Exact own live next) (ho : own o = some g) :
    Exact (update own o none) (live.erase g) next where
  mem_live x := by
    rw [Finset.mem_erase, h.mem_live]
    constructor
    · rintro ⟨hne, p, hp⟩
      refine ⟨p, update_eq_some.mpr (.inr ⟨?_, hp⟩)⟩
      rintro rfl
      exact hne (Option.some.inj (hp.symm.trans ho))
    · rintro ⟨p, hp⟩
      rcases update_eq_some.mp hp with ⟨-, he⟩ | ⟨hne, hp⟩
      · cases he
      · refine ⟨?_, p, hp⟩
        rintro rfl
        exact hne (h.inj p o x hp ho)
  inj p p' x hp hp' := by
    rcases update_eq_some.mp hp with ⟨-, he⟩ | ⟨-, hp⟩
    · cases he
    rcases update_eq_some.mp hp' with ⟨-, he⟩ | ⟨-, hp'⟩
    · cases he
    exact h.inj p p' x hp hp'
  fresh x hx := h.fresh x (Finset.mem_of_mem_erase hx)

/-- `o` hands what it owns to `o'`. -/
theorem Exact.move (h : Exact own live next) (ho : own o = some g) (ho' : own o' = none) :
    Exact (update (update own o none) o' (some g)) live next := by
  have hne : o' ≠ o := by
    rintro rfl
    simp [ho] at ho'
  -- who owns what now
  have owns (p : ω) (x : ℕ) : update (update own o none) o' (some g) p = some x ↔
      p = o' ∧ x = g ∨ p ≠ o' ∧ p ≠ o ∧ own p = some x := by
    rw [update_eq_some, update_eq_some]
    simp [eq_comm]
  refine ⟨fun x => ?_, fun p p' x hp hp' => ?_, h.fresh⟩
  · rw [h.mem_live]
    constructor
    · rintro ⟨p, hp⟩
      by_cases hpo : p = o
      · subst hpo
        exact ⟨o', (owns o' x).mpr (.inl ⟨rfl, Option.some.inj (hp.symm.trans ho)⟩)⟩
      · refine ⟨p, (owns p x).mpr (.inr ⟨?_, hpo, hp⟩)⟩
        rintro rfl
        simp [ho'] at hp
    · rintro ⟨p, hp⟩
      rcases (owns p x).mp hp with ⟨-, rfl⟩ | ⟨-, -, hp⟩
      · exact ⟨o, ho⟩
      · exact ⟨p, hp⟩
  · rcases (owns p x).mp hp with ⟨rfl, rfl⟩ | ⟨-, hpo, hq⟩ <;>
      rcases (owns p' _).mp hp' with ⟨rfl, hx⟩ | ⟨-, hpo', hq'⟩
    · rfl
    · exact absurd (h.inj p' o _ hq' ho) hpo'
    · exact absurd (h.inj p o g (hx ▸ hq) ho) hpo
    · exact h.inj p p' x hq hq'

end Owners
