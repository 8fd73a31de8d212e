import Mathlib.Data.Nat.Init
/-!
# Runs that come to rest

A step relation with a number that falls at every step cannot go on forever. If moreover a state that
cannot step is one of rest, every run gets there (`settles_of_measure`): whichever steps are taken,
and in how few or many, up to the number at the start.
-/
namespace Settle

variable {σ : Type*} {R : σ → σ → Prop} {I Rest : σ → Prop} {μ : σ → ℕ} {n : ℕ} {s t : σ}

/-- `n` steps, one after the other. -/
inductive Steps (R : σ → σ → Prop) : ℕ → σ → σ → Prop
  | none (s : σ) : Steps R 0 s s
  | step {n : ℕ} {s t t' : σ} : Steps R n s t → R t t' → Steps R (n + 1) s t'

/-- What is kept by every step. -/
theorem Steps.inv (hs : ∀ s s', I s → R s s' → I s') (h : I s) (hn : Steps R n s t) : I t := by
  induction hn with
  | none => exact h
  | step _ hR ih => exact hs _ _ (ih h) hR

/-- From `s` every run comes to rest, after `bound` steps at the most. -/
structure Settles (R : σ → σ → Prop) (Rest : σ → Prop) (s : σ) (bound : ℕ) : Prop where
  bounded : ∀ n t, Steps R n s t → n ≤ bound
  /-- Where a run cannot go on, it is at rest. -/
  rests : ∀ n t, Steps R n s t → (∀ t', ¬ R t t') → Rest t
  /-- There is such a run. -/
  reaches : ∃ n t, Steps R n s t ∧ ∀ t', ¬ R t t'

theorem Settles.mono {bound bound' : ℕ} (h : Settles R Rest s bound) (hle : bound ≤ bound') :
    Settles R Rest s bound' :=
  ⟨fun n t hn => Nat.le_trans (h.bounded n t hn) hle, h.rests, h.reaches⟩

theorem Steps.measure (hs : ∀ s s', I s → R s s' → I s' ∧ μ s' < μ s) (h : I s) (hn : Steps R n s t) :
    n + μ t ≤ μ s := by
  induction hn with
  | none => omega
  | @step n s t t' hn hR ih =>
    have hI : I t := hn.inv (fun s s' hi hR => (hs s s' hi hR).1) h
    have := (hs t t' hI hR).2
    have := ih h
    omega

theorem Steps.head {s' : σ} (h : R s s') (hn : Steps R n s' t) : Steps R (n + 1) s t := by
  induction hn with
  | none => exact .step (.none _) h
  | step _ hR ih => exact .step (ih h) hR

theorem exists_rest (hs : ∀ s s', I s → R s s' → I s' ∧ μ s' < μ s) (h : I s) :
    ∃ n t, Steps R n s t ∧ ∀ t', ¬ R t t' := by
  induction hm : μ s using Nat.strong_induction_on generalizing s with
  | _ m ih =>
    by_cases hR : ∃ s', R s s'
    · obtain ⟨s', hR⟩ := hR
      obtain ⟨hI, hlt⟩ := hs s s' h hR
      obtain ⟨n, t, hn, ht⟩ := ih (μ s') (hm ▸ hlt) hI rfl
      exact ⟨n + 1, t, hn.head hR, ht⟩
    · exact ⟨0, s, .none s, fun t' ht => hR ⟨t', ht⟩⟩

/-- **A number that falls, and rest where no step is left.** -/
theorem settles_of_measure (hs : ∀ s s', I s → R s s' → I s' ∧ μ s' < μ s)
    (hr : ∀ s, I s → (∃ s', R s s') ∨ Rest s) (h : I s) : Settles R Rest s (μ s) where
  bounded n t hn := by
    have := hn.measure hs h
    omega
  rests n t hn hstuck := by
    have hI : I t := hn.inv (fun s s' hi hR => (hs s s' hi hR).1) h
    rcases hr t hI with ⟨t', ht⟩ | hrest
    · exact absurd ht (hstuck t')
    · exact hrest
  reaches := exists_rest hs h

end Settle
