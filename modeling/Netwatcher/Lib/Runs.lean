import Mathlib.Logic.Relation
/-!
# Step systems: reachable states, invariants, traces, simulation

A concurrent program is a set of initial states and a step relation; every interleaving is one
run of it. Nothing here names a particular program.

| rule | use |
| --- | --- |
| `Reach.inv`      | an invariant: holds initially, kept by every step from a reachable state |
| `Later.inv`      | what one state has reached, every later state keeps |
| `Trace.fold`     | a view that each step updates by its output is a fold over the trace |
| `Trace.inv`, `Path.inv` | an invariant of the state and of what has been put out |
| `Reach.simulate` | an abstract system follows the concrete one step for steps |
| `Reach.restrict` | what holds of `S` holds of the runs of `S` through certain states only |
-/
namespace Runs

/-- Where a run may start and what one step may do. -/
structure Sys (σ : Type*) where
  init : σ → Prop
  step : σ → σ → Prop

section
variable {σ α β γ : Type*} {S : Sys σ} {A : Sys α}

/-- The states some run reaches. -/
inductive Reach (S : Sys σ) : σ → Prop
  | init {s : σ} : S.init s → Reach S s
  | step {s s' : σ} : Reach S s → S.step s s' → Reach S s'

/-- `s'` comes later than `s` in some run. -/
abbrev Later (S : Sys σ) : σ → σ → Prop := Relation.ReflTransGen S.step

theorem Reach.inv {I : σ → Prop} (h0 : ∀ s, S.init s → I s)
    (hs : ∀ s s', Reach S s → I s → S.step s s' → I s') {s : σ} (r : Reach S s) : I s := by
  induction r with
  | init h => exact h0 _ h
  | step r h ih => exact hs _ _ r ih h

theorem Reach.later {s s' : σ} (r : Reach S s) (l : Later S s s') : Reach S s' := by
  induction l with
  | refl => exact r
  | tail _ h ih => exact ih.step h

theorem Later.inv {I : σ → Prop} {s s' : σ} (r : Reach S s) (l : Later S s s') (h0 : I s)
    (hs : ∀ t t', Reach S t → I t → S.step t t' → I t') : I s' := by
  induction l with
  | refl => exact h0
  | tail l h ih => exact hs _ _ (r.later l) ih h

/-- The runs of `S` all of whose states have `P`. -/
def Sys.restrict (S : Sys σ) (P : σ → Prop) : Sys σ where
  init s := S.init s ∧ P s
  step s s' := S.step s s' ∧ P s'

theorem Reach.restrict {P : σ → Prop} {s : σ} (r : Reach (S.restrict P) s) : Reach S s ∧ P s := by
  induction r with
  | init h => exact ⟨.init h.1, h.2⟩
  | step _ h ih => exact ⟨ih.1.step h.1, h.2⟩

/-- An invariant of such runs. -/
theorem Reach.restrict_inv {P I : σ → Prop} (h0 : ∀ s, S.init s → P s → I s)
    (hs : ∀ s s', Reach S s → P s → I s → S.step s s' → P s' → I s') {s : σ}
    (r : Reach (S.restrict P) s) : I s := by
  induction r with
  | init h => exact h0 _ h.1 h.2
  | step r h ih => exact hs _ _ r.restrict.1 r.restrict.2 ih h.1 h.2

/-- What a run has put out where it ends; `out` is the output of one step. -/
inductive Trace (S : Sys σ) (out : σ → σ → List β) : List β → σ → Prop
  | init {s : σ} : S.init s → Trace S out [] s
  | step {bs : List β} {s s' : σ} : Trace S out bs s → S.step s s' → Trace S out (bs ++ out s s') s'

section
variable {out : σ → σ → List β} {bs : List β} {s s' : σ}

theorem Trace.reach (t : Trace S out bs s) : Reach S s := by
  induction t with
  | init h => exact .init h
  | step _ h ih => exact ih.step h

theorem Reach.trace (r : Reach S s) : ∃ bs, Trace S out bs s := by
  induction r with
  | init h => exact ⟨[], .init h⟩
  | step _ h ih =>
    obtain ⟨bs, t⟩ := ih
    exact ⟨_, t.step h⟩

/-- A step without output. -/
theorem Trace.silent (t : Trace S out bs s) (h : S.step s s') (ho : out s s' = []) : Trace S out bs s' := by
  have := t.step h
  rwa [ho, List.append_nil] at this

theorem Trace.emit (t : Trace S out bs s) (h : S.step s s') {b : β} (ho : out s s' = [b]) :
    Trace S out (bs ++ [b]) s' := by
  have := t.step h
  rwa [ho] at this

theorem Trace.fold {view : σ → γ} {f : γ → β → γ} {c : γ} (h0 : ∀ s, S.init s → view s = c)
    (hs : ∀ s s', S.step s s' → view s' = (out s s').foldl f (view s)) (t : Trace S out bs s) :
    view s = bs.foldl f c := by
  induction t with
  | init h => exact h0 _ h
  | step _ h ih => rw [hs _ _ h, ih, List.foldl_append]

theorem Trace.inv {I : List β → σ → Prop} (h0 : ∀ s, S.init s → I [] s)
    (hs : ∀ bs s s', Reach S s → I bs s → S.step s s' → I (bs ++ out s s') s') (t : Trace S out bs s) :
    I bs s := by
  induction t with
  | init h => exact h0 _ h
  | step t h ih => exact hs _ _ _ t.reach ih h

/-- What a run puts out on its way from one state to another. -/
inductive Path (S : Sys σ) (out : σ → σ → List β) (s : σ) : List β → σ → Prop
  | refl : Path S out s [] s
  | step {bs : List β} {t t' : σ} : Path S out s bs t → S.step t t' → Path S out s (bs ++ out t t') t'

theorem Path.later (p : Path S out s bs s') : Later S s s' := by
  induction p with
  | refl => exact .refl
  | step _ h ih => exact ih.tail h

theorem Path.inv {I : List β → σ → Prop} (r : Reach S s) (h0 : I [] s)
    (hs : ∀ bs t t', Reach S t → I bs t → S.step t t' → I (bs ++ out t t') t') (p : Path S out s bs s') :
    I bs s' := by
  induction p with
  | refl => exact h0
  | step p h ih => exact hs _ _ _ (r.later p.later) ih h

end

/-- Forward simulation: when every concrete step is matched by zero or more abstract ones, every
reachable concrete state is matched by a reachable abstract one. -/
theorem Reach.simulate {R : σ → α → Prop} (h0 : ∀ s, S.init s → ∃ a, A.init a ∧ R s a)
    (hs : ∀ s s' a, Reach S s → R s a → S.step s s' → ∃ a', Later A a a' ∧ R s' a')
    {s : σ} (r : Reach S s) : ∃ a, Reach A a ∧ R s a := by
  induction r with
  | init h =>
    obtain ⟨a, ha, hR⟩ := h0 _ h
    exact ⟨a, .init ha, hR⟩
  | step r h ih =>
    obtain ⟨a, ha, hR⟩ := ih
    obtain ⟨a', hl, hR'⟩ := hs _ _ _ r hR h
    exact ⟨a', ha.later hl, hR'⟩

end

end Runs
