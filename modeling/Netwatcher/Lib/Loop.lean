import Mathlib.Logic.Basic
/-!
# While loops, and chains of pointers they walk

A piece of code that may run forever is a function of a bound on the turns of its loops: `none` when
the bound is too small. It ends if some bound is large enough, and so is every larger one (`Ends`).
A body that fails (`Except.error`) leaves the loop at once; a body that returns early (`continue`)
is a body that returns.

| rule | use |
| --- | --- |
| `WhileEnds.turn`, `whileEnds_stop` | a loop ends if a turn of it ends and the rest does |
| `whileLoop_stuck` | a turn that leaves the state as it was is the last one to be finished |
| `whileLoop_inv` | what every turn keeps holds where the loop ends |
| `Chain.walk`      | a loop that moves along a chain ends, and is a fold over the cells |
| `Chain.turns`     | a loop that ended has had a turn for every cell of its chain |
| `Chain.turns_ok`  | a loop whose turns do not fail does not fail |
-/
namespace Loop

variable {σ ε ρ α π : Type*}

/-- With enough turns the code returns `r`. -/
def Ends (code : Nat → Option ρ) (r : ρ) : Prop := ∃ n, ∀ m, n ≤ m → code m = some r

theorem Ends.unique {code : Nat → Option ρ} {r r' : ρ} (h : Ends code r) (h' : Ends code r') : r = r' := by
  obtain ⟨n, hn⟩ := h
  obtain ⟨n', hn'⟩ := h'
  have := (hn (max n n') (by omega)).symm.trans (hn' (max n n') (by omega))
  exact Option.some.inj this

theorem ends_of_eq {code : Nat → Option ρ} {r : ρ} (h : ∀ n, code n = some r) : Ends code r :=
  ⟨0, fun m _ => h m⟩

/-- `while cond(s) { body(s) }`, for so many turns. -/
def whileLoop (cond : σ → Bool) (body : σ → Option (Except ε σ)) : Nat → σ → Option (Except ε σ)
  | 0, _ => none
  | turns + 1, s =>
    if cond s then
      match body s with
      | none => none
      | some (.error e) => some (.error e)
      | some (.ok s') => whileLoop cond body turns s'
    else some (.ok s)

section
variable {cond : σ → Bool}

theorem whileLoop_ok {body : σ → Option (Except ε σ)} {k : Nat} {s t : σ}
    (h : whileLoop cond body k s = some (.ok t)) (hc : cond s = true) :
    ∃ k' s', body s = some (.ok s') ∧ whileLoop cond body k' s' = some (.ok t) := by
  cases k with
  | zero => cases h
  | succ k =>
    rw [whileLoop, if_pos hc] at h
    cases hb : body s with
    | none => simp [hb] at h
    | some r =>
      cases r with
      | error e => simp [hb] at h
      | ok s' => exact ⟨k, s', rfl, by simpa [hb] using h⟩

/-- What every turn keeps. -/
theorem whileLoop_inv {body : σ → Option (Except ε σ)} {I : σ → Prop}
    (hI : ∀ s s', I s → cond s = true → body s = some (.ok s') → I s') {k : Nat} :
    ∀ {s t : σ}, I s → whileLoop cond body k s = some (.ok t) → I t := by
  induction k with
  | zero =>
    intro s t _ h
    cases h
  | succ k ih =>
    intro s t hs h
    by_cases hc : cond s = true
    · rw [whileLoop, if_pos hc] at h
      cases hb : body s with
      | none => simp [hb] at h
      | some r =>
        cases r with
        | error e => simp [hb] at h
        | ok s' => exact ih (hI s s' hs hc hb) (by simpa [hb] using h)
    · rw [whileLoop, if_neg hc, Option.some.injEq, Except.ok.injEq] at h
      rwa [← h]

/-- **A turn that changes nothing is repeated forever.** -/
theorem whileLoop_stuck {body : σ → Option (Except ε σ)} {s : σ} (hc : cond s = true)
    (hb : body s = some (.ok s)) (k : Nat) : whileLoop cond body k s = none := by
  induction k with
  | zero => rfl
  | succ k ih =>
    rw [whileLoop, if_pos hc, hb]
    exact ih

theorem whileLoop_mono {body : σ → Option (Except ε σ)} {k : Nat} {r : Except ε σ} :
    ∀ {s : σ} {m : Nat}, whileLoop cond body k s = some r → k ≤ m → whileLoop cond body m s = some r := by
  induction k with
  | zero =>
    intro s m h _
    cases h
  | succ k ih =>
    intro s m h hm
    obtain ⟨m, rfl⟩ : ∃ m', m = m' + 1 := ⟨m - 1, by omega⟩
    rw [whileLoop] at h ⊢
    by_cases hc : cond s = true
    · rw [if_pos hc] at h ⊢
      cases hb : body s with
      | none => simp [hb] at h
      | some b =>
        cases b with
        | error e => simpa [hb] using h
        | ok s' => exact ih (by simpa [hb] using h) (by omega)
    · rw [if_neg hc] at h ⊢
      exact h

theorem ends_of_whileLoop {body : σ → Option (Except ε σ)} {k : Nat} {s : σ} {r : Except ε σ}
    (h : whileLoop cond body k s = some r) : Ends (fun n => whileLoop cond body n s) r :=
  ⟨k, fun _ hm => whileLoop_mono h hm⟩

/-- The loop ends with `r`, where the body may loop as well. -/
def WhileEnds (cond : σ → Bool) (body : Nat → σ → Option (Except ε σ)) (s : σ) (r : Except ε σ) : Prop :=
  ∃ n, ∀ m k, n ≤ m → n ≤ k → whileLoop cond (body m) k s = some r

variable {body : Nat → σ → Option (Except ε σ)} {s s' : σ} {r : Except ε σ}

theorem WhileEnds.ends (h : WhileEnds cond body s r) : Ends (fun n => whileLoop cond (body n) n s) r := by
  obtain ⟨n, hn⟩ := h
  exact ⟨n, fun m hm => hn m m hm hm⟩

theorem whileEnds_stop (hc : cond s = false) : WhileEnds cond body s (.ok s) := by
  refine ⟨1, ?_⟩
  intro m k _ hk
  obtain ⟨k, rfl⟩ : ∃ k', k = k' + 1 := ⟨k - 1, by omega⟩
  rw [whileLoop, if_neg (by simp [hc])]

theorem WhileEnds.turn (hc : cond s = true) (hb : Ends (fun n => body n s) (.ok s'))
    (hw : WhileEnds cond body s' r) : WhileEnds cond body s r := by
  obtain ⟨n, hn⟩ := hb
  obtain ⟨n', hn'⟩ := hw
  refine ⟨max n n' + 1, ?_⟩
  intro m k hm hk
  obtain ⟨k, rfl⟩ : ∃ k', k = k' + 1 := ⟨k - 1, by omega⟩
  have hbm : body m s = some (.ok s') := hn m (by omega)
  rw [whileLoop, if_pos hc, hbm]
  exact hn' m k (by omega) (by omega)

end

/-! ## Chains -/

/-- `cells` are what is found from a pointer on, each holding the pointer to the next one, up to the
null pointer. -/
inductive Chain (found : π → α → Prop) (next : α → π) (null : π) : π → List α → Prop
  | null : Chain found next null null []
  | cell {p : π} {a : α} {cells : List α} : p ≠ null → found p a →
      Chain found next null (next a) cells → Chain found next null p (a :: cells)

section
variable {τ : Type*} {found : π → α → Prop} {next : α → π} {null : π} {cond : π × τ → Bool} {cells : List α}

/-- **A loop along a chain ends**, and has folded its turns over the cells. -/
theorem Chain.walk {body : Nat → π × τ → Option (Except ε (π × τ))} {f : τ → α → τ}
    (hcond : ∀ s, cond s = true ↔ s.1 ≠ null) {p : π} (h : Chain found next null p cells) :
    ∀ {acc : τ}, (∀ p acc a, a ∈ cells → found p a → Ends (fun n => body n (p, acc)) (.ok (next a, f acc a))) →
      WhileEnds cond body (p, acc) (.ok (null, cells.foldl f acc)) := by
  induction h with
  | null =>
    intro acc _
    refine whileEnds_stop ?_
    simpa using hcond (null, acc)
  | cell hne hat _ ih =>
    intro acc hturn
    refine .turn ((hcond _).2 hne) (hturn _ acc _ List.mem_cons_self hat) (ih ?_)
    exact fun p acc b hb => hturn p acc b (List.mem_cons_of_mem _ hb)

variable {body : π × τ → Option (Except ε (π × τ))}

/-- **A loop that has ended has passed every cell**: a turn moves on only over a cell with `P`, and
otherwise leaves the state as it is. -/
theorem Chain.turns {P : α → Prop} (hcond : ∀ s, cond s = true ↔ s.1 ≠ null) {p : π}
    (h : Chain found next null p cells) :
    ∀ {acc : τ} {t : π × τ} {k : Nat},
      (∀ p acc s' a, a ∈ cells → found p a → body (p, acc) = some (.ok s') →
        P a ∧ s'.1 = next a ∨ s' = (p, acc)) →
      whileLoop cond body k (p, acc) = some (.ok t) → ∀ a ∈ cells, P a := by
  induction h with
  | null =>
    intro acc t k _ _ a ha
    cases ha
  | cell hne hat _ ih =>
    intro acc t k hturn he
    have hc := (hcond (_, acc)).2 hne
    obtain ⟨k', s', hb, he'⟩ := whileLoop_ok he hc
    rcases hturn _ acc s' _ List.mem_cons_self hat hb with ⟨hP, hptr⟩ | rfl
    · obtain ⟨p', acc'⟩ := s'
      obtain rfl : p' = _ := hptr
      have hall := ih (fun p acc s' b hb => hturn p acc s' b (List.mem_cons_of_mem _ hb)) he'
      intro b hb
      rcases List.mem_cons.1 hb with rfl | hb
      · exact hP
      · exact hall b hb
    · rw [whileLoop_stuck hc hb] at he
      cases he

/-- **A loop along a chain has no failure of its own**: turns that cannot fail make a loop that cannot. -/
theorem Chain.turns_ok (hcond : ∀ s, cond s = true ↔ s.1 ≠ null) {p : π} (h : Chain found next null p cells) :
    ∀ {acc : τ} {r : Except ε (π × τ)} {k : Nat},
      (∀ p acc r a, a ∈ cells → found p a → body (p, acc) = some r →
        ∃ s', r = .ok s' ∧ (s'.1 = next a ∨ s' = (p, acc))) →
      whileLoop cond body k (p, acc) = some r → ∃ t, r = .ok t := by
  induction h with
  | null =>
    intro acc r k _ he
    have hc : cond (null, acc) = false := by simpa using hcond (null, acc)
    cases k with
    | zero => cases he
    | succ k =>
      rw [whileLoop, if_neg (by simp [hc]), Option.some.injEq] at he
      exact ⟨_, he.symm⟩
  | @cell p a _ hne hat _ ih =>
    intro acc r k hturn he
    have hc := (hcond (p, acc)).2 hne
    cases k with
    | zero => cases he
    | succ k =>
      cases hb : body (p, acc) with
      | none => simp [whileLoop, hc, hb] at he
      | some r' =>
        obtain ⟨⟨p', acc'⟩, rfl, hmove⟩ := hturn p acc r' a List.mem_cons_self hat hb
        rcases hmove with rfl | hstay
        · rw [whileLoop, if_pos hc, hb] at he
          exact ih (fun p acc r b hb => hturn p acc r b (List.mem_cons_of_mem _ hb)) he
        · rw [hstay] at hb
          rw [whileLoop_stuck hc hb] at he
          cases he

end

end Loop
