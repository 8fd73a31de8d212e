import Netwatcher.WatchWin.Registration
/-!
# Teardown of a Windows registration (`src/watch_win.rs`)

`NotificationRegistration::drop` cancels both registrations. If one fails it locks the state, to disable
and then leak it; on a poisoned mutex the `unwrap` panics instead (watch_win.rs:115). In an unwinding
that is the end of the process; elsewhere it frees the state it has already taken out of its field. The
mutex is poisoned by the unwinding of the owner, or by a notification that has panicked under the lock.

| result | |
| --- | --- |
| `sparing_drop`, `sparing_safe` | runs without such a drop: it does not panic, and the state is never freed under a live registration |
| `not_spared_never_dropped`, `not_spared_not_safe` | after a step that makes it happen the drop does not return, and it may free what is in use |
| `silent` | in every run nothing changes after the drop |
| `waker_panic_frees`, `initial_panic_aborts` | both happen: a queued watch whose waker panics, a callback that panics on its first update |
-/
namespace Netwatcher.WatchWin
open Coll Runs Refresh

section
variable {T : Type} {P : Protocol T} {E : Exit → Prop}

/-! ## After the drop -/

theorem Regs.allocated_of_live {m : Machine T} (h : Regs m) (hp : ∀ exit, m.pc ≠ .dropPanicked exit)
    {k : Kind} (hl : (m.sources k).live = true) : m.allocated = true := by
  by_contra hf
  rcases h.freed (by simpa using hf) with ⟨exit, he⟩ | ⟨-, hn⟩
  · exact hp exit he
  · rw [hn k] at hl
    cases hl

/-- One step after the drop: a notification that finds the state finds it disabled. -/
theorem Step.dropped (hP : Lawful P) {m m' : Machine T} {e : Label} (hlocks : Locks P m)
    (hregs : Regs m) {exit : Exit} (hd : m.pc = .dropped exit) (hs : Step P m e m') :
    m'.pc = .dropped exit ∧ m'.st = m.st := by
  have disabled {k : Kind} {phase : Dispatch} (hh : m.holder = .dispatch k phase) : P.disabled m.st = true :=
    hlocks.phase_at hd (hregs.allocated_of_live (by simp [hd]) (hregs.live_of_holder hh))
  cases hs with
  | dispatchHandle ha hh hr => exact ⟨hd, by rw [← hP.notif_ignored _ _ (.inr (disabled hh)), hr]⟩
  | dispatchUnwinds ha hh hu =>
    have hrun := (hP.unwinds_running _ _ _ hu).1.2
    rw [disabled hh] at hrun
    cases hrun
  | change | drift | notify | dispatchLock | dispatchPoisoned | dispatchLoad | dispatchFail | dispatchPanics =>
    exact ⟨hd, rfl⟩
  | register hpc | registerFailed hpc | lock hpc | lockPoisoned hpc | load r hpc | listPanicked hpc
  | listFailed hpc | initialised hpc | initialPanicked hpc | outside hpc | close hpc | skip hpc
  | cancelled hpc | cancelFailed hpc | disable hpc | abort hpc | dropPanic hpc | release hpc =>
    rw [hd] at hpc
    cases hpc

/-- What every run promises of the boxed state. -/
structure Safe (P : Protocol T) (m : Machine T) : Prop where
  /-- It is freed only after every registration that succeeded has been cancelled. -/
  released : m.allocated = false →
    ∀ k, (m.sources k).handle.isSome = true → (m.sources k).cancelled = true
  /-- Whoever may still be called, or is running, finds it allocated. -/
  found : ∀ k, (m.sources k).live = true ∨ (m.sources k).waiting ≠ 0 ∨
    (∃ phase, m.holder = .dispatch k phase) → m.allocated = true
  /-- Once the drop has returned it never changes: no call of the callback, no push. -/
  silent : ∀ exit, m.pc = .dropped exit → ∀ m', Later (system P) m m' → m'.st = m.st

/-- **Silent after the drop**, in every run. -/
theorem silent (hP : Lawful P) {m : Machine T} (r : Reach (system P) m) {exit : Exit}
    (hd : m.pc = .dropped exit) {m' : Machine T} (l : Later (system P) m m') : m'.st = m.st := by
  refine (l.inv (I := fun t => t.pc = .dropped exit ∧ t.st = m.st) r ⟨hd, rfl⟩ ?_).2
  rintro t t' rt ⟨ht, hst⟩ ⟨e, hs⟩
  obtain ⟨ht', hst'⟩ := Step.dropped hP (locks hP rt) (regs rt) ht hs
  exact ⟨ht', hst'.trans hst⟩

/-- **Never freed under a live registration**, unless the drop panics. -/
theorem safe (hP : Lawful P) {m : Machine T} (r : Reach (system P) m)
    (hp : ∀ exit, m.pc ≠ .dropPanicked exit) : Safe P m := by
  have h := regs r
  refine ⟨?_, ?_, fun exit hd m' l => silent hP r hd l⟩
  · intro hf k hk
    by_contra hc
    have hl : (m.sources k).live = true := by simp [Source.live, hk, Bool.eq_false_iff.2 hc]
    rw [h.allocated_of_live hp hl] at hf
    cases hf
  · intro k hk
    rcases hk with hl | hw | ⟨phase, hh⟩
    · exact h.allocated_of_live hp hl
    · exact h.allocated_of_live hp (h.live_of_waiting hw)
    · exact h.allocated_of_live hp (h.live_of_holder hh)

/-! ## When the drop panics -/

/-- A cancellation has failed in this drop, and the state has not been disabled. -/
def Pc.failing : Pc → Option Exit
  | .cancelling _ exit false | .disabling exit | .dropPanicked exit => some exit
  | .aborted => some .unwinding
  | _ => none

/-- Such a drop, of the exits `E`, that finds the mutex poisoned, or has found it so. -/
def Doomed (E : Exit → Prop) (m : Machine T) : Prop :=
  m.poisoned = true ∧ ∃ exit, m.pc.failing = some exit ∧ E exit

/-- The drop of the registration panics. -/
def DropPanics (m : Machine T) : Prop := m.pc = .aborted ∨ ∃ exit, m.pc = .dropPanicked exit

/-- The step does not doom a drop of the exits `E`. -/
structure Spared (E : Exit → Prop) (m : Machine T) (e : Label) : Prop where
  /-- No cancellation fails while the mutex is poisoned. -/
  cancels : ∀ exit, m.pc.exit = some exit → E exit → m.poisoned = true →
    ∀ result, e = .cancel result → result = NO_ERROR
  /-- No notification panics once one has failed. -/
  calm : ∀ exit, m.pc.failing = some exit → E exit → e ≠ .panics

/-- The runs in which that never happens. -/
def sparing (E : Exit → Prop) (P : Protocol T) : Sys (Machine T) where
  init := (system P).init
  step m m' := ∃ e, Step P m e m' ∧ Spared E m e

theorem cancel_ok_iff {handle : NotificationHandle} {result : Win32Error} :
    handle.cancel result = .ok () ↔ result = NO_ERROR := by
  unfold NotificationHandle.cancel
  split <;> simp [*]

theorem failing_afterFailure (k : Kind) (exit : Exit) : (afterCancel k exit false).failing = some exit := by
  cases k <;> rfl

/-- A cancellation that does not fail makes no difference. -/
theorem failing_afterCancel (k : Kind) (exit : Exit) (ok : Bool) :
    (afterCancel k exit ok).failing = (Pc.cancelling k exit ok).failing := by
  cases k <;> cases ok <;> rfl

/-- The owner stays where it is, or goes on with the same drop. -/
theorem Doomed.keeps {m m' : Machine T} (h : Doomed E m) (hp : m.poisoned = true → m'.poisoned = true)
    (hf : m'.pc.failing = m.pc.failing) : Doomed E m' := by
  obtain ⟨hpo, exit, he, hE⟩ := h
  exact ⟨hp hpo, exit, hf.trans he, hE⟩

/-- Once doomed, the owner gets nowhere but to the panic. -/
theorem Step.doomed {m m' : Machine T} {e : Label} (hd : Doomed E m) (hs : Step P m e m') : Doomed E m' := by
  have away {pc : Pc} (hpc : m.pc = pc) (hf : pc.failing = none) : Doomed E m' := by
    obtain ⟨-, exit, he, -⟩ := hd
    rw [hpc, hf] at he
    cases he
  cases hs with
  | change | drift | notify | dispatchLock | dispatchPoisoned | dispatchLoad | dispatchFail =>
    exact hd.keeps id rfl
  | dispatchHandle => exact hd.keeps (fun hp => by simp [hp]) rfl
  | dispatchPanics | dispatchUnwinds => exact hd.keeps (fun _ => rfl) rfl
  | outside hpc ho => exact hd.keeps id rfl
  | register hpc | registerFailed hpc | lock hpc | lockPoisoned hpc | load r hpc | listPanicked hpc
  | listFailed hpc | initialised hpc | initialPanicked hpc | close hpc | release hpc => exact away hpc rfl
  | @skip k exit ok hpc | @cancelled k exit ok _ _ hpc =>
    exact hd.keeps id ((failing_afterCancel k exit ok).trans (by rw [hpc]))
  | @cancelFailed k exit ok _ _ _ hpc =>
    cases ok with
    | true => exact away hpc (by cases k <;> rfl)
    | false => exact hd.keeps id ((failing_afterFailure k exit).trans (by rw [hpc]; rfl))
  | disable hpc hf hp =>
    rw [hd.1] at hp
    cases hp
  | abort hpc hf hp | dropPanic hpc he hf hp => exact hd.keeps id (by rw [hpc]; rfl)

/-- Only a step that is not spared dooms the owner. -/
theorem Step.spared (hP : Lawful P) {m m' : Machine T} {e : Label} (hs : Step P m e m') (hsp : Spared E m e)
    (hd : Doomed E m') : Doomed E m := by
  have away (hf : m'.pc.failing = none) : Doomed E m := by
    obtain ⟨-, exit, he, -⟩ := hd
    rw [hf] at he
    cases he
  have panicked (hpc : m'.pc = m.pc) (he : e = .panics) : Doomed E m := by
    obtain ⟨-, exit, hf, hE⟩ := hd
    exact absurd he (hsp.calm exit (hpc ▸ hf) hE)
  cases hs with
  | change | drift | notify | dispatchLock | dispatchPoisoned | dispatchLoad | dispatchFail =>
    exact hd.keeps id rfl
  | @dispatchHandle k list st result ha hh hr =>
    have hres : result = .ok () := by rw [← hP.notif_ok m.st list, hr]
    exact hd.keeps (fun hp => by simpa [hres, Except.toOption] using hp) rfl
  | dispatchPanics | dispatchUnwinds => exact panicked rfl rfl
  | outside hpc ho => exact hd.keeps id rfl
  | @register k => exact away (by cases k <;> rfl)
  | registerFailed | lock | lockPoisoned | load | listPanicked | listFailed | initialised | initialPanicked
  | close | disable | release => exact away rfl
  | @skip k exit ok hpc | @cancelled k exit ok _ _ hpc =>
    exact hd.keeps id (by rw [hpc]; exact (failing_afterCancel k exit ok).symm)
  | @cancelFailed k exit ok handle result err hpc hn hr =>
    obtain ⟨hp, exit', hf, hE⟩ := hd
    obtain rfl : exit = exit' := Option.some.inj ((failing_afterFailure k exit).symm.trans hf)
    have hok : handle.cancel result = .ok () :=
      cancel_ok_iff.2 (hsp.cancels exit (by rw [hpc]; rfl) hE hp result rfl)
    rw [hr] at hok
    cases hok
  | abort hpc hf hp | dropPanic hpc he hf hp => exact hd.keeps id (by rw [hpc]; rfl)

/-- A step that is not spared dooms it. -/
theorem Step.not_spared {m m' : Machine T} {e : Label} (hs : Step P m e m') (hsp : ¬ Spared E m e) :
    Doomed E m' := by
  have hcases : (∃ exit, m.pc.exit = some exit ∧ E exit ∧ m.poisoned = true ∧
      ∃ result, e = .cancel result ∧ result ≠ NO_ERROR) ∨
      ∃ exit, m.pc.failing = some exit ∧ E exit ∧ e = .panics := by
    by_contra hno
    refine hsp ⟨fun exit hx hE hp result he => ?_, fun exit hf hE he => hno (.inr ⟨exit, hf, hE, he⟩)⟩
    by_contra hne
    exact hno (.inl ⟨exit, hx, hE, hp, result, he, hne⟩)
  rcases hcases with ⟨exit, hx, hE, hp, result, rfl, hne⟩ | ⟨exit, hf, hE, rfl⟩
  · cases hs with
    | cancelled hpc hn hr => exact absurd (cancel_ok_iff.1 hr) hne
    | @cancelFailed k exit' ok _ _ _ hpc =>
      rw [hpc] at hx
      obtain rfl : exit' = exit := Option.some.inj hx
      exact ⟨hp, exit', failing_afterFailure k exit', hE⟩
  · cases hs with
    | dispatchPanics | dispatchUnwinds => exact ⟨rfl, exit, hf, hE⟩

theorem reach_of_sparing {m : Machine T} (r : Reach (sparing E P) m) : Reach (system P) m :=
  Reach.inv (S := sparing E P) (I := Reach (system P)) (fun _ h => .init h)
    (fun _ _ _ h hs => h.step ⟨_, hs.choose_spec.1⟩) r

theorem sparing_not_doomed (hP : Lawful P) {m : Machine T} (r : Reach (sparing E P) m) : ¬ Doomed E m := by
  refine r.inv (I := fun m => ¬ Doomed E m) ?_ ?_
  · rintro m ⟨-, hp, -⟩ ⟨hp', -⟩
    rw [hp] at hp'
    cases hp'
  · rintro m m' - h ⟨e, hs, hsp⟩ hd
    exact h (hs.spared hP hsp hd)

theorem Locks.doomed_of_aborted {m : Machine T} (h : Locks P m) (ha : m.pc = .aborted) (hE : E .unwinding) :
    Doomed E m :=
  ⟨h.poisoned_at ha rfl, .unwinding, by rw [ha]; rfl, hE⟩

theorem Locks.doomed_of_dropPanicked {m : Machine T} (h : Locks P m) {exit : Exit}
    (hd : m.pc = .dropPanicked exit) (hE : E exit) : Doomed E m :=
  ⟨h.poisoned_at hd rfl, exit, by rw [hd]; rfl, hE⟩

/-- **The drop does not panic in a run that is spared.** -/
theorem sparing_drop (hP : Lawful P) {m : Machine T} (r : Reach (sparing (fun _ => True) P) m) :
    ¬ DropPanics m := by
  have hl := locks hP (reach_of_sparing r)
  rintro (h | ⟨exit, h⟩)
  · exact sparing_not_doomed hP r (hl.doomed_of_aborted h trivial)
  · exact sparing_not_doomed hP r (hl.doomed_of_dropPanicked h trivial)

/-- After a step that is not spared the owner is doomed for good. -/
theorem not_spared_doomed {m m' : Machine T} {e : Label} (r : Reach (system P) m) (hs : Step P m e m')
    (hsp : ¬ Spared E m e) {t : Machine T} (l : Later (system P) m' t) : Doomed E t := by
  refine l.inv (I := Doomed E) (r.step ⟨e, hs⟩) (hs.not_spared hsp) ?_
  rintro t t' - ht ⟨e, hs⟩
  exact hs.doomed ht

/-- **After a step that is not spared the drop never returns.** -/
theorem not_spared_never_dropped {m m' : Machine T} {e : Label} (r : Reach (system P) m) (hs : Step P m e m')
    (hsp : ¬ Spared E m e) {t : Machine T} (l : Later (system P) m' t) (exit : Exit) :
    t.pc ≠ .dropped exit := by
  obtain ⟨-, exit', hf, -⟩ := not_spared_doomed r hs hsp l
  rintro h
  rw [h] at hf
  cases hf

/-! ## What a drop that panics frees -/

/-- The cancellation of `k` is still to come, in this drop or a later one. -/
def Pc.toCancel : Pc → Kind → Bool
  | .registering _, _ | .locking, _ | .listing, _ | .loaded _, _ | .alive, _ => true
  | .cancelling .unicast _ _, _ => true
  | .cancelling .interface _ _, k => k == .interface
  | _, _ => false

/-- What is still registered where a cancellation has failed. -/
def StillLive (sources : Kind → Source) : Pc → Prop
  | .cancelling .interface _ false => (sources .unicast).live = true
  | .disabling _ => ∃ k, (sources k).live = true
  | .dropPanicked exit => exit ≠ .unwinding ∧ ∃ k, (sources k).live = true
  | _ => True

theorem stillLive_congr {sources sources' : Kind → Source} (hl : ∀ k, (sources' k).live = (sources k).live)
    (pc : Pc) : StillLive sources' pc ↔ StillLive sources pc := by
  unfold StillLive
  split <;> simp only [hl]

structure Cancels (m : Machine T) : Prop where
  toCancel : ∀ k, m.pc.toCancel k = true → (m.sources k).cancelled = false
  live : StillLive m.sources m.pc

@[simp] theorem sources_setWaiting_cancelled (m : Machine T) (k k' : Kind) (n : Nat) :
    ((m.setWaiting k n).sources k').cancelled = (m.sources k').cancelled := by
  by_cases hk : k' = k
  · subst hk
    simp [Machine.setWaiting, Machine.setSource]
  · simp [Machine.setWaiting, Machine.setSource, Function.update_of_ne hk]

/-- The system or a notification moves. -/
theorem Cancels.dispatch {m m' : Machine T} (h : Cancels m) (hpc : m'.pc = m.pc)
    (hc : ∀ k, (m'.sources k).cancelled = (m.sources k).cancelled)
    (hl : ∀ k, (m'.sources k).live = (m.sources k).live) : Cancels m' := by
  refine ⟨fun k hk => ?_, ?_⟩
  · rw [hc]
    exact h.toCancel k (hpc ▸ hk)
  · rw [hpc]
    exact (stillLive_congr hl m.pc).2 h.live

/-- The owner moves on where nothing has been cancelled yet. -/
theorem Cancels.early {m m' : Machine T} {pc : Pc} (h : Cancels m) (hpc : m.pc = pc)
    (ht : ∀ k, pc.toCancel k = true) (hs : m'.sources = m.sources) (hl : StillLive m'.sources m'.pc) :
    Cancels m' := by
  refine ⟨fun k _ => ?_, hl⟩
  rw [hs]
  exact h.toCancel k (hpc ▸ ht k)

theorem Cancels.step {m m' : Machine T} {e : Label} (h : Cancels m) (hregs : Regs m) (hs : Step P m e m') :
    Cancels m' := by
  cases hs with
  | change | drift | dispatchLoad | dispatchFail | dispatchHandle | dispatchPanics | dispatchUnwinds
  | outside => exact ⟨h.toCancel, h.live⟩
  | notify | dispatchLock | dispatchPoisoned =>
    exact h.dispatch rfl (fun _ => sources_setWaiting_cancelled ..) fun _ => sources_setWaiting_live ..
  | @register k result raw handle hpc hr =>
    refine ⟨fun k' _ => ?_, by cases k <;> trivial⟩
    by_cases hk : k' = k
    · subst hk
      simp [Machine.setSource]
    · simpa [Machine.setSource, Function.update_of_ne hk] using h.toCancel k' (by rw [hpc]; rfl)
  | registerFailed hpc | lock hpc | lockPoisoned hpc | load r hpc | listPanicked hpc | listFailed hpc
  | initialised hpc | initialPanicked hpc | close hpc => exact h.early hpc (fun _ => rfl) rfl trivial
  | @skip k exit ok hpc hn =>
    have hlive : StillLive m.sources (.cancelling k exit ok) := hpc ▸ h.live
    cases k with
    | unicast =>
      obtain rfl : ok = true := hregs.placed_at hpc
      exact ⟨fun k' _ => h.toCancel k' (by rw [hpc]; rfl), trivial⟩
    | interface =>
      cases ok with
      | true => exact ⟨by simp [afterCancel, Pc.toCancel], trivial⟩
      | false => exact ⟨by simp [afterCancel, Pc.toCancel], .unicast, hlive⟩
  | @cancelled k exit ok handle result hpc hn hr hi =>
    have hlive : StillLive m.sources (.cancelling k exit ok) := hpc ▸ h.live
    cases k with
    | unicast =>
      obtain rfl : ok = true := hregs.placed_at hpc
      refine ⟨fun k' hk => ?_, trivial⟩
      obtain rfl : k' = .interface := by simpa [afterCancel, Pc.toCancel] using hk
      simpa [Machine.setSource] using h.toCancel .interface (by rw [hpc]; rfl)
    | interface =>
      cases ok with
      | true => exact ⟨by simp [afterCancel, Pc.toCancel], trivial⟩
      | false =>
        have hu : (m.sources .unicast).live = true := hlive
        exact ⟨by simp [afterCancel, Pc.toCancel], .unicast, by simpa [Machine.setSource] using hu⟩
  | @cancelFailed k exit ok handle result err hpc hn hr =>
    have hk : (m.sources k).live = true := by
      simp [Source.live, hn, h.toCancel k (by rw [hpc]; cases k <;> rfl)]
    cases k with
    | unicast => exact ⟨fun k' _ => h.toCancel k' (by rw [hpc]; rfl), hk⟩
    | interface => exact ⟨by simp [afterCancel, Pc.toCancel], .interface, hk⟩
  | disable | abort | release => exact ⟨by simp [Pc.toCancel], trivial⟩
  | dropPanic hpc he =>
    have hlive := h.live
    rw [hpc] at hlive
    exact ⟨by simp [Pc.toCancel], he, hlive⟩

theorem cancels {m : Machine T} (r : Reach (system P) m) : Cancels m := by
  refine r.inv (I := Cancels) ?_ ?_
  · rintro m ⟨-, -, -, hs, -, hpc⟩
    exact ⟨fun k _ => by rw [hs], by rw [hpc]; trivial⟩
  · rintro m m' r h ⟨e, hs⟩
    exact h.step (regs r) hs

/-- Without a panic of a notification the drops outside of an unwinding are spared. -/
theorem sparing_of_calm (hP : Lawful P) {m : Machine T} (r : Reach (calm P) m) :
    Reach (sparing (· ≠ .unwinding) P) m := by
  refine Reach.inv (S := calm P) (I := Reach (sparing (· ≠ .unwinding) P)) (fun _ h => .init h) ?_ r
  rintro m m' r h ⟨e, hs, he⟩
  refine h.step ⟨e, hs, ?_, fun _ _ _ => he⟩
  intro exit hx hE hp
  have hu := (calm_inv hP r).poisoned.symm.trans hp
  rw [unwinds_of_exit hx hE] at hu
  cases hu

/-- **Safe in a run that is spared**, as far as the drops outside of an unwinding are. -/
theorem sparing_safe (hP : Lawful P) {m : Machine T} (r : Reach (sparing (· ≠ .unwinding) P) m) :
    Safe P m := by
  have r' := reach_of_sparing r
  refine safe hP r' fun exit hd => ?_
  have hlive := (cancels r').live
  rw [hd] at hlive
  exact sparing_not_doomed hP r ((locks hP r').doomed_of_dropPanicked hd hlive.1)

theorem freed_of_dropPanicked {m : Machine T} (r : Reach (system P) m) {exit : Exit} :
    m.pc = .dropPanicked exit → m.allocated = false := by
  refine r.inv (I := fun m => m.pc = .dropPanicked exit → m.allocated = false) ?_ ?_
  · rintro m ⟨-, -, -, -, -, hpc⟩ hd
    rw [hpc] at hd
    cases hd
  · rintro m m' - h ⟨e, hs⟩ hd
    cases hs with
    | change | drift | notify | dispatchLock | dispatchPoisoned | dispatchLoad | dispatchFail | dispatchHandle
    | dispatchPanics | dispatchUnwinds | outside => exact h hd
    | @register k => cases k <;> cases hd
    | skip | cancelled | cancelFailed => exact (afterCancel_ne_dropPanicked _ _ _ _ hd).elim
    | dropPanic => rfl
    | _ => cases hd

/-- **A drop that panics frees the state under a live registration.** -/
theorem not_safe_of_dropPanicked {m : Machine T} (r : Reach (system P) m) {exit : Exit}
    (hd : m.pc = .dropPanicked exit) : ¬ Safe P m := by
  intro h
  have hlive := (cancels r).live
  rw [hd] at hlive
  obtain ⟨-, k, hk⟩ := hlive
  have hf := freed_of_dropPanicked r hd
  rw [h.found k (.inl hk)] at hf
  cases hf

/-! ## A doomed drop can always go that far -/

/-- A notification that has the lock gives it back. -/
theorem free_lock {m : Machine T} (hl : Locks P m) (ha : m.pc ≠ .aborted) (hn : m.pc.holds = false)
    (hp : m.poisoned = true) :
    ∃ t, Later (system P) m t ∧ t.pc = m.pc ∧ t.poisoned = true ∧ t.holder = .free := by
  cases hm : m.holder with
  | free => exact ⟨m, .refl, rfl, hp, hm⟩
  | owner =>
    rw [hl.owner.1 hm] at hn
    cases hn
  | dispatch k phase =>
    cases phase with
    | listing => exact ⟨_, .single ⟨_, Step.dispatchPanics ha hm⟩, rfl, rfl, rfl⟩
    | loaded r =>
      cases r with
      | error err => exact ⟨_, .single ⟨_, Step.dispatchFail ha hm⟩, rfl, hp, rfl⟩
      | ok list => exact ⟨_, .single ⟨_, Step.dispatchHandle ha hm rfl⟩, rfl, by simp [hp], rfl⟩

theorem disabling_panics {m : Machine T} (hl : Locks P m) {exit : Exit} (hpc : m.pc = .disabling exit)
    (he : exit ≠ .unwinding) (hp : m.poisoned = true) :
    ∃ t, Later (system P) m t ∧ t.pc = .dropPanicked exit := by
  obtain ⟨t, l, htpc, htp, hth⟩ := free_lock hl (by simp [hpc]) (by rw [hpc]; rfl) hp
  exact ⟨_, l.tail ⟨_, Step.dropPanic (htpc.trans hpc) he hth htp⟩, rfl⟩

/-- The second cancellation, after the first has failed: whatever it does, the state is locked next. -/
theorem interface_panics (hP : Lawful P) {m : Machine T} (r : Reach (system P) m) {exit : Exit}
    (hpc : m.pc = .cancelling .interface exit false) (he : exit ≠ .unwinding) (hp : m.poisoned = true) :
    ∃ t, Later (system P) m t ∧ t.pc = .dropPanicked exit := by
  have next : ∃ e t, Step P m e t ∧ t.pc = .disabling exit ∧ t.poisoned = true := by
    cases hh : (m.sources .interface).handle with
    | none => exact ⟨_, _, Step.skip hpc hh, rfl, hp⟩
    | some handle =>
      have hr : handle.cancel ERROR_INVALID_HANDLE = .error (.unexpectedWindowsResult 6) := rfl
      exact ⟨_, _, Step.cancelFailed hpc hh hr, rfl, hp⟩
  obtain ⟨e, t, hs, htpc, htp⟩ := next
  obtain ⟨t', l, ht'⟩ := disabling_panics (locks hP (r.step ⟨e, hs⟩)) htpc he htp
  exact ⟨t', l.head ⟨e, hs⟩, ht'⟩

/-- **A doomed drop may panic**, whatever else has happened. -/
theorem Doomed.panics (hP : Lawful P) {m : Machine T} (r : Reach (system P) m)
    (hd : Doomed (· ≠ .unwinding) m) : ∃ t, Later (system P) m t ∧ ∃ exit, t.pc = .dropPanicked exit := by
  obtain ⟨hp, exit, hf, he⟩ := hd
  cases hpc : m.pc with
  | cancelling k exit' ok =>
    rw [hpc] at hf
    cases ok with
    | true => cases hf
    | false =>
      obtain rfl : exit' = exit := Option.some.inj hf
      cases k with
      | unicast => exact absurd ((regs r).placed_at hpc) (by simp [Placed])
      | interface =>
        obtain ⟨t, l, ht⟩ := interface_panics hP r hpc he hp
        exact ⟨t, l, _, ht⟩
  | disabling exit' =>
    rw [hpc] at hf
    obtain rfl : exit' = exit := Option.some.inj hf
    obtain ⟨t, l, ht⟩ := disabling_panics (locks hP r) hpc he hp
    exact ⟨t, l, _, ht⟩
  | dropPanicked exit' => exact ⟨m, .refl, exit', hpc⟩
  | aborted =>
    rw [hpc] at hf
    exact absurd (Option.some.inj hf).symm he
  | registering | locking | listing | loaded | alive | releasing | dropped =>
    rw [hpc] at hf
    cases hf

/-- **A step that is not spared is one too many**: some run goes on to where the state is not safe. -/
theorem not_spared_not_safe (hP : Lawful P) {m m' : Machine T} {e : Label} (r : Reach (system P) m)
    (hs : Step P m e m') (hsp : ¬ Spared (· ≠ .unwinding) m e) :
    ∃ t, Later (system P) m' t ∧ ¬ Safe P t := by
  have r' : Reach (system P) m' := r.step ⟨e, hs⟩
  obtain ⟨t, l, exit, ht⟩ := (hs.not_spared hsp).panics hP r'
  exact ⟨t, l, not_safe_of_dropPanicked (r'.later l) ht⟩

/-- When a registration is safe: in the runs that are spared, and as long as they are. -/
structure SafeWhenSpared (P : Protocol T) (m : Machine T) : Prop where
  spared : Reach (sparing (· ≠ .unwinding) P) m → Safe P m
  /-- After a step that is not spared the drop never returns, and some run goes on to a state that is not
  safe. -/
  notSpared : ∀ e m', Reach (system P) m → Step P m e m' → ¬ Spared (· ≠ .unwinding) m e →
    (∀ t, Later (system P) m' t → ∀ exit, t.pc ≠ .dropped exit) ∧ ∃ t, Later (system P) m' t ∧ ¬ Safe P t

theorem safeWhenSpared (hP : Lawful P) (m : Machine T) : SafeWhenSpared P m where
  spared r := sparing_safe hP r
  notSpared _ _ r hs hsp :=
    ⟨fun _ l exit => not_spared_never_dropped r hs hsp l exit, not_spared_not_safe hP r hs hsp⟩

end

/-! ## The two watches -/

/-- **When the two kinds of registration are safe**: in every run in which no drop, outside of an unwinding,
has a failed cancellation and a poisoned mutex to lock after it. -/
theorem registrations_safe (callback : Machine WatchState) (queued : Machine QueuedEnds) :
    SafeWhenSpared callbackWatch callback ∧ SafeWhenSpared queuedWatch queued :=
  ⟨safeWhenSpared callbackWatch_lawful callback, safeWhenSpared queuedWatch_lawful queued⟩

/-- A notification has pushed `wifi` and the waker has panicked; the user has begun to drop the handle. -/
def jammedClosing : Machine QueuedEnds :=
  { started ethernet { awaiting with state := handleQueuedNotif awaiting.state wifi, jammed := true } with
    os := ⟨wifi, 0, false⟩, poisoned := true, pc := .cancelling .unicast .closed true }

theorem reach_jammedClosing : Reach (system queuedWatch) jammedClosing := by
  have live (k : Kind) : ((started ethernet awaiting).sources k).live = true := by cases k <;> rfl
  have told := reach_of_calm (calm_notified calm_awaiting wifi rfl live rfl rfl rfl rfl)
  have jams : QueuedEnds.Jams awaiting wifi
      { awaiting with state := handleQueuedNotif awaiting.state wifi, jammed := true } :=
    ⟨rfl, rfl, by decide, rfl, rfl⟩
  have unwound := told.step ⟨.panics, Step.dispatchUnwinds nofun rfl jams⟩
  exact unwound.step ⟨.plain, Step.close rfl⟩

/-- Such a drop that has panicked: `CancelMibChangeNotify2` has failed for the first handle. -/
def freedInUse : Machine QueuedEnds :=
  { jammedClosing.setSource .interface ⟨some ⟨2⟩, true, 0⟩ with
    allocated := false, pc := .dropPanicked .closed }

/-- The failure is `ERROR_INVALID_HANDLE`; the first registration may still call what has been freed. -/
theorem waker_panic_frees : Reach (system queuedWatch) freedInUse ∧ ¬ Safe queuedWatch freedInUse := by
  have failed := reach_jammedClosing.step ⟨.cancel ERROR_INVALID_HANDLE, Step.cancelFailed rfl rfl rfl⟩
  have cancelled := failed.step ⟨.cancel NO_ERROR, Step.cancelled rfl rfl rfl ⟨rfl, nofun⟩⟩
  have freed : Reach (system queuedWatch) freedInUse :=
    cancelled.step ⟨.plain, Step.dropPanic rfl (by simp) rfl rfl⟩
  exact ⟨freed, not_safe_of_dropPanicked freed rfl⟩

/-- The same failure without the panic: the state is disabled and leaked. -/
def leaked : Machine QueuedEnds :=
  { (started ethernet { awaiting with state := awaiting.state.disable }).setSource .interface
      ⟨some ⟨2⟩, true, 0⟩ with pc := .dropped .closed }

theorem calm_leaked : Reach (calm queuedWatch) leaked := by
  have closed := calm_awaiting.step ⟨.plain, Step.close rfl, by simp⟩
  have failed := closed.step ⟨.cancel ERROR_INVALID_HANDLE, Step.cancelFailed rfl rfl rfl, by simp⟩
  have cancelled := failed.step ⟨.cancel NO_ERROR, Step.cancelled rfl rfl rfl ⟨rfl, nofun⟩, by simp⟩
  exact cancelled.step ⟨.plain, Step.disable rfl rfl rfl, by simp⟩

/-- The watch of `FnMut.quiet`, told of `ethernet`. -/
def quietStarted : Machine WatchState := started ethernet (handleInitialNotif (.new .quiet) ethernet).1

theorem registrations_safe_leaked :
    Safe callbackWatch quietStarted ∧
    (Safe queuedWatch leaked ∧ leaked.allocated = true ∧ (leaked.sources .unicast).live = true) ∧
    ∃ t, Later (system queuedWatch) { jammedClosing with pc := .cancelling .interface .closed false } t ∧
      ¬ Safe queuedWatch t := by
  have calm_quietStarted : Reach (calm callbackWatch) quietStarted :=
    calm_started ethernet ⟨.quiet, rfl, rfl⟩ rfl
  obtain ⟨quiet, disabled⟩ := registrations_safe quietStarted leaked
  have failed : Step queuedWatch jammedClosing (.cancel ERROR_INVALID_HANDLE)
      { jammedClosing with pc := afterCancel .unicast .closed false } := Step.cancelFailed rfl rfl rfl
  have unspared : ¬ Spared (· ≠ .unwinding) jammedClosing (.cancel ERROR_INVALID_HANDLE) := fun h =>
    absurd (h.cancels .closed rfl (by simp) rfl ERROR_INVALID_HANDLE rfl) (by decide)
  have jammed := (registrations_safe quietStarted jammedClosing).2.notSpared _ _ reach_jammedClosing failed unspared
  exact ⟨quiet.spared (sparing_of_calm callbackWatch_lawful calm_quietStarted),
    ⟨disabled.spared (sparing_of_calm queuedWatch_lawful calm_leaked), rfl, rfl⟩, jammed.2⟩

/-- **When dropping a callback watch panics**: in no run that is spared, and in every run that is not, unless
it stops before. -/
theorem callback_drop_panics (m : Machine WatchState) :
    (Reach (sparing (fun _ => True) callbackWatch) m → ¬ DropPanics m) ∧
    (∀ e m', Reach (system callbackWatch) m → Step callbackWatch m e m' → ¬ Spared (fun _ => True) m e →
      ∀ t, Later (system callbackWatch) m' t → ∀ exit, t.pc ≠ .dropped exit) :=
  ⟨fun r => sparing_drop callbackWatch_lawful r,
    fun _ _ r hs hsp _ l exit => not_spared_never_dropped r hs hsp l exit⟩

/-- The process once the initial call of `FnMut.panicky` has panicked and, on the way out,
`CancelMibChangeNotify2` has failed for the first handle. -/
def panickyAborted : Machine WatchState :=
  { (listed ethernet (handleInitialNotif (.new .panicky) ethernet).1).setSource .interface
      ⟨some ⟨2⟩, true, 0⟩ with
    poisoned := true, holder := .free, pc := .aborted }

/-- The failure is `ERROR_INVALID_HANDLE`; the drop locks the poisoned mutex while unwinding. -/
theorem initial_panic_aborts : Reach (system callbackWatch) panickyAborted ∧ DropPanics panickyAborted := by
  have listed : Reach (system callbackWatch) (listed ethernet (.new .panicky)) :=
    reach_of_calm (calm_listed ethernet ⟨.panicky, rfl, rfl⟩)
  have panicked := listed.step ⟨.plain, Step.initialPanicked rfl rfl⟩
  have failed := panicked.step ⟨.cancel ERROR_INVALID_HANDLE, Step.cancelFailed rfl rfl rfl⟩
  have cancelled := failed.step ⟨.cancel NO_ERROR, Step.cancelled rfl rfl rfl ⟨rfl, by simp⟩⟩
  exact ⟨cancelled.step ⟨.plain, Step.abort rfl rfl rfl⟩, .inl rfl⟩

end Netwatcher.WatchWin
