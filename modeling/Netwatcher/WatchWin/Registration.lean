import Netwatcher.WatchWin.Machine
/-!
# Who has the lock, and what is registered (`src/watch_win.rs`)

Three invariants. `Locks`: while the owner unwinds the mutex is poisoned, and the state is fresh until
the first listing has been handled, running while the handle is alive, and disabled once it has been
leaked. `Calm`: without a panic of a notification nothing but that unwinding poisons the mutex. `Regs`:
only a source that is still registered has calls in flight, and the state is freed after both are quiet
or by a drop that panics.
-/
namespace Netwatcher.WatchWin
open Coll Runs Refresh

section
variable {T : Type} {P : Protocol T}

/-- A panic is on its way out of the owner's code, or was. -/
def Pc.unwinds : Pc → Bool
  | .cancelling _ .unwinding _ | .disabling .unwinding | .releasing .unwinding => true
  | .dropped .unwinding | .dropPanicked _ | .aborted => true
  | _ => false

/-- The owner has the lock. -/
def Pc.holds : Pc → Bool
  | .listing | .loaded _ => true
  | _ => false

/-- Why the registration is being dropped, or was. -/
def Pc.exit : Pc → Option Exit
  | .cancelling _ exit _ | .disabling exit | .releasing exit | .dropped exit => some exit
  | _ => none

/-- A drop that is going on for another reason is no unwinding. -/
theorem unwinds_of_exit {pc : Pc} {exit : Exit} (h : pc.exit = some exit) (he : exit ≠ .unwinding) :
    pc.unwinds = false := by
  cases pc with
  | cancelling k e ok | disabling e | releasing e | dropped e =>
    obtain rfl : e = exit := Option.some.inj h
    cases e with
    | unwinding => exact absurd rfl he
    | failed err | closed => rfl
  | _ => cases h

theorem exit_afterCancel (k : Kind) (exit : Exit) (ok : Bool) : (afterCancel k exit ok).exit = some exit := by
  cases k <;> cases ok <;> rfl

/-- What the owner's progress says about the state. -/
def PhaseOk (P : Protocol T) (pc : Pc) (allocated : Bool) (st : T) : Prop :=
  match pc with
  | .registering _ | .locking | .listing | .loaded _ => P.fresh st
  | .alive => P.running st
  | .dropped _ => allocated = true → P.disabled st = true
  | _ => True

structure Locks (P : Protocol T) (m : Machine T) : Prop where
  poisoned : m.pc.unwinds = true → m.poisoned = true
  owner : m.holder = .owner ↔ m.pc.holds = true
  phase : PhaseOk P m.pc m.allocated m.st

theorem Locks.phase_at {m : Machine T} (h : Locks P m) {pc : Pc} (hpc : m.pc = pc) :
    PhaseOk P pc m.allocated m.st := hpc ▸ h.phase

/-- A panic on its way out has left the mutex poisoned. -/
theorem Locks.poisoned_at {m : Machine T} (h : Locks P m) {pc : Pc} (hpc : m.pc = pc)
    (hu : pc.unwinds = true) : m.poisoned = true := h.poisoned (hpc ▸ hu)

theorem phaseOk_afterCancel (k : Kind) (exit : Exit) (ok a : Bool) (st : T) :
    PhaseOk P (afterCancel k exit ok) a st := by
  cases k <;> cases ok <;> trivial

theorem afterCancel_unwinds (k : Kind) (exit : Exit) (ok ok' : Bool) :
    (afterCancel k exit ok).unwinds = (Pc.cancelling k exit ok').unwinds := by
  cases k <;> cases ok <;> cases exit <;> rfl

theorem afterCancel_holds (k : Kind) (exit : Exit) (ok : Bool) : (afterCancel k exit ok).holds = false := by
  cases k <;> cases ok <;> rfl

theorem afterCancel_ne_dropPanicked (k : Kind) (exit exit' : Exit) (ok : Bool) :
    afterCancel k exit ok ≠ .dropPanicked exit' := by
  cases k <;> cases ok <;> simp [afterCancel]

/-- A notification in any phase: ignored, or kept by a running state. -/
theorem PhaseOk.notif (hP : Lawful P) {pc : Pc} {a : Bool} {st : T} (h : PhaseOk P pc a st) (list : IfList) :
    PhaseOk P pc a (P.handleNotif st list).1 := by
  have fresh (hf : P.fresh st) : P.fresh (P.handleNotif st list).1 := by
    rwa [hP.notif_ignored st list (.inl (hP.fresh_flags st hf).1)]
  cases pc with
  | registering k => exact fresh h
  | locking => exact fresh h
  | listing => exact fresh h
  | loaded r => exact fresh h
  | alive => exact (hP.notif_running st list h).1
  | dropped exit =>
    intro ha
    rw [hP.notif_ignored st list (.inr (h ha))]
    exact h ha
  | _ => trivial

/-- Only a running state is handled so far that it unwinds, and it stays one. -/
theorem PhaseOk.unwinds (hP : Lawful P) {pc : Pc} {a : Bool} {st st' : T} {list : IfList}
    (h : PhaseOk P pc a st) (hu : P.unwinds st list st') : PhaseOk P pc a st' := by
  obtain ⟨⟨hi, hd⟩, hrun⟩ := hP.unwinds_running st list st' hu
  have fresh (hf : P.fresh st) : P.fresh st' := by
    rw [(hP.fresh_flags st hf).1] at hi
    cases hi
  cases pc with
  | registering k => exact fresh h
  | locking => exact fresh h
  | listing => exact fresh h
  | loaded r => exact fresh h
  | alive => exact hrun
  | dropped exit =>
    intro ha
    rw [h ha] at hd
    cases hd
  | _ => trivial

/-- The owner moves from one place without the lock to another. -/
theorem Locks.move {m m' : Machine T} (h : Locks P m) (hu : m'.pc.unwinds = true → m'.poisoned = true)
    (hh : m'.holder = m.holder) (h0 : m.pc.holds = false) (h1 : m'.pc.holds = false)
    (hphase : PhaseOk P m'.pc m'.allocated m'.st) : Locks P m' := by
  refine ⟨hu, ?_, hphase⟩
  rw [hh, h.owner, h0, h1]

/-- The drop goes on from the cancellation of `k`, however that ended. -/
theorem Locks.cancelling {m m' : Machine T} (h : Locks P m) {k : Kind} {exit : Exit} {ok ok' : Bool}
    (hpc : m.pc = .cancelling k exit ok) (hpc' : m'.pc = afterCancel k exit ok')
    (hp : m'.poisoned = m.poisoned) (hh : m'.holder = m.holder) : Locks P m' := by
  apply h.move
  · rw [hpc', hp, afterCancel_unwinds k exit ok' ok]
    exact h.poisoned_at hpc
  · exact hh
  · rw [hpc]
    rfl
  · rw [hpc']
    exact afterCancel_holds ..
  · rw [hpc']
    exact phaseOk_afterCancel ..

/-- A notification takes the lock or gives it back; the owner stays where it is. -/
theorem Locks.dispatch {m m' : Machine T} (h : Locks P m) (hpc : m'.pc = m.pc)
    (hp : m.poisoned = true → m'.poisoned = true) (hh : m.holder ≠ .owner) (hh' : m'.holder ≠ .owner)
    (hphase : PhaseOk P m.pc m'.allocated m'.st) : Locks P m' := by
  refine ⟨fun hu => hp (h.poisoned (hpc ▸ hu)), ?_, by rw [hpc]; exact hphase⟩
  rw [hpc, ← h.owner]
  exact iff_of_false hh' hh

theorem Locks.step (hP : Lawful P) {m m' : Machine T} {e : Label} (h : Locks P m)
    (hs : Step P m e m') : Locks P m' := by
  cases hs with
  | change list ha hl => exact ⟨h.poisoned, h.owner, h.phase⟩
  | drift list ha hl => exact ⟨h.poisoned, h.owner, h.phase⟩
  | notify k changes ha hl => exact ⟨h.poisoned, h.owner, h.phase⟩
  | dispatchLock ha hw hf hp => exact h.dispatch rfl id (by simp [hf]) (by simp) h.phase
  | dispatchPoisoned ha hw hf hp => exact ⟨h.poisoned, h.owner, h.phase⟩
  | dispatchLoad r ha hd hr => exact h.dispatch rfl id (by simp [hd]) (by simp) h.phase
  | dispatchFail ha hd => exact h.dispatch rfl id (by simp [hd]) (by simp) h.phase
  | @dispatchHandle k list st result ha hd hr =>
    have hst : (P.handleNotif m.st list).1 = st := by rw [hr]
    exact h.dispatch rfl (fun hp => by simp [hp]) (by simp [hd]) (by simp) (hst ▸ h.phase.notif hP list)
  | dispatchPanics ha hd => exact h.dispatch rfl (fun _ => rfl) (by simp [hd]) (by simp) h.phase
  | dispatchUnwinds ha hd hu =>
    exact h.dispatch rfl (fun _ => rfl) (by simp [hd]) (by simp) (h.phase.unwinds hP hu)
  | @register k result raw handle hpc hr =>
    have hph := h.phase_at hpc
    cases k <;> exact h.move nofun rfl (by rw [hpc]; rfl) rfl hph
  | registerFailed hpc hr => exact h.move nofun rfl (by rw [hpc]; rfl) rfl trivial
  | lock hpc hf hp =>
    have hph := h.phase_at hpc
    exact ⟨nofun, by simp [Pc.holds], hph⟩
  | lockPoisoned hpc hf hp => exact h.move (fun _ => hp) rfl (by rw [hpc]; rfl) rfl trivial
  | load r hpc hr =>
    have hph := h.phase_at hpc
    exact ⟨nofun, by rw [h.owner, hpc]; rfl, hph⟩
  | listPanicked hpc => exact ⟨fun _ => rfl, by simp [Pc.holds], trivial⟩
  | listFailed hpc => exact ⟨nofun, by simp [Pc.holds], trivial⟩
  | initialised hpc hi =>
    have hph := h.phase_at hpc
    exact ⟨nofun, by simp [Pc.holds], (hP.initial_ok _ _ _ hph hi).1⟩
  | initialPanicked hpc hi => exact ⟨fun _ => rfl, by simp [Pc.holds], trivial⟩
  | outside hpc ho =>
    have hph := h.phase_at hpc
    obtain ⟨h1, h2, -⟩ := hP.outside_same _ _ ho
    refine ⟨h.poisoned, h.owner, ?_⟩
    rw [hpc]
    exact ⟨h1.trans hph.1, h2.trans hph.2⟩
  | close hpc => exact h.move nofun rfl (by rw [hpc]; rfl) rfl trivial
  | skip hpc hn => exact h.cancelling hpc rfl rfl rfl
  | cancelled hpc hn hr hi => exact h.cancelling hpc rfl rfl rfl
  | cancelFailed hpc hn hr => exact h.cancelling hpc rfl rfl rfl
  | @disable exit hpc hf hp =>
    refine h.move (fun hu => h.poisoned_at hpc ?_) rfl (by rw [hpc]; rfl) rfl fun _ => hP.disable_disabled _
    cases exit <;> exact hu
  | abort hpc hf hp => exact h.move (fun _ => hp) rfl (by rw [hpc]; rfl) rfl trivial
  | dropPanic hpc he hf hp => exact h.move (fun _ => hp) rfl (by rw [hpc]; rfl) rfl trivial
  | @release exit hpc =>
    refine h.move (fun hu => h.poisoned_at hpc ?_) rfl (by rw [hpc]; rfl) rfl (by simp [PhaseOk])
    cases exit <;> exact hu

theorem locks (hP : Lawful P) {m : Machine T} (r : Reach (system P) m) : Locks P m := by
  refine r.inv (I := Locks P) ?_ fun _ _ _ h (hs : ∃ e, Step P _ e _) =>
    h.step hP hs.choose_spec
  intro m hm
  obtain ⟨hf, hp, -, -, hh, hpc⟩ := hm
  refine ⟨by simp [hpc, Pc.unwinds], by simp [hh, hpc, Pc.holds], ?_⟩
  rw [hpc]
  exact hf

/-! ## Without a panic of a notification -/

structure Calm (m : Machine T) : Prop where
  poisoned : m.poisoned = m.pc.unwinds
  noPanic : ∀ exit, m.pc ≠ .dropPanicked exit

theorem Calm.poisoned_at {m : Machine T} (h : Calm m) {pc : Pc} (hpc : m.pc = pc) : m.poisoned = pc.unwinds :=
  hpc ▸ h.poisoned

/-- The owner moves, and the mutex stays as it is. -/
theorem Calm.move {m m' : Machine T} {pc : Pc} (h : Calm m) (hpc : m.pc = pc)
    (hp : m'.poisoned = m.poisoned) (hu : m'.pc.unwinds = pc.unwinds)
    (hn : ∀ exit, m'.pc ≠ .dropPanicked exit) : Calm m' :=
  ⟨by rw [hp, hu, h.poisoned_at hpc], hn⟩

/-- The drop finds the mutex poisoned only if it is part of the unwinding. -/
theorem Calm.unwinding_of_poisoned {m : Machine T} (h : Calm m) {exit : Exit}
    (hpc : m.pc = .disabling exit) (hp : m.poisoned = true) (he : exit ≠ .unwinding) : False := by
  have hu := h.poisoned_at hpc
  rw [hp] at hu
  cases exit with
  | unwinding => exact he rfl
  | failed err => cases hu
  | closed => cases hu

theorem Calm.step (hP : Lawful P) {m m' : Machine T} {e : Label} (h : Calm m) (hs : Step P m e m')
    (he : e ≠ .panics) : Calm m' := by
  cases hs with
  | change | drift | notify | dispatchLock | dispatchPoisoned | dispatchLoad | dispatchFail =>
    exact ⟨h.poisoned, h.noPanic⟩
  | @dispatchHandle k list st result ha hd hr =>
    have hres : result = .ok () := by rw [← hP.notif_ok m.st list, hr]
    exact ⟨by simp [hres, Except.toOption, h.poisoned], h.noPanic⟩
  | dispatchPanics | dispatchUnwinds => exact absurd rfl he
  | @register k result raw handle hpc hr => cases k <;> exact h.move hpc rfl rfl (by simp [afterRegister])
  | registerFailed hpc | lock hpc | load _ hpc | listFailed hpc | initialised hpc | close hpc =>
    exact h.move hpc rfl rfl (by simp)
  | lockPoisoned hpc hf hp =>
    have hu := h.poisoned_at hpc
    rw [hp] at hu
    cases hu
  | listPanicked | initialPanicked => exact ⟨rfl, by simp⟩
  | outside hpc ho => exact ⟨h.poisoned, h.noPanic⟩
  | skip hpc | cancelled hpc | cancelFailed hpc =>
    exact h.move hpc rfl (afterCancel_unwinds ..) (afterCancel_ne_dropPanicked _ _ · _)
  | @disable exit hpc => exact h.move hpc rfl (by cases exit <;> rfl) (by simp)
  | abort hpc => exact h.move hpc rfl rfl (by simp)
  | dropPanic hpc hu hf hp => exact (h.unwinding_of_poisoned hpc hp hu).elim
  | @release exit hpc => exact h.move hpc rfl (by cases exit <;> rfl) (by simp)

/-- A mutex stays poisoned, and a notification that panics poisons it. -/
theorem Step.poisoned {m m' : Machine T} {e : Label} (hs : Step P m e m')
    (h : m.poisoned = true ∨ e = .panics) : m'.poisoned = true := by
  cases hs with
  | dispatchPanics | dispatchUnwinds | listPanicked | initialPanicked => rfl
  | dispatchHandle => simp [h.resolve_right (by simp)]
  | _ => exact h.resolve_right (by simp)

/-- As long as the mutex is not poisoned, no notification has panicked. -/
theorem calm_of_not_poisoned {m : Machine T} (r : Reach (system P) m) :
    m.poisoned = false → Reach (calm P) m := by
  refine Reach.inv (S := system P) (I := fun m => m.poisoned = false → Reach (calm P) m)
    (fun _ h _ => .init h) ?_ r
  rintro m m' - ih ⟨e, hs⟩ hp
  have clean (h : m.poisoned = true ∨ e = .panics) : False := by
    rw [hs.poisoned h] at hp
    cases hp
  exact (ih (by simpa using fun h => clean (.inl h))).step ⟨e, hs, fun he => clean (.inr he)⟩

theorem calm_inv (hP : Lawful P) {m : Machine T} (r : Reach (calm P) m) : Calm m := by
  refine r.inv (I := Calm) ?_ ?_
  · rintro m ⟨-, hp, -, -, -, hpc⟩
    exact ⟨by rw [hp, hpc]; rfl, by simp [hpc]⟩
  · rintro m m' - h ⟨e, hs, he⟩
    exact h.step hP hs he

/-! ## Registrations and the allocation -/

/-- What the owner's progress says about the sources. -/
def Placed (sources : Kind → Source) : Pc → Prop
  | .registering .unicast => ∀ k, (sources k).handle = none
  | .registering .interface => (sources .unicast).live = true ∧ (sources .interface).handle = none
  | .locking | .listing | .loaded _ | .alive => ∀ k, (sources k).live = true
  | .cancelling .unicast _ ok => ok = true
  | .cancelling .interface _ ok => ok = true → (sources .unicast).live = false
  | .releasing _ => ∀ k, (sources k).live = false
  | _ => True

/-- The drop is over. -/
def Pc.ended : Pc → Bool
  | .dropped _ | .dropPanicked _ => true
  | _ => false

structure Regs (m : Machine T) : Prop where
  idle : ∀ k, (m.sources k).live = false → m.Idle k
  placed : Placed m.sources m.pc
  freed : m.allocated = false → (∃ exit, m.pc = .dropPanicked exit) ∨
    (∃ exit, m.pc = .dropped exit) ∧ ∀ k, (m.sources k).live = false

theorem Regs.placed_at {m : Machine T} (h : Regs m) {pc : Pc} (hpc : m.pc = pc) : Placed m.sources pc :=
  hpc ▸ h.placed

theorem live_of_handle_none {source : Source} (h : source.handle = none) : source.live = false := by
  simp [Source.live, h]

/-- A call in flight is one of a live source. -/
theorem Regs.live_of_waiting {m : Machine T} (h : Regs m) {k : Kind} (hw : (m.sources k).waiting ≠ 0) :
    (m.sources k).live = true := by
  by_contra hl
  exact hw (h.idle k (by simpa using hl)).1

theorem Regs.live_of_holder {m : Machine T} (h : Regs m) {k : Kind} {phase : Dispatch}
    (hh : m.holder = .dispatch k phase) : (m.sources k).live = true := by
  by_contra hl
  exact (h.idle k (by simpa using hl)).2 phase hh

@[simp] theorem sources_setWaiting_handle (m : Machine T) (k k' : Kind) (n : Nat) :
    ((m.setWaiting k n).sources k').handle = (m.sources k').handle := by
  by_cases hk : k' = k
  · subst hk; simp [Machine.setWaiting, Machine.setSource]
  · simp [Machine.setWaiting, Machine.setSource, Function.update_of_ne hk]

@[simp] theorem sources_setWaiting_live (m : Machine T) (k k' : Kind) (n : Nat) :
    ((m.setWaiting k n).sources k').live = (m.sources k').live := by
  by_cases hk : k' = k
  · subst hk; simp [Machine.setWaiting, Machine.setSource, Source.live]
  · simp [Machine.setWaiting, Machine.setSource, Function.update_of_ne hk]

/-- The count of a live source changes; a source that is not live still has none. -/
theorem Regs.waiting_of_ne {m : Machine T} (h : Regs m) {k k' : Kind} (hl : (m.sources k).live = true)
    (hk' : (m.sources k').live = false) (n : Nat) : ((m.setWaiting k n).sources k').waiting = 0 := by
  have hk : k' ≠ k := by rintro rfl; rw [hl] at hk'; cases hk'
  simpa [Machine.setWaiting, Machine.setSource, Function.update_of_ne hk] using (h.idle k' hk').1

theorem placed_congr {sources sources' : Kind → Source} {pc : Pc} (h : Placed sources pc)
    (hh : ∀ k, (sources' k).handle = (sources k).handle) (hl : ∀ k, (sources' k).live = (sources k).live) :
    Placed sources' pc := by
  cases pc with
  | registering k => cases k <;> simpa [Placed, hh, hl] using h
  | cancelling k exit ok => cases k <;> simpa [Placed, hl] using h
  | _ => first | trivial | simpa [Placed, hl] using h

/-- The system or a notification moves: the owner and the registrations stay. -/
theorem Regs.dispatch {m m' : Machine T} (h : Regs m) (hpc : m'.pc = m.pc) (ha : m'.allocated = m.allocated)
    (hh : ∀ k, (m'.sources k).handle = (m.sources k).handle)
    (hl : ∀ k, (m'.sources k).live = (m.sources k).live)
    (hi : ∀ k, (m.sources k).live = false → m'.Idle k) : Regs m' := by
  refine ⟨fun k hk => hi k (by rwa [← hl]), by rw [hpc]; exact placed_congr h.placed hh hl, ?_⟩
  intro hf
  rcases h.freed (ha ▸ hf) with he | ⟨he, hn⟩
  · exact .inl (hpc ▸ he)
  · exact .inr ⟨hpc ▸ he, fun k => by rw [hl, hn]⟩

/-- Nothing is freed before the end of the drop. -/
theorem Regs.allocated {m : Machine T} {pc : Pc} (h : Regs m) (hpc : m.pc = pc) (hend : pc.ended = false) :
    m.allocated = true := by
  by_contra hf
  rcases h.freed (by simpa using hf) with ⟨exit, he⟩ | ⟨⟨exit, he⟩, -⟩
  · rw [← hpc, he] at hend
    cases hend
  · rw [← hpc, he] at hend
    cases hend

/-- The owner moves, and nothing has been freed so far. -/
theorem Regs.owner {m m' : Machine T} {pc : Pc} (h : Regs m) (hpc : m.pc = pc) (hend : pc.ended = false)
    (ha : m'.allocated = m.allocated) (hi : ∀ k, (m'.sources k).live = false → m'.Idle k)
    (hp : Placed m'.sources m'.pc) : Regs m' := by
  refine ⟨hi, hp, ?_⟩
  intro hf
  rw [ha, h.allocated hpc hend] at hf
  cases hf

/-- The owner moves without touching a source. -/
theorem Regs.ownerPc {m m' : Machine T} {pc : Pc} (h : Regs m) (hpc : m.pc = pc) (hend : pc.ended = false)
    (ha : m'.allocated = m.allocated) (hs : m'.sources = m.sources)
    (hh : m'.holder = m.holder ∨ m'.holder = .owner ∨ m'.holder = .free)
    (hp : Placed m.sources m'.pc) : Regs m' := by
  refine h.owner hpc hend ha ?_ (by rw [hs]; exact hp)
  intro k hk
  rw [hs] at hk
  refine ⟨by rw [hs]; exact (h.idle k hk).1, ?_⟩
  intro phase
  rcases hh with hh | hh | hh
  · rw [hh]; exact (h.idle k hk).2 phase
  · rw [hh]; simp
  · rw [hh]; simp

/-- After a cancellation that succeeded, or that there was no handle for. -/
theorem placed_afterCancel {sources sources' : Kind → Source} {k : Kind} {exit : Exit} {ok : Bool}
    (h : Placed sources (.cancelling k exit ok)) (hk : (sources' k).live = false)
    (hl : ∀ k', k' ≠ k → (sources' k').live = (sources k').live) : Placed sources' (afterCancel k exit ok) := by
  cases k with
  | unicast => exact fun _ => hk
  | interface =>
    cases ok with
    | false => trivial
    | true =>
      intro k'
      cases k' with
      | unicast => rw [hl .unicast (by simp)]; exact h rfl
      | interface => exact hk

theorem placed_afterFailure (sources : Kind → Source) (k : Kind) (exit : Exit) :
    Placed sources (afterCancel k exit false) := by
  cases k with
  | unicast => exact nofun
  | interface => trivial

theorem Regs.step {m m' : Machine T} {e : Label} (h : Regs m) (hs : Step P m e m') : Regs m' := by
  cases hs with
  | change list ha hl => exact h.dispatch rfl rfl (fun _ => rfl) (fun _ => rfl) h.idle
  | drift list ha hl => exact h.dispatch rfl rfl (fun _ => rfl) (fun _ => rfl) h.idle
  | notify k changes ha hl =>
    refine h.dispatch rfl rfl (fun k' => sources_setWaiting_handle ..)
      (fun k' => sources_setWaiting_live ..) ?_
    intro k' hk'
    exact ⟨h.waiting_of_ne hl hk' _, (h.idle k' hk').2⟩
  | @dispatchLock k n ha hw hf hp =>
    have hl := h.live_of_waiting (k := k) (by rw [hw]; simp)
    refine h.dispatch rfl rfl (fun k' => sources_setWaiting_handle ..)
      (fun k' => sources_setWaiting_live ..) fun k' hk' => ⟨h.waiting_of_ne hl hk' _, fun phase => ?_⟩
    have hk : k ≠ k' := by rintro rfl; rw [hl] at hk'; cases hk'
    simp [hk]
  | @dispatchPoisoned k n ha hw hf hp =>
    have hl := h.live_of_waiting (k := k) (by rw [hw]; simp)
    refine h.dispatch rfl rfl (fun k' => sources_setWaiting_handle ..)
      (fun k' => sources_setWaiting_live ..) ?_
    intro k' hk'
    exact ⟨h.waiting_of_ne hl hk' _, (h.idle k' hk').2⟩
  | @dispatchLoad k r ha hd hr =>
    refine h.dispatch rfl rfl (fun _ => rfl) (fun _ => rfl) fun k' hk' => ⟨(h.idle k' hk').1, fun phase => ?_⟩
    have hk : k ≠ k' := by rintro rfl; rw [h.live_of_holder hd] at hk'; cases hk'
    simp [hk]
  | dispatchFail ha hd =>
    exact h.dispatch rfl rfl (fun _ => rfl) (fun _ => rfl) fun k' hk' => ⟨(h.idle k' hk').1, by simp⟩
  | dispatchHandle ha hd hr | dispatchPanics ha hd | dispatchUnwinds ha hd hu =>
    exact h.dispatch rfl rfl (fun _ => rfl) (fun _ => rfl) fun k' hk' => ⟨(h.idle k' hk').1, by simp⟩
  | @register k result raw handle hpc hr =>
    refine h.owner hpc rfl rfl ?_ ?_
    · intro k' hk'
      have hk : k' ≠ k := by rintro rfl; simp [Machine.setSource, Source.live] at hk'
      simp only [Machine.setSource, Function.update_of_ne hk] at hk'
      have := h.idle k' hk'
      exact ⟨by simpa [Machine.setSource, Function.update_of_ne hk] using this.1, this.2⟩
    · have hp := h.placed_at hpc
      cases k with
      | unicast =>
        refine ⟨by simp [Machine.setSource, Source.live], ?_⟩
        simpa [Machine.setSource] using hp .interface
      | interface =>
        intro k'
        cases k' with
        | unicast => simpa [Machine.setSource] using hp.1
        | interface => simp [Machine.setSource, Source.live]
  | registerFailed hpc hr => exact h.ownerPc hpc rfl rfl rfl (.inl rfl) rfl
  | lock hpc hf hp =>
    have hpl := h.placed_at hpc
    exact h.ownerPc hpc rfl rfl rfl (.inr (.inl rfl)) hpl
  | lockPoisoned hpc hf hp => exact h.ownerPc hpc rfl rfl rfl (.inl rfl) rfl
  | load r hpc hr =>
    have hpl := h.placed_at hpc
    exact h.ownerPc hpc rfl rfl rfl (.inl rfl) hpl
  | listPanicked hpc => exact h.ownerPc hpc rfl rfl rfl (.inr (.inr rfl)) rfl
  | listFailed hpc => exact h.ownerPc hpc rfl rfl rfl (.inr (.inr rfl)) rfl
  | initialised hpc hi =>
    have hpl := h.placed_at hpc
    exact h.ownerPc hpc rfl rfl rfl (.inr (.inr rfl)) hpl
  | initialPanicked hpc hi => exact h.ownerPc hpc rfl rfl rfl (.inr (.inr rfl)) rfl
  | outside hpc ho => exact h.ownerPc hpc rfl rfl rfl (.inl rfl) h.placed
  | close hpc => exact h.ownerPc hpc rfl rfl rfl (.inl rfl) rfl
  | skip hpc hn =>
    have hpl := h.placed_at hpc
    exact h.ownerPc hpc rfl rfl rfl (.inl rfl)
      (placed_afterCancel hpl (live_of_handle_none hn) fun _ _ => rfl)
  | @cancelled k exit ok handle result hpc hn hr hi =>
    have hpl := h.placed_at hpc
    refine h.owner hpc rfl rfl ?_ (placed_afterCancel hpl ?_ ?_)
    · intro k' hk'
      by_cases hk : k' = k
      · subst hk
        exact ⟨by simpa [Machine.setSource] using hi.1, hi.2⟩
      · simp only [Machine.setSource, Function.update_of_ne hk] at hk'
        have := h.idle k' hk'
        exact ⟨by simpa [Machine.setSource, Function.update_of_ne hk] using this.1, this.2⟩
    · simp [Machine.setSource, Source.live]
    · intro k' hk
      simp [Machine.setSource, Function.update_of_ne hk]
  | cancelFailed hpc hn hr =>
    exact h.ownerPc hpc rfl rfl rfl (.inl rfl) (placed_afterFailure ..)
  | disable hpc hf hp => exact h.ownerPc hpc rfl rfl rfl (.inl rfl) trivial
  | abort hpc hf hp => exact h.ownerPc hpc rfl rfl rfl (.inl rfl) trivial
  | @dropPanic exit hpc he hf hp => exact ⟨h.idle, trivial, fun _ => .inl ⟨exit, rfl⟩⟩
  | @release exit hpc =>
    have hpl := h.placed_at hpc
    exact ⟨h.idle, trivial, fun _ => .inr ⟨⟨exit, rfl⟩, hpl⟩⟩

theorem regs {m : Machine T} (r : Reach (system P) m) : Regs m := by
  refine r.inv (I := Regs) ?_ fun _ _ _ h (hs : ∃ e, Step P _ e _) => h.step hs.choose_spec
  intro m hm
  obtain ⟨-, -, ha, hsrc, hh, hpc⟩ := hm
  refine ⟨fun k _ => ⟨by rw [hsrc], by simp [hh]⟩, ?_, fun hf => by rw [ha] at hf; cases hf⟩
  rw [hpc]
  exact fun k => by rw [hsrc]

end

end Netwatcher.WatchWin
