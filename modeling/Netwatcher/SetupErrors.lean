import Netwatcher.QueuedWatches
import Netwatcher.WatchFd.AsyncWatch
/-!
# A constructor that returns an error has not called back

Every constructor opens its sockets or registers its notifications, lists, and only then makes the
first update. `Err` comes from a step before that, and nothing that happens while the constructor
cleans up reaches the user.

| platform | set-up | failed set-up |
| --- | --- | --- |
| Unix, callback and blocking | watch_fd.rs:125, :138 | `WatchFd.Pc.failed` |
| Unix, async | watch_fd.rs:107 | `WatchFdAsync.Pc.failed` |
| Windows | watch_win.rs:191, :232 | the exits `failed` of `WatchWin.Pc` |
-/

/-! ## Unix -/

namespace Netwatcher.WatchFd
open Runs

/-- Before the first snapshot has gone through the cursor. -/
def NotBegun (s : Watcher) : Prop :=
  s.pc.begun = false → s.cursor = .default ∧ s.produced = [] ∧ s.delivered = []

theorem begun_resume (s : Watcher) (yielded : Bool) : (s.resume yielded).begun = true := by
  rcases resume_cases s yielded with h | h | ⟨-, h⟩ <;> rw [h] <;> rfl

theorem begun_absorb (s : Watcher) (r : Option IfList) : (s.absorb r).pc.begun = true := by
  simp only [Watcher.absorb]
  split
  · rfl
  · exact begun_resume s false

theorem NotBegun.step {s s' : Watcher} (h : NotBegun s) (hs : Step s s') : NotBegun s' := by
  have setup {pc : Pc} (hpc : s.pc = pc) (hb : pc.begun = false) :
      s.cursor = .default ∧ s.produced = [] ∧ s.delivered = [] := h (by rw [hpc, hb])
  cases hs with
  | change l => exact h
  | arrive k => exact h
  | startFirst hp => exact fun _ => setup hp rfl
  | pipeFails hm hp => exact fun _ => setup hp rfl
  | endFirst r hp hr => exact fun _ => setup hp rfl
  | firstFails hp => exact fun _ => setup hp rfl
  | @firstCallback l hm hp =>
    -- the first `advance` always emits, so the `unwrap` holds
    obtain ⟨hc, -, -⟩ := setup hp rfl
    intro hb
    simp [Watcher.firstCallback, hc, UpdateCursor.default, UpdateCursor.advance, Pc.begun] at hb
  | firstBlocking hm hp => exact fun hb => by cases hb
  | takeInitial hp hi => exact fun hb => by simp [hp, Pc.begun] at hb
  | callChanged hp hi => exact fun hb => by cases hb
  | pollSocket hup hp hm => exact fun hb => by cases hb
  | pollPipe hm hp => exact fun hb => by cases hb
  | @recv r n hp hr =>
    have hb' : (if drainContinues r then Pc.draining else .drained).begun = true := by split <;> rfl
    exact fun hb => by rw [hb'] at hb; cases hb
  | startListing hp => exact fun hb => by cases hb
  | endListing r hp hr => exact fun hb => by cases hb
  | absorb hp => exact fun hb => by rw [begun_absorb] at hb; cases hb
  | deliver hp => exact fun hb => by rw [begun_resume] at hb; cases hb
  | panic hm hp => exact fun hb => by cases hb

theorem notBegun {mode : Mode} {s : Watcher} (r : Reach (system mode) s) : NotBegun s := by
  refine r.inv (I := NotBegun) ?_ fun _ _ _ h hs => h.step hs
  rintro s ⟨-, -, hc, -, -, hp, hd⟩ -
  exact ⟨hc, hp, hd⟩

end Netwatcher.WatchFd

namespace Netwatcher.WatchFdAsync
open Runs

/-- The constructor has not come to the first `advance`. -/
def Pc.setup : Pc → Bool
  | .opened | .registered | .firstListing | .firstListed _ | .failed => true
  | _ => false

def NotBegun (s : AsyncWatch) : Prop := s.pc.setup = true → s.produced = [] ∧ s.delivered = []

theorem setup_absorb (s : AsyncWatch) (r : Option IfList) : (s.absorb r).pc.setup = false := by
  cases r with
  | none => rfl
  | some l =>
    simp only [AsyncWatch.absorb]
    split <;> rfl

theorem NotBegun.step {s s' : AsyncWatch} (h : NotBegun s) (hs : Step s s') : NotBegun s' := by
  have setup {pc : Pc} (hpc : s.pc = pc) (hb : pc.setup = true) : s.produced = [] ∧ s.delivered = [] :=
    h (by rw [hpc, hb])
  cases hs with
  | change l => exact h
  | arrive k => exact h
  | spurious => exact h
  | register ready hp => exact fun _ => setup hp rfl
  | registerFails hp => exact fun _ => setup hp rfl
  | startFirst hp => exact fun _ => setup hp rfl
  | endFirst r hp hr => exact fun _ => setup hp rfl
  | firstFails hp => exact fun _ => setup hp rfl
  | takeInitial hp hi => exact fun hb => by simp [hp, Pc.setup] at hb
  | @recv r n hp hr =>
    have hb' : (if WatchFd.drainContinues r then Pc.draining else .drained).setup = false := by
      split <;> rfl
    exact fun hb => by rw [hb'] at hb; cases hb
  | absorb hp => exact fun hb => by rw [setup_absorb] at hb; cases hb
  | _ => exact fun hb => by cases hb

theorem notBegun {s : AsyncWatch} (r : Reach system s) : NotBegun s := by
  refine r.inv (I := NotBegun) ?_ fun _ _ _ h hs => h.step hs
  rintro s ⟨-, -, -, -, hp, hd⟩ -
  exact ⟨hp, hd⟩

end Netwatcher.WatchFdAsync

/-! ## Windows -/

namespace Netwatcher.WatchWin
open Coll Runs Refresh

section
variable {T : Type} {P : Protocol T}

/-- The state is as it was made, or has been disabled since. -/
def Unstarted (P : Protocol T) (m : Machine T) : Prop :=
  ∀ err, m.pc.exit = some (.failed err) →
    P.fresh m.st ∨ ((∃ exit, m.pc = .dropped exit) ∧ ∃ t, P.fresh t ∧ m.st = P.disable t)

/-- The owner goes on with its drop. -/
theorem Unstarted.drop {m m' : Machine T} (h : Unstarted P m) (hpc : ∀ exit, m.pc ≠ .dropped exit)
    (he : m'.pc.exit = m.pc.exit) (hst : m'.st = m.st) : Unstarted P m' := by
  intro err hexit
  rcases h err (he ▸ hexit) with hf | ⟨⟨exit, hd⟩, -⟩
  · exact .inl (hst ▸ hf)
  · exact absurd hd (hpc exit)

theorem Unstarted.of_exit {m : Machine T} (h : ∀ err, m.pc.exit ≠ some (.failed err)) : Unstarted P m :=
  fun err he => absurd he (h err)

theorem Unstarted.step (hP : Lawful P) {m m' : Machine T} {e : Label} (h : Unstarted P m)
    (hlocks : Locks P m) (hs : Step P m e m') : Unstarted P m' := by
  cases hs with
  | change list ha hl => exact h
  | drift list ha hl => exact h
  | notify k changes ha hl => exact h
  | dispatchLock ha hw hf hp => exact h
  | dispatchPoisoned ha hw hf hp => exact h
  | dispatchLoad r ha hd hr => exact h
  | dispatchFail ha hd => exact h
  | @dispatchHandle k list st result ha hd hr =>
    obtain rfl : (P.handleNotif m.st list).1 = st := by rw [hr]
    intro err he
    have hst : (P.handleNotif m.st list).1 = m.st := by
      rcases h err he with hf | ⟨-, t, ht, hst⟩
      · exact hP.notif_ignored _ _ (.inl (hP.fresh_flags _ hf).1)
      · exact hP.notif_ignored _ _ (.inr (by rw [hst, hP.disable_disabled]))
    simpa only [hst] using h err he
  | dispatchPanics ha hd => exact h
  | @dispatchUnwinds k list st ha hd hu =>
    -- a state that has never run is ignored before anything can panic
    obtain ⟨⟨hi, hdis⟩, -⟩ := hP.unwinds_running _ _ _ hu
    intro err he
    rcases h err he with hf | ⟨-, t, ht, hst⟩
    · rw [(hP.fresh_flags _ hf).1] at hi
      cases hi
    · rw [hst, hP.disable_disabled] at hdis
      cases hdis
  | @register k result raw handle hpc hr => exact .of_exit fun err => by cases k <;> simp [afterRegister, Pc.exit]
  | registerFailed hpc hr =>
    have hf := hlocks.phase_at hpc
    exact fun _ _ => .inl hf
  | lock hpc hf hp => exact .of_exit fun err => by simp [Pc.exit]
  | lockPoisoned hpc hf hp => exact .of_exit fun err => by simp [Pc.exit]
  | load r hpc hr => exact .of_exit fun err => by simp [Pc.exit]
  | listPanicked hpc => exact .of_exit fun err => by simp [Pc.exit]
  | listFailed hpc =>
    have hf := hlocks.phase_at hpc
    exact fun _ _ => .inl hf
  | initialised hpc hi => exact .of_exit fun err => by simp [Pc.exit]
  | initialPanicked hpc hi => exact .of_exit fun err => by simp [Pc.exit]
  | outside hpc ho => exact .of_exit fun err => by simp [hpc, Pc.exit]
  | close hpc => exact .of_exit fun err => by simp [Pc.exit]
  | skip hpc hn => exact h.drop (by simp [hpc]) (by rw [exit_afterCancel, hpc]; rfl) rfl
  | cancelled hpc hn hr hi => exact h.drop (by simp [hpc]) (by rw [exit_afterCancel, hpc]; rfl) rfl
  | cancelFailed hpc hn hr => exact h.drop (by simp [hpc]) (by rw [exit_afterCancel, hpc]; rfl) rfl
  | @disable exit hpc hf hp =>
    intro err he
    rcases h err (by rw [hpc]; exact he) with hfresh | ⟨⟨exit', hd⟩, -⟩
    · exact .inr ⟨⟨exit, rfl⟩, m.st, hfresh, rfl⟩
    · cases hpc.symm.trans hd
  | abort hpc hf hp => exact .of_exit fun err => by simp [Pc.exit]
  | dropPanic hpc he hf hp => exact .of_exit fun err => by simp [Pc.exit]
  | release hpc => exact h.drop (by simp [hpc]) (by rw [hpc]; rfl) rfl

theorem unstarted (hP : Lawful P) {m : Machine T} (r : Reach (system P) m) : Unstarted P m := by
  refine r.inv (I := Unstarted P) ?_ ?_
  · rintro m ⟨-, -, -, -, -, hpc⟩
    exact .of_exit fun err => by simp [hpc, Pc.exit]
  · rintro m m' r h ⟨e, hs⟩
    exact h.step hP (locks hP r) hs

/-- The second function has not registered, and the first registration has been taken back. -/
def refused (t : T) : Machine T where
  os := ⟨ethernet, 0, false⟩
  st := t
  poisoned := false
  allocated := false
  sources := Function.update (fun _ => ⟨none, false, 0⟩) .unicast ⟨some ⟨1⟩, true, 0⟩
  holder := .free
  pc := .dropped (.failed .invalidHandle)

theorem reach_refused {t : T} (ht : P.fresh t) : Reach (system P) (refused t) := by
  have start : Reach (system P) { refused t with
      allocated := true, sources := fun _ => ⟨none, false, 0⟩, pc := .registering .unicast } :=
    .init ⟨ht, rfl, rfl, fun _ => rfl, rfl, rfl⟩
  have accepted : registrationResult NO_ERROR 1 = .ok ⟨1⟩ := if_pos rfl
  have refusal : registrationResult ERROR_INVALID_HANDLE 0 = .error .invalidHandle := rfl
  have cancels : NotificationHandle.cancel ⟨1⟩ NO_ERROR = .ok () := if_pos rfl
  have first := start.step ⟨.plain, Step.register rfl accepted⟩
  have second := first.step ⟨.plain, Step.registerFailed rfl refusal⟩
  have cancelled := second.step ⟨.cancel NO_ERROR, Step.cancelled rfl rfl cancels ⟨rfl, nofun⟩⟩
  have skipped := cancelled.step ⟨.plain, Step.skip rfl rfl⟩
  have released := skipped.step ⟨.plain, Step.release rfl⟩
  simpa [refused, Machine.setSource] using released

end

end Netwatcher.WatchWin

namespace Netwatcher
open Runs

/-- **A constructor that returns an error has not called back.** On Windows also while and after the
failed registration is taken down: its callback has not been called, and nothing was pushed. -/
theorem setup_errors_silent :
    (∀ mode s, Reach (WatchFd.system mode) s → s.pc = .failed → s.produced = [] ∧ s.delivered = []) ∧
    (∀ s, Reach WatchFdAsync.system s → s.pc = .failed → s.produced = [] ∧ s.delivered = []) ∧
    (∀ m err, Reach (WatchWin.system WatchWin.callbackWatch) m → m.pc.exit = some (.failed err) →
      m.st.callback.delivered = []) ∧
    (∀ m err, Reach (WatchWin.system WatchWin.queuedWatch) m → m.pc.exit = some (.failed err) →
      m.st.state.queue = emptyAsyncCallbackQueue ∧ m.st.watch.yielded = []) := by
  refine ⟨?_, ?_, ?_, ?_⟩
  · intro mode s r hp
    exact (WatchFd.notBegun r (by rw [hp]; rfl)).2
  · intro s r hp
    exact WatchFdAsync.notBegun r (by rw [hp]; rfl)
  · intro m err r he
    rcases WatchWin.unstarted WatchWin.callbackWatch_lawful r err he with hf | ⟨-, t, hf, hst⟩
    · obtain ⟨f, hcalls, hst⟩ := hf
      rw [hst]
      exact hcalls
    · obtain ⟨f, hcalls, rfl⟩ := hf
      rw [hst]
      exact hcalls
  · intro m err r he
    rcases WatchWin.unstarted WatchWin.queuedWatch_lawful r err he with hf | ⟨-, t, hf, hst⟩
    · obtain ⟨kind, hst⟩ := hf
      rw [hst]
      exact ⟨rfl, rfl⟩
    · obtain ⟨kind, rfl⟩ := hf
      rw [hst]
      exact ⟨rfl, rfl⟩

/-- The first listing fails, or the second function does not register. -/
theorem setup_errors_silent_refused :
    (∃ s, Reach (WatchFd.system .blocking) s ∧ s.pc = .failed ∧ s.produced = [] ∧ s.delivered = []) ∧
    (∃ s, Reach WatchFdAsync.system s ∧ s.pc = .failed ∧ s.produced = [] ∧ s.delivered = []) ∧
    (WatchWin.refused (WatchWin.WatchState.new .quiet)).st.callback.delivered = [] ∧
    (WatchWin.refused (WatchWin.QueuedEnds.mk .new (.new .async) false)).st.watch.yielded = [] := by
  refine ⟨?_, ?_, ?_, ?_⟩
  · have start : Reach (WatchFd.system .blocking)
        ⟨.blocking, ⟨∅, 0, false⟩, 0, .opened, .default, none, false, [], []⟩ :=
      .init ⟨rfl, rfl, rfl, rfl, rfl, rfl, rfl⟩
    have listing := (start.step (.startFirst rfl)).step (.change WatchAndroid.wlan0)
    have failed := (listing.step (.endFirst none rfl nofun)).step (.firstFails rfl)
    exact ⟨_, failed, rfl, setup_errors_silent.1 _ _ failed rfl⟩
  · have start : Reach WatchFdAsync.system
        ⟨⟨∅, 0, false⟩, 0, false, .opened, .default, none, false, [], []⟩ :=
      .init ⟨rfl, rfl, rfl, rfl, rfl, rfl⟩
    have listing := ((start.step (.register false rfl)).step (.startFirst rfl)).step (.change WatchAndroid.wlan0)
    have failed := (listing.step (.endFirst none rfl nofun)).step (.firstFails rfl)
    exact ⟨_, failed, rfl, setup_errors_silent.2.1 _ failed rfl⟩
  · have r : Reach (WatchWin.system WatchWin.callbackWatch) (WatchWin.refused (.new .quiet)) :=
      WatchWin.reach_refused ⟨.quiet, rfl, rfl⟩
    exact setup_errors_silent.2.2.1 _ _ r rfl
  · have r : Reach (WatchWin.system WatchWin.queuedWatch) (WatchWin.refused ⟨.new, .new .async, false⟩) :=
      WatchWin.reach_refused ⟨.async, rfl⟩
    exact (setup_errors_silent.2.2.2 _ _ r rfl).2

end Netwatcher
