import Netwatcher.QueuedWatches
import Netwatcher.WatchAndroid.Chain
import Netwatcher.WatchAndroid.Live
/-!
# The Android watchers end up at the system's interfaces (`src/watch_android.rs`)

A run of `Live` is a run of `Machine` (`reach_machine`), and follows the re-reading protocol of
`Refresh` for as long as a network callback is registered (`reach_shows`): `currentInterfaces` is the
view, a waiting call of `interfaces_did_change` the signal. The first registration subscribes before it
lists, so a change that the first listing misses is owed a notification that will wait for the lock.
-/
namespace Netwatcher.WatchAndroid
open Coll Runs Refresh

/-! ## A run of `Live` is a run of the machine -/

/-- Whoever lists has the lock, and finds the watchers as it has left them. -/
structure ReaderOk (l : Live) : Prop where
  lock : l.reader ≠ .nobody → l.machine.lock = .free
  first : ∀ n cm reading, l.reader = .first n cm reading →
    l.machine.clients n = .absent ∧ l.machine.state.hasWatchers = false
  notified : ∀ reading, l.reader = .notified reading → l.machine.state.hasWatchers = true

theorem ReaderOk.of_nobody {l : Live} (h : l.reader = .nobody) : ReaderOk l :=
  ⟨fun hn => absurd h hn, fun _ _ _ hr => by simp [h] at hr, fun _ hr => by simp [h] at hr⟩

theorem ReaderOk.step {l l' : Live} (h : ReaderOk l) (hs : LiveStep l l') : ReaderOk l' := by
  cases hs with
  | change list hl => exact ⟨h.lock, h.first, h.notified⟩
  | drift list hl => exact ⟨h.lock, h.first, h.notified⟩
  | notify changes => exact ⟨h.lock, h.first, h.notified⟩
  | enter hu hw hwatch => exact ⟨fun _ => hu.1, nofun, fun _ _ => hwatch⟩
  | enterIdle hu hw hwatch => exact .of_nobody hu.2
  | load r hr hread =>
    exact ⟨fun _ => h.lock (by simp [hr]), nofun, fun _ _ => h.notified _ hr⟩
  | startFirst cm hu hn hwatch =>
    refine ⟨fun _ => hu.1, ?_, nofun⟩
    intro n cm' reading hr
    cases hr
    exact ⟨hn, hwatch⟩
  | loadFirst r hr hread =>
    refine ⟨fun _ => h.lock (by simp [hr]), ?_, nofun⟩
    intro n cm reading hr'
    cases hr'
    exact h.first _ _ _ hr
  | beside hb =>
    obtain ⟨hworld, hlock, hclients⟩ := hb.frame
    have hstate : ∀ {m : Machine}, m.world = l.machine.world → m.state = l.machine.state := fun hw =>
      congrArg World.state hw
    refine ⟨fun hn => hlock.trans (h.lock hn), ?_, ?_⟩
    · intro n cm reading hr
      obtain ⟨hn, hwatch⟩ := h.first n cm reading hr
      exact ⟨hclients n hn, by rw [hstate hworld, hwatch]⟩
    · intro reading hr
      rw [hstate hworld]
      exact h.notified reading hr
  | ignore | dispatch | allocateFirst | queueFirst | refuseFirst | other => exact .of_nobody rfl

theorem readerOk {l : Live} (r : Reach liveSystem l) : ReaderOk l :=
  r.inv (I := ReaderOk) (fun l (h : liveSystem.init l) => .of_nobody h.2.2) fun _ _ _ h hs => h.step hs

/-- A step of `Live` is one of the machine, or none. -/
theorem LiveStep.machine {l l' : Live} (h : ReaderOk l) (hs : LiveStep l l') :
    l'.machine = l.machine ∨ Step l.machine l'.machine := by
  cases hs with
  | ignore hr hv hi => exact .inr (.ignore (h.lock (by simp [hr])) hv hi)
  | dispatch hr hv hq hi => exact .inr (.dispatch (h.lock (by simp [hr])) hv hq hi)
  | allocateFirst callback hr hid hc ha =>
    exact .inr (.allocate callback (h.lock (by simp [hr])) (h.first _ _ _ hr).1 hid hc ha)
  | queueFirst kind hr hid ha =>
    exact .inr (.registerQueued kind (h.lock (by simp [hr])) (h.first _ _ _ hr).1 hid ha)
  | refuseFirst hr ha =>
    exact .inr (.refuseCallback (h.lock (by simp [hr])) (h.first _ _ _ hr).1 ha)
  | beside hb => exact .inr hb.step
  | other hr hs hu => exact .inr hs
  | _ => exact .inl rfl

/-- **`Live` refines the machine**: what every run of the machine keeps, every run of `Live` keeps. -/
theorem reach_machine {l : Live} (r : Reach liveSystem l) : Reach system l.machine := by
  obtain ⟨m, rm, rfl⟩ := r.simulate (R := fun l m => l.machine = m) (A := system)
    (fun l (h : liveSystem.init l) => ⟨l.machine, h.1, rfl⟩) fun l l' m rl hm (hs : LiveStep l l') => by
      subst hm
      rcases hs.machine (readerOk rl) with he | hs
      · exact ⟨_, .refl, he⟩
      · exact ⟨_, .single hs, rfl⟩
  exact rm

/-! ## What a step does to the subscription and to the snapshot -/

theorem initialiseJavaWatching_watched {w : World} (answers : Answers) (h : w.state.hasWatchers = true) :
    initialiseJavaWatching answers w = (w, .ok ()) := by
  simp [initialiseJavaWatching, h]

/-- The first registration: the new subscription and the listing taken under it. -/
theorem initialiseJavaWatching_started {w w' : World} {cm : Bool} {r : Except Error IfList}
    {stop : StopOutcome} (hw : w.state.hasWatchers = false)
    (h : initialiseJavaWatching ⟨.started cm, r, stop⟩ w = (w', .ok ())) :
    w'.state.subscribed = cm ∧ w'.state.javaSupport.isSome = true ∧
      r = .ok w'.state.currentInterfaces := by
  simp only [initialiseJavaWatching, hw, startJavaWatching, Bool.false_eq_true, if_false] at h
  cases r with
  | error err => exact absurd (Prod.mk.inj h).2 (by simp)
  | ok list =>
    obtain ⟨rfl, -⟩ := Prod.mk.inj h
    exact ⟨by simp [State.subscribed, Java.newObject], rfl, rfl⟩

/-- A notification that has listed leaves the snapshot at its listing. -/
theorem interfacesDidChange_current {r : Except Error IfList} {visited : List (WatcherId × Callback)}
    {state state' : State} {b : Bool} (hw : state.hasWatchers = true)
    (h : interfacesDidChange r visited state = (state', .ok b)) :
    state'.javaSupport = state.javaSupport ∧ ∀ list, r = .ok list → state'.currentInterfaces = list := by
  simp only [interfacesDidChange, hw, Bool.not_true, Bool.false_eq_true, if_false] at h
  cases r with
  | error err =>
    obtain ⟨rfl, -⟩ := Prod.mk.inj h
    exact ⟨rfl, by simp⟩
  | ok newList =>
    by_cases hl : newList = state.currentInterfaces
    · simp only [hl, if_true] at h
      obtain ⟨rfl, -⟩ := Prod.mk.inj h
      exact ⟨rfl, fun list hr => by rw [← Except.ok.inj hr, hl]⟩
    · cases he : state.callbackWatchers.isEmpty <;>
        (simp only [hl, he, Bool.not_true, Bool.not_false, Bool.false_eq_true, if_false, if_true] at h
         obtain ⟨rfl, -⟩ := Prod.mk.inj h
         exact ⟨rfl, fun list hr => Except.ok.inj hr⟩)

/-- The subscription is that of the first watcher for as long as there is one. -/
theorem Step.javaSupport {m m' : Machine} (hs : Step m m') (h : m.state.hasWatchers = true)
    (h' : m'.state.hasWatchers = true) : m'.state.javaSupport = m.state.javaSupport := by
  cases hs with
  | allocate callback hl hn hid hc ha =>
    obtain ⟨w₁, hi, -, -, rfl⟩ := allocateCallbackWatcher_ok ha
    obtain ⟨rfl, -⟩ := Prod.mk.inj ((initialiseJavaWatching_watched _ h).symm.trans hi)
    rfl
  | refuseCallback hl hn ha =>
    have hi := (initialiseJavaWatching_watched _ h).symm.trans (allocateCallbackWatcher_error ha)
    exact absurd (Prod.mk.inj hi).2 (by simp)
  | callInitial hn hc => rfl
  | join hl hn hf =>
    obtain ⟨-, rfl⟩ := finishIteration_joined hf
    rfl
  | behind hl hn hf =>
    obtain ⟨rfl, -⟩ := finishIteration_behind hf
    rfl
  | callNext hn hc => rfl
  | registerQueued kind hl hn hid ha =>
    obtain ⟨w₁, hi, -, -, rfl⟩ := registerQueuedWatcher_ok ha
    obtain ⟨rfl, -⟩ := Prod.mk.inj ((initialiseJavaWatching_watched _ h).symm.trans hi)
    rfl
  | refuseQueued hl hn ha =>
    have hi := (initialiseJavaWatching_watched _ h).symm.trans (registerQueuedWatcher_error ha).1
    exact absurd (Prod.mk.inj hi).2 (by simp)
  | @leave n id stop hl hn =>
    change (unregisterWatcher stop id m.world).state.hasWatchers = true at h'
    change (unregisterWatcher stop id m.world).state.javaSupport = _
    rw [unregisterWatcher_state] at h' ⊢
    exact if_pos h'
  | ignore hl hv hi =>
    obtain rfl := interfacesDidChange_ignored hv hi
    rfl
  | dispatch hl hv hq hi =>
    obtain ⟨list, callbacks, -, rfl, -⟩ := interfacesDidChange_dispatched hv hi
    rfl
  | push hl => rfl
  | release hl => rfl
  | consume hn hw => rfl

/-! ## The watchers follow the protocol -/

/-- What the listing under way, if any, is to the protocol; `view` is the snapshot. -/
def Reader.phase (view : IfList) : Reader → Phase IfList
  | .nobody => .idle view
  | .first _ _ .listing | .notified .listing => .reading
  | .first _ _ (.loaded r) | .notified (.loaded r) => .loaded r.toOption

/-- Without a subscription nothing is promised. -/
def Live.phase (l : Live) : Phase IfList :=
  if l.subscribed then l.reader.phase l.machine.state.currentInterfaces else .stale

/-- Some call of `interfaces_did_change` waits for the lock. -/
def Live.signal (l : Live) : Bool := l.waiting != 0

/-- Where the protocol is once nobody lists. -/
def State.phase (self : State) : Phase IfList :=
  if self.subscribed then .idle self.currentInterfaces else .stale

theorem Live.phase_of_nobody {l : Live} (h : l.reader = .nobody) : l.phase = l.machine.state.phase := by
  simp only [Live.phase, State.phase, Live.subscribed, h, Reader.phase]

theorem Live.phase_of_notified {l : Live} {reading : Reading} (h : l.reader = .notified reading) :
    l.phase = if l.machine.state.subscribed then Reader.phase ∅ (.notified reading) else .stale := by
  cases reading <;> simp only [Live.phase, Live.subscribed, h, Reader.phase]

theorem Live.phase_of_first {l : Live} {n : Nat} {cm : Bool} {reading : Reading}
    (h : l.reader = .first n cm reading) :
    l.phase = if cm then Reader.phase ∅ (.notified reading) else .stale := by
  cases reading <;> simp only [Live.phase, Live.subscribed, h, Reader.phase]

theorem State.phase_of_unwatched {self : State} (hs : self.javaSupport.isSome = self.hasWatchers)
    (h : self.hasWatchers = false) : self.phase = .stale := by
  have hn : self.javaSupport = none := by simpa [h] using hs
  simp [State.phase, State.subscribed, hn]

section
variable {l : Live} {a : Refresh.St IfList} {v : Tracked IfList} {b : Bool}

/-- Where the machine steps, the protocol gets to the new snapshot, or forgets what it was owed. -/
theorem moves_go {m : Machine} (hs : m.state.javaSupport.isSome = m.state.hasWatchers)
    (h : Moves a l.os l.signal m.state.phase) : Moves a (l.go m).os (l.go m).signal (l.go m).phase := by
  rw [Live.phase_of_nobody rfl]
  cases hw : m.state.hasWatchers with
  | true =>
    simp only [Live.go, hw, if_true]
    exact h
  | false =>
    rw [State.phase_of_unwatched hs hw] at h
    simp only [Live.go, hw, Bool.false_eq_true, if_false, State.phase_of_unwatched hs hw]
    exact h.trans fun _ h => h.settle _

/-- The listing of a notification begins. -/
theorem moves_enter {p : State} (b' : Bool) (h : Shows v b p.phase a) :
    Moves a v.beginRead b' (if p.subscribed then .reading else .stale) := by
  cases hs : p.subscribed with
  | true =>
    simp only [State.phase, hs, if_true] at h ⊢
    exact h.restart b'
  | false =>
    simp only [State.phase, hs, Bool.false_eq_true, if_false] at h ⊢
    exact h.untorn.discard b'

/-- It ends. -/
theorem moves_load {c : Bool} {r : Option IfList} (h : Shows v b (if c then .reading else .stale) a)
    (hr : v.Reads r) : Moves a v b (if c then .loaded r else .stale) := by
  cases c with
  | true => exact h.finish hr
  | false => exact h.stay

/-- Its result is the snapshot, or it failed and the snapshot stays. -/
theorem moves_install {c : Bool} {r : Except Error IfList} {state : State} (hc : state.subscribed = c)
    (hcur : ∀ list, r = .ok list → state.currentInterfaces = list)
    (h : Shows v b (if c then .loaded r.toOption else .stale) a) : Moves a v b state.phase := by
  cases c with
  | true =>
    simp only [State.phase, hc, if_true] at h ⊢
    refine h.install ?_
    intro list hl
    cases r with
    | error err => cases hl
    | ok list' => exact hcur list (by rw [Option.some.inj hl])
  | false =>
    simp only [State.phase, hc, Bool.false_eq_true, if_false] at h ⊢
    exact h.stay

theorem moves_notified {p state : State} {r : Except Error IfList} {visited : List (WatcherId × Callback)}
    {done : Bool} (hw : p.hasWatchers = true) (hi : interfacesDidChange r visited p = (state, .ok done))
    (h : Shows v b (if p.subscribed then .loaded r.toOption else .stale) a) : Moves a v b state.phase := by
  obtain ⟨hj, hcur⟩ := interfacesDidChange_current hw hi
  exact moves_install (congrArg (Option.any _) hj) hcur h

theorem moves_started {w w' : World} {cm : Bool} {r : Except Error IfList} {stop : StopOutcome}
    (hw : w.state.hasWatchers = false)
    (hi : initialiseJavaWatching ⟨.started cm, r, stop⟩ w = (w', .ok ()))
    (h : Shows v b (if cm then .loaded r.toOption else .stale) a) : Moves a v b w'.state.phase := by
  obtain ⟨hsub, -, hread⟩ := initialiseJavaWatching_started hw hi
  refine moves_install hsub ?_ h
  intro list hl
  exact Except.ok.inj (hread.symm.trans hl)

/-- Nobody lists: the snapshot stays as it is, under the subscription there was or under none. -/
theorem moves_unlisted {m m' : Machine} (hs : m'.state.javaSupport.isSome = m'.state.hasWatchers)
    (hstep : Step m m') (hu : Unlisted m m') (h : Shows v b m.state.phase a) :
    Moves a v b m'.state.phase := by
  cases hw : m'.state.hasWatchers with
  | true =>
    have hj := hstep.javaSupport (hu.2 hw) hw
    have hp : m'.state.phase = m.state.phase := by
      unfold State.phase State.subscribed
      rw [hj, hu.1]
    rw [hp]
    exact h.stay
  | false =>
    rw [State.phase_of_unwatched hs hw]
    unfold State.phase at h
    split at h
    · exact h.retire
    · exact h.stay

end

/-- **One step of anybody is zero or more of the protocol.** -/
theorem LiveStep.shows {l l' : Live} {a : Refresh.St IfList} (r : Reach liveSystem l)
    (hs : LiveStep l l') (h : Shows l.os l.signal l.phase a) : Moves a l'.os l'.signal l'.phase := by
  have hok := readerOk r
  have hreg := registry (reach_machine r)
  have hreg' := registry (reach_machine (r.step hs))
  cases hs with
  | change list hl => exact h.change list
  | drift list hl =>
    have hp : l.phase = .stale := by simp [Live.phase, hl]
    rw [hp] at h
    change Moves a _ _ l.phase
    rw [hp]
    exact h.drift list
  | notify changes =>
    have hb : ({ l with waiting := l.waiting + 1 } : Live).signal = true := by simp [Live.signal]
    exact hb ▸ h.raise changes
  | enter hu hw hwatch =>
    rw [Live.phase_of_nobody hu.2] at h
    rw [Live.phase_of_notified rfl]
    exact moves_enter _ h
  | @enterIdle k hu hw hwatch =>
    have hp : l.machine.state.phase = .stale := State.phase_of_unwatched hreg.support hwatch
    rw [Live.phase_of_nobody hu.2, hp] at h
    have hp' : ({ l with waiting := k } : Live).phase = .stale := (Live.phase_of_nobody hu.2).trans hp
    rw [hp']
    exact h.discard _
  | load r hr hread =>
    rw [Live.phase_of_notified hr] at h
    rw [Live.phase_of_notified rfl]
    exact moves_load h hread
  | @ignore r visited state hr hv hi =>
    rw [Live.phase_of_notified hr] at h
    exact moves_go hreg'.support (moves_notified (hok.notified _ hr) hi h)
  | @dispatch r visited queues state hr hv hq hi =>
    rw [Live.phase_of_notified hr] at h
    exact moves_go hreg'.support (moves_notified (hok.notified _ hr) hi h)
  | @startFirst n cm hu hn hwatch =>
    have hp : l.machine.state.phase = .stale := State.phase_of_unwatched hreg.support hwatch
    rw [Live.phase_of_nobody hu.2, hp] at h
    rw [Live.phase_of_first rfl]
    cases cm with
    | true => exact h.start _
    | false => exact h.untorn.stay
  | loadFirst r hr hread =>
    rw [Live.phase_of_first hr] at h
    rw [Live.phase_of_first rfl]
    exact moves_load h hread
  | @allocateFirst n cm r stop w id list callback hr hid hc ha =>
    rw [Live.phase_of_first hr] at h
    obtain ⟨w₁, hi, -, -, rfl⟩ := allocateCallbackWatcher_ok ha
    have hm := moves_started (hok.first _ _ _ hr).2 hi h
    exact moves_go hreg'.support hm
  | @queueFirst n cm r stop w queue id kind hr hid ha =>
    rw [Live.phase_of_first hr] at h
    obtain ⟨w₁, hi, -, -, rfl⟩ := registerQueuedWatcher_ok ha
    have hm := moves_started (hok.first _ _ _ hr).2 hi h
    exact moves_go hreg'.support hm
  | @refuseFirst n cm r stop w err hr ha =>
    rw [Live.phase_of_first hr] at h
    have hstate := state_eq_of_error hreg.support (allocateCallbackWatcher_error ha)
    have hp : w.state.phase = .stale := by
      rw [hstate]
      exact State.phase_of_unwatched hreg.support (hok.first _ _ _ hr).2
    refine moves_go hreg'.support ?_
    change Moves a l.os l.signal w.state.phase
    rw [hp]
    cases cm with
    | true => exact h.abandon ∅
    | false => exact h.stay
  | beside hb =>
    have hstate := congrArg World.state hb.frame.1
    have hp : ∀ m : Machine, m.state = l.machine.state → ({ l with machine := m } : Live).phase = l.phase :=
      fun m hm => by unfold Live.phase Live.subscribed; dsimp only; rw [hm]
    rw [hp _ hstate]
    exact h.stay
  | @other m hr hstep hu =>
    rw [Live.phase_of_nobody hr] at h
    exact moves_go hreg'.support (moves_unlisted hreg'.support hstep hu h)

/-- **The watchers follow the protocol.** -/
theorem reach_shows {l : Live} (r : Reach liveSystem l) :
    ∃ a, Reach (Refresh.system IfList) a ∧ Shows l.os l.signal l.phase a := by
  refine r.simulate (R := fun l a => Shows l.os l.signal l.phase a) ?_ ?_
  · rintro l ⟨hm, -, hr⟩
    have hp : l.phase = .stale := by
      rw [Live.phase_of_nobody hr]
      simp [State.phase, State.subscribed, Machine.state, hm.1, initState]
    exact ⟨⟨l.os, l.signal, .stale⟩, rfl, ⟨rfl, rfl, fun _ => rfl, rfl, hp.symm⟩⟩
  · intro l l' a r h hs
    exact LiveStep.shows r hs h

/-! ## Where everybody ends up -/

/-- Nobody has the lock, and no notification is running, waiting or owed. -/
structure Rest (l : Live) : Prop where
  unlocked : l.Unlocked
  waiting : l.waiting = 0
  owed : l.os.owed = 0

theorem current_eq_cur {l : Live} (r : Reach liveSystem l) (hs : l.machine.state.subscribed = true)
    (h : Rest l) : l.machine.state.currentInterfaces = l.os.cur := by
  obtain ⟨a, ra, ha⟩ := reach_shows r
  have hp : l.phase = .idle l.machine.state.currentInterfaces := by
    rw [Live.phase_of_nobody h.unlocked.2, State.phase, if_pos hs]
  have hb : l.signal = false := by simp [Live.signal, h.waiting]
  rw [hp, hb] at ha
  exact ha.fresh ra h.owed

/-- Nobody waits to be told of interfaces they do not have. -/
structure Fresh (l : Live) : Prop where
  /-- A joined callback that has not failed has been told last what there is. -/
  callbacks : ∀ (id : WatcherId) (callback : Callback),
    l.machine.state.callbackWatchers[id]? = some callback → callback.failed = false →
      lastInterfaces (l.machine.log id) = some l.os.cur
  /-- A registration that has not joined yet does so in its next turn, or catches up with what there is. -/
  joining : ∀ n id list callback, l.machine.clients n = .finishing id list callback →
    (finishIteration l.machine.state id list callback).2 = if l.os.cur = list then none else some l.os.cur
  queued : ∀ n id watch, l.machine.clients n = .queued id watch →
    EndServed True l.os.cur (l.machine.queues n) watch

/-- **At rest every Android watcher has, or is about to take, the interfaces of the moment.** -/
theorem watchers_fresh {l : Live} (r : Reach liveSystem l) (hs : l.machine.state.subscribed = true)
    (h : Rest l) : Fresh l := by
  have rm := reach_machine r
  have hcur := current_eq_cur r hs h
  refine ⟨?_, ?_, ?_⟩
  · intro id callback hcb hf
    rw [← hcur]
    exact ((chain rm).told (registry rm) hcb).last hf
  · intro n id list callback _
    rw [finishIteration, hcur]
    split <;> rfl
  · intro n id watch hn
    rw [← hcur]
    exact (queueOk rm h.unlocked.1 hn).served True

def liveUnused : Live := ⟨unused, ⟨∅, 0, false⟩, 0, .nobody⟩

/-- The interfaces change to `list` after the first watcher has registered, and the notification has
been handled. -/
def afterChange (list : IfList) : Live where
  machine := firstTold list
  os := ⟨list, 0, false⟩
  waiting := 0
  reader := .nobody

theorem reach_afterChange {list : IfList} (h : list ≠ ∅) : Reach liveSystem (afterChange list) := by
  have unused : Reach liveSystem liveUnused := .init ⟨⟨rfl, fun _ => rfl, rfl, fun _ => rfl⟩, rfl, rfl⟩
  have listed := (unused.step (LiveStep.startFirst (n := 0) true ⟨rfl, rfl⟩ rfl rfl)).step
    (LiveStep.loadFirst (.ok ∅) rfl fun _ => rfl)
  have first : Reach liveSystem ⟨firstQueued true, ⟨∅, 0, false⟩, 0, .nobody⟩ :=
    listed.step (@LiveStep.queueFirst _ _ _ _ .stopped _ _ _ .async rfl unused_hasId rfl)
  have told : Reach liveSystem ⟨firstQueued true, ⟨list, 0, false⟩, 0, .notified (.loaded (.ok list))⟩ :=
    (((first.step (LiveStep.change list rfl)).step (LiveStep.notify 1)).step
      (LiveStep.enter ⟨rfl, rfl⟩ rfl rfl)).step (LiveStep.load (.ok list) rfl fun _ => rfl)
  have pushing := told.step (@LiveStep.dispatch _ _ _ [0] _ rfl (.refl _) (.refl _) (firstQueued_told h))
  have pushed := pushing.step (LiveStep.other rfl (Step.push rfl) ⟨rfl, fun _ => rfl⟩)
  exact pushed.step (LiveStep.other rfl (Step.release rfl) ⟨rfl, fun _ => rfl⟩)

theorem watchers_fresh_changed :
    (afterChange wlan0).os.cur = wlan0 ∧ wlan0 ≠ ∅ ∧ Fresh (afterChange wlan0) :=
  ⟨rfl, by decide, watchers_fresh (reach_afterChange (by decide)) rfl ⟨⟨rfl, rfl⟩, rfl, rfl⟩⟩

end Netwatcher.WatchAndroid
