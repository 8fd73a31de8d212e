import Mathlib.Logic.Function.Basic
import Netwatcher.Lib.Refresh
import Netwatcher.WatchWin.State
/-!
# Every interleaving of a Windows registration (`src/watch_win.rs`)

One thread registers, takes the first listing under the lock, hands the handle to the user and later
drops it; the system calls the two notification functions on any threads. A run covers every outcome
of each platform call, of the user's callback and of the waker in the queue. What is called under the
lock may panic (`list_interfaces`, `waker.wake()` in `push_async_list`), or never return; a callback's
panics are its own affair after the initial call. A waker's clone and drop are taken to return.

| here | there |
| --- | --- |
| `Source` | one of the two handles, and the calls the system has made for it |
| `Step.dispatchLock` .. `dispatchUnwinds` | `dispatch_notif`, `dispatch_queued_notif` (watch_win.rs:291, :322) |
| `Step.register`, `registerFailed` | `register_notifications` (watch_win.rs:254) |
| `Step.lock` .. `initialPanicked` | watch_win.rs:202-209, :246-251 |
| `Step.dispatchPanics`, `dispatchUnwinds`, `dispatchPoisoned` | what `catch_unwind` swallows there (:292, :323) |
| `Step.skip` .. `release` | `NotificationRegistration::drop` and the fields it leaves (watch_win.rs:103) |

What is assumed of the platform and the language:
- a successful `CancelMibChangeNotify2` returns only when no call for the handle is running, and none
  starts later; a failed one changes nothing;
- a guard dropped while its thread unwinds poisons the mutex, and `lock().unwrap()` on a poisoned
  mutex panics;
- a panic in a drop that runs while the thread unwinds ends the process at once.

A step is labelled with the result of the `CancelMibChangeNotify2` call it makes, if any, and with
whether a notification panics in it. `calm` has the runs in which none does.
-/
namespace Netwatcher.WatchWin
open Coll Runs Refresh

inductive Kind
  | unicast
  | interface
deriving DecidableEq, Repr

structure Source where
  handle : Option NotificationHandle
  cancelled : Bool
  /-- Calls of the notification function that have not got the lock yet. -/
  waiting : Nat

/-- The system may still call the notification function. -/
def Source.live (self : Source) : Bool := self.handle.isSome && !self.cancelled

/-- Where a notification is, once it has the lock. -/
inductive Dispatch
  | listing
  | loaded (r : Except Error IfList)

inductive Holder
  | free
  | owner
  | dispatch (k : Kind) (phase : Dispatch)

/-- Why the registration is dropped. -/
inductive Exit
  /-- The constructor returns `Err`. -/
  | failed (err : Error)
  /-- The initial callback or the first listing panicked, or the lock could not be taken. -/
  | unwinding
  /-- The user drops the handle. -/
  | closed
deriving DecidableEq

/-- Where the owner of the registration is. -/
inductive Pc
  | registering (k : Kind)
  | locking
  | listing
  | loaded (r : Except Error IfList)
  | alive
  /-- About to cancel `k`; `ok` tells whether the cancellations before it succeeded. -/
  | cancelling (k : Kind) (exit : Exit) (ok : Bool)
  /-- A cancellation failed; about to lock and disable the state. -/
  | disabling (exit : Exit)
  /-- About to free the state. -/
  | releasing (exit : Exit)
  | dropped (exit : Exit)
  /-- The drop has panicked, outside of any unwinding. -/
  | dropPanicked (exit : Exit)
  | aborted

structure Machine (T : Type) where
  os : Tracked IfList
  st : T
  poisoned : Bool
  allocated : Bool
  sources : Kind → Source
  holder : Holder
  pc : Pc

namespace Machine
variable {T : Type}

def setSource (m : Machine T) (k : Kind) (source : Source) : Machine T :=
  { m with sources := Function.update m.sources k source }

def setWaiting (m : Machine T) (k : Kind) (waiting : Nat) : Machine T :=
  m.setSource k { m.sources k with waiting }

/-- Nothing that the system has started for `k` is still running. -/
def Idle (m : Machine T) (k : Kind) : Prop :=
  (m.sources k).waiting = 0 ∧ ∀ phase, m.holder ≠ .dispatch k phase

end Machine

/-- Where the drop goes on after the cancellation of `k`. -/
def afterCancel (k : Kind) (exit : Exit) (ok : Bool) : Pc :=
  match k, ok with
  | .unicast, ok => .cancelling .interface exit ok
  | .interface, true => .releasing exit
  | .interface, false => .disabling exit

def afterRegister : Kind → Pc
  | .unicast => .registering .interface
  | .interface => .locking

inductive Label
  | plain
  | cancel (result : Win32Error)
  /-- A notification panics under the lock. -/
  | panics

section
variable {T : Type} (P : Protocol T)

inductive Step : Machine T → Label → Machine T → Prop
  /-- The interfaces change while both functions are registered: a notification will follow. -/
  | change {m : Machine T} (list : IfList) : m.pc ≠ .aborted → (∀ k, (m.sources k).live = true) →
      Step m .plain { m with os := m.os.change list }
  | drift {m : Machine T} {k : Kind} (list : IfList) : m.pc ≠ .aborted → (m.sources k).live = false →
      Step m .plain { m with os := m.os.drift list }
  | notify {m : Machine T} (k : Kind) (changes : Nat) : m.pc ≠ .aborted → (m.sources k).live = true →
      Step m .plain { m.setWaiting k ((m.sources k).waiting + 1) with os := m.os.raise changes }
  | dispatchLock {m : Machine T} {k : Kind} {n : Nat} : m.pc ≠ .aborted →
      (m.sources k).waiting = n + 1 → m.holder = .free → m.poisoned = false →
      Step m .plain { m.setWaiting k n with os := m.os.beginRead, holder := .dispatch k .listing }
  /-- `lock().unwrap()` panics, and `catch_unwind` ends the call. -/
  | dispatchPoisoned {m : Machine T} {k : Kind} {n : Nat} : m.pc ≠ .aborted →
      (m.sources k).waiting = n + 1 → m.holder = .free → m.poisoned = true →
      Step m .plain (m.setWaiting k n)
  | dispatchLoad {m : Machine T} {k : Kind} (r : Except Error IfList) : m.pc ≠ .aborted →
      m.holder = .dispatch k .listing → m.os.Reads r.toOption →
      Step m .plain { m with holder := .dispatch k (.loaded r) }
  | dispatchFail {m : Machine T} {k : Kind} {err : Error} : m.pc ≠ .aborted →
      m.holder = .dispatch k (.loaded (.error err)) → Step m .plain { m with holder := .free }
  | dispatchHandle {m : Machine T} {k : Kind} {list : IfList} {st : T} {result : Except Payload Unit} :
      m.pc ≠ .aborted → m.holder = .dispatch k (.loaded (.ok list)) →
      P.handleNotif m.st list = (st, result) →
      Step m .plain { m with
        st, holder := .free, poisoned := m.poisoned || result.toOption.isNone }
  /-- `list_interfaces` panics. -/
  | dispatchPanics {m : Machine T} {k : Kind} : m.pc ≠ .aborted → m.holder = .dispatch k .listing →
      Step m .panics { m with holder := .free, poisoned := true }
  | dispatchUnwinds {m : Machine T} {k : Kind} {list : IfList} {st : T} : m.pc ≠ .aborted →
      m.holder = .dispatch k (.loaded (.ok list)) → P.unwinds m.st list st →
      Step m .panics { m with st, holder := .free, poisoned := true }
  | register {m : Machine T} {k : Kind} {result : Win32Error} {raw : Nat} {handle : NotificationHandle} :
      m.pc = .registering k → registrationResult result raw = .ok handle →
      Step m .plain { m.setSource k ⟨some handle, false, 0⟩ with pc := afterRegister k }
  | registerFailed {m : Machine T} {k : Kind} {result : Win32Error} {raw : Nat} {err : Error} :
      m.pc = .registering k → registrationResult result raw = .error err →
      Step m .plain { m with pc := .cancelling .unicast (.failed err) true }
  | lock {m : Machine T} : m.pc = .locking → m.holder = .free → m.poisoned = false →
      Step m .plain { m with os := m.os.beginRead, holder := .owner, pc := .listing }
  | lockPoisoned {m : Machine T} : m.pc = .locking → m.holder = .free → m.poisoned = true →
      Step m .plain { m with pc := .cancelling .unicast .unwinding true }
  | load {m : Machine T} (r : Except Error IfList) : m.pc = .listing → m.os.Reads r.toOption →
      Step m .plain { m with pc := .loaded r }
  | listPanicked {m : Machine T} : m.pc = .listing →
      Step m .plain { m with holder := .free, poisoned := true, pc := .cancelling .unicast .unwinding true }
  | listFailed {m : Machine T} {err : Error} : m.pc = .loaded (.error err) →
      Step m .plain { m with holder := .free, pc := .cancelling .unicast (.failed err) true }
  | initialised {m : Machine T} {list : IfList} {st : T} : m.pc = .loaded (.ok list) →
      P.handleInitial m.st list = (st, .ok ()) →
      Step m .plain { m with st, holder := .free, pc := .alive }
  | initialPanicked {m : Machine T} {list : IfList} {st : T} {payload : Payload} :
      m.pc = .loaded (.ok list) → P.handleInitial m.st list = (st, .error payload) →
      Step m .plain { m with
        st, holder := .free, poisoned := true, pc := .cancelling .unicast .unwinding true }
  | outside {m : Machine T} {st : T} : m.pc = .alive → P.outside m.st st → Step m .plain { m with st }
  | close {m : Machine T} : m.pc = .alive →
      Step m .plain { m with pc := .cancelling .unicast .closed true }
  | skip {m : Machine T} {k : Kind} {exit : Exit} {ok : Bool} : m.pc = .cancelling k exit ok →
      (m.sources k).handle = none → Step m .plain { m with pc := afterCancel k exit ok }
  | cancelled {m : Machine T} {k : Kind} {exit : Exit} {ok : Bool} {handle : NotificationHandle}
      {result : Win32Error} : m.pc = .cancelling k exit ok → (m.sources k).handle = some handle →
      handle.cancel result = .ok () → m.Idle k →
      Step m (.cancel result) { m.setSource k { m.sources k with cancelled := true } with
        pc := afterCancel k exit ok }
  | cancelFailed {m : Machine T} {k : Kind} {exit : Exit} {ok : Bool} {handle : NotificationHandle}
      {result : Win32Error} {err : Error} : m.pc = .cancelling k exit ok →
      (m.sources k).handle = some handle → handle.cancel result = .error err →
      Step m (.cancel result) { m with pc := afterCancel k exit false }
  | disable {m : Machine T} {exit : Exit} : m.pc = .disabling exit → m.holder = .free →
      m.poisoned = false → Step m .plain { m with st := P.disable m.st, pc := .dropped exit }
  | abort {m : Machine T} : m.pc = .disabling .unwinding → m.holder = .free → m.poisoned = true →
      Step m .plain { m with pc := .aborted }
  /-- The drop unwinds, and the state it has taken out of its field is freed on the way. -/
  | dropPanic {m : Machine T} {exit : Exit} : m.pc = .disabling exit → exit ≠ .unwinding →
      m.holder = .free → m.poisoned = true →
      Step m .plain { m with allocated := false, pc := .dropPanicked exit }
  | release {m : Machine T} {exit : Exit} : m.pc = .releasing exit →
      Step m .plain { m with allocated := false, pc := .dropped exit }

def system : Sys (Machine T) where
  init m := P.fresh m.st ∧ m.poisoned = false ∧ m.allocated = true ∧
    (∀ k, m.sources k = ⟨none, false, 0⟩) ∧ m.holder = .free ∧ m.pc = .registering .unicast
  step m m' := ∃ label, Step P m label m'

/-- The runs in which no notification panics under the lock. -/
def calm : Sys (Machine T) where
  init := (system P).init
  step m m' := ∃ label, Step P m label m' ∧ label ≠ .panics

variable {P}

theorem reach_of_calm {m : Machine T} (r : Reach (calm P) m) : Reach (system P) m :=
  Reach.inv (S := calm P) (I := Reach (system P)) (fun _ h => .init h)
    (fun _ _ _ h ⟨label, hs, _⟩ => h.step ⟨label, hs⟩) r

/-- Both functions registered, and the first listing taken: there is what `list` says. -/
def listed (list : IfList) (t : T) : Machine T where
  os := ⟨list, 0, false⟩
  st := t
  poisoned := false
  allocated := true
  sources := Function.update (Function.update (fun _ => ⟨none, false, 0⟩) .unicast ⟨some ⟨1⟩, false, 0⟩)
    .interface ⟨some ⟨2⟩, false, 0⟩
  holder := .owner
  pc := .loaded (.ok list)

theorem calm_listed {t : T} (list : IfList) (ht : P.fresh t) : Reach (calm P) (listed list t) := by
  have accepted (raw : Nat) : registrationResult NO_ERROR raw = .ok ⟨raw⟩ := if_pos rfl
  have start : Reach (calm P) { listed list t with
      sources := fun _ => ⟨none, false, 0⟩, holder := .free, pc := .registering .unicast } :=
    .init ⟨ht, rfl, rfl, fun _ => rfl, rfl, rfl⟩
  have unicast := start.step ⟨.plain, Step.register rfl (accepted 1), by simp⟩
  have both := unicast.step ⟨.plain, Step.register rfl (accepted 2), by simp⟩
  have locked := both.step ⟨.plain, Step.lock rfl rfl rfl, by simp⟩
  exact locked.step ⟨.plain, Step.load (.ok list) rfl fun _ => rfl, by simp⟩

/-- And the handle returned, with the state `t` that the first listing has left. -/
def started (list : IfList) (t : T) : Machine T := { listed list t with holder := .free, pc := .alive }

theorem calm_started {t t' : T} (list : IfList) (ht : P.fresh t) (hi : P.handleInitial t list = (t', .ok ())) :
    Reach (calm P) (started list t') :=
  (calm_listed list ht).step ⟨.plain, Step.initialised rfl hi, by simp⟩

/-- An alive watch: of a change to `list` one notification tells, which has listed it. -/
def notified (m : Machine T) (list : IfList) : Machine T :=
  { m with os := ⟨list, 0, false⟩, holder := .dispatch .unicast (.loaded (.ok list)) }

theorem calm_notified {m : Machine T} (r : Reach (calm P) m) (list : IfList) (hpc : m.pc = .alive)
    (hl : ∀ k, (m.sources k).live = true) (hw : (m.sources .unicast).waiting = 0) (ho : m.os.owed = 0)
    (hf : m.holder = .free) (hp : m.poisoned = false) : Reach (calm P) (notified m list) := by
  have ha : m.pc ≠ .aborted := by simp [hpc]
  have changed := r.step ⟨.plain, Step.change list ha hl, by simp⟩
  have raised := changed.step ⟨.plain, Step.notify .unicast 1 ha (hl .unicast), by simp⟩
  have locked := raised.step ⟨.plain, Step.dispatchLock (k := .unicast) (n := 0) ha
    (by simp [Machine.setWaiting, Machine.setSource, hw]) hf hp, by simp⟩
  have loaded := locked.step ⟨.plain, Step.dispatchLoad (.ok list) ha rfl fun _ => rfl, by simp⟩
  have hs : Function.update m.sources .unicast { m.sources .unicast with waiting := 0 } = m.sources := by
    rw [← hw, Function.update_eq_self]
  simpa [notified, Machine.setWaiting, Machine.setSource, Tracked.change, Tracked.raise, Tracked.beginRead, ho,
    hs] using loaded

/-- The watch started at `list`, and that notification of a change to `list'` handled. -/
def renotified (P : Protocol T) (list list' : IfList) (t : T) : Machine T :=
  { started list (P.handleNotif t list').1 with os := ⟨list', 0, false⟩ }

theorem calm_renotified (hP : Lawful P) {t : T} {list : IfList} (r : Reach (calm P) (started list t))
    (list' : IfList) : Reach (calm P) (renotified P list list' t) := by
  have live (k : Kind) : ((started list t).sources k).live = true := by cases k <;> rfl
  have told := calm_notified r list' rfl live rfl rfl rfl rfl
  have handled := told.step ⟨.plain, Step.dispatchHandle (by simp [notified, started]) rfl rfl, by simp⟩
  have hok := hP.notif_ok t list'
  simpa [renotified, notified, started, listed, hok, Except.toOption] using handled

end

/-- A machine on Ethernet, and then on Wi-Fi too. -/
def ethernet : IfList := (∅ : IfList).insert 12 ⟨12, "Ethernet", "", []⟩
def wifi : IfList := ethernet.insert 7 ⟨7, "Wi-Fi", "", []⟩

/-- An asynchronous watch that has yielded `ethernet` and is suspended again, with waker 7. -/
def awaiting : QueuedEnds where
  state := { handleInitialQueuedNotif .new ethernet with queue := ⟨none, some 7⟩ }
  watch := { (QueuedWatch.new .async).digest ethernet with pc := .pending }
  jammed := false

theorem calm_awaiting : Reach (calm queuedWatch) (started ethernet awaiting) := by
  have begun : Reach (calm queuedWatch) (started ethernet
      ⟨handleInitialQueuedNotif .new ethernet, .new .async, false⟩) :=
    calm_started ethernet ⟨.async, rfl⟩ rfl
  have call := begun.step ⟨.plain, Step.outside rfl (.step nofun (.call rfl)), by simp⟩
  have found := call.step ⟨.plain, Step.outside rfl (.step (fun _ => rfl) (.found 7 rfl rfl)), by simp⟩
  have yielded := found.step ⟨.plain, Step.outside rfl (.step nofun (.digest rfl)), by simp⟩
  have again := yielded.step ⟨.plain, Step.outside rfl (.step nofun (.call rfl)), by simp⟩
  exact again.step ⟨.plain, Step.outside rfl (.step (fun _ => rfl) (.empty 7 rfl rfl)), by simp⟩

end Netwatcher.WatchWin
