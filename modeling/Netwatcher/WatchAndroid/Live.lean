import Netwatcher.Lib.Refresh
import Netwatcher.WatchAndroid.Registry
/-!
# The Android watchers and the interfaces they watch (`src/watch_android.rs`)

`Machine` takes whatever a listing returns. `Live` puts the system's interfaces beside it: a listing
is a read that takes time under the state lock, a change made while the network callback is registered
is followed by a call of `netwatcherInterfacesDidChange`, and that call waits for the lock.

| here | there |
| --- | --- |
| `Reader.first`    | `initialise_java_watching` between `start_java_watching` and the end of the listing (watch_android.rs:242-247) |
| `Reader.notified` | `interfaces_did_change` between the lock and the end of the listing (watch_android.rs:383-389) |
| `waiting`         | calls of `interfaces_did_change` that have not got the lock yet |
| `subscribed`      | a `NetworkCallback` is registered (java/../NetwatcherSupportAndroid.java) |

What is assumed of the platform: a change made while a network callback is registered is followed by
one of its four notifications. Nothing is assumed of a support object without a `ConnectivityManager`,
nor of callbacks that a failed stop left behind: their notifications are spurious ones.
-/
namespace Netwatcher.WatchAndroid
open Coll Runs Refresh

/-- Where a listing under the state lock is. -/
inductive Reading
  | listing
  | loaded (r : Except Error IfList)

/-- Who has the state lock and is listing. -/
inductive Reader
  | nobody
  /-- The first registration, made by client `n`. -/
  | first (n : Nat) (connectivityManager : Bool) (reading : Reading)
  | notified (reading : Reading)

structure Live where
  machine : Machine
  os : Tracked IfList
  waiting : Nat
  reader : Reader

/-- `java_support` holds an object with a registered network callback. -/
def State.subscribed (self : State) : Bool := self.javaSupport.any (·.connectivityManager)

namespace Live

/-- `startInterfaceWatch` comes before the first listing. -/
def subscribed (self : Live) : Bool :=
  match self.reader with
  | .first _ connectivityManager _ => connectivityManager
  | _ => self.machine.state.subscribed

/-- The state lock can be taken. -/
def Unlocked (self : Live) : Prop := self.machine.lock = .free ∧ self.reader = .nobody

/-- The machine steps and nobody is listing any more. The last watcher to go takes with it what it
was owed. -/
def go (self : Live) (m : Machine) : Live where
  machine := m
  os := if m.state.hasWatchers then self.os else self.os.raise self.os.owed
  waiting := self.waiting
  reader := .nobody

end Live

/-- The steps that need no lock: user code, and the consumers. -/
inductive Beside : Machine → Machine → Prop
  | callInitial {m : Machine} {n : Nat} {id : WatcherId} {list : IfList} {callback callback' : Callback}
      {result : Except Payload Unit} : m.clients n = .initial id list callback →
      callback.callInitial list.initialUpdate = (callback', result) →
      Beside m ({ m with log := Function.update m.log id callback'.delivered }.setClient n
        (afterCall id list callback' result))
  | callNext {m : Machine} {n : Nat} {id : WatcherId} {list next : IfList} {callback callback' : Callback}
      {result : Except Payload Unit} : m.clients n = .calling id list next callback →
      callback.callFromNotification (next.updateFrom list) = (callback', result) →
      Beside m ({ m with log := Function.update m.log id callback'.delivered }.setClient n
        (afterCall id next callback' result))
  | consume {m : Machine} {n : Nat} {id : WatcherId} {watch watch' : QueuedWatch}
      {queue : AsyncCallbackQueue} : m.clients n = .queued id watch →
      WatchStep (m.queues n, watch) (queue, watch') →
      Beside m ({ m with queues := Function.update m.queues n queue }.setClient n (.queued id watch'))

theorem Beside.step {m m' : Machine} (h : Beside m m') : Step m m' := by
  cases h with
  | callInitial hn hc => exact .callInitial hn hc
  | callNext hn hc => exact .callNext hn hc
  | consume hn hw => exact .consume hn hw

/-- What the steps that need no lock leave alone. -/
theorem Beside.frame {m m' : Machine} (h : Beside m m') : m'.world = m.world ∧ m'.lock = m.lock ∧
    ∀ n, m.clients n = .absent → m'.clients n = .absent := by
  have set {k : Nat} {c : Client} (hk : m.clients k ≠ .absent) (n : Nat) (hn : m.clients n = .absent) :
      Function.update m.clients k c n = .absent := by
    have hne : n ≠ k := by rintro rfl; exact hk hn
    rw [Function.update_of_ne hne, hn]
  cases h with
  | callInitial hn hc => exact ⟨rfl, rfl, set (by simp [hn])⟩
  | callNext hn hc => exact ⟨rfl, rfl, set (by simp [hn])⟩
  | consume hn hw => exact ⟨rfl, rfl, set (by simp [hn])⟩

/-- No listing, or one that is not used. -/
def Unlisted (m m' : Machine) : Prop :=
  m'.state.currentInterfaces = m.state.currentInterfaces ∧
    (m'.state.hasWatchers = true → m.state.hasWatchers = true)

inductive LiveStep : Live → Live → Prop
  /-- The interfaces change, and a notification will follow. -/
  | change {l : Live} (list : IfList) : l.subscribed = true → LiveStep l { l with os := l.os.change list }
  | drift {l : Live} (list : IfList) : l.subscribed = false → LiveStep l { l with os := l.os.drift list }
  /-- A notification that follows `changes` of the past changes. -/
  | notify {l : Live} (changes : Nat) :
      LiveStep l { l with os := l.os.raise changes, waiting := l.waiting + 1 }
  | enter {l : Live} {k : Nat} : l.Unlocked → l.waiting = k + 1 → l.machine.state.hasWatchers = true →
      LiveStep l { l with os := l.os.beginRead, waiting := k, reader := .notified .listing }
  /-- `if !state.has_watchers() { return; }`. -/
  | enterIdle {l : Live} {k : Nat} : l.Unlocked → l.waiting = k + 1 →
      l.machine.state.hasWatchers = false → LiveStep l { l with waiting := k }
  | load {l : Live} (r : Except Error IfList) : l.reader = .notified .listing → l.os.Reads r.toOption →
      LiveStep l { l with reader := .notified (.loaded r) }
  | ignore {l : Live} {r : Except Error IfList} {visited : List (WatcherId × Callback)} {state : State} :
      l.reader = .notified (.loaded r) → visited.Perm l.machine.state.callbackWatchers.iter →
      interfacesDidChange r visited l.machine.state = (state, .ok false) →
      LiveStep l (l.go (l.machine.setState state))
  | dispatch {l : Live} {r : Except Error IfList} {visited : List (WatcherId × Callback)}
      {queues : List QueueRef} {state : State} : l.reader = .notified (.loaded r) →
      visited.Perm l.machine.state.callbackWatchers.iter →
      queues.Perm (l.machine.state.queuedWatchers.iter.map Prod.snd) →
      interfacesDidChange r visited l.machine.state = (state, .ok true) →
      LiveStep l (l.go { l.machine.setState state with
        lock := .pushing queues
        log := record l.machine.log state.callbackWatchers })
  /-- `start_java_watching` has succeeded. -/
  | startFirst {l : Live} {n : Nat} (connectivityManager : Bool) : l.Unlocked →
      l.machine.clients n = .absent → l.machine.state.hasWatchers = false →
      LiveStep l { l with os := l.os.beginRead, reader := .first n connectivityManager .listing }
  | loadFirst {l : Live} {n : Nat} {cm : Bool} (r : Except Error IfList) :
      l.reader = .first n cm .listing → l.os.Reads r.toOption →
      LiveStep l { l with reader := .first n cm (.loaded r) }
  | allocateFirst {l : Live} {n : Nat} {cm : Bool} {r : Except Error IfList} {stop : StopOutcome}
      {w : World} {id : WatcherId} {list : IfList} (callback : FnMut) :
      l.reader = .first n cm (.loaded r) → l.machine.state.HasId → callback.calls = [] →
      allocateCallbackWatcher ⟨.started cm, r, stop⟩ l.machine.world = (w, .ok (id, list)) →
      LiveStep l (l.go ({ l.machine with world := w }.setClient n (.initial id list (.new callback))))
  | queueFirst {l : Live} {n : Nat} {cm : Bool} {r : Except Error IfList} {stop : StopOutcome}
      {w : World} {queue : AsyncCallbackQueue} {id : WatcherId} (kind : WatchKind) :
      l.reader = .first n cm (.loaded r) → l.machine.state.HasId →
      registerQueuedWatcher ⟨.started cm, r, stop⟩ l.machine.world n emptyAsyncCallbackQueue =
        (w, queue, .ok id) →
      LiveStep l (l.go ({ l.machine with
        world := w, queues := Function.update l.machine.queues n queue }.setClient n
          (.queued id (.new kind))))
  /-- Whichever kind of watcher it was to be. -/
  | refuseFirst {l : Live} {n : Nat} {cm : Bool} {r : Except Error IfList} {stop : StopOutcome}
      {w : World} {err : Error} : l.reader = .first n cm (.loaded r) →
      allocateCallbackWatcher ⟨.started cm, r, stop⟩ l.machine.world = (w, .error err) →
      LiveStep l (l.go ({ l.machine with world := w }.setClient n (.refused err)))
  | beside {l : Live} {m : Machine} : Beside l.machine m → LiveStep l { l with machine := m }
  /-- Everything else, by whoever may take the lock or has it. -/
  | other {l : Live} {m : Machine} : l.reader = .nobody → Step l.machine m → Unlisted l.machine m →
      LiveStep l (l.go m)

def liveSystem : Sys Live where
  init l := system.init l.machine ∧ l.waiting = 0 ∧ l.reader = .nobody
  step := LiveStep

end Netwatcher.WatchAndroid
