import Mathlib.Logic.Function.Basic
import Netwatcher.Lib.Runs
import Netwatcher.WatchAndroid.State
/-!
# Every interleaving of the Android watchers (`src/watch_android.rs`)

Any number of clients register watchers, have notifications delivered, call `changed` and drop
their handles, on any threads. One step is one critical section of the state lock, one call of a
user callback outside of it, one push of a notification to one queue, or one step of a consumer. A push
calls the consumer's waker under the state lock (watch_android.rs:401-403); a waker is taken to return, and
so are its clone and drop. A registration takes an id that is left (`HasId`).

| here | there |
| --- | --- |
| `Client` | one call of `register_callback_watcher` or `register_queued_watcher` and the handle it returns |
| `Step.allocate`, `refuseCallback` | watch_android.rs:156-163 |
| `Step.callInitial` | watch_android.rs:166; a panic leaves through `InitialisingCallbackWatcher::drop` (:58) |
| `Step.join`, `behind`, `callNext` | one turn of the loop of `finish_callback_registration` (watch_android.rs:178-192) |
| `Step.registerQueued`, `refuseQueued` | watch_android.rs:195 |
| `Step.leave` | the drop of a handle, or of the guard of a registration that panicked |
| `Step.ignore`, `dispatch`, `push`, `release` | `interfaces_did_change` (watch_android.rs:379) |

`log` records what has been delivered to each watcher, also after its callback is gone.
-/
namespace Netwatcher.WatchAndroid
open Coll Runs

inductive Client
  | absent
  /-- The registration returned `Err`. -/
  | refused (err : Error)
  /-- Has an id; about to call the callback with the initial update. -/
  | initial (id : WatcherId) (list : IfList) (callback : Callback)
  /-- About to lock the state; the callback has been told `list`. -/
  | finishing (id : WatcherId) (list : IfList) (callback : Callback)
  /-- About to call the callback with the diff from `list` to `next`. -/
  | calling (id : WatcherId) (list next : IfList) (callback : Callback)
  /-- The initial callback panicked; the guard has yet to unregister. -/
  | unwinding (id : WatcherId)
  /-- Holds a `WatchHandle`. -/
  | watching (id : WatcherId)
  /-- Holds an `AsyncWatch` or a `BlockingWatch`. -/
  | queued (id : WatcherId) (watch : QueuedWatch)
  /-- The handle or the guard has been dropped. -/
  | gone (id : WatcherId)

/-- Where in the registry a client's id is. -/
inductive Place
  | callback
  | initialising
  | queued
  | nowhere
deriving DecidableEq, Repr

def Client.entry : Client → Option (Place × WatcherId)
  | .absent | .refused _ => none
  | .initial id _ _ | .finishing id _ _ | .calling id _ _ _ | .unwinding id => some (.initialising, id)
  | .watching id => some (.callback, id)
  | .queued id _ => some (.queued, id)
  | .gone id => some (.nowhere, id)

/-- The id whose guard or handle may be dropped now. -/
def Client.leaving : Client → Option WatcherId
  | .unwinding id | .watching id | .queued id _ => some id
  | _ => none

inductive Lock
  | free
  /-- Held by `interfaces_did_change`, with the queues it has yet to push to. -/
  | pushing (queues : List QueueRef)

structure Machine where
  world : World
  /-- The queue of each client that has one. -/
  queues : QueueRef → AsyncCallbackQueue
  clients : Nat → Client
  lock : Lock
  log : WatcherId → List Update

def Machine.state (m : Machine) : State := m.world.state

def Machine.setState (m : Machine) (state : State) : Machine := { m with world := { m.world with state } }

def Machine.setClient (m : Machine) (n : Nat) (client : Client) : Machine :=
  { m with clients := Function.update m.clients n client }

/-- Whatever the registered callbacks have been given by now. -/
def record (log : WatcherId → List Update) (callbacks : HashMap WatcherId Callback) :
    WatcherId → List Update :=
  fun id => match callbacks[id]? with | some callback => callback.delivered | none => log id

/-- Where a registration goes on when its callback, told `list`, comes back or unwinds. -/
def afterCall (id : WatcherId) (list : IfList) (callback : Callback) : Except Payload Unit → Client
  | .ok () => .finishing id list callback
  | .error _ => .unwinding id

inductive Step : Machine → Machine → Prop
  | allocate {m : Machine} {n : Nat} {answers : Answers} {w : World} {id : WatcherId} {list : IfList}
      (callback : FnMut) : m.lock = .free → m.clients n = .absent → m.state.HasId → callback.calls = [] →
      allocateCallbackWatcher answers m.world = (w, .ok (id, list)) →
      Step m ({ m with world := w }.setClient n (.initial id list (.new callback)))
  | refuseCallback {m : Machine} {n : Nat} {answers : Answers} {w : World} {err : Error} :
      m.lock = .free → m.clients n = .absent →
      allocateCallbackWatcher answers m.world = (w, .error err) →
      Step m ({ m with world := w }.setClient n (.refused err))
  | callInitial {m : Machine} {n : Nat} {id : WatcherId} {list : IfList} {callback callback' : Callback}
      {result : Except Payload Unit} : m.clients n = .initial id list callback →
      callback.callInitial list.initialUpdate = (callback', result) →
      Step m ({ m with log := Function.update m.log id callback'.delivered }.setClient n
        (afterCall id list callback' result))
  | join {m : Machine} {n : Nat} {id : WatcherId} {list : IfList} {callback : Callback} {state : State} :
      m.lock = .free → m.clients n = .finishing id list callback →
      finishIteration m.state id list callback = (state, none) →
      Step m ((m.setState state).setClient n (.watching id))
  | behind {m : Machine} {n : Nat} {id : WatcherId} {list next : IfList} {callback : Callback}
      {state : State} : m.lock = .free → m.clients n = .finishing id list callback →
      finishIteration m.state id list callback = (state, some next) →
      Step m ((m.setState state).setClient n (.calling id list next callback))
  | callNext {m : Machine} {n : Nat} {id : WatcherId} {list next : IfList} {callback callback' : Callback}
      {result : Except Payload Unit} : m.clients n = .calling id list next callback →
      callback.callFromNotification (next.updateFrom list) = (callback', result) →
      Step m ({ m with log := Function.update m.log id callback'.delivered }.setClient n
        (afterCall id next callback' result))
  | registerQueued {m : Machine} {n : Nat} {answers : Answers} {w : World} {queue : AsyncCallbackQueue}
      {id : WatcherId} (kind : WatchKind) : m.lock = .free → m.clients n = .absent → m.state.HasId →
      registerQueuedWatcher answers m.world n emptyAsyncCallbackQueue = (w, queue, .ok id) →
      Step m ({ m with world := w, queues := Function.update m.queues n queue }.setClient n
        (.queued id (.new kind)))
  | refuseQueued {m : Machine} {n : Nat} {answers : Answers} {w : World} {queue : AsyncCallbackQueue}
      {err : Error} : m.lock = .free → m.clients n = .absent →
      registerQueuedWatcher answers m.world n emptyAsyncCallbackQueue = (w, queue, .error err) →
      Step m ({ m with world := w }.setClient n (.refused err))
  | leave {m : Machine} {n : Nat} {id : WatcherId} (stop : StopOutcome) :
      m.lock = .free → (m.clients n).leaving = some id →
      Step m ({ m with world := unregisterWatcher stop id m.world }.setClient n (.gone id))
  | ignore {m : Machine} {listing : Except Error IfList} {visited : List (WatcherId × Callback)}
      {state : State} : m.lock = .free → visited.Perm m.state.callbackWatchers.iter →
      interfacesDidChange listing visited m.state = (state, .ok false) → Step m (m.setState state)
  | dispatch {m : Machine} {listing : Except Error IfList} {visited : List (WatcherId × Callback)}
      {queues : List QueueRef} {state : State} : m.lock = .free →
      visited.Perm m.state.callbackWatchers.iter →
      queues.Perm (m.state.queuedWatchers.iter.map Prod.snd) →
      interfacesDidChange listing visited m.state = (state, .ok true) →
      Step m { m.setState state with
        lock := .pushing queues
        log := record m.log state.callbackWatchers }
  | push {m : Machine} {ref : QueueRef} {rest : List QueueRef} : m.lock = .pushing (ref :: rest) →
      Step m { m with
        lock := .pushing rest
        queues := Function.update m.queues ref
          (pushAsyncList (m.queues ref) m.state.currentInterfaces).1 }
  | release {m : Machine} : m.lock = .pushing [] → Step m { m with lock := .free }
  | consume {m : Machine} {n : Nat} {id : WatcherId} {watch watch' : QueuedWatch}
      {queue : AsyncCallbackQueue} : m.clients n = .queued id watch →
      WatchStep (m.queues n, watch) (queue, watch') →
      Step m ({ m with queues := Function.update m.queues n queue }.setClient n (.queued id watch'))

/-- Nobody has registered, and the Java side has never been asked for anything. -/
def system : Sys Machine where
  init m := m.world = ⟨initState, ⟨0, ∅, 0, false⟩⟩ ∧ (∀ n, m.clients n = .absent) ∧
    m.lock = .free ∧ (∀ id, m.log id = [])
  step := Step

end Netwatcher.WatchAndroid
