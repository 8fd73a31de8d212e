import Mathlib.Data.Finset.Max
import Netwatcher.AsyncCallback
import Netwatcher.Callback
/-!
# The Android watcher registry (`src/watch_android.rs`)

The functions of the source, each as what it does to the shared `State` while it holds the lock,
and to the Java side. What the platform decides (whether the Java object could be started and
stopped, what a listing returns, in which order a hash map is visited) is a parameter.

| here | there |
| --- | --- |
| `State`, `hasWatchers` | watch_android.rs:22, :32 |
| `SupportObject`, `Java` | `NetwatcherSupportAndroid` objects and their network callbacks (java/../NetwatcherSupportAndroid.java) |
| `startJavaWatching`, `stopJavaWatching` | watch_android.rs:258, :357 |
| `initialiseJavaWatching`, `unregisterWatcher` | watch_android.rs:235, :206 |
| `allocateCallbackWatcher` | the first block of `register_callback_watcher` (watch_android.rs:156-163) |
| `finishIteration` | the locked block of `finish_callback_registration` (watch_android.rs:179-187) |
| `registerQueuedWatcher` | watch_android.rs:195 |
| `interfacesDidChange` | watch_android.rs:379, up to the loop of pushes |

`WatcherId` is a `Nat`, and an id is given out while `HasId`: the `usize` counter has not come to its end.
`STATE` starts as `init_state` leaves it, which `interfaces_did_change` cannot tell from `STATE` not being set.
-/
namespace Netwatcher.WatchAndroid
open Coll

abbrev WatcherId := Nat
/-- Which `Arc` a `SharedAsyncCallbackQueue` is. -/
abbrev QueueRef := Nat

structure SupportObject where
  id : Nat
  /-- Whether `getSystemService` found a `ConnectivityManager`. -/
  connectivityManager : Bool
deriving DecidableEq, Repr

structure State where
  callbackWatchers : HashMap WatcherId Callback
  initialisingCallbackWatchers : Finset WatcherId
  queuedWatchers : HashMap WatcherId QueueRef
  currentInterfaces : IfList
  nextWatcherId : WatcherId
  javaSupport : Option SupportObject

def initState : State where
  callbackWatchers := ∅
  initialisingCallbackWatchers := ∅
  queuedWatchers := ∅
  currentInterfaces := ∅
  nextWatcherId := 1
  javaSupport := none

def State.hasWatchers (self : State) : Bool :=
  !self.callbackWatchers.isEmpty || self.initialisingCallbackWatchers.Nonempty ||
    !self.queuedWatchers.isEmpty

/-- `next_watcher_id += 1` does not overflow. -/
def State.HasId (self : State) : Prop := self.nextWatcherId + 1 < USize.size

/-! ## The Java side -/

structure Java where
  /-- How many support objects there have been. -/
  created : Nat
  /-- Those whose network callback is registered. -/
  subscribed : Finset SupportObject
  /-- The most that were registered at one time. -/
  peak : Nat
  /-- A stop failed, or a failed start left a registered callback behind. -/
  faulted : Bool

namespace Java

def startInterfaceWatch (self : Java) (object : SupportObject) : Java :=
  if object.connectivityManager then
    let subscribed := insert object self.subscribed
    { self with subscribed, peak := max self.peak subscribed.card }
  else self

def stopInterfaceWatch (self : Java) (object : SupportObject) : Java :=
  { self with subscribed := self.subscribed.erase object }

/-- `new_object`. -/
def newObject (self : Java) (connectivityManager : Bool) : Java × SupportObject :=
  ({ self with created := self.created + 1 }, ⟨self.created, connectivityManager⟩)

end Java

inductive StartOutcome
  | started (connectivityManager : Bool)
  | failed (err : Error) (leftBehind : Bool)

inductive StopOutcome
  | stopped
  | failed (err : Error) (stillSubscribed : Bool)

structure World where
  state : State
  java : Java

def startJavaWatching (start : StartOutcome) (w : World) : World × Except Error Unit :=
  match start with
  | .started connectivityManager =>
    let (java, supportObject) := w.java.newObject connectivityManager
    ({ state := { w.state with javaSupport := some supportObject }
       java := java.startInterfaceWatch supportObject }, .ok ())
  | .failed err false => (w, .error err)
  | .failed err true =>
    let (java, supportObject) := w.java.newObject true
    ({ w with java := { java.startInterfaceWatch supportObject with faulted := true } }, .error err)

def stopJavaWatching (stop : StopOutcome) (supportObject : SupportObject) (java : Java) :
    Java × Except Error Unit :=
  match stop with
  | .stopped => (java.stopInterfaceWatch supportObject, .ok ())
  | .failed err true => ({ java with faulted := true }, .error err)
  | .failed err false => ({ java.stopInterfaceWatch supportObject with faulted := true }, .error err)

/-- `if let Some(..) = state.java_support { let _ = stop_java_watching(..) }`, then `None`. -/
def releaseJavaSupport (stop : StopOutcome) (w : World) : World where
  state := { w.state with javaSupport := none }
  java :=
    match w.state.javaSupport with
    | some supportObject => (stopJavaWatching stop supportObject w.java).1
    | none => w.java

/-! ## Registration and removal -/

/-- What the platform answers in one locked section. -/
structure Answers where
  start : StartOutcome
  listing : Except Error IfList
  stop : StopOutcome

def initialiseJavaWatching (answers : Answers) (w : World) : World × Except Error Unit :=
  if w.state.hasWatchers then (w, .ok ())
  else
    match startJavaWatching answers.start w with
    | (w, .error err) => (w, .error err)
    | (w, .ok ()) =>
      match answers.listing with
      | .ok currentInterfaces => ({ w with state := { w.state with currentInterfaces } }, .ok ())
      | .error err => (releaseJavaSupport answers.stop w, .error err)

def allocateCallbackWatcher (answers : Answers) (w : World) : World × Except Error (WatcherId × IfList) :=
  match initialiseJavaWatching answers w with
  | (w, .error err) => (w, .error err)
  | (w, .ok ()) =>
    let id := w.state.nextWatcherId
    let state := { w.state with
      nextWatcherId := id + 1
      initialisingCallbackWatchers := insert id w.state.initialisingCallbackWatchers }
    ({ w with state }, .ok (id, state.currentInterfaces))

/-- `none`: the watcher has joined; otherwise the list it has yet to be told about. -/
def finishIteration (state : State) (id : WatcherId) (currentList : IfList) (callback : Callback) :
    State × Option IfList :=
  if state.currentInterfaces = currentList then
    ({ state with
        initialisingCallbackWatchers := state.initialisingCallbackWatchers.erase id
        callbackWatchers := state.callbackWatchers.insert id callback }, none)
  else (state, some state.currentInterfaces)

def registerQueuedWatcher (answers : Answers) (w : World) (ref : QueueRef) (queue : AsyncCallbackQueue) :
    World × AsyncCallbackQueue × Except Error WatcherId :=
  match initialiseJavaWatching answers w with
  | (w, .error err) => (w, queue, .error err)
  | (w, .ok ()) =>
    let id := w.state.nextWatcherId
    let (queue, _) := pushAsyncList queue w.state.currentInterfaces
    ({ w with state := { w.state with
        nextWatcherId := id + 1
        queuedWatchers := w.state.queuedWatchers.insert id ref } }, queue, .ok id)

/-- The three maps without `id`. -/
def State.remove (self : State) (id : WatcherId) : State :=
  { self with
    callbackWatchers := self.callbackWatchers.erase id
    initialisingCallbackWatchers := self.initialisingCallbackWatchers.erase id
    queuedWatchers := self.queuedWatchers.erase id }

def unregisterWatcher (stop : StopOutcome) (id : WatcherId) (w : World) : World :=
  let w := { w with state := w.state.remove id }
  if !w.state.hasWatchers then releaseJavaSupport stop w else w

/-! ## Notifications -/

/-- `visited` is the order of `values_mut()`. The result tells whether the loop of pushes is
reached, unless the dispatch unwinds. -/
def interfacesDidChange (listing : Except Error IfList) (visited : List (WatcherId × Callback))
    (state : State) : State × Except Payload Bool :=
  if !state.hasWatchers then (state, .ok false)
  else
    match listing with
    | .error _ => (state, .ok false)
    | .ok newList =>
      if newList = state.currentInterfaces then (state, .ok false)
      else
        let update :=
          if !state.callbackWatchers.isEmpty then some (newList.updateFrom state.currentInterfaces)
          else none
        let state := { state with currentInterfaces := newList }
        match update with
        | none => (state, .ok true)
        | some update =>
          let (callbacks, result) := dispatchCallbacks (visited.map Prod.snd) update
          ({ state with callbackWatchers := HashMap.setValues visited callbacks },
            result.map fun () => true)

/-! ## What each of them does -/

theorem hasWatchers_iff (state : State) : state.hasWatchers = true ↔
    (∃ (id : WatcherId) (c : Callback), state.callbackWatchers[id]? = some c) ∨
    (∃ id, id ∈ state.initialisingCallbackWatchers) ∨
    ∃ (id : WatcherId) (q : QueueRef), state.queuedWatchers[id]? = some q := by
  simp only [State.hasWatchers, Bool.or_eq_true, Bool.not_eq_true', decide_eq_true_eq,
    HashMap.isEmpty_eq_false_iff, or_assoc]
  exact Iff.rfl

/-- The subscriptions a support object stands for. -/
def held : Option SupportObject → Finset SupportObject
  | some o => if o.connectivityManager then {o} else ∅
  | none => ∅

/-- Unless a stop or a failed start went wrong, the subscription is that of `java_support`, and
there has never been another one beside it. -/
def JavaOk (w : World) : Prop :=
  w.java.faulted = false → w.java.subscribed = held w.state.javaSupport ∧ w.java.peak ≤ 1

theorem JavaOk.startJavaWatching {w : World} (h : JavaOk w) (hn : w.state.javaSupport = none)
    (start : StartOutcome) : JavaOk (startJavaWatching start w).1 := by
  unfold WatchAndroid.startJavaWatching
  split
  · rename_i cm
    intro hf
    cases cm with
    | false =>
      obtain ⟨hs, hp⟩ := h hf
      rw [hn] at hs
      exact ⟨hs, hp⟩
    | true =>
      obtain ⟨hs, hp⟩ := h hf
      rw [hn] at hs
      simp only [Java.startInterfaceWatch, Java.newObject, hs, held, if_true]
      exact ⟨rfl, by simpa using hp⟩
  · exact h
  · exact fun hf => nomatch hf

theorem JavaOk.releaseJavaSupport {w : World} (h : JavaOk w) (stop : StopOutcome) :
    JavaOk (releaseJavaSupport stop w) := by
  intro hf
  unfold WatchAndroid.releaseJavaSupport at hf ⊢
  cases ho : w.state.javaSupport with
  | none =>
    simp only [ho] at hf ⊢
    have := h hf
    rwa [ho] at this
  | some o =>
    simp only [ho] at hf ⊢
    unfold stopJavaWatching at hf ⊢
    split at hf
    · obtain ⟨hs, hp⟩ := h hf
      refine ⟨?_, hp⟩
      rw [ho] at hs
      simp only [Java.stopInterfaceWatch, hs, held]
      cases o.connectivityManager <;> simp
    · cases hf
    · cases hf

/-- The three ways out: watchers exist already, the first one starts the Java side and lists, or
something failed and the state is as it was. -/
theorem initialiseJavaWatching_cases {w : World} (answers : Answers)
    (hs : w.state.javaSupport.isSome = w.state.hasWatchers) :
    (w.state.hasWatchers = true ∧ initialiseJavaWatching answers w = (w, .ok ())) ∨
    (w.state.hasWatchers = false ∧ ∃ supportObject list java,
      initialiseJavaWatching answers w = (⟨{ w.state with
        javaSupport := some supportObject
        currentInterfaces := list }, java⟩, .ok ())) ∨
    (w.state.hasWatchers = false ∧ ∃ err java,
      initialiseJavaWatching answers w = (⟨w.state, java⟩, .error err)) := by
  unfold initialiseJavaWatching
  cases hw : w.state.hasWatchers with
  | true => simp
  | false =>
    have hn : w.state.javaSupport = none := by simpa [hw] using hs
    simp only [Bool.false_eq_true, if_false, startJavaWatching, false_and, true_and, false_or]
    cases answers.start with
    | failed err left => cases left <;> exact .inr ⟨err, _, rfl⟩
    | started cm =>
      cases answers.listing with
      | ok list => exact .inl ⟨_, list, _, rfl⟩
      | error err => exact .inr ⟨err, _, by simp only [releaseJavaSupport, ← hn]; rfl⟩

/-- What a registration goes on from. -/
structure Initialised (w w' : World) : Prop where
  callbackWatchers : w'.state.callbackWatchers = w.state.callbackWatchers
  initialising : w'.state.initialisingCallbackWatchers = w.state.initialisingCallbackWatchers
  queuedWatchers : w'.state.queuedWatchers = w.state.queuedWatchers
  nextWatcherId : w'.state.nextWatcherId = w.state.nextWatcherId
  support : w'.state.javaSupport.isSome = true
  /-- Only the first watcher takes a new snapshot. -/
  current : w.state.hasWatchers = true → w'.state.currentInterfaces = w.state.currentInterfaces

theorem initialised_of_ok {w w' : World} {answers : Answers}
    (hs : w.state.javaSupport.isSome = w.state.hasWatchers)
    (h : initialiseJavaWatching answers w = (w', .ok ())) : Initialised w w' := by
  rcases initialiseJavaWatching_cases answers hs with ⟨hw, he⟩ | ⟨hw, o, l, j, he⟩ | ⟨hw, err, j, he⟩
  · obtain ⟨rfl, -⟩ := Prod.mk.inj (he.symm.trans h)
    exact ⟨rfl, rfl, rfl, rfl, hs.trans hw, fun _ => rfl⟩
  · obtain ⟨rfl, -⟩ := Prod.mk.inj (he.symm.trans h)
    exact ⟨rfl, rfl, rfl, rfl, rfl, fun hw' => absurd (hw.symm.trans hw') (by simp)⟩
  · exact absurd (Prod.mk.inj (he.symm.trans h)).2 (by simp)

/-- A failed start or listing leaves the state as it was. -/
theorem state_eq_of_error {w w' : World} {answers : Answers} {err : Error}
    (hs : w.state.javaSupport.isSome = w.state.hasWatchers)
    (h : initialiseJavaWatching answers w = (w', .error err)) : w'.state = w.state := by
  rcases initialiseJavaWatching_cases answers hs with ⟨hw, he⟩ | ⟨hw, o, l, j, he⟩ | ⟨hw, e, j, he⟩
  · exact absurd (Prod.mk.inj (he.symm.trans h)).2 (by simp)
  · exact absurd (Prod.mk.inj (he.symm.trans h)).2 (by simp)
  · rw [← (Prod.mk.inj (he.symm.trans h)).1]

theorem allocateCallbackWatcher_error {w w' : World} {answers : Answers} {err : Error}
    (h : allocateCallbackWatcher answers w = (w', .error err)) :
    initialiseJavaWatching answers w = (w', .error err) := by
  unfold allocateCallbackWatcher at h
  split at h
  · rename_i he; rw [he, (Prod.mk.inj h).1, Except.error.inj (Prod.mk.inj h).2]
  · exact absurd (Prod.mk.inj h).2 (by simp)

theorem allocateCallbackWatcher_ok {w w' : World} {answers : Answers} {id : WatcherId} {list : IfList}
    (h : allocateCallbackWatcher answers w = (w', .ok (id, list))) :
    ∃ w₁, initialiseJavaWatching answers w = (w₁, .ok ()) ∧ id = w₁.state.nextWatcherId ∧
      list = w₁.state.currentInterfaces ∧ w' = { w₁ with state := { w₁.state with
        nextWatcherId := id + 1
        initialisingCallbackWatchers := insert id w₁.state.initialisingCallbackWatchers } } := by
  unfold allocateCallbackWatcher at h
  split at h
  · exact absurd (Prod.mk.inj h).2 (by simp)
  · rename_i w₁ he
    obtain ⟨rfl, hr⟩ := Prod.mk.inj h
    obtain ⟨rfl, rfl⟩ := Prod.mk.inj (Except.ok.inj hr)
    exact ⟨w₁, he, rfl, rfl, rfl⟩

theorem registerQueuedWatcher_error {w w' : World} {answers : Answers} {ref : QueueRef}
    {q q' : AsyncCallbackQueue} {err : Error}
    (h : registerQueuedWatcher answers w ref q = (w', q', .error err)) :
    initialiseJavaWatching answers w = (w', .error err) ∧ q' = q := by
  unfold registerQueuedWatcher at h
  split at h
  · rename_i he
    simp only [Prod.mk.injEq, Except.error.injEq] at h
    obtain ⟨rfl, rfl, rfl⟩ := h
    exact ⟨he, rfl⟩
  · exact absurd (Prod.mk.inj (Prod.mk.inj h).2).2 (by simp)

theorem registerQueuedWatcher_ok {w w' : World} {answers : Answers} {ref : QueueRef}
    {q q' : AsyncCallbackQueue} {id : WatcherId}
    (h : registerQueuedWatcher answers w ref q = (w', q', .ok id)) :
    ∃ w₁, initialiseJavaWatching answers w = (w₁, .ok ()) ∧ id = w₁.state.nextWatcherId ∧
      q' = (pushAsyncList q w₁.state.currentInterfaces).1 ∧ w' = { w₁ with state := { w₁.state with
        nextWatcherId := id + 1
        queuedWatchers := w₁.state.queuedWatchers.insert id ref } } := by
  unfold registerQueuedWatcher at h
  split at h
  · exact absurd (Prod.mk.inj (Prod.mk.inj h).2).2 (by simp)
  · rename_i w₁ he
    simp only [Prod.mk.injEq, Except.ok.injEq] at h
    obtain ⟨rfl, rfl, rfl⟩ := h
    exact ⟨w₁, he, rfl, rfl, rfl⟩

theorem JavaOk.initialiseJavaWatching {w : World} (h : JavaOk w)
    (hs : w.state.javaSupport.isSome = w.state.hasWatchers) (answers : Answers) :
    JavaOk (initialiseJavaWatching answers w).1 := by
  unfold WatchAndroid.initialiseJavaWatching
  cases hw : w.state.hasWatchers with
  | true => simpa using h
  | false =>
    have hn : w.state.javaSupport = none := by simpa [hw] using hs
    have hstart := h.startJavaWatching hn answers.start
    simp only [Bool.false_eq_true, if_false]
    split
    · rename_i heq; rw [heq] at hstart; exact hstart
    · rename_i heq
      rw [heq] at hstart
      cases answers.listing with
      | ok list => exact hstart
      | error err => exact hstart.releaseJavaSupport answers.stop

theorem hasWatchers_of_remove {state : State} {id : WatcherId} (h : (state.remove id).hasWatchers = true) :
    state.hasWatchers = true := by
  rw [hasWatchers_iff] at h ⊢
  simp only [State.remove, HashMap.getElem?_erase, Finset.mem_erase] at h
  rcases h with ⟨k, c, hc⟩ | ⟨k, -, hk⟩ | ⟨k, q, hq⟩
  · exact .inl ⟨k, c, by split at hc <;> first | exact hc | cases hc⟩
  · exact .inr (.inl ⟨k, hk⟩)
  · exact .inr (.inr ⟨k, q, by split at hq <;> first | exact hq | cases hq⟩)

/-- The last watcher to go takes the Java side with it, and no other. -/
theorem unregisterWatcher_state (stop : StopOutcome) (id : WatcherId) (w : World) :
    (unregisterWatcher stop id w).state = { w.state.remove id with
      javaSupport := if (w.state.remove id).hasWatchers then w.state.javaSupport else none } := by
  unfold unregisterWatcher
  cases h : (w.state.remove id).hasWatchers <;> simp [h, releaseJavaSupport]
  rfl

theorem JavaOk.unregisterWatcher {w : World} (h : JavaOk w) (stop : StopOutcome) (id : WatcherId) :
    JavaOk (unregisterWatcher stop id w) := by
  unfold WatchAndroid.unregisterWatcher
  have h' : JavaOk { w with state := w.state.remove id } := h
  dsimp only
  split
  · exact h'.releaseJavaSupport stop
  · exact h'

/-- The watcher has been told the current list, and joins. -/
theorem finishIteration_joined {state state' : State} {id : WatcherId} {list : IfList} {callback : Callback}
    (h : finishIteration state id list callback = (state', none)) :
    state.currentInterfaces = list ∧ state' = { state with
      initialisingCallbackWatchers := state.initialisingCallbackWatchers.erase id
      callbackWatchers := state.callbackWatchers.insert id callback } := by
  unfold finishIteration at h
  split at h
  · rename_i hcur
    exact ⟨hcur, (Prod.mk.inj h).1.symm⟩
  · exact absurd (Prod.mk.inj h).2 (by simp)

/-- It has not, and is given that list to catch up with. -/
theorem finishIteration_behind {state state' : State} {id : WatcherId} {list next : IfList}
    {callback : Callback} (h : finishIteration state id list callback = (state', some next)) :
    state' = state ∧ next = state.currentInterfaces ∧ next ≠ list := by
  unfold finishIteration at h
  split at h
  · exact absurd (Prod.mk.inj h).2 (by simp)
  · rename_i hne
    obtain ⟨rfl, hnext⟩ := Prod.mk.inj h
    obtain rfl := Option.some.inj hnext
    exact ⟨rfl, rfl, hne⟩

/-- Nothing happens, or every callback has been given the one diff and the pushes are still to come. -/
theorem interfacesDidChange_cases (listing : Except Error IfList) {visited : List (WatcherId × Callback)}
    {state : State} (hv : visited.Perm state.callbackWatchers.iter) :
    interfacesDidChange listing visited state = (state, .ok false) ∨
    ∃ newList callbacks, newList ≠ state.currentInterfaces ∧
      interfacesDidChange listing visited state =
        ({ state with currentInterfaces := newList, callbackWatchers := callbacks }, .ok true) ∧
      ∀ id : WatcherId, callbacks[id]? = state.callbackWatchers[id]?.map
        (·.callFromNotification (newList.updateFrom state.currentInterfaces) |>.1) := by
  unfold interfacesDidChange
  cases state.hasWatchers with
  | false => exact .inl rfl
  | true =>
    cases listing with
    | error err => exact .inl rfl
    | ok newList =>
      by_cases hl : newList = state.currentInterfaces
      · exact .inl (by simp [hl])
      · right
        cases he : state.callbackWatchers.isEmpty with
        | true =>
          refine ⟨newList, state.callbackWatchers, hl, by simp [hl], ?_⟩
          intro id
          rw [Std.ExtTreeMap.isEmpty_iff.1 he]
          simp
        | false =>
          refine ⟨newList, HashMap.setValues visited ((visited.map Prod.snd).map
            (·.callFromNotification (newList.updateFrom state.currentInterfaces) |>.1)), hl, ?_,
            fun id => HashMap.getElem?_setValues_map hv _ id⟩
          simp [hl, dispatchCallbacks_eq, Except.map]

theorem interfacesDidChange_ignored {listing : Except Error IfList} {visited : List (WatcherId × Callback)}
    {state state' : State} (hv : visited.Perm state.callbackWatchers.iter)
    (h : interfacesDidChange listing visited state = (state', .ok false)) : state' = state := by
  rcases interfacesDidChange_cases listing hv with he | ⟨_, _, _, he, _⟩
  · exact (Prod.mk.inj (h.symm.trans he)).1
  · exact absurd (Prod.mk.inj (h.symm.trans he)).2 (by simp)

theorem interfacesDidChange_dispatched {listing : Except Error IfList}
    {visited : List (WatcherId × Callback)} {state state' : State}
    (hv : visited.Perm state.callbackWatchers.iter)
    (h : interfacesDidChange listing visited state = (state', .ok true)) :
    ∃ newList callbacks, newList ≠ state.currentInterfaces ∧
      state' = { state with currentInterfaces := newList, callbackWatchers := callbacks } ∧
      ∀ id : WatcherId, callbacks[id]? = state.callbackWatchers[id]?.map
        (·.callFromNotification (newList.updateFrom state.currentInterfaces) |>.1) := by
  rcases interfacesDidChange_cases listing hv with he | ⟨newList, callbacks, hne, he, hget⟩
  · exact absurd (Prod.mk.inj (h.symm.trans he)).2 (by simp)
  · exact ⟨newList, callbacks, hne, (Prod.mk.inj (h.symm.trans he)).1, hget⟩

end Netwatcher.WatchAndroid
