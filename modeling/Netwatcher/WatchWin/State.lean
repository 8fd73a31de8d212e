import Netwatcher.AsyncCallback
import Netwatcher.Callback
/-!
# The Windows watch states (`src/watch_win.rs`)

| here | there |
| --- | --- |
| `registrationResult`, `NotificationHandle.cancel` | watch_win.rs:265, :36 |
| `WatchState`, `handleInitialNotif`, `handleNotif` | watch_win.rs:122, :337, :346 |
| `QueuedWatchState`, `handleInitialQueuedNotif`, `handleQueuedNotif` | watch_win.rs:139, :367, :356 |
| `Protocol` | what `register_notifications` and the dispatch functions are generic in |
| `callbackWatch`, `queuedWatch` | `watch_interfaces_with_callback` (:191), `register_queued_watcher` (:232) |

`Lawful` lists what the shared registration code needs of either state: a state that is initialising
or disabled ignores notifications, and one that has been initialised has the list it was last given.
-/
namespace Netwatcher.WatchWin
open Coll

abbrev Win32Error := UInt32

def NO_ERROR : Win32Error := 0
def ERROR_INVALID_HANDLE : Win32Error := 6
def ERROR_NOT_ENOUGH_MEMORY : Win32Error := 8
def ERROR_INVALID_PARAMETER : Win32Error := 87

/-- `NotificationHandle(HANDLE)`. -/
structure NotificationHandle where
  handle : Nat
deriving DecidableEq, Repr

/-- `result` is what `CancelMibChangeNotify2` returned. -/
def NotificationHandle.cancel (_ : NotificationHandle) (result : Win32Error) : Except Error Unit :=
  if result = NO_ERROR then .ok () else .error (.unexpectedWindowsResult result)

def registrationResult (result : Win32Error) (handle : Nat) : Except Error NotificationHandle :=
  if result = NO_ERROR then .ok ⟨handle⟩
  else if result = ERROR_INVALID_HANDLE then .error .invalidHandle
  else if result = ERROR_INVALID_PARAMETER then .error .invalidParameter
  else if result = ERROR_NOT_ENOUGH_MEMORY then .error .notEnoughMemory
  else .error (.unexpectedWindowsResult result)

/-! ## The callback watch -/

structure WatchState where
  cursor : UpdateCursor
  callback : Callback
  initialising : Bool
  disabled : Bool

namespace WatchState

def new (callback : FnMut) : WatchState where
  cursor := .default
  callback := .new callback
  initialising := true
  disabled := false

def disable (self : WatchState) : WatchState := { self with disabled := true }

end WatchState

def handleInitialNotif (state : WatchState) (newList : IfList) : WatchState × Except Payload Unit :=
  match state.cursor.advance newList with
  | (cursor, none) => ({ state with cursor }, .error .plain)
  | (cursor, some update) =>
    match state.callback.callInitial update with
    | (callback, .error payload) => ({ state with cursor, callback }, .error payload)
    | (callback, .ok ()) => ({ state with cursor, callback, initialising := false }, .ok ())

def handleNotif (state : WatchState) (newList : IfList) : WatchState × Except Payload Unit :=
  if state.initialising || state.disabled then (state, .ok ())
  else
    match state.cursor.advance newList with
    | (cursor, none) => ({ state with cursor }, .ok ())
    | (cursor, some update) =>
      let (callback, result) := state.callback.callFromNotification update
      ({ state with cursor, callback }, result)

/-! ## The queued watch -/

structure QueuedWatchState where
  currentList : IfList
  /-- What is behind the shared queue. -/
  queue : AsyncCallbackQueue
  initialising : Bool
  disabled : Bool

namespace QueuedWatchState

def new : QueuedWatchState where
  currentList := ∅
  queue := emptyAsyncCallbackQueue
  initialising := true
  disabled := false

def disable (self : QueuedWatchState) : QueuedWatchState := { self with disabled := true }

end QueuedWatchState

def handleQueuedNotif (state : QueuedWatchState) (newList : IfList) : QueuedWatchState :=
  if state.initialising || state.disabled then state
  else if newList = state.currentList then state
  else { state with currentList := newList, queue := (pushAsyncList state.queue newList).1 }

def handleInitialQueuedNotif (state : QueuedWatchState) (newList : IfList) : QueuedWatchState :=
  { state with
    currentList := newList
    queue := (pushAsyncList state.queue newList).1
    initialising := false }

/-- A queued state and the `AsyncWatch` or `BlockingWatch` at the other end of its queue. -/
structure QueuedEnds where
  state : QueuedWatchState
  watch : QueuedWatch
  /-- The mutex of the queue is poisoned. -/
  jammed : Bool

/-- What the user does with the watch. On a poisoned queue the `lock().unwrap()` of a poll or of a
blocking call panics, and the call is over. -/
inductive QueuedEnds.Consumes : QueuedEnds → QueuedEnds → Prop
  | step {ends : QueuedEnds} {queue : AsyncCallbackQueue} {watch : QueuedWatch} :
      (ends.watch.pc = .looking → ends.jammed = false) →
      WatchStep (ends.state.queue, ends.watch) (queue, watch) →
      Consumes ends { ends with state := { ends.state with queue }, watch }
  | panics {ends : QueuedEnds} : ends.watch.pc = .looking → ends.jammed = true →
      Consumes ends { ends with watch := { ends.watch with pc := .idle } }

/-- `waker.wake()` panics under both mutexes (async_callback.rs:41): the list has been stored, and
`notify_one` is not reached. With the state's mutex poisoned too there is no push after that. -/
def QueuedEnds.Jams (ends : QueuedEnds) (list : IfList) (ends' : QueuedEnds) : Prop :=
  ends.state.initialising = false ∧ ends.state.disabled = false ∧ list ≠ ends.state.currentList ∧
    (pushAsyncList ends.state.queue list).2.isSome = true ∧
    ends' = { ends with state := handleQueuedNotif ends.state list, jammed := true }

/-! ## What both have in common -/

structure Protocol (T : Type) where
  /-- The state a registration starts from. -/
  fresh : T → Prop
  handleInitial : T → IfList → T × Except Payload Unit
  handleNotif : T → IfList → T × Except Payload Unit
  /-- A notification that has listed this panics under the lock, and leaves this state. -/
  unwinds : T → IfList → T → Prop
  disable : T → T
  /-- What the user of the handle does beside the lock. -/
  outside : T → T → Prop
  initialising : T → Bool
  disabled : T → Bool
  /-- The list the state was last given. -/
  view : T → IfList

def callbackWatch : Protocol WatchState where
  fresh state := ∃ callback : FnMut, callback.calls = [] ∧ state = .new callback
  handleInitial := handleInitialNotif
  handleNotif := handleNotif
  unwinds _ _ _ := False
  disable := WatchState.disable
  outside _ _ := False
  initialising := WatchState.initialising
  disabled := WatchState.disabled
  view state := state.cursor.prevList

def queuedWatch : Protocol QueuedEnds where
  fresh ends := ∃ kind, ends = ⟨.new, .new kind, false⟩
  handleInitial ends list := ({ ends with state := handleInitialQueuedNotif ends.state list }, .ok ())
  -- as long as the waker of the push returns, else `unwinds`
  handleNotif ends list := ({ ends with state := handleQueuedNotif ends.state list }, .ok ())
  unwinds := QueuedEnds.Jams
  disable ends := { ends with state := ends.state.disable }
  outside := QueuedEnds.Consumes
  initialising ends := ends.state.initialising
  disabled ends := ends.state.disabled
  view ends := ends.state.currentList

/-- Initialised and not disabled. -/
def Protocol.running {T : Type} (P : Protocol T) (t : T) : Prop :=
  P.initialising t = false ∧ P.disabled t = false

structure Lawful {T : Type} (P : Protocol T) : Prop where
  fresh_flags : ∀ t, P.fresh t → P.initialising t = true ∧ P.disabled t = false
  initial_ok : ∀ t l t', P.fresh t → P.handleInitial t l = (t', .ok ()) → P.running t' ∧ P.view t' = l
  notif_ok : ∀ t l, (P.handleNotif t l).2 = .ok ()
  notif_ignored : ∀ t l, P.initialising t = true ∨ P.disabled t = true → (P.handleNotif t l).1 = t
  notif_running : ∀ t l, P.running t → P.running (P.handleNotif t l).1 ∧ P.view (P.handleNotif t l).1 = l
  unwinds_running : ∀ t l t', P.unwinds t l t' → P.running t ∧ P.running t'
  disable_disabled : ∀ t, P.disabled (P.disable t) = true
  outside_same : ∀ t t', P.outside t t' → P.initialising t' = P.initialising t ∧
    P.disabled t' = P.disabled t ∧ P.view t' = P.view t

theorem handleInitialNotif_ok {state state' : WatchState} {list : IfList}
    (h : handleInitialNotif state list = (state', .ok ())) :
    state'.initialising = false ∧ state'.disabled = state.disabled ∧ state'.cursor.prevList = list := by
  have hp := state.cursor.advance_prevList list
  unfold handleInitialNotif at h
  split at h
  · exact absurd (Prod.mk.inj h).2 (by simp)
  · rename_i cursor update hadv
    rw [hadv] at hp
    split at h
    · exact absurd (Prod.mk.inj h).2 (by simp)
    · obtain rfl := (Prod.mk.inj h).1
      exact ⟨rfl, rfl, hp⟩

/-- A notification of a running watch: the cursor takes the list, whatever the callback does. -/
theorem handleNotif_running {state : WatchState} (hi : state.initialising = false)
    (hd : state.disabled = false) (list : IfList) :
    (handleNotif state list).1.initialising = false ∧ (handleNotif state list).1.disabled = false ∧
      (handleNotif state list).1.cursor = (state.cursor.advance list).1 := by
  unfold handleNotif
  simp only [hi, hd, Bool.or_self, Bool.false_eq_true, if_false]
  split <;> rename_i h <;> simp [h]

theorem callbackWatch_lawful : Lawful callbackWatch where
  fresh_flags := by rintro _ ⟨f, -, rfl⟩; exact ⟨rfl, rfl⟩
  initial_ok := by
    rintro _ l t' ⟨f, -, rfl⟩ h
    change handleInitialNotif (.new f) l = (t', .ok ()) at h
    obtain ⟨hi, hd, hv⟩ := handleInitialNotif_ok h
    exact ⟨⟨hi, hd⟩, hv⟩
  notif_ok t l := by
    change (handleNotif t l).2 = .ok ()
    unfold handleNotif
    split
    · rfl
    · split
      · rfl
      · exact Callback.callFromNotification_ok _ _
  notif_ignored t l h := by
    change t.initialising = true ∨ t.disabled = true at h
    change (handleNotif t l).1 = t
    rw [handleNotif, if_pos (by simpa using h)]
  notif_running t l h := by
    obtain ⟨hi, hd, hc⟩ := handleNotif_running h.1 h.2 l
    exact ⟨⟨hi, hd⟩, (congrArg UpdateCursor.prevList hc).trans (UpdateCursor.advance_prevList _ _)⟩
  unwinds_running _ _ _ h := h.elim
  disable_disabled _ := rfl
  outside_same _ _ h := h.elim

/-- A notification of a running watch. -/
theorem handleQueuedNotif_running {state : QueuedWatchState} (hi : state.initialising = false)
    (hd : state.disabled = false) (list : IfList) :
    (handleQueuedNotif state list).initialising = false ∧ (handleQueuedNotif state list).disabled = false ∧
      (handleQueuedNotif state list).currentList = list := by
  have hno : ¬ (state.initialising || state.disabled) = true := by simp [hi, hd]
  rw [handleQueuedNotif, if_neg hno]
  split
  · rename_i hl
    exact ⟨hi, hd, hl.symm⟩
  · exact ⟨hi, hd, rfl⟩

theorem queuedWatch_lawful : Lawful queuedWatch where
  fresh_flags := by rintro _ ⟨kind, rfl⟩; exact ⟨rfl, rfl⟩
  initial_ok := by
    rintro _ l t' ⟨kind, rfl⟩ h
    obtain rfl := (Prod.mk.inj h).1
    exact ⟨⟨rfl, rfl⟩, rfl⟩
  notif_ok _ _ := rfl
  notif_ignored t l h := by
    change t.state.initialising = true ∨ t.state.disabled = true at h
    change ({ t with state := handleQueuedNotif t.state l } : QueuedEnds) = t
    rw [handleQueuedNotif, if_pos (by simpa using h)]
  notif_running t l h := by
    obtain ⟨hi, hd, hl⟩ := handleQueuedNotif_running h.1 h.2 l
    exact ⟨⟨hi, hd⟩, hl⟩
  unwinds_running t l t' h := by
    obtain ⟨hi, hd, -, -, rfl⟩ := h
    obtain ⟨hi', hd', -⟩ := handleQueuedNotif_running hi hd l
    exact ⟨⟨hi, hd⟩, hi', hd'⟩
  disable_disabled _ := rfl
  outside_same t t' h := by
    cases h <;> exact ⟨rfl, rfl, rfl⟩

end Netwatcher.WatchWin
