import Netwatcher.WatchAndroid.Queued
import Netwatcher.WatchWin.Served
/-!
# Queued watches lose no final list

The two platforms that queue lists share `async_callback.rs` and the consumers; their producers
differ. `EndServed` is what the consumer of either may rely on.

| platform | producer | its list |
| --- | --- | --- |
| Windows | `dispatch_queued_notif` (watch_win.rs:322) | `QueuedWatchState.current_list` |
| Android | `interfaces_did_change` (watch_android.rs:379) | `State.current_interfaces` |
-/
namespace Netwatcher
open Coll Runs

/-- The consumer end of a producer at `cur`; `pushed` once the initial push has been made. -/
structure EndServed (pushed : Prop) (cur : IfList) (queue : AsyncCallbackQueue) (watch : QueuedWatch) :
    Prop where
  /-- A list in the mailbox is the producer's. -/
  latest : ∀ list, queue.latest = some list → list = cur
  /-- An empty mailbox, and nothing taken out of it: the cursor is at the producer's list. -/
  caughtUp : pushed → queue.latest = none → (∀ list, watch.pc ≠ .taken list) → watch.cursor.prevList = cur
  initial : ∀ i (hi : i < watch.yielded.length), watch.yielded[i].isInitial = true ↔ i = 0
  follows : ∀ i (hi : i + 1 < watch.yielded.length), Follows watch.yielded[i] watch.yielded[i + 1]

theorem QueueOk.served {cur : IfList} {queue : AsyncCallbackQueue} {watch : QueuedWatch}
    (h : QueueOk cur (queue, watch)) (pushed : Prop) : EndServed pushed cur queue watch where
  latest _ hq := h.latest_eq hq
  caughtUp _ hq hw := h.caughtUp hq hw
  initial _ hi := h.linked.1.isInitial_iff hi
  follows _ hi := h.linked.1.follows hi

/-- Before the initial push. -/
theorem EndServed.fresh (cur : IfList) (kind : WatchKind) :
    EndServed False cur emptyAsyncCallbackQueue (.new kind) where
  latest := nofun
  caughtUp := False.elim
  initial _ hi := absurd hi (Nat.not_lt_zero _)
  follows _ hi := absurd hi (Nat.not_lt_zero _)

/-- On Windows a push and the change of the list are one critical section. -/
theorem WatchWin.EndsOk.served {ends : WatchWin.QueuedEnds} (h : WatchWin.EndsOk ends) :
    EndServed (ends.state.initialising = false) ends.state.currentList ends.state.queue ends.watch := by
  cases hi : ends.state.initialising with
  | false => exact (h.pushed hi).served _
  | true =>
    obtain ⟨hq, kind, hw⟩ := h.fresh hi
    rw [hq, hw]
    simpa using EndServed.fresh ends.state.currentList kind

/-- **Queued watches lose no final list**: on Windows in every reachable state, on Android in every one
in which the lock is free. -/
theorem queued_watches_served :
    (∀ m, Reach (WatchWin.system WatchWin.queuedWatch) m →
      EndServed (m.st.state.initialising = false) m.st.state.currentList m.st.state.queue m.st.watch) ∧
    (∀ m, Reach WatchAndroid.system m → m.lock = .free →
      ∀ n id watch, m.clients n = .queued id watch →
        EndServed True m.state.currentInterfaces (m.queues n) watch) :=
  ⟨fun _ r => (WatchWin.endsOk r).served, fun _ r hl _ _ _ hn => (WatchAndroid.queueOk r hl hn).served True⟩

/-- A Windows queued watch whose second list waits in the mailbox. -/
def queuedTold : WatchWin.Machine WatchWin.QueuedEnds :=
  WatchWin.renotified WatchWin.queuedWatch WatchWin.ethernet WatchWin.wifi WatchWin.awaiting

theorem queued_watches_served_told :
    (EndServed (queuedTold.st.state.initialising = false) queuedTold.st.state.currentList
        queuedTold.st.state.queue queuedTold.st.watch ∧
      queuedTold.st.state.initialising = false ∧ queuedTold.st.state.queue.latest = some WatchWin.wifi ∧
      queuedTold.st.watch.yielded = [WatchWin.ethernet.initialUpdate]) ∧
    EndServed True (WatchAndroid.firstTold WatchAndroid.wlan0).state.currentInterfaces
        ((WatchAndroid.firstTold WatchAndroid.wlan0).queues 0) (.new .async) ∧
      ((WatchAndroid.firstTold WatchAndroid.wlan0).queues 0).latest = some WatchAndroid.wlan0 := by
  have told := WatchWin.calm_renotified WatchWin.queuedWatch_lawful WatchWin.calm_awaiting WatchWin.wifi
  have windows := queued_watches_served.1 queuedTold (WatchWin.reach_of_calm told)
  have first : Reach WatchAndroid.system (WatchAndroid.firstTold WatchAndroid.wlan0) :=
    WatchAndroid.reach_firstTold (by decide)
  have android := queued_watches_served.2 _ first rfl 0 1 (.new .async) rfl
  exact ⟨⟨windows, rfl, rfl, rfl⟩, android, rfl⟩

end Netwatcher
