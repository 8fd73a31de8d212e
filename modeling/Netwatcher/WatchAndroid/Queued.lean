import Netwatcher.WatchAndroid.Registry
/-!
# Android queued watchers lose no final state (`src/watch_android.rs`)

While `interfaces_did_change` is pushing, the queues it has not reached yet are behind
`current_interfaces`; every other queue refines a mailbox whose producer is at that list.
-/
namespace Netwatcher.WatchAndroid
open Coll Runs

/-- The queues that a notification in progress has not reached yet. -/
def Lock.owes : Lock → QueueRef → Prop
  | .free, _ => False
  | .pushing queues, ref => ref ∈ queues

/-- What holds of a consumer end, whether or not its push is still to come. -/
structure EndOk (m : Machine) (n : Nat) (watch : QueuedWatch) : Prop where
  some : ∃ list, QueueOk list (m.queues n, watch)
  current : ¬ m.lock.owes n → QueueOk m.state.currentInterfaces (m.queues n, watch)

def QueuesOk (m : Machine) : Prop := ∀ n id watch, m.clients n = .queued id watch → EndOk m n watch

section
variable {m m' : Machine} {n : Nat}

theorem EndOk.of_current {watch : QueuedWatch}
    (h : QueueOk m.state.currentInterfaces (m.queues n, watch)) : EndOk m n watch :=
  ⟨⟨_, h⟩, fun _ => h⟩

/-- Client `n` moves to something that is no queued watch; the list and the queues stay. -/
theorem QueuesOk.setClient (h : QueuesOk m) {c : Client} (hclients : m'.clients = Function.update m.clients n c)
    (hc : ∀ id watch, c ≠ .queued id watch) (hlock : m'.lock = m.lock) (hqueues : m'.queues = m.queues)
    (hcur : ∀ k id watch, m.clients k = .queued id watch →
      m'.state.currentInterfaces = m.state.currentInterfaces) : QueuesOk m' := by
  intro k id watch hk
  rw [hclients, Function.update_apply] at hk
  split at hk
  · exact absurd hk (hc id watch)
  · have he := h k id watch hk
    exact ⟨hqueues ▸ he.some, fun hl => by rw [hcur k id watch hk, hqueues]; exact he.current (hlock ▸ hl)⟩

/-- Nothing a queue depends on has changed. -/
theorem QueuesOk.same (h : QueuesOk m) (hclients : m'.clients = m.clients) (hlock : m'.lock = m.lock)
    (hqueues : m'.queues = m.queues) (hcur : m'.state.currentInterfaces = m.state.currentInterfaces) :
    QueuesOk m' := by
  intro k id watch hk
  have he := h k id watch (hclients ▸ hk)
  exact ⟨hqueues ▸ he.some, fun hl => by rw [hcur, hqueues]; exact he.current (hlock ▸ hl)⟩

/-- Once there is a queued watcher, a new registration does not touch the snapshot. -/
theorem Registry.current_of_queued (hr : Registry m.entries m.world) {w : World}
    (hi : Initialised m.world w) {k : Nat} {id : WatcherId} {watch : QueuedWatch}
    (hk : m.clients k = .queued id watch) : w.state.currentInterfaces = m.state.currentInterfaces := by
  have he : m.entries k = some (.queued, id) := entries_eq hk
  exact hi.current (hr.hasWatchers_of ⟨_, he, by simp⟩)

/-- One step of anybody. -/
theorem QueuesOk.step (h : QueuesOk m) (hr : Registry m.entries m.world) (hs : Step m m') :
    QueuesOk m' := by
  cases hs with
  | @allocate n answers w id list callback hl hn hid hcalls ha =>
    obtain ⟨w₁, hi, rfl, -, rfl⟩ := allocateCallbackWatcher_ok ha
    refine h.setClient rfl (by simp) rfl rfl ?_
    intro k id' watch hk
    have hcur := hr.current_of_queued (hr.initialised hi).1 hk
    exact hcur
  | @refuseCallback n answers w err hl hn ha =>
    have hw := state_eq_of_error hr.support (allocateCallbackWatcher_error ha)
    exact h.setClient rfl (by simp) rfl rfl fun _ _ _ _ => congrArg State.currentInterfaces hw
  | @callInitial n id list c c' r hn hc =>
    exact h.setClient rfl (by cases r <;> simp [afterCall]) rfl rfl fun _ _ _ _ => rfl
  | @join n id list c state hl hn hf =>
    refine h.setClient rfl (by simp) rfl rfl ?_
    intro _ _ _ _
    obtain ⟨-, rfl⟩ := finishIteration_joined hf
    rfl
  | @behind n id list next c state hl hn hf =>
    refine h.setClient rfl (by simp) rfl rfl ?_
    intro _ _ _ _
    obtain ⟨rfl, -⟩ := finishIteration_behind hf
    rfl
  | @callNext n id list next c c' r hn hc =>
    exact h.setClient rfl (by cases r <;> simp [afterCall]) rfl rfl fun _ _ _ _ => rfl
  | @registerQueued n answers w queue id kind hl hn hid ha =>
    obtain ⟨w₁, hi, rfl, rfl, rfl⟩ := registerQueuedWatcher_ok ha
    intro k id' watch hk
    simp only [Machine.setClient, Function.update_apply] at hk
    split at hk
    · rename_i hkn
      cases hk
      subst hkn
      refine EndOk.of_current ?_
      simp only [Machine.setClient, Function.update_self]
      exact .new kind _ _
    · rename_i hkn
      have he := (h k id' watch hk).current (by simp [hl, Lock.owes])
      refine EndOk.of_current ?_
      simp only [Machine.setClient, Function.update_of_ne hkn]
      exact (hr.current_of_queued (hr.initialised hi).1 hk).symm ▸ he
  | @refuseQueued n answers w queue err hl hn ha =>
    have hw := state_eq_of_error hr.support (registerQueuedWatcher_error ha).1
    exact h.setClient rfl (by simp) rfl rfl fun _ _ _ _ => congrArg State.currentInterfaces hw
  | @leave n id stop hl hn =>
    refine h.setClient rfl (by simp) rfl rfl ?_
    intro _ _ _ _
    simp [Machine.state, Machine.setClient, unregisterWatcher_state, State.remove]
  | @ignore listing visited state hl hv hi =>
    obtain rfl := interfacesDidChange_ignored hv hi
    exact h.same rfl rfl rfl rfl
  | @dispatch listing visited queues state hl hv hq hi =>
    intro k id watch hk
    have he := h k id watch hk
    refine ⟨he.some, fun howes => absurd ?_ howes⟩
    -- every queued watcher is in the list of pushes to come
    have hmem : m.state.queuedWatchers[id]? = some k :=
      (hr.queued id k).2 (by simp only [Machine.entries]; rw [show m.clients k = _ from hk]; rfl)
    exact hq.mem_iff.2 (List.mem_map.2 ⟨(id, k), HashMap.mem_iter.2 hmem, rfl⟩)
  | @push ref rest hl =>
    intro k id watch hk
    have he := h k id watch hk
    by_cases hkr : k = ref
    · subst hkr
      obtain ⟨list, ho⟩ := he.some
      refine EndOk.of_current ?_
      simp only [Function.update_self]
      exact ho.push _
    · refine ⟨?_, fun howes => ?_⟩ <;> simp only [Function.update_of_ne hkr]
      · exact he.some
      · exact he.current (by simpa [hl, Lock.owes, hkr] using howes)
  | release hl =>
    intro k id watch hk
    have he := h k id watch hk
    exact ⟨he.some, fun _ => he.current (by simp [hl, Lock.owes])⟩
  | @consume n id watch watch' queue hn hw =>
    intro k id' watch₁ hk
    simp only [Machine.setClient, Function.update_apply] at hk
    split at hk
    · rename_i hkn
      cases hk
      subst hkn
      have he := h k id watch hn
      refine ⟨?_, fun hl => ?_⟩ <;> simp only [Machine.setClient, Function.update_self]
      · obtain ⟨list, ho⟩ := he.some
        exact ⟨list, ho.watchStep hw⟩
      · exact (he.current hl).watchStep hw
    · rename_i hkn
      have he := h k id' watch₁ hk
      refine ⟨?_, fun hl => ?_⟩ <;> simp only [Machine.setClient, Function.update_of_ne hkn]
      · exact he.some
      · exact he.current hl

theorem queuesOk (r : Reach system m) : QueuesOk m := by
  refine r.inv (I := QueuesOk) ?_ fun _ _ r h hs => h.step (registry r) hs
  intro m hm n id watch hn
  rw [hm.2.1 n] at hn
  cases hn

/-- **Each queue refines a mailbox** of `current_interfaces` while nobody holds the lock. -/
theorem queueOk (r : Reach system m) (hl : m.lock = .free) {id : WatcherId} {watch : QueuedWatch}
    (hn : m.clients n = .queued id watch) : QueueOk m.state.currentInterfaces (m.queues n, watch) :=
  (queuesOk r n id watch hn).current (by simp [hl, Lock.owes])

end

/-- The interfaces have changed to `list` since the first watcher registered, and it has been told. -/
def firstTold (list : IfList) : Machine :=
  { (firstQueued true).setState { (firstQueued true).state with currentInterfaces := list } with
    queues := Function.update (firstQueued true).queues 0 (pushAsyncList ⟨some ∅, none⟩ list).1 }

theorem firstQueued_told {list : IfList} (h : list ≠ ∅) :
    interfacesDidChange (.ok list) [] (firstQueued true).state =
      ({ (firstQueued true).state with currentInterfaces := list }, .ok true) := by
  have hw : (firstQueued true).state.hasWatchers = true := rfl
  have hcur : (firstQueued true).state.currentInterfaces = ∅ := rfl
  have he : (firstQueued true).state.callbackWatchers.isEmpty = true := rfl
  simp [interfacesDidChange, hw, hcur, he, h]

theorem reach_firstTold {list : IfList} (h : list ≠ ∅) : Reach system (firstTold list) := by
  have pushing := (reach_firstQueued true).step
    (@Step.dispatch _ _ _ [0] _ rfl (.refl _) (.refl _) (firstQueued_told h))
  exact (pushing.step (Step.push rfl)).step (Step.release rfl)

end Netwatcher.WatchAndroid
