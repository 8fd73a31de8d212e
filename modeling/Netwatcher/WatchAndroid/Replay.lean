import Netwatcher.Replay
import Netwatcher.WatchAndroid.History
import Netwatcher.WatchAndroid.Queued
/-!
# Android clients that work by diffs alone (`src/watch_android.rs`)

`current_interfaces` is taken from listings, callbacks are told what is in its history, and the
queues are pushed what it is at the time.
-/
namespace Netwatcher.WatchAndroid
open Coll Runs

/-- The snapshot is one that `list_interfaces` returns. -/
def Lists (m : Machine) : Prop := ListUnix.Returns (.ok m.state.currentInterfaces)

theorem Lists.wf {m : Machine} (h : Lists m) : m.state.currentInterfaces.WF := h.proper _ rfl

/-! ## Callbacks -/

theorem history_wf {m : Machine} (r : Reach (system.restrict Lists) m) :
    ∃ bs, Trace system snapshots bs m ∧ ∀ l ∈ bs, l.WF := by
  induction r with
  | init h => exact ⟨[], .init h.1, nofun⟩
  | @step m m' r h ih =>
    obtain ⟨bs, t, hbs⟩ := ih
    refine ⟨_, t.step h.1, ?_⟩
    intro l hl
    rcases List.mem_append.1 hl with hl | hl
    · exact hbs l hl
    · unfold snapshots at hl
      split at hl
      · cases hl
      · rw [List.mem_singleton.1 hl]
        exact h.2.wf

theorem log_wf {m : Machine} (r : Reach (system.restrict Lists) m) (id : WatcherId) :
    ∀ u ∈ m.log id, u.interfaces.WF := by
  obtain ⟨bs, t, hbs⟩ := history_wf r
  intro u hu
  rcases List.mem_cons.1 (((recorded t).sublist id).subset (List.mem_map_of_mem hu)) with he | hmem
  · rw [he]
    exact wf_empty
  · exact hbs _ hmem

/-! ## Queues -/

def QueuesOf (m : Machine) : Prop :=
  ∀ n id watch, m.clients n = .queued id watch → EndOf IfList.WF (m.queues n, watch)

section
variable {m m' : Machine}

/-- The queues stay, and client `n` moves to something that is no queued watch. -/
theorem QueuesOf.setClient (h : QueuesOf m) {n : Nat} {c : Client}
    (hclients : m'.clients = Function.update m.clients n c) (hc : ∀ id watch, c ≠ .queued id watch)
    (hqueues : m'.queues = m.queues) : QueuesOf m' := by
  intro k id watch hk
  rw [hclients, Function.update_apply] at hk
  split at hk
  · exact absurd hk (hc id watch)
  · exact hqueues ▸ h k id watch hk

/-- One consumer end is replaced. -/
theorem QueuesOf.setEnd (h : QueuesOf m) {n : Nat} {id : WatcherId} {queue : AsyncCallbackQueue}
    {watch : QueuedWatch} (hclients : m'.clients = Function.update m.clients n (.queued id watch))
    (hqueues : m'.queues = Function.update m.queues n queue) (he : EndOf IfList.WF (queue, watch)) :
    QueuesOf m' := by
  intro k id' watch' hk
  rw [hclients, Function.update_apply] at hk
  rw [hqueues, Function.update_apply]
  split at hk
  · rename_i hkn
    cases hk
    rw [if_pos hkn]
    exact he
  · rename_i hkn
    rw [if_neg hkn]
    exact h k id' watch' hk

theorem QueuesOf.step (h : QueuesOf m) (hm : Lists m) (hm' : Lists m') (hs : Step m m') : QueuesOf m' := by
  cases hs with
  | allocate callback hl hn hid hcalls ha => exact h.setClient rfl (by simp) rfl
  | refuseCallback hl hn ha => exact h.setClient rfl (by simp) rfl
  | @callInitial n id list c c' r hn hc => exact h.setClient rfl (by cases r <;> simp [afterCall]) rfl
  | join hl hn hf => exact h.setClient rfl (by simp) rfl
  | behind hl hn hf => exact h.setClient rfl (by simp) rfl
  | @callNext n id list next c c' r hn hc => exact h.setClient rfl (by cases r <;> simp [afterCall]) rfl
  | @registerQueued n answers w queue id kind hl hn hid ha =>
    obtain ⟨w₁, -, -, rfl, rfl⟩ := registerQueuedWatcher_ok ha
    exact h.setEnd rfl rfl (EndOf.push (q := emptyAsyncCallbackQueue)
      (.new kind (by simp [emptyAsyncCallbackQueue])) hm'.wf)
  | refuseQueued hl hn ha => exact h.setClient rfl (by simp) rfl
  | leave stop hl hn => exact h.setClient rfl (by simp) rfl
  | ignore hl hv hi => exact h
  | dispatch hl hv hq hi => exact h
  | @push ref rest hl =>
    intro k id watch hk
    have he := h k id watch hk
    change EndOf IfList.WF (Function.update m.queues ref _ k, watch)
    rw [Function.update_apply]
    split
    · rename_i hkr
      subst hkr
      exact he.push hm.wf
    · exact he
  | release hl => exact h
  | @consume n id watch watch' queue hn hw => exact h.setEnd rfl rfl ((h n id watch hn).step hw)

theorem queuesOf (r : Reach (system.restrict Lists) m) : QueuesOf m := by
  refine r.restrict_inv (I := QueuesOf) ?_ fun _ _ _ hm h hs hm' => h.step hm hm' hs
  intro m hm _ n id watch hn
  rw [hm.2.1 n] at hn
  cases hn

end

/-- **The updates of every Android watch can be followed by diffs**, whatever the OS reports in the
listings. -/
theorem android_byDiffs :
    (∀ m, Reach (system.restrict Lists) m → ∀ id, ByDiffs (m.log id)) ∧
    (∀ m, Reach (system.restrict Lists) m → ∀ n id watch, m.clients n = .queued id watch →
      ByDiffs watch.yielded) := by
  refine ⟨?_, ?_⟩
  · intro m r id
    exact ((chain r.restrict.1).unbroken id).byDiffs (log_wf r id)
  · intro m r n id watch hn
    obtain ⟨list, hq⟩ := (queuesOk r.restrict.1 n id watch hn).some
    exact hq.linked.1.byDiffs (queuesOf r n id watch hn).yielded

/-- `if_nametoindex` on the device of `wlan0` and `rmnet0`. -/
def indexOf (name : String) : Except String UInt32 := .ok (if name = "wlan0" then 3 else 5)

theorem returns_empty : ListUnix.Returns (.ok ∅) := ⟨ListUnix.sortedOrder, indexOf, .ok [], rfl⟩

theorem returns_wlan0 : ListUnix.Returns (.ok wlan0) :=
  ⟨ListUnix.sortedOrder, indexOf, .ok [⟨"wlan0", ListUnix.iffUp, none, none⟩], rfl⟩

theorem returns_rmnet0 : ListUnix.Returns (.ok rmnet0) :=
  ⟨ListUnix.reversedOrder, indexOf,
    .ok [⟨"wlan0", ListUnix.iffUp, none, none⟩, ⟨"rmnet0", ListUnix.iffUp, none, none⟩], rfl⟩

theorem android_byDiffs_told :
    (ByDiffs (quietNotified.log 1) ∧
      quietNotified.log 1 = [wlan0.initialUpdate, rmnet0.updateFrom wlan0]) ∧
    ByDiffs ((QueuedWatch.new .async).digest wlan0).yielded ∧
      ((QueuedWatch.new .async).digest wlan0).yielded = [wlan0.initialUpdate] := by
  have start : Reach (system.restrict Lists) unused :=
    .init ⟨⟨rfl, fun _ => rfl, rfl, fun _ => rfl⟩, returns_empty⟩
  have joined : Reach (system.restrict Lists) quietJoined :=
    ((start.step ⟨step_unused, returns_wlan0⟩).step ⟨step_quietAllocated, returns_wlan0⟩).step
      ⟨step_quietFinishing, returns_wlan0⟩
  have notified : Reach (system.restrict Lists) quietNotified :=
    (joined.step ⟨step_quietJoined, returns_rmnet0⟩).step ⟨Step.release rfl, returns_rmnet0⟩
  have hne : wlan0 ≠ ∅ := by decide
  have pushing := (start.step ⟨step_unused_queued true, returns_empty⟩).step
    ⟨@Step.dispatch _ _ _ [0] _ rfl (.refl _) (.refl _) (firstQueued_told hne), returns_wlan0⟩
  have told := (pushing.step ⟨Step.push rfl, returns_wlan0⟩).step ⟨Step.release rfl, returns_wlan0⟩
  have call := told.step ⟨Step.consume (n := 0) rfl (.call rfl), returns_wlan0⟩
  have found := call.step ⟨Step.consume (n := 0) rfl (.found 7 rfl rfl), returns_wlan0⟩
  have yielded := found.step ⟨Step.consume (n := 0) rfl (.digest rfl), returns_wlan0⟩
  exact ⟨⟨android_byDiffs.1 quietNotified notified 1, rfl⟩,
    android_byDiffs.2 _ yielded 0 1 _ rfl, rfl⟩

end Netwatcher.WatchAndroid
