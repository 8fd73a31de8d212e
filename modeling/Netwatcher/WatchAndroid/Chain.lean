import Netwatcher.WatchAndroid.Registry
/-!
# Each Android callback is told an unbroken chain of updates (`src/watch_android.rs`)

A callback that has not failed has last been told the list its registration is at (`Told`): the
list it still holds while it catches up outside the lock, and `current_interfaces` from the moment
it joins. That the one diff of a notification fits every joined callback is then `Told.call`.
-/
namespace Netwatcher.WatchAndroid
open Coll Runs

/-- The callback has been told `log`, and unless it failed the last of it was `list`. -/
structure Told (log : List Update) (list : IfList) (callback : Callback) : Prop where
  delivered : log = callback.delivered
  unbroken : Unbroken log
  last : callback.failed = false → lastInterfaces log = some list

theorem Told.initial {c : Callback} (hd : c.delivered = []) (list : IfList) :
    Told (c.callInitial list.initialUpdate).1.delivered list (c.callInitial list.initialUpdate).1 := by
  refine ⟨rfl, ?_, fun _ => ?_⟩ <;> rw [Callback.callInitial_delivered, hd, List.nil_append]
  · exact .singleton list
  · rfl

/-- One more update, from the list the callback was told last to a different one. -/
theorem Told.call {log : List Update} {list next : IfList} {c : Callback} (h : Told log list c)
    (hne : next ≠ list) :
    Told (c.callFromNotification (next.updateFrom list)).1.delivered next
      (c.callFromNotification (next.updateFrom list)).1 := by
  cases hf : c.failed with
  | true =>
    rw [Callback.callFromNotification_of_failed hf]
    exact ⟨rfl, h.delivered ▸ h.unbroken, fun hf' => absurd (hf.symm.trans hf') (by simp)⟩
  | false =>
    refine ⟨rfl, ?_, fun _ => ?_⟩ <;> rw [Callback.callFromNotification_delivered hf, ← h.delivered]
    · exact h.unbroken.concat (h.last hf) hne
    · rw [lastInterfaces_concat, IfList.updateFrom_interfaces]

/-- What holds of the log of a client's id. -/
def ClientOk (log : WatcherId → List Update) (state : State) : Client → Prop
  | .absent | .refused _ => True
  | .initial id _ callback => log id = [] ∧ callback.delivered = []
  | .finishing id list callback => Told (log id) list callback
  | .calling id list next callback => Told (log id) list callback ∧ next ≠ list
  | .watching id => ∃ callback, state.callbackWatchers[id]? = some callback ∧
      Told (log id) state.currentInterfaces callback
  | .queued _ _ | .unwinding _ | .gone _ => True

structure Chain (m : Machine) : Prop where
  client : ∀ n, ClientOk m.log m.state (m.clients n)
  fresh : ∀ id, m.state.nextWatcherId ≤ id → m.log id = []
  unbroken : ∀ id, Unbroken (m.log id)

theorem Chain.of_client {m : Machine} (h : Chain m) {n : Nat} {c : Client} (hn : m.clients n = c) :
    ClientOk m.log m.state c := hn ▸ h.client n

section
variable {log log' : WatcherId → List Update} {s s' : State} {c : Client}

/-- A client whose log is left alone, and whose callback, once it has joined, is neither replaced nor
left behind. -/
theorem ClientOk.frame (h : ClientOk log s c) (hlog : ∀ p id, c.entry = some (p, id) → log' id = log id)
    (hs : ∀ id, c.entry = some (.callback, id) →
      s'.callbackWatchers[id]? = s.callbackWatchers[id]? ∧ s'.currentInterfaces = s.currentInterfaces) :
    ClientOk log' s' c := by
  cases c with
  | absent => trivial
  | refused err => trivial
  | initial id list cb => simpa only [ClientOk, hlog _ id rfl] using h
  | finishing id list cb => simpa only [ClientOk, hlog _ id rfl] using h
  | calling id list next cb => simpa only [ClientOk, hlog _ id rfl] using h
  | unwinding id => trivial
  | watching id => simpa only [ClientOk, hlog _ id rfl, (hs id rfl).1, (hs id rfl).2] using h
  | queued id watch => trivial
  | gone id => trivial

end

/-- Client `n` moves to `c`; the others have other ids. -/
theorem Chain.setClient {m m' : Machine} (h : Chain m) {n : Nat} {c : Client}
    (hclients : m'.clients = Function.update m.clients n c) (hn : ClientOk m'.log m'.state c)
    (hlog : ∀ k p id, k ≠ n → m.entries k = some (p, id) → m'.log id = m.log id)
    (hs : ∀ k id, k ≠ n → m.entries k = some (.callback, id) →
      m'.state.callbackWatchers[id]? = m.state.callbackWatchers[id]? ∧
        m'.state.currentInterfaces = m.state.currentInterfaces) :
    ∀ k, ClientOk m'.log m'.state (m'.clients k) := by
  intro k
  rw [hclients, Function.update_apply]
  split
  · exact hn
  · rename_i hk
    exact (h.client k).frame (fun p id he => hlog k p id hk he) fun id he => hs k id hk he

section
variable {m m' : Machine} {n : Nat} {p : Place} {id : WatcherId}

/-- The id of another client is another id. -/
theorem Registry.other {e : Entries} {w : World} (hr : Registry e w) (hn : e n = some (p, id)) {k : Nat}
    {q : Place} {id' : WatcherId} (hk : k ≠ n) (he : e k = some (q, id')) : id' ≠ id := by
  rintro rfl
  exact hk (hr.distinct _ _ _ _ _ he hn)

/-- Once somebody watches, a new registration does not touch the snapshot. -/
theorem Registry.current_of_watching {e : Entries} {w w' : World} (hr : Registry e w)
    (hi : Initialised w w') (hn : e n = some (.callback, id)) :
    w'.state.callbackWatchers[id]? = w.state.callbackWatchers[id]? ∧
      w'.state.currentInterfaces = w.state.currentInterfaces :=
  ⟨by rw [hi.callbackWatchers], hi.current (hr.hasWatchers_of ⟨_, hn, by simp⟩)⟩

/-- A call made for a client whose id is `id`: the log of that id is what its callback has been given. -/
theorem Chain.called (h : Chain m) (hr : Registry m.entries m.world) (hn : m.entries n = some (p, id))
    {list : IfList} {c : Callback} (ht : Told c.delivered list c) (r : Except Payload Unit) :
    Chain ({ m with log := Function.update m.log id c.delivered }.setClient n (afterCall id list c r)) := by
  have hc : ClientOk (Function.update m.log id c.delivered) m.state (afterCall id list c r) := by
    cases r with
    | ok _ => simpa [afterCall, ClientOk] using ht
    | error _ => trivial
  refine ⟨h.setClient rfl hc ?_ fun _ _ _ _ => ⟨rfl, rfl⟩, ?_, ?_⟩
  · intro k q id' hk he
    exact Function.update_of_ne (hr.other hn hk he) ..
  · intro id' hid
    have hne : id' ≠ id := by
      rintro rfl
      exact absurd (hr.below _ _ _ hn) (Nat.not_lt.2 hid)
    exact (Function.update_of_ne hne ..).trans (h.fresh id' hid)
  · intro id'
    simp only [Machine.setClient, Function.update_apply]
    split
    · exact ht.unbroken
    · exact h.unbroken id'

/-- What a notification leaves in the log of a callback it has reached, and of the others. -/
theorem record_of_some {log : WatcherId → List Update} {callbacks : HashMap WatcherId Callback}
    {c : Callback} (h : callbacks[id]? = some c) : record log callbacks id = c.delivered := by
  simp [record, h]

theorem record_of_none {log : WatcherId → List Update} {callbacks : HashMap WatcherId Callback}
    (h : callbacks[id]? = none) : record log callbacks id = log id := by
  simp [record, h]

theorem watching_of_entry (h : m.entries n = some (.callback, id)) : m.clients n = .watching id := by
  unfold Machine.entries at h
  cases hc : m.clients n <;> simp [hc, Client.entry] at h
  rw [h]

/-- Only the ids of joined watchers are in `callback_watchers`. -/
theorem Registry.callback_none {e : Entries} {w : World} (hr : Registry e w) (hn : e n = some (p, id))
    (hp : p ≠ .callback) : w.state.callbackWatchers[id]? = none := by
  refine Option.eq_none_iff_forall_ne_some.2 fun c hc => hp ?_
  exact hr.place_unique ⟨n, hn⟩ ((hr.callback id).1 ⟨c, hc⟩)

/-- A registration that got its id. -/
theorem Chain.registered (h : Chain m) (hr : Registry m.entries m.world) {w : World}
    {queues : QueueRef → AsyncCallbackQueue} (hi : Initialised m.world w) {state : State}
    (hcb : state.callbackWatchers = w.state.callbackWatchers)
    (hcur : state.currentInterfaces = w.state.currentInterfaces)
    (hnext : m.state.nextWatcherId ≤ state.nextWatcherId) {c : Client} (hc : ClientOk m.log state c) :
    Chain ({ m with world := { w with state }, queues }.setClient n c) := by
  refine ⟨h.setClient rfl hc (fun _ _ _ _ _ => rfl) ?_, ?_, h.unbroken⟩
  · intro k id _ he
    obtain ⟨h1, h2⟩ := hr.current_of_watching hi he
    exact ⟨(congrArg (·[id]?) hcb).trans h1, hcur.trans h2⟩
  · intro id hid
    exact h.fresh id (hnext.trans hid)

theorem Chain.refused (h : Chain m) {w : World} (hw : w.state = m.state) (err : Error) :
    Chain ({ m with world := w }.setClient n (.refused err)) := by
  refine ⟨h.setClient rfl trivial (fun _ _ _ _ _ => rfl) ?_, ?_, h.unbroken⟩
  · intro k id _ _
    exact ⟨by simp [Machine.state, Machine.setClient, hw], by simp [Machine.state, Machine.setClient, hw]⟩
  · intro id hid
    exact h.fresh id (by simpa [Machine.state, Machine.setClient, hw] using hid)

theorem Chain.leave (h : Chain m) (hr : Registry m.entries m.world) (hn : m.entries n = some (p, id))
    (stop : StopOutcome) :
    Chain ({ m with world := unregisterWatcher stop id m.world }.setClient n (.gone id)) := by
  refine ⟨h.setClient rfl trivial (fun _ _ _ _ _ => rfl) ?_, ?_,
    h.unbroken⟩
  · intro k id' hk he
    have hne := hr.other hn hk he
    simp [Machine.state, Machine.setClient, unregisterWatcher_state, State.remove, HashMap.getElem?_erase,
      hne.symm]
  · intro id' hid
    refine h.fresh id' ?_
    simpa [Machine.state, Machine.setClient, unregisterWatcher_state, State.remove] using hid

theorem Chain.join (h : Chain m) (hr : Registry m.entries m.world)
    (hn : m.entries n = some (p, id)) {list : IfList} {c : Callback} {state : State}
    (ht : Told (m.log id) list c) (hf : finishIteration m.state id list c = (state, none)) :
    Chain ((m.setState state).setClient n (.watching id)) := by
  obtain ⟨hcur, rfl⟩ := finishIteration_joined hf
  refine ⟨h.setClient rfl ⟨c, ?_, ?_⟩ (fun _ _ _ _ _ => rfl) ?_, h.fresh, h.unbroken⟩
  · simp [Machine.state, Machine.setClient, Machine.setState]
  · change Told (m.log id) m.state.currentInterfaces c
    rwa [hcur]
  · intro k id' hk he
    have hne := hr.other hn hk he
    simp [Machine.state, Machine.setClient, Machine.setState, HashMap.getElem?_insert, hne.symm]

/-- Every joined callback is at `current_interfaces`. -/
theorem Chain.told (h : Chain m) (hr : Registry m.entries m.world) {c : Callback}
    (hc : m.state.callbackWatchers[id]? = some c) : Told (m.log id) m.state.currentInterfaces c := by
  obtain ⟨n, hn⟩ := (hr.callback id).1 ⟨c, hc⟩
  have hcl := h.client n
  rw [watching_of_entry hn] at hcl
  obtain ⟨c', hc', ht⟩ := hcl
  rwa [Option.some.inj (hc.symm.trans hc')]

/-- **One notification, one diff for all** who have joined. -/
theorem Chain.dispatch (h : Chain m) (hr : Registry m.entries m.world) {list : IfList}
    {callbacks : HashMap WatcherId Callback} (hne : list ≠ m.state.currentInterfaces)
    (hc : ∀ k : WatcherId, callbacks[k]? = m.state.callbackWatchers[k]?.map
      (·.callFromNotification (list.updateFrom m.state.currentInterfaces) |>.1)) (lock : Lock) :
    Chain { m.setState { m.state with currentInterfaces := list, callbackWatchers := callbacks } with
      lock, log := record m.log callbacks } := by
  have reached {id : WatcherId} {c : Callback} (hcb : callbacks[id]? = some c) :
      Told (record m.log callbacks id) list c := by
    rw [record_of_some hcb]
    obtain ⟨c₀, hc₀, rfl⟩ := Option.map_eq_some_iff.1 ((hc id).symm.trans hcb)
    exact (h.told hr hc₀).call hne
  have missed {id : WatcherId} (hn : m.state.callbackWatchers[id]? = none) :
      record m.log callbacks id = m.log id := record_of_none (by rw [hc, hn]; rfl)
  refine ⟨?_, ?_, ?_⟩
  · intro k
    by_cases hk : ∃ id, m.entries k = some (.callback, id)
    · obtain ⟨id, hid⟩ := hk
      obtain ⟨c₀, hc₀⟩ := (hr.callback id).2 ⟨k, hid⟩
      have hcb := (hc id).trans (congrArg _ hc₀)
      change ClientOk _ _ (m.clients k)
      rw [watching_of_entry hid]
      exact ⟨_, hcb, reached hcb⟩
    · refine (h.client k).frame (fun p id he => missed (hr.callback_none (n := k) he ?_)) ?_
      · rintro rfl; exact hk ⟨id, he⟩
      · intro id he
        exact absurd ⟨id, he⟩ hk
  · intro id hid
    refine (missed (Option.eq_none_iff_forall_ne_some.2 ?_)).trans (h.fresh id hid)
    intro c hcb
    obtain ⟨n, hn⟩ := (hr.callback id).1 ⟨c, hcb⟩
    exact absurd (hr.below _ _ _ hn) (Nat.not_lt.2 hid)
  · intro id
    cases hcb : callbacks[id]? with
    | some c => exact (reached hcb).unbroken
    | none =>
      change Unbroken (record m.log callbacks id)
      rw [record_of_none hcb]
      exact h.unbroken id

end

/-- One step of anybody. -/
theorem Chain.step {m m' : Machine} (h : Chain m) (hr : Registry m.entries m.world) (hs : Step m m') :
    Chain m' := by
  cases hs with
  | @allocate n answers w id list callback hl hn hid hcalls ha =>
    obtain ⟨w₁, hi, rfl, -, rfl⟩ := allocateCallbackWatcher_ok ha
    have i := (hr.initialised hi).1
    refine h.registered hr i ?_ ?_ ?_ ?_
    · rfl
    · rfl
    · exact i.nextWatcherId.ge.trans (Nat.le_succ _)
    · exact ⟨h.fresh _ i.nextWatcherId.ge, hcalls⟩
  | @refuseCallback n answers w err hl hn ha =>
    exact h.refused (state_eq_of_error hr.support (allocateCallbackWatcher_error ha)) err
  | @callInitial n id list c c' r hn hc =>
    have hid : m.entries n = some (.initialising, id) := entries_eq hn
    have hcl := h.of_client hn
    have ht := Told.initial hcl.2 list
    rw [hc] at ht
    exact h.called hr hid ht r
  | @join n id list c state hl hn hf =>
    have hid : m.entries n = some (.initialising, id) := entries_eq hn
    have hcl := h.of_client hn
    exact h.join hr hid hcl hf
  | @behind n id list next c state hl hn hf =>
    obtain ⟨rfl, rfl, hne⟩ := finishIteration_behind hf
    have hcl := h.of_client hn
    exact ⟨h.setClient rfl ⟨hcl, hne⟩ (fun _ _ _ _ _ => rfl) fun _ _ _ _ => ⟨rfl, rfl⟩, h.fresh,
      h.unbroken⟩
  | @callNext n id list next c c' r hn hc =>
    have hid : m.entries n = some (.initialising, id) := entries_eq hn
    have hcl := h.of_client hn
    have ht := hcl.1.call hcl.2
    rw [hc] at ht
    exact h.called hr hid ht r
  | @registerQueued n answers w queue id kind hl hn hid ha =>
    obtain ⟨w₁, hi, rfl, -, rfl⟩ := registerQueuedWatcher_ok ha
    have i := (hr.initialised hi).1
    refine h.registered hr i ?_ ?_ ?_ ?_
    · rfl
    · rfl
    · exact i.nextWatcherId.ge.trans (Nat.le_succ _)
    · trivial
  | @refuseQueued n answers w queue err hl hn ha =>
    exact h.refused (state_eq_of_error hr.support (registerQueuedWatcher_error ha).1) err
  | @leave n id stop hl hn =>
    obtain ⟨p, hp⟩ := entry_of_leaving hn
    exact h.leave hr hp stop
  | @ignore listing visited state hl hv hi =>
    obtain rfl := interfacesDidChange_ignored hv hi
    exact h
  | @dispatch listing visited queues state hl hv hq hi =>
    obtain ⟨list, callbacks, hne, rfl, hget⟩ := interfacesDidChange_dispatched hv hi
    exact h.dispatch hr hne hget _
  | push hl => exact ⟨h.client, h.fresh, h.unbroken⟩
  | release hl => exact ⟨h.client, h.fresh, h.unbroken⟩
  | consume hn hw =>
    exact ⟨h.setClient rfl trivial (fun _ _ _ _ _ => rfl) fun _ _ _ _ => ⟨rfl, rfl⟩, h.fresh, h.unbroken⟩

theorem chain {m : Machine} (r : Reach system m) : Chain m := by
  refine r.inv (I := Chain) ?_ fun _ _ r h hs => h.step (registry r) hs
  intro m hm
  obtain ⟨-, hc, -, hlog⟩ := hm
  exact ⟨fun n => by rw [hc n]; trivial, fun id _ => hlog id, fun id => by rw [hlog id]; exact .nil⟩

/-! ## After the drop -/

/-- One step delivers nothing to an id whose handle is gone. -/
theorem Step.gone {m m' : Machine} (hr : Registry m.entries m.world) {n : Nat} {id : WatcherId}
    (hn : m.clients n = .gone id) (hs : Step m m') : m'.clients n = .gone id ∧ m'.log id = m.log id := by
  have hid : m.entries n = some (.nowhere, id) := entries_eq hn
  have set {m₁ : Machine} {k : Nat} {c : Client} (h₁ : m₁.clients = m.clients) (hk : m.clients k ≠ .gone id) :
      (m₁.setClient k c).clients n = .gone id := by
    have hne : n ≠ k := by rintro rfl; exact hk hn
    simp [Machine.setClient, h₁, Function.update_of_ne hne, hn]
  have called {k : Nat} {id' : WatcherId} {p : Place} {d : List Update} (hk : m.entries k = some (p, id'))
      (hp : p ≠ .nowhere) : Function.update m.log id' d id = m.log id := by
    have hne : id ≠ id' := by
      rintro rfl
      exact hp (hr.place_unique ⟨k, hk⟩ ⟨n, hid⟩)
    exact Function.update_of_ne hne ..
  cases hs with
  | allocate callback hl hk hid hcalls ha => exact ⟨set rfl (by simp [hk]), rfl⟩
  | refuseCallback hl hk ha => exact ⟨set rfl (by simp [hk]), rfl⟩
  | @callInitial k id' list c c' r hk hc =>
    have hid' : m.entries k = some (.initialising, id') := entries_eq hk
    exact ⟨set rfl (by simp [hk]), called hid' (by simp)⟩
  | join hl hk hf => exact ⟨set rfl (by simp [hk]), rfl⟩
  | behind hl hk hf => exact ⟨set rfl (by simp [hk]), rfl⟩
  | @callNext k id' list next c c' r hk hc =>
    have hid' : m.entries k = some (.initialising, id') := entries_eq hk
    exact ⟨set rfl (by simp [hk]), called hid' (by simp)⟩
  | registerQueued kind hl hk hid ha => exact ⟨set rfl (by simp [hk]), rfl⟩
  | refuseQueued hl hk ha => exact ⟨set rfl (by simp [hk]), rfl⟩
  | leave stop hl hk => exact ⟨set rfl fun hg => by simp [hg, Client.leaving] at hk, rfl⟩
  | ignore hl hv hi => exact ⟨hn, rfl⟩
  | @dispatch listing visited queues state hl hv hq hi =>
    refine ⟨hn, record_of_none ?_⟩
    obtain ⟨list, callbacks, -, rfl, hget⟩ := interfacesDidChange_dispatched hv hi
    exact (hget id).trans (by rw [Machine.state, hr.callback_none hid (by simp)]; rfl)
  | push hl => exact ⟨hn, rfl⟩
  | release hl => exact ⟨hn, rfl⟩
  | consume hk hw => exact ⟨set rfl (by simp [hk]), rfl⟩

theorem later_gone {m m' : Machine} (r : Reach system m) (l : Later system m m') {n : Nat} {id : WatcherId}
    (hn : m.clients n = .gone id) : m'.log id = m.log id := by
  refine (l.inv (I := fun t => t.clients n = .gone id ∧ t.log id = m.log id) r ⟨hn, rfl⟩ ?_).2
  intro t t' rt ⟨ht, hlog⟩ hs
  obtain ⟨ht', hlog'⟩ := hs.gone (registry rt) ht
  exact ⟨ht', hlog'.trans hlog⟩

/-- What every run promises the callback watchers. -/
structure CallbacksServed (m : Machine) : Prop where
  /-- Each watcher's updates: the first initial, every later one the diff from its predecessor. -/
  unbroken : ∀ id, Unbroken (m.log id)
  /-- Joined watchers that have not failed are at the current list. -/
  current : ∀ (id : WatcherId) (callback : Callback), m.state.callbackWatchers[id]? = some callback →
    m.log id = callback.delivered ∧
    (callback.failed = false → lastInterfaces (m.log id) = some m.state.currentInterfaces)
  /-- After the drop of the handle. -/
  silent : ∀ n id, m.clients n = .gone id → ∀ m', Later system m m' → m'.log id = m.log id

/-- **Android callback watchers see an unbroken chain of updates.** -/
theorem callbacks_served {m : Machine} (r : Reach system m) : CallbacksServed m := by
  have hc := chain r
  refine ⟨hc.unbroken, ?_, fun n id hn m' l => later_gone r l hn⟩
  intro id callback hcb
  have ht := hc.told (registry r) hcb
  exact ⟨ht.delivered, ht.last⟩

def firstAllocation : World × Except Error (WatcherId × IfList) :=
  allocateCallbackWatcher ⟨.started true, .ok wlan0, .stopped⟩ unused.world

/-- `FnMut.quiet` after its initial update, about to join. -/
def quietTold : Callback := ((Callback.new .quiet).callInitial wlan0.initialUpdate).1

def quietAllocated : Machine :=
  { unused with world := firstAllocation.1 }.setClient 0 (.initial 1 wlan0 (.new .quiet))

theorem step_unused : Step unused quietAllocated := by
  have ha : firstAllocation = (firstAllocation.1, .ok (1, wlan0)) := rfl
  exact Step.allocate .quiet rfl rfl unused_hasId rfl ha

theorem reach_quietAllocated : Reach system quietAllocated :=
  .step (.init ⟨rfl, fun _ => rfl, rfl, fun _ => rfl⟩) step_unused

def quietFinishing : Machine :=
  { quietAllocated with log := Function.update quietAllocated.log 1 quietTold.delivered }.setClient 0
    (.finishing 1 wlan0 quietTold)

theorem step_quietAllocated : Step quietAllocated quietFinishing := Step.callInitial rfl rfl

def quietJoined : Machine :=
  (quietFinishing.setState { quietFinishing.state with
    initialisingCallbackWatchers := quietFinishing.state.initialisingCallbackWatchers.erase 1
    callbackWatchers := quietFinishing.state.callbackWatchers.insert 1 quietTold }).setClient 0
      (.watching 1)

theorem step_quietFinishing : Step quietFinishing quietJoined := Step.join rfl rfl (if_pos rfl)

theorem reach_quietJoined : Reach system quietJoined :=
  (reach_quietAllocated.step step_quietAllocated).step step_quietFinishing

/-- What `interfaces_did_change` leaves when there is a second interface. -/
def quietDispatched : State :=
  (interfacesDidChange (.ok rmnet0) quietJoined.state.callbackWatchers.iter quietJoined.state).1

def quietNotified : Machine :=
  { quietJoined.setState quietDispatched with
    log := record quietJoined.log quietDispatched.callbackWatchers }

theorem step_quietJoined : Step quietJoined { quietNotified with lock := .pushing [] } := by
  have hd : interfacesDidChange (.ok rmnet0) quietJoined.state.callbackWatchers.iter quietJoined.state =
      (quietDispatched, .ok true) := rfl
  exact Step.dispatch rfl (.refl _) (.refl _) hd

theorem callbacks_served_quiet :
    quietNotified.log 1 = [wlan0.initialUpdate, rmnet0.updateFrom wlan0] ∧ CallbacksServed quietNotified :=
  ⟨rfl, callbacks_served ((reach_quietJoined.step step_quietJoined).step (Step.release rfl))⟩

end Netwatcher.WatchAndroid
