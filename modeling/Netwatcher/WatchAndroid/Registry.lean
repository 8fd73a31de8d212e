import Netwatcher.WatchAndroid.Machine
/-!
# The registry and the Java subscription stay in step (`src/watch_android.rs`)

`Registry` ties the three collections of ids, the counter and `java_support` to what the clients
are doing. It is stated of the clients' entries alone, so the steps that run user code or move a
consumer keep it for nothing.
-/
namespace Netwatcher.WatchAndroid
open Coll Runs

abbrev Entries := Nat → Option (Place × WatcherId)

/-- Some client has `id`, and it is in that place. -/
def Has (e : Entries) (p : Place) (id : WatcherId) : Prop := ∃ n, e n = some (p, id)

structure Registry (e : Entries) (w : World) : Prop where
  distinct : ∀ n n' p p' id, e n = some (p, id) → e n' = some (p', id) → n = n'
  below : ∀ n p id, e n = some (p, id) → id < w.state.nextWatcherId
  callback : ∀ id : WatcherId, (∃ c, w.state.callbackWatchers[id]? = some c) ↔ Has e .callback id
  initialising : ∀ id, id ∈ w.state.initialisingCallbackWatchers ↔ Has e .initialising id
  queued : ∀ (id : WatcherId) (q : QueueRef),
    w.state.queuedWatchers[id]? = some q ↔ e q = some (.queued, id)
  support : w.state.javaSupport.isSome = w.state.hasWatchers
  java : JavaOk w

def Machine.entries (m : Machine) : Entries := fun n => (m.clients n).entry

theorem entries_eq {m : Machine} {n : Nat} {c : Client} (h : m.clients n = c) : m.entries n = c.entry :=
  congrArg Client.entry h

@[simp] theorem entries_setState (m : Machine) (s : State) : (m.setState s).entries = m.entries := rfl

theorem entries_setClient (m : Machine) (n : Nat) (c : Client) :
    (m.setClient n c).entries = Function.update m.entries n c.entry := by
  funext k
  simp only [Machine.entries, Machine.setClient, Function.update_apply]
  split <;> rfl

/-- A client that keeps its id and place leaves the entries alone. -/
theorem entries_setClient_same {m : Machine} {n : Nat} {c : Client} (h : c.entry = (m.clients n).entry) :
    (m.setClient n c).entries = m.entries := by
  rw [entries_setClient, h]
  exact Function.update_eq_self n m.entries

section
variable {e : Entries} {w w' : World} {n : Nat} {id : WatcherId}

/-- Client `n` moves to `x`: its id leaves the one place and is found in the other. -/
theorem Registry.has_update (h : Registry e w) {x : Option (Place × WatcherId)} {p : Place}
    {k : WatcherId} :
    Has (Function.update e n x) p k ↔ x = some (p, k) ∨ (Has e p k ∧ e n ≠ some (p, k)) := by
  constructor
  · rintro ⟨n', hn'⟩
    rw [Function.update_apply] at hn'
    split at hn'
    · exact .inl hn'
    · rename_i hne
      exact .inr ⟨⟨n', hn'⟩, fun hn => hne (h.distinct _ _ _ _ _ hn' hn)⟩
  · rintro (rfl | ⟨⟨n', hn'⟩, hne⟩)
    · exact ⟨n, Function.update_self ..⟩
    · have hn : n' ≠ n := by rintro rfl; exact hne hn'
      exact ⟨n', by rw [Function.update_of_ne hn, hn']⟩

/-- An id that keeps its owner, or one nobody has had, keeps the ids apart. -/
theorem Registry.distinct_update (h : Registry e w) {q : Place}
    (hid : (∃ q, e n = some (q, id)) ∨ id = w.state.nextWatcherId) :
    ∀ n₁ n₂ p p' k, Function.update e n (some (q, id)) n₁ = some (p, k) →
      Function.update e n (some (q, id)) n₂ = some (p', k) → n₁ = n₂ := by
  have mine : ∀ n₂ p', n₂ ≠ n → e n₂ ≠ some (p', id) := by
    intro n₂ p' hne h2
    rcases hid with ⟨q, hq⟩ | rfl
    · exact hne (h.distinct _ _ _ _ _ h2 hq)
    · exact absurd (h.below _ _ _ h2) (Nat.lt_irrefl _)
  intro n₁ n₂ p p' k h1 h2
  rw [Function.update_apply] at h1 h2
  split at h1 <;> split at h2
  · rename_i a b; rw [a, b]
  · rename_i hne
    cases h1
    exact absurd h2 (mine n₂ p' hne)
  · rename_i hne _
    cases h2
    exact absurd h1 (mine n₁ p hne)
  · exact h.distinct _ _ _ _ _ h1 h2

theorem Registry.below_update (h : Registry e w) {q : Place} {next : WatcherId}
    (hle : w.state.nextWatcherId ≤ next) (hid : id < next) :
    ∀ n' p k, Function.update e n (some (q, id)) n' = some (p, k) → k < next := by
  intro n' p k h1
  rw [Function.update_apply] at h1
  split at h1
  · cases h1
    exact hid
  · exact Nat.lt_of_lt_of_le (h.below _ _ _ h1) hle

theorem Registry.hasWatchers_of (h : Registry e w) (he : ∃ p, e n = some (p, id) ∧ p ≠ .nowhere) :
    w.state.hasWatchers = true := by
  obtain ⟨p, he, hp⟩ := he
  rw [hasWatchers_iff]
  cases p with
  | callback => obtain ⟨c, hc⟩ := (h.callback id).2 ⟨n, he⟩; exact .inl ⟨id, c, hc⟩
  | initialising => exact .inr (.inl ⟨id, (h.initialising id).2 ⟨n, he⟩⟩)
  | queued => exact .inr (.inr ⟨id, n, (h.queued id n).2 he⟩)
  | nowhere => exact absurd rfl hp

/-- A registration that got past `initialise_java_watching`: nothing but the snapshot and the Java
side has changed so far. -/
theorem Registry.initialised (h : Registry e w) {answers : Answers}
    (hi : initialiseJavaWatching answers w = (w', .ok ())) :
    Initialised w w' ∧ JavaOk w' := by
  refine ⟨initialised_of_ok h.support hi, ?_⟩
  have := h.java.initialiseJavaWatching h.support answers
  rwa [hi] at this

theorem Registry.allocate (h : Registry e w) (hn : e n = none) {answers : Answers} {list : IfList}
    (ha : allocateCallbackWatcher answers w = (w', .ok (id, list))) :
    Registry (Function.update e n (some (.initialising, id))) w' := by
  obtain ⟨w₁, hi, rfl, -, rfl⟩ := allocateCallbackWatcher_ok ha
  obtain ⟨i, hj⟩ := h.initialised hi
  refine ⟨?_, ?_, ?_, ?_, ?_, ?_, hj⟩
  · exact h.distinct_update (.inr i.nextWatcherId)
  · exact h.below_update (by simp [i.nextWatcherId]) (Nat.lt_succ_self _)
  · intro k
    rw [h.has_update, hn]
    simpa [i.callbackWatchers] using h.callback k
  · intro k
    rw [h.has_update, hn]
    simp [i.initialising, h.initialising k, eq_comm]
  · intro k q
    rw [Function.update_apply]
    simp only [i.queuedWatchers, h.queued k q]
    split
    · rename_i hq; simp [hq, hn]
    · rfl
  · have hw : ∃ k, k ∈ insert w₁.state.nextWatcherId w₁.state.initialisingCallbackWatchers :=
      ⟨_, Finset.mem_insert_self _ _⟩
    exact i.support.trans ((hasWatchers_iff _).2 (.inr (.inl hw))).symm

theorem Registry.registerQueued (h : Registry e w) (hn : e n = none) {answers : Answers}
    {q q' : AsyncCallbackQueue} (ha : registerQueuedWatcher answers w n q = (w', q', .ok id)) :
    Registry (Function.update e n (some (.queued, id))) w' := by
  obtain ⟨w₁, hi, rfl, -, rfl⟩ := registerQueuedWatcher_ok ha
  obtain ⟨i, hj⟩ := h.initialised hi
  refine ⟨?_, ?_, ?_, ?_, ?_, ?_, hj⟩
  · exact h.distinct_update (.inr i.nextWatcherId)
  · exact h.below_update (by simp [i.nextWatcherId]) (Nat.lt_succ_self _)
  · intro k
    rw [h.has_update, hn]
    simpa [i.callbackWatchers] using h.callback k
  · intro k
    rw [h.has_update, hn]
    simpa [i.initialising] using h.initialising k
  · intro k q
    simp only [HashMap.getElem?_insert, i.queuedWatchers, Function.update_apply]
    have hfresh : ∀ k', e k' ≠ some (.queued, w₁.state.nextWatcherId) := fun k' hk =>
      absurd (h.below _ _ _ hk) (by simp [i.nextWatcherId])
    by_cases hk : w₁.state.nextWatcherId = k
    · subst hk
      by_cases hq : q = n
      · simp [hq]
      · simp [hq, Ne.symm hq, hfresh q]
    · by_cases hq : q = n
      · subst hq; simp [hk, h.queued k q, hn]
      · simp [hk, hq, h.queued k q]
  · have hw : ∃ (k : WatcherId) (q : QueueRef),
        (w₁.state.queuedWatchers.insert w₁.state.nextWatcherId n)[k]? = some q :=
      ⟨w₁.state.nextWatcherId, n, by simp⟩
    exact i.support.trans ((hasWatchers_iff _).2 (.inr (.inr hw))).symm

/-- A refused registration takes no id. -/
theorem Registry.refuse (h : Registry e w) {answers : Answers} {err : Error}
    (hi : initialiseJavaWatching answers w = (w', .error err)) : Registry e w' := by
  have hj := h.java.initialiseJavaWatching h.support answers
  rw [hi] at hj
  obtain ⟨state', java'⟩ := w'
  obtain rfl : state' = w.state := state_eq_of_error h.support hi
  exact ⟨h.distinct, h.below, h.callback, h.initialising, h.queued, h.support, hj⟩

theorem Registry.join (h : Registry e w) (hn : e n = some (.initialising, id)) {list : IfList}
    {c : Callback} {state : State} (hf : finishIteration w.state id list c = (state, none)) :
    Registry (Function.update e n (some (.callback, id))) { w with state } := by
  obtain ⟨-, rfl⟩ := finishIteration_joined hf
  refine ⟨?_, ?_, ?_, ?_, ?_, ?_, h.java⟩
  · exact h.distinct_update (.inl ⟨_, hn⟩)
  · exact h.below_update le_rfl (h.below _ _ _ hn)
  · intro k
    rw [h.has_update, hn]
    simp only [HashMap.getElem?_insert]
    by_cases hk : id = k
    · simp [hk]
    · simpa [hk] using h.callback k
  · intro k
    rw [h.has_update, hn]
    simp only [Finset.mem_erase, h.initialising k]
    by_cases hk : id = k
    · simp [hk]
    · simp [hk, Ne.symm hk]
  · intro k q
    rw [Function.update_apply]
    simp only [h.queued k q]
    split
    · rename_i hq; simp [hq, hn]
    · rfl
  · have hw : ∃ (k : WatcherId) (c' : Callback), (w.state.callbackWatchers.insert id c)[k]? = some c' :=
      ⟨id, c, by simp⟩
    have hs := h.support.trans (h.hasWatchers_of ⟨_, hn, by simp⟩)
    exact hs.trans ((hasWatchers_iff _).2 (.inl hw)).symm

theorem Registry.leave (h : Registry e w) {p : Place} (hn : e n = some (p, id)) (stop : StopOutcome) :
    Registry (Function.update e n (some (.nowhere, id))) (unregisterWatcher stop id w) := by
  have only : ∀ q, Has e q id → q = p := fun q ⟨n', hn'⟩ => by
    obtain rfl := h.distinct _ _ _ _ _ hn hn'
    exact (Prod.mk.inj (Option.some.inj (hn.symm.trans hn'))).1.symm
  refine ⟨?_, ?_, ?_, ?_, ?_, ?_, h.java.unregisterWatcher stop id⟩
  · exact h.distinct_update (.inl ⟨_, hn⟩)
  · rw [unregisterWatcher_state]
    exact h.below_update le_rfl (h.below _ _ _ hn)
  · intro k
    rw [h.has_update, unregisterWatcher_state, hn]
    simp only [State.remove, HashMap.getElem?_erase]
    by_cases hk : id = k
    · subst hk
      simpa using fun hq => (only _ hq).symm
    · simpa [hk] using h.callback k
  · intro k
    rw [h.has_update, unregisterWatcher_state, hn]
    simp only [State.remove, Finset.mem_erase]
    by_cases hk : id = k
    · subst hk
      simpa using fun hq => (only _ hq).symm
    · simpa [hk, Ne.symm hk] using h.initialising k
  · intro k q
    rw [unregisterWatcher_state, Function.update_apply]
    simp only [State.remove, HashMap.getElem?_erase]
    by_cases hk : id = k
    · subst hk
      by_cases hq : q = n
      · simp [hq]
      · have : e q ≠ some (.queued, id) := fun he => hq (h.distinct _ _ _ _ _ he hn)
        simp [hq, this]
    · by_cases hq : q = n
      · subst hq; simp [hk, h.queued k q, hn]
      · simp [hk, hq, h.queued k q]
  · rw [unregisterWatcher_state]
    cases hw : (w.state.remove id).hasWatchers with
    | true =>
      have hs := h.support.trans (hasWatchers_of_remove hw)
      simp only [if_true, hs]
      exact hw.symm
    | false =>
      simp only [Bool.false_eq_true, if_false, Option.isSome_none]
      exact hw.symm

/-- A notification changes the snapshot and the callbacks, but no id. -/
theorem Registry.dispatch (h : Registry e w) {list : IfList} {callbacks : HashMap WatcherId Callback}
    {f : Callback → Callback}
    (hc : ∀ k : WatcherId, callbacks[k]? = w.state.callbackWatchers[k]?.map f) :
    Registry e { w with state := { w.state with
      currentInterfaces := list, callbackWatchers := callbacks } } := by
  have hsome : ∀ k : WatcherId, (∃ c, callbacks[k]? = some c) ↔ ∃ c, w.state.callbackWatchers[k]? = some c := by
    intro k; rw [hc k]; cases w.state.callbackWatchers[k]? <;> simp
  refine ⟨h.distinct, h.below, fun k => (hsome k).trans (h.callback k), h.initialising, h.queued, ?_, h.java⟩
  refine h.support.trans (Bool.eq_iff_iff.2 ?_)
  simp only [hasWatchers_iff, hsome]

end

/-! ## Over every run -/

theorem entry_afterCall (id : WatcherId) (list : IfList) (c : Callback) (r : Except Payload Unit) :
    (afterCall id list c r).entry = some (.initialising, id) := by
  cases r <;> rfl

theorem entry_of_leaving {c : Client} {id : WatcherId} (h : c.leaving = some id) :
    ∃ p, c.entry = some (p, id) := by
  cases c <;> simp [Client.leaving] at h <;> simp [Client.entry, h]

/-- One step: the critical sections keep the registry by the lemmas above, the other steps leave
every id where it is. -/
theorem Registry.step {m m' : Machine} (h : Registry m.entries m.world) (hs : Step m m') :
    Registry m'.entries m'.world := by
  cases hs with
  | @allocate n answers w id list callback hl hn hid hc ha =>
    rw [entries_setClient]
    exact h.allocate (entries_eq hn) ha
  | @refuseCallback n answers w err hl hn ha =>
    rw [entries_setClient_same (by simp [hn, Client.entry])]
    exact h.refuse (allocateCallbackWatcher_error ha)
  | @callInitial n id list c c' r hn hc =>
    rw [entries_setClient_same (by rw [entry_afterCall]; simp [hn, Client.entry])]
    exact h
  | @join n id list c state hl hn hf =>
    rw [entries_setClient]
    exact h.join (entries_eq hn) hf
  | @behind n id list next c state hl hn hf =>
    rw [entries_setClient_same (by simp [Machine.setState, hn, Client.entry])]
    obtain ⟨rfl, -⟩ := finishIteration_behind hf
    exact h
  | @callNext n id list next c c' r hn hc =>
    rw [entries_setClient_same (by rw [entry_afterCall]; simp [hn, Client.entry])]
    exact h
  | @registerQueued n answers w queue id kind hl hn hid ha =>
    rw [entries_setClient]
    exact h.registerQueued (entries_eq hn) ha
  | @refuseQueued n answers w queue err hl hn ha =>
    rw [entries_setClient_same (by simp [hn, Client.entry])]
    exact h.refuse (registerQueuedWatcher_error ha).1
  | @leave n id stop hl hn =>
    obtain ⟨p, hp⟩ := entry_of_leaving hn
    rw [entries_setClient]
    exact h.leave hp stop
  | @ignore listing visited state hl hv hi =>
    obtain rfl := interfacesDidChange_ignored hv hi
    exact h
  | @dispatch listing visited queues state hl hv hq hi =>
    obtain ⟨list, callbacks, -, rfl, hget⟩ := interfacesDidChange_dispatched hv hi
    exact h.dispatch hget
  | push hl => exact h
  | release hl => exact h
  | @consume n id watch watch' queue hn hw =>
    rw [entries_setClient_same (by simp [hn, Client.entry])]
    exact h

theorem registry_init {m : Machine} (h : system.init m) : Registry m.entries m.world := by
  obtain ⟨hw, hc, -, -⟩ := h
  have he : ∀ n, m.entries n = none := fun n => by simp [Machine.entries, hc n, Client.entry]
  have hno : ∀ p id, ¬ Has m.entries p id := fun p id ⟨n, hn⟩ => by simp [he n] at hn
  rw [hw]
  refine ⟨fun n n' p p' id hn => by simp [he n] at hn, fun n p id hn => by simp [he n] at hn,
    ?_, ?_, ?_, ?_, fun _ => ⟨rfl, Nat.zero_le _⟩⟩
  · intro id
    simpa [initState] using hno .callback id
  · intro id
    simpa [initState] using hno .initialising id
  · intro id q
    simp [initState, he q]
  · simp [initState, State.hasWatchers]

theorem registry {m : Machine} (r : Reach system m) : Registry m.entries m.world :=
  r.inv (I := fun m => Registry m.entries m.world) (fun _ h => registry_init h) fun _ _ _ h hs => h.step hs

/-- `id` is in one of the three collections. -/
def State.Registered (state : State) (id : WatcherId) : Prop :=
  (∃ c, state.callbackWatchers[id]? = some c) ∨ id ∈ state.initialisingCallbackWatchers ∨
    ∃ q, state.queuedWatchers[id]? = some q

/-- The id of a registration in progress or of a live handle. -/
def Client.live : Client → Option WatcherId
  | .initial id _ _ | .finishing id _ _ | .calling id _ _ _ | .unwinding id => some id
  | .watching id | .queued id _ => some id
  | _ => none

theorem live_iff_entry {c : Client} {id : WatcherId} :
    c.live = some id ↔ ∃ p, p ≠ .nowhere ∧ c.entry = some (p, id) := by
  cases c <;> simp [Client.live, Client.entry]

theorem Registry.registered_iff {e : Entries} {w : World} (h : Registry e w) {id : WatcherId} :
    w.state.Registered id ↔ ∃ p, p ≠ .nowhere ∧ Has e p id := by
  rw [State.Registered, h.callback, h.initialising]
  simp only [h.queued, ← Has.eq_def]
  constructor
  · rintro (hc | hi | hq)
    · exact ⟨_, by simp, hc⟩
    · exact ⟨_, by simp, hi⟩
    · exact ⟨_, by simp, hq⟩
  · rintro ⟨p, hp, hh⟩
    cases p with
    | callback => exact .inl hh
    | initialising => exact .inr (.inl hh)
    | queued => exact .inr (.inr hh)
    | nowhere => exact absurd rfl hp

theorem Registry.place_unique {e : Entries} {w : World} (h : Registry e w) {id : WatcherId} {p p' : Place}
    (hp : Has e p id) (hp' : Has e p' id) : p = p' := by
  obtain ⟨n, hn⟩ := hp
  obtain ⟨n', hn'⟩ := hp'
  obtain rfl := h.distinct _ _ _ _ _ hn hn'
  exact (Prod.mk.inj (Option.some.inj (hn.symm.trans hn'))).1

/-- The counter is a `usize`, since an id is given out only while there is one more. -/
theorem nextWatcherId_lt {m : Machine} (r : Reach system m) : m.state.nextWatcherId < USize.size := by
  refine r.inv (I := fun m => m.state.nextWatcherId < USize.size) ?_ ?_
  · rintro m ⟨hw, -⟩
    rw [Machine.state, hw]
    exact Nat.lt_of_lt_of_le (by decide : 1 < 2 ^ 32) USize.le_size
  intro m m' r h hs
  have hr := registry r
  have fits {answers : Answers} {w : World} (hi : initialiseJavaWatching answers m.world = (w, .ok ()))
      (hid : m.state.HasId) : w.state.nextWatcherId + 1 < USize.size :=
    (congrArg (· + 1) (hr.initialised hi).1.nextWatcherId).trans_lt hid
  cases hs with
  | allocate callback hl hn hid hc ha =>
    obtain ⟨w₁, hi, rfl, -, rfl⟩ := allocateCallbackWatcher_ok ha
    exact fits hi hid
  | registerQueued kind hl hn hid ha =>
    obtain ⟨w₁, hi, rfl, -, rfl⟩ := registerQueuedWatcher_ok ha
    exact fits hi hid
  | refuseCallback hl hn ha =>
    have hw := state_eq_of_error hr.support (allocateCallbackWatcher_error ha)
    exact (congrArg State.nextWatcherId hw).trans_lt h
  | refuseQueued hl hn ha =>
    have hw := state_eq_of_error hr.support (registerQueuedWatcher_error ha).1
    exact (congrArg State.nextWatcherId hw).trans_lt h
  | join hl hn hf =>
    obtain ⟨-, rfl⟩ := finishIteration_joined hf
    exact h
  | behind hl hn hf =>
    obtain ⟨rfl, -⟩ := finishIteration_behind hf
    exact h
  | @leave n id stop hl hn =>
    have hw := unregisterWatcher_state stop id m.world
    exact (congrArg State.nextWatcherId hw).trans_lt h
  | ignore hl hv hi =>
    obtain rfl := interfacesDidChange_ignored hv hi
    exact h
  | dispatch hl hv hq hi =>
    obtain ⟨list, callbacks, -, rfl, -⟩ := interfacesDidChange_dispatched hv hi
    exact h
  | callInitial | callNext | push | release | consume => exact h

/-- What the registry and the Java side promise between two critical sections. -/
structure InStep (m : Machine) : Prop where
  support : m.state.javaSupport.isSome = true ↔ m.state.hasWatchers = true
  disjoint : ∀ id,
    ((∃ c, m.state.callbackWatchers[id]? = some c) → id ∉ m.state.initialisingCallbackWatchers) ∧
    ((∃ c, m.state.callbackWatchers[id]? = some c) → ¬ ∃ q, m.state.queuedWatchers[id]? = some q) ∧
    (id ∈ m.state.initialisingCallbackWatchers → ¬ ∃ q, m.state.queuedWatchers[id]? = some q)
  below : ∀ id, m.state.Registered id → id < m.state.nextWatcherId
  /-- The counter has not come round to an id it has given out. -/
  fits : m.state.nextWatcherId < USize.size
  owned : ∀ id, m.state.Registered id → ∃! n, (m.clients n).live = some id
  /-- `peak` is the most there has been at any time of the run. -/
  oneSubscription : m.world.java.faulted = false →
    m.world.java.peak ≤ 1 ∧ m.world.java.subscribed.card ≤ 1
  subscription : m.world.java.faulted = false →
    (m.world.java.subscribed.card = 1 ↔ ∃ o, m.state.javaSupport = some o ∧ o.connectivityManager = true)
  /-- A registration that returns `Err`. -/
  refused : ∀ answers w err,
    (allocateCallbackWatcher answers m.world = (w, .error err) → w.state = m.state) ∧
    ∀ n q q', registerQueuedWatcher answers m.world n q = (w, q', .error err) → w.state = m.state
  /-- A registration whose initial callback panicked, or a handle that was dropped. -/
  gone : ∀ n id, m.clients n = .gone id → ¬ m.state.Registered id
  /-- What the guard of the one and the drop of the other do. -/
  removesOwn : ∀ stop id, let state := (unregisterWatcher stop id m.world).state
    ¬ state.Registered id ∧ ∀ k, k ≠ id →
      state.callbackWatchers[k]? = m.state.callbackWatchers[k]? ∧
      (k ∈ state.initialisingCallbackWatchers ↔ k ∈ m.state.initialisingCallbackWatchers) ∧
      state.queuedWatchers[k]? = m.state.queuedWatchers[k]?

theorem unregisterWatcher_removesOwn (stop : StopOutcome) (id : WatcherId) (w : World) :
    let state := (unregisterWatcher stop id w).state
    ¬ state.Registered id ∧ ∀ k, k ≠ id →
      state.callbackWatchers[k]? = w.state.callbackWatchers[k]? ∧
      (k ∈ state.initialisingCallbackWatchers ↔ k ∈ w.state.initialisingCallbackWatchers) ∧
      state.queuedWatchers[k]? = w.state.queuedWatchers[k]? := by
  simp only [unregisterWatcher_state, State.Registered, State.remove, HashMap.getElem?_erase,
    Finset.mem_erase]
  refine ⟨by simp, ?_⟩
  intro k hk
  simp [hk, Ne.symm hk]

theorem subscribed_card_le (o : Option SupportObject) : (held o).card ≤ 1 := by
  unfold held
  split
  · split <;> simp
  · simp

theorem subscribed_card_eq (o : Option SupportObject) :
    (held o).card = 1 ↔ ∃ s, o = some s ∧ s.connectivityManager = true := by
  cases o with
  | none => simp [held]
  | some s => cases hs : s.connectivityManager <;> simp [held, hs]

theorem Registry.disjoint {e : Entries} {w : World} (h : Registry e w) (id : WatcherId) :
    ((∃ c, w.state.callbackWatchers[id]? = some c) → id ∉ w.state.initialisingCallbackWatchers) ∧
    ((∃ c, w.state.callbackWatchers[id]? = some c) → ¬ ∃ q, w.state.queuedWatchers[id]? = some q) ∧
    (id ∈ w.state.initialisingCallbackWatchers → ¬ ∃ q, w.state.queuedWatchers[id]? = some q) := by
  have apart {p p' : Place} (hne : p ≠ p') (hp : Has e p id) : ¬ Has e p' id := by
    intro hp'
    exact hne (h.place_unique hp hp')
  simp only [h.callback, h.initialising, h.queued, ← Has.eq_def]
  exact ⟨apart (by simp), apart (by simp), apart (by simp)⟩

theorem Registry.owned {m : Machine} (h : Registry m.entries m.world) {id : WatcherId}
    (hid : m.state.Registered id) : ∃! n, (m.clients n).live = some id := by
  obtain ⟨p, hp, n, hn⟩ := h.registered_iff.1 hid
  refine ⟨n, live_iff_entry.2 ⟨p, hp, hn⟩, ?_⟩
  intro n' hn'
  obtain ⟨p', -, hp'⟩ := live_iff_entry.1 hn'
  exact h.distinct _ _ _ _ _ hp' hn

theorem Registry.not_registered {m : Machine} (h : Registry m.entries m.world) {n : Nat} {id : WatcherId}
    (hn : m.clients n = .gone id) : ¬ m.state.Registered id := by
  intro hid
  obtain ⟨p, hp, hh⟩ := h.registered_iff.1 hid
  exact hp (h.place_unique hh ⟨n, entries_eq hn⟩)

/-- **The registry, the handles and the Java subscription stay in step** over every run. -/
theorem registry_in_step {m : Machine} (r : Reach system m) : InStep m := by
  have h := registry r
  exact {
    support := by rw [Machine.state, h.support]
    disjoint := h.disjoint
    below := by
      intro id hid
      obtain ⟨p, -, n, hn⟩ := h.registered_iff.1 hid
      exact h.below _ _ _ hn
    fits := nextWatcherId_lt r
    owned := fun id hid => h.owned hid
    oneSubscription := by
      intro hf
      obtain ⟨hs, hp⟩ := h.java hf
      exact ⟨hp, by rw [hs]; exact subscribed_card_le _⟩
    subscription := by
      intro hf
      rw [(h.java hf).1]
      exact subscribed_card_eq _
    refused := by
      intro answers w err
      constructor
      · intro ha
        exact state_eq_of_error h.support (allocateCallbackWatcher_error ha)
      · intro n q q' ha
        exact state_eq_of_error h.support (registerQueuedWatcher_error ha).1
    gone := fun n id hn => h.not_registered hn
    removesOwn := fun stop id => unregisterWatcher_removesOwn stop id m.world }

/-- Nobody has registered. -/
def unused : Machine where
  world := ⟨initState, ⟨0, ∅, 0, false⟩⟩
  queues _ := emptyAsyncCallbackQueue
  clients _ := .absent
  lock := .free
  log _ := []

/-- A device with Wi-Fi, and then with a mobile network too. -/
def wlan0 : IfList := (∅ : IfList).insert 3 ⟨3, "wlan0", "00:00:00:00:00:00", []⟩
def rmnet0 : IfList := wlan0.insert 5 ⟨5, "rmnet0", "00:00:00:00:00:00", []⟩

theorem unused_hasId : unused.state.HasId := Nat.lt_of_lt_of_le (by decide : 2 < 2 ^ 32) USize.le_size

/-- The first watcher; `getSystemService` may or may not give a `ConnectivityManager`. -/
def firstRegistration (connectivityManager : Bool) : World × AsyncCallbackQueue × Except Error WatcherId :=
  registerQueuedWatcher ⟨.started connectivityManager, .ok ∅, .stopped⟩ unused.world 0
    emptyAsyncCallbackQueue

def firstQueued (connectivityManager : Bool) : Machine :=
  let (w, queue, _) := firstRegistration connectivityManager
  { unused with world := w, queues := Function.update unused.queues 0 queue }.setClient 0
    (.queued 1 (.new .async))

theorem step_unused_queued (cm : Bool) : Step unused (firstQueued cm) := by
  have h : firstRegistration cm = ((firstRegistration cm).1, (firstRegistration cm).2.1, .ok 1) := rfl
  exact Step.registerQueued .async rfl rfl unused_hasId h

theorem reach_firstQueued (cm : Bool) : Reach system (firstQueued cm) :=
  .step (.init ⟨rfl, fun _ => rfl, rfl, fun _ => rfl⟩) (step_unused_queued cm)

theorem registry_in_step_first : InStep (firstQueued true) :=
  registry_in_step (reach_firstQueued true)

/-- Without a `ConnectivityManager` the start succeeds, and `java_support` is set without a
subscription. -/
theorem no_manager_no_subscription :
    Reach system (firstQueued false) ∧ (firstQueued false).lock = .free ∧
      (firstQueued false).world.java.faulted = false ∧
      ¬ ((firstQueued false).world.java.subscribed.card = 1 ↔
        (firstQueued false).state.javaSupport.isSome = true) :=
  ⟨reach_firstQueued false, rfl, by rfl, by decide⟩

end Netwatcher.WatchAndroid
