import Netwatcher.WatchAndroid.Chain
import Netwatcher.WatchFd.Modes
/-!
# What an Android callback is told, against the history of the snapshot (`src/watch_android.rs`)

The history of a run is every list `current_interfaces` has been, in order. A registration is told a
subsequence of it: while `finish_callback_registration` calls the callback outside the lock, several
changes may pass and it catches up with the last. From the moment it joins, `interfaces_did_change`
tells it every one.

| here | there |
| --- | --- |
| `snapshots`  | the assignments to `state.current_interfaces` that change it (watch_android.rs:245, :396) |
| `told`       | the lists a callback has been called with |
| `ToldUpTo`   | where the loop of `finish_callback_registration` is in the history (watch_android.rs:178) |
-/
namespace Netwatcher.WatchAndroid
open Coll Runs

/-- What one step adds to the history. -/
def snapshots (m m' : Machine) : List IfList :=
  if m'.state.currentInterfaces = m.state.currentInterfaces then [] else [m'.state.currentInterfaces]

def told (log : List Update) : List IfList := log.map (·.interfaces)

@[simp] theorem told_nil : told [] = [] := rfl
@[simp] theorem told_append (log log' : List Update) : told (log ++ log') = told log ++ told log' :=
  List.map_append

theorem snapshots_same {m m' : Machine} (h : m'.state.currentInterfaces = m.state.currentInterfaces) :
    snapshots m m' = [] := if_pos h

/-- A callback is told the list of the update, or nothing once it has failed. -/
theorem told_callFromNotification (c : Callback) (u : Update) :
    (told (c.callFromNotification u).1.delivered).Sublist (told c.delivered ++ [u.interfaces]) := by
  cases hf : c.failed with
  | true =>
    rw [Callback.callFromNotification_of_failed hf]
    exact List.sublist_append_left _ _
  | false =>
    rw [Callback.callFromNotification_delivered hf, told_append]
    exact .refl _

/-! ## A subsequence of the history -/

/-- `list` is somewhere in the history, and what has been told is a subsequence of what leads to it. -/
def ToldUpTo (history : List IfList) (list : IfList) (lists : List IfList) : Prop :=
  ∃ before after, history = before ++ list :: after ∧ lists.Sublist (before ++ [list])

theorem ToldUpTo.sublist {h : List IfList} {list : IfList} {lists : List IfList}
    (ht : ToldUpTo h list lists) : lists.Sublist h := by
  obtain ⟨before, after, rfl, hs⟩ := ht
  refine hs.trans ?_
  rw [List.append_cons before list after]
  exact List.sublist_append_left _ _

theorem ToldUpTo.append {h : List IfList} {list : IfList} {lists : List IfList}
    (ht : ToldUpTo h list lists) (new : List IfList) : ToldUpTo (h ++ new) list lists := by
  obtain ⟨before, after, rfl, hs⟩ := ht
  exact ⟨before, after ++ new, by simp, hs⟩

/-- A list later in the history than the one told last may be told next. -/
theorem ToldUpTo.before_last {h : List IfList} {list next : IfList} {lists : List IfList}
    (ht : ToldUpTo (h ++ [next]) list lists) (hne : next ≠ list) : lists.Sublist h := by
  obtain ⟨before, after, he, hs⟩ := ht
  rcases List.eq_nil_or_concat after with rfl | ⟨after, last, rfl⟩
  · exact absurd (List.append_inj' he rfl).2 (by simpa using hne)
  · have he : h ++ [next] = (before ++ list :: after) ++ [last] := by simpa using he
    obtain ⟨rfl, -⟩ := List.append_inj' he rfl
    refine hs.trans ?_
    rw [List.append_cons before list after]
    exact List.sublist_append_left _ _

/-- Where a registration in progress is in the history. -/
def ClientTold (history : List IfList) (log : WatcherId → List Update) : Client → Prop
  | .initial _ list _ => list ∈ history
  | .finishing id list _ => ToldUpTo history list (told (log id))
  | .calling id _ next _ => ∃ before after, history = before ++ next :: after ∧
      (told (log id)).Sublist before
  | _ => True

structure Recorded (history : List IfList) (m : Machine) : Prop where
  last : ∃ before, history = before ++ [m.state.currentInterfaces]
  sublist : ∀ id, (told (m.log id)).Sublist history
  client : ∀ n, ClientTold history m.log (m.clients n)

theorem ClientTold.frame {h new : List IfList} {log log' : WatcherId → List Update} {c : Client}
    (hc : ClientTold h log c) (hlog : ∀ id, c.entry = some (.initialising, id) → log' id = log id) :
    ClientTold (h ++ new) log' c := by
  cases c with
  | initial id list cb => exact List.mem_append_left _ hc
  | finishing id list cb =>
    simp only [ClientTold, hlog id rfl]
    exact ToldUpTo.append hc new
  | calling id list next cb =>
    obtain ⟨before, after, rfl, hs⟩ := hc
    exact ⟨before, after ++ new, by simp, by rw [hlog id rfl]; exact hs⟩
  | _ => trivial

section
variable {h : List IfList} {m m' : Machine} {n : Nat}

theorem Recorded.last_step (hr : Recorded h m) (m' : Machine) :
    ∃ before, h ++ snapshots m m' = before ++ [m'.state.currentInterfaces] := by
  unfold snapshots
  split
  · rename_i hc
    rw [hc, List.append_nil]
    exact hr.last
  · exact ⟨h, rfl⟩

theorem Recorded.current_mem (hr : Recorded h m) (m' : Machine) :
    m'.state.currentInterfaces ∈ h ++ snapshots m m' := by
  obtain ⟨before, he⟩ := hr.last_step m'
  rw [he]
  simp

/-- Client `n` moves to `c`; no log changes. -/
theorem Recorded.setClient (hr : Recorded h m) {c : Client} (hclients : m'.clients = Function.update m.clients n c)
    (hlog : m'.log = m.log) (hc : ClientTold (h ++ snapshots m m') m.log c) :
    Recorded (h ++ snapshots m m') m' := by
  refine ⟨hr.last_step m', ?_, ?_⟩
  · intro id
    rw [hlog]
    exact (hr.sublist id).trans (List.sublist_append_left _ _)
  · intro k
    rw [hclients, hlog, Function.update_apply]
    split
    · exact hc
    · exact (hr.client k).frame fun _ _ => rfl

/-- Nothing that the history depends on has changed. -/
theorem Recorded.same (hr : Recorded h m) (hclients : m'.clients = m.clients) (hlog : m'.log = m.log)
    (hcur : m'.state.currentInterfaces = m.state.currentInterfaces) :
    Recorded (h ++ snapshots m m') m' := by
  rw [snapshots_same hcur, List.append_nil]
  refine ⟨by rw [hcur]; exact hr.last, by rw [hlog]; exact hr.sublist, ?_⟩
  intro k
  rw [hclients, hlog]
  exact hr.client k

/-- A call made for client `n`, whose id is `id`, with the list the callback is at afterwards. -/
theorem Recorded.called (hr : Recorded h m) (hreg : Registry m.entries m.world) {id : WatcherId}
    {list : IfList} {callback : Callback} (hn : m.entries n = some (.initialising, id))
    (ht : ToldUpTo h list (told callback.delivered)) (r : Except Payload Unit)
    (hm : m' = { m with log := Function.update m.log id callback.delivered }.setClient n
      (afterCall id list callback r)) : Recorded (h ++ snapshots m m') m' := by
  have hcur : m'.state.currentInterfaces = m.state.currentInterfaces := by rw [hm]; rfl
  rw [snapshots_same hcur, List.append_nil]
  subst hm
  refine ⟨hr.last, ?_, ?_⟩
  · intro id'
    simp only [Machine.setClient, Function.update_apply]
    split
    · exact ht.sublist
    · exact hr.sublist id'
  · intro k
    simp only [Machine.setClient, Function.update_apply]
    split
    · cases r with
      | ok _ => simpa [afterCall, ClientTold] using ht
      | error _ => trivial
    · rename_i hk
      have : ClientTold (h ++ []) (Function.update m.log id callback.delivered) (m.clients k) := by
        refine (hr.client k).frame ?_
        intro id' he
        exact Function.update_of_ne (hreg.other hn hk he) ..
      rwa [List.append_nil] at this

/-- A notification adds to the history, and tells it to everybody who has joined. -/
theorem Recorded.dispatch (hr : Recorded h m) (hreg : Registry m.entries m.world) (hchain : Chain m)
    {list : IfList} {callbacks : HashMap WatcherId Callback} (hne : list ≠ m.state.currentInterfaces)
    (hc : ∀ k : WatcherId, callbacks[k]? = m.state.callbackWatchers[k]?.map
      (·.callFromNotification (list.updateFrom m.state.currentInterfaces) |>.1)) (lock : Lock) :
    Recorded (h ++ snapshots m { m.setState { m.state with
        currentInterfaces := list, callbackWatchers := callbacks } with
        lock, log := record m.log callbacks })
      { m.setState { m.state with currentInterfaces := list, callbackWatchers := callbacks } with
        lock, log := record m.log callbacks } := by
  have missed {id : WatcherId} (hn : m.state.callbackWatchers[id]? = none) :
      record m.log callbacks id = m.log id := record_of_none (by rw [hc, hn]; rfl)
  refine ⟨hr.last_step _, ?_, ?_⟩
  · intro id
    have hnew : snapshots m { m.setState { m.state with
        currentInterfaces := list, callbackWatchers := callbacks } with
        lock, log := record m.log callbacks } = [list] := if_neg hne
    rw [hnew]
    cases hcb : m.state.callbackWatchers[id]? with
    | none =>
      change (told (record m.log callbacks id)).Sublist _
      rw [missed hcb]
      exact (hr.sublist id).trans (List.sublist_append_left _ _)
    | some c =>
      have hcb' := (hc id).trans (congrArg _ hcb)
      change (told (record m.log callbacks id)).Sublist _
      rw [record_of_some hcb']
      refine (told_callFromNotification c _).trans ?_
      rw [← (hchain.told hreg hcb).delivered]
      exact (hr.sublist id).append_right _
  · intro k
    refine (hr.client k).frame ?_
    intro id he
    exact missed (hreg.callback_none (n := k) he (by simp))

end

theorem Recorded.step {h : List IfList} {m m' : Machine} (hr : Recorded h m) (r : Reach system m)
    (hs : Step m m') : Recorded (h ++ snapshots m m') m' := by
  have hreg := registry r
  have hchain := chain r
  cases hs with
  | @allocate n answers w id list callback hl hn hid hcalls ha =>
    obtain ⟨w₁, hi, rfl, rfl, rfl⟩ := allocateCallbackWatcher_ok ha
    refine hr.setClient rfl rfl ?_
    exact hr.current_mem _
  | refuseCallback hl hn ha => exact hr.setClient rfl rfl trivial
  | @callInitial n id list c c' res hn hc =>
    have hid : m.entries n = some (.initialising, id) := entries_eq hn
    have hcl := hchain.of_client hn
    have hmem : list ∈ h := by
      have := hr.client n
      rwa [hn] at this
    obtain rfl : (c.callInitial list.initialUpdate).1 = c' := by rw [hc]
    refine hr.called hreg hid ?_ res rfl
    obtain ⟨before, after, rfl⟩ := List.append_of_mem hmem
    refine ⟨before, after, rfl, ?_⟩
    rw [Callback.callInitial_delivered, hcl.2]
    exact List.sublist_append_right _ _
  | join hl hn hf =>
    obtain ⟨-, rfl⟩ := finishIteration_joined hf
    exact hr.setClient rfl rfl trivial
  | @behind n id list next c state hl hn hf =>
    obtain ⟨rfl, rfl, hne⟩ := finishIteration_behind hf
    refine hr.setClient rfl rfl ?_
    have hcl := hr.client n
    rw [hn] at hcl
    obtain ⟨before, rfl⟩ := hr.last
    exact ⟨before, _, (List.append_cons _ _ _).symm, ToldUpTo.before_last hcl hne⟩
  | @callNext n id list next c c' res hn hc =>
    have hid : m.entries n = some (.initialising, id) := entries_eq hn
    have hcl := hr.client n
    rw [hn] at hcl
    obtain ⟨before, after, rfl, hsub⟩ := hcl
    obtain rfl : (c.callFromNotification (next.updateFrom list)).1 = c' := by rw [hc]
    refine hr.called hreg hid ⟨before, after, rfl, ?_⟩ res rfl
    refine (told_callFromNotification c _).trans ?_
    rw [← (hchain.of_client hn).1.delivered]
    exact hsub.append_right _
  | registerQueued kind hl hn hid ha => exact hr.setClient rfl rfl trivial
  | refuseQueued hl hn ha => exact hr.setClient rfl rfl trivial
  | leave stop hl hn => exact hr.setClient rfl rfl trivial
  | ignore hl hv hi =>
    obtain rfl := interfacesDidChange_ignored hv hi
    exact hr.same rfl rfl rfl
  | @dispatch listing visited queues state hl hv hq hi =>
    obtain ⟨list, callbacks, hne, rfl, hget⟩ := interfacesDidChange_dispatched hv hi
    exact hr.dispatch hreg hchain hne hget _
  | push hl => exact hr.same rfl rfl rfl
  | release hl => exact hr.same rfl rfl rfl
  | consume hn hw => exact hr.setClient rfl rfl trivial

theorem recorded {bs : List IfList} {m : Machine} (t : Trace system snapshots bs m) :
    Recorded (∅ :: bs) m := by
  refine t.inv (I := fun bs m => Recorded (∅ :: bs) m) ?_ fun bs m m' r hr hs => hr.step r hs
  rintro m ⟨hw, hc, -, hlog⟩
  refine ⟨⟨[], ?_⟩, ?_, ?_⟩
  · rw [Machine.state, hw]
    rfl
  · intro id
    rw [hlog id]
    exact List.nil_sublist _
  · intro n
    rw [hc n]
    trivial

/-! ## Every change, once it has joined -/

/-- What a step does to a joined watcher: it leaves, nothing happens to it, or it is told a new list. -/
theorem Step.watching {m m' : Machine} (hr : Registry m.entries m.world) {n : Nat} {id : WatcherId}
    (hn : m.clients n = .watching id) (hs : Step m m') :
    m'.clients n = .gone id ∨
    (m'.clients n = .watching id ∧ m'.state.currentInterfaces = m.state.currentInterfaces ∧
      m'.state.callbackWatchers[id]? = m.state.callbackWatchers[id]? ∧ m'.log id = m.log id) ∨
    (m'.clients n = .watching id ∧ m'.state.currentInterfaces ≠ m.state.currentInterfaces ∧
      m'.state.callbackWatchers[id]? = m.state.callbackWatchers[id]?.map
        (·.callFromNotification (m'.state.currentInterfaces.updateFrom m.state.currentInterfaces) |>.1) ∧
      m'.log = record m.log m'.state.callbackWatchers) := by
  have hid : m.entries n = some (.callback, id) := entries_eq hn
  have stays {k : Nat} {c : Client} (hk : m.clients k ≠ .watching id) :
      Function.update m.clients k c n = .watching id := by
    have hne : n ≠ k := by rintro rfl; exact hk hn
    rw [Function.update_of_ne hne, hn]
  -- the id of a client in another place is another id
  have apart {k : Nat} {p : Place} {id' : WatcherId} (hk : m.entries k = some (p, id')) (hp : p ≠ .callback) :
      id ≠ id' := by
    rintro rfl
    exact hp (hr.place_unique ⟨k, hk⟩ ⟨n, hid⟩)
  cases hs with
  | allocate callback hl hk hfit hcalls ha =>
    obtain ⟨w₁, hi, rfl, -, rfl⟩ := allocateCallbackWatcher_ok ha
    obtain ⟨hcb, hcur⟩ := hr.current_of_watching (hr.initialised hi).1 hid
    exact .inr (.inl ⟨stays (by simp [hk]), hcur, hcb, rfl⟩)
  | refuseCallback hl hk ha =>
    have hw := state_eq_of_error hr.support (allocateCallbackWatcher_error ha)
    exact .inr (.inl ⟨stays (by simp [hk]), congrArg State.currentInterfaces hw,
      congrArg (fun s => s.callbackWatchers[id]?) hw, rfl⟩)
  | @callInitial k id' list c c' res hk hc =>
    have hne : id ≠ id' := apart (k := k) (p := .initialising) (entries_eq hk) (by simp)
    exact .inr (.inl ⟨stays (by simp [hk]), rfl, rfl, Function.update_of_ne hne ..⟩)
  | @join k id' list c state hl hk hf =>
    have hne : id ≠ id' := apart (k := k) (p := .initialising) (entries_eq hk) (by simp)
    obtain ⟨-, rfl⟩ := finishIteration_joined hf
    refine .inr (.inl ⟨stays (by simp [hk]), rfl, ?_, rfl⟩)
    simp [Machine.state, Machine.setState, Machine.setClient, HashMap.getElem?_insert, hne.symm]
  | behind hl hk hf =>
    obtain ⟨rfl, -⟩ := finishIteration_behind hf
    exact .inr (.inl ⟨stays (by simp [hk]), rfl, rfl, rfl⟩)
  | @callNext k id' list next c c' res hk hc =>
    have hne : id ≠ id' := apart (k := k) (p := .initialising) (entries_eq hk) (by simp)
    exact .inr (.inl ⟨stays (by simp [hk]), rfl, rfl, Function.update_of_ne hne ..⟩)
  | registerQueued kind hl hk hfit ha =>
    obtain ⟨w₁, hi, rfl, -, rfl⟩ := registerQueuedWatcher_ok ha
    obtain ⟨hcb, hcur⟩ := hr.current_of_watching (hr.initialised hi).1 hid
    exact .inr (.inl ⟨stays (by simp [hk]), hcur, hcb, rfl⟩)
  | refuseQueued hl hk ha =>
    have hw := state_eq_of_error hr.support (registerQueuedWatcher_error ha).1
    exact .inr (.inl ⟨stays (by simp [hk]), congrArg State.currentInterfaces hw,
      congrArg (fun s => s.callbackWatchers[id]?) hw, rfl⟩)
  | @leave k id' stop hl hk =>
    by_cases hkn : k = n
    · subst hkn
      rw [hn] at hk
      obtain rfl : id = id' := by simpa [Client.leaving] using hk
      exact .inl (Function.update_self ..)
    · obtain ⟨p, hp⟩ := entry_of_leaving hk
      have hne : id' ≠ id := fun he => hkn (hr.distinct _ _ _ _ _ hp (he ▸ hid))
      refine .inr (.inl ⟨?_, ?_, ?_, rfl⟩)
      · exact (Function.update_of_ne (Ne.symm hkn) ..).trans hn
      · simp [Machine.state, Machine.setClient, unregisterWatcher_state, State.remove]
      · simp [Machine.state, Machine.setClient, unregisterWatcher_state, State.remove,
          HashMap.getElem?_erase, hne]
  | ignore hl hv hi =>
    obtain rfl := interfacesDidChange_ignored hv hi
    exact .inr (.inl ⟨hn, rfl, rfl, rfl⟩)
  | dispatch hl hv hq hi =>
    obtain ⟨list, callbacks, hne, rfl, hget⟩ := interfacesDidChange_dispatched hv hi
    exact .inr (.inr ⟨hn, hne, hget id, rfl⟩)
  | push hl => exact .inr (.inl ⟨hn, rfl, rfl, rfl⟩)
  | release hl => exact .inr (.inl ⟨hn, rfl, rfl, rfl⟩)
  | consume hk hw => exact .inr (.inl ⟨stays (by simp [hk]), rfl, rfl, rfl⟩)

/-- Where a joined watcher is after the history has gone on by `new`: its handle has been dropped, or
it has been told all of `new`, unless it has failed. -/
def Followed (m : Machine) (n : Nat) (id : WatcherId) (new : List IfList) (t : Machine) : Prop :=
  t.clients n = .gone id ∨
  (t.clients n = .watching id ∧
    t.state.currentInterfaces = currentList m.state.currentInterfaces (new.map some) ∧
    ∀ callback, t.state.callbackWatchers[id]? = some callback → callback.failed = false →
      t.log id = m.log id ++ laterUpdates m.state.currentInterfaces (new.map some) ∧
      told (t.log id) = told (m.log id) ++ new)

theorem Followed.step {m t t' : Machine} {n : Nat} {id : WatcherId} {new : List IfList}
    (hf : Followed m n id new t) (r : Reach system t) (hs : Step t t') :
    Followed m n id (new ++ snapshots t t') t' := by
  have hreg := registry r
  rcases hf with hgone | ⟨hn, hcur, htold⟩
  · exact .inl (hs.gone hreg hgone).1
  rcases hs.watching hreg hn with hgone | ⟨hn', hcur', hcb, hlog⟩ | ⟨hn', hne, hcb, hlog⟩
  · exact .inl hgone
  · rw [snapshots_same hcur', List.append_nil]
    refine .inr ⟨hn', hcur'.trans hcur, ?_⟩
    intro callback hc hfail
    rw [hlog]
    exact htold callback (hcb ▸ hc) hfail
  · have hnew : snapshots t t' = [t'.state.currentInterfaces] := if_neg hne
    rw [hnew, Followed, List.map_append, List.map_singleton]
    refine .inr ⟨hn', by rw [currentList_concat]; rfl, ?_⟩
    intro callback hc hfail
    obtain ⟨c₀, hc₀, rfl⟩ := Option.map_eq_some_iff.1 (hcb.symm.trans hc)
    have hf₀ : c₀.failed = false := by
      cases hf₀ : c₀.failed with
      | false => rfl
      | true => rw [Callback.callFromNotification_of_failed hf₀, hf₀] at hfail; cases hfail
    obtain ⟨hupd, htold⟩ := htold c₀ hc₀ hf₀
    have hdel : t'.log id = t.log id ++ [t'.state.currentInterfaces.updateFrom t.state.currentInterfaces] := by
      rw [hlog, record_of_some hc, Callback.callFromNotification_delivered hf₀,
        ((chain r).told hreg hc₀).delivered]
    rw [hdel]
    refine ⟨?_, ?_⟩
    · rw [hupd, laterUpdates_concat, ← hcur, List.append_assoc]
      simp [WatchFd.nextUpdate, UpdateCursor.advance, hne]
    · rw [told_append, htold, List.append_assoc]
      rfl

/-- **Android callbacks skip nothing.** Whatever a callback is told is a subsequence of the history of
the snapshot; and one that has joined is told, until it fails or its handle goes, exactly the updates
that the history makes due. -/
theorem callbacks_skip_nothing :
    (∀ bs m, Trace system snapshots bs m → ∀ id, (told (m.log id)).Sublist (∅ :: bs)) ∧
    (∀ m new m', Reach system m → Path system snapshots m new m' →
      ∀ (id : WatcherId) (callback callback' : Callback),
        m.state.callbackWatchers[id]? = some callback → m'.state.callbackWatchers[id]? = some callback' →
        callback'.failed = false →
        m'.log id = m.log id ++ laterUpdates m.state.currentInterfaces (new.map some) ∧
        told (m'.log id) = told (m.log id) ++ new) := by
  refine ⟨fun bs m t id => (recorded t).sublist id, ?_⟩
  intro m new m' r p id callback callback' hc hc' hf
  obtain ⟨n, hn⟩ := ((registry r).callback id).1 ⟨callback, hc⟩
  have h0 : Followed m n id [] m := by
    refine .inr ⟨watching_of_entry hn, rfl, ?_⟩
    intro callback _ _
    simp [laterUpdates]
  rcases p.inv (I := Followed m n id) r h0 fun _ _ _ rt hf hs => hf.step rt hs with hgone | ⟨hn', -, htold⟩
  · have hid : m'.entries n = some (.nowhere, id) := entries_eq hgone
    have hno := (registry (r.later p.later)).callback_none hid (by simp)
    cases hno.symm.trans hc'
  · exact htold callback' hc' hf

theorem callbacks_skip_nothing_notified :
    (∃ bs, Trace system snapshots bs quietNotified ∧ (told (quietNotified.log 1)).Sublist (∅ :: bs)) ∧
      quietNotified.log 1 = quietJoined.log 1 ++ laterUpdates wlan0 [some rmnet0] ∧
      told (quietNotified.log 1) = told (quietJoined.log 1) ++ [rmnet0] := by
  have released : Step { quietNotified with lock := .pushing [] } quietNotified := Step.release rfl
  have start : Path system snapshots quietJoined [] quietJoined := .refl
  have path := (start.step step_quietJoined).step released
  obtain ⟨bs, t⟩ : ∃ bs, Trace system snapshots bs quietNotified := (reach_quietJoined.later path.later).trace
  have hnew : ([] ++ snapshots quietJoined { quietNotified with lock := .pushing [] }) ++
      snapshots { quietNotified with lock := .pushing [] } quietNotified = [rmnet0] := by decide
  rw [hnew] at path
  have joined := callbacks_skip_nothing.2 quietJoined [rmnet0] quietNotified reach_quietJoined path 1
    quietTold _ Std.ExtTreeMap.getElem?_insert_self rfl rfl
  exact ⟨⟨bs, t, callbacks_skip_nothing.1 bs quietNotified t 1⟩, joined⟩

end Netwatcher.WatchAndroid
