import Netwatcher.Replay
import Netwatcher.WatchWin.Deliveries
/-!
# Windows clients that work by diffs alone (`src/watch_win.rs`)

Whatever the state of a registration is given comes from a listing (`KeptFrom`): so do the lists a
callback is told of, and those a consumer finds in its queue.
-/
namespace Netwatcher.WatchWin
open Coll Runs Refresh

/-- A listing made under the lock is one that `list_interfaces` returns. -/
structure Machine.Lists {T : Type} (m : Machine T) : Prop where
  dispatch : ∀ k r, m.holder = .dispatch k (.loaded r) → ListWin.Returns r
  owner : ∀ r, m.pc = .loaded r → ListWin.Returns r

/-- What everybody who touches the state keeps, if the lists they give it have `ok`. -/
structure KeptFrom {T : Type} (P : Protocol T) (ok : IfList → Prop) (J : T → Prop) : Prop where
  fresh : ∀ t, P.fresh t → J t
  initial : ∀ t l, ok l → P.fresh t → J (P.handleInitial t l).1
  notif : ∀ t l, ok l → J t → P.running t → J (P.handleNotif t l).1
  unwinds : ∀ t l t', ok l → J t → P.unwinds t l t' → J t'
  disable : ∀ t, J t → J (P.disable t)
  outside : ∀ t t', J t → P.outside t t' → J t'

section
variable {T : Type} {P : Protocol T} {J : T → Prop}

theorem KeptFrom.step (hJ : KeptFrom P IfList.WF J) (hP : Lawful P) {m m' : Machine T} {e : Label}
    (hlocks : Locks P m) (hlists : m.Lists) (h : J m.st) (hs : Step P m e m') : J m'.st := by
  cases hs with
  | @dispatchHandle k list st result ha hd hr =>
    obtain rfl : (P.handleNotif m.st list).1 = st := by rw [hr]
    by_cases hrun : P.running m.st
    · exact hJ.notif _ list ((hlists.dispatch _ _ hd).proper _ rfl) h hrun
    · rw [Protocol.running, not_and_or, Bool.not_eq_false, Bool.not_eq_false] at hrun
      rwa [hP.notif_ignored _ list hrun]
  | dispatchUnwinds ha hd hu => exact hJ.unwinds _ _ _ ((hlists.dispatch _ _ hd).proper _ rfl) h hu
  | @initialised list st hpc hi | @initialPanicked list st payload hpc hi =>
    obtain rfl : (P.handleInitial m.st list).1 = st := by rw [hi]
    exact hJ.initial _ list ((hlists.owner _ hpc).proper _ rfl) (hlocks.phase_at hpc)
  | outside hpc ho => exact hJ.outside _ _ h ho
  | disable => exact hJ.disable _ h
  | _ => exact h

theorem KeptFrom.reach (hJ : KeptFrom P IfList.WF J) (hP : Lawful P) {m : Machine T}
    (r : Reach ((system P).restrict Machine.Lists) m) : J m.st := by
  refine r.restrict_inv (I := fun m => J m.st) ?_ ?_
  · rintro m ⟨hf, -⟩ -
    exact hJ.fresh _ hf
  · rintro m m' r hlists h ⟨e, hs⟩ -
    exact hJ.step hP (locks hP r) hlists h hs

end

/-! ## The callback watch -/

variable {P : IfList → Prop}

/-- The callback has been told of lists with `P` only. -/
def ToldOf (P : IfList → Prop) (s : WatchState) : Prop := ∀ u ∈ s.callback.delivered, P u.interfaces

theorem ToldOf.notif {s : WatchState} (h : ToldOf P s) {list : IfList} (hl : P list)
    (hi : s.initialising = false) (hd : s.disabled = false) : ToldOf P (handleNotif s list).1 := by
  rw [ToldOf, handleNotif_callback hi hd]
  cases hadv : (s.cursor.advance list).2 with
  | none => exact h
  | some update =>
    change ∀ u ∈ (s.callback.callFromNotification update).1.delivered, P u.interfaces
    cases hf : s.callback.failed with
    | true =>
      rw [Callback.callFromNotification_of_failed hf]
      exact h
    | false =>
      rw [Callback.callFromNotification_delivered hf]
      intro u hu
      rcases List.mem_append.1 hu with hu | hu
      · exact h u hu
      · rw [List.mem_singleton.1 hu, UpdateCursor.advance_interfaces hadv]
        exact hl

theorem toldOf_kept : KeptFrom callbackWatch P (ToldOf P) where
  fresh := by
    rintro _ ⟨f, hf, rfl⟩ u hu
    have hd : (WatchState.new f).callback.delivered = [] := hf
    rw [hd] at hu
    cases hu
  initial := by
    rintro _ l hl ⟨f, hf, rfl⟩
    change ToldOf P (handleInitialNotif (.new f) l).1
    rw [handleInitialNotif_new hf]
    intro u hu
    obtain rfl : u = l.initialUpdate := List.mem_singleton.1 hu
    exact hl
  notif _ _ hl h hrun := h.notif hl hrun.1 hrun.2
  unwinds _ _ _ _ _ hu := hu.elim
  disable _ h := h
  outside _ _ _ ho := ho.elim

/-! ## The queued watch -/

def QueuedOf (P : IfList → Prop) (ends : QueuedEnds) : Prop := EndOf P (ends.state.queue, ends.watch)

theorem QueuedOf.notif {ends : QueuedEnds} (h : QueuedOf P ends) {list : IfList} (hl : P list)
    (hi : ends.state.initialising = false) (hd : ends.state.disabled = false) :
    QueuedOf P { ends with state := handleQueuedNotif ends.state list } := by
  have hno : ¬ (ends.state.initialising || ends.state.disabled) = true := by simp [hi, hd]
  rw [handleQueuedNotif, if_neg hno]
  split
  · exact h
  · exact EndOf.push h hl

theorem queuedOf_kept : KeptFrom queuedWatch P (QueuedOf P) where
  fresh := by
    rintro _ ⟨kind, rfl⟩
    exact .new kind nofun
  initial := by
    rintro _ l hl ⟨kind, rfl⟩
    exact EndOf.push (q := emptyAsyncCallbackQueue) (.new kind nofun) hl
  notif _ _ hl h hrun := h.notif hl hrun.1 hrun.2
  unwinds _ _ _ hl h hu := by
    obtain ⟨hi, hd, -, -, rfl⟩ := hu
    exact h.notif hl hi hd
  disable _ h := h
  outside ends ends' h ho := by
    cases ho with
    | step hlook hw => exact h.step hw
    | panics => exact ⟨h.latest, nofun, h.yielded⟩

/-- **The updates of both Windows watches can be followed by diffs**, whatever the OS reports in their
listings. -/
theorem windows_byDiffs :
    (∀ m, Reach ((system callbackWatch).restrict Machine.Lists) m → ByDiffs m.st.callback.delivered) ∧
    (∀ m, Reach ((system queuedWatch).restrict Machine.Lists) m → ByDiffs m.st.watch.yielded) := by
  refine ⟨?_, ?_⟩
  · intro m r
    have hlog := watchOk_kept.reach callbackWatch_lawful r.restrict.1
    exact hlog.unbroken.byDiffs (toldOf_kept.reach callbackWatch_lawful r)
  · intro m r
    have hends := endsOk r.restrict.1
    refine Unbroken.byDiffs ?_ (queuedOf_kept.reach queuedWatch_lawful r).yielded
    cases hi : m.st.state.initialising with
    | false => exact (hends.pushed hi).linked.1
    | true =>
      obtain ⟨-, kind, hw⟩ := hends.fresh hi
      rw [hw]
      exact .nil

/-- An adapter without addresses, at the head of the chain that goes on at `next`. -/
def adapterNamed (ifIndex : UInt32) (friendlyName : List UInt16) (next : ListWin.Ptr) :
    ListWin.AdapterAddresses :=
  { ifIndex, next, firstUnicastAddress := 0, friendlyName, operStatus := 1
    physicalAddress := .replicate 8 0, physicalAddressLength := 0, ipv6IfIndex := 0 }

def ethernetHeader : ListWin.Ptr → ListWin.AdapterAddresses :=
  adapterNamed 12 [0x45, 0x74, 0x68, 0x65, 0x72, 0x6E, 0x65, 0x74]

def wifiHeader : ListWin.Ptr → ListWin.AdapterAddresses := adapterNamed 7 [0x57, 0x69, 0x2D, 0x46, 0x69]

def replyOf (headers : List (ListWin.Ptr × ListWin.AdapterAddresses)) : ListWin.Reply :=
  ⟨ListWin.errorSuccess, ListWin.startSize, 1, ListWin.memoryAt headers []⟩

theorem returns_ethernet : ListWin.Returns (.ok ethernet) :=
  ⟨fun _ _ => replyOf [(1, ethernetHeader 0)], 2, rfl⟩

theorem returns_wifi : ListWin.Returns (.ok wifi) :=
  ⟨fun _ _ => replyOf [(1, ethernetHeader 2), (2, wifiHeader 0)], 3, rfl⟩

section
variable {T : Type} {P : Protocol T} {t t' : T} {list : IfList}

/-- The run of `calm_started`, when it is `list_interfaces` that has returned the list. -/
theorem lists_started (hl : ListWin.Returns (.ok list)) (ht : P.fresh t)
    (hi : P.handleInitial t list = (t', .ok ())) :
    Reach ((system P).restrict Machine.Lists) (started list t') := by
  have accepted (raw : Nat) : registrationResult NO_ERROR raw = .ok ⟨raw⟩ := if_pos rfl
  have start : Reach ((system P).restrict Machine.Lists) { listed list t with
      sources := fun _ => ⟨none, false, 0⟩, holder := .free, pc := .registering .unicast } :=
    .init ⟨⟨ht, rfl, rfl, fun _ => rfl, rfl, rfl⟩, nofun, nofun⟩
  have unicast := start.step ⟨⟨.plain, Step.register rfl (accepted 1)⟩, nofun, nofun⟩
  have both := unicast.step ⟨⟨.plain, Step.register rfl (accepted 2)⟩, nofun, nofun⟩
  have locked := both.step ⟨⟨.plain, Step.lock rfl rfl rfl⟩, nofun, nofun⟩
  have loaded := locked.step ⟨⟨.plain, Step.load (.ok list) rfl fun _ => rfl⟩, nofun, by rintro r ⟨⟩; exact hl⟩
  exact loaded.step ⟨⟨.plain, Step.initialised rfl hi⟩, nofun, nofun⟩

/-- And that of `calm_renotified`. -/
theorem lists_renotified (hP : Lawful P) (r : Reach ((system P).restrict Machine.Lists) (started list t))
    {list' : IfList} (hl : ListWin.Returns (.ok list')) :
    Reach ((system P).restrict Machine.Lists) (renotified P list list' t) := by
  have live (k : Kind) : ((started list t).sources k).live = true := by cases k <;> rfl
  have ha : (started list t).pc ≠ .aborted := nofun
  have changed := r.step ⟨⟨.plain, Step.change list' ha live⟩, nofun, nofun⟩
  have raised := changed.step ⟨⟨.plain, Step.notify .unicast 1 ha (live .unicast)⟩, nofun, nofun⟩
  have locked := raised.step ⟨⟨.plain, Step.dispatchLock (k := .unicast) (n := 0) ha rfl rfl rfl⟩, nofun, nofun⟩
  have loaded := locked.step ⟨⟨.plain, Step.dispatchLoad (.ok list') ha rfl fun _ => rfl⟩,
    by rintro k r ⟨⟩; exact hl, nofun⟩
  have handled := loaded.step ⟨⟨.plain, Step.dispatchHandle ha rfl rfl⟩, nofun, nofun⟩
  have hs : Function.update (started list t).sources .unicast { (started list t).sources .unicast with
      waiting := 0 } = (started list t).sources := Function.update_eq_self ..
  have hok := hP.notif_ok t list'
  simp only [Machine.setWaiting, Machine.setSource, Function.update_self, Function.update_idem, hs] at handled
  simpa [renotified, started, listed, Tracked.change, Tracked.raise, Tracked.beginRead, hok,
    Except.toOption] using handled

/-- While the lock is free the consumer makes no listing. -/
theorem lists_outside {m : Machine T} (r : Reach ((system P).restrict Machine.Lists) m) (hpc : m.pc = .alive)
    (hf : m.holder = .free) {st : T} (ho : P.outside m.st st) :
    Reach ((system P).restrict Machine.Lists) { m with st } := by
  refine r.step ⟨⟨.plain, Step.outside hpc ho⟩, ?_, ?_⟩
  · intro k r hd
    cases hf.symm.trans hd
  · intro r hl
    cases hpc.symm.trans hl

end

theorem windows_byDiffs_told :
    (ByDiffs quietTold.st.callback.delivered ∧
      quietTold.st.callback.delivered = [ethernet.initialUpdate, wifi.updateFrom ethernet]) ∧
    ByDiffs queuedServed.st.watch.yielded ∧
      queuedServed.st.watch.yielded = [ethernet.initialUpdate, wifi.updateFrom ethernet] := by
  have quiet : Reach ((system callbackWatch).restrict Machine.Lists) quietTold :=
    lists_renotified callbackWatch_lawful (lists_started returns_ethernet ⟨.quiet, rfl, rfl⟩ rfl) returns_wifi
  have begun : Reach ((system queuedWatch).restrict Machine.Lists) (started ethernet
      ⟨handleInitialQueuedNotif .new ethernet, .new .async, false⟩) :=
    lists_started returns_ethernet ⟨.async, rfl⟩ rfl
  have call := lists_outside begun rfl rfl (.step nofun (.call rfl))
  have found := lists_outside call rfl rfl (.step (fun _ => rfl) (.found 7 rfl rfl))
  have yielded := lists_outside found rfl rfl (.step nofun (.digest rfl))
  have again := lists_outside yielded rfl rfl (.step nofun (.call rfl))
  have suspended : Reach ((system queuedWatch).restrict Machine.Lists) (started ethernet awaiting) :=
    lists_outside again rfl rfl (.step (fun _ => rfl) (.empty 7 rfl rfl))
  have told := lists_renotified queuedWatch_lawful suspended returns_wifi
  have woken := lists_outside told rfl rfl (.step nofun (.wake rfl))
  have found' := lists_outside woken rfl rfl (.step (fun _ => rfl) (.found 7 rfl rfl))
  have digested := lists_outside found' rfl rfl (.step nofun (.digest rfl))
  have served : Reach ((system queuedWatch).restrict Machine.Lists) queuedServed := digested
  exact ⟨⟨windows_byDiffs.1 quietTold quiet, rfl⟩, windows_byDiffs.2 queuedServed served, rfl⟩

end Netwatcher.WatchWin
