import Netwatcher.QueuedWatches
import Netwatcher.WatchFd.Modes
/-!
# Windows deliveries are those of the other platforms (`src/watch_win.rs`)

A Windows callback watch is given listing results under its lock: the owner's, and one for each
notification that finds the watch initialised and not disabled. What the callback is called with is
`expectedUpdates` of these results, the function that says what the Unix watches deliver.

| here | there |
| --- | --- |
| `atHand`  | a listing result about to reach `cursor.advance` (watch_win.rs:303-308, :339, :350) |
| `Given`   | the cursor and the callback once they have been given these results |
-/
namespace Netwatcher.WatchWin
open Coll Runs Refresh

/-! ## The callback watch -/

/-- A result that the holder of the lock has, and will not throw away. -/
def Machine.atHand (m : Machine WatchState) : Option (Option IfList) :=
  match m.holder, m.pc with
  | .dispatch _ (.loaded r), _ =>
    if m.st.initialising || m.st.disabled then none else some r.toOption
  | .owner, .loaded (.ok list) => some (some list)
  | _, _ => none

def handed (m m' : Machine WatchState) : List (Option IfList) := handedOver m.atHand m'.atHand

/-- A state that has been given `first` and then `rs`. The callback is not called any more once it has
panicked. -/
structure Given (first : IfList) (rs : List (Option IfList)) (state : WatchState) : Prop where
  cursor : state.cursor = ⟨currentList first rs, false⟩
  delivered : state.callback.delivered <+: expectedUpdates first rs
  all : state.callback.failed = false → state.callback.delivered = expectedUpdates first rs

section
variable {first : IfList} {rs : List (Option IfList)} {s : WatchState}

theorem expectedUpdates_concat (first : IfList) (rs : List (Option IfList)) (r : Option IfList) :
    expectedUpdates first (rs ++ [r]) =
      expectedUpdates first rs ++ (WatchFd.nextUpdate ⟨currentList first rs, false⟩ r).2.toList := by
  rw [expectedUpdates, laterUpdates_concat]
  rfl

theorem Given.initial {f : FnMut} (hf : f.calls = []) (list : IfList) :
    Given list [] (handleInitialNotif (.new f) list).1 := by
  rw [handleInitialNotif_new hf]
  exact ⟨rfl, List.prefix_refl _, fun _ => rfl⟩

/-- A listing that failed. -/
theorem Given.none (h : Given first rs s) : Given first (rs ++ [none]) s := by
  have he : expectedUpdates first (rs ++ [Option.none]) = expectedUpdates first rs := by
    rw [expectedUpdates_concat]
    exact List.append_nil _
  refine ⟨?_, by rw [he]; exact h.delivered, by rw [he]; exact h.all⟩
  rw [currentList_concat]
  exact h.cursor

/-- The callback of a running watch is called with what the cursor emits, if anything. -/
theorem handleNotif_callback (hi : s.initialising = false) (hd : s.disabled = false) (list : IfList) :
    (handleNotif s list).1.callback = match (s.cursor.advance list).2 with
      | some update => (s.callback.callFromNotification update).1
      | .none => s.callback := by
  unfold handleNotif
  simp only [hi, hd, Bool.or_self, Bool.false_eq_true, if_false]
  split <;> rename_i h <;> rw [h]

/-- A notification of a running watch. -/
theorem Given.notif (h : Given first rs s) (hi : s.initialising = false) (hd : s.disabled = false)
    (list : IfList) : Given first (rs ++ [some list]) (handleNotif s list).1 := by
  have hc : (handleNotif s list).1.cursor = ⟨currentList first (rs ++ [some list]), false⟩ := by
    rw [(handleNotif_running hi hd list).2.2, currentList_concat]
    exact congrArg₂ UpdateCursor.mk (UpdateCursor.advance_prevList ..) (UpdateCursor.advance_initialPending ..)
  have he : expectedUpdates first (rs ++ [some list]) =
      expectedUpdates first rs ++ (s.cursor.advance list).2.toList := by
    rw [expectedUpdates_concat, WatchFd.nextUpdate, h.cursor]
  have hcb := handleNotif_callback hi hd list
  cases hf : s.callback.failed with
  | true =>
    have hsame : (handleNotif s list).1.callback = s.callback := by
      rw [hcb]
      split
      · exact Callback.callFromNotification_of_failed hf _
      · rfl
    refine ⟨hc, ?_, fun hf' => by rw [hsame, hf] at hf'; cases hf'⟩
    rw [hsame, he]
    exact h.delivered.trans (List.prefix_append _ _)
  | false =>
    have hdel : (handleNotif s list).1.callback.delivered = expectedUpdates first (rs ++ [some list]) := by
      rw [hcb, he, ← h.all hf]
      cases (s.cursor.advance list).2 with
      | none => simp
      | some u => exact Callback.callFromNotification_delivered hf u
    exact ⟨hc, by rw [hdel], fun _ => hdel⟩

end

/-- Nothing has been listed and the callback has not been called, or it has been given `hist`. -/
def GivenAll (hist : List (Option IfList)) (s : WatchState) : Prop :=
  (hist = [] ∧ s.initialising = true ∧ s.callback.delivered = []) ∨
  ∃ first rs, hist = some first :: rs ∧ Given first rs s

/-- A step that neither gives nor changes anything. -/
theorem GivenAll.frame {hist : List (Option IfList)} {m m' : Machine WatchState} (h : GivenAll hist m.st)
    (hst : m'.st = m.st) (hh : handed m m' = []) : GivenAll (hist ++ handed m m') m'.st := by
  rwa [hh, List.append_nil, hst]

theorem handed_same {m m' : Machine WatchState} (h : m'.atHand = m.atHand) : handed m m' = [] := by
  rw [handed, h, handedOver_self]

theorem handed_of_none {m m' : Machine WatchState} (h : m.atHand = none) : handed m m' = [] := by
  rw [handed, h]
  rfl

/-- While the owner does not have the lock only a notification has a result at hand. -/
theorem atHand_of_pc {m : Machine WatchState} {pc : Pc} (hlocks : Locks callbackWatch m) (hpc : m.pc = pc)
    (h : pc.holds = false) (pc' : Pc) : ({ m with pc := pc' } : Machine WatchState).atHand = m.atHand := by
  have hno : m.holder ≠ .owner := by
    intro ho
    rw [hlocks.owner, hpc, h] at ho
    cases ho
  unfold Machine.atHand
  cases hh : m.holder with
  | owner => exact absurd hh hno
  | free => rfl
  | dispatch k phase => cases phase <;> rfl

/-- The state a registration starts from has been given nothing. -/
theorem GivenAll.fresh {hist : List (Option IfList)} {s : WatchState} (h : GivenAll hist s)
    (hf : callbackWatch.fresh s) : hist = [] := by
  obtain ⟨f, hcalls, rfl⟩ := hf
  rcases h with ⟨rfl, -⟩ | ⟨first, rs, -, hg⟩
  · rfl
  · cases congrArg UpdateCursor.initialPending hg.cursor

/-- One that is initialised has been given the owner's listing at least. -/
theorem GivenAll.given {hist : List (Option IfList)} {s : WatchState} (h : GivenAll hist s)
    (hi : s.initialising = false) : ∃ first rs, hist = some first :: rs ∧ Given first rs s := by
  rcases h with ⟨-, hi', -⟩ | hg
  · cases hi.symm.trans hi'
  · exact hg

/-- The first listing reaches the callback, whether or not the callback survives it. -/
theorem GivenAll.initial {hist : List (Option IfList)} {m m' : Machine WatchState} {list : IfList}
    (h : GivenAll hist m.st) (hf : callbackWatch.fresh m.st)
    (hst : (callbackWatch.handleInitial m.st list).1 = m'.st) (hh : handed m m' = [some list]) :
    GivenAll (hist ++ handed m m') m'.st := by
  rw [h.fresh hf, hh, ← hst]
  obtain ⟨f, hcalls, hs⟩ := hf
  rw [hs]
  exact .inr ⟨list, [], rfl, .initial hcalls list⟩

theorem GivenAll.step {hist : List (Option IfList)} {m m' : Machine WatchState} {e : Label}
    (h : GivenAll hist m.st) (hlocks : Locks callbackWatch m) (hs : Step callbackWatch m e m') :
    GivenAll (hist ++ handed m m') m'.st := by
  cases hs with
  | change list ha hl => exact h.frame rfl (handed_same rfl)
  | drift list ha hl => exact h.frame rfl (handed_same rfl)
  | notify k changes ha hl => exact h.frame rfl (handed_same rfl)
  | dispatchLock ha hw hf hp => exact h.frame rfl (handed_of_none (by simp [Machine.atHand, hf]))
  | dispatchPoisoned ha hw hf hp => exact h.frame rfl (handed_same rfl)
  | dispatchLoad r ha hd hr => exact h.frame rfl (handed_of_none (by simp [Machine.atHand, hd]))
  | @dispatchFail k err ha hd =>
    cases hrun : m.st.initialising || m.st.disabled with
    | true => exact h.frame rfl (handed_of_none (by simp [Machine.atHand, hd, hrun]))
    | false =>
      obtain ⟨hi, -⟩ := Bool.or_eq_false_iff.1 hrun
      obtain ⟨first, rs, rfl, hg⟩ := h.given hi
      have hh : handed m { m with holder := .free } = [none] := by
        simp [handed, Machine.atHand, hd, hrun, handedOver, Except.toOption]
      rw [hh]
      exact .inr ⟨first, rs ++ [none], rfl, hg.none⟩
  | @dispatchHandle k list st result ha hd hr =>
    obtain rfl : (handleNotif m.st list).1 = st := by rw [← (Prod.mk.inj hr).1]; rfl
    cases hrun : m.st.initialising || m.st.disabled with
    | true =>
      refine h.frame ?_ (handed_of_none (by simp [Machine.atHand, hd, hrun]))
      simp [handleNotif, hrun]
    | false =>
      obtain ⟨hi, hdis⟩ := Bool.or_eq_false_iff.1 hrun
      obtain ⟨first, rs, rfl, hg⟩ := h.given hi
      have hh : handed m { m with
          st := (handleNotif m.st list).1, holder := .free
          poisoned := m.poisoned || result.toOption.isNone } = [some list] := by
        simp [handed, Machine.atHand, hd, hrun, handedOver, Except.toOption]
      rw [hh]
      exact .inr ⟨first, rs ++ [some list], rfl, hg.notif hi hdis list⟩
  | dispatchPanics ha hd => exact h.frame rfl (handed_of_none (by simp [Machine.atHand, hd]))
  | dispatchUnwinds ha hd hu => exact hu.elim
  | register hpc hr => exact h.frame rfl (handed_same (atHand_of_pc hlocks hpc rfl _))
  | registerFailed hpc hr => exact h.frame rfl (handed_same (atHand_of_pc hlocks hpc rfl _))
  | lock hpc hf hp => exact h.frame rfl (handed_of_none (by simp [Machine.atHand, hf]))
  | lockPoisoned hpc hf hp => exact h.frame rfl (handed_same (atHand_of_pc hlocks hpc rfl _))
  | load _ hpc | listPanicked hpc | listFailed hpc =>
    exact h.frame rfl (handed_of_none (by simp [Machine.atHand, hlocks.owner.2, hpc, Pc.holds]))
  | @initialised list st hpc hi =>
    refine GivenAll.initial h (hlocks.phase_at hpc) (by rw [hi]) ?_
    simp [handed, Machine.atHand, hlocks.owner.2, hpc, Pc.holds, handedOver]
  | @initialPanicked list st payload hpc hi =>
    refine GivenAll.initial h (hlocks.phase_at hpc) (by rw [hi]) ?_
    simp [handed, Machine.atHand, hlocks.owner.2, hpc, Pc.holds, handedOver]
  | outside hpc ho => exact ho.elim
  | close hpc => exact h.frame rfl (handed_same (atHand_of_pc hlocks hpc rfl _))
  | skip hpc hn => exact h.frame rfl (handed_same (atHand_of_pc hlocks hpc rfl _))
  | cancelled hpc hn hr hi => exact h.frame rfl (handed_same (atHand_of_pc hlocks hpc rfl _))
  | cancelFailed hpc hn hr => exact h.frame rfl (handed_same (atHand_of_pc hlocks hpc rfl _))
  | disable hpc hf hp =>
    rw [handed_of_none (by simp [Machine.atHand, hf]), List.append_nil]
    rcases h with h | ⟨first, rs, he, hg⟩
    · exact .inl h
    · exact .inr ⟨first, rs, he, ⟨hg.cursor, hg.delivered, hg.all⟩⟩
  | abort hpc hf hp => exact h.frame rfl (handed_same (atHand_of_pc hlocks hpc rfl _))
  | dropPanic hpc he hf hp => exact h.frame rfl (handed_same (atHand_of_pc hlocks hpc rfl _))
  | release hpc => exact h.frame rfl (handed_same (atHand_of_pc hlocks hpc rfl _))

theorem givenAll {hist : List (Option IfList)} {m : Machine WatchState}
    (t : Trace (system callbackWatch) handed hist m) : GivenAll hist m.st := by
  refine t.inv (I := fun hist m => GivenAll hist m.st) ?_ ?_
  · rintro m ⟨⟨f, hcalls, hst⟩, -⟩
    rw [hst]
    exact .inl ⟨rfl, rfl, hcalls⟩
  · rintro hist m m' r h ⟨e, hs⟩
    exact h.step (locks callbackWatch_lawful r) hs

/-! ### Every sequence of results has a run -/

/-- A callback that never panics. -/
def Quiet (s : WatchState) : Prop :=
  s.callback.failed = false ∧ ∀ calls, s.callback.callback.behaviour calls = .ok ()

theorem Quiet.notif {s : WatchState} (h : Quiet s) (hi : s.initialising = false) (hd : s.disabled = false)
    (list : IfList) : Quiet (handleNotif s list).1 := by
  rw [Quiet, handleNotif_callback hi hd]
  cases (s.cursor.advance list).2 with
  | none => exact h
  | some u =>
    refine ⟨?_, by simpa using h.2⟩
    rw [← Bool.not_eq_true, Callback.callFromNotification_failed, h.1, h.2]
    simp

/-- A notification comes and is handled; the interfaces change while it lists, so its result may be any. -/
theorem trace_round {hist : List (Option IfList)} {m : Machine WatchState}
    (t : Trace (system callbackWatch) handed hist m) (hpc : m.pc = .alive) (hf : m.holder = .free)
    (hp : m.poisoned = false) (hq : Quiet m.st) (r : Except Error IfList) :
    ∃ m', Trace (system callbackWatch) handed (hist ++ [r.toOption]) m' ∧ m'.pc = .alive ∧
      m'.holder = .free ∧ m'.poisoned = false ∧ Quiet m'.st := by
  have hlocks := locks callbackWatch_lawful t.reach
  have hlive : ∀ k, (m.sources k).live = true := (regs t.reach).placed_at hpc
  have hi : m.st.initialising = false := (hlocks.phase_at hpc).1
  have hd : m.st.disabled = false := (hlocks.phase_at hpc).2
  have ha : m.pc ≠ .aborted := by simp [hpc]
  have t1 := t.silent ⟨.plain, Step.notify .unicast 0 ha (hlive .unicast)⟩ (handed_same rfl)
  have t2 := t1.silent ⟨.plain, Step.dispatchLock (k := .unicast) (n := (m.sources .unicast).waiting) ha
    (by simp [Machine.setWaiting, Machine.setSource]) hf hp⟩
    (handed_of_none (by simp [Machine.atHand, Machine.setWaiting, Machine.setSource, hf]))
  have t3 := t2.silent ⟨.plain, Step.change ∅ ha fun k => by
    cases k <;> simpa [Machine.setWaiting, Machine.setSource, Source.live] using hlive _⟩ (handed_same rfl)
  have t4 := t3.silent ⟨.plain, Step.dispatchLoad r ha rfl fun h => by cases h⟩
    (handed_of_none (by simp [Machine.atHand]))
  have hout : ∀ {m₁ m₂ : Machine WatchState}, m₁.holder = .dispatch .unicast (.loaded r) →
      m₁.st = m.st → m₂.holder = .free → handed m₁ m₂ = [r.toOption] := by
    intro m₁ m₂ h₁ hst h₂
    simp [handed, Machine.atHand, h₁, h₂, hst, hi, hd, handedOver]
  cases r with
  | error err => exact ⟨_, t4.emit ⟨.plain, Step.dispatchFail ha rfl⟩ (hout rfl rfl rfl), hpc, rfl, hp, hq⟩
  | ok list =>
    have hp' : (m.poisoned || (callbackWatch.handleNotif m.st list).2.toOption.isNone) = false := by
      rw [hp, callbackWatch_lawful.notif_ok]
      rfl
    exact ⟨_, t4.emit ⟨.plain, Step.dispatchHandle ha rfl rfl⟩ (hout rfl rfl rfl), hpc, rfl, hp',
      hq.notif hi hd list⟩

/-- The handle of a callback that never panics, once the first listing has returned `first`. -/
theorem trace_first (first : IfList) :
    ∃ m, Trace (system callbackWatch) handed [some first] m ∧ m.pc = .alive ∧ m.holder = .free ∧
      m.poisoned = false ∧ Quiet m.st := by
  have t0 : Trace (system callbackWatch) handed []
      ⟨⟨first, 0, false⟩, .new .quiet, false, true, fun _ => ⟨none, false, 0⟩, .free, .registering .unicast⟩ :=
    .init ⟨⟨.quiet, rfl, rfl⟩, rfl, rfl, fun _ => rfl, rfl, rfl⟩
  have accepted (raw : Nat) : registrationResult NO_ERROR raw = .ok ⟨raw⟩ := if_pos rfl
  have t1 := t0.silent ⟨.plain, Step.register rfl (accepted 1)⟩ rfl
  have t2 := t1.silent ⟨.plain, Step.register rfl (accepted 2)⟩ rfl
  have t3 := t2.silent ⟨.plain, Step.lock rfl rfl rfl⟩ rfl
  have t4 := t3.silent ⟨.plain, Step.load (.ok first) rfl fun _ => rfl⟩ rfl
  exact ⟨_, t4.emit ⟨.plain, Step.initialised rfl rfl⟩ rfl, rfl, rfl, rfl, rfl, fun _ => rfl⟩

theorem trace_exists (first : IfList) (rs : List (Option IfList)) :
    ∃ m, Trace (system callbackWatch) handed (some first :: rs) m ∧ m.pc = .alive ∧ m.holder = .free ∧
      m.poisoned = false ∧ Quiet m.st := by
  induction rs using List.reverseRecOn with
  | nil => exact trace_first first
  | append_singleton rs r ih =>
    obtain ⟨m, t, hpc, hf, hp, hq⟩ := ih
    cases r with
    | none => exact trace_round t hpc hf hp hq (.error .invalidHandle)
    | some list => exact trace_round t hpc hf hp hq (.ok list)

/-- **Windows callbacks are told what Unix callbacks are told**: given `first` and then `rs`, a callback
that has not failed has been called with `expectedUpdates first rs` and nothing else, and one that has
failed with a beginning of it; one that has been given nothing has not been called. Nothing is given before
the owner's listing, and every sequence of results is given in some run. -/
theorem callback_deliveries (first : IfList) (rs : List (Option IfList)) :
    (∀ hist m, Trace (system callbackWatch) handed hist m →
      hist = [] ∨ ∃ first' rs', hist = some first' :: rs') ∧
    (∀ m, Trace (system callbackWatch) handed [] m → m.st.callback.delivered = []) ∧
    (∀ m, Trace (system callbackWatch) handed (some first :: rs) m → Given first rs m.st) ∧
    ∃ m, Trace (system callbackWatch) handed (some first :: rs) m ∧ m.pc = .alive ∧
      m.st.callback.delivered = expectedUpdates first rs := by
  have given : ∀ m, Trace (system callbackWatch) handed (some first :: rs) m → Given first rs m.st := by
    intro m t
    rcases givenAll t with ⟨h, -⟩ | ⟨first', rs', h, hg⟩
    · cases h
    · obtain ⟨h₁, rfl⟩ := List.cons.inj h
      obtain rfl := Option.some.inj h₁
      exact hg
  refine ⟨?_, ?_, given, ?_⟩
  · intro hist m t
    rcases givenAll t with ⟨h, -⟩ | ⟨first', rs', h, -⟩
    · exact .inl h
    · exact .inr ⟨first', rs', h⟩
  · intro m t
    rcases givenAll t with ⟨-, -, h⟩ | ⟨first', rs', h, -⟩
    · exact h
    · cases h
  · obtain ⟨m, t, hpc, -, -, hq⟩ := trace_exists first rs
    exact ⟨m, t, hpc, (given m t).all hq.1⟩

theorem callback_deliveries_wifi :
    (∃ m, Trace (system callbackWatch) handed [] m ∧ m.st.callback.delivered = []) ∧
    ∃ m, Trace (system callbackWatch) handed [some ethernet, some wifi] m ∧
      Given ethernet [some wifi] m.st ∧
      m.st.callback.delivered = [ethernet.initialUpdate, wifi.updateFrom ethernet] := by
  have start : Trace (system callbackWatch) handed [] { listed ethernet (.new .quiet) with
      sources := fun _ => ⟨none, false, 0⟩, holder := .free, pc := .registering .unicast } :=
    .init ⟨⟨.quiet, rfl, rfl⟩, rfl, rfl, fun _ => rfl, rfl, rfl⟩
  obtain ⟨-, untold, given, m, t, -, delivered⟩ := callback_deliveries ethernet [some wifi]
  exact ⟨⟨_, start, untold _ start⟩, m, t, given m t, delivered⟩

/-! ## The queued watch -/

/-- The registration is quiet and the consumer waits: nothing is in the mailbox, nothing has been taken
out of it. -/
structure AtRest (m : Machine QueuedEnds) : Prop where
  alive : m.pc = .alive
  /-- No notification has panicked under the lock. -/
  calm : m.poisoned = false
  owed : m.os.owed = 0
  idle : ∀ k, m.Idle k
  latest : m.st.state.queue.latest = none
  taken : ∀ list, m.st.watch.pc ≠ .taken list

/-- **At rest a Windows queued watch has yielded the interfaces of the moment.** -/
theorem queued_fresh {m : Machine QueuedEnds} (r : Reach (system queuedWatch) m) (h : AtRest m) :
    m.st.watch.cursor.prevList = m.os.cur ∧ lastInterfaces m.st.watch.yielded = some m.os.cur := by
  have hends := endsOk r
  have hrun : m.st.state.initialising = false := ((locks queuedWatch_lawful r).phase_at h.alive).1
  have hcur : m.st.state.currentList = m.os.cur := view_eq_cur queuedWatch_lawful r h.calm h.alive h.owed h.idle
  have hq := hends.pushed hrun
  rw [hcur] at hq
  exact ⟨hq.caughtUp h.latest h.taken, hq.yielded h.latest h.taken⟩

/-- `awaiting`, told of `wifi`: it has yielded that too and waits again. -/
def servedTwice : QueuedEnds where
  state := { (handleQueuedNotif awaiting.state wifi) with queue := emptyAsyncCallbackQueue }
  watch := { ((QueuedWatch.new .async).digest ethernet).digest wifi with pc := .idle }
  jammed := false

def queuedServed : Machine QueuedEnds := { started ethernet servedTwice with os := ⟨wifi, 0, false⟩ }

theorem queued_fresh_served :
    queuedServed.st.watch.cursor.prevList = queuedServed.os.cur ∧
      lastInterfaces queuedServed.st.watch.yielded = some queuedServed.os.cur ∧ queuedServed.os.cur = wifi := by
  have told := reach_of_calm (calm_renotified queuedWatch_lawful calm_awaiting wifi)
  have woken := told.step ⟨.plain, Step.outside rfl (.step nofun (.wake rfl))⟩
  have found := woken.step ⟨.plain, Step.outside rfl (.step (fun _ => rfl) (.found 7 rfl rfl))⟩
  have digested := found.step ⟨.plain, Step.outside rfl (.step nofun (.digest rfl))⟩
  have served : Reach (system queuedWatch) queuedServed := digested
  have fresh := queued_fresh served ⟨rfl, rfl, rfl, fun k => ⟨by cases k <;> rfl, nofun⟩, rfl, nofun⟩
  exact ⟨fresh.1, fresh.2, rfl⟩

end Netwatcher.WatchWin
