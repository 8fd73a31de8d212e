import Netwatcher.WatchWin.Registration
/-!
# What a Windows watch has been told (`src/watch_win.rs`)

While the handle is alive a registration follows the re-reading protocol of `Refresh`: its signal is
a call of a notification function that waits for the lock, and its reads are the listings taken under
the lock once notifications are no longer ignored.

| `Refresh` | here |
| --- | --- |
| `stale`   | before the owner has the lock; notifications come and go |
| `reading`, `loaded` | the owner, or a notification of a live handle, lists under the lock |
| `idle`    | the handle is alive and no notification has the lock |
-/
namespace Netwatcher.WatchWin
open Coll Runs Refresh

section
variable {T : Type} {P : Protocol T}

/-! ## The registration follows the protocol -/

/-- Up to and including the life of the handle. -/
def Pc.early : Pc → Bool
  | .registering _ | .locking | .listing | .loaded _ | .alive => true
  | _ => false

/-- The owner has not had the lock yet. -/
def Pc.before : Pc → Bool
  | .registering _ | .locking => true
  | _ => false

def phaseOf (P : Protocol T) (m : Machine T) : Phase IfList :=
  match m.pc, m.holder with
  | .listing, _ => .reading
  | .loaded r, _ => .loaded r.toOption
  | .alive, .dispatch _ .listing => .reading
  | .alive, .dispatch _ (.loaded r) => .loaded r.toOption
  | .alive, _ => .idle (P.view m.st)
  | _, _ => .stale

/-- Some notification waits for the lock. -/
def Machine.signal (m : Machine T) : Bool :=
  (m.sources .unicast).waiting != 0 || (m.sources .interface).waiting != 0

/-- `a` is the protocol's view of `m`; what was torn before the read begins does not matter. -/
structure Abs (P : Protocol T) (m : Machine T) (a : Refresh.St IfList) : Prop where
  cur : a.val.cur = m.os.cur
  owed : a.val.owed = m.os.owed
  torn : phaseOf P m ≠ .stale → a.val.torn = m.os.torn
  signal : a.signal = m.signal
  phase : a.phase = phaseOf P m

theorem phaseOf_before {m : Machine T} (h : m.pc.before = true) : phaseOf P m = .stale := by
  unfold phaseOf
  cases hpc : m.pc <;> rw [hpc] at h <;> first | rfl | cases h

theorem early_afterCancel (k : Kind) (exit : Exit) (ok : Bool) : (afterCancel k exit ok).early = false := by
  cases k <;> cases ok <;> rfl

theorem signal_eq_false_iff {m : Machine T} :
    m.signal = false ↔ ∀ k, (m.sources k).waiting = 0 := by
  simp only [Machine.signal, Bool.or_eq_false_iff, bne_eq_false_iff_eq]
  exact ⟨fun ⟨h, h'⟩ k => by cases k <;> assumption, fun h => ⟨h _, h _⟩⟩

theorem early_cases {pc : Pc} (h : pc.early = true) : pc.before = true ∨ pc.holds = true ∨ pc = .alive := by
  cases pc with
  | registering k | locking => exact .inl rfl
  | listing | loaded r => exact .inr (.inl rfl)
  | alive => exact .inr (.inr rfl)
  | _ => simp [Pc.early] at h

theorem unwinds_of_early {pc : Pc} (h : pc.early = true) : pc.unwinds = false := by
  cases pc <;> first | rfl | simp [Pc.early] at h

/-- Without the lock the owner is before its listing, or the handle is alive. -/
theorem Locks.unlocked {m : Machine T} (h : Locks P m) (he : m.pc.early = true) (hh : m.holder ≠ .owner) :
    m.pc = .alive ∨ m.pc.before = true := by
  rcases early_cases he with hb | hl | ha
  · exact .inr hb
  · exact absurd (h.owner.2 hl) hh
  · exact .inl ha

/-- A source that is not registered has its change owed to nobody, so the first listing is to come. -/
theorem Regs.before_of_not_live {m : Machine T} (h : Regs m) (he : m.pc.early = true) {k : Kind}
    (hl : (m.sources k).live = false) : m.pc.before = true := by
  have placed (hp : Placed m.sources m.pc) (hpc : m.pc.holds = true ∨ m.pc = .alive) :
      (m.sources k).live = true := by
    cases hc : m.pc <;> rw [hc] at hp hpc <;> first | exact hp k | simp [Pc.holds] at hpc
  rcases early_cases he with hb | hpc
  · exact hb
  · rw [placed h.placed hpc] at hl
    cases hl

/-- The owner moves where the protocol is stale, and stays there. -/
theorem Abs.stale {m m' : Machine T} {a : Refresh.St IfList} (h : Abs P m a) (h0 : m.pc.before = true)
    (h1 : phaseOf P m' = .stale) (hcur : m'.os.cur = m.os.cur) (howed : m'.os.owed = m.os.owed)
    (hsignal : m'.signal = m.signal) : Abs P m' a :=
  ⟨by rw [hcur, h.cur], by rw [howed, h.owed], fun hn => absurd h1 hn, by rw [hsignal, h.signal],
    by rw [h1, h.phase, phaseOf_before h0]⟩

/-- A read returns what the protocol allows it to. -/
theorem Abs.reads {m : Machine T} {a : Refresh.St IfList} (h : Abs P m a) (hp : phaseOf P m = .reading)
    {r : Option IfList} (hr : m.os.Reads r) : a.val.Reads r := by
  intro ht
  rw [h.cur]
  exact hr (by rw [← h.torn (by simp [hp]), ht])

/-- **One step of the registration is zero or more of the protocol.** -/
theorem Step.refines (hP : Lawful P) {m m' : Machine T} {e : Label} {a : Refresh.St IfList}
    (hlocks : Locks P m) (hcalm : Calm m) (hregs : Regs m) (hs : Step P m e m') (he : e ≠ .panics)
    (he' : m'.pc.early = true) (h : m.pc.early = true → Abs P m a) :
    ∃ a', Later (Refresh.system IfList) a a' ∧ Abs P m' a' := by
  cases hs with
  | change list ha hl =>
    have h := h he'
    exact ⟨_, .single (Refresh.Step.change list),
      ⟨rfl, by simp [h.owed, Tracked.change], fun _ => rfl, h.signal, h.phase⟩⟩
  | @drift k list ha hl =>
    have h := h he'
    have hp : phaseOf P m = .stale := phaseOf_before (hregs.before_of_not_live he' hl)
    exact ⟨_, .single (Refresh.Step.drift list (h.phase.trans hp)),
      ⟨rfl, h.owed, fun _ => rfl, h.signal, h.phase⟩⟩
  | notify k changes ha hl =>
    have h := h he'
    refine ⟨_, .single (Refresh.Step.raise changes),
      ⟨h.cur, by simp [h.owed, Tracked.raise], fun hn => h.torn hn, ?_, h.phase⟩⟩
    cases k <;> simp [Machine.signal, Machine.setWaiting, Machine.setSource]
  | @dispatchLock k n ha hw hf hp =>
    have h := h he'
    rcases hlocks.unlocked he' (by simp [hf]) with hpc | hpc
    · have hph : phaseOf P m = .idle (P.view m.st) := by simp [phaseOf, hpc, hf]
      obtain ⟨v, b, p⟩ := a
      obtain rfl : p = _ := h.phase.trans hph
      refine ⟨_, ((Relation.ReflTransGen.single (Refresh.Step.wake rfl)).tail
        (Refresh.Step.consume (m.setWaiting k n).signal rfl)).tail (Refresh.Step.start rfl), ?_⟩
      exact ⟨h.cur, h.owed, fun _ => rfl, rfl, by simp [phaseOf, Machine.setWaiting, Machine.setSource, hpc]⟩
    · have hph := phaseOf_before (P := P) hpc
      refine ⟨_, .single (Refresh.Step.consume (m.setWaiting k n).signal (h.phase.trans hph)), ?_⟩
      have hpc' : phaseOf P { m.setWaiting k n with
          os := m.os.beginRead, holder := .dispatch k .listing } = .stale := phaseOf_before hpc
      exact ⟨h.cur, h.owed, fun hn => absurd hpc' hn, rfl, by rw [hpc', ← hph]; exact h.phase⟩
  | dispatchPoisoned ha hw hf hp =>
    have hu := hcalm.poisoned
    rw [hp, @unwinds_of_early m.pc he'] at hu
    cases hu
  | dispatchPanics | dispatchUnwinds => exact absurd rfl he
  | @dispatchLoad k r ha hd hr =>
    have h := h he'
    rcases hlocks.unlocked he' (by simp [hd]) with hpc | hpc
    · have hph : phaseOf P m = .reading := by simp [phaseOf, hpc, hd]
      refine ⟨_, .single (Refresh.Step.finish r.toOption (h.phase.trans hph) (h.reads hph hr)), ?_⟩
      exact ⟨h.cur, h.owed, fun _ => h.torn (by simp [hph]), h.signal, by simp [phaseOf, hpc]⟩
    · exact ⟨a, .refl, h.stale hpc (phaseOf_before hpc) rfl rfl rfl⟩
  | @dispatchFail k err ha hd =>
    have h := h he'
    rcases hlocks.unlocked he' (by simp [hd]) with hpc | hpc
    · have hph : phaseOf P m = .loaded none := by simp [phaseOf, hpc, hd, Except.toOption]
      refine ⟨_, .single (Refresh.Step.giveUp (P.view m.st) (h.phase.trans hph)), ?_⟩
      exact ⟨h.cur, h.owed, fun _ => h.torn (by simp [hph]), h.signal, by simp [phaseOf, hpc]⟩
    · exact ⟨a, .refl, h.stale hpc (phaseOf_before hpc) rfl rfl rfl⟩
  | @dispatchHandle k list st result ha hd hr =>
    have h := h he'
    rcases hlocks.unlocked he' (by simp [hd]) with hpc | hpc
    · have hph : phaseOf P m = .loaded (some list) := by simp [phaseOf, hpc, hd, Except.toOption]
      have hrun := hlocks.phase_at hpc
      have hv : P.view st = list := by
        have := (hP.notif_running _ list hrun).2
        rwa [hr] at this
      refine ⟨_, .single (Refresh.Step.install (h.phase.trans hph)), ?_⟩
      exact ⟨h.cur, h.owed, fun _ => h.torn (by simp [hph]), h.signal, by simp [phaseOf, hpc, hv]⟩
    · exact ⟨a, .refl, h.stale hpc (phaseOf_before hpc) rfl rfl rfl⟩
  | @register k result raw handle hpc hr =>
    have h := h (by rw [hpc]; rfl)
    have hb : m.pc.before = true := by rw [hpc]; rfl
    refine ⟨a, .refl, h.stale hb (phaseOf_before (by cases k <;> rfl)) rfl rfl ?_⟩
    have hw : (m.sources k).waiting = 0 := by
      have hp := hregs.placed_at hpc
      refine (hregs.idle k (live_of_handle_none ?_)).1
      cases k with
      | unicast => exact hp .unicast
      | interface => exact hp.2
    cases k <;> simp [Machine.signal, Machine.setSource, hw]
  | registerFailed hpc hr => cases he'
  | lock hpc hf hp =>
    have h := h (by rw [hpc]; rfl)
    have hph : phaseOf P m = .stale := phaseOf_before (by rw [hpc]; rfl)
    exact ⟨_, .single (Refresh.Step.start (h.phase.trans hph)),
      ⟨h.cur, h.owed, fun _ => rfl, h.signal, rfl⟩⟩
  | lockPoisoned hpc hf hp => cases he'
  | load r hpc hr =>
    have h := h (by rw [hpc]; rfl)
    have hph : phaseOf P m = .reading := by simp [phaseOf, hpc]
    exact ⟨_, .single (Refresh.Step.finish r.toOption (h.phase.trans hph) (h.reads hph hr)),
      ⟨h.cur, h.owed, fun _ => h.torn (by simp [hph]), h.signal, rfl⟩⟩
  | listPanicked hpc => cases he'
  | listFailed hpc => cases he'
  | @initialised list st hpc hi =>
    have h := h (by rw [hpc]; rfl)
    have hph : phaseOf P m = .loaded (some list) := by simp [phaseOf, hpc, Except.toOption]
    have hfresh := hlocks.phase_at hpc
    have hv := (hP.initial_ok _ _ _ hfresh hi).2
    exact ⟨_, .single (Refresh.Step.install (h.phase.trans hph)),
      ⟨h.cur, h.owed, fun _ => h.torn (by simp [hph]), h.signal, by simp [phaseOf, hv]⟩⟩
  | initialPanicked hpc hi => cases he'
  | @outside st hpc ho =>
    have h := h (by rw [hpc]; rfl)
    have hv := (hP.outside_same _ _ ho).2.2
    have hph : phaseOf P { m with st } = phaseOf P m := by simp only [phaseOf, hv]
    exact ⟨a, .refl, ⟨h.cur, h.owed, fun hn => h.torn (hph ▸ hn), h.signal, hph ▸ h.phase⟩⟩
  | close hpc => cases he'
  | skip hpc hn | cancelled hpc hn hr hi | cancelFailed hpc hn hr =>
    simp only [early_afterCancel] at he'
    cases he'
  | disable hpc hf hp => cases he'
  | abort hpc hf hp => cases he'
  | dropPanic hpc he hf hp => cases he'
  | release hpc => cases he'

/-- **A registration follows the protocol** for as long as its handle is in use, and no notification
panics. -/
theorem reach_abs (hP : Lawful P) {m : Machine T} (r : Reach (calm P) m) :
    ∃ a, Reach (Refresh.system IfList) a ∧ (m.pc.early = true → Abs P m a) := by
  refine r.simulate (R := fun m a => m.pc.early = true → Abs P m a) ?_ ?_
  · rintro m ⟨-, -, -, -, -, h0⟩
    have hp : phaseOf P m = .stale := phaseOf_before (by rw [h0]; rfl)
    exact ⟨⟨m.os, m.signal, .stale⟩, rfl, fun _ => ⟨rfl, rfl, fun _ => rfl, rfl, hp.symm⟩⟩
  · rintro m m' a r h ⟨e, hs, he⟩
    by_cases he' : m'.pc.early = true
    · have r' := reach_of_calm r
      obtain ⟨a', l, h'⟩ := hs.refines hP (locks hP r') (calm_inv hP r) (regs r') he he' h
      exact ⟨a', l, fun _ => h'⟩
    · exact ⟨a, .refl, fun he => absurd he he'⟩

theorem phaseOf_alive {m : Machine T} (hpc : m.pc = .alive) (hi : ∀ k, m.Idle k) :
    phaseOf P m = .idle (P.view m.st) := by
  unfold phaseOf
  cases hh : m.holder with
  | dispatch k phase => exact absurd hh ((hi k).2 phase)
  | _ => simp [hpc]

/-- **A quiet handle has the interfaces of the moment**: no change is owed a notification, none is waiting
or at work, and none has poisoned the mutex. -/
theorem view_eq_cur (hP : Lawful P) {m : Machine T} (r : Reach (system P) m) (hp : m.poisoned = false)
    (hpc : m.pc = .alive) (ho : m.os.owed = 0) (hi : ∀ k, m.Idle k) : P.view m.st = m.os.cur := by
  obtain ⟨a, ra, h⟩ := reach_abs hP (calm_of_not_poisoned r hp)
  have h := h (by rw [hpc]; rfl)
  have hs : a.signal = false := by
    rw [h.signal, signal_eq_false_iff]
    exact fun k => (hi k).1
  have hq : Quiet a := ⟨by rw [h.owed, ho], hs⟩
  rw [quiet_idle ra hq (h.phase.trans (phaseOf_alive hpc hi)), h.cur]

/-! ## Invariants of the state -/

/-- What everybody who touches the state keeps. -/
structure Kept (P : Protocol T) (J : T → Prop) : Prop where
  fresh : ∀ t, P.fresh t → J t
  initial : ∀ t l, P.fresh t → J (P.handleInitial t l).1
  notif : ∀ t l, J t → P.running t → J (P.handleNotif t l).1
  unwinds : ∀ t l t', J t → P.unwinds t l t' → J t'
  disable : ∀ t, J t → J (P.disable t)
  outside : ∀ t t', J t → P.running t → P.outside t t' → J t'

theorem Kept.step {J : T → Prop} (hJ : Kept P J) (hP : Lawful P) {m m' : Machine T} {e : Label}
    (hlocks : Locks P m) (h : J m.st) (hs : Step P m e m') : J m'.st := by
  cases hs with
  | @dispatchHandle k list st result ha hd hr =>
    obtain rfl : (P.handleNotif m.st list).1 = st := by rw [hr]
    by_cases hrun : P.running m.st
    · exact hJ.notif _ list h hrun
    · rw [Protocol.running, not_and_or, Bool.not_eq_false, Bool.not_eq_false] at hrun
      rwa [hP.notif_ignored _ list hrun]
  | dispatchUnwinds ha hd hu => exact hJ.unwinds _ _ _ h hu
  | @initialised list st hpc hi | @initialPanicked list st payload hpc hi =>
    obtain rfl : (P.handleInitial m.st list).1 = st := by rw [hi]
    exact hJ.initial _ list (hlocks.phase_at hpc)
  | outside hpc ho => exact hJ.outside _ _ h (hlocks.phase_at hpc) ho
  | disable => exact hJ.disable _ h
  | _ => exact h

theorem Kept.reach {J : T → Prop} (hJ : Kept P J) (hP : Lawful P) {m : Machine T} (r : Reach (system P) m) :
    J m.st := by
  refine r.inv (I := fun m => J m.st) ?_ ?_
  · rintro m ⟨hf, -⟩
    exact hJ.fresh _ hf
  · rintro m m' r h ⟨e, hs⟩
    exact hJ.step hP (locks hP r) h hs

end

/-! ## The callback watch -/

/-- A callback and the cursor that writes its log. -/
structure WatchOk (s : WatchState) : Prop where
  unbroken : Unbroken s.callback.delivered
  panicLast : ∀ calls, calls <+: s.callback.delivered → calls ≠ [] → calls ≠ s.callback.delivered →
    s.callback.callback.behaviour calls = .ok ()
  begun : s.initialising = false → s.cursor.initialPending = false
  linked : s.initialising = false → s.callback.failed = false →
    Linked s.cursor s.callback.delivered ∧ s.callback.callback.behaviour s.callback.delivered = .ok ()

/-- A notification of a running watch. -/
theorem WatchOk.notif {s : WatchState} (h : WatchOk s) (hi : s.initialising = false)
    (hd : s.disabled = false) (list : IfList) : WatchOk (handleNotif s list).1 := by
  have hbegun := s.cursor.advance_initialPending list
  unfold handleNotif
  simp only [hi, hd, Bool.or_self, Bool.false_eq_true, if_false]
  split
  · rename_i cursor hadv
    rw [hadv] at hbegun
    refine ⟨h.unbroken, h.panicLast, fun _ => hbegun, ?_⟩
    intro _ hf
    obtain ⟨hl, hok⟩ := h.linked hi hf
    have := hl.advance list
    rw [hadv] at this
    exact ⟨by simpa using this, hok⟩
  · rename_i cursor update hadv
    rw [hadv] at hbegun
    cases hf : s.callback.failed with
    | true =>
      simp only [Callback.callFromNotification_of_failed hf]
      exact ⟨h.unbroken, h.panicLast, fun _ => hbegun, fun _ hf' => by rw [hf] at hf'; cases hf'⟩
    | false =>
      obtain ⟨hl, hok⟩ := h.linked hi hf
      have hl' := hl.advance list
      rw [hadv] at hl'
      have hdel := Callback.callFromNotification_delivered hf update
      refine ⟨?_, ?_, fun _ => hbegun, ?_⟩
      · rw [hdel]
        exact hl'.1
      · intro calls hp hne hlast
        rw [hdel] at hp hlast
        rw [Callback.callFromNotification_behaviour]
        rcases List.prefix_concat_iff.1 hp with hp | hp
        · exact absurd hp hlast
        · by_cases hc : calls = s.callback.delivered
          · rw [hc, hok]
          · exact h.panicLast calls hp hne hc
      · intro _ hf'
        refine ⟨by rw [hdel]; exact hl', ?_⟩
        rw [Callback.callFromNotification_behaviour, hdel]
        cases hb : s.callback.callback.behaviour (s.callback.delivered ++ [update]) with
        | ok _ => rfl
        | error p =>
          have := (s.callback.callFromNotification_failed update).2 (.inr ⟨p, hb⟩)
          rw [hf'] at this
          cases this

/-- A prefix of a log of one call is empty or the whole. -/
theorem eq_of_prefix_singleton {u : Update} {calls : List Update} (hp : calls <+: [u]) (hne : calls ≠ []) :
    calls = [u] := by
  rcases List.prefix_concat_iff.1 (show calls <+: [] ++ [u] from hp) with h | h
  · exact h
  · exact absurd (List.prefix_nil.1 h) hne

/-- The initial update, whether or not the callback survives it. -/
theorem handleInitialNotif_new {f : FnMut} (hf : f.calls = []) (list : IfList) :
    (handleInitialNotif (.new f) list).1 = { WatchState.new f with
      cursor := ⟨list, false⟩
      callback := .new { f with calls := [list.initialUpdate] }
      initialising := (f.behaviour [list.initialUpdate]).toOption.isNone } := by
  have hadv : UpdateCursor.default.advance list = (⟨list, false⟩, some list.initialUpdate) := rfl
  have hcall : ((Callback.new f).callInitial list.initialUpdate) =
      (.new { f with calls := [list.initialUpdate] }, f.behaviour [list.initialUpdate]) := by
    simp [Callback.callInitial, Callback.new, FnMut.call, hf]
  cases hb : f.behaviour [list.initialUpdate] <;>
    simp [handleInitialNotif, WatchState.new, hadv, hcall, hb, Except.toOption]

theorem WatchOk.initial {f : FnMut} (hf : f.calls = []) (list : IfList) :
    WatchOk (handleInitialNotif (.new f) list).1 := by
  rw [handleInitialNotif_new hf]
  refine ⟨.singleton list, ?_, fun _ => rfl, ?_⟩
  · intro calls hp hne hlast
    exact absurd (eq_of_prefix_singleton hp hne) hlast
  · intro hi _
    refine ⟨linked_default.advance list, ?_⟩
    cases hb : f.behaviour [list.initialUpdate] with
    | ok _ => exact hb
    | error p =>
      rw [hb] at hi
      cases hi

theorem watchOk_kept : Kept callbackWatch WatchOk where
  fresh := by
    rintro _ ⟨f, hf, rfl⟩
    have hd : (WatchState.new f).callback.delivered = [] := hf
    refine ⟨by rw [hd]; exact .nil, ?_, nofun, nofun⟩
    intro calls hp hne _
    rw [hd, List.prefix_nil] at hp
    exact absurd hp hne
  initial := by
    rintro _ l ⟨f, hf, rfl⟩
    exact .initial hf l
  notif _ l h hrun := h.notif hrun.1 hrun.2 l
  unwinds _ _ _ _ hu := hu.elim
  disable _ h := ⟨h.unbroken, h.panicLast, h.begun, h.linked⟩
  outside _ _ _ _ ho := ho.elim

/-- What every run promises the callback. -/
structure CallbackServed (m : Machine WatchState) : Prop where
  /-- The first call is the initial update, every later one the diff from its predecessor. -/
  unbroken : Unbroken m.st.callback.delivered
  /-- A call that panicked is the last. -/
  panicLast : ∀ calls, calls <+: m.st.callback.delivered → calls ≠ [] → calls ≠ m.st.callback.delivered →
    m.st.callback.callback.behaviour calls = .ok ()
  /-- A callback that has not failed was told last of the list the cursor is at. -/
  told : m.st.initialising = false → m.st.callback.failed = false →
    lastInterfaces m.st.callback.delivered = some m.st.cursor.prevList
  /-- Nothing is owed and no notification is in progress: the watch is at the interfaces of the moment.
  Only a listing that panics, neither exact nor a failure, poisons the mutex of an alive watch. -/
  current : m.poisoned = false → m.pc = .alive → m.os.owed = 0 → (∀ k, m.Idle k) →
    m.st.cursor.prevList = m.os.cur

/-- **A callback watch is ordered, gap-free and never early**, over every run. -/
theorem callback_served {m : Machine WatchState} (r : Reach (system callbackWatch) m) : CallbackServed m := by
  have h := watchOk_kept.reach callbackWatch_lawful r
  exact ⟨h.unbroken, h.panicLast, fun hi hf => (h.linked hi hf).1.2.2 (h.begun hi),
    view_eq_cur callbackWatch_lawful r⟩

/-- The watch of `FnMut.quiet`, told of `ethernet` and then of `wifi`. -/
def quietTold : Machine WatchState :=
  renotified callbackWatch ethernet wifi (handleInitialNotif (.new .quiet) ethernet).1

theorem calm_quietTold : Reach (calm callbackWatch) quietTold :=
  calm_renotified callbackWatch_lawful (calm_started ethernet ⟨.quiet, rfl, rfl⟩ rfl) wifi

theorem callback_served_quiet :
    CallbackServed quietTold ∧
      quietTold.st.callback.delivered = [ethernet.initialUpdate, wifi.updateFrom ethernet] ∧
      quietTold.poisoned = false ∧ quietTold.pc = .alive ∧ quietTold.os = ⟨wifi, 0, false⟩ ∧
      ∀ k, quietTold.Idle k :=
  ⟨callback_served (reach_of_calm calm_quietTold), rfl, rfl, rfl, rfl, fun k => ⟨by cases k <;> rfl, nofun⟩⟩

/-! ## The queued watch -/

/-- An untouched queue and watch until the initial push, a mailbox of the current list from then on. -/
structure EndsOk (ends : QueuedEnds) : Prop where
  fresh : ends.state.initialising = true →
    ends.state.queue = emptyAsyncCallbackQueue ∧ ∃ kind, ends.watch = .new kind
  pushed : ends.state.initialising = false → QueueOk ends.state.currentList (ends.state.queue, ends.watch)

/-- A notification of a running watch. -/
theorem EndsOk.notif {ends : QueuedEnds} (h : EndsOk ends) (hi : ends.state.initialising = false)
    (hd : ends.state.disabled = false) (list : IfList) :
    EndsOk { ends with state := handleQueuedNotif ends.state list } := by
  have hno : ¬ (ends.state.initialising || ends.state.disabled) = true := by simp [hi, hd]
  rw [handleQueuedNotif, if_neg hno]
  split
  · exact h
  · refine ⟨fun h' => absurd (hi.symm.trans h') (by simp), ?_⟩
    intro _
    exact (h.pushed hi).push list

theorem endsOk_kept : Kept queuedWatch EndsOk where
  fresh := by
    rintro _ ⟨kind, rfl⟩
    exact ⟨fun _ => ⟨rfl, kind, rfl⟩, nofun⟩
  initial := by
    rintro _ l ⟨kind, rfl⟩
    exact ⟨nofun, fun _ => .new kind emptyAsyncCallbackQueue l⟩
  notif _ l h hrun := h.notif hrun.1 hrun.2 l
  unwinds ends l ends' h hu := by
    obtain ⟨hi, hd, -, -, rfl⟩ := hu
    have h' := h.notif hi hd l
    exact ⟨h'.fresh, h'.pushed⟩
  disable _ h := ⟨h.fresh, h.pushed⟩
  outside ends ends' h hrun ho := by
    have hi : ends.state.initialising = false := hrun.1
    have begun {b : Prop} (h' : ends.state.initialising = true) : b := by
      rw [hi] at h'
      cases h'
    cases ho with
    | step hlook hw => exact ⟨fun h' => begun h', fun _ => (h.pushed hi).watchStep hw⟩
    | panics hpc hj => exact ⟨fun h' => begun h', fun _ => (h.pushed hi).giveUp hpc⟩

theorem endsOk {m : Machine QueuedEnds} (r : Reach (system queuedWatch) m) : EndsOk m.st :=
  endsOk_kept.reach queuedWatch_lawful r

end Netwatcher.WatchWin
