import Netwatcher.Lib.Settle
import Netwatcher.WatchAndroid.Process
/-!
# The state lock is released, or poisoned (`src/watch_android.rs`)

A section that calls into Java never waits for another lock, so it is over after a bounded number of its
own steps. If one of its calls panics it takes the registry with it: the state mutex is poisoned for good.
That needs a panic of a closure given to `with_android_ctx`, or a context that was not set in time.
-/
namespace Netwatcher.WatchAndroid
open Coll Runs Settle AndroidContext

/-! ## Released -/

/-- The steps left of a section whose call of `with_android_ctx` has `call` steps left. -/
def Stage.left (call : Nat) : Stage → Nat
  | .starting => 5 + call
  | .started _ => 5
  | .undoing _ _ | .stopping _ => 1 + call
  | .undone _ _ _ | .stopped _ _ => 1

def Process.left (p : Process) : Nat :=
  match p.holder with
  | none => 0
  | some (n, stage) => stage.left (p.context.calls (.client n)).left

section
variable {p p' : Process} {n : Nat} {stage : Stage}

theorem Process.left_of_holder (hh : p.holder = some (n, stage)) :
    p.left = stage.left (p.context.calls (.client n)).left := by
  simp only [Process.left, hh]

theorem call_left_le (call : Call) : call.left ≤ 3 := by
  cases call <;> simp [Call.left]

theorem call_left_pos {call : Call} (h : call.uses = true) : 0 < call.left := by
  cases call <;> simp [Call.left, Call.uses] at h ⊢

theorem Process.left_le (p : Process) : p.left ≤ 8 := by
  cases hh : p.holder with
  | none => simp [Process.left, hh]
  | some h =>
    have hcall := call_left_le (p.context.calls (.client h.1))
    rw [Process.left_of_holder hh]
    cases h.2 <;> simp only [Stage.left] <;> omega

theorem HolderStep.left (h : Nested p) (hs : HolderStep p p') : p'.left < p.left := by
  cases hs with
  | @within n stage c hh hc hs hlog =>
    rw [Process.left_of_holder hh, Process.left_of_holder (p := { p with context := c }) hh]
    rcases hs.uses (h.uses n stage hh hc) with ⟨_, -, hlog'⟩ | ⟨-, -, hlt⟩
    · simp [hlog] at hlog'
    · cases stage <;> simp only [Stage.left] <;> first | omega | cases hc
  | @returns n stage stage' c used hh hs hlog hr =>
    have hpos := call_left_pos (h.uses n stage hh (hr.pending (n := n) (m := p.machine)).1)
    rw [Process.left_of_holder hh, Process.left_of_holder (p := { p with context := c, holder := _ }) rfl]
    cases hr <;> simp only [Stage.left] <;> omega
  | @unwinds n stage c used hh hc hs hlog _ =>
    rw [Process.left_of_holder hh]
    have hpos := call_left_pos (h.uses n stage hh hc)
    cases stage <;> simp only [Process.left, Stage.left] <;> omega
  | @listingFails n cm err hh =>
    have hcall := call_left_le ((p.enter n (.undoing cm err)).context.calls (.client n))
    rw [Process.left_of_holder hh, Process.left_of_holder (p := p.enter n (.undoing cm err)) rfl]
    simp only [Stage.left]
    omega
  | @ends n stage m hh he =>
    rw [Process.left_of_holder hh]
    cases he <;> simp [Process.left, Stage.left]

theorem HolderStep.holder_ne (hs : HolderStep p p') : p.holder ≠ none := by
  cases hs with
  | within hh _ _ _ | returns hh _ _ _ | unwinds hh _ _ _ _ | listingFails _ hh | ends hh _ => simp [hh]

theorem exists_returns (hc : stage.calling = true) {used : Used} (hp : used ≠ .panicked)
    (hr : used ≠ .ran .panicked) : ∃ stage', Returns stage used stage' := by
  cases used with
  | panicked => exact absurd rfl hp
  | ran f =>
    cases f with
    | panicked => exact absurd rfl hr
    | returned =>
      cases stage with
      | starting => exact ⟨_, .start (.started true)⟩
      | undoing => exact ⟨_, .undo .stopped⟩
      | stopping => exact ⟨_, .stop .stopped⟩
      | _ => cases hc
  | refused err =>
    cases stage with
    | starting => exact ⟨_, .startRefused err⟩
    | undoing => exact ⟨_, .undoRefused err⟩
    | stopping => exact ⟨_, .stopRefused err⟩
    | _ => cases hc

/-- A registration that cannot have its watcher is refused. -/
theorem exists_refusal {w : World} (hw : w.state.hasWatchers = false) (answers : Answers)
    (ha : (∃ err leftBehind, answers.start = .failed err leftBehind) ∨
      ∃ err, answers.listing = .error err) : ∃ w' err, allocateCallbackWatcher answers w = (w', .error err) := by
  simp only [allocateCallbackWatcher, initialiseJavaWatching, hw, Bool.false_eq_true, if_false]
  rcases ha with ⟨err, leftBehind, hs⟩ | ⟨err, hl⟩
  · rw [hs]
    cases leftBehind <;> exact ⟨_, _, rfl⟩
  · rw [hl]
    cases answers.start with
    | started cm => exact ⟨_, _, rfl⟩
    | failed err leftBehind => cases leftBehind <;> exact ⟨_, _, rfl⟩

/-- Whatever the others do, the holder can get on. -/
theorem exists_holderStep (r : Reach processSystem p) (hh : p.holder = some (n, stage)) :
    ∃ p', HolderStep p p' := by
  have h := nested r
  have hp := h.pending n stage hh
  cases hc : stage.calling with
  | true =>
    have hu := h.uses n stage hh hc
    obtain ⟨c, hs⟩ := exists_stepOf (reach_context r) hu h.free_of_locking
    rcases hs.uses hu with ⟨used, -, hlog⟩ | ⟨hlog, -, -⟩
    · by_cases hpanic : used = .panicked ∨ used = .ran .panicked
      · exact ⟨_, .unwinds hh hc hs hlog hpanic⟩
      · obtain ⟨hno, hno'⟩ := not_or.mp hpanic
        obtain ⟨stage', hr⟩ := exists_returns hc hno hno'
        exact ⟨_, .returns hh hs hlog hr⟩
    · exact ⟨_, .within hh hc hs hlog⟩
  | false =>
    cases stage with
    | started start =>
      cases start with
      | started cm => exact ⟨_, .listingFails .noAndroidContext hh⟩
      | failed err leftBehind =>
        obtain ⟨w, err', ha⟩ := exists_refusal hp.2 ⟨.failed err leftBehind, .error err, .stopped⟩
          (.inl ⟨err, leftBehind, rfl⟩)
        exact ⟨_, .ends hh (.refuse ha)⟩
    | undone cm err stop =>
      obtain ⟨w, err', ha⟩ := exists_refusal hp.2 ⟨.started cm, .error err, stop⟩ (.inr ⟨err, rfl⟩)
      exact ⟨_, .ends hh (.undo ha)⟩
    | stopped id stop => exact ⟨_, .ends hh .leave⟩
    | _ => cases hc

/-- Steps of others, as long as the lock is with the same section. -/
def Meanwhile : Process → Process → Prop :=
  Relation.ReflTransGen fun p p' => ProcessStep p p' ∧ ¬ HolderStep p p' ∧ p'.holder = p.holder

/-- The next step of the holder, and what the others do before. -/
def HolderTurn (p p' : Process) : Prop := ∃ between, Meanwhile p between ∧ HolderStep between p'

theorem Meanwhile.keeps (h : Meanwhile p p') (r : Reach processSystem p) :
    Reach processSystem p' ∧ p'.holder = p.holder ∧ p'.left = p.left := by
  induction h with
  | refl => exact ⟨r, rfl, rfl⟩
  | @tail t t' _ hs ih =>
    obtain ⟨rt, hh, hleft⟩ := ih
    obtain ⟨hs, hno, hsame⟩ := hs
    refine ⟨rt.step hs, hsame.trans hh, Eq.trans ?_ hleft⟩
    cases hs with
    | @setContext k c hs _ =>
      rcases Option.eq_none_or_eq_some t.holder with hh' | ⟨h, hh'⟩
      · simp [Process.left, hh']
      · rw [Process.left_of_holder hh', Process.left_of_holder (p := { t with context := c }) hh',
          hs.2 (.client h.1) (by simp)]
    | start hu _ _ => cases hsame.trans hu.2.1
    | leaveLast hu _ _ _ => cases hsame.trans hu.2.1
    | holder hs => exact absurd hs hno
    | atOnce | beside => rfl

/-- **The state lock is released**: a section that calls into Java can always take its next step, and is
over after eight of its own at the most, whatever the other threads do in between. -/
theorem state_lock_released (r : Reach processSystem p) :
    (p.holder ≠ none → ∃ p', HolderStep p p') ∧ Settles HolderTurn (fun t => t.holder = none) p 8 := by
  have hstep : ∀ t t', Reach processSystem t → HolderTurn t t' →
      Reach processSystem t' ∧ t'.left < t.left := by
    rintro t t' rt ⟨u, hm, hs⟩
    obtain ⟨ru, -, hleft⟩ := hm.keeps rt
    exact ⟨ru.step (.holder hs), hleft ▸ hs.left (nested ru)⟩
  have hnext : ∀ t, Reach processSystem t → t.holder ≠ none → ∃ t', HolderStep t t' := by
    intro t rt ht
    obtain ⟨h, hh⟩ := Option.ne_none_iff_exists'.mp ht
    exact exists_holderStep rt hh
  refine ⟨hnext p r, (settles_of_measure hstep ?_ r).mono p.left_le⟩
  intro t rt
  by_cases ht : t.holder = none
  · exact .inr ht
  · obtain ⟨t', hs⟩ := hnext t rt ht
    exact .inl ⟨t', t, .refl, hs⟩

theorem state_lock_released_started :
    (∃ p', HolderStep (untouched.enter 0 .starting) p') ∧
      Settles HolderTurn (fun t => t.holder = none) (untouched.enter 0 .starting) 8 :=
  ⟨(state_lock_released started_reach).1 (by simp [Process.enter]), (state_lock_released started_reach).2⟩

/-! ## Poisoned -/

/-- Nothing has happened since `p` that needs the state lock. -/
structure Frozen (p p' : Process) : Prop where
  poisoned : p'.poisoned = true
  world : p'.machine.world = p.machine.world
  /-- Nobody gets an id, joins or leaves. -/
  entries : p'.machine.entries = p.machine.entries
  /-- No registration comes back. -/
  absent : ∀ n, p.machine.clients n = .absent → p'.machine.clients n = .absent
  /-- No joined callback is called. -/
  log : ∀ n id, p.machine.entries n = some (.callback, id) → p'.machine.log id = p.machine.log id
  /-- Nobody is in `with_android_ctx`. -/
  idle : ∀ n, p'.context.calls (.client n) = .idle

theorem Beside.entries {m m' : Machine} (h : Beside m m') : m'.entries = m.entries := by
  cases h with
  | callInitial hk _ | callNext hk _ =>
    refine entries_setClient_same ?_
    rw [entry_afterCall]
    simp [hk, Client.entry]
  | consume hk _ => exact entries_setClient_same (by simp [hk, Client.entry])

/-- User code runs for those who register. -/
theorem Beside.log {m m' : Machine} (h : Beside m m') (hr : Registry m.entries m.world) {id : WatcherId}
    (hn : m.entries n = some (.callback, id)) : m'.log id = m.log id := by
  have apart {k : Nat} {id' : WatcherId} (hk : m.entries k = some (.initialising, id')) : id ≠ id' := by
    rintro rfl
    cases hr.place_unique ⟨k, hk⟩ ⟨n, hn⟩
  cases h with
  | callInitial hk _ | callNext hk _ => exact Function.update_of_ne (apart (entries_eq hk)) ..
  | consume _ _ => rfl

theorem Nested.released (h : Nested p) (hp : p.poisoned = true) : p.holder = none := by
  by_contra hne
  cases hp.symm.trans (h.unlocked hne).2

/-- **A poisoned registry is dead**: whoever sets a context afterwards, no registration comes back, no
joined callback is called, no watcher is removed and Java is not asked for anything, for good. -/
theorem poisoned_for_good (r : Reach processSystem p) (hp : p.poisoned = true)
    (l : Later processSystem p p') : Frozen p p' := by
  have hidle : ∀ n, p.context.calls (.client n) = .idle :=
    (nested r).quiet (by simp [(nested r).released hp])
  refine Later.inv r l (I := Frozen p) ⟨hp, rfl, rfl, fun _ h => h, fun _ _ _ => rfl, hidle⟩ ?_
  intro t t' rt h hs
  cases hs with
  | setContext hs _ =>
    refine ⟨h.poisoned, h.world, h.entries, h.absent, h.log, fun n => ?_⟩
    exact (hs.2 _ (by simp)).trans (h.idle n)
  | start hu _ _ => cases h.poisoned.symm.trans hu.2.2
  | leaveLast hu _ _ _ => cases h.poisoned.symm.trans hu.2.2
  | holder hs => exact absurd ((nested rt).released h.poisoned) hs.holder_ne
  | atOnce _ hpo _ _ => cases h.poisoned.symm.trans hpo
  | beside hb =>
    obtain ⟨hworld, -, habsent⟩ := hb.frame
    refine ⟨h.poisoned, hworld.trans h.world, hb.entries.trans h.entries,
      fun n hn => habsent n (h.absent n hn), fun n id hn => ?_, h.idle⟩
    have hlog := hb.log (registry (reach_machine_of_process rt)) (h.entries.symm ▸ hn)
    exact hlog.trans (h.log n id hn)

/-- No context had been set: the first registration panics. -/
theorem poisoned_reach : ∃ p : Process, Reach processSystem p ∧ p.poisoned = true := by
  have hs : HolderStep (untouched.enter 0 .starting) _ :=
    .unwinds rfl rfl ((Step.ndkPanics (t := .client 0) rfl).of rfl) rfl (.inl rfl)
  exact ⟨_, started_reach.step (.holder hs), rfl⟩

theorem poisoned_for_good_started : ∃ p : Process, p.poisoned = true ∧
    ∀ p', Later processSystem p p' → Frozen p p' := by
  obtain ⟨p, r, hp⟩ := poisoned_reach
  exact ⟨p, hp, fun p' l => poisoned_for_good r hp l⟩

/-! ## What poisons it -/

theorem Returns.unwinds {stage stage' : Stage} {used : Used} {t : Thread} (h : Returns stage used stage') :
    (Event.used t used).unwinds = false := by
  cases h <;> rfl

/-- The state mutex is poisoned by a panic that comes out of `with_android_ctx`, and the other one never
without it. -/
theorem ProcessStep.poison (h : Nested p) (hs : ProcessStep p p') :
    ∃ new, p'.context.log = p.context.log ++ new ∧
      (p'.poisoned = true ↔ p.poisoned = true ∨ ∃ e ∈ new, e.unwinds = true) ∧
      (p'.context.poisoned = true → p.context.poisoned = true ∨ p'.poisoned = true) := by
  -- nothing comes back from `with_android_ctx`
  have kept {c : AndroidContext.Machine Thread} {poisoned : Bool} (hlog : c.log = p.context.log)
      (hc : c.poisoned = true → p.context.poisoned = true) (hp : poisoned = p.poisoned) :
      ∃ new, c.log = p.context.log ++ new ∧
        (poisoned = true ↔ p.poisoned = true ∨ ∃ e ∈ new, e.unwinds = true) ∧
        (c.poisoned = true → p.context.poisoned = true ∨ poisoned = true) :=
    ⟨[], by simp [hlog], by simp [hp], fun h => .inl (hc h)⟩
  -- nothing is poisoned without `f`
  have clean {c : AndroidContext.Machine Thread} (hs : AndroidContext.Step p.context c)
      (hno : ∀ t, c.log ≠ p.context.log ++ [.used t (.ran .panicked)]) (hp : c.poisoned = true) :
      p.context.poisoned = true := by
    by_contra hpo
    obtain ⟨t, _, -, -, hlog⟩ := hs.poisons (Bool.eq_false_iff.mpr hpo) hp
    exact hno t hlog
  cases hs with
  | setContext hs _ =>
    obtain ⟨hpo, new, hlog, hnew⟩ := hs.outside (h.setters _)
    have hnone : ¬ ∃ e ∈ new, e.unwinds = true := by
      rintro ⟨e, he, hu⟩
      rw [hnew e he] at hu
      cases hu
    exact ⟨new, hlog, by simp only [hnone, or_false], fun hp => .inl (hpo hp)⟩
  | start | leaveLast | atOnce | beside => exact kept rfl id rfl
  | holder hs =>
    cases hs with
    | within _ _ hs hlog => exact kept hlog (clean hs.1 (by simp [hlog])) rfl
    | returns _ hs hlog hr =>
      refine ⟨_, hlog, by simp [hr.unwinds], fun hp => .inl (clean hs.1 (fun t ht => ?_) hp)⟩
      have he := List.append_cancel_left (hlog.symm.trans ht)
      simp only [List.cons.injEq, Event.used.injEq] at he
      obtain ⟨⟨-, rfl⟩, -⟩ := he
      cases hr
    | unwinds _ _ _ hlog hp =>
      refine ⟨_, hlog, ?_, fun _ => .inr rfl⟩
      rcases hp with rfl | rfl <;> simp [Event.unwinds]
    | listingFails | ends => exact kept rfl id rfl

theorem poisoned_iff (r : Reach processSystem p) :
    (p.poisoned = true ↔ ∃ e ∈ p.context.log, e.unwinds = true) ∧
      (p.context.poisoned = true → p.poisoned = true) := by
  refine r.inv (I := fun p => (p.poisoned = true ↔ ∃ e ∈ p.context.log, e.unwinds = true) ∧
    (p.context.poisoned = true → p.poisoned = true)) ?_ ?_
  · rintro p ⟨-, ⟨hst, -, -, -, hlog⟩, -, hp⟩
    simp [hp, hlog, AndroidContext.Machine.poisoned, hst]
  rintro p p' rp ⟨hiff, hctx⟩ hs
  obtain ⟨new, hlog, hstep, hcstep⟩ := hs.poison (nested rp)
  refine ⟨?_, fun hp' => ?_⟩
  · rw [hstep, hiff, hlog]
    simp [or_and_right, exists_or]
  · rcases hcstep hp' with hp | hp
    · exact hstep.mpr (.inl (hctx hp))
    · exact hp

/-- A thread that sets the context is never on the way of `ndk_context`. -/
theorem Nested.setter_away (h : Nested p) (k : Nat) : (p.context.calls (.setter k)).fallback = false := by
  have hu := h.setters k
  cases hc : p.context.calls (.setter k) <;> simp [hc, Call.uses, Call.fallback] at hu ⊢

/-- **Once a context has been set, only a closure that panics kills the registry**, and both mutexes are
poisoned at once. -/
theorem poisoned_once_set (r : Reach processSystem p) (hset : p.context.stores ≠ [])
    (haway : ∀ n, (p.context.calls (.client n)).fallback = false) (hp : p.poisoned = false)
    (l : Later processSystem p p') :
    p'.context.poisoned = p'.poisoned ∧
      (p'.poisoned = true ↔ ∃ t, .used t (.ran .panicked) ∈ p'.context.log) := by
  have hall (t : Thread) : (p.context.calls t).fallback = false := by
    cases t with
    | client n => exact haway n
    | setter k => exact (nested r).setter_away k
  have key : p'.context.stores ≠ [] ∧ (∀ t, (p'.context.calls t).fallback = false) ∧
      ∀ e ∈ p'.context.log, e.unwinds = true → p'.context.poisoned = true := by
    refine Later.inv r l (I := fun p => p.context.stores ≠ [] ∧
      (∀ t, (p.context.calls t).fallback = false) ∧
      ∀ e ∈ p.context.log, e.unwinds = true → p.context.poisoned = true) ⟨hset, hall, ?_⟩ ?_
    · intro e he hu
      have := (poisoned_iff r).1.mpr ⟨e, he, hu⟩
      rw [hp] at this
      cases this
    rintro t t' rt ⟨hset, haway, hlog⟩ hs
    rcases hs.context (nested rt) with he | hs
    · rw [he]
      exact ⟨hset, haway, hlog⟩
    have hk := Kept.step (inv (reach_context rt)) hset hs
    refine ⟨fun hnil => hset ?_, fun t => hk.away t (haway t), fun e he hu => ?_⟩
    · exact List.prefix_nil.mp (hnil ▸ hk.stores)
    · rcases hs.unwinds haway e he hu with he | hpo
      · exact (hk.poisoned (hlog e he hu)).1
      · exact hpo
  obtain ⟨-, -, hlog⟩ := key
  obtain ⟨hiff, hctx⟩ := poisoned_iff (r.later l)
  have hboth : p'.context.poisoned = p'.poisoned := by
    refine Bool.eq_iff_iff.mpr ⟨hctx, fun hp' => ?_⟩
    obtain ⟨e, he, hu⟩ := hiff.mp hp'
    exact hlog e he hu
  refine ⟨hboth, fun hp' => ?_, fun ⟨t, ht⟩ => hiff.mpr ⟨_, ht, rfl⟩⟩
  exact ran_of_poisoned (reach_context (r.later l)) (hboth.trans hp')

/-- A context has been set and nobody has registered. -/
theorem set_process_reach : ∃ p : Process, Reach processSystem p ∧ p.context.stores = [0] ∧
    (∀ n, (p.context.calls (.client n)).fallback = false) ∧ p.poisoned = false := by
  have r1 := untouched_reach.step (.setContext (k := 0) ((Step.callSet rfl).of rfl) rfl)
  have r2 := r1.step (.setContext (k := 0) ((Step.create rfl).of rfl) rfl)
  have r3 := r2.step (.setContext (k := 0) ((Step.initStorage rfl).of rfl) rfl)
  have r4 := r3.step (.setContext (k := 0) ((Step.store rfl rfl rfl rfl).of rfl) rfl)
  exact ⟨_, r4, rfl, fun _ => rfl, rfl⟩

theorem poisoned_once_set_unregistered : ∃ p : Process, p.context.stores = [0] ∧
    ∀ p', Later processSystem p p' → p'.context.poisoned = p'.poisoned := by
  obtain ⟨p, r, hs, ha, hp⟩ := set_process_reach
  exact ⟨p, hs, fun p' l => (poisoned_once_set r (by simp [hs]) ha hp l).1⟩

end

end Netwatcher.WatchAndroid
