import Netwatcher.AndroidContext
import Netwatcher.WatchAndroid.Live
import Netwatcher.WatchAndroid.Registry
/-!
# The state lock around the Android context (`src/watch_android.rs`, `src/android.rs`)

`Machine` takes a critical section of the state lock as one step, with whatever comes of the Java calls
in it. The first registration and the removal of the last watcher make these calls, through
`with_android_ctx`, which takes a lock of its own, may be refused a context and may panic. Here such a
section holds the state lock for as long as it takes, and the steps of `AndroidContext` in it are the
holder's own. What else is called under the state lock is taken to return: a listing, and the wakers of a
notification's pushes (watch_android.rs:401-403).

| here | there |
| --- | --- |
| `Stage.starting`, `started` | `initialise_java_watching` in and after `start_java_watching` (watch_android.rs:242) |
| `Stage.undoing`, `undone`   | the same in and after `stop_java_watching`, when the listing has failed (:250) |
| `Stage.stopping`, `stopped` | `unregister_watcher` of the last watcher in and after `stop_java_watching` (:218) |
| `HolderStep.unwinds`        | such a call panics: the state mutex is poisoned |
| `ProcessStep.atOnce`        | the sections without a Java call |
| `ProcessStep.setContext`    | `set_android_context` (android.rs:31), on any thread |

A section that panics leaves behind what it has done so far. Nobody sees it, since every later
`lock().unwrap()` panics: `machine` stays as it was before the section, also the Java side, of which
nothing is said from then on but that it is not called. A second panic, in a drop while the first one
unwinds, ends the process; a run ends there.
-/

/-! ## The steps of one thread -/

namespace Netwatcher.AndroidContext
open Runs Function

variable {τ : Type*} [DecidableEq τ]

/-- In `with_android_ctx`. -/
def Call.uses : Call → Bool
  | .locking | .running _ | .fallingBack | .runningFallback _ => true
  | _ => false

/-- The steps that are left of it. -/
def Call.left : Call → Nat
  | .locking => 3
  | .fallingBack => 2
  | .running _ | .runningFallback _ => 1
  | _ => 0

/-- A step of thread `t`: the other threads stay where they are. -/
def StepOf (t : τ) (m m' : Machine τ) : Prop := Step m m' ∧ ∀ t' ≠ t, m'.calls t' = m.calls t'

theorem Step.of {t : τ} {m m' : Machine τ} {call : Call} (hs : Step m m')
    (hc : m'.calls = update m.calls t call) : StepOf t m m' :=
  ⟨hs, fun p hp => by rw [hc, update_of_ne hp]⟩

/-- Whose call moves is `t`. -/
theorem StepOf.own {t p : τ} {m m' : Machine τ} {call call' : Call} (h : StepOf t m m')
    (hp : m.calls p = call) (hc : m'.calls = update m.calls p call') (hne : call ≠ call') : p = t := by
  by_contra hpt
  have hsame := h.2 p hpt
  rw [hc, update_self, hp] at hsame
  exact hne hsame.symm

/-- `with_android_ctx` comes back, or gets on. -/
theorem StepOf.uses {t : τ} {m m' : Machine τ} (h : StepOf t m m') (hu : (m.calls t).uses = true) :
    (∃ used, m'.calls t = .idle ∧ m'.log = m.log ++ [.used t used]) ∨
      (m'.log = m.log ∧ (m'.calls t).uses = true ∧ (m'.calls t).left < (m.calls t).left) := by
  have away {p : τ} {call call' : Call} (hp : m.calls p = call) (hc : m'.calls = update m.calls p call')
      (hne : call ≠ call') (hcall : call.uses = false) : False := by
    obtain rfl := h.own hp hc hne
    rw [hp, hcall] at hu
    cases hu
  cases h.1 with
  | callUse hp => exact (away hp rfl (by split <;> simp) rfl).elim
  | callSet hp | setFails _ hp | create hp | initStorage hp | store hp _ _ _ | storePanics hp _ _ _ =>
    exact (away hp rfl (by simp) rfl).elim
  | lockPanics hp _ _ _ | unlock _ hp _ | ndkPanics hp | ndkNull hp | ndkFails _ hp | ndkDrop _ hp =>
    obtain rfl := h.own hp rfl (by simp)
    exact .inl ⟨_, update_self .., rfl⟩
  | lockContext hp _ _ _ _ | lockNothing hp _ _ _ _ | ndkCreate hp =>
    obtain rfl := h.own hp rfl (by simp)
    refine .inr ⟨rfl, ?_, ?_⟩
    · simp [Machine.setCall, Call.uses]
    · simp [Machine.setCall, hp, Call.left]

/-- A thread outside of `with_android_ctx` does nothing to the mutex, and nothing panics there. -/
theorem StepOf.outside {t : τ} {m m' : Machine τ} (h : StepOf t m m') (hu : (m.calls t).uses = false) :
    (m'.poisoned = true → m.poisoned = true) ∧
      ∃ new, m'.log = m.log ++ new ∧ ∀ e ∈ new, e.unwinds = false := by
  have inside {p : τ} {call call' : Call} (hp : m.calls p = call) (hc : m'.calls = update m.calls p call')
      (hne : call ≠ call') (hcall : call.uses = true) : False := by
    obtain rfl := h.own hp hc hne
    rw [hp, hcall] at hu
    cases hu
  refine ⟨fun hpo' => ?_, ?_⟩
  · by_contra hpo
    obtain ⟨p, context, hp, hp', -⟩ := h.1.poisons (Bool.eq_false_iff.mpr hpo) hpo'
    obtain rfl : p = t := by
      by_contra hpt
      cases hp.symm.trans ((h.2 p hpt).symm.trans hp')
    rw [hp] at hu
    cases hu
  cases h.1 with
  | callSet _ | create _ | initStorage _ | callUse _ =>
    exact ⟨[], by simp [Machine.setCall, Machine.newGlobalRef]⟩
  | setFails _ _ | store _ _ _ _ | storePanics _ _ _ _ => exact ⟨[_], rfl, by simp [Event.unwinds]⟩
  | lockPanics hp _ _ _ | unlock _ hp _ | ndkPanics hp | ndkNull hp | ndkFails _ hp | ndkDrop _ hp =>
    exact (inside hp rfl (by simp) rfl).elim
  | lockContext hp _ _ _ _ | lockNothing hp _ _ _ _ | ndkCreate hp =>
    exact (inside hp rfl (by simp) rfl).elim

/-- Whoever waits for the lock has seen that there is one. -/
theorem storage_of_locking {m : Machine τ} (r : Reach (system τ) m) :
    ∀ t, m.calls t = .locking → ∃ storage, m.storage = some storage := by
  refine r.inv (I := fun m => ∀ t, m.calls t = .locking → ∃ storage, m.storage = some storage) ?_ ?_
  · rintro m ⟨-, hc, -⟩ t ht
    rw [hc] at ht
    cases ht
  intro m m' _ h hs
  have keep {p : τ} {call : Call} (hc : m'.calls = update m.calls p call)
      (hst : (∃ storage, m.storage = some storage) → ∃ storage, m'.storage = some storage)
      (hl : call = .locking → ∃ storage, m'.storage = some storage) :
      ∀ t, m'.calls t = .locking → ∃ storage, m'.storage = some storage := by
    intro t ht
    rw [hc] at ht
    by_cases htp : t = p
    · subst htp
      rw [update_self] at ht
      exact hl ht
    · rw [update_of_ne htp] at ht
      exact hst (h t ht)
  cases hs with
  | callUse hp =>
    refine keep rfl id fun hl => ?_
    split at hl
    · rename_i hsome
      exact Option.isSome_iff_exists.mp hsome
    · cases hl
  | initStorage hp | store hp _ _ _ | unlock _ hp _ => exact keep rfl (fun _ => ⟨_, rfl⟩) (by simp)
  | lockContext hp _ _ _ _ => exact keep rfl (fun _ => ⟨_, rfl⟩) (by simp)
  | _ => exact keep rfl id (by simp)

/-- `with_android_ctx` can get on, if nobody is in its way where it locks. -/
theorem exists_stepOf {t : τ} {m : Machine τ} (r : Reach (system τ) m) (hu : (m.calls t).uses = true)
    (hf : m.calls t = .locking → ∀ p, m.borrowed p = none) : ∃ m', StepOf t m m' := by
  cases hp : m.calls t with
  | locking =>
    obtain ⟨storage, hst⟩ := storage_of_locking r t hp
    have hl : storage.lockedBy = none := by
      cases hl : storage.lockedBy with
      | none => rfl
      | some p =>
        obtain ⟨context, hb⟩ := (inv r).held.locked storage p hst hl
        cases (hf hp p).symm.trans hb
    cases hpo : storage.poisoned with
    | true => exact ⟨_, (Step.lockPanics hp hst hl hpo).of rfl⟩
    | false =>
      cases hc : storage.context with
      | none => exact ⟨_, (Step.lockNothing hp hst hl hpo hc).of rfl⟩
      | some context => exact ⟨_, (Step.lockContext hp hst hl hpo hc).of rfl⟩
  | running context =>
    have hst := (inv r).held.given t context (by rw [Machine.borrowed, hp]; rfl)
    exact ⟨_, (Step.unlock .returned hp hst).of rfl⟩
  | fallingBack => exact ⟨_, (Step.ndkPanics hp).of rfl⟩
  | runningFallback context => exact ⟨_, (Step.ndkDrop .returned hp).of rfl⟩
  | _ =>
    rw [hp] at hu
    cases hu

end Netwatcher.AndroidContext

namespace Netwatcher.WatchAndroid
open Coll Runs AndroidContext

/-! ## The process -/

/-- Whoever makes the calls of client `n`, and those who set the context. -/
inductive Thread
  | client (n : Nat)
  | setter (k : Nat)
deriving DecidableEq, Repr

/-- Where a section that makes Java calls is. -/
inductive Stage
  | starting
  | started (start : StartOutcome)
  | undoing (connectivityManager : Bool) (err : Error)
  | undone (connectivityManager : Bool) (err : Error) (stop : StopOutcome)
  | stopping (id : WatcherId)
  | stopped (id : WatcherId) (stop : StopOutcome)

/-- In `with_android_ctx`. -/
def Stage.calling : Stage → Bool
  | .starting | .undoing _ _ | .stopping _ => true
  | .started _ | .undone _ _ _ | .stopped _ _ => false

structure Process where
  machine : Machine
  context : AndroidContext.Machine Thread
  /-- The client whose call holds the state lock over a Java call. -/
  holder : Option (Nat × Stage)
  /-- The state mutex. -/
  poisoned : Bool

def Process.Unlocked (p : Process) : Prop :=
  p.machine.lock = .free ∧ p.holder = none ∧ p.poisoned = false

/-- Client `n` calls `with_android_ctx` for `stage`. -/
def Process.enter (p : Process) (n : Nat) (stage : Stage) : Process :=
  { p with
    context := p.context.setCall (.client n) (if p.context.storage.isSome then .locking else .fallingBack)
    holder := some (n, stage) }

/-- What the section makes of an outcome of `with_android_ctx` that is no panic. -/
inductive Returns : Stage → Used → Stage → Prop
  | start (start : StartOutcome) : Returns .starting (.ran .returned) (.started start)
  | startRefused (err : Error) : Returns .starting (.refused err) (.started (.failed err false))
  | undo {connectivityManager : Bool} {err : Error} (stop : StopOutcome) :
      Returns (.undoing connectivityManager err) (.ran .returned) (.undone connectivityManager err stop)
  | undoRefused {connectivityManager : Bool} {err : Error} (err' : Error) :
      Returns (.undoing connectivityManager err) (.refused err')
        (.undone connectivityManager err (.failed err' true))
  | stop {id : WatcherId} (stop : StopOutcome) : Returns (.stopping id) (.ran .returned) (.stopped id stop)
  | stopRefused {id : WatcherId} (err : Error) :
      Returns (.stopping id) (.refused err) (.stopped id (.failed err true))

/-- How the section ends once it has made its calls. -/
inductive Ends (n : Nat) : Stage → Machine → Machine → Prop
  | allocate {m : Machine} {connectivityManager : Bool} {list : IfList} {stop : StopOutcome} {w : World}
      {id : WatcherId} {currentList : IfList} (callback : FnMut) : m.state.HasId → callback.calls = [] →
      allocateCallbackWatcher ⟨.started connectivityManager, .ok list, stop⟩ m.world =
        (w, .ok (id, currentList)) →
      Ends n (.started (.started connectivityManager)) m
        ({ m with world := w }.setClient n (.initial id currentList (.new callback)))
  | queue {m : Machine} {connectivityManager : Bool} {list : IfList} {stop : StopOutcome} {w : World}
      {queue : AsyncCallbackQueue} {id : WatcherId} (kind : WatchKind) : m.state.HasId →
      registerQueuedWatcher ⟨.started connectivityManager, .ok list, stop⟩ m.world n
        emptyAsyncCallbackQueue = (w, queue, .ok id) →
      Ends n (.started (.started connectivityManager)) m ({ m with
        world := w, queues := Function.update m.queues n queue }.setClient n (.queued id (.new kind)))
  /-- Whichever kind of watcher it was to be. -/
  | refuse {m : Machine} {err err' : Error} {leftBehind : Bool} {listing : Except Error IfList}
      {stop : StopOutcome} {w : World} :
      allocateCallbackWatcher ⟨.failed err leftBehind, listing, stop⟩ m.world = (w, .error err') →
      Ends n (.started (.failed err leftBehind)) m ({ m with world := w }.setClient n (.refused err'))
  | undo {m : Machine} {connectivityManager : Bool} {err err' : Error} {stop : StopOutcome} {w : World} :
      allocateCallbackWatcher ⟨.started connectivityManager, .error err, stop⟩ m.world = (w, .error err') →
      Ends n (.undone connectivityManager err stop) m ({ m with world := w }.setClient n (.refused err'))
  | leave {m : Machine} {id : WatcherId} {stop : StopOutcome} :
      Ends n (.stopped id stop) m
        ({ m with world := unregisterWatcher stop id m.world }.setClient n (.gone id))

/-- The steps of the section that holds the state lock. -/
inductive HolderStep : Process → Process → Prop
  | within {p : Process} {n : Nat} {stage : Stage} {c : AndroidContext.Machine Thread} :
      p.holder = some (n, stage) → stage.calling = true → StepOf (.client n) p.context c →
      c.log = p.context.log → HolderStep p { p with context := c }
  | returns {p : Process} {n : Nat} {stage stage' : Stage} {c : AndroidContext.Machine Thread}
      {used : Used} : p.holder = some (n, stage) → StepOf (.client n) p.context c →
      c.log = p.context.log ++ [.used (.client n) used] → Returns stage used stage' →
      HolderStep p { p with context := c, holder := some (n, stage') }
  | unwinds {p : Process} {n : Nat} {stage : Stage} {c : AndroidContext.Machine Thread} {used : Used} :
      p.holder = some (n, stage) → stage.calling = true → StepOf (.client n) p.context c →
      c.log = p.context.log ++ [.used (.client n) used] → used = .panicked ∨ used = .ran .panicked →
      HolderStep p { p with context := c, holder := none, poisoned := true }
  | listingFails {p : Process} {n : Nat} {connectivityManager : Bool} (err : Error) :
      p.holder = some (n, .started (.started connectivityManager)) →
      HolderStep p (p.enter n (.undoing connectivityManager err))
  | ends {p : Process} {n : Nat} {stage : Stage} {m : Machine} : p.holder = some (n, stage) →
      Ends n stage p.machine m → HolderStep p { p with machine := m, holder := none }

/-- No first registration, and the last watcher is not removed. -/
def Unasked (m m' : Machine) : Prop :=
  (m.state.hasWatchers = false → m'.clients = m.clients) ∧
    (m.state.hasWatchers = true → m'.state.hasWatchers = true)

inductive ProcessStep : Process → Process → Prop
  | setContext {p : Process} {k : Nat} {c : AndroidContext.Machine Thread} :
      StepOf (.setter k) p.context c → (c.calls (.setter k)).uses = false →
      ProcessStep p { p with context := c }
  | start {p : Process} {n : Nat} : p.Unlocked → p.machine.clients n = .absent →
      p.machine.state.hasWatchers = false → ProcessStep p (p.enter n .starting)
  | leaveLast {p : Process} {n : Nat} {id : WatcherId} : p.Unlocked →
      (p.machine.clients n).leaving = some id → (p.machine.state.remove id).hasWatchers = false →
      p.machine.state.javaSupport.isSome = true → ProcessStep p (p.enter n (.stopping id))
  | holder {p p' : Process} : HolderStep p p' → ProcessStep p p'
  | atOnce {p : Process} {m : Machine} : p.holder = none → p.poisoned = false → Step p.machine m →
      Unasked p.machine m → ProcessStep p { p with machine := m }
  /-- User code, and the consumers: without the state lock. -/
  | beside {p : Process} {m : Machine} : Beside p.machine m → ProcessStep p { p with machine := m }

def processSystem : Sys Process where
  init p := system.init p.machine ∧ (AndroidContext.system Thread).init p.context ∧ p.holder = none ∧
    p.poisoned = false
  step := ProcessStep

/-! ## One lock inside the other -/

/-- What has been seen at the start of the section and still holds. -/
def Stage.Pending (n : Nat) (m : Machine) : Stage → Prop
  | .stopping id | .stopped id _ =>
    (m.clients n).leaving = some id ∧ (m.state.remove id).hasWatchers = false
  | _ => m.clients n = .absent ∧ m.state.hasWatchers = false

structure Nested (p : Process) : Prop where
  unlocked : p.holder ≠ none → p.machine.lock = .free ∧ p.poisoned = false
  pending : ∀ n stage, p.holder = some (n, stage) → stage.Pending n p.machine
  /-- Nobody but the holder is in `with_android_ctx`. -/
  idle : ∀ n, p.context.calls (.client n) ≠ .idle →
    ∃ stage, p.holder = some (n, stage) ∧ stage.calling = true
  uses : ∀ n stage, p.holder = some (n, stage) → stage.calling = true →
    (p.context.calls (.client n)).uses = true
  setters : ∀ k, (p.context.calls (.setter k)).uses = false

section
variable {p p' : Process} {n : Nat} {stage : Stage} {c : AndroidContext.Machine Thread}

theorem Nested.quiet (h : Nested p)
    (hq : ∀ n stage, p.holder = some (n, stage) → stage.calling = false) : ∀ n, p.context.calls (.client n) = .idle := by
  intro n
  by_contra hn
  obtain ⟨stage, hh, hc⟩ := h.idle n hn
  rw [hq n stage hh] at hc
  cases hc

/-- `with_android_ctx` is called under the state lock. -/
theorem Nested.enter (h : Nested p)
    (hq : ∀ n stage, p.holder = some (n, stage) → stage.calling = false)
    (hl : p.machine.lock = .free ∧ p.poisoned = false) (hp : stage.Pending n p.machine)
    (hs : stage.calling = true) : Nested (p.enter n stage) where
  unlocked _ := hl
  pending := by
    intro n' stage' hh
    cases hh
    exact hp
  idle := by
    intro n' hn'
    by_cases hnn : n' = n
    · subst hnn
      exact ⟨stage, rfl, hs⟩
    · have hne : Thread.client n' ≠ .client n := fun he => hnn (Thread.client.inj he)
      exact absurd ((Function.update_of_ne hne ..).trans (h.quiet hq n')) hn'
  uses := by
    intro n' stage' hh _
    cases hh
    simp only [Process.enter, AndroidContext.Machine.setCall, Function.update_self]
    split <;> rfl
  setters := by
    intro k
    have hne : Thread.setter k ≠ .client n := by simp
    simp only [Process.enter, AndroidContext.Machine.setCall, Function.update_of_ne hne]
    exact h.setters k

/-- The holder's call has come back, and nobody is in `with_android_ctx`. -/
theorem Nested.back (h : Nested p) (hh : p.holder = some (n, stage)) (hs : StepOf (.client n) p.context c)
    (hc : stage.calling = true) {used : Used} (hlog : c.log = p.context.log ++ [.used (.client n) used]) :
    (∀ n', c.calls (.client n') = .idle) ∧ ∀ k, (c.calls (.setter k)).uses = false := by
  refine ⟨?_, ?_⟩
  · intro n'
    by_cases hnn : n' = n
    · subst hnn
      rcases hs.uses (h.uses n' stage hh hc) with ⟨_, hidle, -⟩ | ⟨hsame, -⟩
      · exact hidle
      · simp [hsame] at hlog
    · rw [hs.2 _ fun he => hnn (Thread.client.inj he)]
      by_contra hn'
      obtain ⟨stage', hh', -⟩ := h.idle n' hn'
      cases hh.symm.trans hh'
      exact hnn rfl
  · intro k
    rw [hs.2 _ (by simp)]
    exact h.setters k

/-- Nobody is in `with_android_ctx` any more. -/
theorem Nested.of_quiet (hl : p.holder ≠ none → p.machine.lock = .free ∧ p.poisoned = false)
    (hp : ∀ n stage, p.holder = some (n, stage) → stage.Pending n p.machine ∧ stage.calling = false)
    (hc : ∀ n, p.context.calls (.client n) = .idle) (hs : ∀ k, (p.context.calls (.setter k)).uses = false) :
    Nested p where
  unlocked := hl
  pending n stage hh := (hp n stage hh).1
  idle n hn := absurd (hc n) hn
  uses n stage hh hcall := by
    rw [(hp n stage hh).2] at hcall
    cases hcall
  setters := hs

theorem Returns.pending {m : Machine} {stage' : Stage} {used : Used} (h : Returns stage used stage') :
    stage.calling = true ∧ stage'.calling = false ∧ (stage.Pending n m → stage'.Pending n m) := by
  cases h <;> exact ⟨rfl, rfl, id⟩

theorem Ends.calling {m m' : Machine} (h : Ends n stage m m') : stage.calling = false := by
  cases h <;> rfl

theorem Nested.holderStep (h : Nested p) (hs : HolderStep p p') : Nested p' := by
  cases hs with
  | @within n stage c hh hc hs hlog =>
    rcases hs.uses (h.uses n stage hh hc) with ⟨used, -, hlog'⟩ | ⟨-, huses, -⟩
    · simp [hlog] at hlog'
    refine ⟨h.unlocked, h.pending, ?_, ?_, ?_⟩
    · intro n' hn'
      by_cases hnn : n' = n
      · subst hnn
        exact ⟨stage, hh, hc⟩
      · have hsame := hs.2 (.client n') fun he => hnn (Thread.client.inj he)
        exact h.idle n' (hsame ▸ hn')
    · intro n' stage' hh' _
      cases hh.symm.trans hh'
      exact huses
    · intro k
      rw [hs.2 _ (by simp)]
      exact h.setters k
  | @returns n stage stage' c used hh hs hlog hr =>
    obtain ⟨hc, hc', hp⟩ := hr.pending (n := n) (m := p.machine)
    obtain ⟨hidle, hset⟩ := h.back hh hs hc hlog
    refine .of_quiet (fun _ => h.unlocked (by simp [hh])) ?_ hidle hset
    intro n' stage'' hh'
    cases hh'
    exact ⟨hp (h.pending n stage hh), hc'⟩
  | @unwinds n stage c used hh hc hs hlog _ =>
    obtain ⟨hidle, hset⟩ := h.back hh hs hc hlog
    exact .of_quiet (fun hne => absurd rfl hne) (by simp) hidle hset
  | @listingFails n cm err hh =>
    have hp := h.pending n _ hh
    refine h.enter ?_ (h.unlocked (by simp [hh])) hp rfl
    intro n' stage' hh'
    cases hh.symm.trans hh'
    rfl
  | @ends n stage m hh he =>
    refine .of_quiet (fun hne => absurd rfl hne) (by simp) (h.quiet ?_) h.setters
    intro n' stage' hh'
    cases hh.symm.trans hh'
    exact he.calling

theorem Beside.leaving {m m' : Machine} (h : Beside m m') {n : Nat} {id : WatcherId}
    (hn : (m.clients n).leaving = some id) : (m'.clients n).leaving = some id := by
  have set {k : Nat} {call call' : Client} (hk : m.clients k = call)
      (hc : call.leaving = some id → call'.leaving = some id) :
      (Function.update m.clients k call' n).leaving = some id := by
    by_cases hnk : n = k
    · subst hnk
      rw [Function.update_self]
      exact hc (hk ▸ hn)
    · rwa [Function.update_of_ne hnk]
  cases h with
  | callInitial hk _ | callNext hk _ | consume hk _ => exact set hk (by simp [Client.leaving])

theorem Stage.Pending.beside {m m' : Machine} (hp : stage.Pending n m) (h : Beside m m') :
    stage.Pending n m' := by
  obtain ⟨hworld, -, habsent⟩ := h.frame
  have hstate : m'.state = m.state := congrArg World.state hworld
  cases stage with
  | stopping id | stopped id stop => exact ⟨h.leaving hp.1, by rw [hstate]; exact hp.2⟩
  | _ => exact ⟨habsent n hp.1, by rw [hstate]; exact hp.2⟩

theorem Nested.step (h : Nested p) (hs : ProcessStep p p') : Nested p' := by
  cases hs with
  | @setContext k c hs hu =>
    have hclients (n : Nat) : c.calls (.client n) = p.context.calls (.client n) := hs.2 _ (by simp)
    refine ⟨h.unlocked, h.pending, ?_, ?_, ?_⟩
    · intro n hn
      exact h.idle n (hclients n ▸ hn)
    · intro n stage hh hc
      change (c.calls (.client n)).uses = true
      rw [hclients]
      exact h.uses n stage hh hc
    · intro k'
      by_cases hk : k' = k
      · exact hk ▸ hu
      · change (c.calls (.setter k')).uses = false
        rw [hs.2 _ fun he => hk (Thread.setter.inj he)]
        exact h.setters k'
  | start hu hn hw => exact h.enter (by simp [hu.2.1]) ⟨hu.1, hu.2.2⟩ ⟨hn, hw⟩ rfl
  | leaveLast hu hn hw _ => exact h.enter (by simp [hu.2.1]) ⟨hu.1, hu.2.2⟩ ⟨hn, hw⟩ rfl
  | holder hs => exact h.holderStep hs
  | atOnce hh _ _ _ =>
    exact ⟨fun hne => absurd hh hne, fun n stage hs => by simp [hh] at hs, h.idle, h.uses, h.setters⟩
  | beside hb =>
    exact ⟨fun hne => ⟨hb.frame.2.1.trans (h.unlocked hne).1, (h.unlocked hne).2⟩,
      fun n stage hh => (h.pending n stage hh).beside hb, h.idle, h.uses, h.setters⟩

end

theorem nested {p : Process} (r : Reach processSystem p) : Nested p := by
  refine r.inv (I := Nested) ?_ fun _ _ _ h hs => h.step hs
  rintro p ⟨-, ⟨-, hc, -⟩, hh, -⟩
  refine .of_quiet (fun hne => absurd hh hne) (by simp [hh]) (fun n => hc _) fun k => ?_
  rw [hc]
  rfl

/-! ## Both machines -/

section
variable {p : Process}

theorem Ends.step {m m' : Machine} {n : Nat} {stage : Stage} (h : Ends n stage m m')
    (hp : stage.Pending n m) (hl : m.lock = .free) : Step m m' := by
  cases h with
  | allocate callback hid hcalls ha => exact .allocate callback hl hp.1 hid hcalls ha
  | queue kind hid ha => exact .registerQueued kind hl hp.1 hid ha
  | refuse ha | undo ha => exact .refuseCallback hl hp.1 ha
  | leave => exact .leave _ hl hp.1

theorem reach_machine_of_process (r : Reach processSystem p) : Reach system p.machine := by
  refine r.inv (I := fun p => Reach system p.machine) ?_ ?_
  · exact fun _ h => .init h.1
  intro p p' rp hr hs
  cases hs with
  | setContext | start | leaveLast => exact hr
  | holder hs =>
    cases hs with
    | ends hh he =>
      have h := nested rp
      exact hr.step (he.step (h.pending _ _ hh) (h.unlocked (by simp [hh])).1)
    | _ => exact hr
  | atOnce _ _ hs _ => exact hr.step hs
  | beside hb => exact hr.step hb.step

/-- What a step of the process is to the context. -/
theorem ProcessStep.context {p' : Process} (h : Nested p) (hs : ProcessStep p p') :
    p'.context = p.context ∨ AndroidContext.Step p.context p'.context := by
  cases hs with
  | setContext hs _ => exact .inr hs.1
  | start hu _ _ => exact .inr (.callUse (h.quiet (by simp [hu.2.1]) _))
  | leaveLast hu _ _ _ => exact .inr (.callUse (h.quiet (by simp [hu.2.1]) _))
  | holder hs =>
    cases hs with
    | within _ _ hs _ => exact .inr hs.1
    | returns _ hs _ _ => exact .inr hs.1
    | unwinds _ _ hs _ _ => exact .inr hs.1
    | listingFails err hh =>
      refine .inr (.callUse (h.quiet ?_ _))
      intro n' stage' hh'
      cases hh.symm.trans hh'
      rfl
    | ends _ _ => exact .inl rfl
  | atOnce | beside => exact .inl rfl

theorem reach_context (r : Reach processSystem p) : Reach (AndroidContext.system Thread) p.context := by
  refine r.inv (I := fun p => Reach (AndroidContext.system Thread) p.context) ?_ ?_
  · exact fun _ h => .init h.2.1
  intro p p' rp hr hs
  rcases hs.context (nested rp) with he | hs
  · rwa [he]
  · exact hr.step hs

/-- The holder is the only one that `f` runs for. -/
theorem Nested.holder_of_uses (h : Nested p) {t : Thread} (hu : (p.context.calls t).uses = true) :
    ∃ n stage, t = .client n ∧ p.holder = some (n, stage) ∧ stage.calling = true := by
  cases t with
  | client n =>
    obtain ⟨stage, hh, hc⟩ := h.idle n (by rintro he; rw [he] at hu; cases hu)
    exact ⟨n, stage, rfl, hh, hc⟩
  | setter k =>
    rw [h.setters k] at hu
    cases hu

/-- Where the holder locks, nobody has been given the context. -/
theorem Nested.free_of_locking (h : Nested p) {t : Thread} (ht : p.context.calls t = .locking)
    (t' : Thread) : p.context.borrowed t' = none := by
  cases hb : p.context.borrowed t' with
  | none => rfl
  | some context =>
    have hrun : p.context.calls t' = .running context := by
      rw [AndroidContext.Machine.borrowed] at hb
      cases hc : p.context.calls t' <;> simp [hc, Call.borrowed] at hb
      rw [hb]
    obtain ⟨n, stage, rfl, hh, -⟩ := h.holder_of_uses (t := t) (by rw [ht]; rfl)
    obtain ⟨n', stage', rfl, hh', -⟩ := h.holder_of_uses (t := t') (by rw [hrun]; rfl)
    cases hh.symm.trans hh'
    cases ht.symm.trans hrun

/-- **The lock of the context is taken inside of the state lock only**, and is free whenever it is: the
closures given to `with_android_ctx` run one at a time, also those that run without that lock. What a
process does is a run of the watchers, with a section of the state lock as one step, and a run of the
context. -/
theorem context_nested (r : Reach processSystem p) :
    (∀ t, (p.context.calls t).uses = true →
      ∃ n stage, t = .client n ∧ p.holder = some (n, stage) ∧ stage.calling = true) ∧
    (∀ storage t, p.context.storage = some storage → storage.lockedBy = some t →
      ∃ n stage, t = .client n ∧ p.holder = some (n, stage) ∧ stage.calling = true) ∧
    (∀ storage t, p.context.storage = some storage → p.context.calls t = .locking →
      storage.lockedBy = none) ∧
    Reach system p.machine ∧ Reach (AndroidContext.system Thread) p.context := by
  have h := nested r
  have rc := reach_context r
  have held {storage : ContextStorage Thread} {t : Thread} (hst : p.context.storage = some storage)
      (hl : storage.lockedBy = some t) : ∃ context, p.context.borrowed t = some context :=
    (inv rc).held.locked storage t hst hl
  refine ⟨fun t hu => h.holder_of_uses hu, ?_, ?_, reach_machine_of_process r, rc⟩
  · intro storage t hst hl
    obtain ⟨context, hb⟩ := held hst hl
    refine h.holder_of_uses ?_
    rw [AndroidContext.Machine.borrowed] at hb
    cases hc : p.context.calls t <;> simp [hc, Call.borrowed] at hb
    rfl
  · intro storage t hst ht
    cases hl : storage.lockedBy with
    | none => rfl
    | some t' =>
      obtain ⟨context, hb⟩ := held hst hl
      cases (h.free_of_locking ht t').symm.trans hb

/-- No context has been set and nobody has registered. -/
def untouched : Process where
  machine := unused
  context := ⟨none, fun _ => .idle, ∅, 0, [], []⟩
  holder := none
  poisoned := false

theorem untouched_reach : Reach processSystem untouched :=
  .init ⟨⟨rfl, fun _ => rfl, rfl, fun _ => rfl⟩, ⟨rfl, fun _ => rfl, rfl, rfl, rfl⟩, rfl, rfl⟩

theorem started_reach : Reach processSystem (untouched.enter 0 .starting) :=
  untouched_reach.step (.start ⟨rfl, rfl, rfl⟩ rfl rfl)

theorem context_nested_started : ∃ n stage, Thread.client 0 = .client n ∧
    (untouched.enter 0 .starting).holder = some (n, stage) ∧ stage.calling = true :=
  (context_nested started_reach).1 (.client 0) rfl

end

end Netwatcher.WatchAndroid
