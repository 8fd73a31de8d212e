import Netwatcher.Lib.Owners
import Netwatcher.Lib.Runs
import Netwatcher.Types
/-!
# The Android context (`src/android.rs`)

Any number of threads set the context and use it. One step is one JNI call, one look at the cell, or
what a thread does under the mutex; `f` runs under it for as long as it likes.

| here | there |
| --- | --- |
| `ContextStorage` | the mutex in `ANDROID_CONTEXT` (android.rs:16) |
| `Call.setting`, `created`, `storing` | `set_android_context` (:31) up to :41, :44 and :45 |
| `Call.locking`, `running` | `with_android_ctx` up to the lock (:61), and `f` under it (:63) |
| `Call.fallingBack`, `runningFallback` | from `ndk_context::android_context()` on (:68), and `f` in there (:79) |
| `Machine.live`   | the `Global`s of this file that have not been dropped |

The `JavaVM` is the only one of the process and is left out. `f` calls neither function again: those
of watch_android.rs do not.
-/
namespace Netwatcher.AndroidContext
open Runs Owners Function

abbrev GlobalRef := Nat

structure ContextStorage (τ : Type*) where
  context : Option GlobalRef
  lockedBy : Option τ
  poisoned : Bool

/-- `Mutex::new(None)`. -/
def ContextStorage.new {τ : Type*} : ContextStorage τ := ⟨none, none, false⟩

/-- Where a thread is. -/
inductive Call
  | idle
  | setting
  | created (context : GlobalRef)
  | storing (context : GlobalRef)
  | locking
  | running (context : GlobalRef)
  | fallingBack
  | runningFallback (context : GlobalRef)

/-- How `f` came back. -/
inductive Return
  | returned
  | panicked
deriving DecidableEq, Repr

inductive Used
  | ran (f : Return)
  /-- `Err` before `f` was called. -/
  | refused (err : Error)
  /-- `lock().unwrap()` or `android_context()` panicked. -/
  | panicked

/-- What a call came to. -/
inductive Event (τ : Type*)
  | set (thread : τ) (result : Except Error Unit)
  | used (thread : τ) (outcome : Used)

structure Machine (τ : Type*) where
  storage : Option (ContextStorage τ)
  calls : τ → Call
  live : Finset GlobalRef
  /-- The next reference the VM hands out. -/
  next : GlobalRef
  /-- Ghost: the references stored so far. -/
  stores : List GlobalRef
  log : List (Event τ)

namespace Machine
variable {τ : Type*} [DecidableEq τ]

def setCall (m : Machine τ) (t : τ) (call : Call) : Machine τ := { m with calls := update m.calls t call }

/-- `new_global_ref`. -/
def newGlobalRef (m : Machine τ) : Machine τ := { m with live := insert m.next m.live, next := m.next + 1 }

def finish (m : Machine τ) (t : τ) (event : Event τ) : Machine τ :=
  { m.setCall t .idle with log := m.log ++ [event] }

end Machine

variable {τ : Type*} [DecidableEq τ]

inductive Step : Machine τ → Machine τ → Prop
  | callSet {m : Machine τ} {t : τ} : m.calls t = .idle → Step m (m.setCall t .setting)
  /-- `get_java_vm` or `new_global_ref` fails. -/
  | setFails {m : Machine τ} {t : τ} (msg : String) : m.calls t = .setting →
      Step m (m.finish t (.set t (.error (.jni msg))))
  | create {m : Machine τ} {t : τ} : m.calls t = .setting →
      Step m (m.newGlobalRef.setCall t (.created m.next))
  | initStorage {m : Machine τ} {t : τ} {context : GlobalRef} : m.calls t = .created context →
      Step m ({ m with storage := some (m.storage.getD .new) }.setCall t (.storing context))
  /-- `*context_storage.lock().unwrap() = Some(android_ctx)`: what was there is dropped. -/
  | store {m : Machine τ} {t : τ} {context : GlobalRef} {storage : ContextStorage τ} :
      m.calls t = .storing context → m.storage = some storage → storage.lockedBy = none →
      storage.poisoned = false →
      Step m ({ m with
        storage := some { storage with context := some context }
        live := storage.context.elim m.live m.live.erase
        stores := m.stores ++ [context] }.finish t (.set t (.ok ())))
  /-- The mutex is poisoned: the unwinding drops `android_ctx`, and `with_env` catches it. -/
  | storePanics {m : Machine τ} {t : τ} {context : GlobalRef} {storage : ContextStorage τ} :
      m.calls t = .storing context → m.storage = some storage → storage.lockedBy = none →
      storage.poisoned = true →
      Step m ({ m with live := m.live.erase context }.finish t
        (.set t (.error (.jni "panic while setting Android context"))))
  | callUse {m : Machine τ} {t : τ} : m.calls t = .idle →
      Step m (m.setCall t (if m.storage.isSome then .locking else .fallingBack))
  | lockPanics {m : Machine τ} {t : τ} {storage : ContextStorage τ} : m.calls t = .locking →
      m.storage = some storage → storage.lockedBy = none → storage.poisoned = true →
      Step m (m.finish t (.used t .panicked))
  | lockContext {m : Machine τ} {t : τ} {storage : ContextStorage τ} {context : GlobalRef} :
      m.calls t = .locking → m.storage = some storage → storage.lockedBy = none →
      storage.poisoned = false → storage.context = some context →
      Step m ({ m with storage := some { storage with lockedBy := some t } }.setCall t (.running context))
  | lockNothing {m : Machine τ} {t : τ} {storage : ContextStorage τ} : m.calls t = .locking →
      m.storage = some storage → storage.lockedBy = none → storage.poisoned = false →
      storage.context = none → Step m (m.setCall t .fallingBack)
  /-- `f` is over: the guard is dropped, and poisons the mutex if it is by unwinding. -/
  | unlock {m : Machine τ} {t : τ} {context : GlobalRef} {storage : ContextStorage τ} (f : Return) :
      m.calls t = .running context → m.storage = some storage →
      Step m ({ m with
        storage := some { storage with lockedBy := none, poisoned := storage.poisoned || f == Return.panicked }
        }.finish t (.used t (.ran f)))
  /-- `ndk_context` has not been initialised. -/
  | ndkPanics {m : Machine τ} {t : τ} : m.calls t = .fallingBack → Step m (m.finish t (.used t .panicked))
  /-- Its VM or its context is null. -/
  | ndkNull {m : Machine τ} {t : τ} : m.calls t = .fallingBack →
      Step m (m.finish t (.used t (.refused .noAndroidContext)))
  /-- `attach_current_thread` or `new_global_ref` fails. -/
  | ndkFails {m : Machine τ} {t : τ} (msg : String) : m.calls t = .fallingBack →
      Step m (m.finish t (.used t (.refused (.jni msg))))
  | ndkCreate {m : Machine τ} {t : τ} : m.calls t = .fallingBack →
      Step m (m.newGlobalRef.setCall t (.runningFallback m.next))
  | ndkDrop {m : Machine τ} {t : τ} {context : GlobalRef} (f : Return) :
      m.calls t = .runningFallback context →
      Step m ({ m with live := m.live.erase context }.finish t (.used t (.ran f)))

/-- Nothing has been set, and no thread is in either function. -/
def system (τ : Type*) [DecidableEq τ] : Sys (Machine τ) where
  init m := m.storage = none ∧ (∀ t, m.calls t = .idle) ∧ m.live = ∅ ∧ m.stores = [] ∧ m.log = []
  step := Step

/-! ## Who owns which reference -/

/-- The `Global` a call has to drop, or to store. -/
def Call.owned : Call → Option GlobalRef
  | .created context | .storing context | .runningFallback context => some context
  | _ => none

/-- What `f` has been given under the lock. -/
def Call.borrowed : Call → Option GlobalRef
  | .running context => some context
  | _ => none

namespace Machine

def stored (m : Machine τ) : Option GlobalRef := m.storage.bind (·.context)

/-- The owners are the storage (`none`) and the threads. -/
def own (m : Machine τ) : Option τ → Option GlobalRef
  | none => m.stored
  | some t => (m.calls t).owned

def borrowed (m : Machine τ) (t : τ) : Option GlobalRef := (m.calls t).borrowed

theorem own_setCall (m : Machine τ) (t : τ) (call : Call) :
    (m.setCall t call).own = update m.own (some t) call.owned := by
  funext o
  cases o with
  | none => simp [own, stored, setCall]
  | some p =>
    by_cases hp : p = t
    · subst hp
      simp [own, setCall]
    · simp [own, setCall, hp]

theorem own_storage (m : Machine τ) (storage : Option (ContextStorage τ)) :
    ({ m with storage } : Machine τ).own = update m.own none (storage.bind (·.context)) := by
  funext o
  cases o <;> simp [own, stored]

theorem borrowed_setCall (m : Machine τ) (t : τ) (call : Call) :
    (m.setCall t call).borrowed = update m.borrowed t call.borrowed := by
  funext p
  by_cases hp : p = t
  · subst hp
    simp [borrowed, setCall]
  · simp [borrowed, setCall, hp]

end Machine

/-- The lock is held by the thread `f` runs in, and by nobody else. -/
structure Held (storage : Option (ContextStorage τ)) (borrowed : τ → Option GlobalRef) : Prop where
  given : ∀ t context, borrowed t = some context → storage = some ⟨some context, some t, false⟩
  locked : ∀ s t, storage = some s → s.lockedBy = some t → ∃ context, borrowed t = some context

structure Inv (m : Machine τ) : Prop where
  exact : Exact m.own m.live m.next
  held : Held m.storage m.borrowed
  stored : m.stored = m.stores.getLast?
  /-- What has been replaced is deleted. -/
  replaced : ∀ context ∈ m.stores, context ∈ m.live → m.stored = some context
  allocated : ∀ context ∈ m.stores, context < m.next

theorem borrowed_same {m : Machine τ} {t : τ} {call call' : Call} (hp : m.calls t = call)
    (hb : call'.borrowed = call.borrowed) : (m.setCall t call').borrowed = m.borrowed := by
  rw [m.borrowed_setCall, hb, ← hp]
  exact update_eq_self t m.borrowed

theorem own_same {m : Machine τ} {t : τ} {call call' : Call} (hp : m.calls t = call)
    (ho : call'.owned = call.owned) : (m.setCall t call').own = m.own := by
  rw [m.own_setCall, ho, ← hp]
  exact update_eq_self (some t) m.own

section
variable {m : Machine τ} {t : τ} {call call' : Call} {context : GlobalRef}

/-- A step of a call that concerns no reference. -/
theorem Inv.setCall (h : Inv m) (hp : m.calls t = call) (ho : call'.owned = call.owned)
    (hb : call'.borrowed = call.borrowed) : Inv (m.setCall t call') where
  exact := by
    rw [own_same hp ho]
    exact h.exact
  held := by
    rw [borrowed_same hp hb]
    exact h.held
  stored := h.stored
  replaced := h.replaced
  allocated := h.allocated

theorem Inv.finish (h : Inv (m.setCall t .idle)) (event : Event τ) : Inv (m.finish t event) :=
  ⟨h.exact, h.held, h.stored, h.replaced, h.allocated⟩

/-- A call that has no reference is over. -/
theorem Inv.done (h : Inv m) (hp : m.calls t = call) (ho : call.owned = none) (hb : call.borrowed = none)
    (event : Event τ) : Inv (m.finish t event) := by
  have hidle : Inv (m.setCall t .idle) := h.setCall hp (by rw [ho]; rfl) (by rw [hb]; rfl)
  exact hidle.finish event

/-- A call gets a reference of its own. -/
theorem Inv.create (h : Inv m) (hp : m.calls t = call) (ho : call.owned = none)
    (ho' : call'.owned = some m.next) (hb : call'.borrowed = call.borrowed) :
    Inv (m.newGlobalRef.setCall t call') where
  exact := by
    have hown : m.own (some t) = none := by rw [Machine.own, hp, ho]
    rw [Machine.own_setCall, ho']
    exact h.exact.acquire hown
  held := by
    rw [borrowed_same (m := m.newGlobalRef) hp hb]
    exact h.held
  stored := h.stored
  replaced := by
    intro context hm hl
    rcases Finset.mem_insert.mp hl with rfl | hl
    · exact absurd (h.allocated m.next hm) (Nat.lt_irrefl _)
    · exact h.replaced context hm hl
  allocated := fun context hm => Nat.lt_succ_of_lt (h.allocated context hm)

/-- A call drops its reference and is over. -/
theorem Inv.drop (h : Inv m) (hp : m.calls t = call) (ho : call.owned = some context)
    (hb : Call.idle.borrowed = call.borrowed) :
    Inv ({ m with live := m.live.erase context }.setCall t .idle) where
  exact := by
    have hown : m.own (some t) = some context := by rw [Machine.own, hp, ho]
    rw [Machine.own_setCall]
    exact h.exact.release hown
  held := by
    rw [borrowed_same (m := { m with live := m.live.erase context }) hp hb]
    exact h.held
  stored := h.stored
  replaced := fun g hm hl => h.replaced g hm (Finset.mem_of_mem_erase hl)
  allocated := h.allocated

omit [DecidableEq τ] in
/-- The lock is free: nobody has been given what is stored. -/
theorem Held.free {storage : ContextStorage τ} {borrowed : τ → Option GlobalRef}
    (h : Held (some storage) borrowed) (hl : storage.lockedBy = none) (p : τ) : borrowed p = none := by
  cases hb : borrowed p with
  | none => rfl
  | some context =>
    have hs : storage = ⟨some context, some p, false⟩ := Option.some.inj (h.given p context hb)
    rw [hs] at hl
    cases hl

omit [DecidableEq τ] in
theorem Held.of_free {storage : ContextStorage τ} {borrowed : τ → Option GlobalRef}
    (hb : ∀ p, borrowed p = none) (hl : storage.lockedBy = none) : Held (some storage) borrowed where
  given p context hp := by
    rw [hb] at hp
    cases hp
  locked s p hs hp := by
    obtain rfl : storage = s := Option.some.inj hs
    rw [hl] at hp
    cases hp

theorem Inv.initStorage (h : Inv m) : Inv { m with storage := some (m.storage.getD .new) } := by
  cases hs : m.storage with
  | some storage =>
    have he : { m with storage := some storage } = m := by rw [← hs]
    exact he ▸ h
  | none =>
    have hnone : ({ m with storage := some .new } : Machine τ).own = m.own := by
      rw [Machine.own_storage]
      exact update_eq_iff.mpr ⟨by simp [Machine.own, Machine.stored, hs, ContextStorage.new], fun _ _ => rfl⟩
    have hfree (p : τ) : m.borrowed p = none := by
      cases hb : m.borrowed p with
      | none => rfl
      | some context =>
        have := h.held.given p context hb
        rw [hs] at this
        cases this
    have hstored : m.stored = none := by simp [Machine.stored, hs]
    refine ⟨hnone ▸ h.exact, .of_free hfree rfl, ?_, ?_, h.allocated⟩
    · exact hstored.symm.trans h.stored
    · intro context hm hl
      have := h.replaced context hm hl
      rw [hstored] at this
      cases this

/-- `set_android_context` stores its reference and drops the one it replaces. -/
theorem Inv.store {storage : ContextStorage τ} (h : Inv m) (hp : m.calls t = .storing context)
    (hs : m.storage = some storage) (hl : storage.lockedBy = none) :
    Inv ({ m with
      storage := some { storage with context := some context }
      live := storage.context.elim m.live m.live.erase
      stores := m.stores ++ [context] }.setCall t .idle) where
  exact := by
    have hown : m.own (some t) = some context := by rw [Machine.own, hp]; rfl
    have hstored : m.own none = storage.context := by simp [Machine.own, Machine.stored, hs]
    -- what was stored is dropped, and the storage is the next owner of `context`
    have hdropped : Exact (update m.own none none) (storage.context.elim m.live m.live.erase) m.next := by
      cases hc : storage.context with
      | none =>
        have hsame : update m.own none none = m.own := update_eq_self_iff.mpr (hstored.trans hc).symm
        rw [hsame]
        exact h.exact
      | some old => exact h.exact.release (hstored.trans hc)
    have hmoved : Exact (update (update (update m.own none none) (some t) none) none (some context)) _ _ :=
      hdropped.move (by simpa using hown) (update_self ..)
    rw [update_comm (by simp), update_idem] at hmoved
    rw [Machine.own_setCall]
    exact (m.own_storage (some { storage with context := some context })) ▸ hmoved
  held := by
    have hfree (p : τ) : m.borrowed p = none := (hs ▸ h.held).free hl p
    have hsame : (m.setCall t .idle).borrowed = m.borrowed := borrowed_same hp rfl
    exact .of_free (fun p => (congrFun hsame p).trans (hfree p)) hl
  stored := by simp [Machine.stored, Machine.setCall]
  replaced := by
    intro g hm hlive
    rcases List.mem_append.mp hm with hm | hm
    · exfalso
      have hstored : m.stored = storage.context := by simp [Machine.stored, hs]
      cases hc : storage.context with
      | none =>
        have hlive : g ∈ m.live := by simpa [Machine.setCall, hc] using hlive
        have := h.replaced g hm hlive
        rw [hstored, hc] at this
        cases this
      | some old =>
        have hlive : g ≠ old ∧ g ∈ m.live := by simpa [Machine.setCall, hc] using hlive
        have := h.replaced g hm hlive.2
        rw [hstored, hc] at this
        exact hlive.1 (Option.some.inj this).symm
    · obtain rfl : g = context := List.mem_singleton.mp hm
      rfl
  allocated := by
    intro g hm
    rcases List.mem_append.mp hm with hm | hm
    · exact h.allocated g hm
    · obtain rfl : g = context := List.mem_singleton.mp hm
      exact h.exact.fresh g ((h.exact.mem_live g).mpr ⟨some t, by rw [Machine.own, hp]; rfl⟩)

/-- Only the lock is touched. -/
theorem own_keep {storage storage' : ContextStorage τ} (hs : m.storage = some storage)
    (hc : storage'.context = storage.context) (hp : m.calls t = call) (ho : call'.owned = call.owned) :
    ({ m with storage := some storage' }.setCall t call').own = m.own := by
  rw [own_same (m := { m with storage := some storage' }) hp ho, m.own_storage]
  exact update_eq_self_iff.mpr (by simp [Machine.own, Machine.stored, hs, hc])

/-- `f` is given what is stored. -/
theorem Inv.lock {storage : ContextStorage τ} (h : Inv m) (hp : m.calls t = .locking)
    (hs : m.storage = some storage) (hl : storage.lockedBy = none) (hpo : storage.poisoned = false)
    (hc : storage.context = some context) :
    Inv ({ m with storage := some { storage with lockedBy := some t } }.setCall t (.running context)) := by
  have hown : ({ m with storage := some { storage with lockedBy := some t } }.setCall t
      (.running context)).own = m.own := own_keep hs rfl hp rfl
  have hstored : m.stored = storage.context := by simp [Machine.stored, hs]
  refine ⟨?_, ?_, hstored.symm.trans h.stored, ?_, h.allocated⟩
  · rw [hown]
    exact h.exact
  · have hfree (p : τ) : m.borrowed p = none := (hs ▸ h.held).free hl p
    rw [Machine.borrowed_setCall]
    refine ⟨fun p g hg => ?_, fun s p hsp hlp => ?_⟩
    · by_cases hpt : p = t
      · subst hpt
        obtain rfl : context = g := by simpa [Call.borrowed] using hg
        simp [Machine.setCall, hpo, hc]
      · rw [update_of_ne hpt] at hg
        exact absurd (hg.symm.trans (hfree p)) nofun
    · obtain rfl : { storage with lockedBy := some t } = s := Option.some.inj hsp
      obtain rfl : t = p := Option.some.inj hlp
      exact ⟨context, by simp [Call.borrowed]⟩
  · intro g hm hg
    exact hstored.symm.trans (h.replaced g hm hg)

/-- `f` is over. -/
theorem Inv.unlock {storage : ContextStorage τ} (h : Inv m) (hp : m.calls t = .running context)
    (hs : m.storage = some storage) (poisoned : Bool) :
    Inv ({ m with storage := some { storage with lockedBy := none, poisoned } }.setCall t .idle) := by
  have hown : ({ m with storage := some { storage with lockedBy := none, poisoned } }.setCall t .idle).own =
      m.own := own_keep hs rfl hp rfl
  have hstored : m.stored = storage.context := by simp [Machine.stored, hs]
  refine ⟨?_, ?_, hstored.symm.trans h.stored, ?_, h.allocated⟩
  · rw [hown]
    exact h.exact
  · -- `t` was the only one to be given anything
    rw [Machine.borrowed_setCall]
    refine .of_free (fun p => ?_) rfl
    by_cases hpt : p = t
    · subst hpt
      simp [Call.borrowed]
    · rw [update_of_ne hpt]
      cases hb : m.borrowed p with
      | none => exact hb
      | some g =>
        have ht := h.held.given t context (by rw [Machine.borrowed, hp]; rfl)
        have hp' := h.held.given p g hb
        rw [ht] at hp'
        simp at hp'
        exact absurd hp'.2.symm hpt
  · intro g hm hg
    exact hstored.symm.trans (h.replaced g hm hg)

end

theorem Inv.step {m m' : Machine τ} (h : Inv m) (hs : Step m m') : Inv m' := by
  cases hs with
  | callSet hp => exact h.setCall hp rfl rfl
  | setFails msg hp => exact h.done hp rfl rfl _
  | create hp => exact h.create hp rfl rfl rfl
  | initStorage hp => exact h.initStorage.setCall hp rfl rfl
  | store hp hst hl _ => exact (h.store hp hst hl).finish _
  | storePanics hp _ _ _ => exact (h.drop hp rfl rfl).finish _
  | callUse hp =>
    refine h.setCall hp ?_ ?_
    · split <;> rfl
    · split <;> rfl
  | lockPanics hp _ _ _ => exact h.done hp rfl rfl _
  | lockContext hp hst hl hpo hc => exact h.lock hp hst hl hpo hc
  | lockNothing hp _ _ _ _ => exact h.setCall hp rfl rfl
  | unlock f hp hst => exact (h.unlock hp hst _).finish _
  | ndkPanics hp | ndkNull hp | ndkFails _ hp => exact h.done hp rfl rfl _
  | ndkCreate hp => exact h.create hp rfl rfl rfl
  | ndkDrop f hp => exact (h.drop hp rfl rfl).finish _

theorem inv {m : Machine τ} (r : Reach (system τ) m) : Inv m := by
  refine r.inv (I := Inv) ?_ fun _ _ _ h hs => h.step hs
  rintro m ⟨hs, hc, hl, hst, -⟩
  have hstored : m.stored = none := by simp [Machine.stored, hs]
  have hborrowed (t : τ) : m.borrowed t = none := by rw [Machine.borrowed, hc]; rfl
  refine ⟨?_, ⟨fun t g hg => ?_, fun s t hs' => ?_⟩, ?_, ?_, ?_⟩
  · rw [hl]
    refine exact_nil _ _ fun o => ?_
    cases o with
    | none => exact hstored
    | some t => rw [Machine.own, hc]; rfl
  · rw [hborrowed] at hg
    cases hg
  · rw [hs] at hs'
    cases hs'
  · rw [hstored, hst]
    rfl
  · rw [hst]
    nofun
  · rw [hst]
    nofun

/-- **The reference `f` is given is live as long as `f` runs**: it is the one stored last, or the call's
own. A reference that was replaced is gone, and each of the others has one owner. -/
theorem context_refs {m : Machine τ} (r : Reach (system τ) m) :
    (∀ t context, m.calls t = .running context →
      m.stores.getLast? = some context ∧ context ∈ m.live ∧ ∀ t' g, m.calls t' = .running g → t' = t) ∧
    (∀ t context, m.calls t = .runningFallback context → context ∈ m.live ∧ context ∉ m.stores) ∧
    (∀ context ∈ m.stores, context ∈ m.live ↔ m.stores.getLast? = some context) ∧
    (∀ context ∈ m.live, m.stores.getLast? = some context ∨ ∃! t, (m.calls t).owned = some context) := by
  have h := inv r
  have hlast {context : GlobalRef} (hc : m.stored = some context) :
      m.stores.getLast? = some context ∧ context ∈ m.live :=
    ⟨h.stored.symm.trans hc, (h.exact.mem_live context).mpr ⟨none, hc⟩⟩
  refine ⟨fun t context hp => ?_, fun t context hp => ?_, fun context hm => ⟨fun hl => ?_, fun hl => ?_⟩,
    fun context hl => ?_⟩
  · have hs := h.held.given t context (by rw [Machine.borrowed, hp]; rfl)
    obtain ⟨hg, hlive⟩ := hlast (show m.stored = some context by simp [Machine.stored, hs])
    refine ⟨hg, hlive, fun t' g hp' => ?_⟩
    have hs' := h.held.given t' g (by rw [Machine.borrowed, hp']; rfl)
    rw [hs] at hs'
    simp at hs'
    exact hs'.2.symm
  · have hown : m.own (some t) = some context := by rw [Machine.own, hp]; rfl
    have hlive : context ∈ m.live := (h.exact.mem_live context).mpr ⟨some t, hown⟩
    refine ⟨hlive, fun hm => ?_⟩
    -- stored and the call's at once
    have hstored : m.own none = some context := h.replaced context hm hlive
    cases h.exact.inj none (some t) context hstored hown
  · exact (hlast (h.replaced context hm hl)).1
  · exact (hlast (h.stored.trans hl)).2
  · obtain ⟨o, ho⟩ := (h.exact.mem_live context).mp hl
    cases o with
    | none => exact .inl (hlast ho).1
    | some t =>
      refine .inr ⟨t, ho, fun t' ht' => ?_⟩
      exact Option.some.inj (h.exact.inj (some t') (some t) context ht' ho)

/-- The only thread has set the context. -/
theorem set_reach : ∃ m : Machine Unit, Reach (system Unit) m ∧ m.stores = [0] := by
  let m0 : Machine Unit := ⟨none, fun _ => .idle, ∅, 0, [], []⟩
  have r0 : Reach (system Unit) m0 := .init ⟨rfl, fun _ => rfl, rfl, rfl, rfl⟩
  have r1 := (r0.step (.callSet (t := ()) rfl)).step (.create (t := ()) rfl)
  exact ⟨_, (r1.step (.initStorage (t := ()) rfl)).step (.store (t := ()) rfl rfl rfl rfl), rfl⟩

theorem context_refs_set : ∃ m : Machine Unit, m.stores.getLast? = some 0 ∧ 0 ∈ m.live := by
  obtain ⟨m, r, hs⟩ := set_reach
  have hlast : m.stores.getLast? = some 0 := by rw [hs]; rfl
  exact ⟨m, hlast, ((context_refs r).2.2.1 0 (by simp [hs])).mpr hlast⟩

/-! ## What has been set stays set -/

/-- On the way of `ndk_context`. -/
def Call.fallback : Call → Bool
  | .fallingBack | .runningFallback _ => true
  | _ => false

def Machine.poisoned (m : Machine τ) : Bool := m.storage.elim false (·.poisoned)

namespace Event

def thread : Event τ → τ
  | .set t _ | .used t _ => t

/-- `f` was not called, for want of a context. -/
def refused : Event τ → Bool
  | .used _ (.refused _) => true
  | _ => false

/-- An error was returned or a panic came out. -/
def fails : Event τ → Bool
  | .set _ (.error _) | .used _ .panicked => true
  | _ => false

end Event

/-- What a run does to calls of threads that are not on the way of `ndk_context` where it starts. -/
structure Kept (m m' : Machine τ) : Prop where
  away : ∀ t, (m.calls t).fallback = false → (m'.calls t).fallback = false
  stores : m.stores <+: m'.stores
  poisoned : m.poisoned = true → m'.poisoned = true ∧ m'.stores = m.stores
  log : ∃ new, m'.log = m.log ++ new ∧ ∀ e ∈ new, (m.calls e.thread).fallback = false →
    e.refused = false ∧ (m.poisoned = true → e.fails = true)

omit [DecidableEq τ] in
theorem Kept.refl (m : Machine τ) : Kept m m :=
  ⟨fun _ h => h, List.prefix_refl _, fun h => ⟨h, rfl⟩, ⟨[], by simp, nofun⟩⟩

omit [DecidableEq τ] in
theorem Kept.trans {m m' m'' : Machine τ} (h : Kept m m') (h' : Kept m' m'') : Kept m m'' := by
  obtain ⟨new, hlog, hnew⟩ := h.log
  obtain ⟨new', hlog', hnew'⟩ := h'.log
  refine ⟨fun t ht => h'.away t (h.away t ht), h.stores.trans h'.stores, fun hp => ?_,
    ⟨new ++ new', by rw [hlog', hlog, List.append_assoc], fun e he ht => ?_⟩⟩
  · obtain ⟨hp', hs⟩ := h.poisoned hp
    obtain ⟨hp'', hs'⟩ := h'.poisoned hp'
    exact ⟨hp'', hs'.trans hs⟩
  · rcases List.mem_append.mp he with he | he
    · exact hnew e he ht
    · obtain ⟨hr, hf⟩ := hnew' e he (h.away e.thread ht)
      exact ⟨hr, fun hp => hf (h.poisoned hp).1⟩

/-- A step of one call. -/
theorem Kept.call {m m' : Machine τ} {t : τ} {call call' : Call} (hp : m.calls t = call)
    (hc : m'.calls = update m.calls t call') (ha : call.fallback = false → call'.fallback = false)
    (hs : m.stores <+: m'.stores) (hpo : m.poisoned = true → m'.poisoned = true ∧ m'.stores = m.stores)
    (hl : m'.log = m.log ∨ ∃ e, m'.log = m.log ++ [e] ∧ e.thread = t ∧ (call.fallback = false →
      e.refused = false ∧ (m.poisoned = true → e.fails = true))) : Kept m m' := by
  refine ⟨fun p hf => ?_, hs, hpo, ?_⟩
  · rw [hc]
    by_cases hpt : p = t
    · subst hpt
      rw [update_self]
      exact ha (hp ▸ hf)
    · rwa [update_of_ne hpt]
  · rcases hl with hl | ⟨e, hl, rfl, he⟩
    · exact ⟨[], by simpa using hl, nofun⟩
    · refine ⟨[e], hl, fun x hx hf => ?_⟩
      obtain rfl : x = e := List.mem_singleton.mp hx
      exact he (hp ▸ hf)

/-- A step that leaves the storage alone. -/
theorem Kept.setCall {m m' : Machine τ} {t : τ} {call call' : Call} (hp : m.calls t = call)
    (hc : m'.calls = update m.calls t call') (ha : call.fallback = false → call'.fallback = false)
    (hst : m'.storage = m.storage) (hs : m'.stores = m.stores) (hl : m'.log = m.log) : Kept m m' := by
  refine .call hp hc ha (hs ▸ List.prefix_refl _) (fun hpo => ⟨?_, hs⟩) (.inl hl)
  rwa [Machine.poisoned, hst]

/-- A call that ends so. -/
theorem Kept.finish {m m' : Machine τ} {t : τ} {call : Call} {e : Event τ} (hp : m.calls t = call)
    (hc : m'.calls = update m.calls t .idle) (hst : m'.storage = m.storage) (hs : m'.stores = m.stores)
    (hl : m'.log = m.log ++ [e]) (ht : e.thread = t)
    (he : call.fallback = true ∨ e.refused = false ∧ e.fails = true) : Kept m m' := by
  refine .call hp hc (fun _ => rfl) (hs ▸ List.prefix_refl _) (fun hpo => ⟨?_, hs⟩)
    (.inr ⟨e, hl, ht, ?_⟩)
  · rwa [Machine.poisoned, hst]
  · intro hf
    rcases he with he | ⟨hr, hfail⟩
    · rw [hf] at he
      cases he
    · exact ⟨hr, fun _ => hfail⟩

theorem Kept.step {m m' : Machine τ} (h : Inv m) (hm : m.stores ≠ []) (hs : Step m m') : Kept m m' := by
  -- something is stored
  obtain ⟨storage, hst, hsome⟩ : ∃ storage, m.storage = some storage ∧ storage.context ≠ none := by
    have hstored := h.stored
    cases hst : m.storage with
    | none =>
      rw [Machine.stored, hst] at hstored
      exact absurd (List.getLast?_eq_none_iff.mp hstored.symm) hm
    | some storage =>
      refine ⟨storage, rfl, fun hn => hm (List.getLast?_eq_none_iff.mp ?_)⟩
      rw [← hstored, Machine.stored, hst]
      exact hn
  have hpoisoned : m.poisoned = storage.poisoned := by simp [Machine.poisoned, hst]
  cases hs with
  | callSet hp => exact .setCall hp rfl (fun _ => rfl) rfl rfl rfl
  | setFails msg hp => exact .finish hp rfl rfl rfl rfl rfl (.inr ⟨rfl, rfl⟩)
  | create hp => exact .setCall hp rfl (fun _ => rfl) rfl rfl rfl
  | initStorage hp => exact .setCall hp rfl (fun _ => rfl) (by simp [hst, Machine.setCall]) rfl rfl
  | store hp hst' hl hpo =>
    obtain rfl := Option.some.inj (hst.symm.trans hst')
    rw [hpo] at hpoisoned
    refine .call hp rfl (fun _ => rfl) (List.prefix_append _ _) ?_
      (.inr ⟨_, rfl, rfl, fun _ => ⟨rfl, ?_⟩⟩)
    · simp [hpoisoned]
    · simp [hpoisoned]
  | storePanics hp _ _ _ => exact .finish hp rfl rfl rfl rfl rfl (.inr ⟨rfl, rfl⟩)
  | callUse hp => exact .setCall hp rfl (fun _ => by simp [hst, Call.fallback]) rfl rfl rfl
  | lockPanics hp _ _ _ => exact .finish hp rfl rfl rfl rfl rfl (.inr ⟨rfl, rfl⟩)
  | lockContext hp hst' hl hpo hc =>
    obtain rfl := Option.some.inj (hst.symm.trans hst')
    rw [hpo] at hpoisoned
    exact .call hp rfl (fun _ => rfl) (List.prefix_refl _) (by simp [hpoisoned]) (.inl rfl)
  | lockNothing hp hst' _ _ hc =>
    obtain rfl := Option.some.inj (hst.symm.trans hst')
    exact absurd hc hsome
  | @unlock t context storage' f hp hst' =>
    -- `f` would not have been called under a poisoned mutex
    have hheld := h.held.given t context (by rw [Machine.borrowed, hp]; rfl)
    have hfree : m.poisoned = false := by simp [Machine.poisoned, hheld]
    refine .call hp rfl (fun _ => rfl) (List.prefix_refl _) ?_ (.inr ⟨_, rfl, rfl, fun _ => ⟨rfl, ?_⟩⟩)
    · simp [hfree]
    · simp [hfree]
  | ndkPanics hp | ndkNull hp | ndkFails _ hp | ndkDrop _ hp =>
    exact .finish hp rfl rfl rfl rfl rfl (.inl rfl)
  | ndkCreate hp => exact .setCall hp rfl nofun rfl rfl rfl

/-- **What has been set stays set, and a panic under the lock is final**: from then on nobody falls back
who had not, contexts are only replaced, and once the mutex is poisoned every call fails. -/
theorem context_kept {m m' : Machine τ} (r : Reach (system τ) m) (hm : m.stores ≠ [])
    (l : Later (system τ) m m') : Kept m m' := by
  have key : m'.stores ≠ [] ∧ Kept m m' := by
    refine Later.inv r l (I := fun t => t.stores ≠ [] ∧ Kept m t) ⟨hm, .refl m⟩ ?_
    rintro t t' rt ⟨ht, hk⟩ hs
    have hstep := Kept.step (inv rt) ht hs
    refine ⟨fun he => ?_, hk.trans hstep⟩
    have := hstep.stores
    rw [he] at this
    exact ht (List.prefix_nil.mp this)
  exact key.2

theorem context_kept_set : ∃ m : Machine Unit, m.stores = [0] ∧ ∀ m', Later (system Unit) m m' → Kept m m' := by
  obtain ⟨m, r, hs⟩ := set_reach
  exact ⟨m, hs, fun m' l => context_kept r (by simp [hs]) l⟩

/-! ## Where panics come from -/

/-- A panic came out of `with_android_ctx`. -/
def Event.unwinds : Event τ → Bool
  | .used _ .panicked | .used _ (.ran .panicked) => true
  | _ => false

theorem Step.log {m m' : Machine τ} (hs : Step m m') : m.log <+: m'.log := by
  cases hs with
  | callSet _ | create _ | initStorage _ | callUse _ | ndkCreate _ => exact List.prefix_refl _
  | lockContext _ _ _ _ _ | lockNothing _ _ _ _ _ => exact List.prefix_refl _
  | _ => exact List.prefix_append _ _

/-- It is `f` that poisons the mutex, and only under it. -/
theorem Step.poisons {m m' : Machine τ} (hs : Step m m') (hp : m.poisoned = false)
    (hp' : m'.poisoned = true) : ∃ t context, m.calls t = .running context ∧ m'.calls t = .idle ∧
      m'.log = m.log ++ [.used t (.ran .panicked)] := by
  have same (hst : m'.poisoned = m.poisoned) : False := by
    rw [hst, hp] at hp'
    cases hp'
  cases hs with
  | initStorage _ =>
    refine (same ?_).elim
    cases hst : m.storage <;> simp [Machine.poisoned, Machine.setCall, hst, ContextStorage.new]
  | store _ hst _ _ | lockContext _ hst _ _ _ =>
    exact (same (by simp [Machine.poisoned, Machine.setCall, Machine.finish, hst])).elim
  | @unlock t context storage f hc hst =>
    cases f with
    | returned => exact (same (by simp [Machine.poisoned, Machine.setCall, Machine.finish, hst])).elim
    | panicked => exact ⟨t, context, hc, update_self .., rfl⟩
  | _ => exact (same rfl).elim

theorem ran_of_poisoned {m : Machine τ} (r : Reach (system τ) m) :
    m.poisoned = true → ∃ t, .used t (.ran .panicked) ∈ m.log := by
  refine r.inv (I := fun m => m.poisoned = true → ∃ t, .used t (.ran .panicked) ∈ m.log) ?_ ?_
  · rintro m ⟨hs, -⟩ hp
    rw [Machine.poisoned, hs] at hp
    cases hp
  intro m m' _ h hs hp'
  cases hp : m.poisoned with
  | true =>
    obtain ⟨t, ht⟩ := h hp
    exact ⟨t, hs.log.subset ht⟩
  | false =>
    obtain ⟨t, _, -, -, hlog⟩ := hs.poisons hp hp'
    exact ⟨t, by simp [hlog]⟩

/-- Off the way of `ndk_context`, whatever panics leaves the mutex poisoned. -/
theorem Step.unwinds {m m' : Machine τ} (hs : Step m m') (ha : ∀ t, (m.calls t).fallback = false) :
    ∀ e ∈ m'.log, e.unwinds = true → e ∈ m.log ∨ m'.poisoned = true := by
  intro e he hu
  have own {event : Event τ} (hlog : m'.log = m.log ++ [event])
      (hev : event.unwinds = true → m'.poisoned = true) : e ∈ m.log ∨ m'.poisoned = true := by
    rw [hlog] at he
    rcases List.mem_append.mp he with he | he
    · exact .inl he
    · obtain rfl := List.mem_singleton.mp he
      exact .inr (hev hu)
  have away {t : τ} {call : Call} (hp : m.calls t = call) (hf : call.fallback = true) : False := by
    have := ha t
    rw [hp, hf] at this
    cases this
  cases hs with
  | callSet _ | create _ | initStorage _ | callUse _ | lockContext _ _ _ _ _ | lockNothing _ _ _ _ _ =>
    exact .inl he
  | setFails _ _ | store _ _ _ _ | storePanics _ _ _ _ => exact own rfl (by simp [Event.unwinds])
  | lockPanics _ hst _ hpo =>
    exact own rfl fun _ => by simp [Machine.poisoned, Machine.finish, Machine.setCall, hst, hpo]
  | unlock f _ hst =>
    refine own rfl fun hf => ?_
    cases f with
    | returned => cases hf
    | panicked => simp [Machine.poisoned, Machine.finish, Machine.setCall]
  | ndkPanics hp | ndkNull hp | ndkFails _ hp | ndkCreate hp | ndkDrop _ hp => exact (away hp rfl).elim

end Netwatcher.AndroidContext
