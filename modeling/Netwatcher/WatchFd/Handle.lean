import Netwatcher.WatchFd.Watcher
/-!
# Dropping a Unix `WatchHandle` (`src/watch_fd.rs`)

The owner and the watcher thread as one machine. Up to the spawn, the watcher of `Watcher.lean` runs
on the owner's stack, the initial callback included; the spawn hands it to the thread. The owner
drops the handle at any moment after that.

| here | there |
| --- | --- |
| `Owner.starting`  | `start_watcher_thread` up to `std::thread::spawn` (watch_fd.rs:138-148) |
| `Watch.thread`    | the closure given to `spawn` (watch_fd.rs:150); `stopped` once it left the loop or unwound |
| `Watch.pipeOpen`  | `pipe_wr`, the `pipefd` of the handle |
| `Watch.sender`    | `complete_tx`, owned by the closure: dropped after the loop (:177) or by the unwinding |
| `close`, `recv`   | the two statements of `WatchHandle::drop` (watch_fd.rs:91, :92) |
-/
namespace Netwatcher.WatchFd
open Runs

inductive Owner
  | starting (w : Watcher)
  /-- Set-up returned an error or unwound: there is no handle. -/
  | failed (w : Watcher)
  | holding
  /-- In `drop`: the pipe is closed and `recv` has not returned. -/
  | receiving
  | dropped

structure Watch where
  owner : Owner
  thread : Option Watcher
  pipeOpen : Bool
  sender : Bool

/-- `poll` reports the pipe only once its other end is closed; it may be late, and may report the
socket with it. -/
def PollsPipe (pipeOpen : Bool) (w w' : Watcher) : Prop :=
  w.pc = .polling → w'.pc = .stopped ∨ w'.pc = .draining ∧ w'.hup = true → pipeOpen = false

inductive HandleStep : Watch → Watch → Prop
  /-- A step of the set-up, or of the OS during it; the caller does not poll. -/
  | setUp {s : Watch} {w w' : Watcher} : s.owner = .starting w → Step w w' →
      (w.pc = .polling → w'.pc = .polling) → HandleStep s { s with owner := .starting w' }
  /-- An error is returned, or the initial callback has panicked. -/
  | setUpFails {s : Watch} {w : Watcher} : s.owner = .starting w → w.pc = .failed ∨ w.pc = .stopped →
      HandleStep s { s with owner := .failed w, pipeOpen := false }
  /-- `std::thread::spawn` panics. -/
  | spawnFails {s : Watch} {w : Watcher} : s.owner = .starting w → w.pc = .polling →
      HandleStep s { s with owner := .failed w, pipeOpen := false }
  | spawn {s : Watch} {w : Watcher} : s.owner = .starting w → w.pc = .polling →
      HandleStep s { s with owner := .holding, thread := some w, sender := true }
  | run {s : Watch} {w w' : Watcher} : s.thread = some w → Step w w' → PollsPipe s.pipeOpen w w' →
      HandleStep s { s with thread := some w' }
  /-- `poll` returns and reports nothing. -/
  | pollNothing {s : Watch} {w : Watcher} : s.thread = some w → w.pc = .polling → HandleStep s s
  | dropSender {s : Watch} {w : Watcher} : s.thread = some w → w.pc = .stopped →
      HandleStep s { s with sender := false }
  | close {s : Watch} : s.owner = .holding → HandleStep s { s with owner := .receiving, pipeOpen := false }
  /-- Nothing is ever sent: `recv` returns when the sender is gone. -/
  | recv {s : Watch} : s.owner = .receiving → s.sender = false → HandleStep s { s with owner := .dropped }

/-- Runs start with the call of `start_watcher_thread`. -/
def handleSystem : Sys Watch where
  init s := ∃ w, (system .callback).init w ∧ s = ⟨.starting w, none, true, false⟩
  step := HandleStep

/-! ## Calls of the callback -/

def Owner.watcher : Owner → Option Watcher
  | .starting w | .failed w => some w
  | _ => none

/-- Everything the callback has been entered with. -/
def Watcher.entered (w : Watcher) : List Update := w.delivered ++ w.pc.unsent

/-- The updates of the calls in progress, on the owner's stack and in the thread. -/
def Watch.inProgress (s : Watch) : List Update :=
  s.owner.watcher.elim [] (·.pc.unsent) ++ s.thread.elim [] (·.pc.unsent)

def Watch.entered (s : Watch) : List Update :=
  s.owner.watcher.elim [] (·.entered) ++ s.thread.elim [] (·.entered)

/-- A callback watcher is never where only `changed` can be. -/
theorem callback_of_reach {w : Watcher} (r : Reach (system .callback) w) :
    w.mode = .callback ∧ w.pc ≠ .idle := by
  refine r.inv (I := fun w => w.mode = .callback ∧ w.pc ≠ .idle) ?_ ?_
  · rintro w ⟨hm, hp, -⟩
    exact ⟨hm, by simp [hp]⟩
  · rintro w w' - ⟨hm, hp⟩ h
    have hres (b : Bool) : w.resume b ≠ .idle := by
      unfold Watcher.resume
      rw [hm]
      cases w.hup <;> simp
    cases h with
    | change | arrive => exact ⟨hm, hp⟩
    | firstCallback =>
      refine ⟨hm, ?_⟩
      simp only [Watcher.firstCallback]
      split <;> simp
    | firstBlocking hb => rw [hm] at hb; cases hb
    | takeInitial hi => exact absurd hi hp
    | callChanged hi => exact absurd hi hp
    | recv =>
      refine ⟨hm, ?_⟩
      dsimp only
      split <;> simp
    | absorb =>
      refine ⟨hm, ?_⟩
      simp only [Watcher.absorb]
      split
      · simp
      · exact hres false
    | deliver => exact ⟨hm, hres true⟩
    | startFirst | pipeFails | endFirst | firstFails | pollSocket | pollPipe | startListing | endListing
    | panic => exact ⟨hm, by simp⟩

/-- **A step enters the callback at most once, and only when no call is in progress.** -/
theorem Step.entered {w w' : Watcher} (hi : w.pc ≠ .idle) (h : Step w w') :
    w'.entered = w.entered ∨
      w.pc.unsent = [] ∧ ∃ u, w'.pc.unsent = [u] ∧ w'.entered = w.entered ++ [u] := by
  have frame {w' : Watcher} (hd : w'.delivered = w.delivered) (hu : w.pc.unsent = [])
      (hu' : w'.pc.unsent = []) : w'.entered = w.entered := by
    rw [Watcher.entered, Watcher.entered, hd, hu, hu']
  have enter {w' : Watcher} (hd : w'.delivered = w.delivered) (hu : w.pc.unsent = []) {u : Update}
      (hu' : w'.pc.unsent = [u]) :
      w.pc.unsent = [] ∧ ∃ u, w'.pc.unsent = [u] ∧ w'.entered = w.entered ++ [u] := by
    refine ⟨hu, u, hu', ?_⟩
    rw [Watcher.entered, Watcher.entered, hd, hu, hu', List.append_nil]
  cases h with
  | change | arrive => exact .inl rfl
  | startFirst hp | pipeFails _ hp | endFirst _ hp | firstFails hp | pollSocket _ hp | pollPipe _ hp
  | startListing hp | endListing _ hp => exact .inl (frame rfl (by rw [hp]; rfl) rfl)
  | @firstCallback l _ hp =>
    cases hu : (w.cursor.advance l).2 with
    | none => exact .inl (frame rfl (by rw [hp]; rfl) (by simp only [Watcher.firstCallback, hu]; rfl))
    | some u => exact .inr (enter rfl (by rw [hp]; rfl) (by simp only [Watcher.firstCallback, hu]; rfl))
  | firstBlocking _ hp => exact .inl (frame rfl (by rw [hp]; rfl) rfl)
  | takeInitial hp => exact absurd hp hi
  | callChanged hp => exact absurd hp hi
  | recv hp =>
    refine .inl (frame rfl (by rw [hp]; rfl) ?_)
    dsimp only
    split <;> rfl
  | @absorb r hp =>
    cases hu : (nextUpdate w.cursor r).2 with
    | none =>
      refine .inl (frame rfl (by rw [hp]; rfl) ?_)
      simp only [Watcher.absorb, hu]
      exact resume_unsent w false
    | some u => exact .inr (enter rfl (by rw [hp]; rfl) (by simp only [Watcher.absorb, hu]; rfl))
  | deliver hp =>
    left
    simp only [Watcher.entered, hp, resume_unsent]
    simp [Pc.unsent]
  | panic _ hp =>
    left
    simp only [Watcher.entered, hp]
    simp [Pc.unsent]

/-- A thread that has left the loop or unwound does nothing any more. -/
theorem Step.stopped {w w' : Watcher} (h : Step w w') (hp : w.pc = .stopped) :
    w'.pc = .stopped ∧ w'.entered = w.entered := by
  cases h with
  | change | arrive => exact ⟨hp, rfl⟩
  | startFirst h | pipeFails _ h | endFirst _ h | firstFails h | firstCallback _ h | firstBlocking _ h
  | takeInitial h | callChanged h | pollSocket _ h | pollPipe _ h | recv h | startListing h
  | endListing _ h | absorb h | deliver h | panic _ h =>
    rw [hp] at h
    cases h

/-! ## The sender outlives every call -/

structure HandleInv (s : Watch) : Prop where
  /-- During the set-up there is no thread. -/
  starting : ∀ w, s.owner = .starting w → Reach (system .callback) w ∧ s.thread = none
  failed : ∀ w, s.owner = .failed w → w.pc.unsent = [] ∧ s.thread = none
  thread : ∀ w, s.thread = some w → Reach (system .callback) w
  /-- The sender is dropped only when the thread has left the loop or has unwound. -/
  alive : ∀ w, s.thread = some w → w.pc ≠ .stopped → s.sender = true
  dropped : s.owner = .dropped → s.sender = false

theorem HandleInv.init {w : Watcher} (h : (system .callback).init w) :
    HandleInv ⟨.starting w, none, true, false⟩ := by
  refine ⟨?_, ?_, ?_, ?_, ?_⟩
  · rintro w' hw
    cases hw
    exact ⟨.init h, rfl⟩
  · intro w' hw
    cases hw
  · intro w' hw
    cases hw
  · intro w' hw
    cases hw
  · intro hd
    cases hd

theorem HandleInv.fail {s : Watch} (ih : HandleInv s) {w : Watcher} (ho : s.owner = .starting w)
    (hu : w.pc.unsent = []) : HandleInv { s with owner := .failed w, pipeOpen := false } where
  starting := fun w' hw => by cases hw
  failed := fun w' hw => by cases hw; exact ⟨hu, (ih.starting w ho).2⟩
  thread := ih.thread
  alive := ih.alive
  dropped := fun hd => by cases hd

/-- A step of the owner's once the set-up is over. -/
theorem HandleInv.own {s : Watch} (ih : HandleInv s) {o : Owner} (ho : o.watcher = none)
    (hd : o = .dropped → s.sender = false) (pipeOpen : Bool) :
    HandleInv { s with owner := o, pipeOpen } where
  starting := fun w hw => by
    obtain rfl : o = .starting w := hw
    cases ho
  failed := fun w hw => by
    obtain rfl : o = .failed w := hw
    cases ho
  thread := ih.thread
  alive := ih.alive
  dropped := hd

theorem HandleInv.step {s s' : Watch} (ih : HandleInv s) (h : HandleStep s s') : HandleInv s' := by
  cases h with
  | @setUp w w' ho hs hp =>
    obtain ⟨hr, ht⟩ := ih.starting w ho
    refine ⟨?_, ?_, ih.thread, ih.alive, ?_⟩
    · intro v hv
      cases hv
      exact ⟨hr.step hs, ht⟩
    · intro v hv
      cases hv
    · intro hd
      cases hd
  | setUpFails ho hp => exact ih.fail ho (by rcases hp with hp | hp <;> rw [hp] <;> rfl)
  | spawnFails ho hp => exact ih.fail ho (by rw [hp]; rfl)
  | @spawn w ho hp =>
    refine ⟨?_, ?_, ?_, fun _ _ _ => rfl, ?_⟩
    · intro v hv
      cases hv
    · intro v hv
      cases hv
    · intro v hv
      cases hv
      exact (ih.starting w ho).1
    · intro hd
      cases hd
  | @run w w' ht hs hp =>
    refine ⟨?_, ?_, ?_, ?_, ih.dropped⟩
    · intro v hv
      rw [(ih.starting v hv).2] at ht
      cases ht
    · intro v hv
      rw [(ih.failed v hv).2] at ht
      cases ht
    · intro v hv
      cases hv
      exact (ih.thread w ht).step hs
    · intro v hv hne
      cases hv
      -- a thread that goes on had not stopped before either
      exact ih.alive w ht fun hst => hne (hs.stopped hst).1
  | pollNothing => exact ih
  | @dropSender w ht hp =>
    refine ⟨ih.starting, ih.failed, ih.thread, ?_, fun _ => rfl⟩
    intro v hv hne
    rw [ht] at hv
    cases hv
    exact absurd hp hne
  | close ho => exact ih.own rfl (fun hd => by cases hd) false
  | recv ho hs => exact ih.own rfl (fun _ => hs) s.pipeOpen

theorem handleInv {s : Watch} (r : Reach handleSystem s) : HandleInv s := by
  refine r.inv (I := HandleInv) ?_ fun _ _ _ ih h => ih.step h
  rintro s ⟨w, hw, rfl⟩
  exact .init hw

/-- The watcher that runs, in the set-up or in the thread, is a run of `Watcher.lean`; there is one
at most. -/
theorem HandleInv.single {s : Watch} (h : HandleInv s) {w : Watcher} (ht : s.thread = some w) :
    s.owner.watcher = none := by
  cases ho : s.owner with
  | starting v =>
    rw [(h.starting v ho).2] at ht
    cases ht
  | failed v =>
    rw [(h.failed v ho).2] at ht
    cases ht
  | _ => rfl

theorem unsent_length (pc : Pc) : pc.unsent.length ≤ 1 := by
  cases pc <;> simp [Pc.unsent]

theorem HandleInv.inProgress_length {s : Watch} (h : HandleInv s) : s.inProgress.length ≤ 1 := by
  unfold Watch.inProgress
  cases ht : s.thread with
  | none =>
    cases s.owner.watcher with
    | none => simp
    | some w => simpa using unsent_length w.pc
  | some w =>
    rw [h.single ht]
    simpa using unsent_length w.pc

/-- Without the sender the thread is past its last call. -/
theorem HandleInv.stopped {s : Watch} (h : HandleInv s) (hs : s.sender = false) {w : Watcher}
    (ht : s.thread = some w) : w.pc = .stopped := by
  by_contra hp
  have := h.alive w ht hp
  rw [hs] at this
  cases this

/-- **One step of owner and thread** enters the callback at most once, when no call is in progress. -/
theorem HandleStep.entered {s s' : Watch} (ih : HandleInv s) (h : HandleStep s s') :
    s'.entered = s.entered ∨
      s.inProgress = [] ∧ ∃ u, s'.inProgress = [u] ∧ s'.entered = s.entered ++ [u] := by
  cases h with
  | @setUp w w' ho hs hp =>
    obtain ⟨hr, ht⟩ := ih.starting w ho
    simpa [Watch.entered, Watch.inProgress, ho, ht, Owner.watcher] using
      hs.entered (callback_of_reach hr).2
  | setUpFails ho hp => left; simp [Watch.entered, ho, Owner.watcher]
  | spawnFails ho hp => left; simp [Watch.entered, ho, Owner.watcher]
  | @spawn w ho hp =>
    left
    simp [Watch.entered, ho, (ih.starting w ho).2, Owner.watcher]
  | @run w w' ht hs hp =>
    simpa [Watch.entered, Watch.inProgress, ht, ih.single ht] using
      hs.entered (callback_of_reach (ih.thread w ht)).2
  | pollNothing => exact .inl rfl
  | dropSender => exact .inl rfl
  | close ho => left; simp [Watch.entered, ho, Owner.watcher]
  | recv ho hs => left; simp [Watch.entered, ho, Owner.watcher]

/-- One step after the drop: the thread, if it still exists, is past its last call. -/
theorem HandleStep.dropped {s s' : Watch} (ih : HandleInv s) (hd : s.owner = .dropped)
    (h : HandleStep s s') : s'.owner = .dropped ∧ s'.entered = s.entered := by
  cases h with
  | @run w w' ht hs hp =>
    refine ⟨hd, ?_⟩
    simp [Watch.entered, ht, (hs.stopped (ih.stopped (ih.dropped hd) ht)).2]
  | pollNothing => exact ⟨hd, rfl⟩
  | dropSender => exact ⟨hd, rfl⟩
  | setUp ho | setUpFails ho | spawnFails ho | spawn ho | close ho | recv ho =>
    rw [hd] at ho
    cases ho

theorem HandleInv.inProgress_of_dropped {s : Watch} (h : HandleInv s) (hd : s.owner = .dropped) :
    s.inProgress = [] := by
  unfold Watch.inProgress
  rw [hd]
  cases ht : s.thread with
  | none => rfl
  | some w => simp [h.stopped (h.dropped hd) ht, Owner.watcher, Pc.unsent]

/-- **After the drop of a `WatchHandle` returns, its callback is not running and is never called
again**, and it is never entered while a call of it is in progress. -/
theorem dropped_silent {s : Watch} (r : Reach handleSystem s) :
    s.inProgress.length ≤ 1 ∧
      (∀ s', HandleStep s s' → s'.entered ≠ s.entered →
        s.inProgress = [] ∧ ∃ u, s'.inProgress = [u] ∧ s'.entered = s.entered ++ [u]) ∧
      (s.owner = .dropped → ∀ s', Later handleSystem s s' →
        s'.inProgress = [] ∧ s'.entered = s.entered) := by
  have ih := handleInv r
  refine ⟨ih.inProgress_length, ?_, ?_⟩
  · intro s' h hne
    exact (h.entered ih).resolve_left hne
  · intro hd s' l
    have hlater : s'.owner = .dropped ∧ s'.entered = s.entered := by
      refine Later.inv r l (I := fun t => t.owner = .dropped ∧ t.entered = s.entered) ⟨hd, rfl⟩ ?_
      rintro t t' rt ⟨hdt, het⟩ h
      have := HandleStep.dropped (handleInv rt) hdt h
      exact ⟨this.1, this.2.trans het⟩
    exact ⟨(handleInv (r.later l)).inProgress_of_dropped hlater.1, hlater.2⟩

/-- A change is seen in the same poll as the closed pipe, and the callback called for it panics while
the owner waits in its drop. -/
def panickedInDrop (l : IfList) : Watch where
  owner := .dropped
  thread := some
    { mode := .callback
      os := ⟨l, 0, false⟩
      socket := 0
      pc := .stopped
      cursor := ⟨l, false⟩
      initialUpdate := none
      hup := true
      produced := [IfList.initialUpdate ∅, l.updateFrom ∅]
      delivered := [IfList.initialUpdate ∅, l.updateFrom ∅] }
  pipeOpen := false
  sender := false

theorem panickedInDrop_reach {l : IfList} (h : l ≠ ∅) : Reach handleSystem (panickedInDrop l) := by
  let u0 : Update := IfList.initialUpdate ∅
  have r0 : Reach handleSystem
      ⟨.starting ⟨.callback, ⟨∅, 0, false⟩, 0, .opened, .default, none, false, [], []⟩, none, true, false⟩ :=
    .init ⟨_, ⟨rfl, rfl, rfl, rfl, rfl, rfl, rfl⟩, rfl⟩
  have r1 := (r0.step (.setUp rfl (.startFirst rfl) fun h => by cases h)).step
    (.setUp rfl (.endFirst (some ∅) rfl fun _ => rfl) fun h => by cases h)
  have r2 : Reach handleSystem
      ⟨.starting ⟨.callback, ⟨∅, 0, false⟩, 0, .polling, ⟨∅, false⟩, none, false, [u0], [u0]⟩, none, true,
        false⟩ :=
    (r1.step (.setUp rfl (.firstCallback rfl rfl) fun h => by cases h)).step
      (.setUp rfl (.deliver rfl) fun h => by cases h)
  have r3 : Reach handleSystem
      ⟨.holding, some ⟨.callback, ⟨l, 0, true⟩, 1, .polling, ⟨∅, false⟩, none, false, [u0], [u0]⟩, true,
        true⟩ :=
    ((r2.step (.spawn rfl rfl)).step (.run rfl (.change l) (by simp [PollsPipe]))).step
      (.run rfl (.arrive 1) (by simp [PollsPipe]))
  have r4 := (r3.step (.close rfl)).step (.run rfl (.pollSocket true rfl fun h => by cases h) fun _ _ => rfl)
  have r5 := (r4.step (.run rfl (.recv rfl (.message 0 32)) fun h => by cases h)).step
    (.run rfl (.recv rfl .again) fun h => by cases h)
  have r6 : Reach handleSystem
      ⟨.receiving, some ⟨.callback, ⟨l, 0, false⟩, 0, .listed (some l), ⟨∅, false⟩, none, true, [u0], [u0]⟩,
        false, true⟩ :=
    (r5.step (.run rfl (.startListing rfl) fun h => by cases h)).step
      (.run rfl (.endListing (some l) rfl fun _ => rfl) fun h => by cases h)
  have r7 : Reach handleSystem
      ⟨.receiving, some ⟨.callback, ⟨l, 0, false⟩, 0, .delivering (l.updateFrom ∅), ⟨l, false⟩, none, true,
        [u0, l.updateFrom ∅], [u0]⟩, false, true⟩ := by
    have := r6.step (.run rfl (.absorb rfl) fun h => by cases h)
    simpa [Watcher.absorb, nextUpdate, UpdateCursor.advance, h] using this
  exact ((r7.step (.run rfl (.panic rfl rfl) fun h => by cases h)).step (.dropSender rfl rfl)).step
    (.recv rfl rfl)

theorem dropped_silent_panicked :
    (panickedInDrop eth0).inProgress.length ≤ 1 ∧
      ∀ s', Later handleSystem (panickedInDrop eth0) s' →
        s'.inProgress = [] ∧ s'.entered = (panickedInDrop eth0).entered := by
  have h := dropped_silent (panickedInDrop_reach (l := eth0) (by decide))
  exact ⟨h.1, h.2.2 rfl⟩

end Netwatcher.WatchFd
