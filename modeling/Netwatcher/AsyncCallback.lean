import Netwatcher.Cursor
import Netwatcher.Lib.Mailbox
/-!
# The list queue and its consumers (`src/async_callback.rs`)

| here | there |
| --- | --- |
| `AsyncCallbackQueue` | `AsyncCallbackState` under its mutex (async_callback.rs:8) |
| `pushAsyncList` | async_callback.rs:37; also gives the waker it wakes |
| `nextAsyncList` | one poll of `next_async_list` (async_callback.rs:46) |
| `waitNextList`  | one turn of the loop of `wait_next_list` (async_callback.rs:59) |
| `QueuedWatch`, `WatchStep` | `AsyncWatch::changed`, `BlockingWatch::changed` (watch_android.rs:88, :105; watch_win.rs:170, :181) |

A consumer step is one critical section of the queue, or what follows it up to the next one. A
future of `changed` may be dropped where it is suspended; a blocking call has no such point.
-/
namespace Netwatcher

abbrev Waker := Nat

structure AsyncCallbackQueue where
  latest : Option IfList
  waker : Option Waker
deriving DecidableEq

def emptyAsyncCallbackQueue : AsyncCallbackQueue := { latest := none, waker := none }

def pushAsyncList (queue : AsyncCallbackQueue) (list : IfList) : AsyncCallbackQueue × Option Waker :=
  ({ latest := some list, waker := none }, queue.waker)

/-- `Poll::Ready` with the list, or `Poll::Pending` with the waker left behind. -/
def nextAsyncList (queue : AsyncCallbackQueue) (waker : Waker) : AsyncCallbackQueue × Option IfList :=
  match queue.latest with
  | some list => ({ queue with latest := none }, some list)
  | none => ({ queue with waker := some waker }, none)

/-- The list to return, or another round of `ready.wait`. -/
def waitNextList (queue : AsyncCallbackQueue) : AsyncCallbackQueue × Option IfList :=
  match queue.latest with
  | some list => ({ queue with latest := none }, some list)
  | none => (queue, none)

inductive WatchKind
  | async
  | blocking
deriving DecidableEq, Repr

/-- Where a consumer is in `changed`. -/
inductive Pc
  /-- No call in progress. -/
  | idle
  /-- About to look into the queue. -/
  | looking
  /-- Suspended in the future, or asleep on the condition variable. -/
  | pending
  /-- `new_list` is at hand, about to be given to the cursor. -/
  | taken (newList : IfList)
deriving DecidableEq

structure QueuedWatch where
  kind : WatchKind
  cursor : UpdateCursor
  pc : Pc
  /-- What `changed` has returned so far. -/
  yielded : List Update

def QueuedWatch.new (kind : WatchKind) : QueuedWatch :=
  { kind, cursor := .default, pc := .idle, yielded := [] }

namespace QueuedWatch

/-- Look into the queue: by polling the future, or with the queue's mutex held. -/
def look (self : QueuedWatch) (queue : AsyncCallbackQueue) (waker : Waker) :
    AsyncCallbackQueue × Option IfList :=
  match self.kind with
  | .async => nextAsyncList queue waker
  | .blocking => waitNextList queue

/-- `cursor.advance(new_list)` and what the loop does with the result. -/
def digest (self : QueuedWatch) (newList : IfList) : QueuedWatch :=
  match self.cursor.advance newList with
  | (cursor, some update) => { self with cursor, pc := .idle, yielded := self.yielded ++ [update] }
  | (cursor, none) => { self with cursor, pc := .looking }

end QueuedWatch

inductive WatchStep : AsyncCallbackQueue × QueuedWatch → AsyncCallbackQueue × QueuedWatch → Prop
  | call {q : AsyncCallbackQueue} {w : QueuedWatch} : w.pc = .idle →
      WatchStep (q, w) (q, { w with pc := .looking })
  | found {q q' : AsyncCallbackQueue} {w : QueuedWatch} {list : IfList} (waker : Waker) :
      w.pc = .looking → w.look q waker = (q', some list) →
      WatchStep (q, w) (q', { w with pc := .taken list })
  | empty {q q' : AsyncCallbackQueue} {w : QueuedWatch} (waker : Waker) :
      w.pc = .looking → w.look q waker = (q', none) →
      WatchStep (q, w) (q', { w with pc := .pending })
  /-- Polled again, or woken: maybe for nothing. -/
  | wake {q : AsyncCallbackQueue} {w : QueuedWatch} : w.pc = .pending →
      WatchStep (q, w) (q, { w with pc := .looking })
  /-- The future is dropped before its first poll or where it is suspended. -/
  | cancel {q : AsyncCallbackQueue} {w : QueuedWatch} : w.kind = .async →
      w.pc = .looking ∨ w.pc = .pending → WatchStep (q, w) (q, { w with pc := .idle })
  | digest {q : AsyncCallbackQueue} {w : QueuedWatch} {list : IfList} : w.pc = .taken list →
      WatchStep (q, w) (q, w.digest list)

/-! ## The consumer end is that of a mailbox -/

/-- The producer's list `cur`, the queue and the consumer, as a mailbox. -/
def mailbox (cur : IfList) (s : AsyncCallbackQueue × QueuedWatch) : Mailbox.St IfList where
  cur
  slot := s.1.latest
  hand := match s.2.pc with | .taken l => some l | _ => none
  seen := if s.2.cursor.initialPending then none else some s.2.cursor.prevList

@[simp] theorem mailbox_cur (cur : IfList) (s : AsyncCallbackQueue × QueuedWatch) :
    (mailbox cur s).cur = cur := rfl

theorem look_found {w : QueuedWatch} {q q' : AsyncCallbackQueue} {waker : Waker} {list : IfList}
    (h : w.look q waker = (q', some list)) : q.latest = some list ∧ q'.latest = none := by
  unfold QueuedWatch.look nextAsyncList waitNextList at h
  cases hk : w.kind <;> cases hl : q.latest <;> simp_all <;> simp [← h.1]

theorem look_empty {w : QueuedWatch} {q q' : AsyncCallbackQueue} {waker : Waker}
    (h : w.look q waker = (q', none)) : q.latest = none ∧ q'.latest = none := by
  unfold QueuedWatch.look nextAsyncList waitNextList at h
  cases hk : w.kind <;> cases hl : q.latest <;> simp_all
  simp [← h]

theorem mailbox_digest (cur : IfList) (q : AsyncCallbackQueue) (w : QueuedWatch) (list : IfList) :
    mailbox cur (q, w.digest list) =
      { cur, slot := q.latest, hand := none, seen := some list } := by
  have hp := w.cursor.advance_prevList list
  have hi := w.cursor.advance_initialPending list
  unfold QueuedWatch.digest
  split <;> rename_i h <;> rw [h] at hp hi <;> simpa [mailbox] using And.intro hi hp

/-- What one consumer step does to the mailbox: nothing, or a step of its consumer. -/
theorem WatchStep.mailbox {s s' : AsyncCallbackQueue × QueuedWatch} (h : WatchStep s s') (cur : IfList) :
    mailbox cur s' = mailbox cur s ∨ Mailbox.Step (mailbox cur s) (mailbox cur s') := by
  cases h with
  | call hp => left; simp [Netwatcher.mailbox, hp]
  | @found q q' w list waker hp hl =>
    right
    obtain ⟨hq, hq'⟩ := look_found hl
    have := Mailbox.Step.take (s := Netwatcher.mailbox cur (q, w)) (a := list) hq (by simp [Netwatcher.mailbox, hp])
    simpa [Netwatcher.mailbox, hq'] using this
  | @empty q q' w waker hp hl =>
    left
    obtain ⟨hq, hq'⟩ := look_empty hl
    simp [Netwatcher.mailbox, hp, hq, hq']
  | wake hp => left; simp [Netwatcher.mailbox, hp]
  | cancel _ hp => left; rcases hp with hp | hp <;> simp [Netwatcher.mailbox, hp]
  | @digest q w list hp =>
    right
    rw [mailbox_digest]
    exact Mailbox.Step.absorb (s := Netwatcher.mailbox cur (q, w)) (by simp [Netwatcher.mailbox, hp])

/-! ## What a consumer end keeps -/

/-- The consumer end of a producer whose list is `cur`. -/
structure QueueOk (cur : IfList) (s : AsyncCallbackQueue × QueuedWatch) : Prop where
  refines : Runs.Reach (Mailbox.system IfList) (mailbox cur s)
  linked : Linked s.2.cursor s.2.yielded

theorem WatchStep.linked {s s' : AsyncCallbackQueue × QueuedWatch} (hs : WatchStep s s')
    (h : Linked s.2.cursor s.2.yielded) : Linked s'.2.cursor s'.2.yielded := by
  cases hs with
  | @digest q w list hp =>
    have := h.advance list
    simp only [QueuedWatch.digest]
    split <;> rename_i hr <;> simpa [hr] using this
  | _ => exact h

/-- One step of the consumer. -/
theorem QueueOk.watchStep {cur : IfList} {s s' : AsyncCallbackQueue × QueuedWatch} (h : QueueOk cur s)
    (hs : WatchStep s s') : QueueOk cur s' := by
  refine ⟨?_, hs.linked h.linked⟩
  rcases hs.mailbox cur with he | hm
  · rw [he]; exact h.refines
  · exact h.refines.step hm

/-- A call that ends with nothing taken. -/
theorem QueueOk.giveUp {cur : IfList} {q : AsyncCallbackQueue} {w : QueuedWatch} (h : QueueOk cur (q, w))
    (hp : w.pc = .looking) : QueueOk cur (q, { w with pc := .idle }) := by
  refine ⟨?_, h.linked⟩
  have hm : mailbox cur (q, { w with pc := .idle }) = mailbox cur (q, w) := by simp [mailbox, hp]
  rw [hm]
  exact h.refines

/-- One push of the producer: its list before is forgotten. -/
theorem QueueOk.push {cur : IfList} {q : AsyncCallbackQueue} {w : QueuedWatch} (h : QueueOk cur (q, w))
    (list : IfList) : QueueOk list ((pushAsyncList q list).1, w) :=
  ⟨h.refines.step (Mailbox.Step.publish list), h.linked⟩

/-- The initial push, into a queue nobody has looked into. -/
theorem QueueOk.new (kind : WatchKind) (q : AsyncCallbackQueue) (list : IfList) :
    QueueOk list ((pushAsyncList q list).1, .new kind) :=
  ⟨.init ⟨rfl, rfl⟩, linked_default⟩

/-- A list in the mailbox is the producer's. -/
theorem QueueOk.latest_eq {cur l : IfList} {q : AsyncCallbackQueue} {w : QueuedWatch}
    (h : QueueOk cur (q, w)) (hq : q.latest = some l) : l = cur := by
  have hs := Mailbox.synced h.refines
  have hsl : (mailbox cur (q, w)).slot = some l := hq
  simpa only [Mailbox.Synced, hsl, mailbox_cur] using hs

/-- Nothing in the mailbox and no list at hand: the cursor has the producer's list. -/
theorem QueueOk.caughtUp {cur : IfList} {q : AsyncCallbackQueue} {w : QueuedWatch}
    (h : QueueOk cur (q, w)) (hq : q.latest = none) (hw : ∀ l, w.pc ≠ .taken l) :
    w.cursor.prevList = cur := by
  have hs := Mailbox.synced h.refines
  have hsl : (mailbox cur (q, w)).slot = none := hq
  have hh : (mailbox cur (q, w)).hand = none := by
    cases hp : w.pc with
    | taken l => exact absurd hp (hw l)
    | _ => simp [mailbox, hp]
  simp only [Mailbox.Synced, hh, hsl, mailbox_cur] at hs
  cases hi : w.cursor.initialPending <;> simp [mailbox, hi] at hs
  exact hs

/-- Nothing in the mailbox and no list at hand: the last update yielded is the producer's list. -/
theorem QueueOk.yielded {cur : IfList} {q : AsyncCallbackQueue} {w : QueuedWatch}
    (h : QueueOk cur (q, w)) (hq : q.latest = none) (hw : ∀ l, w.pc ≠ .taken l) :
    lastInterfaces w.yielded = some cur := by
  have hs := Mailbox.synced h.refines
  have hsl : (mailbox cur (q, w)).slot = none := hq
  have hh : (mailbox cur (q, w)).hand = none := by
    cases hp : w.pc with
    | taken l => exact absurd hp (hw l)
    | _ => simp [mailbox, hp]
  simp only [Mailbox.Synced, hh, hsl, mailbox_cur] at hs
  cases hi : w.cursor.initialPending with
  | true => simp [mailbox, hi] at hs
  | false =>
    rw [h.linked.2.2 hi, h.caughtUp hq hw]

end Netwatcher
