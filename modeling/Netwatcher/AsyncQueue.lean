import Netwatcher.AsyncCallback
/-!
# The list queue under its lock and condition variable (`src/async_callback.rs`)

The queue with any number of pushers and one consumer at a time: a future of `next_async_list` that
is polled whenever and with whatever waker the executor likes, or a call of `wait_next_list`. A push
holds the lock over three steps; a poll and a turn of the blocking loop are one step each. A pusher
or a consumer that waits for the lock has no state of its own.

| here | there |
| --- | --- |
| `QueueLock`     | the mutex `state`, and how far the push that holds it is (async_callback.rs:37-44) |
| `push`, `wake`, `notifyOne`, `unlock` | `push_async_list`: store and take the waker, `waker.wake()`, `ready.notify_one()`, the end of the guard |
| `pollReady`, `pollPending` | the closure of `poll_fn` (async_callback.rs:47-55) |
| `waitTakes`, `waitParks`, `unpark` | the loop of `wait_next_list` (async_callback.rs:60-66) |
-/
namespace Netwatcher
open Runs

inductive QueueLock
  | free
  /-- The list is stored, and this waker was taken out. -/
  | waking (waker : Option Waker)
  | notifying
  /-- The push is done but for the guard. -/
  | leaving
deriving DecidableEq

inductive Consumer
  | idle
  /-- A future exists, polled or not. -/
  | future
  /-- A blocking consumer about to lock the queue, for the first time or again. -/
  | checking
  /-- Parked on `ready`, and whether it has been notified since. -/
  | parked (notified : Bool)
deriving DecidableEq

/-- What `notify_one` does to the only thread that may be parked. -/
def Consumer.notify : Consumer → Consumer
  | .parked _ => .parked true
  | c => c

structure QueueRun where
  queue : AsyncCallbackQueue
  lock : QueueLock
  consumer : Consumer
  /-- Ghost: the waker of the last poll, if that returned `Pending`, and whether a push has woken it
  since. -/
  lastPoll : Option (Waker × Bool)
  /-- Ghost: every list pushed. -/
  pushed : List IfList
  /-- Ghost: which push the stored list came with. -/
  source : Nat
  /-- Ghost: for every list taken, which push it came with. -/
  taken : List (Nat × IfList)

namespace QueueRun

def store (s : QueueRun) (list : IfList) : QueueRun :=
  let (queue, waker) := pushAsyncList s.queue list
  { s with queue, lock := .waking waker, pushed := s.pushed ++ [list], source := s.pushed.length }

def take (s : QueueRun) (queue : AsyncCallbackQueue) (list : IfList) : QueueRun :=
  { s with queue, consumer := .idle, taken := s.taken ++ [(s.source, list)] }

end QueueRun

inductive QueueStep : QueueRun → QueueRun → Prop
  | push {s : QueueRun} (list : IfList) : s.lock = .free → QueueStep s (s.store list)
  | wake {s : QueueRun} {w : Waker} : s.lock = .waking (some w) →
      QueueStep s { s with
        lock := .notifying
        lastPoll := s.lastPoll.map fun p => (p.1, p.2 || p.1 == w) }
  | noWaker {s : QueueRun} : s.lock = .waking none → QueueStep s { s with lock := .notifying }
  | notifyOne {s : QueueRun} : s.lock = .notifying →
      QueueStep s { s with lock := .leaving, consumer := s.consumer.notify }
  | unlock {s : QueueRun} : s.lock = .leaving → QueueStep s { s with lock := .free }
  | newFuture {s : QueueRun} : s.consumer = .idle → QueueStep s { s with consumer := .future }
  | pollReady {s : QueueRun} {q : AsyncCallbackQueue} {list : IfList} (waker : Waker) :
      s.consumer = .future → s.lock = .free → nextAsyncList s.queue waker = (q, some list) →
      QueueStep s { s.take q list with lastPoll := none }
  | pollPending {s : QueueRun} {q : AsyncCallbackQueue} (waker : Waker) :
      s.consumer = .future → s.lock = .free → nextAsyncList s.queue waker = (q, none) →
      QueueStep s { s with queue := q, lastPoll := some (waker, false) }
  /-- The waker it has left behind stays. -/
  | dropFuture {s : QueueRun} : s.consumer = .future → QueueStep s { s with consumer := .idle }
  | callWait {s : QueueRun} : s.consumer = .idle → QueueStep s { s with consumer := .checking }
  | waitTakes {s : QueueRun} {q : AsyncCallbackQueue} {list : IfList} :
      s.consumer = .checking → s.lock = .free → waitNextList s.queue = (q, some list) →
      QueueStep s (s.take q list)
  | waitParks {s : QueueRun} {q : AsyncCallbackQueue} :
      s.consumer = .checking → s.lock = .free → waitNextList s.queue = (q, none) →
      QueueStep s { s with queue := q, consumer := .parked false }
  /-- Notified, or for no reason. -/
  | unpark {s : QueueRun} {notified : Bool} : s.consumer = .parked notified →
      QueueStep s { s with consumer := .checking }

def queueSystem : Sys QueueRun where
  init s := s = ⟨emptyAsyncCallbackQueue, .free, .idle, none, [], 0, []⟩
  step := QueueStep

/-! ## What the three operations do to the queue -/

theorem nextAsyncList_some {q q' : AsyncCallbackQueue} {waker : Waker} {list : IfList}
    (h : nextAsyncList q waker = (q', some list)) : q.latest = some list ∧ q' = { q with latest := none } := by
  unfold nextAsyncList at h
  cases hl : q.latest <;> simp [hl] at h
  exact ⟨by rw [h.2], h.1.symm⟩

theorem nextAsyncList_none {q q' : AsyncCallbackQueue} {waker : Waker}
    (h : nextAsyncList q waker = (q', none)) : q.latest = none ∧ q' = { q with waker := some waker } := by
  unfold nextAsyncList at h
  cases hl : q.latest <;> simp [hl] at h
  exact ⟨rfl, h.symm⟩

theorem waitNextList_some {q q' : AsyncCallbackQueue} {list : IfList}
    (h : waitNextList q = (q', some list)) : q.latest = some list ∧ q' = { q with latest := none } := by
  unfold waitNextList at h
  cases hl : q.latest <;> simp [hl] at h
  exact ⟨by rw [h.2], h.1.symm⟩

theorem waitNextList_none {q q' : AsyncCallbackQueue} (h : waitNextList q = (q', none)) :
    q.latest = none ∧ q' = q := by
  unfold waitNextList at h
  cases hl : q.latest <;> simp [hl] at h
  exact ⟨rfl, h.symm⟩

/-! ## Which push each list came with -/

/-- The takes name different pushes, in push order, and the list each of them pushed. -/
structure Accounted (s : QueueRun) : Prop where
  order : (s.taken.map Prod.fst).Pairwise (· < ·)
  pushes : ∀ t ∈ s.taken, s.pushed[t.1]? = some t.2
  /-- What is stored came with the last push, and that one has not been taken. -/
  stored : ∀ l, s.queue.latest = some l →
    s.source + 1 = s.pushed.length ∧ s.pushed[s.source]? = some l ∧ ∀ t ∈ s.taken, t.1 < s.source

/-- A step that neither pushes nor takes. -/
theorem Accounted.frame {s s' : QueueRun} (ih : Accounted s) (hl : s'.queue.latest = s.queue.latest)
    (hp : s'.pushed = s.pushed) (hs : s'.source = s.source) (ht : s'.taken = s.taken) : Accounted s' := by
  refine ⟨by rw [ht]; exact ih.order, by rw [ht, hp]; exact ih.pushes, ?_⟩
  rw [hl, hp, hs, ht]
  exact ih.stored

theorem Accounted.lt_length {s : QueueRun} (ih : Accounted s) {t : Nat × IfList} (ht : t ∈ s.taken) :
    t.1 < s.pushed.length := (List.getElem?_eq_some_iff.1 (ih.pushes t ht)).1

theorem Accounted.store {s : QueueRun} (ih : Accounted s) (list : IfList) : Accounted (s.store list) where
  order := ih.order
  pushes := fun t ht => by
    simp only [QueueRun.store]
    rw [List.getElem?_append_left (ih.lt_length ht)]
    exact ih.pushes t ht
  stored := fun l hl => by
    simp only [QueueRun.store, pushAsyncList, Option.some.injEq] at hl ⊢
    subst hl
    exact ⟨by simp, by simp, fun t ht => ih.lt_length ht⟩

theorem Accounted.take {s : QueueRun} (ih : Accounted s) {list : IfList} (h : s.queue.latest = some list) :
    Accounted (s.take { s.queue with latest := none } list) := by
  obtain ⟨hsrc, hget, hlt⟩ := ih.stored list h
  refine ⟨?_, ?_, ?_⟩
  · simp only [QueueRun.take, List.map_append, List.map_cons, List.map_nil]
    refine List.pairwise_append.2 ⟨ih.order, List.pairwise_singleton _ _, ?_⟩
    intro n hn n' hn'
    obtain ⟨t, ht, rfl⟩ := List.mem_map.1 hn
    rw [List.mem_singleton.1 hn']
    exact hlt t ht
  · intro t ht
    rcases List.mem_append.1 ht with ht | ht
    · exact ih.pushes t ht
    · rw [List.mem_singleton.1 ht]
      exact hget
  · intro l hl
    cases hl

theorem Accounted.step {s s' : QueueRun} (ih : Accounted s) (h : QueueStep s s') : Accounted s' := by
  cases h with
  | push list _ => exact ih.store list
  | pollReady waker _ _ hq =>
    obtain ⟨hl, rfl⟩ := nextAsyncList_some hq
    exact (ih.take hl).frame rfl rfl rfl rfl
  | pollPending waker _ _ hq =>
    obtain ⟨-, rfl⟩ := nextAsyncList_none hq
    exact ih.frame rfl rfl rfl rfl
  | waitTakes _ _ hq =>
    obtain ⟨hl, rfl⟩ := waitNextList_some hq
    exact ih.take hl
  | waitParks _ _ hq =>
    obtain ⟨-, rfl⟩ := waitNextList_none hq
    exact ih.frame rfl rfl rfl rfl
  | wake | noWaker | notifyOne | unlock | newFuture | dropFuture | callWait | unpark =>
    exact ih.frame rfl rfl rfl rfl

theorem accounted {s : QueueRun} (r : Reach queueSystem s) : Accounted s := by
  refine r.inv (I := Accounted) ?_ fun _ _ _ ih h => ih.step h
  rintro s rfl
  refine ⟨List.Pairwise.nil, by simp, ?_⟩
  intro l hl
  cases hl

/-- Values at increasing positions are a subsequence. -/
theorem sublist_take_of_increasing {α : Type} {l : List α} {ts : List (Nat × α)} {n : Nat}
    (ho : (ts.map Prod.fst).Pairwise (· < ·)) (hv : ∀ t ∈ ts, l[t.1]? = some t.2) (hn : ∀ t ∈ ts, t.1 < n) :
    (ts.map Prod.snd).Sublist (l.take n) := by
  induction ts using List.reverseRecOn generalizing n with
  | nil => simp
  | append_singleton ts t ih =>
    rw [List.map_append, List.pairwise_append] at ho
    have hlt : ∀ t' ∈ ts, t'.1 < t.1 := fun t' ht' => ho.2.2 _ (List.mem_map_of_mem ht') _ (by simp)
    have hprev := ih ho.1 (fun t' ht' => hv t' (by simp [ht'])) hlt
    have htake : l.take (t.1 + 1) = l.take t.1 ++ [t.2] := by
      rw [List.take_add_one, hv t (by simp), Option.toList_some]
    have hle : (l.take (t.1 + 1)).Sublist (l.take n) :=
      (List.take_prefix_take_left (hn t (by simp))).sublist
    refine List.Sublist.trans ?_ hle
    rw [htake, List.map_append]
    exact hprev.append (List.Sublist.refl _)

/-! ## Who sleeps finds nothing stored -/

/-- Nobody who sleeps is left behind by a push. -/
structure Awake (s : QueueRun) : Prop where
  /-- While a push holds the lock, its list is stored. -/
  held : s.lock ≠ .free → s.queue.latest ≠ none
  cleared : s.queue.latest ≠ none → s.queue.waker = none
  /-- With nothing stored, a poll that waits has its waker in the queue. -/
  waiting : s.queue.latest = none → ∀ w, s.lastPoll = some (w, false) → s.queue.waker = some w
  /-- Or the push has it in hand. -/
  waking : ∀ w, s.lock = .waking w → ∀ v, s.lastPoll = some (v, false) → w = some v
  woken : s.queue.latest ≠ none → (∀ w, s.lock ≠ .waking w) → ∀ v, s.lastPoll ≠ some (v, false)
  notified : s.queue.latest ≠ none → s.lock = .free ∨ s.lock = .leaving → s.consumer ≠ .parked false

theorem Awake.init : Awake ⟨emptyAsyncCallbackQueue, .free, .idle, none, [], 0, []⟩ := by
  refine ⟨fun h => absurd rfl h, fun _ => rfl, ?_, ?_, ?_, ?_⟩
  · intro _ w hw
    cases hw
  · intro w hw
    cases hw
  · intro _ _ v hv
    cases hv
  · intro _ _ hc
    cases hc

theorem Awake.store {s : QueueRun} (ih : Awake s) (hf : s.lock = .free) (list : IfList) :
    Awake (s.store list) := by
  have hnf : (s.store list).lock = .waking s.queue.waker := rfl
  refine ⟨?_, fun _ => rfl, ?_, ?_, ?_, ?_⟩
  · intro _ h
    cases h
  · intro h
    cases h
  · intro w hw v hv
    obtain rfl : s.queue.waker = w := by simpa [hnf] using hw
    cases hl : s.queue.latest with
    | none => exact ih.waiting hl v hv
    | some l =>
      -- a list is overwritten: whoever waited has been woken for that one
      exact absurd hv (ih.woken (by simp [hl]) (by simp [hf]) v)
  · intro _ hno
    exact absurd hnf (hno _)
  · intro _ hl
    rw [hnf] at hl
    simp at hl

/-- The consumer takes what is stored: with the slot empty nobody may be waiting unnoticed. -/
theorem Awake.take {s : QueueRun} (ih : Awake s) (hf : s.lock = .free) {list : IfList}
    (h : s.queue.latest = some list) : Awake (s.take { s.queue with latest := none } list) := by
  have hno : ∀ v, s.lastPoll ≠ some (v, false) := ih.woken (by simp [h]) (by simp [hf])
  refine ⟨fun h => absurd hf h, fun h => absurd rfl h, ?_, ?_, ?_, ?_⟩
  · intro _ w hw
    exact absurd hw (hno w)
  · intro w hw v hv
    exact absurd hv (hno v)
  · intro _ _ v
    exact hno v
  · intro h
    exact absurd rfl h

/-- A step of the consumer outside the lock. -/
theorem Awake.move {s : QueueRun} (ih : Awake s) (c : Consumer) (hc : c ≠ .parked false) :
    Awake { s with consumer := c } :=
  ⟨ih.held, ih.cleared, ih.waiting, ih.waking, ih.woken, fun _ _ => hc⟩

/-- The push is done with its waker: the last poll, if it waits, has been woken. -/
theorem Awake.wakeDone {s : QueueRun} (ih : Awake s) {w : Option Waker} (hw : s.lock = .waking w)
    {lastPoll : Option (Waker × Bool)} (hwoken : ∀ v, lastPoll ≠ some (v, false)) :
    Awake { s with lock := .notifying, lastPoll } := by
  have hne : s.queue.latest ≠ none := ih.held (by simp [hw])
  refine ⟨fun _ => hne, ih.cleared, fun h => absurd h hne, ?_, fun _ _ => hwoken, ?_⟩
  · intro w' hw'
    cases hw'
  · intro _ hl
    simp at hl

theorem Awake.step {s s' : QueueRun} (ih : Awake s) (h : QueueStep s s') : Awake s' := by
  cases h with
  | push list hf => exact ih.store hf list
  | @wake w hw =>
    refine ih.wakeDone hw ?_
    intro v hv
    obtain ⟨⟨v', woken⟩, hp, he⟩ := Option.map_eq_some_iff.1 hv
    simp only [Prod.mk.injEq, Bool.or_eq_false_iff, beq_eq_false_iff_ne] at he
    obtain ⟨rfl, rfl, hne'⟩ := he
    have := ih.waking _ hw v' hp
    rw [Option.some.injEq] at this
    exact hne' this.symm
  | noWaker hw =>
    refine ih.wakeDone hw ?_
    intro v hv
    have := ih.waking _ hw v hv
    cases this
  | notifyOne hw =>
    have hne : s.queue.latest ≠ none := ih.held (by simp [hw])
    refine ⟨fun _ => hne, ih.cleared, ih.waiting, ?_, fun hl _ => ih.woken hl (by simp [hw]), ?_⟩
    · intro w' hw'
      cases hw'
    · intro _ _
      cases s.consumer <;> simp [Consumer.notify]
  | unlock hw =>
    refine ⟨fun h => absurd rfl h, ih.cleared, ih.waiting, ?_, fun hl _ => ih.woken hl (by simp [hw]),
      fun hl _ => ih.notified hl (.inr hw)⟩
    intro w' hw'
    cases hw'
  | newFuture => exact ih.move _ (by simp)
  | pollReady waker hc hf hq =>
    obtain ⟨hl, rfl⟩ := nextAsyncList_some hq
    have ht := ih.take hf hl
    refine ⟨ht.held, ht.cleared, ?_, ?_, ?_, ht.notified⟩
    · intro _ w hw
      cases hw
    · intro w _ v hv
      cases hv
    · intro _ _ v hv
      cases hv
  | pollPending waker hc hf hq =>
    obtain ⟨hl, rfl⟩ := nextAsyncList_none hq
    refine ⟨fun h => absurd hf h, fun h => absurd hl h, ?_, ?_, fun h => absurd hl h, fun h => absurd hl h⟩
    · intro _ w hw
      cases hw
      rfl
    · intro w hw
      rw [hf] at hw
      cases hw
  | dropFuture => exact ih.move _ (by simp)
  | callWait => exact ih.move _ (by simp)
  | waitTakes hc hf hq =>
    obtain ⟨hl, rfl⟩ := waitNextList_some hq
    exact ih.take hf hl
  | waitParks hc hf hq =>
    obtain ⟨hl, rfl⟩ := waitNextList_none hq
    exact ⟨ih.held, ih.cleared, ih.waiting, ih.waking, ih.woken, fun h => absurd hl h⟩
  | unpark => exact ih.move _ (by simp)

theorem awake {s : QueueRun} (r : Reach queueSystem s) : Awake s := by
  refine r.inv (I := Awake) ?_ fun _ _ _ ih h => ih.step h
  rintro s rfl
  exact .init

/-! ## The mailbox -/

/-- What pushers and consumer may rely on. -/
structure Reliable (s : QueueRun) : Prop where
  subsequence : (s.taken.map Prod.snd).Sublist s.pushed
  /-- Each take names the push it took, no push is named twice, and they come in push order. -/
  once : (s.taken.map Prod.fst).Pairwise (· < ·) ∧ ∀ t ∈ s.taken, s.pushed[t.1]? = some t.2
  /-- A take returns the most recent push. -/
  newest : ∀ s', QueueStep s s' → s'.taken ≠ s.taken →
    ∃ list, s.pushed.getLast? = some list ∧ s'.taken = s.taken ++ [(s.pushed.length - 1, list)]
  /-- With a list stored and the lock free, nobody sleeps unnoticed. -/
  awake : s.lock = .free → s.queue.latest ≠ none →
    s.queue.waker = none ∧ (∀ w woken, s.lastPoll = some (w, woken) → woken = true) ∧
      ∀ notified, s.consumer = .parked notified → notified = true

theorem Accounted.newest {s : QueueRun} (ih : Accounted s) {list : IfList} (h : s.queue.latest = some list) :
    s.pushed.getLast? = some list ∧ s.source = s.pushed.length - 1 := by
  obtain ⟨hsrc, hget, -⟩ := ih.stored list h
  have he : s.source = s.pushed.length - 1 := by omega
  rw [List.getLast?_eq_getElem?, ← he]
  exact ⟨hget, rfl⟩

/-- **The mailbox loses no wakeup and no newest list, duplicates nothing and keeps the order**, under
every interleaving of pushes, polls, dropped futures and blocking waits. -/
theorem mailbox_reliable {s : QueueRun} (r : Reach queueSystem s) : Reliable s := by
  have ha := accounted r
  have hw := awake r
  refine ⟨?_, ⟨ha.order, ha.pushes⟩, ?_, ?_⟩
  · have h := sublist_take_of_increasing ha.order ha.pushes fun t ht => ha.lt_length ht
    rwa [List.take_length] at h
  · intro s' h hne
    have take {list : IfList} (hl : s.queue.latest = some list) :
        ∃ list', s.pushed.getLast? = some list' ∧
          s.taken ++ [(s.source, list)] = s.taken ++ [(s.pushed.length - 1, list')] := by
      obtain ⟨hlast, hsrc⟩ := ha.newest hl
      exact ⟨list, hlast, by rw [hsrc]⟩
    cases h with
    | pollReady waker _ _ hq => exact take (nextAsyncList_some hq).1
    | waitTakes _ _ hq => exact take (waitNextList_some hq).1
    | push | wake | noWaker | notifyOne | unlock | newFuture | pollPending | dropFuture | callWait
    | waitParks | unpark => exact absurd rfl hne
  · intro hf hl
    refine ⟨hw.cleared hl, ?_, ?_⟩
    · intro w woken hp
      cases woken with
      | true => rfl
      | false => exact absurd hp (hw.woken hl (by simp [hf]) w)
    · intro notified hc
      cases notified with
      | true => rfl
      | false => exact absurd hc (hw.notified hl (.inl hf))

/-- A future polled with waker 7 is dropped, a blocking consumer parks, and a list comes. -/
def servedBoth : QueueRun where
  queue := { latest := some ∅, waker := none }
  lock := .free
  consumer := .parked true
  lastPoll := some (7, true)
  pushed := [∅]
  source := 0
  taken := []

theorem servedBoth_reach : Reach queueSystem servedBoth := by
  have r0 : Reach queueSystem ⟨emptyAsyncCallbackQueue, .free, .idle, none, [], 0, []⟩ := .init rfl
  have r1 := ((r0.step (.newFuture rfl)).step (.pollPending 7 rfl rfl rfl)).step (.dropFuture rfl)
  have r2 := (r1.step (.callWait rfl)).step (.waitParks rfl rfl rfl)
  exact (((r2.step (.push ∅ rfl)).step (.wake rfl)).step (.notifyOne rfl)).step (.unlock rfl)

theorem mailbox_reliable_both : Reliable servedBoth := mailbox_reliable servedBoth_reach

end Netwatcher
