import Netwatcher.Cursor
import Netwatcher.Lib.Refresh
/-!
# The Unix callback and blocking watchers (`src/watch_fd.rs`)

Both watchers loop over `poll`, `next_update` and delivery; they differ in where the first update
goes and in what follows a delivery. One machine has both, told apart by `Mode`. The environment
changes the OS state and puts events into the socket at any moment, also between two `recv`s of a
drain and while a listing runs.

| here | there |
| --- | --- |
| `RecvResult`, `drainContinues`, `Recv` | the `match` of `drain_event_socket` (watch_linux.rs:58, watch_route.rs:54) |
| `nextUpdate`     | `next_update` after the drain (watch_fd.rs:189-192) |
| `Pc`, `Step`     | `start_watcher_thread` (watch_fd.rs:138), `watch_interfaces_blocking` (:125), `BlockingWatch::changed` (:71) |
| `Watcher.hup`    | `fds[1].revents != 0` of the poll being handled (watch_fd.rs:172) |

A `poll` that reports nothing changes nothing and has no step.
-/
namespace Netwatcher.WatchFd
open Runs Refresh

inductive RecvResult
  | ok (len : Nat)
  | eagain
  | err
deriving DecidableEq, Repr

/-- The arms of the loop in `drain_event_socket`: `continue` or `break`. -/
def drainContinues : RecvResult → Bool
  | .ok 0 => false
  | .ok _ => true
  | .eagain => false
  | .err => false

/-- `recv` on a socket holding `n` events: what it reports and how many events it leaves. -/
inductive Recv : Nat → RecvResult → Nat → Prop
  | message (n len : Nat) : Recv (n + 1) (.ok len) n
  | again : Recv 0 .eagain 0
  /-- Any other error, whatever the socket holds. -/
  | err (n : Nat) : Recv n .err n

/-- `let Ok(new_list) = list_interfaces() else { return None }; cursor.advance(new_list)`. -/
def nextUpdate (cursor : UpdateCursor) : Option IfList → UpdateCursor × Option Update
  | none => (cursor, none)
  | some newList => cursor.advance newList

theorem linked_nextUpdate {c : UpdateCursor} {log : List Update} (h : Linked c log) (r : Option IfList) :
    Linked (nextUpdate c r).1 (log ++ (nextUpdate c r).2.toList) := by
  cases r with
  | none => simpa [nextUpdate] using h
  | some l => exact h.advance l

inductive Mode
  | callback
  | blocking
deriving DecidableEq, Repr

inductive Pc
  /-- The event socket is open, `list_interfaces` has not been called yet. -/
  | opened
  | firstListing
  | firstListed (r : Option IfList)
  /-- Set-up returned an error or unwound: there is no watcher. -/
  | failed
  /-- Blocking watch with no call of `changed` running. -/
  | idle
  | polling
  | draining
  | drained
  | listing
  | listed (r : Option IfList)
  /-- The callback is running on `u`, or `changed` is about to return it. -/
  | delivering (u : Update)
  /-- The watcher thread is gone. -/
  | stopped

structure Watcher where
  mode : Mode
  os : Tracked IfList
  /-- Events in the event socket. -/
  socket : Nat
  pc : Pc
  cursor : UpdateCursor
  initialUpdate : Option Update
  hup : Bool
  /-- Ghost: every update taken out of the cursor. -/
  produced : List Update
  /-- Ghost: every update the callback was called with or `changed` returned. -/
  delivered : List Update

namespace Watcher

/-- Where the loop goes after one round: the callback thread polls again unless the pipe hung up,
`changed` polls again unless it has an update to return. -/
def resume (s : Watcher) (yielded : Bool) : Pc :=
  match s.mode with
  | .callback => if s.hup then .stopped else .polling
  | .blocking => if yielded then .idle else .polling

/-- `(callback)(cursor.advance(list).unwrap())` up to the call (watch_fd.rs:146). -/
def firstCallback (s : Watcher) (l : IfList) : Watcher :=
  let (cursor, update) := s.cursor.advance l
  { s with
    cursor
    produced := s.produced ++ update.toList
    pc := match update with
      | some u => .delivering u
      | none => .failed }

/-- `let initial_update = cursor.advance(current_list)` (watch_fd.rs:129). -/
def firstBlocking (s : Watcher) (l : IfList) : Watcher :=
  let (cursor, update) := s.cursor.advance l
  { s with cursor, initialUpdate := update, produced := s.produced ++ update.toList, pc := .idle }

/-- The end of `next_update` and the branch on its result (watch_fd.rs:76, :168). -/
def absorb (s : Watcher) (r : Option IfList) : Watcher :=
  let (cursor, update) := nextUpdate s.cursor r
  { s with
    cursor
    produced := s.produced ++ update.toList
    pc := match update with
      | some u => .delivering u
      | none => s.resume false }

end Watcher

inductive Step : Watcher → Watcher → Prop
  | change {s : Watcher} (l : IfList) : Step s { s with os := s.os.change l }
  /-- An event that follows `k` of the past changes. -/
  | arrive {s : Watcher} (k : Nat) : Step s { s with os := s.os.raise k, socket := s.socket + 1 }
  | startFirst {s : Watcher} : s.pc = .opened →
      Step s { s with os := s.os.beginRead, pc := .firstListing }
  /-- `pipe()` fails. -/
  | pipeFails {s : Watcher} : s.mode = .callback → s.pc = .opened → Step s { s with pc := .failed }
  | endFirst {s : Watcher} (r : Option IfList) : s.pc = .firstListing → s.os.Reads r →
      Step s { s with pc := .firstListed r }
  | firstFails {s : Watcher} : s.pc = .firstListed none → Step s { s with pc := .failed }
  | firstCallback {s : Watcher} {l : IfList} : s.mode = .callback → s.pc = .firstListed (some l) →
      Step s (s.firstCallback l)
  | firstBlocking {s : Watcher} {l : IfList} : s.mode = .blocking → s.pc = .firstListed (some l) →
      Step s (s.firstBlocking l)
  /-- `changed` returns the parked initial update. -/
  | takeInitial {s : Watcher} {u : Update} : s.pc = .idle → s.initialUpdate = some u →
      Step s { s with initialUpdate := none, delivered := s.delivered ++ [u] }
  | callChanged {s : Watcher} : s.pc = .idle → s.initialUpdate = none →
      Step s { s with pc := .polling }
  /-- `poll` reports the socket, and `hup` tells whether it reports the pipe too. It may report
  the socket without an event in it (an error condition). -/
  | pollSocket {s : Watcher} (hup : Bool) : s.pc = .polling → (s.mode = .blocking → hup = false) →
      Step s { s with pc := .draining, hup }
  /-- `poll` reports the pipe alone. -/
  | pollPipe {s : Watcher} : s.mode = .callback → s.pc = .polling → Step s { s with pc := .stopped }
  | recv {s : Watcher} {r : RecvResult} {n : Nat} : s.pc = .draining → Recv s.socket r n →
      Step s { s with socket := n, pc := if drainContinues r then .draining else .drained }
  | startListing {s : Watcher} : s.pc = .drained →
      Step s { s with os := s.os.beginRead, pc := .listing }
  | endListing {s : Watcher} (r : Option IfList) : s.pc = .listing → s.os.Reads r →
      Step s { s with pc := .listed r }
  | absorb {s : Watcher} {r : Option IfList} : s.pc = .listed r → Step s (s.absorb r)
  | deliver {s : Watcher} {u : Update} : s.pc = .delivering u →
      Step s { s with delivered := s.delivered ++ [u], pc := s.resume true }
  /-- The callback panics: set-up or the watcher thread unwinds. -/
  | panic {s : Watcher} {u : Update} : s.mode = .callback → s.pc = .delivering u →
      Step s { s with delivered := s.delivered ++ [u], pc := .stopped }

/-- Runs start when the event socket is open, with any OS state and any events under way. -/
def system (mode : Mode) : Sys Watcher where
  init s := s.mode = mode ∧ s.pc = .opened ∧ s.cursor = .default ∧ s.initialUpdate = none ∧
    s.hup = false ∧ s.produced = [] ∧ s.delivered = []
  step := Step

/-! ## The watcher re-reads on a signal -/

/-- What the watcher is doing, seen as `Refresh` sees it: events are the signals, and the drain is
where they are discarded. -/
def Pc.phase (prevList : IfList) : Pc → Phase IfList
  | .opened | .failed | .draining | .drained | .stopped => .stale
  | .firstListing | .listing => .reading
  | .firstListed r | .listed r => .loaded r
  | .idle | .polling | .delivering _ => .idle prevList

def Watcher.refresh (s : Watcher) : Refresh.St IfList where
  val := s.os
  signal := s.socket != 0
  phase := s.pc.phase s.cursor.prevList

section
variable {v : Tracked IfList} {b : Bool}

/-- `next_update` installs the listing as `prev_list`, or keeps that if the listing failed. -/
theorem later_nextUpdate (c : UpdateCursor) (r : Option IfList) :
    Later (Refresh.system IfList) ⟨v, b, .loaded r⟩ ⟨v, b, .idle (nextUpdate c r).1.prevList⟩ := by
  cases r with
  | none => exact later_giveUp _
  | some l =>
    simp only [nextUpdate, UpdateCursor.advance_prevList]
    exact later_install l

theorem later_resume (s : Watcher) (yielded : Bool) (l : IfList) :
    Later (Refresh.system IfList) ⟨v, b, .idle l⟩ ⟨v, b, (s.resume yielded).phase l⟩ := by
  unfold Watcher.resume
  split <;> split
  · exact later_wake l
  · exact .refl
  · exact .refl
  · exact .refl

end

/-- **The watcher refines `Refresh`**: every step of the machine is zero or more of its steps. -/
theorem Step.refines {s s' : Watcher} (h : Step s s') :
    Later (Refresh.system IfList) s.refresh s'.refresh := by
  unfold Watcher.refresh
  cases h with
  | change l => exact .single (.change l)
  | arrive k => exact .single (.raise k)
  | startFirst hp => rw [hp]; exact .single (.start rfl)
  | pipeFails _ hp => rw [hp]; exact .refl
  | endFirst r hp hr => rw [hp]; exact .single (.finish r rfl hr)
  | firstFails hp => rw [hp]; exact (later_giveUp ∅).trans (later_wake ∅)
  | @firstCallback l _ hp =>
    rw [hp]
    simp only [Watcher.firstCallback, UpdateCursor.advance_prevList]
    split
    · exact later_install l
    · exact (later_install l).trans (later_wake l)
  | @firstBlocking l _ hp =>
    rw [hp]
    simp only [Watcher.firstBlocking, UpdateCursor.advance_prevList]
    exact later_install l
  | takeInitial hp _ => exact .refl
  | callChanged hp _ => rw [hp]; exact .refl
  | pollSocket hup hp _ => rw [hp]; exact later_wake _
  | pollPipe _ hp => rw [hp]; exact later_wake _
  | @recv r n hp hr =>
    rw [hp]
    split <;> exact .single (.consume _ rfl)
  | startListing hp => rw [hp]; exact .single (.start rfl)
  | endListing r hp hr => rw [hp]; exact .single (.finish r rfl hr)
  | @absorb r hp =>
    rw [hp]
    refine (later_nextUpdate s.cursor r).trans ?_
    simp only [Watcher.absorb]
    split
    · exact .refl
    · exact later_resume s false _
  | deliver hp => rw [hp]; exact later_resume s true _
  | panic _ hp => rw [hp]; exact later_wake _

theorem reach_refresh {mode : Mode} {s : Watcher} (r : Reach (system mode) s) :
    Reach (Refresh.system IfList) s.refresh := by
  obtain ⟨a, ha, rfl⟩ := r.simulate (R := fun s a => s.refresh = a) (A := Refresh.system IfList)
    (fun s h => ⟨_, by simp [Refresh.system, Watcher.refresh, h.2.1, Pc.phase], rfl⟩)
    (fun s s' a _ hR h => ⟨_, hR ▸ Step.refines h, rfl⟩)
  exact ha

/-! ## What the watcher has produced and delivered -/

/-- The update a delivery is in progress of. -/
def Pc.unsent : Pc → List Update
  | .delivering u => [u]
  | _ => []

/-- The loop is running: the initial update is out of the way. -/
def Pc.looping : Pc → Bool
  | .polling | .draining | .drained | .listing | .listed _ | .delivering _ => true
  | _ => false

/-- The first snapshot has gone through the cursor. -/
def Pc.begun : Pc → Bool
  | .opened | .firstListing | .firstListed _ | .failed => false
  | _ => true

structure LogInv (s : Watcher) : Prop where
  linked : Linked s.cursor s.produced
  /-- Nothing produced is lost: it was delivered, is being delivered, or is parked. -/
  sent : s.produced = s.delivered ++ s.pc.unsent ++ s.initialUpdate.toList
  begun : s.pc.begun = true → s.cursor.initialPending = false
  unparked : s.pc.looping = true ∨ s.pc.begun = false → s.initialUpdate = none

theorem resume_cases (s : Watcher) (yielded : Bool) :
    s.resume yielded = .stopped ∨ s.resume yielded = .polling ∨ (yielded = true ∧ s.resume yielded = .idle) := by
  unfold Watcher.resume
  cases s.mode <;> cases s.hup <;> cases yielded <;> simp

theorem resume_unsent (s : Watcher) (yielded : Bool) : (s.resume yielded).unsent = [] := by
  rcases resume_cases s yielded with h | h | ⟨_, h⟩ <;> rw [h] <;> rfl

/-- A step that moves no update from one place to another. -/
theorem LogInv.frame {s s' : Watcher} (ih : LogInv s) (hc : s'.cursor = s.cursor)
    (hp : s'.produced = s.produced) (hd : s'.delivered = s.delivered)
    (hi : s'.initialUpdate = s.initialUpdate) (hu : s'.pc.unsent = s.pc.unsent)
    (hb : s'.pc.begun = true → s.pc.begun = true)
    (hl : s'.pc.looping = true ∨ s'.pc.begun = false → s.initialUpdate = none) : LogInv s' where
  linked := by rw [hc, hp]; exact ih.linked
  sent := by rw [hp, hd, hu, hi]; exact ih.sent
  begun := fun h => by rw [hc]; exact ih.begun (hb h)
  unparked := fun h => by rw [hi]; exact hl h

theorem unsent_of_not_begun {pc : Pc} (h : pc.begun = false) : pc.unsent = [] := by
  cases pc <;> first | rfl | simp [Pc.begun] at h

theorem begun_of_looping {pc : Pc} (h : pc.looping = true) : pc.begun = true := by
  cases pc <;> first | rfl | simp [Pc.looping] at h

/-- A step of the set-up before the first update. -/
theorem LogInv.setup {s s' : Watcher} (ih : LogInv s) (h : s.pc.begun = false) (h' : s'.pc.begun = false)
    (hc : s'.cursor = s.cursor) (hp : s'.produced = s.produced) (hd : s'.delivered = s.delivered)
    (hi : s'.initialUpdate = s.initialUpdate) : LogInv s' := by
  refine ih.frame hc hp hd hi ?_ ?_ ?_
  · rw [unsent_of_not_begun h', unsent_of_not_begun h]
  · intro hb
    rw [h'] at hb
    cases hb
  · intro _
    exact ih.unparked (.inr h)

/-- A step of the loop up to the listing. -/
theorem LogInv.loop {s s' : Watcher} (ih : LogInv s) (h : s.pc.looping = true) (hu : s.pc.unsent = [])
    (hu' : s'.pc.unsent = []) (hc : s'.cursor = s.cursor) (hp : s'.produced = s.produced)
    (hd : s'.delivered = s.delivered) (hi : s'.initialUpdate = s.initialUpdate) : LogInv s' := by
  refine ih.frame hc hp hd hi (hu'.trans hu.symm) ?_ ?_
  · intro _
    exact begun_of_looping h
  · intro _
    exact ih.unparked (.inl h)

theorem LogInv.step {s s' : Watcher} (ih : LogInv s) (h : Step s s') : LogInv s' := by
  cases h with
  | change l => exact ih.frame rfl rfl rfl rfl rfl id ih.unparked
  | arrive k => exact ih.frame rfl rfl rfl rfl rfl id ih.unparked
  | startFirst hp => exact ih.setup (by rw [hp]; rfl) rfl rfl rfl rfl rfl
  | pipeFails _ hp => exact ih.setup (by rw [hp]; rfl) rfl rfl rfl rfl rfl
  | endFirst r hp _ => exact ih.setup (by rw [hp]; rfl) rfl rfl rfl rfl rfl
  | firstFails hp => exact ih.setup (by rw [hp]; rfl) rfl rfl rfl rfl rfl
  | @firstCallback l _ hp =>
    have hi := ih.unparked (by simp [hp, Pc.begun])
    have hs := ih.sent
    rw [hp, hi] at hs
    refine ⟨ih.linked.advance l, ?_, fun _ => s.cursor.advance_initialPending l, fun _ => hi⟩
    simp only [Watcher.firstCallback, hi, hs]
    cases (s.cursor.advance l).2 <;> simp [Pc.unsent]
  | @firstBlocking l _ hp =>
    have hs := ih.sent
    rw [hp, ih.unparked (by simp [hp, Pc.begun])] at hs
    refine ⟨ih.linked.advance l, ?_, fun _ => s.cursor.advance_initialPending l,
      fun h => by simp [Watcher.firstBlocking, Pc.looping, Pc.begun] at h⟩
    simp only [Watcher.firstBlocking, hs]
    simp [Pc.unsent]
  | takeInitial hp hi =>
    have hs := ih.sent
    rw [hp, hi] at hs
    refine ⟨ih.linked, ?_, ih.begun, fun _ => rfl⟩
    simp only [hp, hs]
    simp [Pc.unsent]
  | callChanged hp hi =>
    exact ih.frame rfl rfl rfl rfl (by rw [hp]; rfl) (fun _ => by rw [hp]; rfl) fun _ => hi
  | pollSocket hup hp _ => exact ih.loop (by rw [hp]; rfl) (by rw [hp]; rfl) rfl rfl rfl rfl rfl
  | pollPipe _ hp => exact ih.loop (by rw [hp]; rfl) (by rw [hp]; rfl) rfl rfl rfl rfl rfl
  | @recv r n hp _ =>
    refine ih.loop (by rw [hp]; rfl) (by rw [hp]; rfl) ?_ rfl rfl rfl rfl
    dsimp only
    split <;> rfl
  | startListing hp => exact ih.loop (by rw [hp]; rfl) (by rw [hp]; rfl) rfl rfl rfl rfl rfl
  | endListing r hp _ => exact ih.loop (by rw [hp]; rfl) (by rw [hp]; rfl) rfl rfl rfl rfl rfl
  | @absorb r hp =>
    have hi := ih.unparked (by simp [hp, Pc.looping])
    have hs := ih.sent
    rw [hp, hi] at hs
    refine ⟨linked_nextUpdate ih.linked r, ?_, ?_, fun _ => hi⟩
    · simp only [Watcher.absorb, hi, hs]
      cases (nextUpdate s.cursor r).2 with
      | none => rw [resume_unsent]; simp [Pc.unsent]
      | some u => simp [Pc.unsent]
    · intro _
      cases r with
      | none => exact ih.begun (by rw [hp]; rfl)
      | some l => exact s.cursor.advance_initialPending l
  | @deliver u hp =>
    have hs := ih.sent
    rw [hp] at hs
    refine ⟨ih.linked, ?_, fun _ => ih.begun (by rw [hp]; rfl),
      fun _ => ih.unparked (by simp [hp, Pc.looping])⟩
    simp only [resume_unsent, hs]
    simp [Pc.unsent]
  | @panic u _ hp =>
    have hs := ih.sent
    rw [hp] at hs
    refine ⟨ih.linked, ?_, fun _ => ih.begun (by rw [hp]; rfl),
      fun _ => ih.unparked (by simp [hp, Pc.looping])⟩
    simp only [hs]
    simp [Pc.unsent]

theorem logInv {mode : Mode} {s : Watcher} (r : Reach (system mode) s) : LogInv s := by
  refine r.inv (I := LogInv) ?_ fun _ _ _ ih h => ih.step h
  rintro s ⟨-, hp, hc, hi, -, hpr, hd⟩
  exact ⟨by rw [hc, hpr]; exact linked_default, by simp [hp, hi, hpr, hd, Pc.unsent],
    by simp [hp, Pc.begun], fun _ => hi⟩

/-! ## No stale watcher -/

/-- **Whenever the watcher is about to poll with no event in the socket and none owed, it is up to
date**: the cursor holds the current OS state, and so does the last update it produced, which has
been delivered. -/
theorem polling_up_to_date {mode : Mode} {s : Watcher} (r : Reach (system mode) s) (hp : s.pc = .polling)
    (hs : s.socket = 0) (ho : s.os.owed = 0) :
    s.cursor.prevList = s.os.cur ∧ lastInterfaces s.produced = some s.os.cur ∧
      s.delivered = s.produced := by
  have hcur : s.cursor.prevList = s.os.cur :=
    quiet_idle (reach_refresh r) ⟨ho, by simp [Watcher.refresh, hs]⟩ (by simp [Watcher.refresh, hp, Pc.phase])
  have inv := logInv r
  have hb := inv.begun (by rw [hp]; rfl)
  have hi := inv.unparked (by simp [hp, Pc.looping])
  refine ⟨hcur, by rw [inv.linked.2.2 hb, hcur], ?_⟩
  simp [inv.sent, hp, hi, Pc.unsent]

/-- A change lands in the first listing, which misses it: the event it owes brings the callback
thread back to its `poll` with the new state. -/
def caughtUp (l : IfList) : Watcher where
  mode := .callback
  os := ⟨l, 0, false⟩
  socket := 0
  pc := .polling
  cursor := ⟨l, false⟩
  initialUpdate := none
  hup := false
  produced := [IfList.initialUpdate ∅, l.updateFrom ∅]
  delivered := [IfList.initialUpdate ∅, l.updateFrom ∅]

theorem caughtUp_reach {l : IfList} (h : l ≠ ∅) : Reach (system .callback) (caughtUp l) := by
  have r0 : Reach (system .callback) ⟨.callback, ⟨∅, 0, false⟩, 0, .opened, .default, none, false, [], []⟩ :=
    .init ⟨rfl, rfl, rfl, rfl, rfl, rfl, rfl⟩
  have r1 := ((r0.step (.startFirst rfl)).step (.change l)).step (.endFirst (some ∅) rfl nofun)
  have r2 := ((r1.step (.firstCallback rfl rfl)).step (.deliver rfl)).step (.arrive 1)
  have r3 := ((r2.step (.pollSocket false rfl nofun)).step (.recv rfl (.message 0 32))).step
    (.recv rfl .again)
  let u0 : Update := IfList.initialUpdate ∅
  have r4 : Reach (system .callback)
      ⟨.callback, ⟨l, 0, false⟩, 0, .listed (some l), ⟨∅, false⟩, none, false, [u0], [u0]⟩ :=
    (r3.step (.startListing rfl)).step (.endListing (some l) rfl fun _ => rfl)
  have r5 : Reach (system .callback)
      ⟨.callback, ⟨l, 0, false⟩, 0, .delivering (l.updateFrom ∅), ⟨l, false⟩, none, false,
        [u0, l.updateFrom ∅], [u0]⟩ := by
    have := r4.step (.absorb rfl)
    simpa [Watcher.absorb, nextUpdate, UpdateCursor.advance, h] using this
  exact r5.step (.deliver rfl)

/-- `eth0` without addresses. -/
def eth0 : IfList := (∅ : IfList).insert 2 ⟨2, "eth0", "00:00:00:00:00:00", []⟩

theorem polling_up_to_date_eth0 :
    (caughtUp eth0).cursor.prevList = eth0 ∧
      lastInterfaces (caughtUp eth0).produced = some eth0 ∧
      (caughtUp eth0).delivered = (caughtUp eth0).produced :=
  polling_up_to_date (caughtUp_reach (by decide)) rfl rfl rfl

end Netwatcher.WatchFd
