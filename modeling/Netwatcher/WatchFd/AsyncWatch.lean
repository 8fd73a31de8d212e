import Netwatcher.WatchFd.Watcher
/-!
# The Unix async watcher (`src/watch_fd.rs`, `src/async_adapter.rs`)

`changed` suspends in `readable().await` only; the rest of a round (drain, `clear_ready`, listing,
`advance`) runs inside one poll. The adapter is a parameter of the source; what is used of it is
its ready flag: an event sets it, `readable()` completes only when it is set, and `clear_ready` may
clear it whatever has arrived meanwhile, or leave it.

| here | there |
| --- | --- |
| `ready`        | the readiness the adapter keeps for the registered socket (async_adapter.rs:71-87) |
| `Pc.suspended` | `self.registration.readable().await` (watch_fd.rs:49) |
| `Pc.pending`   | `std::future::pending().await` (watch_fd.rs:45, :53) |
| `absorb`       | `let Ok(new_list) = .. else { continue }; if let Some(update) = ..` (watch_fd.rs:60-65) |
| `firstAdvance` | the end of `watch_interfaces_async` (watch_fd.rs:113-122) |
-/
namespace Netwatcher.WatchFdAsync
open Runs Refresh Netwatcher.WatchFd

inductive Pc
  /-- The event socket is open and not registered yet. -/
  | opened
  | registered
  | firstListing
  | firstListed (r : Option IfList)
  | failed
  /-- No `changed` future exists, or one that has not been polled. -/
  | idle
  | suspended
  | pending
  | draining
  | drained
  | cleared
  | listing
  | listed (r : Option IfList)
  /-- The poll is about to complete with `u`. -/
  | returning (u : Update)

structure AsyncWatch where
  os : Tracked IfList
  /-- Events in the event socket. -/
  socket : Nat
  ready : Bool
  pc : Pc
  cursor : UpdateCursor
  initialUpdate : Option Update
  readinessFailed : Bool
  /-- Ghost: every update taken out of the cursor. -/
  produced : List Update
  /-- Ghost: every update a poll of `changed` completed with. -/
  delivered : List Update

namespace AsyncWatch

def firstAdvance (s : AsyncWatch) (l : IfList) : AsyncWatch :=
  let (cursor, initialUpdate) := s.cursor.advance l
  { s with cursor, initialUpdate, produced := s.produced ++ initialUpdate.toList, pc := .idle }

def absorb (s : AsyncWatch) : Option IfList → AsyncWatch
  | none => { s with pc := .suspended }
  | some newList =>
    let (cursor, update) := s.cursor.advance newList
    { s with
      cursor
      produced := s.produced ++ update.toList
      pc := match update with
        | some u => .returning u
        | none => .suspended }

end AsyncWatch

inductive Step : AsyncWatch → AsyncWatch → Prop
  | change {s : AsyncWatch} (l : IfList) : Step s { s with os := s.os.change l }
  /-- An event that follows `k` of the past changes. -/
  | arrive {s : AsyncWatch} (k : Nat) :
      Step s { s with os := s.os.raise k, socket := s.socket + 1, ready := true }
  /-- The runtime reports readiness that is not there. -/
  | spurious {s : AsyncWatch} : Step s { s with ready := true }
  | register {s : AsyncWatch} (ready : Bool) : s.pc = .opened → Step s { s with pc := .registered, ready }
  | registerFails {s : AsyncWatch} : s.pc = .opened → Step s { s with pc := .failed }
  | startFirst {s : AsyncWatch} : s.pc = .registered →
      Step s { s with os := s.os.beginRead, pc := .firstListing }
  | endFirst {s : AsyncWatch} (r : Option IfList) : s.pc = .firstListing → s.os.Reads r →
      Step s { s with pc := .firstListed r }
  | firstFails {s : AsyncWatch} : s.pc = .firstListed none → Step s { s with pc := .failed }
  | firstAdvance {s : AsyncWatch} {l : IfList} : s.pc = .firstListed (some l) → Step s (s.firstAdvance l)
  | takeInitial {s : AsyncWatch} {u : Update} : s.pc = .idle → s.initialUpdate = some u →
      Step s { s with initialUpdate := none, delivered := s.delivered ++ [u] }
  | pollFailed {s : AsyncWatch} : s.pc = .idle → s.initialUpdate = none → s.readinessFailed = true →
      Step s { s with pc := .pending }
  | pollFresh {s : AsyncWatch} : s.pc = .idle → s.initialUpdate = none → s.readinessFailed = false →
      Step s { s with pc := .suspended }
  | readable {s : AsyncWatch} : s.pc = .suspended → s.ready = true → Step s { s with pc := .draining }
  | readableFails {s : AsyncWatch} : s.pc = .suspended →
      Step s { s with pc := .pending, readinessFailed := true }
  /-- The future is dropped at its await point. -/
  | drop {s : AsyncWatch} : s.pc = .suspended ∨ s.pc = .pending → Step s { s with pc := .idle }
  | recv {s : AsyncWatch} {r : RecvResult} {n : Nat} : s.pc = .draining → Recv s.socket r n →
      Step s { s with socket := n, pc := if drainContinues r then .draining else .drained }
  | clearReady {s : AsyncWatch} (keep : Bool) : s.pc = .drained →
      Step s { s with pc := .cleared, ready := keep && s.ready }
  | startListing {s : AsyncWatch} : s.pc = .cleared →
      Step s { s with os := s.os.beginRead, pc := .listing }
  | endListing {s : AsyncWatch} (r : Option IfList) : s.pc = .listing → s.os.Reads r →
      Step s { s with pc := .listed r }
  | absorb {s : AsyncWatch} {r : Option IfList} : s.pc = .listed r → Step s (s.absorb r)
  | complete {s : AsyncWatch} {u : Update} : s.pc = .returning u →
      Step s { s with pc := .idle, delivered := s.delivered ++ [u] }

/-- Runs start when the event socket is open, with any OS state and any events under way. -/
def system : Sys AsyncWatch where
  init s := s.pc = .opened ∧ s.cursor = .default ∧ s.initialUpdate = none ∧
    s.readinessFailed = false ∧ s.produced = [] ∧ s.delivered = []
  step := Step

/-! ## The async watcher re-reads on the ready flag -/

/-- As `Refresh` sees it: the ready flag is the signal, and `clear_ready` is where it is discarded. -/
def Pc.phase (prevList : IfList) : Pc → Phase IfList
  | .opened | .registered | .failed | .draining | .drained | .cleared => .stale
  | .firstListing | .listing => .reading
  | .firstListed r | .listed r => .loaded r
  | .idle | .suspended | .pending | .returning _ => .idle prevList

def AsyncWatch.refresh (s : AsyncWatch) : Refresh.St IfList where
  val := s.os
  signal := s.ready
  phase := s.pc.phase s.cursor.prevList

theorem later_absorb (s : AsyncWatch) (r : Option IfList) :
    Later (Refresh.system IfList) ⟨s.os, s.ready, .loaded r⟩ (s.absorb r).refresh := by
  cases r with
  | none => exact later_giveUp _
  | some l =>
    simp only [AsyncWatch.absorb, AsyncWatch.refresh, UpdateCursor.advance_prevList]
    split <;> exact later_install l

/-- **The async watcher refines `Refresh`.** -/
theorem Step.refines {s s' : AsyncWatch} (h : Step s s') :
    Later (Refresh.system IfList) s.refresh s'.refresh := by
  cases h with
  | change l => exact .single (.change l)
  | arrive k => exact .single (.raise k)
  | spurious => exact .single (.raise 0)
  | register ready hp =>
    unfold AsyncWatch.refresh; rw [hp]; exact .single (.consume ready rfl)
  | registerFails hp => unfold AsyncWatch.refresh; rw [hp]; exact .refl
  | startFirst hp => unfold AsyncWatch.refresh; rw [hp]; exact .single (.start rfl)
  | endFirst r hp hr => unfold AsyncWatch.refresh; rw [hp]; exact .single (.finish r rfl hr)
  | firstFails hp =>
    unfold AsyncWatch.refresh; rw [hp]; exact (later_giveUp ∅).trans (later_wake ∅)
  | @firstAdvance l hp =>
    unfold AsyncWatch.refresh; rw [hp]
    simp only [AsyncWatch.firstAdvance, UpdateCursor.advance_prevList]
    exact later_install l
  | takeInitial hp _ => exact .refl
  | pollFailed hp _ _ => unfold AsyncWatch.refresh; rw [hp]; exact .refl
  | pollFresh hp _ _ => unfold AsyncWatch.refresh; rw [hp]; exact .refl
  | readable hp _ => unfold AsyncWatch.refresh; rw [hp]; exact later_wake _
  | readableFails hp => unfold AsyncWatch.refresh; rw [hp]; exact .refl
  | drop hp =>
    unfold AsyncWatch.refresh
    rcases hp with hp | hp <;> rw [hp] <;> exact .refl
  | recv hp _ =>
    unfold AsyncWatch.refresh; rw [hp]
    split <;> exact .refl
  | clearReady keep hp => unfold AsyncWatch.refresh; rw [hp]; exact .single (.consume _ rfl)
  | startListing hp => unfold AsyncWatch.refresh; rw [hp]; exact .single (.start rfl)
  | endListing r hp hr => unfold AsyncWatch.refresh; rw [hp]; exact .single (.finish r rfl hr)
  | @absorb r hp =>
    have : s.refresh = ⟨s.os, s.ready, .loaded r⟩ := by unfold AsyncWatch.refresh; rw [hp]; rfl
    rw [this]
    exact later_absorb s r
  | complete hp => unfold AsyncWatch.refresh; rw [hp]; exact .refl

theorem reach_refresh {s : AsyncWatch} (r : Reach system s) :
    Reach (Refresh.system IfList) s.refresh := by
  obtain ⟨a, ha, rfl⟩ := r.simulate (R := fun s a => s.refresh = a) (A := Refresh.system IfList)
    (fun s h => ⟨_, by simp [Refresh.system, AsyncWatch.refresh, h.1, Pc.phase], rfl⟩)
    (fun s s' a _ hR h => ⟨_, hR ▸ Step.refines h, rfl⟩)
  exact ha

/-! ## Cancellation loses no update -/

/-- The update a poll is about to complete with. -/
def Pc.unsent : Pc → List Update
  | .returning u => [u]
  | _ => []

structure SentInv (s : AsyncWatch) : Prop where
  /-- Nothing produced is lost: it was delivered, is being returned by this poll, or is parked. -/
  sent : s.produced = s.delivered ++ s.pc.unsent ++ s.initialUpdate.toList
  unparked : s.pc ≠ .idle → s.initialUpdate = none

/-- A step that moves no update from one place to another. -/
theorem SentInv.frame {s s' : AsyncWatch} (ih : SentInv s) (hp : s'.produced = s.produced)
    (hd : s'.delivered = s.delivered) (hi : s'.initialUpdate = s.initialUpdate)
    (hu : s'.pc.unsent = s.pc.unsent) (hn : s'.pc ≠ .idle → s.initialUpdate = none) : SentInv s' where
  sent := by rw [hp, hd, hu, hi]; exact ih.sent
  unparked := fun h => by rw [hi]; exact hn h

/-- The same while a call of `changed`, or the set-up, is running. -/
theorem SentInv.busy {s s' : AsyncWatch} (ih : SentInv s) (h : s.pc ≠ .idle)
    (hu : s'.pc.unsent = s.pc.unsent) (hp : s'.produced = s.produced) (hd : s'.delivered = s.delivered)
    (hi : s'.initialUpdate = s.initialUpdate) : SentInv s' := by
  refine ih.frame hp hd hi hu ?_
  intro _
  exact ih.unparked h

theorem SentInv.step {s s' : AsyncWatch} (ih : SentInv s) (h : Step s s') : SentInv s' := by
  cases h with
  | change l => exact ih.frame rfl rfl rfl rfl ih.unparked
  | arrive k => exact ih.frame rfl rfl rfl rfl ih.unparked
  | spurious => exact ih.frame rfl rfl rfl rfl ih.unparked
  | register ready hp => exact ih.busy (by simp [hp]) (by rw [hp]; rfl) rfl rfl rfl
  | registerFails hp => exact ih.busy (by simp [hp]) (by rw [hp]; rfl) rfl rfl rfl
  | startFirst hp => exact ih.busy (by simp [hp]) (by rw [hp]; rfl) rfl rfl rfl
  | endFirst r hp _ => exact ih.busy (by simp [hp]) (by rw [hp]; rfl) rfl rfl rfl
  | firstFails hp => exact ih.busy (by simp [hp]) (by rw [hp]; rfl) rfl rfl rfl
  | @firstAdvance l hp =>
    have hs := ih.sent
    rw [hp, ih.unparked (by simp [hp])] at hs
    refine ⟨?_, fun h => absurd rfl h⟩
    simp only [AsyncWatch.firstAdvance, hs]
    simp [Pc.unsent]
  | takeInitial hp hi =>
    have hs := ih.sent
    rw [hp, hi] at hs
    refine ⟨?_, fun h => absurd hp h⟩
    simp only [hp, hs]
    simp [Pc.unsent]
  | pollFailed hp hi _ => exact ih.frame rfl rfl rfl (by rw [hp]; rfl) fun _ => hi
  | pollFresh hp hi _ => exact ih.frame rfl rfl rfl (by rw [hp]; rfl) fun _ => hi
  | readable hp _ => exact ih.busy (by simp [hp]) (by rw [hp]; rfl) rfl rfl rfl
  | readableFails hp => exact ih.busy (by simp [hp]) (by rw [hp]; rfl) rfl rfl rfl
  | drop hp =>
    refine ih.frame rfl rfl rfl ?_ fun h => absurd rfl h
    rcases hp with hp | hp <;> rw [hp] <;> rfl
  | recv hp _ =>
    refine ih.frame rfl rfl rfl ?_ fun _ => ih.unparked (by simp [hp])
    rw [hp]; dsimp only; split <;> rfl
  | clearReady keep hp => exact ih.busy (by simp [hp]) (by rw [hp]; rfl) rfl rfl rfl
  | startListing hp => exact ih.busy (by simp [hp]) (by rw [hp]; rfl) rfl rfl rfl
  | endListing r hp _ => exact ih.busy (by simp [hp]) (by rw [hp]; rfl) rfl rfl rfl
  | @absorb r hp =>
    have hi := ih.unparked (by simp [hp])
    have hs := ih.sent
    rw [hp, hi] at hs
    cases r with
    | none => exact ih.frame rfl rfl rfl (by rw [hp]; rfl) fun _ => hi
    | some l =>
      refine ⟨?_, fun _ => hi⟩
      simp only [AsyncWatch.absorb, hi, hs]
      cases (s.cursor.advance l).2 <;> simp [Pc.unsent]
  | @complete u hp =>
    have hs := ih.sent
    rw [hp] at hs
    refine ⟨?_, fun h => absurd rfl h⟩
    simp only [hs, ih.unparked (by simp [hp])]
    simp [Pc.unsent]

theorem sentInv {s : AsyncWatch} (r : Reach system s) : SentInv s := by
  refine r.inv (I := SentInv) ?_ fun _ _ _ ih h => ih.step h
  rintro s ⟨hp, -, hi, -, hpr, hd⟩
  exact ⟨by simp [hp, hi, hpr, hd, Pc.unsent], fun _ => hi⟩

/-! ## No lost change -/

/-- **A suspended `changed` with a clear ready flag and no event owed is up to date, and cancelling
it loses nothing**: wherever a future can be dropped, every update that left the cursor has been
delivered, except an initial one still parked for the next call. -/
theorem suspended_up_to_date {s : AsyncWatch} (r : Reach system s) :
    (s.pc = .suspended → s.ready = false → s.os.owed = 0 → s.cursor.prevList = s.os.cur) ∧
      (s.pc = .idle ∨ s.pc = .suspended ∨ s.pc = .pending →
        s.produced = s.delivered ++ s.initialUpdate.toList) := by
  refine ⟨?_, ?_⟩
  · intro hp hr ho
    exact quiet_idle (reach_refresh r) ⟨ho, hr⟩ (by simp [AsyncWatch.refresh, hp, Pc.phase])
  · intro hp
    have hs := (sentInv r).sent
    rcases hp with hp | hp | hp <;> simpa [hp, Pc.unsent] using hs

/-- A change wakes a suspended `changed`; the drain stops on an error and leaves the event behind,
`clear_ready` clears the flag all the same, and the listing after it sees the change. -/
def leftBehind (l : IfList) : AsyncWatch where
  os := ⟨l, 0, false⟩
  socket := 1
  ready := false
  pc := .suspended
  cursor := ⟨l, false⟩
  initialUpdate := none
  readinessFailed := false
  produced := [IfList.initialUpdate ∅, l.updateFrom ∅]
  delivered := [IfList.initialUpdate ∅, l.updateFrom ∅]

theorem leftBehind_reach {l : IfList} (h : l ≠ ∅) : Reach system (leftBehind l) := by
  let u0 : Update := IfList.initialUpdate ∅
  have r0 : Reach system ⟨⟨∅, 0, false⟩, 0, false, .opened, .default, none, false, [], []⟩ :=
    .init ⟨rfl, rfl, rfl, rfl, rfl, rfl⟩
  have r1 := ((r0.step (.register false rfl)).step (.startFirst rfl)).step
    (.endFirst (some ∅) rfl fun _ => rfl)
  have r2 : Reach system ⟨⟨∅, 0, false⟩, 0, false, .suspended, ⟨∅, false⟩, none, false, [u0], [u0]⟩ :=
    ((r1.step (.firstAdvance rfl)).step (.takeInitial rfl rfl)).step (.pollFresh rfl rfl rfl)
  have r3 := (((r2.step (.change l)).step (.arrive 1)).step (.readable rfl rfl)).step
    (.recv rfl (.err 1))
  have r4 : Reach system
      ⟨⟨l, 0, false⟩, 1, false, .listed (some l), ⟨∅, false⟩, none, false, [u0], [u0]⟩ :=
    ((r3.step (.clearReady false rfl)).step (.startListing rfl)).step
      (.endListing (some l) rfl fun _ => rfl)
  have r5 : Reach system
      ⟨⟨l, 0, false⟩, 1, false, .returning (l.updateFrom ∅), ⟨l, false⟩, none, false,
        [u0, l.updateFrom ∅], [u0]⟩ := by
    have := r4.step (.absorb rfl)
    simpa [AsyncWatch.absorb, UpdateCursor.advance, h] using this
  exact (r5.step (.complete rfl)).step (.pollFresh rfl rfl rfl)

theorem suspended_up_to_date_eth0 :
    (leftBehind eth0).cursor.prevList = eth0 ∧
      (leftBehind eth0).produced = (leftBehind eth0).delivered :=
  have h := suspended_up_to_date (leftBehind_reach (l := eth0) (by decide))
  ⟨h.1 rfl rfl rfl, (h.2 (.inr (.inl rfl))).trans (List.append_nil _)⟩

end Netwatcher.WatchFdAsync
