import Netwatcher.Lib.Settle
import Netwatcher.Replay
/-!
# The Unix watchers come to rest (`src/watch_fd.rs`, `src/watch_linux.rs`, `src/watch_route.rs`)

Once nothing happens any more, a watcher has a bounded number of steps to go, whatever it was doing:
the drain takes an event out of the socket with each turn, and a round begins with an event in it.
Where it comes to rest it has delivered the interfaces of the moment, if no event is owed.

| here | there |
| --- | --- |
| `Own`  | the loops of `start_watcher_thread` (watch_fd.rs:151-175), `BlockingWatch::changed` (:71), `AsyncWatch::changed` (:39), with `drain_event_socket` (watch_linux.rs:55, watch_route.rs:51) in them |
| `left` | how many steps there are left |
-/
namespace Netwatcher.WatchFd
open Runs Refresh Settle

/-! ## The callback thread and the blocking watch -/

/-- A step of the watcher or its user while nothing else happens: `poll` tells of the socket when there
is an event in it, `recv` fails when there is none, the pipe is open and the callback does not panic. -/
structure Own (s s' : Watcher) : Prop where
  step : Step s s'
  calm : s'.os.cur = s.os.cur ∧ s'.os.owed = s.os.owed ∧ s'.socket ≤ s.socket
  poll : s.pc = .polling → s'.hup = false ∧ s.socket ≠ 0
  recv : s.pc = .draining → s'.socket < s.socket ∨ s.socket = 0
  running : s'.pc ≠ .stopped

/-- The steps of a round left to go with `n` events in the socket; a round with events in it leads to
another. -/
def Pc.left (n : Nat) : Pc → Nat
  | .failed | .stopped => 0
  | .polling => if n = 0 then 0 else 1
  | .draining => if n = 0 then 8 else 0
  | .idle => 2
  | .delivering _ => 4
  | .listed _ => 5
  | .listing => 6
  | .drained => 7
  | .firstListed _ => 8
  | .firstListing => 9
  | .opened => 10

def Watcher.left (s : Watcher) : Nat := 12 * s.socket + s.pc.left s.socket + s.initialUpdate.toList.length

theorem resume_left (s : Watcher) (yielded : Bool) (n : Nat) :
    (s.resume yielded).left n ≤ if yielded then 2 else 1 := by
  unfold Watcher.resume
  cases s.mode <;> cases s.hup <;> cases yielded <;> simp [Pc.left] <;> split <;> omega

theorem absorb_left (s : Watcher) (r : Option IfList) (n : Nat) : (s.absorb r).pc.left n ≤ 4 := by
  simp only [Watcher.absorb]
  split
  · exact le_rfl
  · have := resume_left s false n
    simp only [Bool.false_eq_true, if_false] at this
    omega

theorem firstCallback_left (s : Watcher) (l : IfList) (n : Nat) : (s.firstCallback l).pc.left n ≤ 4 := by
  simp only [Watcher.firstCallback]
  split
  · exact le_rfl
  · exact Nat.zero_le 4

/-- The drain goes on only with an event taken out. -/
theorem Recv.lt_of_continues {m n : Nat} {r : RecvResult} (h : Recv m r n) (hd : drainContinues r = true) :
    n < m := by
  cases h with
  | message n len => exact Nat.lt_succ_self n
  | again => cases hd
  | err n => cases hd

/-- An event is taken out, or there was none and the drain ends. -/
theorem drain_left {n m : Nat} {continues : Bool} (h : n < m ∨ m = 0 ∧ n = 0 ∧ continues = false) :
    12 * n + Pc.left n (if continues then .draining else .drained) < 12 * m + Pc.left m .draining := by
  cases continues <;> simp only [if_true, if_false, Bool.false_eq_true, Pc.left] <;> grind

/-- **A step brings the watcher nearer to rest.** -/
theorem Own.left {s s' : Watcher} (h : Own s s') : s'.left < s.left := by
  have hcalm := h.calm
  have hpoll := h.poll
  have hrecv := h.recv
  cases h.step with
  | change l => simp [Tracked.change] at hcalm
  | arrive k =>
    have hle : s.socket + 1 ≤ s.socket := hcalm.2.2
    omega
  | startFirst hp | endFirst r hp _ | firstFails hp | pipeFails _ hp => simp [Watcher.left, hp, Pc.left]
  | @firstCallback l _ hp =>
    have hl := firstCallback_left s l s.socket
    have hs : s.left = 12 * s.socket + 8 + s.initialUpdate.toList.length := by simp [Watcher.left, hp, Pc.left]
    have hs' : (s.firstCallback l).left =
        12 * s.socket + (s.firstCallback l).pc.left s.socket + s.initialUpdate.toList.length := rfl
    omega
  | @firstBlocking l _ hp =>
    have hle : (s.cursor.advance l).2.toList.length ≤ 1 := by cases (s.cursor.advance l).2 <;> simp
    have hs : s.left = 12 * s.socket + 8 + s.initialUpdate.toList.length := by simp [Watcher.left, hp, Pc.left]
    have hs' : (s.firstBlocking l).left = 12 * s.socket + 2 + (s.cursor.advance l).2.toList.length := rfl
    omega
  | takeInitial hp hi => simp [Watcher.left, hp, Pc.left, hi]
  | callChanged hp hi =>
    simp only [Watcher.left, hp, Pc.left, hi]
    split <;> omega
  | pollSocket hup hp _ =>
    have := (hpoll hp).2
    simp [Watcher.left, hp, Pc.left, this]
  | pollPipe _ hp => exact absurd rfl h.running
  | @recv r n hp hr =>
    have hle : n ≤ s.socket := hcalm.2.2
    have hn : n < s.socket ∨ s.socket = 0 ∧ n = 0 ∧ drainContinues r = false := by
      rcases hrecv hp with hlt | h0
      · exact .inl hlt
      · rw [h0] at hr hle
        refine .inr ⟨h0, by omega, ?_⟩
        cases hr <;> rfl
    have hs : s.left = 12 * s.socket + Pc.left s.socket .draining + s.initialUpdate.toList.length := by
      rw [Watcher.left, hp]
    rw [hs]
    exact Nat.add_lt_add_right (drain_left hn) _
  | startListing hp | endListing r hp _ => simp [Watcher.left, hp, Pc.left]
  | @absorb r hp =>
    have hl := absorb_left s r s.socket
    have hs : s.left = 12 * s.socket + 5 + s.initialUpdate.toList.length := by simp [Watcher.left, hp, Pc.left]
    have hs' : (s.absorb r).left =
        12 * s.socket + (s.absorb r).pc.left s.socket + s.initialUpdate.toList.length := rfl
    omega
  | @deliver u hp =>
    have hl := resume_left s true s.socket
    rw [if_pos rfl] at hl
    have hs : s.left = 12 * s.socket + 4 + s.initialUpdate.toList.length := by simp [Watcher.left, hp, Pc.left]
    have hs' : ({ s with delivered := s.delivered ++ [u], pc := s.resume true } : Watcher).left =
        12 * s.socket + (s.resume true).left s.socket + s.initialUpdate.toList.length := rfl
    omega
  | panic _ hp => exact absurd rfl h.running

/-- The pipe is looked at in `poll` only. -/
theorem Own.hup {s s' : Watcher} (h : Own s s') (hh : s.hup = false) : s'.hup = false := by
  have hpoll := h.poll
  cases h.step with
  | pollSocket hup hp _ => exact (hpoll hp).1
  | _ => exact hh

/-- A watcher that runs and whose pipe is open can go on, unless it is in `poll` with an empty socket. -/
theorem exists_own {s : Watcher} (hpc : s.pc ≠ .stopped) (hh : s.hup = false) :
    (∃ s', Own s s') ∨ s.pc = .failed ∨ (s.pc = .polling ∧ s.socket = 0) := by
  -- a step that touches neither the OS nor the socket
  have quiet {s' : Watcher} (hs : Step s s') (hcur : s'.os.cur = s.os.cur) (howed : s'.os.owed = s.os.owed)
      (hsock : s'.socket = s.socket) (hp : s.pc ≠ .polling) (hd : s.pc ≠ .draining)
      (hr : s'.pc ≠ .stopped) : Own s s' :=
    ⟨hs, ⟨hcur, howed, hsock.le⟩, fun h => absurd h hp, fun h => absurd h hd, hr⟩
  have resumes (yielded : Bool) : s.resume yielded ≠ .stopped := by
    unfold Watcher.resume
    cases s.mode <;> cases yielded <;> simp [hh]
  cases hp : s.pc with
  | failed => exact .inr (.inl rfl)
  | stopped => exact absurd hp hpc
  | opened => exact .inl ⟨_, quiet (.startFirst hp) rfl rfl rfl (by simp [hp]) (by simp [hp]) (by simp)⟩
  | firstListing =>
    have hs : Step s { s with pc := .firstListed (some s.os.cur) } := .endFirst _ hp fun _ => rfl
    exact .inl ⟨_, quiet hs rfl rfl rfl (by simp [hp]) (by simp [hp]) (by simp)⟩
  | firstListed r =>
    cases r with
    | none => exact .inl ⟨_, quiet (.firstFails hp) rfl rfl rfl (by simp [hp]) (by simp [hp]) (by simp)⟩
    | some l =>
      cases hm : s.mode with
      | callback =>
        refine .inl ⟨_, quiet (.firstCallback hm hp) rfl rfl rfl (by simp [hp]) (by simp [hp]) ?_⟩
        simp only [Watcher.firstCallback]
        split <;> simp
      | blocking =>
        exact .inl ⟨_, quiet (.firstBlocking hm hp) rfl rfl rfl (by simp [hp]) (by simp [hp])
          (by simp [Watcher.firstBlocking])⟩
  | idle =>
    cases hi : s.initialUpdate with
    | none => exact .inl ⟨_, quiet (.callChanged hp hi) rfl rfl rfl (by simp [hp]) (by simp [hp]) (by simp)⟩
    | some u =>
      exact .inl ⟨_, quiet (.takeInitial hp hi) rfl rfl rfl (by simp [hp]) (by simp [hp]) (by simp [hp])⟩
  | polling =>
    by_cases h0 : s.socket = 0
    · exact .inr (.inr ⟨rfl, h0⟩)
    · refine .inl ⟨_, .pollSocket false hp fun _ => rfl, ⟨rfl, rfl, le_rfl⟩, fun _ => ⟨rfl, h0⟩, ?_,
        by simp⟩
      intro hd
      rw [hp] at hd
      cases hd
  | draining =>
    have hno : s.pc ≠ .polling := by simp [hp]
    cases h0 : s.socket with
    | zero =>
      have hr : Recv s.socket .eagain 0 := h0 ▸ .again
      exact .inl ⟨_, .recv hp hr, ⟨rfl, rfl, Nat.zero_le _⟩, fun h => absurd h hno, fun _ => .inr h0,
        by simp [drainContinues]⟩
    | succ n =>
      have hr : Recv s.socket (.ok 1) n := h0 ▸ .message n 1
      have hlt : n < s.socket := by omega
      exact .inl ⟨_, .recv hp hr, ⟨rfl, rfl, hlt.le⟩, fun h => absurd h hno, fun _ => .inl hlt,
        by simp [drainContinues]⟩
  | drained => exact .inl ⟨_, quiet (.startListing hp) rfl rfl rfl (by simp [hp]) (by simp [hp]) (by simp)⟩
  | listing =>
    have hs : Step s { s with pc := .listed (some s.os.cur) } := .endListing _ hp fun _ => rfl
    exact .inl ⟨_, quiet hs rfl rfl rfl (by simp [hp]) (by simp [hp]) (by simp)⟩
  | listed r =>
    refine .inl ⟨_, quiet (.absorb hp) rfl rfl rfl (by simp [hp]) (by simp [hp]) ?_⟩
    simp only [Watcher.absorb]
    split
    · simp
    · exact resumes false
  | delivering u =>
    exact .inl ⟨_, quiet (.deliver hp) rfl rfl rfl (by simp [hp]) (by simp [hp]) (resumes true)⟩

/-- Where a watcher that cannot go on is: its set-up has failed, or it waits in `poll` and, if no event
is owed, has delivered `cur`. -/
def Rest (cur : IfList) (owed : Nat) (s : Watcher) : Prop :=
  s.pc = .failed ∨ (s.pc = .polling ∧ s.socket = 0 ∧
    (owed = 0 → s.delivered = s.produced ∧ lastInterfaces s.delivered = some cur))

theorem delivered_of_polling {mode : Mode} {s : Watcher} (r : Reach (system mode) s) (hp : s.pc = .polling)
    (hs : s.socket = 0) (ho : s.os.owed = 0) :
    s.delivered = s.produced ∧ lastInterfaces s.delivered = some s.os.cur := by
  have inv := logInv r
  have hcur : s.cursor.prevList = s.os.cur :=
    quiet_idle (reach_refresh r) ⟨ho, by simp [Watcher.refresh, hs]⟩ (by simp [Watcher.refresh, hp, Pc.phase])
  have hd : s.delivered = s.produced := by
    have hu := undelivered_of_polling r hp
    rw [inv.sent, List.append_assoc]
    exact (by rw [Watcher.undelivered] at hu; rw [hu, List.append_nil])
  exact ⟨hd, by rw [hd, inv.linked.2.2 (inv.begun (by rw [hp]; rfl)), hcur]⟩

theorem left_le (s : Watcher) : s.left ≤ 12 * s.socket + 11 := by
  have hpc : s.pc.left s.socket ≤ 10 := by
    cases s.pc <;> simp only [Pc.left] <;> first | omega | (split <;> omega)
  have hi : s.initialUpdate.toList.length ≤ 1 := by cases s.initialUpdate <;> simp
  unfold Watcher.left
  omega

/-- **The callback thread and the blocking watch settle**: left to itself a watcher takes a bounded
number of steps, and is back in `poll` with the interfaces of the moment delivered. -/
theorem watchers_settle {mode : Mode} {s : Watcher} (r : Reach (system mode) s) (hpc : s.pc ≠ .stopped)
    (hh : s.hup = false) : Settles Own (Rest s.os.cur s.os.owed) s (12 * s.socket + 11) := by
  -- the OS stays as it is
  let I (t : Watcher) : Prop := Reach (system mode) t ∧ t.pc ≠ .stopped ∧ t.hup = false ∧
    t.os.cur = s.os.cur ∧ t.os.owed = s.os.owed
  have hstep : ∀ t t', I t → Own t t' → I t' ∧ t'.left < t.left := by
    rintro t t' ⟨rt, hpt, hht, hct, hot⟩ h
    exact ⟨⟨rt.step h.step, h.running, h.hup hht, h.calm.1.trans hct, h.calm.2.1.trans hot⟩, h.left⟩
  refine (settles_of_measure hstep ?_ ⟨r, hpc, hh, rfl, rfl⟩).mono (left_le s)
  rintro t ⟨rt, hpt, hht, hct, hot⟩
  rcases exists_own hpt hht with h | hf | ⟨hp, hs⟩
  · exact .inl h
  · exact .inr (.inl hf)
  · refine .inr (.inr ⟨hp, hs, ?_⟩)
    intro ho
    have := delivered_of_polling rt hp hs (hot.trans ho)
    rwa [hct] at this

/-- An event that follows no change has reached the socket of a watcher in `poll`. -/
theorem watchers_settle_eth0 : Settles Own (Rest eth0 0) { caughtUp eth0 with socket := 1 } 23 := by
  have r : Reach (system .callback) (caughtUp eth0) := caughtUp_reach (by decide)
  exact watchers_settle (r.step (.arrive 0)) nofun rfl

end Netwatcher.WatchFd

/-! ## The async watch -/

namespace Netwatcher.WatchFdAsync
open Runs Refresh Settle Netwatcher.WatchFd

/-- A step of the watch or its user while nothing else happens: no readiness is made up, `readable` does
not fail, `clear_ready` clears, and a future that has been polled is polled until it completes. -/
structure Own (s s' : AsyncWatch) : Prop where
  step : Step s s'
  moves : s' ≠ s
  calm : s'.os.cur = s.os.cur ∧ s'.os.owed = s.os.owed ∧ s'.socket ≤ s.socket
  ready : s'.ready = true → s.ready = true
  clear : s.pc = .drained → s'.ready = false
  readable : s.pc = .suspended → s'.pc = .draining
  kept : s.pc ≠ .pending

/-- The steps of a round left to go, with `n` events in the socket. -/
def Pc.left (n : Nat) : Pc → Nat
  | .failed | .pending | .suspended => 0
  | .idle => 1
  | .returning _ => 3
  | .listed _ => 4
  | .listing => 5
  | .cleared => 6
  | .drained => 7
  | .draining => n + 8
  | .firstListed _ => 9
  | .firstListing => 10
  | .registered => 11
  | .opened => 12

/-- A ready flag is good for another round, unless it is about to be cleared. -/
def Pc.again (n : Nat) (ready : Bool) : Pc → Nat
  | .draining | .drained => 0
  | _ => if ready then n + 10 else 0

def AsyncWatch.left (s : AsyncWatch) : Nat :=
  s.pc.left s.socket + s.pc.again s.socket s.ready + s.initialUpdate.toList.length

theorem again_mono {pc pc' : Pc} {n n' : Nat} {b b' : Bool} (h : pc ≠ .draining ∧ pc ≠ .drained)
    (hn : n' ≤ n) (hb : b' = true → b = true) : pc'.again n' b' ≤ pc.again n b := by
  have hpc : pc.again n b = if b then n + 10 else 0 := by
    cases pc <;> first | rfl | exact absurd rfl h.1 | exact absurd rfl h.2
  have hpc' : pc'.again n' b' ≤ if b' then n' + 10 else 0 := by cases pc' <;> simp [Pc.again]
  rw [hpc]
  grind

/-- A step to a later stage of the round. -/
theorem left_lt {s s' : AsyncWatch} (h : Own s s') (hpc : s.pc ≠ .draining ∧ s.pc ≠ .drained)
    (hlt : s'.pc.left s'.socket + s'.initialUpdate.toList.length <
      s.pc.left s.socket + s.initialUpdate.toList.length) : s'.left < s.left := by
  have : s'.pc.again s'.socket s'.ready ≤ s.pc.again s.socket s.ready :=
    again_mono hpc h.calm.2.2 h.ready
  unfold AsyncWatch.left
  omega

theorem Own.left {s s' : AsyncWatch} (h : Own s s') : s'.left < s.left := by
  have hcalm := h.calm
  cases h.step with
  | change l => simp [Tracked.change] at hcalm
  | arrive k =>
    have hle : s.socket + 1 ≤ s.socket := hcalm.2.2
    omega
  | spurious =>
    have hr : s.ready = true := h.ready rfl
    exact absurd (by rw [← hr]) h.moves
  | register ready hp | registerFails hp | startFirst hp | endFirst r hp _ | firstFails hp =>
    exact left_lt h (by simp [hp]) (by simp [hp, Pc.left])
  | @firstAdvance l hp =>
    have hle : (s.cursor.advance l).2.toList.length ≤ 1 := by cases (s.cursor.advance l).2 <;> simp
    refine left_lt h (by simp [hp]) ?_
    change 1 + (s.cursor.advance l).2.toList.length < _
    simp only [hp, Pc.left]
    omega
  | takeInitial hp hi => exact left_lt h (by simp [hp]) (by simp [hp, hi, Pc.left])
  | pollFailed hp _ _ | pollFresh hp _ _ => exact left_lt h (by simp [hp]) (by simp [hp, Pc.left])
  | readable hp hr => simp [AsyncWatch.left, hp, hr, Pc.left, Pc.again]
  | readableFails hp => cases h.readable hp
  | drop hp =>
    rcases hp with hp | hp
    · cases h.readable hp
    · exact absurd hp h.kept
  | @recv r n hp hr =>
    have hle : n ≤ s.socket := hcalm.2.2
    have hs : s.left = s.socket + 8 + s.initialUpdate.toList.length := by
      simp [AsyncWatch.left, hp, Pc.left, Pc.again]
    rw [hs, AsyncWatch.left]
    cases hd : drainContinues r with
    | true =>
      have := hr.lt_of_continues hd
      simp only [if_true, Pc.left, Pc.again]
      omega
    | false =>
      simp only [Bool.false_eq_true, if_false, Pc.left, Pc.again]
      omega
  | clearReady keep hp =>
    have hr := h.clear hp
    simp only at hr
    simp [AsyncWatch.left, hp, hr, Pc.left, Pc.again]
  | startListing hp | endListing r hp _ => exact left_lt h (by simp [hp]) (by simp [hp, Pc.left])
  | @absorb r hp =>
    have hl : (s.absorb r).pc.left s.socket ≤ 3 := by
      cases r with
      | none => exact Nat.zero_le 3
      | some l =>
        simp only [AsyncWatch.absorb]
        split
        · exact le_rfl
        · exact Nat.zero_le 3
    have hi : (s.absorb r).initialUpdate = s.initialUpdate := by cases r <;> rfl
    have hsock : (s.absorb r).socket = s.socket := by cases r <;> rfl
    refine left_lt h (by simp [hp]) ?_
    rw [hi, hsock, hp]
    exact Nat.add_lt_add_right (Nat.lt_succ_of_le hl) _
  | complete hp => exact left_lt h (by simp [hp]) (by simp [hp, Pc.left])

/-- `readable` goes on without an error. -/
theorem Own.readinessFailed {s s' : AsyncWatch} (h : Own s s') (hf : s.readinessFailed = false) :
    s'.readinessFailed = false ∧ s'.pc ≠ .pending := by
  have hk := h.kept
  cases h.step with
  | change l | arrive k | spurious => exact ⟨hf, hk⟩
  | takeInitial hp _ => exact ⟨hf, by simp [hp]⟩
  | pollFailed hp _ hf' => rw [hf] at hf'; cases hf'
  | readableFails hp => cases h.readable hp
  | @recv r n hp hr =>
    refine ⟨hf, ?_⟩
    dsimp only
    split <;> simp
  | @absorb r hp =>
    cases r with
    | none => exact ⟨hf, by simp [AsyncWatch.absorb]⟩
    | some l =>
      refine ⟨hf, ?_⟩
      simp only [AsyncWatch.absorb]
      split <;> simp
  | @firstAdvance l hp => exact ⟨hf, by simp [AsyncWatch.firstAdvance]⟩
  | _ => exact ⟨hf, by simp⟩

/-- A watch whose `readable` has not failed can go on, unless it is suspended with a clear flag. -/
theorem exists_own {s : AsyncWatch} (hf : s.readinessFailed = false) (hk : s.pc ≠ .pending) :
    (∃ s', Own s s') ∨ s.pc = .failed ∨ (s.pc = .suspended ∧ s.ready = false) := by
  have moved {s' : AsyncWatch} (hm : s'.pc ≠ s.pc) : s' ≠ s := fun he => hm (congrArg _ he)
  -- a step that touches neither the OS nor the flag
  have quiet {s' : AsyncWatch} (hs : Step s s') (hcur : s'.os.cur = s.os.cur) (howed : s'.os.owed = s.os.owed)
      (hsock : s'.socket ≤ s.socket) (hr : s'.ready = s.ready) (hm : s'.pc ≠ s.pc) (hd : s.pc ≠ .drained)
      (hp : s.pc ≠ .suspended) : Own s s' :=
    ⟨hs, moved hm, ⟨hcur, howed, hsock⟩, fun h => hr ▸ h, fun h => absurd h hd,
      fun h => absurd h hp, hk⟩
  cases hp : s.pc with
  | failed => exact .inr (.inl rfl)
  | pending => exact absurd hp hk
  | opened =>
    exact .inl ⟨_, .register false hp, moved (by simp [hp]), ⟨rfl, rfl, le_rfl⟩, by simp, by simp [hp],
      by simp [hp], hk⟩
  | registered =>
    exact .inl ⟨_, quiet (.startFirst hp) rfl rfl le_rfl rfl (by simp [hp]) (by simp [hp]) (by simp [hp])⟩
  | firstListing =>
    have hs : Step s { s with pc := .firstListed (some s.os.cur) } := .endFirst _ hp fun _ => rfl
    exact .inl ⟨_, quiet hs rfl rfl le_rfl rfl (by simp [hp]) (by simp [hp]) (by simp [hp])⟩
  | firstListed r =>
    cases r with
    | none =>
      exact .inl ⟨_, quiet (.firstFails hp) rfl rfl le_rfl rfl (by simp [hp]) (by simp [hp]) (by simp [hp])⟩
    | some l =>
      have hm : (s.firstAdvance l).pc ≠ s.pc := by
        rw [hp]
        simp [AsyncWatch.firstAdvance]
      exact .inl ⟨_, quiet (.firstAdvance hp) rfl rfl le_rfl rfl hm (by simp [hp]) (by simp [hp])⟩
  | idle =>
    cases hi : s.initialUpdate with
    | none =>
      exact .inl ⟨_, quiet (.pollFresh hp hi hf) rfl rfl le_rfl rfl (by simp [hp]) (by simp [hp])
        (by simp [hp])⟩
    | some u =>
      refine .inl ⟨_, .takeInitial hp hi, ?_, ⟨rfl, rfl, le_rfl⟩, id, ?_, ?_, hk⟩
      · intro he
        cases hi.symm.trans (congrArg AsyncWatch.initialUpdate he).symm
      · simp [hp]
      · simp [hp]
  | suspended =>
    cases hr : s.ready with
    | false => exact .inr (.inr ⟨rfl, rfl⟩)
    | true =>
      exact .inl ⟨_, .readable hp hr, moved (by simp [hp]), ⟨rfl, rfl, le_rfl⟩, id, by simp [hp],
        fun _ => rfl, hk⟩
  | draining =>
    have hs : s.pc ≠ .suspended := by simp [hp]
    have hd : s.pc ≠ .drained := by simp [hp]
    cases h0 : s.socket with
    | zero =>
      have hr : Recv s.socket .eagain 0 := h0 ▸ .again
      exact .inl ⟨_, quiet (.recv hp hr) rfl rfl (Nat.zero_le _) rfl (by simp [hp, drainContinues]) hd hs⟩
    | succ n =>
      have hr : Recv s.socket (.ok 1) n := h0 ▸ .message n 1
      have hlt : n < s.socket := by omega
      refine .inl ⟨_, .recv hp hr, ?_, ⟨rfl, rfl, hlt.le⟩, id, fun h => absurd h hd,
        fun h => absurd h hs, hk⟩
      intro he
      exact hlt.ne (congrArg AsyncWatch.socket he)
  | drained =>
    exact .inl ⟨_, .clearReady false hp, moved (by simp [hp]), ⟨rfl, rfl, le_rfl⟩, by simp,
      fun _ => rfl, by simp [hp], hk⟩
  | cleared =>
    exact .inl ⟨_, quiet (.startListing hp) rfl rfl le_rfl rfl (by simp [hp]) (by simp [hp]) (by simp [hp])⟩
  | listing =>
    have hs : Step s { s with pc := .listed (some s.os.cur) } := .endListing _ hp fun _ => rfl
    exact .inl ⟨_, quiet hs rfl rfl le_rfl rfl (by simp [hp]) (by simp [hp]) (by simp [hp])⟩
  | listed r =>
    have hm : (s.absorb r).pc ≠ s.pc := by
      rw [hp]
      cases r with
      | none => simp [AsyncWatch.absorb]
      | some l =>
        simp only [AsyncWatch.absorb]
        split <;> simp
    refine .inl ⟨_, quiet (.absorb hp) ?_ ?_ ?_ ?_ hm (by simp [hp]) (by simp [hp])⟩ <;> cases r <;> rfl
  | returning u =>
    exact .inl ⟨_, quiet (.complete hp) rfl rfl le_rfl rfl (by simp [hp]) (by simp [hp]) (by simp [hp])⟩

/-- The first snapshot has gone through the cursor. -/
def Pc.begun : Pc → Bool
  | .opened | .registered | .firstListing | .firstListed _ | .failed => false
  | _ => true

theorem begun {s : AsyncWatch} (r : Reach system s) (h : s.pc.begun = true) : s.cursor.initialPending = false := by
  refine r.inv (I := fun s => s.pc.begun = true → s.cursor.initialPending = false) ?_ ?_ h
  · rintro s ⟨hp, -⟩ h
    rw [hp] at h
    cases h
  · intro s s' _ ih hs h
    cases hs with
    | change l | arrive k | spurious => exact ih h
    | @firstAdvance l hp => exact s.cursor.advance_initialPending l
    | @absorb l hp =>
      cases l with
      | none => exact ih (by rw [hp]; rfl)
      | some l => exact s.cursor.advance_initialPending l
    | register ready hp | registerFails hp | startFirst hp | endFirst l hp _ | firstFails hp => cases h
    | drop hp => exact ih (by rcases hp with hp | hp <;> rw [hp] <;> rfl)
    | takeInitial hp _ | pollFailed hp _ _ | pollFresh hp _ _ | readable hp _ | readableFails hp | recv hp _
      | clearReady keep hp | startListing hp | endListing l hp _ | complete hp => exact ih (by rw [hp]; rfl)

/-- From then on the last update produced is the cursor's list. -/
theorem lastInterfaces_produced {s : AsyncWatch} (r : Reach system s) (h : s.pc.begun = true) :
    lastInterfaces s.produced = some s.cursor.prevList := by
  have hd : Digested (fun _ => True) s.view := by
    refine r.inv (I := fun s => Digested (fun _ => True) s.view) ?_ ?_
    · rintro s ⟨-, hc, -, -, hp, -⟩
      rw [AsyncWatch.view, hc, hp]
      exact .default
    · intro s s' _ ih hs
      exact ih.step hs.view fun _ _ => trivial
  exact hd.linked.2.2 (begun r h)

theorem delivered_of_suspended {s : AsyncWatch} (r : Reach system s) (hp : s.pc = .suspended)
    (hr : s.ready = false) (ho : s.os.owed = 0) :
    s.delivered = s.produced ∧ lastInterfaces s.delivered = some s.os.cur := by
  have hcur : s.cursor.prevList = s.os.cur :=
    quiet_idle (reach_refresh r) ⟨ho, hr⟩ (by simp [AsyncWatch.refresh, hp, Pc.phase])
  have hd : s.delivered = s.produced := by
    have hu := undelivered_of_suspended r hp
    rw [AsyncWatch.undelivered] at hu
    rw [(sentInv r).sent, List.append_assoc, hu, List.append_nil]
  exact ⟨hd, by rw [hd, lastInterfaces_produced r (by rw [hp]; rfl), hcur]⟩

/-- Where a watch that cannot go on is: its set-up has failed, or a call of `changed` is suspended and,
if no event is owed, `cur` has been returned. -/
def Rest (cur : IfList) (owed : Nat) (s : AsyncWatch) : Prop :=
  s.pc = .failed ∨ (s.pc = .suspended ∧ s.ready = false ∧
    (owed = 0 → s.delivered = s.produced ∧ lastInterfaces s.delivered = some cur))

theorem left_le (s : AsyncWatch) : s.left ≤ 2 * s.socket + 23 := by
  have hpc : s.pc.left s.socket + s.pc.again s.socket s.ready ≤ 2 * s.socket + 22 := by
    cases s.pc <;> cases s.ready <;> simp [Pc.left, Pc.again] <;> omega
  have hi : s.initialUpdate.toList.length ≤ 1 := by cases s.initialUpdate <;> simp
  unfold AsyncWatch.left
  omega

/-- **The async watch settles**: left to itself it takes a bounded number of steps, and is suspended
with the interfaces of the moment returned. -/
theorem async_settles {s : AsyncWatch} (r : Reach system s) (hf : s.readinessFailed = false)
    (hk : s.pc ≠ .pending) : Settles Own (Rest s.os.cur s.os.owed) s (2 * s.socket + 23) := by
  let I (t : AsyncWatch) : Prop := Reach system t ∧ t.readinessFailed = false ∧ t.pc ≠ .pending ∧
    t.os.cur = s.os.cur ∧ t.os.owed = s.os.owed
  have hstep : ∀ t t', I t → Own t t' → I t' ∧ t'.left < t.left := by
    rintro t t' ⟨rt, hft, hkt, hct, hot⟩ h
    obtain ⟨hf', hk'⟩ := h.readinessFailed hft
    exact ⟨⟨rt.step h.step, hf', hk', h.calm.1.trans hct, h.calm.2.1.trans hot⟩, h.left⟩
  refine (settles_of_measure hstep ?_ ⟨r, hf, hk, rfl, rfl⟩).mono (left_le s)
  rintro t ⟨rt, hft, hkt, hct, hot⟩
  rcases exists_own hft hkt with h | hfail | ⟨hp, hr⟩
  · exact .inl h
  · exact .inr (.inl hfail)
  · refine .inr (.inr ⟨hp, hr, ?_⟩)
    intro ho
    have := delivered_of_suspended rt hp hr (hot.trans ho)
    rwa [hct] at this

/-- An event that follows no change has reached the socket of a suspended `changed`. -/
theorem async_settles_eth0 :
    Settles Own (Rest eth0 0) { leftBehind eth0 with socket := 2, ready := true } 27 :=
  async_settles ((leftBehind_reach (by decide)).step (.arrive 0)) rfl nofun

/-! ### When the adapter fails -/

/-- The watch has given up: no call of `changed` gets past its first lines. -/
def GivenUp (s : AsyncWatch) : Prop := (s.pc = .idle ∨ s.pc = .pending) ∧ s.initialUpdate = none

theorem givenUp {s : AsyncWatch} (r : Reach system s) (h : s.readinessFailed = true) : GivenUp s := by
  refine r.inv (I := fun s => s.readinessFailed = true → GivenUp s) ?_ ?_ h
  · rintro s ⟨-, -, -, hf, -⟩ h
    rw [hf] at h
    cases h
  · intro s s' r ih hs h
    have away {p : Prop} (h : s.readinessFailed = true) (hp : s.pc ≠ .idle) (hp' : s.pc ≠ .pending) : p := by
      rcases (ih h).1 with hpc | hpc
      · exact absurd hpc hp
      · exact absurd hpc hp'
    cases hs with
    | change l | arrive k | spurious => exact ih h
    | takeInitial hp hi => exact ⟨.inl hp, rfl⟩
    | pollFailed hp hi _ => exact ⟨.inr rfl, hi⟩
    | pollFresh hp hi hf => rw [hf] at h; cases h
    | readableFails hp => exact ⟨.inr rfl, (sentInv r).unparked (by simp [hp])⟩
    | drop hp => exact ⟨.inl rfl, (sentInv r).unparked (by rcases hp with hp | hp <;> simp [hp])⟩
    | @absorb l hp =>
      have hf : (s.absorb l).readinessFailed = s.readinessFailed := by cases l <;> rfl
      exact away (hf ▸ h) (by simp [hp]) (by simp [hp])
    | register ready hp | registerFails hp | startFirst hp | endFirst l hp _ | firstFails hp | firstAdvance hp
      | readable hp _ | recv hp _ | clearReady keep hp | startListing hp | endListing l hp _ | complete hp =>
      exact away h (by simp [hp]) (by simp [hp])

/-- What is left of a watch that has given up: futures that never complete. -/
theorem GivenUp.step {s s' : AsyncWatch} (h : GivenUp s) (hf : s.readinessFailed = true) (hs : Step s s') :
    s'.readinessFailed = true ∧ s'.cursor = s.cursor ∧ s'.delivered = s.delivered ∧ s.socket ≤ s'.socket := by
  obtain ⟨hpc, hi⟩ := h
  have away {p : Prop} {pc : Pc} (hp : s.pc = pc) (hp' : pc ≠ .idle ∧ pc ≠ .pending) : p := by
    rcases hpc with hpc | hpc
    · exact absurd (hp.symm.trans hpc) hp'.1
    · exact absurd (hp.symm.trans hpc) hp'.2
  cases hs with
  | change l | spurious => exact ⟨hf, rfl, rfl, le_rfl⟩
  | arrive k => exact ⟨hf, rfl, rfl, Nat.le_succ _⟩
  | takeInitial hp hi' => rw [hi] at hi'; cases hi'
  | pollFailed hp _ _ | drop hp => exact ⟨hf, rfl, rfl, le_rfl⟩
  | pollFresh hp _ hf' => rw [hf] at hf'; cases hf'
  | register ready hp | registerFails hp | startFirst hp | endFirst l hp _ | firstFails hp | firstAdvance hp
    | readable hp _ | readableFails hp | recv hp _ | clearReady keep hp | startListing hp | endListing l hp _
    | absorb hp | complete hp => exact away hp ⟨nofun, nofun⟩

/-- **A failure of `readable` is final**, and costs no update that the cursor has emitted: those have
been returned. Nothing is returned any more, nothing listed, and no event taken out of the socket. -/
theorem readiness_failure_final {s : AsyncWatch} (r : Reach system s) (hf : s.readinessFailed = true) :
    s.delivered = s.produced ∧
      ∀ s', Later system s s' → s'.readinessFailed = true ∧ s'.cursor = s.cursor ∧
        s'.delivered = s.delivered ∧ s.socket ≤ s'.socket ∧ (s'.pc = .idle ∨ s'.pc = .pending) := by
  have hg := givenUp r hf
  refine ⟨?_, ?_⟩
  · have hu : s.pc.unsent = [] := by rcases hg.1 with hp | hp <;> rw [hp] <;> rfl
    rw [(sentInv r).sent, hu, hg.2]
    simp
  · intro s' l
    refine Later.inv (I := fun t => t.readinessFailed = true ∧ t.cursor = s.cursor ∧
        t.delivered = s.delivered ∧ s.socket ≤ t.socket ∧ (t.pc = .idle ∨ t.pc = .pending)) r l
      ⟨hf, rfl, rfl, le_rfl, hg.1⟩ ?_
    rintro t t' rt ⟨hft, hc, hd, hle, -⟩ hs
    obtain ⟨hf', hc', hd', hle'⟩ := (givenUp rt hft).step hft hs
    exact ⟨hf', hc'.trans hc, hd'.trans hd, hle.trans hle', (givenUp (rt.step hs) hf').1⟩

/-- `readable` fails in a suspended `changed`. -/
theorem readiness_failure_final_eth0 :
    (leftBehind eth0).delivered = (leftBehind eth0).produced ∧
      ∀ s', Later system { leftBehind eth0 with pc := .pending, readinessFailed := true } s' →
        s'.readinessFailed = true ∧ s'.cursor = (leftBehind eth0).cursor ∧
          s'.delivered = (leftBehind eth0).delivered ∧ 1 ≤ s'.socket ∧ (s'.pc = .idle ∨ s'.pc = .pending) :=
  readiness_failure_final ((leftBehind_reach (by decide)).step (.readableFails rfl)) rfl

end Netwatcher.WatchFdAsync
