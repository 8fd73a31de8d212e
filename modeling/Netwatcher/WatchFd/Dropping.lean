import Netwatcher.WatchFd.Handle
import Netwatcher.WatchFd.Settles
/-!
# The drop of a Unix `WatchHandle` returns (`src/watch_fd.rs`)

`Handle.lean` says what holds once the drop has returned; here it does return. The closed pipe is
seen in the next `poll`, behind the round in progress: the callback is entered twice more at the
most, and when no events keep coming the steps are bounded, a panic of the callback included.

| here | there |
| --- | --- |
| `Reported` | `poll` on `fds[1]`, whose other end is closed (watch_fd.rs:165) |
| `calls`    | the rounds up to `fds[1].revents != 0` (watch_fd.rs:172) |
| `Closing`  | the loop from there to `drop(complete_tx)` (:177), and `recv` in `WatchHandle::drop` (:92) |
-/
namespace Netwatcher.WatchFd
open Runs Settle

/-! ## The thread is in its loop -/

/-- A watcher in the closure given to `spawn`. -/
def Watcher.Spawned (w : Watcher) : Prop :=
  w.mode = .callback ∧ (w.pc.looping = true ∨ w.pc = .stopped)

theorem resume_spawned {w : Watcher} (hm : w.mode = .callback) (yielded : Bool) :
    (w.resume yielded).looping = true ∨ w.resume yielded = .stopped := by
  simp only [Watcher.resume, hm]
  cases w.hup
  · exact .inl rfl
  · exact .inr rfl

theorem Watcher.Spawned.step {w w' : Watcher} (hl : w.Spawned) (h : Step w w') : w'.Spawned := by
  obtain ⟨hm, hp⟩ := hl
  cases h with
  | change | arrive => exact ⟨hm, hp⟩
  | startFirst h | pipeFails _ h | endFirst _ h | firstFails h | firstCallback _ h | firstBlocking _ h
  | takeInitial h | callChanged h =>
    rw [h] at hp
    simp [Pc.looping] at hp
  | pollSocket | startListing | endListing => exact ⟨hm, .inl rfl⟩
  | pollPipe | panic => exact ⟨hm, .inr rfl⟩
  | recv =>
    refine ⟨hm, .inl ?_⟩
    dsimp only
    split <;> rfl
  | absorb =>
    refine ⟨hm, ?_⟩
    simp only [Watcher.absorb]
    split
    · exact .inl rfl
    · exact resume_spawned hm false
  | deliver => exact ⟨hm, resume_spawned hm true⟩

/-- Whoever has the handle has a thread, and whoever drops it has closed the pipe. -/
structure DropInv (s : Watch) : Prop where
  spawned : s.owner.watcher = none → ∃ w, s.thread = some w ∧ w.Spawned
  closed : s.owner = .receiving ∨ s.owner = .dropped → s.pipeOpen = false

theorem DropInv.step {s s' : Watch} (ih : DropInv s) (hi : HandleInv s) (h : HandleStep s s') :
    DropInv s' := by
  cases h with
  | setUp | setUpFails | spawnFails => exact ⟨nofun, by simp⟩
  | @spawn w ho hp =>
    have hm : w.mode = .callback := (callback_of_reach (hi.starting w ho).1).1
    exact ⟨fun _ => ⟨w, rfl, hm, .inl (by rw [hp]; rfl)⟩, by simp⟩
  | @run w w' ht hs _ =>
    refine ⟨fun ho => ?_, ih.closed⟩
    obtain ⟨v, hv, hl⟩ := ih.spawned ho
    obtain rfl : w = v := Option.some.inj (ht.symm.trans hv)
    exact ⟨w', rfl, hl.step hs⟩
  | pollNothing => exact ih
  | dropSender => exact ⟨ih.spawned, ih.closed⟩
  | close ho => exact ⟨fun _ => ih.spawned (by rw [ho]; rfl), fun _ => rfl⟩
  | recv ho _ => exact ⟨fun _ => ih.spawned (by rw [ho]; rfl), fun _ => ih.closed (.inl ho)⟩

theorem dropInv {s : Watch} (r : Reach handleSystem s) : DropInv s := by
  refine r.inv (I := DropInv) ?_ fun s s' r ih h => ih.step (handleInv r) h
  rintro s ⟨w, -, rfl⟩
  exact ⟨nofun, by simp⟩

/-! ## The callback is entered twice more at the most -/

/-- How often the callback may still return until the loop is left, the pipe being closed: once for
the round in progress, and once more where the `poll` of that round had not seen the pipe. -/
def Watcher.rounds (w : Watcher) : Nat :=
  match w.pc with
  | .polling => 1
  | .draining | .drained | .listing | .listed _ | .delivering _ => if w.hup then 1 else 2
  | _ => 0

/-- A `poll` that reports anything reports the closed pipe. -/
def Reported (w w' : Watcher) : Prop := w.pc = .polling → w'.pc = .draining → w'.hup = true

theorem Watcher.rounds_le (w : Watcher) : w.rounds ≤ 2 := by
  unfold Watcher.rounds
  split <;> first | omega | (split <;> omega)

theorem resume_rounds {w w' : Watcher} (hm : w.mode = .callback) (yielded : Bool)
    (hp : w'.pc = w.resume yielded) : w'.rounds = if w.hup then 0 else 1 := by
  cases hh : w.hup <;> simp [Watcher.rounds, hp, Watcher.resume, hm, hh]

theorem unsent_le_rounds (w : Watcher) : w.pc.unsent.length ≤ w.rounds := by
  unfold Watcher.rounds
  cases w.pc <;> simp [Pc.unsent]
  split <;> omega

/-- **Each return of the callback uses up a round.** -/
theorem Watcher.Spawned.rounds {w w' : Watcher} (hl : w.Spawned) (h : Step w w') (hr : Reported w w') :
    w'.delivered.length + w'.rounds ≤ w.delivered.length + w.rounds := by
  obtain ⟨hm, hpc⟩ := hl
  cases h with
  | change | arrive => exact le_rfl
  | startFirst h | pipeFails _ h | endFirst _ h | firstFails h | firstCallback _ h | firstBlocking _ h
  | takeInitial h | callChanged h =>
    rw [h] at hpc
    simp [Pc.looping] at hpc
  | pollSocket hup hp _ =>
    obtain rfl : hup = true := hr hp rfl
    simp [Watcher.rounds, hp]
  | pollPipe => simp [Watcher.rounds]
  | @recv r n hp hr =>
    cases drainContinues r <;> simp [Watcher.rounds, hp]
  | startListing hp | endListing r hp _ => simp [Watcher.rounds, hp]
  | @absorb r hp =>
    have hw : w.rounds = if w.hup then 1 else 2 := by simp [Watcher.rounds, hp]
    cases hu : (nextUpdate w.cursor r).2 with
    | none =>
      have hn : (w.absorb r).rounds = if w.hup then 0 else 1 :=
        resume_rounds hm false (by simp [Watcher.absorb, hu])
      have hd : (w.absorb r).delivered = w.delivered := rfl
      rw [hw, hn, hd]
      split <;> omega
    | some u =>
      have hn : (w.absorb r).rounds = if w.hup then 1 else 2 := by simp [Watcher.absorb, hu, Watcher.rounds]
      have hd : (w.absorb r).delivered = w.delivered := rfl
      rw [hw, hn, hd]
  | @deliver u hp =>
    have hw : w.rounds = if w.hup then 1 else 2 := by simp [Watcher.rounds, hp]
    rw [hw, resume_rounds hm true rfl, List.length_append, List.length_singleton]
    split <;> omega
  | @panic u _ hp =>
    have hw : 1 ≤ w.rounds := by simpa [hp, Pc.unsent] using unsent_le_rounds w
    simpa [Watcher.rounds] using hw

/-- A step of owner or thread, or of the OS, once the pipe is closed. -/
structure Dropping (s s' : Watch) : Prop where
  step : HandleStep s s'
  reported : ∀ w w', s.thread = some w → s'.thread = some w' → Reported w w'

/-- In the drop, or past it. -/
def Owner.dropping : Owner → Bool
  | .receiving | .dropped => true
  | _ => false

/-- What the drop does to the thread and to the sender. -/
theorem HandleStep.dropping {s s' : Watch} (h : HandleStep s s') (ho : s.owner.dropping = true) :
    s'.owner.dropping = true ∧
      (s'.thread = s.thread ∨ ∃ w w', s.thread = some w ∧ s'.thread = some w' ∧ Step w w') := by
  cases h with
  | setUp h | setUpFails h | spawnFails h | spawn h | close h =>
    rw [h] at ho
    cases ho
  | run ht hs _ => exact ⟨ho, .inr ⟨_, _, ht, rfl, hs⟩⟩
  | pollNothing | dropSender => exact ⟨ho, .inl rfl⟩
  | recv => exact ⟨rfl, .inl rfl⟩

/-- The thread of a handle that is being dropped. -/
theorem thread_of_dropping {s : Watch} (r : Reach handleSystem s) (ho : s.owner.dropping = true) :
    s.owner.watcher = none ∧ s.pipeOpen = false ∧ ∃ w, s.thread = some w ∧ w.Spawned := by
  have inv := dropInv r
  cases hs : s.owner with
  | starting w | failed w | holding =>
    rw [hs] at ho
    cases ho
  | receiving | dropped =>
    exact ⟨rfl, inv.closed (by simp [hs]), inv.spawned (by rw [hs]; rfl)⟩

theorem entered_eq {s : Watch} {w : Watcher} (ho : s.owner.watcher = none) (ht : s.thread = some w) :
    s.entered = w.entered ∧ s.inProgress = w.pc.unsent := by
  simp [Watch.entered, Watch.inProgress, ho, ht]

/-- What a run through the drop keeps: the thread has `left` returns of the callback to go in all. -/
structure DropRun (s : Watch) (left : Nat) (t : Watch) : Prop where
  reach : Reach handleSystem t
  dropping : t.owner.dropping = true
  entered : ∃ us, t.entered = s.entered ++ us
  rounds : ∀ w, t.thread = some w → w.delivered.length + w.rounds ≤ left

theorem DropRun.step {s t t' : Watch} {left : Nat} (ih : DropRun s left t) (h : Dropping t t') :
    DropRun s left t' := by
  obtain ⟨ho, ht⟩ := h.step.dropping ih.dropping
  obtain ⟨us, hus⟩ := ih.entered
  refine ⟨ih.reach.step h.step, ho, ?_, ?_⟩
  · rcases h.step.entered (handleInv ih.reach) with he | ⟨-, u, -, he⟩
    · exact ⟨us, he.trans hus⟩
    · exact ⟨us ++ [u], by rw [he, hus, List.append_assoc]⟩
  · intro w' hw'
    rcases ht with he | ⟨v, v', hv, hv', hs⟩
    · exact ih.rounds w' (he ▸ hw')
    · obtain rfl : v' = w' := Option.some.inj (hv'.symm.trans hw')
      obtain ⟨-, -, x, hx, hl⟩ := thread_of_dropping ih.reach ih.dropping
      obtain rfl : x = v := Option.some.inj (hx.symm.trans hv)
      exact (hl.rounds hs (h.reported x v' hv hv')).trans (ih.rounds x hv)

theorem dropRun {s t : Watch} (r : Reach handleSystem s) (ho : s.owner.dropping = true)
    (l : Relation.ReflTransGen Dropping s t) {w : Watcher} (hw : s.thread = some w) :
    DropRun s (w.delivered.length + w.rounds) t := by
  induction l with
  | refl =>
    refine ⟨r, ho, ⟨[], (List.append_nil _).symm⟩, ?_⟩
    intro v hv
    obtain rfl : w = v := Option.some.inj (hw.symm.trans hv)
    exact le_rfl
  | tail _ h ih => exact ih.step h

/-- Twice more at the most, a call in progress counted in. -/
theorem entered_in_drop {s t : Watch} (r : Reach handleSystem s) (ho : s.owner.dropping = true)
    (l : Relation.ReflTransGen Dropping s t) :
    ∃ us, t.entered = s.entered ++ us ∧ us.length + s.inProgress.length ≤ 2 := by
  obtain ⟨hs, -, w, hw, -⟩ := thread_of_dropping r ho
  have run := dropRun r ho l hw
  obtain ⟨us, hus⟩ := run.entered
  refine ⟨us, hus, ?_⟩
  obtain ⟨ht, -, v, hv, -⟩ := thread_of_dropping run.reach run.dropping
  have hlen := congrArg List.length hus
  rw [(entered_eq ht hv).1, (entered_eq hs hw).1] at hlen
  simp only [Watcher.entered, List.length_append] at hlen
  have hrounds : v.delivered.length + v.rounds ≤ w.delivered.length + w.rounds := run.rounds v hv
  have := unsent_le_rounds v
  have := w.rounds_le
  rw [(entered_eq hs hw).2]
  omega

/-! ## The drop returns -/

/-- A step of owner or thread while nothing else happens: no interface changes, no event reaches the
socket, and `poll` does not return for nothing. -/
structure Closing (s s' : Watch) : Prop where
  drops : Dropping s s'
  calm : ∀ w w', s.thread = some w → s'.thread = some w' → w'.os.owed = w.os.owed ∧ w'.socket ≤ w.socket
  moved : s' ≠ s

/-- The places from `poll` to the end of a round, the round without the pipe being followed by one
with it. -/
def Watcher.ending (w : Watcher) : Nat :=
  match w.pc with
  | .polling => 6
  | .draining => if w.hup then 5 else 11
  | .drained => if w.hup then 4 else 10
  | .listing => if w.hup then 3 else 9
  | .listed _ => if w.hup then 2 else 8
  | .delivering _ => if w.hup then 1 else 7
  | _ => 0

/-- The steps left: those of the thread, the end of its sender and `recv`. -/
def Watch.left (s : Watch) : Nat :=
  s.thread.elim 0 (fun w => w.socket + w.ending) + s.sender.toNat +
    match s.owner with
    | .receiving => 1
    | _ => 0

theorem resume_ending {w w' : Watcher} (hm : w.mode = .callback) (yielded : Bool)
    (hp : w'.pc = w.resume yielded) : w'.ending = if w.hup then 0 else 6 := by
  cases hh : w.hup <;> simp [Watcher.ending, hp, Watcher.resume, hm, hh]

/-- **A step brings the thread nearer to its end.** -/
theorem Watcher.Spawned.ending {w w' : Watcher} (hl : w.Spawned) (h : Step w w') (hr : Reported w w')
    (hc : w'.os.owed = w.os.owed ∧ w'.socket ≤ w.socket) :
    w'.socket + w'.ending < w.socket + w.ending := by
  obtain ⟨hm, hpc⟩ := hl
  cases h with
  | change => simp at hc
  | arrive => exact absurd hc.2 (Nat.not_succ_le_self w.socket)
  | startFirst h | pipeFails _ h | endFirst _ h | firstFails h | firstCallback _ h | firstBlocking _ h
  | takeInitial h | callChanged h =>
    rw [h] at hpc
    simp [Pc.looping] at hpc
  | pollSocket hup hp _ =>
    obtain rfl : hup = true := hr hp rfl
    simp [Watcher.ending, hp]
  | pollPipe _ hp => simp [Watcher.ending, hp]
  | @recv r n hp hrecv =>
    have hw : w.ending = if w.hup then 5 else 11 := by simp [Watcher.ending, hp]
    have hle : n ≤ w.socket := hc.2
    cases hd : drainContinues r with
    | true =>
      have hlt : n < w.socket := hrecv.lt_of_continues hd
      simpa [Watcher.ending, hp] using hlt
    | false =>
      rw [hw]
      simp only [Watcher.ending, Bool.false_eq_true, if_false]
      split <;> omega
  | startListing hp | endListing r hp _ =>
    simp only [Watcher.ending, hp]
    split <;> omega
  | @absorb r hp =>
    have hw : w.ending = if w.hup then 2 else 8 := by simp [Watcher.ending, hp]
    have hs : (w.absorb r).socket = w.socket := rfl
    cases hu : (nextUpdate w.cursor r).2 with
    | none =>
      have hn : (w.absorb r).ending = if w.hup then 0 else 6 :=
        resume_ending hm false (by simp [Watcher.absorb, hu])
      rw [hw, hn, hs]
      split <;> omega
    | some u =>
      have hn : (w.absorb r).ending = if w.hup then 1 else 7 := by
        simp [Watcher.absorb, hu, Watcher.ending]
      rw [hw, hn, hs]
      split <;> omega
  | @deliver u hp =>
    have hw : w.ending = if w.hup then 1 else 7 := by simp [Watcher.ending, hp]
    rw [hw, resume_ending hm true rfl]
    dsimp only
    split <;> omega
  | panic _ hp =>
    simp only [Watcher.ending, hp]
    split <;> omega

theorem Watcher.ending_le (w : Watcher) : w.ending ≤ 11 := by
  unfold Watcher.ending
  split <;> first | omega | (split <;> omega)

theorem Closing.left {s s' : Watch} (r : Reach handleSystem s) (ho : s.owner.dropping = true)
    (hc : Closing s s') : s'.left < s.left := by
  obtain ⟨-, -, v, hv, hl⟩ := thread_of_dropping r ho
  have hcalm := hc.calm
  have hrep := hc.drops.reported
  have hmoved := hc.moved
  cases hc.drops.step with
  | setUp h | setUpFails h | spawnFails h | spawn h | close h =>
    rw [h] at ho
    cases ho
  | @run w w' ht hs _ =>
    obtain rfl : w = v := Option.some.inj (ht.symm.trans hv)
    have := hl.ending hs (hrep w w' ht rfl) (hcalm w w' ht rfl)
    simp only [Watch.left, ht, Option.elim_some]
    omega
  | pollNothing => exact absurd rfl hmoved
  | dropSender ht hp =>
    cases hs : s.sender with
    | false =>
      refine absurd ?_ hmoved
      rw [← hs]
    | true => simp [Watch.left, hs]
  | recv hr _ => simp [Watch.left, hr]

/-- A step of the thread's in the drop, unless it is in `poll`. -/
theorem closing_run {s : Watch} {w w' : Watcher} (ht : s.thread = some w) (h : Step w w')
    (hp : w.pc ≠ .polling) (hc : w'.os.owed = w.os.owed ∧ w'.socket ≤ w.socket)
    (hne : w'.pc ≠ w.pc ∨ w'.socket ≠ w.socket) : ∃ s', Closing s s' := by
  have hmoved : w' ≠ w := by
    rintro rfl
    simp at hne
  refine ⟨{ s with thread := some w' }, ⟨.run ht h fun hpc => absurd hpc hp, ?_⟩, ?_, ?_⟩
  · rintro v v' hv - hpc
    obtain rfl : v = w := Option.some.inj (hv.symm.trans ht)
    exact absurd hpc hp
  · intro v v' hv hv'
    obtain rfl : v = w := Option.some.inj (hv.symm.trans ht)
    obtain rfl : w' = v' := Option.some.inj hv'
    exact hc
  · intro he
    have hth : some w' = s.thread := congrArg Watch.thread he
    exact hmoved (Option.some.inj (hth.trans ht))

/-- A step that leaves the thread alone. -/
theorem closing_still {s s' : Watch} {w : Watcher} (ht : s.thread = some w) (hp : w.pc ≠ .polling)
    (h : HandleStep s s') (he : s'.thread = s.thread) (hne : s' ≠ s) : Closing s s' := by
  refine ⟨⟨h, ?_⟩, ?_, hne⟩
  · intro v v' hv _ hpc
    obtain rfl : v = w := Option.some.inj (hv.symm.trans ht)
    exact absurd hpc hp
  · intro v v' hv hv'
    obtain rfl : v' = v := Option.some.inj (hv'.symm.trans (he.trans hv))
    exact ⟨rfl, le_rfl⟩

/-- The drop can go on until it has returned. -/
theorem exists_closing {s : Watch} (r : Reach handleSystem s) (ho : s.owner.dropping = true) :
    (∃ s', Closing s s') ∨ s.owner = .dropped := by
  obtain ⟨-, hpipe, w, ht, hm, hpc⟩ := thread_of_dropping r ho
  -- a step that leaves the OS and the socket alone
  have quiet {w' : Watcher} (h : Step w w') (hp : w.pc ≠ .polling) (howed : w'.os.owed = w.os.owed)
      (hsock : w'.socket = w.socket) (hne : w'.pc ≠ w.pc) : ∃ s', Closing s s' :=
    closing_run ht h hp ⟨howed, hsock.le⟩ (.inl hne)
  rcases hpc with hloop | hstop
  · left
    cases hp : w.pc with
    | opened | firstListing | firstListed r | failed | idle | stopped =>
      rw [hp] at hloop
      cases hloop
    | polling =>
      refine ⟨{ s with thread := some { w with pc := .stopped } },
        ⟨.run ht (.pollPipe hm hp) fun _ _ => hpipe, ?_⟩, ?_, ?_⟩
      · rintro v v' - hv' - hd
        obtain rfl : { w with pc := .stopped } = v' := Option.some.inj hv'
        cases hd
      · intro v v' hv hv'
        obtain rfl : v = w := Option.some.inj (hv.symm.trans ht)
        obtain rfl : { v with pc := .stopped } = v' := Option.some.inj hv'
        exact ⟨rfl, le_rfl⟩
      · intro he
        have hth : some { w with pc := .stopped } = s.thread := congrArg Watch.thread he
        have hw : ({ w with pc := .stopped } : Watcher) = w := Option.some.inj (hth.trans ht)
        rw [← hw] at hp
        cases hp
    | draining =>
      have hno : w.pc ≠ .polling := by simp [hp]
      cases h0 : w.socket with
      | zero =>
        have hr : Recv w.socket .eagain 0 := h0 ▸ .again
        exact closing_run ht (.recv hp hr) hno ⟨rfl, Nat.zero_le _⟩ (.inl (by simp [hp, drainContinues]))
      | succ n =>
        have hr : Recv w.socket (.ok 1) n := h0 ▸ .message n 1
        exact closing_run ht (.recv hp hr) hno ⟨rfl, by simp [h0]⟩ (.inr (by simp [h0]))
    | drained => exact quiet (.startListing hp) (by simp [hp]) rfl rfl (by simp [hp])
    | listing => exact quiet (.endListing (some w.os.cur) hp fun _ => rfl) (by simp [hp]) rfl rfl (by simp [hp])
    | listed l =>
      refine quiet (.absorb hp) (by simp [hp]) rfl rfl ?_
      simp only [Watcher.absorb, Watcher.resume, hp, hm]
      split
      · simp
      · split <;> simp
    | delivering u =>
      refine quiet (.deliver hp) (by simp [hp]) rfl rfl ?_
      simp only [Watcher.resume, hp, hm]
      split <;> simp
  · have hno : w.pc ≠ .polling := by simp [hstop]
    cases hs : s.sender with
    | true =>
      refine .inl ⟨{ s with sender := false }, closing_still ht hno (.dropSender ht hstop) rfl ?_⟩
      intro he
      rw [← he] at hs
      cases hs
    | false =>
      cases hown : s.owner with
      | starting v | failed v | holding =>
        rw [hown] at ho
        cases ho
      | dropped => exact .inr rfl
      | receiving =>
        refine .inl ⟨{ s with owner := .dropped }, closing_still ht hno (.recv hown hs) rfl ?_⟩
        intro he
        rw [← he] at hown
        cases hown

theorem Watch.left_le (s : Watch) : s.left ≤ s.thread.elim 0 (·.socket) + 13 := by
  have hsender : s.sender.toNat ≤ 1 := Bool.toNat_le s.sender
  have hthread : s.thread.elim 0 (fun w => w.socket + w.ending) ≤ s.thread.elim 0 (·.socket) + 11 := by
    cases s.thread with
    | none => exact Nat.zero_le _
    | some w => exact Nat.add_le_add_left w.ending_le w.socket
  unfold Watch.left
  split <;> omega

/-- **A drop of the handle returns**: the callback is entered twice more at the most, whatever happens
meanwhile, and when nothing does the drop is over in a bounded number of steps. -/
theorem drop_returns {s : Watch} (r : Reach handleSystem s) (ho : s.owner = .receiving) :
    (∀ t, Relation.ReflTransGen Dropping s t →
      ∃ us, t.entered = s.entered ++ us ∧ us.length + s.inProgress.length ≤ 2) ∧
      Settles Closing (fun t => t.owner = .dropped ∧ t.inProgress = []) s
        (s.thread.elim 0 (·.socket) + 13) := by
  have hd : s.owner.dropping = true := by rw [ho]; rfl
  refine ⟨fun t l => entered_in_drop r hd l, ?_⟩
  let I (t : Watch) : Prop := Reach handleSystem t ∧ t.owner.dropping = true
  have hstep : ∀ t t', I t → Closing t t' → I t' ∧ t'.left < t.left := by
    rintro t t' ⟨rt, hdt⟩ h
    exact ⟨⟨rt.step h.drops.step, (h.drops.step.dropping hdt).1⟩, h.left rt hdt⟩
  refine (settles_of_measure hstep ?_ ⟨r, hd⟩).mono s.left_le
  rintro t ⟨rt, hdt⟩
  rcases exists_closing rt hdt with h | h
  · exact .inl h
  · exact .inr ⟨h, (handleInv rt).inProgress_of_dropped h⟩

/-- The handle is dropped after a change, whose event is in the socket. -/
def droppedAfter (l : IfList) : Watch where
  owner := .receiving
  thread := some
    { mode := .callback
      os := ⟨l, 0, true⟩
      socket := 1
      pc := .polling
      cursor := ⟨∅, false⟩
      initialUpdate := none
      hup := false
      produced := [IfList.initialUpdate ∅]
      delivered := [IfList.initialUpdate ∅] }
  pipeOpen := false
  sender := true

theorem droppedAfter_reach (l : IfList) : Reach handleSystem (droppedAfter l) := by
  have r0 : Reach handleSystem
      ⟨.starting ⟨.callback, ⟨∅, 0, false⟩, 0, .opened, .default, none, false, [], []⟩, none, true, false⟩ :=
    .init ⟨_, ⟨rfl, rfl, rfl, rfl, rfl, rfl, rfl⟩, rfl⟩
  have r1 := (r0.step (.setUp rfl (.startFirst rfl) nofun)).step
    (.setUp rfl (.endFirst (some ∅) rfl fun _ => rfl) nofun)
  have r2 : Reach handleSystem
      ⟨.holding, some ⟨.callback, ⟨∅, 0, false⟩, 0, .polling, ⟨∅, false⟩, none, false,
        [IfList.initialUpdate ∅], [IfList.initialUpdate ∅]⟩, true, true⟩ :=
    ((r1.step (.setUp rfl (.firstCallback rfl rfl) nofun)).step (.setUp rfl (.deliver rfl) nofun)).step
      (.spawn rfl rfl)
  exact ((r2.step (.run rfl (.change l) (by simp [PollsPipe]))).step
    (.run rfl (.arrive 1) (by simp [PollsPipe]))).step (.close rfl)

theorem drop_returns_eth0 :
    (∀ t, Relation.ReflTransGen Dropping (droppedAfter eth0) t →
      ∃ us, t.entered = (droppedAfter eth0).entered ++ us ∧ us.length ≤ 2) ∧
      Settles Closing (fun t => t.owner = .dropped ∧ t.inProgress = []) (droppedAfter eth0) 14 :=
  drop_returns (droppedAfter_reach eth0) rfl

end Netwatcher.WatchFd
