import Netwatcher.Lib.Settle
import Netwatcher.WatchWin.Served
/-!
# A Windows registration never gets stuck (`src/watch_win.rs`)

The owner waits for the lock, `CancelMibChangeNotify2` waits for the notifications in progress, and
those wait for the lock too. The owner never cancels while it holds the lock: `state_guard` is dropped
before `registration` is (watch_win.rs:202, :200). So when the system has nothing more to tell, every
run comes to rest, in a bounded number of steps: the handle is alive, has the interfaces of the moment
and no notification is in progress, or the registration has been dropped. What is called under the lock is
taken to come back: a listing and the callback by returning or panicking, a waker by returning; a
notification's listing does not panic.
-/
namespace Netwatcher.WatchWin
open Runs Refresh Settle

section
variable {T : Type} {P : Protocol T}

/-- A step of the owner or of a notification while nothing else happens: the interfaces do not change, the
system makes no new call, the user of the handle leaves it alone, and no notification panics. -/
structure Own (P : Protocol T) (m m' : Machine T) : Prop where
  step : ∃ e, Step P m e m' ∧ e ≠ .panics
  reads : m'.os = m.os ∨ m'.os = m.os.beginRead
  calls : ∀ k, (m'.sources k).waiting ≤ (m.sources k).waiting
  unused : m.pc = .alive → m'.holder ≠ m.holder ∨ ∃ k, (m'.sources k).waiting < (m.sources k).waiting
  moved : m' ≠ m

/-- The steps the owner has left. -/
def Pc.left : Pc → Nat
  | .registering .unicast => 8
  | .registering .interface => 7
  | .locking => 6
  | .listing => 5
  | .loaded _ => 4
  | .cancelling .unicast _ _ => 3
  | .cancelling .interface _ _ => 2
  | .disabling _ | .releasing _ => 1
  | .alive | .dropped _ | .dropPanicked _ | .aborted => 0

/-- The steps the notification with the lock has left. -/
def Holder.left : Holder → Nat
  | .free | .owner => 0
  | .dispatch _ .listing => 2
  | .dispatch _ (.loaded _) => 1

def Machine.waiting (m : Machine T) : Nat := (m.sources .unicast).waiting + (m.sources .interface).waiting

/-- A notification takes three steps: the lock, the listing and what it makes of it. -/
def Machine.left (m : Machine T) : Nat := 3 * m.waiting + m.holder.left + m.pc.left

theorem afterCancel_left (k : Kind) (exit exit' : Exit) (ok ok' : Bool) :
    (afterCancel k exit ok).left < (Pc.cancelling k exit' ok').left := by
  cases k <;> cases ok <;> simp [afterCancel, Pc.left]

theorem afterRegister_left (k : Kind) : (afterRegister k).left < (Pc.registering k).left := by
  cases k <;> decide

theorem waiting_setSource (m : Machine T) (k : Kind) (source : Source) :
    (m.setSource k source).waiting + (m.sources k).waiting = m.waiting + source.waiting := by
  cases k <;> simp [Machine.waiting, Machine.setSource] <;> omega

theorem waiting_setWaiting {m : Machine T} {k : Kind} {n : Nat} (hw : (m.sources k).waiting = n + 1) :
    (m.setWaiting k n).waiting + 1 = m.waiting := by
  have h := waiting_setSource m k { m.sources k with waiting := n }
  rw [hw] at h
  have hn : (m.setWaiting k n).waiting + (n + 1) = m.waiting + n := h
  omega

/-- The owner moves on. -/
theorem left_owner {m m' : Machine T} {pc : Pc} (hpc : m.pc = pc) (hp : m'.pc.left < pc.left)
    (hw : m'.waiting ≤ m.waiting) (hh : m'.holder.left = m.holder.left) : m'.left < m.left := by
  subst hpc
  unfold Machine.left
  omega

/-- A notification gets the lock, or ends for want of it. -/
theorem left_taken {m m' : Machine T} (hw : m'.waiting + 1 = m.waiting) (hh : m'.holder.left ≤ 2)
    (hf : m.holder = .free) (hp : m'.pc = m.pc) : m'.left < m.left := by
  have hfree : m.holder.left = 0 := by rw [hf]; rfl
  unfold Machine.left
  rw [hp]
  omega

/-- The notification with the lock moves on. -/
theorem left_notif {m m' : Machine T} (hw : m'.waiting = m.waiting) (hh : m'.holder.left < m.holder.left)
    (hp : m'.pc = m.pc) : m'.left < m.left := by
  unfold Machine.left
  rw [hp]
  omega

/-- **A step brings the registration nearer to rest.** -/
theorem Own.left {m m' : Machine T} (hl : Locks P m) (h : Own P m m') : m'.left < m.left := by
  obtain ⟨⟨e, hs, he⟩, hreads, hcalls, hunused, hmoved⟩ := h
  -- the owner has the lock
  have hheld (hp : m.pc.holds = true) : m.holder.left = 0 := by rw [hl.owner.2 hp]; rfl
  cases hs with
  | change list _ _ =>
    exfalso
    have howed : m.os.owed + 1 = m.os.owed := by
      rcases hreads with he | he
      · exact congrArg Tracked.owed he
      · exact congrArg Tracked.owed he
    omega
  | drift list _ _ =>
    exfalso
    rcases hreads with he | he
    · have hsame : m.os.drift list = m.os := he
      exact hmoved (by rw [hsame])
    · have htorn : true = false := congrArg Tracked.torn he
      cases htorn
  | notify k changes _ _ =>
    exfalso
    have hle := hcalls k
    have hw : ((m.setWaiting k ((m.sources k).waiting + 1)).sources k).waiting = (m.sources k).waiting + 1 := by
      simp [Machine.setWaiting, Machine.setSource]
    exact Nat.not_succ_le_self _ (hw ▸ hle)
  | dispatchLock _ hw hf _ => exact left_taken (waiting_setWaiting hw) le_rfl hf rfl
  | dispatchPoisoned _ hw hf _ =>
    refine left_taken (waiting_setWaiting hw) ?_ hf rfl
    exact (congrArg Holder.left hf).trans_le (Nat.zero_le 2)
  | dispatchLoad r _ hh _ => exact left_notif rfl (by rw [hh]; exact Nat.lt_succ_self 1) rfl
  | dispatchPanics | dispatchUnwinds => exact absurd rfl he
  | dispatchFail _ hh | dispatchHandle _ hh _ => exact left_notif rfl (by rw [hh]; exact Nat.one_pos) rfl
  | @register k result raw handle hpc _ =>
    refine left_owner hpc (afterRegister_left k) ?_ rfl
    have := waiting_setSource m k ⟨some handle, false, 0⟩
    exact Nat.le_of_add_right_le this.le
  | @registerFailed k _ _ _ hpc _ => exact left_owner hpc (by cases k <;> simp [Pc.left]) le_rfl rfl
  | lock hpc hf _ => exact left_owner hpc (by simp [Pc.left]) le_rfl (by rw [hf]; rfl)
  | lockPoisoned hpc _ _ | load _ hpc _ => exact left_owner hpc (by simp [Pc.left]) le_rfl rfl
  | listPanicked hpc | listFailed hpc | initialised hpc _ | initialPanicked hpc _ =>
    exact left_owner hpc (by simp [Pc.left]) le_rfl (hheld (by rw [hpc]; rfl)).symm
  | outside hpc _ | close hpc =>
    rcases hunused hpc with hne | ⟨k, hlt⟩
    · exact absurd rfl hne
    · exact absurd hlt (Nat.lt_irrefl _)
  | skip hpc _ | cancelFailed hpc _ _ => exact left_owner hpc (afterCancel_left ..) le_rfl rfl
  | @cancelled k exit ok handle result hpc _ _ _ =>
    refine left_owner hpc (afterCancel_left ..) ?_ rfl
    have := waiting_setSource m k { m.sources k with cancelled := true }
    exact (Nat.add_right_cancel this).le
  | disable hpc _ _ | abort hpc _ _ | dropPanic hpc _ _ _ | release hpc =>
    exact left_owner hpc (by simp [Pc.left]) le_rfl rfl

/-! ## Nobody waits for ever -/

/-- Where a registration that cannot go on is. -/
def Rest (P : Protocol T) (cur : IfList) (owed : Nat) (m : Machine T) : Prop :=
  m.pc = .aborted ∨ (∀ k, m.Idle k) ∧
    (m.pc = .alive ∧ (owed = 0 → P.view m.st = cur) ∨ ∃ exit, m.pc = .dropped exit)

/-- A step of the owner's, which is not in possession of a live handle. -/
theorem own_owner {m m' : Machine T} {e : Label} (hs : Step P m e m') (he : e ≠ .panics)
    (hpc : m.pc ≠ .alive) (hos : m'.os = m.os ∨ m'.os = m.os.beginRead)
    (hw : ∀ k, (m'.sources k).waiting ≤ (m.sources k).waiting) (hne : m'.pc ≠ m.pc) : Own P m m' :=
  ⟨⟨e, hs, he⟩, hos, hw, fun h => absurd h hpc, fun h => hne (by rw [h])⟩

/-- A step of a notification's. -/
theorem own_notif {m m' : Machine T} {e : Label} (hs : Step P m e m') (he : e ≠ .panics)
    (hos : m'.os = m.os ∨ m'.os = m.os.beginRead)
    (hw : ∀ k, (m'.sources k).waiting ≤ (m.sources k).waiting)
    (hmoved : m'.holder ≠ m.holder ∨ ∃ k, (m'.sources k).waiting < (m.sources k).waiting) : Own P m m' := by
  refine ⟨⟨e, hs, he⟩, hos, hw, fun _ => hmoved, ?_⟩
  rintro rfl
  rcases hmoved with h | ⟨k, h⟩
  · exact h rfl
  · exact Nat.lt_irrefl _ h

/-- The notification with the lock can go on. -/
theorem exists_own_holder {m : Machine T} {k : Kind} {phase : Dispatch} (ha : m.pc ≠ .aborted)
    (hh : m.holder = .dispatch k phase) : ∃ m', Own P m m' := by
  cases phase with
  | listing =>
    exact ⟨_, own_notif (.dispatchLoad (.ok m.os.cur) ha hh fun _ => rfl) (by simp) (.inl rfl)
      (fun _ => le_rfl)
      (.inl (by simp [hh]))⟩
  | loaded r =>
    cases r with
    | error err =>
      exact ⟨_, own_notif (.dispatchFail ha hh) (by simp) (.inl rfl) (fun _ => le_rfl) (.inl (by simp [hh]))⟩
    | ok list =>
      exact ⟨_, own_notif (.dispatchHandle ha hh rfl) (by simp) (.inl rfl)
        (fun _ => le_rfl) (.inl (by simp [hh]))⟩

/-- A waiting notification can go on when the lock is free. -/
theorem exists_own_waiting {m : Machine T} {k : Kind} (ha : m.pc ≠ .aborted) (hh : m.holder = .free)
    (hw : (m.sources k).waiting ≠ 0) : ∃ m', Own P m m' := by
  obtain ⟨n, hn⟩ := Nat.exists_eq_succ_of_ne_zero hw
  have hlt : ((m.setWaiting k n).sources k).waiting < (m.sources k).waiting := by
    simp [Machine.setWaiting, Machine.setSource, hn]
  have hle (k' : Kind) : ((m.setWaiting k n).sources k').waiting ≤ (m.sources k').waiting := by
    by_cases hk : k' = k
    · subst hk
      exact hlt.le
    · simp [Machine.setWaiting, Machine.setSource, hk]
  cases hp : m.poisoned with
  | false => exact ⟨_, own_notif (.dispatchLock ha hn hh hp) (by simp) (.inr rfl) hle (.inr ⟨k, hlt⟩)⟩
  | true => exact ⟨_, own_notif (.dispatchPoisoned ha hn hh hp) (by simp) (.inl rfl) hle (.inr ⟨k, hlt⟩)⟩

/-- The owner with the lock can go on. -/
theorem exists_own_owner {m : Machine T} (hp : m.pc.holds = true) : ∃ m', Own P m m' := by
  cases hpc : m.pc with
  | listing =>
    exact ⟨_, own_owner (.load (.ok m.os.cur) hpc fun _ => rfl) (by simp) (by simp [hpc]) (.inl rfl)
      (fun _ => le_rfl) (by simp [hpc])⟩
  | loaded r =>
    cases r with
    | error err =>
      exact ⟨_, own_owner (.listFailed hpc) (by simp) (by simp [hpc]) (.inl rfl)
        (fun _ => le_rfl) (by simp [hpc])⟩
    | ok list =>
      cases hr : P.handleInitial m.st list with
      | mk st result =>
        cases result with
        | ok _ =>
          exact ⟨_, own_owner (.initialised hpc hr) (by simp) (by simp [hpc]) (.inl rfl)
            (fun _ => le_rfl) (by simp [hpc])⟩
        | error payload =>
          exact ⟨_, own_owner (.initialPanicked hpc hr) (by simp) (by simp [hpc]) (.inl rfl) (fun _ => le_rfl)
            (by simp [hpc])⟩
  | _ => simp [hpc, Pc.holds] at hp

/-- Where no notification is at work, the owner can go on until the handle is alive or dropped. -/
theorem exists_own_idle {m : Machine T} (hc : Calm m) (hi : ∀ k, m.Idle k) (hh : m.holder = .free) :
    (∃ m', Own P m m') ∨ m.pc = .aborted ∨ m.pc = .alive ∨ ∃ exit, m.pc = .dropped exit := by
  have quiet {m' : Machine T} {e : Label} (hs : Step P m e m') (he : e ≠ .panics) (hpc : m.pc ≠ .alive)
      (hos : m'.os = m.os ∨ m'.os = m.os.beginRead)
      (hw : ∀ k, (m'.sources k).waiting ≤ (m.sources k).waiting) (hne : m'.pc ≠ m.pc) :
      (∃ m', Own P m m') ∨ m.pc = .aborted ∨ m.pc = .alive ∨ ∃ exit, m.pc = .dropped exit :=
    .inl ⟨m', own_owner hs he hpc hos hw hne⟩
  cases hpc : m.pc with
  | aborted => exact .inr (.inl rfl)
  | alive => exact .inr (.inr (.inl rfl))
  | dropped exit => exact .inr (.inr (.inr ⟨exit, rfl⟩))
  | dropPanicked exit => exact absurd hpc (hc.noPanic exit)
  | listing | loaded r => exact .inl (exists_own_owner (by rw [hpc]; rfl))
  | registering k =>
    rw [← hpc]
    refine quiet (.register hpc (show registrationResult NO_ERROR 0 = .ok ⟨0⟩ from rfl)) (by simp)
      (by simp [hpc])
      (.inl rfl) (fun k' => ?_) ?_
    · by_cases hk : k' = k
      · subst hk
        simp [Machine.setSource]
      · simp [Machine.setSource, hk]
    · rw [hpc]
      cases k <;> simp [afterRegister]
  | locking =>
    rw [← hpc]
    cases hp : m.poisoned with
    | false =>
      exact quiet (.lock hpc hh hp) (by simp) (by simp [hpc]) (.inr rfl) (fun _ => le_rfl) (by simp [hpc])
    | true =>
      exact quiet (.lockPoisoned hpc hh hp) (by simp) (by simp [hpc]) (.inl rfl)
        (fun _ => le_rfl) (by simp [hpc])
  | cancelling k exit ok =>
    rw [← hpc]
    have hne (ok' : Bool) : afterCancel k exit ok' ≠ m.pc := by
      rw [hpc]
      cases k <;> cases ok' <;> simp [afterCancel]
    cases hs : (m.sources k).handle with
    | none => exact quiet (.skip hpc hs) (by simp) (by simp [hpc]) (.inl rfl) (fun _ => le_rfl) (hne ok)
    | some handle =>
      -- no call is in progress for `k`, so that the cancellation returns
      refine quiet (.cancelled hpc hs (show handle.cancel NO_ERROR = .ok () from rfl) (hi k)) (by simp)
        (by simp [hpc])
        (.inl rfl) (fun k' => ?_) (hne ok)
      by_cases hk : k' = k
      · subst hk
        simp [Machine.setSource]
      · simp [Machine.setSource, hk]
  | disabling exit =>
    rw [← hpc]
    cases hp : m.poisoned with
    | false =>
      exact quiet (.disable hpc hh hp) (by simp) (by simp [hpc]) (.inl rfl)
        (fun _ => le_rfl) (by simp [hpc])
    | true =>
      cases exit with
      | unwinding =>
        exact quiet (.abort hpc hh hp) (by simp) (by simp [hpc]) (.inl rfl)
          (fun _ => le_rfl) (by simp [hpc])
      | failed err =>
        exact quiet (.dropPanic hpc (by simp) hh hp) (by simp) (by simp [hpc]) (.inl rfl)
          (fun _ => le_rfl) (by simp [hpc])
      | closed =>
        exact quiet (.dropPanic hpc (by simp) hh hp) (by simp) (by simp [hpc]) (.inl rfl)
          (fun _ => le_rfl) (by simp [hpc])
  | releasing exit =>
    rw [← hpc]
    exact quiet (.release hpc) (by simp) (by simp [hpc]) (.inl rfl) (fun _ => le_rfl) (by simp [hpc])

/-- **No deadlock**: a registration that cannot go on is at rest. -/
theorem exists_own (hP : Lawful P) {m : Machine T} (r : Reach (calm P) m) :
    (∃ m', Own P m m') ∨ Rest P m.os.cur m.os.owed m := by
  have hl := locks hP (reach_of_calm r)
  have hc := calm_inv hP r
  by_cases ha : m.pc = .aborted
  · exact .inr (.inl ha)
  cases hh : m.holder with
  | dispatch k phase => exact .inl (exists_own_holder ha hh)
  | owner => exact .inl (exists_own_owner (hl.owner.1 hh))
  | free =>
    by_cases hw : ∀ k, (m.sources k).waiting = 0
    · have hi (k : Kind) : m.Idle k := ⟨hw k, by simp [hh]⟩
      rcases exists_own_idle hc hi hh with h | h | h | h
      · exact .inl h
      · exact absurd h ha
      · exact .inr (.inr ⟨hi, .inl ⟨h, fun ho => view_eq_cur hP (reach_of_calm r) (hc.poisoned_at h) h ho hi⟩⟩)
      · exact .inr (.inr ⟨hi, .inr h⟩)
    · obtain ⟨k, hk⟩ := not_forall.mp hw
      exact .inl (exists_own_waiting ha hh hk)

theorem left_le (m : Machine T) : m.left ≤ 3 * m.waiting + 10 := by
  have hholder : m.holder.left ≤ 2 := by
    cases m.holder with
    | dispatch k phase => cases phase <;> simp [Holder.left]
    | _ => simp [Holder.left]
  have hpc : m.pc.left ≤ 8 := by
    cases m.pc with
    | registering k | cancelling k => cases k <;> simp [Pc.left]
    | _ => simp [Pc.left]
  unfold Machine.left
  omega

/-- A drop outside of an unwinding goes on to its end. -/
theorem Step.exit {m m' : Machine T} {e : Label} (hc : Calm m) (h : Step P m e m') {exit : Exit}
    (he : m.pc.exit = some exit) (hne : exit ≠ .unwinding) : m'.pc.exit = some exit := by
  have leaves {pc : Pc} (hpc : m.pc = pc) (hn : pc.exit = none) : m'.pc.exit = some exit := by
    rw [hpc, hn] at he
    cases he
  cases h with
  | register hpc _ | registerFailed hpc _ | lock hpc _ _ | lockPoisoned hpc _ _ | load _ hpc _
  | listPanicked hpc | listFailed hpc | initialised hpc _ | initialPanicked hpc _ | outside hpc _
  | close hpc => exact leaves hpc rfl
  | skip hpc _ | cancelled hpc _ _ _ | cancelFailed hpc _ _ =>
    rw [hpc] at he
    exact (exit_afterCancel ..).trans he
  | disable hpc _ _ | release hpc =>
    rw [hpc] at he
    exact he
  | dropPanic hpc hu _ hp => exact (hc.unwinding_of_poisoned hpc hp hu).elim
  | abort hpc _ _ =>
    rw [hpc] at he
    exact absurd (Option.some.inj he).symm hne
  | _ => exact he

/-- What the owner and the notifications do by themselves keeps `J`, and brings them to `rest`. -/
theorem settles_of_inv (hP : Lawful P) {J rest : Machine T → Prop}
    (hJ : ∀ t t', Calm t → J t → Own P t t' → J t') (hrest : ∀ t, Reach (calm P) t → J t →
      Rest P t.os.cur t.os.owed t → rest t) {m : Machine T} (r : Reach (calm P) m) (h : J m) :
    Settles (Own P) rest m (3 * m.waiting + 10) := by
  let I (t : Machine T) : Prop := Reach (calm P) t ∧ J t
  have hstep : ∀ t t', I t → Own P t t' → I t' ∧ t'.left < t.left := by
    rintro t t' ⟨rt, hj⟩ ho
    exact ⟨⟨rt.step ho.step, hJ t t' (calm_inv hP rt) hj ho⟩, ho.left (locks hP (reach_of_calm rt))⟩
  refine (settles_of_measure hstep ?_ ⟨r, h⟩).mono (left_le m)
  rintro t ⟨rt, hj⟩
  rcases exists_own hP rt with ho | ho
  · exact .inl ho
  · exact .inr (hrest t rt hj ho)

/-- The interfaces and what is owed stay as they are. -/
theorem settles_rest (hP : Lawful P) {m : Machine T} (r : Reach (calm P) m) :
    Settles (Own P) (Rest P m.os.cur m.os.owed) m (3 * m.waiting + 10) := by
  let J (t : Machine T) : Prop := t.os.cur = m.os.cur ∧ t.os.owed = m.os.owed
  refine settles_of_inv hP (J := J) ?_ ?_ r ⟨rfl, rfl⟩
  · rintro t t' - ⟨hc, ho⟩ h
    rcases h.reads with he | he
    · exact ⟨by rw [he, hc], by rw [he, ho]⟩
    · exact ⟨by rw [he]; exact hc, by rw [he]; exact ho⟩
  · rintro t - ⟨hc, ho⟩ h
    rwa [hc, ho] at h

theorem settles_dropped (hP : Lawful P) {m : Machine T} (r : Reach (calm P) m) {exit : Exit}
    (he : m.pc.exit = some exit) (hne : exit ≠ .unwinding) :
    Settles (Own P) (fun t => t.pc = .dropped exit ∧ ∀ k, t.Idle k) m (3 * m.waiting + 10) := by
  refine settles_of_inv hP (J := fun t => t.pc.exit = some exit) ?_ ?_ r he
  · rintro t t' hc ht ⟨⟨e, hs, -⟩, -⟩
    exact hs.exit hc ht hne
  · rintro t - ht (ha | ⟨hi, ⟨ha, -⟩ | ⟨exit', hd⟩⟩)
    · rw [ha] at ht
      cases ht
    · rw [ha] at ht
      cases ht
    · rw [hd] at ht
      obtain rfl : exit' = exit := Option.some.inj ht
      exact ⟨hd, hi⟩

end

/-- How a registration goes on when the system has told everything. -/
structure ComesToRest {T : Type} (P : Protocol T) (m : Machine T) : Prop where
  /-- In the end the handle is alive, quiet and up to date, or the registration has been dropped. -/
  rests : Settles (Own P) (Rest P m.os.cur m.os.owed) m (3 * m.waiting + 10)
  /-- A drop that has begun returns, if it is not part of an unwinding. -/
  drops : ∀ exit, m.pc.exit = some exit → exit ≠ .unwinding →
    Settles (Own P) (fun t => t.pc = .dropped exit ∧ ∀ k, t.Idle k) m (3 * m.waiting + 10)

/-- **A Windows registration never gets stuck**, as long as no notification has panicked under the lock or
does, and each listing, each call of the callback and each waker comes back. -/
theorem registration_settles :
    (∀ m, Reach (calm callbackWatch) m → ComesToRest callbackWatch m) ∧
      ∀ m, Reach (calm queuedWatch) m → ComesToRest queuedWatch m := by
  refine ⟨fun m r => ⟨settles_rest callbackWatch_lawful r, ?_⟩,
    fun m r => ⟨settles_rest queuedWatch_lawful r, ?_⟩⟩
  · exact fun exit he hne => settles_dropped callbackWatch_lawful r he hne
  · exact fun exit he hne => settles_dropped queuedWatch_lawful r he hne

/-- The user drops the handle of `quietTold` while a notification waits for the lock. -/
theorem registration_settles_closed :
    Settles (Own callbackWatch) (fun t => t.pc = .dropped .closed ∧ ∀ k, t.Idle k)
      { quietTold.setWaiting .unicast 1 with pc := .cancelling .unicast .closed true } 13 := by
  have notified := calm_quietTold.step ⟨.plain, Step.notify .unicast 0 nofun rfl, by simp⟩
  have closed := notified.step ⟨.plain, Step.close rfl, by simp⟩
  exact (registration_settles.1 _ closed).drops .closed rfl nofun

end Netwatcher.WatchWin
