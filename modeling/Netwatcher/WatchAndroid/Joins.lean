import Netwatcher.Lib.Settle
import Netwatcher.WatchAndroid.Chain
/-!
# An Android registration joins (`src/watch_android.rs`)

The loop of `finish_callback_registration` goes round again when the snapshot has moved while the
callback was being told the one before. Once the snapshot stays as it is, the loop is left after one
more turn at the most, and the callback has been told that snapshot; a registration whose initial
callback panics is taken out of the registry.
-/
namespace Netwatcher.WatchAndroid
open Coll Runs Settle

/-- In `register_callback_watcher` with an id. -/
def Client.registering : Client → Bool
  | .initial _ _ _ | .finishing _ _ _ | .calling _ _ _ _ | .unwinding _ => true
  | _ => false

/-- A step of the registration of client `n`, or of the notification that holds the lock, while the
snapshot stays as it is. -/
structure Own (n : Nat) (m m' : Machine) : Prop where
  step : Step m m'
  still : m'.state.currentInterfaces = m.state.currentInterfaces
  own : m'.lock ≠ m.lock ∨ (m.clients n).registering = true ∧ m'.clients n ≠ m.clients n

/-- The steps left of a registration when the snapshot is `cur`. -/
def Client.left (cur : IfList) : Client → Nat
  | .initial _ _ _ => 4
  | .finishing _ list _ => if cur = list then 1 else 3
  | .calling _ _ next _ => if cur = next then 2 else 4
  | .unwinding _ => 1
  | _ => 0

def Lock.left : Lock → Nat
  | .free => 0
  | .pushing queues => queues.length + 1

def Machine.left (m : Machine) (n : Nat) : Nat :=
  m.lock.left + (m.clients n).left m.state.currentInterfaces

theorem afterCall_left (cur : IfList) (id : WatcherId) (list : IfList) (callback : Callback)
    (result : Except Payload Unit) : (afterCall id list callback result).left cur ≤ if cur = list then 1 else 3 := by
  cases result with
  | ok _ => exact le_rfl
  | error _ => simp only [afterCall, Client.left]; split <;> omega

/-- A client moves, and the lock stays as it is. -/
theorem Own.moved {n : Nat} {m m' : Machine} (h : Own n m m') {k : Nat} {c c' : Client} (hk : m.clients k = c)
    (hc : m'.clients = Function.update m.clients k c') (hl : m'.lock = m.lock) (hr : c.registering = true →
      c'.left m.state.currentInterfaces < c.left m.state.currentInterfaces) : m'.left n < m.left n := by
  obtain ⟨hreg, hne⟩ := h.own.resolve_left fun hne => hne hl
  obtain rfl : n = k := by
    by_contra hnk
    rw [hc, Function.update_of_ne hnk] at hne
    exact hne rfl
  rw [hk] at hreg
  have hlt := hr hreg
  unfold Machine.left
  rw [hl, h.still, hc, hk, Function.update_self]
  omega

/-- **A step brings the registration nearer to its end.** -/
theorem Own.left {n : Nat} {m m' : Machine} (h : Own n m m') : m'.left n < m.left n := by
  have hstill := h.still
  have hown := h.own
  cases h.step with
  | allocate _ _ hk _ _ _ | refuseCallback _ hk _ | registerQueued _ _ hk _ _ | refuseQueued _ hk _
  | consume hk _ => exact h.moved hk rfl rfl nofun
  | @callInitial k id list callback callback' result hk _ =>
    refine h.moved hk rfl rfl fun _ => (afterCall_left ..).trans_lt ?_
    simp only [Client.left]
    split <;> omega
  | @join k id list callback state _ hk hf =>
    refine h.moved hk rfl rfl fun _ => ?_
    simp only [Client.left]
    split <;> omega
  | @behind k id list next callback state _ hk hf =>
    obtain ⟨-, rfl, hne⟩ := finishIteration_behind hf
    exact h.moved hk rfl rfl fun _ => by simp [Client.left, hne]
  | @callNext k id list next callback callback' result hk _ =>
    refine h.moved hk rfl rfl fun _ => (afterCall_left ..).trans_lt ?_
    simp only [Client.left]
    split <;> omega
  | @leave k id stop _ hk =>
    refine h.moved rfl rfl rfl fun hr => ?_
    -- a registration is left on the way out of a panic
    cases hc : m.clients k with
    | unwinding id' => exact Nat.one_pos
    | _ => simp [hc, Client.leaving, Client.registering] at hk hr
  | ignore => exact absurd hown (by simp [Machine.setState])
  | dispatch _ hv _ hd =>
    obtain ⟨newList, callbacks, hne, rfl, -⟩ := interfacesDidChange_dispatched hv hd
    exact absurd hstill hne
  | push hl => simp [Machine.left, hl, Lock.left, Machine.state]
  | release hl => simp [Machine.left, hl, Lock.left, Machine.state]

/-- The notification with the lock can go on, and so can a registration when the lock is free. -/
theorem exists_own {n : Nat} {m : Machine} (h : m.lock ≠ .free ∨ (m.clients n).registering = true) :
    ∃ m', Own n m m' := by
  cases hl : m.lock with
  | pushing queues =>
    cases queues with
    | nil => exact ⟨_, .release hl, rfl, .inl (by simp [hl])⟩
    | cons ref rest => exact ⟨_, .push hl, rfl, .inl (by simp [hl])⟩
  | free =>
    have hr := h.resolve_left fun hne => hne hl
    have moves {m' : Machine} {c c' : Client} (hs : Step m m') (hstill : m'.state.currentInterfaces =
        m.state.currentInterfaces) (hc : m.clients n = c) (hc' : m'.clients n = c') (hne : c' ≠ c) :
        ∃ m', Own n m m' :=
      ⟨m', hs, hstill, .inr ⟨hr, by rwa [hc, hc']⟩⟩
    have called (id : WatcherId) (list : IfList) (callback : Callback) (result : Except Payload Unit) :
        afterCall id list callback result = .finishing id list callback ∨
          afterCall id list callback result = .unwinding id := by
      cases result
      · exact .inr rfl
      · exact .inl rfl
    cases hc : m.clients n with
    | initial id list callback =>
      cases hcall : callback.callInitial list.initialUpdate with
      | mk callback' result =>
        refine moves (.callInitial hc hcall) rfl hc (Function.update_self ..) ?_
        rcases called id list callback' result with he | he <;> rw [he] <;> nofun
    | finishing id list callback =>
      cases hf : finishIteration m.state id list callback with
      | mk state next =>
        cases next with
        | none =>
          obtain ⟨-, hstate⟩ := finishIteration_joined hf
          exact moves (.join hl hc hf) (by rw [hstate]; rfl) hc (Function.update_self ..) nofun
        | some next =>
          obtain ⟨hstate, -, -⟩ := finishIteration_behind hf
          exact moves (.behind hl hc hf) (by rw [hstate]; rfl) hc (Function.update_self ..) nofun
    | calling id list next callback =>
      cases hcall : callback.callFromNotification (next.updateFrom list) with
      | mk callback' result =>
        refine moves (.callNext hc hcall) rfl hc (Function.update_self ..) ?_
        rcases called id next callback' result with he | he <;> rw [he] <;> nofun
    | unwinding id =>
      have hstill : (unregisterWatcher .stopped id m.world).state.currentInterfaces = m.state.currentInterfaces := by
        rw [unregisterWatcher_state]
        rfl
      exact moves (.leave .stopped hl (by rw [hc]; rfl)) hstill hc (Function.update_self ..) nofun
    | _ => simp [hc, Client.registering] at hr

/-- A registration that is over: it has joined, and has been told the snapshot if the callback is still
called, or it has left the registry after a panic of the initial callback. -/
def Registered (n : Nat) (m : Machine) : Prop :=
  m.lock = .free ∧ ((∃ id callback, m.clients n = .watching id ∧
    m.state.callbackWatchers[id]? = some callback ∧
      (callback.failed = false → lastInterfaces (m.log id) = some m.state.currentInterfaces)) ∨
    ∃ id, m.clients n = .gone id)

/-- In progress, joined or over. -/
def Client.began : Client → Bool
  | .watching _ | .gone _ => true
  | c => c.registering

theorem began_update {m : Machine} {n k : Nat} {c : Client} (hb : (m.clients n).began = true)
    (hc : (m.clients k).began = true → c.began = true) : (Function.update m.clients k c n).began = true := by
  by_cases hk : n = k
  · subst hk
    rw [Function.update_self]
    exact hc hb
  · rwa [Function.update_of_ne hk]

theorem afterCall_began (id : WatcherId) (list : IfList) (callback : Callback) (result : Except Payload Unit) :
    (afterCall id list callback result).began = true := by
  cases result <;> rfl

theorem Step.began {n : Nat} {m m' : Machine} (h : Step m m') (hb : (m.clients n).began = true) :
    (m'.clients n).began = true := by
  have absent {k : Nat} {c c' : Client} (hk : m.clients k = c) (hc : c.began = false) :
      (Function.update m.clients k c' n).began = true :=
    began_update hb fun hkb => by rw [hk, hc] at hkb; cases hkb
  cases h with
  | allocate _ _ hk _ _ _ | refuseCallback _ hk _ | registerQueued _ _ hk _ _ | refuseQueued _ hk _
  | consume hk _ => exact absent hk rfl
  | callInitial | callNext => exact began_update hb fun _ => afterCall_began ..
  | join | behind | leave => exact began_update hb fun _ => rfl
  | ignore | dispatch | push | release => exact hb

/-- Steps of the other clients, the lock and the snapshot being left as they are. -/
def Others (n : Nat) : Machine → Machine → Prop :=
  Relation.ReflTransGen fun m m' => Step m m' ∧ m'.state.currentInterfaces = m.state.currentInterfaces ∧
    m'.lock = m.lock ∧ m'.clients n = m.clients n

/-- The next step of the registration or of the notification, and what the other clients do before. -/
def Turn (n : Nat) (m m' : Machine) : Prop := ∃ between, Others n m between ∧ Own n between m'

theorem Others.keeps {n : Nat} {m m' : Machine} (h : Others n m m') (r : Reach system m) :
    Reach system m' ∧ m'.left n = m.left n ∧ m'.clients n = m.clients n := by
  induction h with
  | refl => exact ⟨r, rfl, rfl⟩
  | tail _ hs ih =>
    obtain ⟨rt, hleft, hn⟩ := ih
    obtain ⟨hs, hcur, hl, hc⟩ := hs
    exact ⟨rt.step hs, by rw [Machine.left, hcur, hl, hc]; exact hleft, hc.trans hn⟩

theorem registered_of_began {n : Nat} {m : Machine} (r : Reach system m) (hb : (m.clients n).began = true)
    (hl : m.lock = .free) (hr : (m.clients n).registering = false) : Registered n m := by
  have hclient := (chain r).client n
  refine ⟨hl, ?_⟩
  cases hc : m.clients n with
  | watching id =>
    rw [hc] at hclient
    obtain ⟨callback, hcb, ht⟩ := hclient
    exact .inl ⟨id, callback, rfl, hcb, ht.last⟩
  | gone id => exact .inr ⟨id, rfl⟩
  | initial | finishing | calling | unwinding =>
    rw [hc] at hr
    cases hr
  | _ =>
    rw [hc] at hb
    cases hb

/-- **A registration joins** once the snapshot stays as it is, whatever the other clients do: in four
steps at the most, those of a notification that has the lock apart. -/
theorem registration_joins {n : Nat} {m : Machine} (r : Reach system m)
    (hr : (m.clients n).registering = true) : Settles (Turn n) (Registered n) m (m.lock.left + 4) := by
  let I (t : Machine) : Prop := Reach system t ∧ (t.clients n).began = true
  have hb : (m.clients n).began = true := by
    cases hc : m.clients n <;> first | rfl | (rw [hc] at hr; cases hr)
  have hstep : ∀ t t', I t → Turn n t t' → I t' ∧ t'.left n < t.left n := by
    rintro t t' ⟨rt, hbt⟩ ⟨u, ho, hs⟩
    obtain ⟨ru, hleft, hn⟩ := ho.keeps rt
    exact ⟨⟨ru.step hs.step, hs.step.began (hn ▸ hbt)⟩, hleft ▸ hs.left⟩
  have hle : m.left n ≤ m.lock.left + 4 := by
    have : (m.clients n).left m.state.currentInterfaces ≤ 4 := by
      cases m.clients n <;> simp only [Client.left] <;> first | omega | (split <;> omega)
    exact Nat.add_le_add_left this _
  refine (settles_of_measure hstep ?_ ⟨r, hb⟩).mono hle
  rintro t ⟨rt, hbt⟩
  by_cases hgo : t.lock ≠ .free ∨ (t.clients n).registering = true
  · obtain ⟨t', ht⟩ := exists_own hgo
    exact .inl ⟨t', t, .refl, ht⟩
  · obtain ⟨hl, hreg⟩ := not_or.mp hgo
    exact .inr (registered_of_began rt hbt (not_not.mp hl) (by simpa using hreg))

theorem registration_joins_quiet : Settles (Turn 0) (Registered 0) quietAllocated 4 :=
  registration_joins reach_quietAllocated rfl

end Netwatcher.WatchAndroid
