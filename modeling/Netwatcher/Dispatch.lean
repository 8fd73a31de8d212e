import Netwatcher.Callback
/-!
# Sequences of dispatches (`src/callback.rs`)

What a set of callbacks goes through over a whole sequence of calls of `dispatch_callbacks`. A call
that unwound would end the sequence.

| here | there |
| --- | --- |
| `dispatchAll` | `dispatch_callbacks` (callback.rs:62) for one update after the other |
| `notifyAll`   | what these calls amount to for one callback: `call_from_notification` (:33) each |
| `PanicsOn`    | `catch_unwind` catches something in the call with update `n` (:38) |

Everything about a sequence follows from `dispatchAll_eq`: each callback goes its own way.
-/
namespace Netwatcher

def dispatchAll (callbacks : List Callback) : List Update → List Callback × Except Payload Unit
  | [] => (callbacks, .ok ())
  | update :: updates =>
    match dispatchCallbacks callbacks update with
    | (callbacks, .error payload) => (callbacks, .error payload)
    | (callbacks, .ok ()) => dispatchAll callbacks updates

namespace Callback

def notifyAll (self : Callback) (updates : List Update) : Callback :=
  updates.foldl (fun callback update => (callback.callFromNotification update).1) self

/-- The closure, given `updates` one by one, panics on update `n`. -/
def PanicsOn (self : Callback) (updates : List Update) (n : Nat) : Prop :=
  ∃ p, self.callback.behaviour (self.delivered ++ updates.take (n + 1)) = .error p

theorem notifyAll_concat (c : Callback) (updates : List Update) (u : Update) :
    c.notifyAll (updates ++ [u]) = ((c.notifyAll updates).callFromNotification u).1 := by
  simp [notifyAll]

/-- A callback in quarantine is left as it is. -/
theorem notifyAll_of_failed {c : Callback} (h : c.failed = true) (updates : List Update) :
    c.notifyAll updates = c := by
  induction updates using List.reverseRecOn with
  | nil => rfl
  | append_singleton updates u ih => rw [notifyAll_concat, ih, callFromNotification_of_failed h]

theorem panicsOn_concat_of_lt {c : Callback} {updates : List Update} {n : Nat} (h : n < updates.length)
    (u : Update) : c.PanicsOn (updates ++ [u]) n ↔ c.PanicsOn updates n := by
  rw [PanicsOn, PanicsOn, List.take_append_of_le_length (by omega)]

theorem panicsOn_concat_length {c : Callback} {updates : List Update} (u : Update) :
    c.PanicsOn (updates ++ [u]) updates.length ↔
      ∃ p, c.callback.behaviour (c.delivered ++ updates ++ [u]) = .error p := by
  rw [PanicsOn, List.take_of_length_le (by simp), List.append_assoc]

/-- What a callback that was given `updates` has become: it was called with the first `called` of
them, and it is in quarantine iff one of them made it panic. -/
structure Notified (c : Callback) (updates : List Update) (called : Nat) (c' : Callback) : Prop where
  behaviour : c'.callback.behaviour = c.callback.behaviour
  delivered : c'.delivered = c.delivered ++ updates.take called
  /-- It was called with update `n` iff no update before `n` made it panic. -/
  called_iff : ∀ n, n < updates.length → (n < called ↔ ∀ k < n, ¬ c.PanicsOn updates k)
  failed_iff : c'.failed = true ↔ ∃ k < updates.length, c.PanicsOn updates k

/-- In quarantine one more update changes nothing. -/
theorem Notified.skip {c c' : Callback} {updates : List Update} {called : Nat}
    (h : Notified c updates called c') (hle : called ≤ updates.length) (hf : c'.failed = true) (u : Update) :
    Notified c (updates ++ [u]) called c' := by
  obtain ⟨k, hk, hpk⟩ := h.failed_iff.1 hf
  refine ⟨h.behaviour, ?_, ?_, ?_⟩
  · rw [h.delivered, List.take_append_of_le_length hle]
  · intro n hn
    rw [List.length_append, List.length_singleton] at hn
    by_cases hlt : n < updates.length
    · rw [h.called_iff n hlt]
      refine forall₂_congr fun j hj => ?_
      rw [panicsOn_concat_of_lt (by omega)]
    · constructor
      · intro hc
        omega
      · intro hno
        exact absurd ((panicsOn_concat_of_lt hk u).2 hpk) (hno k (by omega))
  · refine iff_of_true hf ⟨k, ?_, (panicsOn_concat_of_lt hk u).2 hpk⟩
    rw [List.length_append, List.length_singleton]
    omega

/-- Out of quarantine it is called with the update, and is quarantined iff that call panics. -/
theorem Notified.call {c c' : Callback} {updates : List Update}
    (h : Notified c updates updates.length c') (hf : c'.failed = false) (u : Update) :
    Notified c (updates ++ [u]) (updates.length + 1) (c'.callFromNotification u).1 := by
  have hno : ∀ k < updates.length, ¬ c.PanicsOn (updates ++ [u]) k := by
    intro k hk hp
    rw [h.failed_iff.2 ⟨k, hk, (panicsOn_concat_of_lt hk u).1 hp⟩] at hf
    cases hf
  have hd : c'.delivered = c.delivered ++ updates := by rw [h.delivered, List.take_length]
  refine ⟨?_, ?_, ?_, ?_⟩
  · rw [callFromNotification_behaviour, h.behaviour]
  · rw [callFromNotification_delivered hf, hd, List.take_of_length_le (by simp), List.append_assoc]
  · intro n hn
    rw [List.length_append, List.length_singleton] at hn
    refine iff_of_true hn fun k hk => ?_
    exact hno k (by omega)
  · rw [callFromNotification_failed, hf, h.behaviour, hd, ← panicsOn_concat_length]
    constructor
    · rintro (hc | hp)
      · cases hc
      · exact ⟨updates.length, by simp, hp⟩
    · rintro ⟨k, hk, hp⟩
      rw [List.length_append, List.length_singleton] at hk
      by_cases hlt : k < updates.length
      · exact absurd hp (hno k hlt)
      · obtain rfl : k = updates.length := by omega
        exact .inr hp

/-- **One callback over a sequence of updates**: called up to and including the first panic. -/
theorem notifyAll_notified {c : Callback} (h : c.failed = false) (updates : List Update) :
    ∃ called ≤ updates.length, Notified c updates called (c.notifyAll updates) ∧
      ((c.notifyAll updates).failed = false → called = updates.length) := by
  induction updates using List.reverseRecOn with
  | nil =>
    refine ⟨0, le_rfl, ⟨rfl, ?_, ?_, ?_⟩, fun _ => rfl⟩
    · simp [notifyAll]
    · simp
    · simp [notifyAll, h]
  | append_singleton updates u ih =>
    obtain ⟨called, hle, hn, hall⟩ := ih
    rw [notifyAll_concat]
    cases hf : (c.notifyAll updates).failed with
    | true =>
      rw [callFromNotification_of_failed hf]
      refine ⟨called, by simp; omega, hn.skip hle hf u, ?_⟩
      intro hf'
      rw [hf] at hf'
      cases hf'
    | false =>
      obtain rfl := hall hf
      exact ⟨updates.length + 1, by simp, hn.call hf u, fun _ => by simp⟩

end Callback

/-- **Each callback goes its own way**, and no dispatch of the sequence unwinds. -/
theorem dispatchAll_eq (callbacks : List Callback) (updates : List Update) :
    dispatchAll callbacks updates = (callbacks.map (·.notifyAll updates), .ok ()) := by
  induction updates generalizing callbacks with
  | nil => simp [dispatchAll, Callback.notifyAll]
  | cons u updates ih =>
    rw [dispatchAll, dispatchCallbacks_eq]
    simp only [ih, List.map_map, Prod.mk.injEq, and_true]
    rfl

/-- What the callbacks of a registry may rely on over a sequence of dispatches. -/
structure Isolated (callbacks : List Callback) (updates : List Update) : Prop where
  /-- No dispatch unwinds. -/
  returns : ∀ n, (dispatchAll callbacks (updates.take n)).2 = .ok ()
  /-- A callback that had not failed gets the updates up to and including the first it panics on. -/
  notified : ∀ (i : Nat) (c : Callback), callbacks[i]? = some c → c.failed = false →
    ∃ called c', (dispatchAll callbacks updates).1[i]? = some c' ∧ c.Notified updates called c'
  /-- One that had failed is left as it is. -/
  quarantined : ∀ (i : Nat) (c : Callback), callbacks[i]? = some c → c.failed = true →
    (dispatchAll callbacks updates).1[i]? = some c
  /-- Neither the other callbacks nor the position matter. -/
  independent : ∀ (callbacks' : List Callback) (i j : Nat), callbacks[i]? = callbacks'[j]? →
    (dispatchAll callbacks updates).1[i]? = (dispatchAll callbacks' updates).1[j]?

/-- **Callback panics are isolated and quarantine is permanent.** -/
theorem dispatchAll_isolated (callbacks : List Callback) (updates : List Update) :
    Isolated callbacks updates := by
  refine ⟨?_, ?_, ?_, ?_⟩
  · intro n
    rw [dispatchAll_eq]
  · intro i c hc hf
    obtain ⟨called, -, hn, -⟩ := Callback.notifyAll_notified hf updates
    refine ⟨called, c.notifyAll updates, ?_, hn⟩
    rw [dispatchAll_eq, List.getElem?_map, hc, Option.map_some]
  · intro i c hc hf
    rw [dispatchAll_eq, List.getElem?_map, hc, Option.map_some, Callback.notifyAll_of_failed hf]
  · intro callbacks' i j h
    rw [dispatchAll_eq, dispatchAll_eq, List.getElem?_map, List.getElem?_map, h]

end Netwatcher
