import Netwatcher.Update
/-!
# User callbacks and their panics (`src/callback.rs`)

Running code that may unwind gives an `Except Payload α`: `.error` carries the panic payload.

| here | there |
| --- | --- |
| `FnMut`    | `Box<dyn FnMut(Update)>`: what it does on a call may depend on all calls so far |
| `Callback`, `callInitial`, `callFromNotification` | callback.rs:8, :25, :33 |
| `dropPanicPayload` | callback.rs:54 |
| `dispatchCallbacks` | callback.rs:62 |
-/
namespace Netwatcher

/-- A panic payload: its destructor may panic too. -/
inductive Payload
  | plain
  | panicsOnDrop (payload : Payload)
deriving DecidableEq, Repr

/-- `drop(payload)`. -/
def Payload.drop : Payload → Except Payload Unit
  | .plain => .ok ()
  | .panicsOnDrop payload => .error payload

/-- `catch_unwind`: the outcome becomes a value. -/
def catchUnwind {α : Type} (code : Except Payload α) : Except Payload (Except Payload α) := .ok code

/-- `std::mem::forget` runs no destructor. -/
def forget (_ : Payload) : Except Payload Unit := .ok ()

def dropPanicPayload (payload : Payload) : Except Payload Unit := do
  match ← catchUnwind payload.drop with
  | .error payload => forget payload
  | .ok () => .ok ()

/-- A closure and the calls made of it; `behaviour` tells how the last call of a history ends. -/
structure FnMut where
  behaviour : List Update → Except Payload Unit
  calls : List Update

def FnMut.call (f : FnMut) (update : Update) : FnMut × Except Payload Unit :=
  ({ f with calls := f.calls ++ [update] }, f.behaviour (f.calls ++ [update]))

/-- A closure that never panics, and one that always does. -/
def FnMut.quiet : FnMut := { behaviour := fun _ => .ok (), calls := [] }
def FnMut.panicky : FnMut := { behaviour := fun _ => .error .plain, calls := [] }

structure Callback where
  callback : FnMut
  failed : Bool

namespace Callback

def new (callback : FnMut) : Callback := { callback, failed := false }

/-- Everything the user's closure has been given. -/
def delivered (self : Callback) : List Update := self.callback.calls

def callInitial (self : Callback) (update : Update) : Callback × Except Payload Unit :=
  let (callback, result) := self.callback.call update
  ({ self with callback }, result)

def callFromNotification (self : Callback) (update : Update) : Callback × Except Payload Unit :=
  if self.failed then (self, .ok ())
  else
    let (callback, result) := self.callback.call update
    match catchUnwind result with
    | .ok (.error payload) => ({ callback, failed := true }, dropPanicPayload payload)
    | .ok (.ok ()) => ({ self with callback }, .ok ())
    | .error payload => ({ self with callback }, .error payload)

end Callback

/-- `peek` gives the last callback the update itself rather than a clone. -/
def dispatchCallbacks : List Callback → Update → List Callback × Except Payload Unit
  | [], _ => ([], .ok ())
  | [callback], update =>
    let (callback, result) := callback.callFromNotification update
    ([callback], result)
  | callback :: next :: rest, update =>
    match callback.callFromNotification update with
    | (callback, .error payload) => (callback :: next :: rest, .error payload)
    | (callback, .ok ()) =>
      let (callbacks, result) := dispatchCallbacks (next :: rest) update
      (callback :: callbacks, result)

theorem dropPanicPayload_ok (payload : Payload) : dropPanicPayload payload = .ok () := by
  cases payload <;> rfl

namespace Callback

@[simp] theorem new_delivered (f : FnMut) : (new f).delivered = f.calls := rfl
@[simp] theorem new_failed (f : FnMut) : (new f).failed = false := rfl

@[simp] theorem callInitial_delivered (c : Callback) (u : Update) :
    (c.callInitial u).1.delivered = c.delivered ++ [u] := rfl
@[simp] theorem callInitial_failed (c : Callback) (u : Update) : (c.callInitial u).1.failed = c.failed :=
  rfl

/-- A panic of the user's closure, or of the payload's destructor, never leaves a notification. -/
@[simp] theorem callFromNotification_ok (c : Callback) (u : Update) :
    (c.callFromNotification u).2 = .ok () := by
  unfold callFromNotification
  split
  · rfl
  · cases h : (c.callback.call u).2 with
    | ok _ => simp [h, catchUnwind]
    | error p => simp [h, catchUnwind, dropPanicPayload_ok]

theorem callFromNotification_of_failed {c : Callback} (h : c.failed = true) (u : Update) :
    (c.callFromNotification u).1 = c := by
  simp [callFromNotification, h]

theorem callFromNotification_delivered {c : Callback} (h : c.failed = false) (u : Update) :
    (c.callFromNotification u).1.delivered = c.delivered ++ [u] := by
  unfold callFromNotification
  simp only [h, Bool.false_eq_true, if_false]
  cases (c.callback.call u).2 <;> rfl

@[simp] theorem callFromNotification_behaviour (c : Callback) (u : Update) :
    (c.callFromNotification u).1.callback.behaviour = c.callback.behaviour := by
  unfold callFromNotification
  split
  · rfl
  · simp only [FnMut.call]
    cases c.callback.behaviour (c.callback.calls ++ [u]) <;> rfl

/-- A callback is quarantined by a panic, and stays so. -/
theorem callFromNotification_failed (c : Callback) (u : Update) :
    (c.callFromNotification u).1.failed = true ↔
      c.failed = true ∨ ∃ p, c.callback.behaviour (c.delivered ++ [u]) = .error p := by
  cases h : c.failed with
  | true => simp [callFromNotification_of_failed h, h]
  | false =>
    unfold callFromNotification
    simp only [h, Bool.false_eq_true, if_false, false_or, delivered]
    cases hr : c.callback.behaviour (c.callback.calls ++ [u]) <;> simp [FnMut.call, hr, catchUnwind]

end Callback

/-- **Dispatch reaches every callback**, whatever the others do, and does not unwind. -/
theorem dispatchCallbacks_eq (callbacks : List Callback) (update : Update) :
    dispatchCallbacks callbacks update = (callbacks.map (·.callFromNotification update |>.1), .ok ()) := by
  induction callbacks with
  | nil => rfl
  | cons callback rest ih =>
    cases rest with
    | nil => simp [dispatchCallbacks]
    | cons next rest =>
      rw [dispatchCallbacks]
      split
      · rename_i h
        have := callback.callFromNotification_ok update
        rw [h] at this
        cases this
      · rename_i h
        simp only [ih, List.map_cons, h]

end Netwatcher
