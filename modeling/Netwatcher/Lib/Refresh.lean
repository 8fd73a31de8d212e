import Netwatcher.Lib.Runs
/-!
# Re-reading a changing value on a signal

A value changes at any moment; each change is followed, at once or later, by a signal. Reading
the value takes time: a read that no change overlaps returns the value, one that a change overlaps
returns anything or fails. A reader waits for a signal, may discard signals, and reads again.

`St` is that protocol with everything else left out. `quiet_idle` is why it works: signals are
discarded only *before* a read begins, so a change whose signal is lost was made before the read
and is seen by it, and a change during the read still owes a signal or has raised one after the
last discard.
-/
namespace Refresh
open Runs

/-- A value that changes under its readers. -/
structure Tracked (α : Type*) where
  cur : α
  /-- Changes that no signal has followed yet. -/
  owed : Nat
  /-- Whether the value changed since the read in progress began. -/
  torn : Bool

section
variable {α : Type*}

namespace Tracked

def change (v : Tracked α) (a : α) : Tracked α := ⟨a, v.owed + 1, true⟩
/-- A change nobody is subscribed to yet: no signal will follow it. -/
def drift (v : Tracked α) (a : α) : Tracked α := { v with cur := a, torn := true }
/-- A signal that follows `k` of the past changes; `k = 0` is a spurious one. -/
def raise (v : Tracked α) (k : Nat) : Tracked α := { v with owed := v.owed - k }
def beginRead (v : Tracked α) : Tracked α := { v with torn := false }

/-- What a read may return at its end. -/
def Reads (v : Tracked α) (r : Option α) : Prop := v.torn = false → r = some v.cur

@[simp] theorem change_cur (v : Tracked α) (a : α) : (v.change a).cur = a := rfl
@[simp] theorem change_owed (v : Tracked α) (a : α) : (v.change a).owed = v.owed + 1 := rfl
@[simp] theorem change_torn (v : Tracked α) (a : α) : (v.change a).torn = true := rfl
@[simp] theorem raise_cur (v : Tracked α) (k : Nat) : (v.raise k).cur = v.cur := rfl
@[simp] theorem raise_torn (v : Tracked α) (k : Nat) : (v.raise k).torn = v.torn := rfl
@[simp] theorem beginRead_cur (v : Tracked α) : v.beginRead.cur = v.cur := rfl
@[simp] theorem beginRead_torn (v : Tracked α) : v.beginRead.torn = false := rfl

end Tracked

/-- Where the reader is. -/
inductive Phase (α : Type*)
  /-- Waiting for a signal; `view` is the value it has. -/
  | idle (view : α)
  /-- About to read: signals may still be discarded. -/
  | stale
  | reading
  | loaded (r : Option α)

structure St (α : Type*) where
  val : Tracked α
  /-- A signal has been raised and not discarded. -/
  signal : Bool
  phase : Phase α

inductive Step : St α → St α → Prop
  | change {s : St α} (a : α) : Step s { s with val := s.val.change a }
  | drift {s : St α} (a : α) : s.phase = .stale → Step s { s with val := s.val.drift a }
  | raise {s : St α} (k : Nat) : Step s { s with val := s.val.raise k, signal := true }
  | wake {s : St α} {v : α} : s.phase = .idle v → Step s { s with phase := .stale }
  | consume {s : St α} (b : Bool) : s.phase = .stale → Step s { s with signal := b }
  | start {s : St α} : s.phase = .stale → Step s { s with val := s.val.beginRead, phase := .reading }
  | finish {s : St α} (r : Option α) : s.phase = .reading → s.val.Reads r →
      Step s { s with phase := .loaded r }
  | install {s : St α} {a : α} : s.phase = .loaded (some a) → Step s { s with phase := .idle a }
  /-- A failed read leaves the reader with whatever view it had. -/
  | giveUp {s : St α} (v : α) : s.phase = .loaded none → Step s { s with phase := .idle v }

/-- The reader starts subscribed and about to read, with any signals already raised. -/
def system (α : Type*) : Sys (St α) where
  init s := s.phase = .stale
  step := Step

section
variable {v : Tracked α} {b : Bool}

theorem later_install (a : α) : Later (system α) ⟨v, b, .loaded (some a)⟩ ⟨v, b, .idle a⟩ :=
  .single (Step.install rfl)

theorem later_giveUp (a : α) : Later (system α) ⟨v, b, .loaded none⟩ ⟨v, b, .idle a⟩ :=
  .single (Step.giveUp a rfl)

theorem later_wake (a : α) : Later (system α) ⟨v, b, .idle a⟩ ⟨v, b, .stale⟩ :=
  .single (Step.wake rfl)

end

/-- Every change so far has been followed by a signal, and every signal discarded. -/
def Quiet (s : St α) : Prop := s.val.owed = 0 ∧ s.signal = false

/-- What the reader knows when nothing more is going to tell it. -/
def Known (s : St α) : Prop :=
  match s.phase with
  | .idle view => view = s.val.cur
  | .stale => True
  | .reading => s.val.torn = false
  | .loaded r => r = some s.val.cur

theorem known_of_stale {s : St α} (h : s.phase = .stale) : Known s := by
  unfold Known; rw [h]; trivial

/-- One step keeps `Quiet → Known`: a change or a signal ends the quiet, and only a read that
nothing tore is installed in it. -/
theorem Step.known {s s' : St α} (ih : Quiet s → Known s) (h : Step s s') : Quiet s' → Known s' := by
  intro hq
  cases h with
  | change a => exact absurd hq.1 (Nat.succ_ne_zero _)
  | drift a hp => exact known_of_stale hp
  | raise k => exact absurd hq.2 (by simp)
  | wake hp => exact trivial
  | consume b hp => exact known_of_stale hp
  | start hp => exact rfl
  | finish r hp hr =>
    have hk := ih hq
    simp only [Known, hp] at hk
    exact hr hk
  | install hp =>
    have hk := ih hq
    simp only [Known, hp] at hk
    exact Option.some.inj hk
  | giveUp v hp =>
    have hk := ih hq
    simp only [Known, hp] at hk
    exact absurd hk (by simp)

theorem reach_known {s : St α} (r : Reach (system α) s) : Quiet s → Known s :=
  r.inv (I := fun s => Quiet s → Known s) (fun _ h _ => known_of_stale h) fun _ _ _ ih h => Step.known ih h

/-- **A waiting reader whose signals have all been handled has the current value.** -/
theorem quiet_idle {s : St α} (r : Reach (system α) s) (hq : Quiet s) {v : α}
    (hp : s.phase = .idle v) : v = s.val.cur := by
  have hk := reach_known r hq
  simpa only [Known, hp] using hk

/-! ## Following the protocol from outside

A program that follows the protocol shows a tracked value, whether a signal is up, and a phase. Each
rule says how the protocol keeps up with one move of the program; `Moves.trans` chains them. -/

/-- `a` is the protocol's state for what a program shows. Whether the value changed before a read
begins does not matter. -/
structure Shows (v : Tracked α) (signal : Bool) (phase : Phase α) (a : St α) : Prop where
  cur : a.val.cur = v.cur
  owed : a.val.owed = v.owed
  torn : phase ≠ .stale → a.val.torn = v.torn
  signal : a.signal = signal
  phase : a.phase = phase

/-- The protocol gets from `a` to where the program is now. -/
def Moves (a : St α) (v : Tracked α) (signal : Bool) (phase : Phase α) : Prop :=
  ∃ a', Later (system α) a a' ∧ Shows v signal phase a'

section
variable {v v' : Tracked α} {b b' : Bool} {p p' : Phase α} {a : St α}

theorem Moves.trans (h : Moves a v b p) (h' : ∀ a', Shows v b p a' → Moves a' v' b' p') :
    Moves a v' b' p' := by
  obtain ⟨a₁, l₁, h₁⟩ := h
  obtain ⟨a₂, l₂, h₂⟩ := h' a₁ h₁
  exact ⟨a₂, l₁.trans l₂, h₂⟩

theorem Shows.stay (h : Shows v b p a) : Moves a v b p := ⟨a, .refl, h⟩

theorem Shows.change (h : Shows v b p a) (x : α) : Moves a (v.change x) b p :=
  ⟨_, .single (Step.change x), ⟨rfl, by simp [h.owed], fun _ => rfl, h.signal, h.phase⟩⟩

theorem Shows.drift (h : Shows v b .stale a) (x : α) : Moves a (v.drift x) b .stale :=
  ⟨_, .single (Step.drift x h.phase), ⟨rfl, h.owed, fun hn => absurd rfl hn, h.signal, h.phase⟩⟩

theorem Shows.raise (h : Shows v b p a) (k : Nat) : Moves a (v.raise k) true p :=
  ⟨_, .single (Step.raise k), ⟨h.cur, by simp [Tracked.raise, h.owed], h.torn, rfl, h.phase⟩⟩

/-- Before a read, signals come and go. -/
theorem Shows.discard (h : Shows v b .stale a) (b' : Bool) : Moves a v b' .stale :=
  ⟨_, .single (Step.consume b' h.phase), ⟨h.cur, h.owed, fun hn => absurd rfl hn, rfl, h.phase⟩⟩

theorem Shows.untorn (h : Shows v b .stale a) : Shows v.beginRead b .stale a :=
  ⟨h.cur, h.owed, fun hn => absurd rfl hn, h.signal, h.phase⟩

/-- Whatever is owed to a reader that has not begun to read may be forgotten. -/
theorem Shows.settle (h : Shows v b .stale a) (k : Nat) : Moves a (v.raise k) b .stale :=
  (h.raise k).trans fun _ h => h.discard b

/-- The reader goes back to before its read. -/
theorem Shows.retire {x : α} (h : Shows v b (.idle x) a) : Moves a v b .stale :=
  ⟨_, .single (Step.wake h.phase), ⟨h.cur, h.owed, fun hn => absurd rfl hn, h.signal, rfl⟩⟩

theorem Shows.start (h : Shows v b .stale a) (b' : Bool) : Moves a v.beginRead b' .reading :=
  (h.discard b').trans fun _ h =>
    ⟨_, .single (Step.start h.phase), ⟨h.cur, h.owed, fun _ => rfl, h.signal, rfl⟩⟩

/-- A waiting reader takes a signal and begins to read. -/
theorem Shows.restart {x : α} (h : Shows v b (.idle x) a) (b' : Bool) :
    Moves a v.beginRead b' .reading :=
  h.retire.trans fun _ h => h.start b'

theorem Shows.finish (h : Shows v b .reading a) {r : Option α} (hr : v.Reads r) :
    Moves a v b (.loaded r) := by
  refine ⟨_, .single (Step.finish r h.phase ?_), ⟨h.cur, h.owed, fun _ => h.torn (by simp), h.signal, rfl⟩⟩
  intro ht
  rw [h.cur]
  exact hr (by rw [← h.torn (by simp), ht])

/-- A read that succeeded is the reader's view; one that failed leaves it any. -/
theorem Shows.install {r : Option α} (h : Shows v b (.loaded r) a) {x : α} (hx : ∀ y, r = some y → x = y) :
    Moves a v b (.idle x) := by
  cases r with
  | none =>
    exact ⟨_, .single (Step.giveUp x h.phase), ⟨h.cur, h.owed, fun _ => h.torn (by simp), h.signal, rfl⟩⟩
  | some y =>
    obtain rfl := hx y rfl
    exact ⟨_, .single (Step.install h.phase), ⟨h.cur, h.owed, fun _ => h.torn (by simp), h.signal, rfl⟩⟩

/-- A read whose result is not used. -/
theorem Shows.abandon {r : Option α} (h : Shows v b (.loaded r) a) (x : α) : Moves a v b .stale :=
  (h.install (x := r.getD x) fun y hy => by simp [hy]).trans fun _ h => h.retire

/-- **A program that shows a waiting reader, no signal and nothing owed shows the current value.** -/
theorem Shows.fresh {x : α} (h : Shows v false (.idle x) a) (r : Reach (system α) a) (ho : v.owed = 0) :
    x = v.cur := by
  rw [quiet_idle r ⟨by rw [h.owed, ho], h.signal⟩ h.phase, h.cur]

end

end

end Refresh
