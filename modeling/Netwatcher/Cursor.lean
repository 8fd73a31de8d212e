import Netwatcher.Update
/-!
# `UpdateCursor` and unbroken logs of updates (`src/lib.rs`)

| here | there |
| --- | --- |
| `UpdateCursor`, `UpdateCursor.default` | `UpdateCursor` (lib.rs:358) and its `Default` |
| `advance` | `UpdateCursor::advance` (lib.rs:373): the cursor afterwards and the result |
| `feed`    | a sequence of calls of `advance`: the cursor afterwards and the updates emitted |

`Unbroken` says what a receiver of updates may rely on, whichever watcher made them: the first
update is initial, and each later one is the diff from its predecessor to a different snapshot.
`Linked` ties a log to the cursor that emits it.
-/
namespace Netwatcher
open Coll

structure UpdateCursor where
  prevList : IfList
  initialPending : Bool

namespace UpdateCursor

def default : UpdateCursor := { prevList := ∅, initialPending := true }

def advance (self : UpdateCursor) (newList : IfList) : UpdateCursor × Option Update :=
  if self.initialPending then
    ({ prevList := newList, initialPending := false }, some newList.initialUpdate)
  else if newList = self.prevList then (self, none)
  else ({ self with prevList := newList }, some (newList.updateFrom self.prevList))

def feed (self : UpdateCursor) : List IfList → UpdateCursor × List Update
  | [] => (self, [])
  | l :: ls =>
    let (self, update) := self.advance l
    let (self, updates) := self.feed ls
    (self, update.toList ++ updates)

@[simp] theorem advance_prevList (c : UpdateCursor) (l : IfList) : (c.advance l).1.prevList = l := by
  unfold advance
  split
  · rfl
  · split
    · rename_i h; exact h.symm
    · rfl

@[simp] theorem advance_initialPending (c : UpdateCursor) (l : IfList) :
    (c.advance l).1.initialPending = false := by
  unfold advance
  split
  · rfl
  · rename_i h
    split <;> simpa using h

/-- The three outcomes of one call. -/
theorem advance_cases (c : UpdateCursor) (l : IfList) :
    (c.initialPending = true ∧ (c.advance l).2 = some l.initialUpdate) ∨
    (c.initialPending = false ∧ l = c.prevList ∧ (c.advance l).2 = none) ∨
    (c.initialPending = false ∧ l ≠ c.prevList ∧ (c.advance l).2 = some (l.updateFrom c.prevList)) := by
  unfold advance
  cases hp : c.initialPending with
  | true => exact .inl ⟨rfl, rfl⟩
  | false =>
    by_cases hl : l = c.prevList
    · exact .inr (.inl ⟨rfl, hl, by simp [hl]⟩)
    · exact .inr (.inr ⟨rfl, hl, by simp [hl]⟩)

end UpdateCursor

/-! ## Unbroken logs -/

/-- `v` may be delivered right after `u`. -/
def Follows (u v : Update) : Prop :=
  v.interfaces ≠ u.interfaces ∧ v = v.interfaces.updateFrom u.interfaces

/-- The first update is initial, every later one follows its predecessor. -/
structure Unbroken (log : List Update) : Prop where
  head : ∀ u ∈ log.head?, u = u.interfaces.initialUpdate
  chain : log.IsChain Follows

/-- The snapshot the receiver of a log holds. -/
def lastInterfaces (log : List Update) : Option IfList := log.getLast?.map (·.interfaces)

@[simp] theorem lastInterfaces_concat (log : List Update) (u : Update) :
    lastInterfaces (log ++ [u]) = some u.interfaces := by
  simp [lastInterfaces]

theorem Unbroken.nil : Unbroken [] := ⟨by simp, List.isChain_nil⟩

theorem Unbroken.singleton (l : IfList) : Unbroken [l.initialUpdate] :=
  ⟨by simp, List.isChain_singleton _⟩

theorem Unbroken.concat {log : List Update} (h : Unbroken log) {prev l : IfList}
    (hlast : lastInterfaces log = some prev) (hne : l ≠ prev) : Unbroken (log ++ [l.updateFrom prev]) := by
  obtain ⟨u, hu, rfl⟩ := Option.map_eq_some_iff.1 hlast
  refine ⟨?_, ?_⟩
  · cases log with
    | nil => simp at hu
    | cons v log => exact h.head
  · refine h.chain.append (List.isChain_singleton _) ?_
    intro x hx y hy
    simp only [List.head?_cons, Option.mem_def, Option.some.injEq] at hy
    rw [Option.mem_def, hu, Option.some.injEq] at hx
    subst hx hy
    exact ⟨hne, rfl⟩

/-- `is_initial` is set on the first update and on no other. -/
theorem Unbroken.isInitial_iff {log : List Update} (h : Unbroken log) {i : Nat} (hi : i < log.length) :
    log[i].isInitial = true ↔ i = 0 := by
  cases i with
  | zero =>
    have := h.head log[0] (by rw [List.head?_eq_getElem?, List.getElem?_eq_getElem hi]; rfl)
    rw [this]
    simp
  | succ i =>
    have := (List.isChain_iff_getElem.1 h.chain i hi).2
    rw [this]
    simp

/-- Each later update names the interfaces of its predecessor as what it is a diff from. -/
theorem Unbroken.follows {log : List Update} (h : Unbroken log) {i : Nat} (hi : i + 1 < log.length) :
    Follows log[i] log[i + 1] := List.isChain_iff_getElem.1 h.chain i hi

/-! ## The cursor writes an unbroken log -/

/-- `log` is everything `c` has emitted. -/
def Linked (c : UpdateCursor) (log : List Update) : Prop :=
  Unbroken log ∧ (c.initialPending = true → log = []) ∧
    (c.initialPending = false → lastInterfaces log = some c.prevList)

theorem linked_default : Linked .default [] := ⟨.nil, fun _ => rfl, fun h => nomatch h⟩

theorem Linked.advance {c : UpdateCursor} {log : List Update} (h : Linked c log) (l : IfList) :
    Linked (c.advance l).1 (log ++ (c.advance l).2.toList) := by
  obtain ⟨hu, hp, hn⟩ := h
  rcases c.advance_cases l with ⟨h, hr⟩ | ⟨h, hl, hr⟩ | ⟨h, hl, hr⟩
  · obtain rfl := hp h
    rw [hr]
    exact ⟨.singleton l, by simp, fun _ => by simp [lastInterfaces]⟩
  · rw [hr]
    refine ⟨by simpa using hu, by simp, ?_⟩
    intro _
    rw [UpdateCursor.advance_prevList, hl]
    simpa using hn h
  · rw [hr]
    exact ⟨hu.concat (hn h) hl, by simp, fun _ => by simp⟩

theorem Linked.feed {c : UpdateCursor} {log : List Update} (h : Linked c log) (ls : List IfList) :
    Linked (c.feed ls).1 (log ++ (c.feed ls).2) := by
  induction ls generalizing c log with
  | nil => simpa [UpdateCursor.feed] using h
  | cons l ls ih =>
    have := ih (h.advance l)
    simpa [UpdateCursor.feed, List.append_assoc] using this

end Netwatcher
