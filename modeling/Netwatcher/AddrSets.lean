import Netwatcher.Cursor
/-!
# Updates depend only on address sets (`Interface::normalise`, `UpdateCursor`)

A platform may report the addresses of an interface in any order and more than once. What the
listing code collects is a `RawList`; normalising each interface makes two of them equal iff they
have the same content (`normaliseAll_eq_iff`), so a cursor cannot tell them apart and emits an update
iff the content has changed (`updates_by_content`).

| here | there |
| --- | --- |
| `RawList`      | interfaces under their own index, before `interface.normalise()` (list_unix.rs:96, list_win.rs:120) |
| `normaliseAll` | `Interface::normalise` (lib.rs:199) on every interface |
| `emitted`      | what each call of `UpdateCursor::advance` (lib.rs:373) in a sequence returns |
-/
namespace Netwatcher
open Coll SortDedup

/-- A snapshot whose address vectors are as the OS reported them. -/
structure RawList where
  list : IfList
  keyed : ∀ (k : IfIndex) (i : Interface), list[k]? = some i → i.index = k

def RawList.normaliseAll (raw : RawList) : IfList :=
  HashMap.collect (HashMap.comprehend raw.list fun _ i => some i.normalise)

/-- Equal names, hardware addresses and sets of addresses. -/
structure SameInterface (i j : Interface) : Prop where
  name : i.name = j.name
  hwAddr : i.hwAddr = j.hwAddr
  ips : ∀ r, r ∈ i.ips ↔ r ∈ j.ips

/-- Equal keys, and the same interface under each. -/
def SameContent (raw raw' : RawList) : Prop :=
  ∀ k : IfIndex, Option.Rel SameInterface raw.list[k]? raw'.list[k]?

/-! ## Normalising is a canonical form -/

@[simp] theorem RawList.getElem?_normaliseAll (raw : RawList) (k : IfIndex) :
    raw.normaliseAll[k]? = raw.list[k]?.map Interface.normalise := by
  rw [RawList.normaliseAll, HashMap.getElem?_collect_comprehend, Option.map_eq_bind]
  rfl

theorem normalise_eq_iff {i j : Interface} (h : i.index = j.index) :
    i.normalise = j.normalise ↔ SameInterface i j := by
  simp only [Interface.normalise, Interface.mk.injEq, sortDedup_eq_iff]
  constructor
  · rintro ⟨-, hn, hh, hr⟩
    exact ⟨hn, hh, hr⟩
  · rintro ⟨hn, hh, hr⟩
    exact ⟨h, hn, hh, hr⟩

/-- **Equality of normalised snapshots is sameness of content.** -/
theorem normaliseAll_eq_iff {raw raw' : RawList} : raw.normaliseAll = raw'.normaliseAll ↔ SameContent raw raw' := by
  rw [HashMap.ext_iff]
  refine forall_congr' fun k => ?_
  rw [RawList.getElem?_normaliseAll, RawList.getElem?_normaliseAll]
  cases hi : raw.list[k]? with
  | none =>
    cases hj : raw'.list[k]? with
    | none => exact iff_of_true rfl .none
    | some j => exact iff_of_false (by simp) fun h => by cases h
  | some i =>
    cases hj : raw'.list[k]? with
    | none => exact iff_of_false (by simp) fun h => by cases h
    | some j =>
      have hidx : i.index = j.index := (raw.keyed k i hi).trans (raw'.keyed k j hj).symm
      rw [Option.map_some, Option.map_some, Option.some.injEq, normalise_eq_iff hidx]
      constructor
      · exact .some
      · intro h
        cases h
        assumption

/-! ## A cursor call by call -/

namespace UpdateCursor

def emitted (self : UpdateCursor) : List IfList → List (Option Update)
  | [] => []
  | l :: ls => (self.advance l).2 :: (self.advance l).1.emitted ls

/-- `feed` leaves out the calls that return nothing. -/
theorem feed_eq_emitted (c : UpdateCursor) (ls : List IfList) :
    (c.feed ls).2 = (c.emitted ls).flatMap Option.toList := by
  induction ls generalizing c with
  | nil => rfl
  | cons l ls ih => simp [feed, emitted, ih]

/-- After the first call, a call compares with the list of the call before. -/
theorem getElem?_emitted_succ (c : UpdateCursor) (ls : List IfList) (n : Nat) (l l' : IfList)
    (hl : ls[n]? = some l) (hl' : ls[n + 1]? = some l') :
    (c.emitted ls)[n + 1]? = some (if l' = l then none else some (l'.updateFrom l)) := by
  induction n generalizing c ls with
  | zero =>
    rcases ls with - | ⟨a, - | ⟨b, ls⟩⟩
    · simp at hl
    · simp at hl'
    · simp only [List.getElem?_cons_zero, List.getElem?_cons_succ, Option.some.injEq] at hl hl'
      subst hl hl'
      simp only [emitted, List.getElem?_cons_succ, List.getElem?_cons_zero, Option.some.injEq]
      rw [advance, if_neg (by simp), advance_prevList]
      split <;> rfl
  | succ n ih =>
    cases ls with
    | nil => simp at hl
    | cons a ls => simpa [emitted] using ih (c.advance a).1 ls hl hl'

end UpdateCursor

/-- What a cursor returns for a sequence of snapshots, each interface normalised first. -/
def updatesOf (raws : List RawList) : List (Option Update) :=
  UpdateCursor.default.emitted (raws.map RawList.normaliseAll)

theorem map_normaliseAll_congr {raws raws' : List RawList} (h : List.Forall₂ SameContent raws raws') :
    raws.map RawList.normaliseAll = raws'.map RawList.normaliseAll := by
  induction h with
  | nil => rfl
  | cons h _ ih => rw [List.map_cons, List.map_cons, normaliseAll_eq_iff.2 h, ih]

/-- **Updates depend only on address sets**: two sequences of snapshots with the same content give
the same result at each step, and after the first step an update is emitted iff the content is not
that of the step before. -/
theorem updates_by_content {raws raws' : List RawList} (h : List.Forall₂ SameContent raws raws') :
    updatesOf raws = updatesOf raws' ∧
      ∀ (n : Nat) (raw next : RawList), raws[n]? = some raw → raws[n + 1]? = some next →
        ∃ u, (updatesOf raws)[n + 1]? = some u ∧ (u.isSome ↔ ¬ SameContent raw next) := by
  refine ⟨?_, ?_⟩
  · rw [updatesOf, updatesOf, map_normaliseAll_congr h]
  · intro n raw next hraw hnext
    have hl : (raws.map RawList.normaliseAll)[n]? = some raw.normaliseAll := by
      rw [List.getElem?_map, hraw, Option.map_some]
    have hl' : (raws.map RawList.normaliseAll)[n + 1]? = some next.normaliseAll := by
      rw [List.getElem?_map, hnext, Option.map_some]
    refine ⟨_, UpdateCursor.default.getElem?_emitted_succ _ n _ _ hl hl', ?_⟩
    rw [← normaliseAll_eq_iff]
    by_cases he : next.normaliseAll = raw.normaliseAll
    · rw [if_pos he, he]
      simp
    · rw [if_neg he]
      exact iff_of_true rfl fun h => he h.symm

/-- 192.0.2.2 reported before 192.0.2.1, then the other way round and once more. -/
def eth0Reporting (ips : List IpRecord) : RawList where
  list := (∅ : IfList).insert 2 ⟨2, "eth0", "", ips⟩
  keyed k i hi := by
    rw [HashMap.getElem?_insert] at hi
    split at hi
    · rename_i hk
      rw [Option.some.injEq] at hi
      rw [← hi, ← hk]
    · simp at hi

theorem sameContent_eth0Reporting {ips ips' : List IpRecord} (h : ∀ r, r ∈ ips ↔ r ∈ ips') :
    SameContent (eth0Reporting ips) (eth0Reporting ips') := by
  intro k
  simp only [eth0Reporting, HashMap.getElem?_insert]
  split
  · exact .some ⟨rfl, rfl, h⟩
  · simp

def addr1 : IpRecord := ⟨.V4 0xC0000201#32, 24⟩
def addr2 : IpRecord := ⟨.V4 0xC0000202#32, 24⟩

theorem updates_by_content_reordered :
    updatesOf [eth0Reporting [addr2, addr1], eth0Reporting [addr1]] =
      updatesOf [eth0Reporting [addr1, addr2, addr1], eth0Reporting [addr1, addr1]] := by
  refine (updates_by_content (.cons ?_ (.cons ?_ .nil))).1
  · exact sameContent_eth0Reporting (by simp [or_comm])
  · exact sameContent_eth0Reporting (by simp)

end Netwatcher
