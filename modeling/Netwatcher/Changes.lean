import Netwatcher.AddrReplay
import Netwatcher.Lib.Delta
/-!
# Changes add up (`Update::addrs_added`, `Update::addrs_removed`, `UpdateDiff`)

An update reports which interfaces and which addresses have come and gone since the update before
it. A client that looks at several updates at once can add them up: what cancels out is gone, and
the rest is what `update_from` reports between the outer two snapshots (`Unbroken.changes`). So it
makes no difference to the sum which snapshots a watcher has missed on its way to the last one.

| here | there |
| --- | --- |
| `Change`  | the interfaces added and removed (lib.rs:266-268), and the pairs of `addrs_added`, `addrs_removed` (lib.rs:226, :246) |
| `Reports` | an `Update` reports this change and no other, each part of it once |
-/
namespace Netwatcher
open Coll Deltas

/-- The keys of a snapshot. -/
def indices (l : IfList) : Finset IfIndex := (l.iter.map Prod.fst).toFinset

@[simp] theorem mem_indices {l : IfList} {k : IfIndex} : k ∈ indices l ↔ ∃ i, l[k]? = some i := by
  simp only [indices, List.mem_toFinset, List.mem_map, Prod.exists, exists_and_right, exists_eq_right,
    HashMap.mem_iter]

@[ext] structure Change where
  indices : Delta IfIndex
  addrs : Delta (IfIndex × IpRecord)

namespace Change

def between (prev cur : IfList) : Change where
  indices := .between (Netwatcher.indices prev) (Netwatcher.indices cur)
  addrs := .between (addrPairs prev) (addrPairs cur)

/-- The changes in a row, added up. -/
def net (cs : List Change) : Change where
  indices := .net (cs.map (·.indices))
  addrs := .net (cs.map (·.addrs))

def inv (c : Change) : Change := ⟨c.indices.inv, c.addrs.inv⟩

theorem inv_between (prev cur : IfList) : (between prev cur).inv = between cur prev := rfl

end Change

structure Reports (u : Update) (c : Change) : Prop where
  indicesAdded : indices u.diff.added = c.indices.added
  indicesRemoved : indices u.diff.removed = c.indices.removed
  addrsAdded : u.addrsAdded = c.addrs.added.val
  addrsRemoved : u.addrsRemoved = c.addrs.removed.val

theorem reports_between {prev cur : IfList} (hp : prev.WF) (hc : cur.WF) (b : Bool) :
    Reports (cur.updateFromWithFlag prev b) (.between prev cur) := by
  refine ⟨?_, ?_, addrsAdded_eq hc, addrsRemoved_eq hp⟩
  · ext k
    simp only [Change.between, Delta.added_between, mem_indices, Finset.mem_sdiff, IfList.getElem?_added]
    cases prev[k]? <;> simp
  · ext k
    simp only [Change.between, Delta.removed_between, mem_indices, Finset.mem_sdiff, IfList.getElem?_removed]
    cases cur[k]? <;> simp

/-- An update reports one change only. -/
theorem Reports.unique {u : Update} {c c' : Change} (h : Reports u c) (h' : Reports u c') : c = c' := by
  refine Change.ext (Delta.ext ?_ ?_) (Delta.ext ?_ ?_)
  · exact h.indicesAdded.symm.trans h'.indicesAdded
  · exact h.indicesRemoved.symm.trans h'.indicesRemoved
  · exact Finset.val_injective (h.addrsAdded.symm.trans h'.addrsAdded)
  · exact Finset.val_injective (h.addrsRemoved.symm.trans h'.addrsRemoved)

/-! ## A stretch of a log -/

/-- The updates that take a receiver from `m` updates to `n`. -/
def stretch (us : List Update) (m n : Nat) : List Update := (us.take n).drop m

section
variable {us : List Update}

theorem snapshotBefore_wf (hwf : ∀ u ∈ us, u.interfaces.WF) {n : Nat} (hn : n ≤ us.length) :
    (snapshotBefore us n).WF := by
  cases n with
  | zero => exact wf_empty
  | succ n =>
    rw [snapshotBefore_succ (by omega)]
    exact hwf _ (List.getElem_mem _)

/-- What is reported on the way, update by update. -/
def reported (us : List Update) (m n : Nat) : List Change :=
  (List.range' m (n - m)).map fun i => .between (snapshotBefore us i) (snapshotBefore us (i + 1))

theorem Unbroken.reported (h : Unbroken us) (hwf : ∀ u ∈ us, u.interfaces.WF) {m n : Nat}
    (hn : n ≤ us.length) : List.Forall₂ Reports (stretch us m n) (reported us m n) := by
  refine List.forall₂_iff_get.2 ⟨by simp [stretch, Netwatcher.reported]; omega, ?_⟩
  intro i hi hi'
  have hlt : m + i < us.length := by
    simp only [stretch, List.length_drop, List.length_take] at hi
    omega
  have hu : (stretch us m n).get ⟨i, hi⟩ = us[m + i] := by simp [stretch]
  have hc : (Netwatcher.reported us m n).get ⟨i, hi'⟩ =
      .between (snapshotBefore us (m + i)) (snapshotBefore us (m + i + 1)) := by
    simp [Netwatcher.reported]
  rw [hu, hc, h.eq_updateFromWithFlag hlt, snapshotBefore_succ hlt]
  exact reports_between (snapshotBefore_wf hwf (by omega)) (hwf _ (List.getElem_mem _)) _

/-- They add up to the change from the snapshot before to the one after. -/
theorem net_reported (us : List Update) {m n : Nat} (hmn : m ≤ n) :
    Change.net (reported us m n) = .between (snapshotBefore us m) (snapshotBefore us n) := by
  have hwalk := fun {α : Type} [DecidableEq α] (f : IfList → Finset α) =>
    (walk_along (fun i => f (snapshotBefore us i)) m (n - m)).net
  rw [show m + (n - m) = n by omega] at hwalk
  rw [Change.net, reported, List.map_map, List.map_map]
  exact congrArg₂ Change.mk (hwalk indices) (hwalk addrPairs)

/-- **Changes add up**, over every stretch of an unbroken log of proper snapshots. -/
theorem Unbroken.changes (h : Unbroken us) (hwf : ∀ u ∈ us, u.interfaces.WF) {m n : Nat} (hmn : m ≤ n)
    (hn : n ≤ us.length) {cs : List Change} (hcs : List.Forall₂ Reports (stretch us m n) cs) :
    Change.net cs = .between (snapshotBefore us m) (snapshotBefore us n) := by
  have hc : cs = Netwatcher.reported us m n :=
    List.right_unique_forall₂' (fun _ _ _ hc hc' => hc.unique hc') hcs (h.reported hwf hn)
  rw [hc, net_reported us hmn]

/-- The updates of a whole log add up to the change from nothing to its last snapshot. -/
theorem Unbroken.total (h : Unbroken us) (hwf : ∀ u ∈ us, u.interfaces.WF) {cs : List Change}
    (hcs : List.Forall₂ Reports us cs) : Change.net cs = .between ∅ ((lastInterfaces us).getD ∅) := by
  have hs : stretch us 0 us.length = us := by simp [stretch]
  rw [h.changes hwf (Nat.zero_le _) le_rfl (hs.symm ▸ hcs), snapshotBefore, snapshotBefore, List.take_length]
  rfl

end

/-! ## What a cursor emits -/

section
variable {ls ls' : List IfList}

theorem feed_unbroken (ls : List IfList) : Unbroken (UpdateCursor.default.feed ls).2 :=
  (linked_default.feed ls).1

theorem feed_wf (hwf : ∀ l ∈ ls, l.WF) : ∀ u ∈ (UpdateCursor.default.feed ls).2, u.interfaces.WF :=
  fun u hu => hwf _ (feed_interfaces_mem u hu)

theorem UpdateCursor.feed_concat (c : UpdateCursor) (ls : List IfList) (l : IfList) :
    (c.feed (ls ++ [l])).1 = ((c.feed ls).1.advance l).1 := by
  induction ls generalizing c with
  | nil => rfl
  | cons a ls ih => exact ih (c.advance a).1

/-- What has been emitted ends with the last list that was fed. -/
theorem lastInterfaces_feed (ls : List IfList) :
    lastInterfaces (UpdateCursor.default.feed ls).2 = ls.getLast? := by
  cases ls using List.reverseRecOn with
  | nil => rfl
  | append_singleton ls l =>
    have hlinked := linked_default.feed (ls ++ [l])
    rw [UpdateCursor.feed_concat, List.nil_append] at hlinked
    rw [hlinked.2.2 (UpdateCursor.advance_initialPending _ _), UpdateCursor.advance_prevList,
      List.getLast?_concat]

/-- **Changes add up**: over any stretch of what a cursor emits, the sum is what `update_from` reports
between the snapshots at its ends, and backwards the inverse. The sum of everything depends on the last
list only, not on those that were left out on the way to it. -/
theorem feed_changes_add_up (hwf : ∀ l ∈ ls, l.WF) :
    (∀ m n, m ≤ n → n ≤ (UpdateCursor.default.feed ls).2.length →
      ∃ cs, List.Forall₂ Reports (stretch (UpdateCursor.default.feed ls).2 m n) cs ∧
        Reports ((snapshotBefore (UpdateCursor.default.feed ls).2 n).updateFrom
          (snapshotBefore (UpdateCursor.default.feed ls).2 m)) (Change.net cs) ∧
        Reports ((snapshotBefore (UpdateCursor.default.feed ls).2 m).updateFrom
          (snapshotBefore (UpdateCursor.default.feed ls).2 n)) (Change.net cs).inv) ∧
    (∀ ls' : List IfList, (∀ l ∈ ls', l.WF) → ls'.getLast? = ls.getLast? → ∀ cs cs',
      List.Forall₂ Reports (UpdateCursor.default.feed ls).2 cs →
      List.Forall₂ Reports (UpdateCursor.default.feed ls').2 cs' → Change.net cs = Change.net cs') := by
  refine ⟨?_, ?_⟩
  · have hu := feed_unbroken ls
    have hw := feed_wf hwf
    generalize (UpdateCursor.default.feed ls).2 = us at hu hw
    intro m n hmn hn
    refine ⟨_, hu.reported hw hn, ?_⟩
    rw [net_reported us hmn, Change.inv_between]
    have hm := snapshotBefore_wf hw (hmn.trans hn)
    have hn := snapshotBefore_wf hw hn
    exact ⟨reports_between hm hn false, reports_between hn hm false⟩
  · intro ls' hwf' hlast cs cs' hcs hcs'
    rw [(feed_unbroken ls).total (feed_wf hwf) hcs, (feed_unbroken ls').total (feed_wf hwf') hcs',
      lastInterfaces_feed, lastInterfaces_feed, hlast]

/-- An address that moves to another interface, and one that goes and comes back. -/
theorem feed_changes_add_up_moved :
    ∃ cs, List.Forall₂ Reports (stretch (UpdateCursor.default.feed [onEth0, onEth1, onEth0]).2 0 3) cs ∧
      Reports ((snapshotBefore (UpdateCursor.default.feed [onEth0, onEth1, onEth0]).2 3).updateFrom
        (snapshotBefore (UpdateCursor.default.feed [onEth0, onEth1, onEth0]).2 0)) (Change.net cs) ∧
      Reports ((snapshotBefore (UpdateCursor.default.feed [onEth0, onEth1, onEth0]).2 0).updateFrom
        (snapshotBefore (UpdateCursor.default.feed [onEth0, onEth1, onEth0]).2 3)) (Change.net cs).inv := by
  refine (feed_changes_add_up ?_).1 0 3 (by omega) (by decide)
  have h0 : onEth0.WF := wf_empty.insert rfl (List.sortedLT_iff_pairwise.2 (List.pairwise_singleton _ _))
  have h1 : onEth1.WF := wf_empty.insert rfl (List.sortedLT_iff_pairwise.2 (List.pairwise_singleton _ _))
  simp [h0, h1]

end

end Netwatcher
