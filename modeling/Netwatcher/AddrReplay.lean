import Mathlib.Data.Finset.Basic
import Mathlib.Tactic.Tauto
import Netwatcher.Cursor
/-!
# Replaying address changes (`Update::addrs_added`, `Update::addrs_removed`)

A client keeps a set of (ifindex, address record) pairs and is told only the address changes of
each update. `addrPairs` is what the set should be after an update; the two iterators are exactly
the set differences to it (`addrsAdded_eq`, `addrsRemoved_eq`), each pair once, so a client that
removes before it inserts never sees a change it cannot make.
-/
namespace Netwatcher
open Coll

/-- Every address of a snapshot with the index of its interface. -/
def addrPairs (l : IfList) : Finset (IfIndex × IpRecord) :=
  (l.iter.flatMap fun kv => kv.2.ips.map (kv.1, ·)).toFinset

@[simp] theorem mem_addrPairs {l : IfList} {k : IfIndex} {r : IpRecord} :
    (k, r) ∈ addrPairs l ↔ ∃ i, l[k]? = some i ∧ r ∈ i.ips := by
  simp only [addrPairs, List.mem_toFinset, List.mem_flatMap, List.mem_map, Prod.mk.injEq, Prod.exists]
  constructor
  · rintro ⟨k', i, hm, r', hr, rfl, rfl⟩; exact ⟨i, HashMap.mem_iter.1 hm, hr⟩
  · rintro ⟨i, hm, hr⟩; exact ⟨k, i, HashMap.mem_iter.2 hm, r, hr, rfl, rfl⟩

/-! ## What the iterators yield -/

section
variable {β : Type} {m : HashMap IfIndex β} {addrs : β → Multiset IpRecord}

theorem mem_flatAddrs {k : IfIndex} {r : IpRecord} :
    (k, r) ∈ flatAddrs m addrs ↔ ∃ v, m[k]? = some v ∧ r ∈ addrs v := by
  simp only [flatAddrs, Multiset.mem_bind, Multiset.mem_coe, Multiset.mem_map, Prod.mk.injEq, Prod.exists]
  constructor
  · rintro ⟨k', v, hm, r', hr, rfl, rfl⟩; exact ⟨v, HashMap.mem_iter.1 hm, hr⟩
  · rintro ⟨v, hm, hr⟩; exact ⟨k, v, HashMap.mem_iter.2 hm, r, hr, rfl, rfl⟩

/-- Each pair comes once: keys are distinct, and so are the addresses under one key. -/
theorem nodup_flatAddrs (h : ∀ (k : IfIndex) (v : β), m[k]? = some v → (addrs v).Nodup) :
    (flatAddrs m addrs).Nodup := by
  refine Multiset.nodup_bind.2 ⟨?_, m.iter, rfl, ?_⟩
  · intro kv hkv
    exact (h kv.1 kv.2 (HashMap.mem_iter.1 hkv)).map fun _ _ heq => (Prod.mk.inj heq).2
  · have hk := HashMap.nodup_keys_iter m
    rw [List.Nodup, List.pairwise_map] at hk
    refine hk.imp fun hne => Multiset.disjoint_left.2 ?_
    intro kr hx hy
    obtain ⟨_, _, rfl⟩ := Multiset.mem_map.1 hx
    obtain ⟨_, _, heq⟩ := Multiset.mem_map.1 hy
    exact hne (Prod.mk.inj heq).1.symm

end

theorem mem_addrDifference {these those : List IpRecord} {r : IpRecord} :
    r ∈ addrDifference these those ↔ r ∈ these ∧ r ∉ those := by
  rw [addrDifference, Finset.mem_val, Finset.mem_sdiff, List.mem_toFinset, List.mem_toFinset]

theorem nodup_addrDifference (these those : List IpRecord) : (addrDifference these those).Nodup :=
  Finset.nodup _

/-- The vectors of an `InterfaceDiff` are set differences also where the code skips them. -/
theorem interfaceDiff_addrs (p i : Interface) :
    (interfaceDiff p i).addrsAdded = addrDifference i.ips p.ips ∧
      (interfaceDiff p i).addrsRemoved = addrDifference p.ips i.ips := by
  by_cases h : p.ips = i.ips <;> simp [interfaceDiff, h, addrDifference]

section
variable {cur prev : IfList} {b : Bool} {k : IfIndex} {r : IpRecord}

/-- Where an address of an update comes from: an added interface, or an address added to a
modified one. Together these are the pairs of `cur` that `prev` lacks. -/
theorem mem_addrsAdded :
    (k, r) ∈ (cur.updateFromWithFlag prev b).addrsAdded ↔ (k, r) ∈ addrPairs cur ∧ (k, r) ∉ addrPairs prev := by
  simp only [Update.addrsAdded, Multiset.mem_add, mem_flatAddrs, IfList.getElem?_added,
    IfList.modified_eq_some, Multiset.mem_coe, mem_addrPairs]
  constructor
  · rintro (⟨i, hi, hr⟩ | ⟨d, ⟨p, i, hp, hi, hne, rfl⟩, hr⟩)
    · split at hi
      · cases hi
      · rename_i hnone
        exact ⟨⟨i, hi, hr⟩, fun ⟨p, hp, _⟩ => hnone (by simp [hp])⟩
    · rw [(interfaceDiff_addrs p i).1, mem_addrDifference] at hr
      exact ⟨⟨i, hi, hr.1⟩, fun ⟨p', hp', hr'⟩ => hr.2 (by rw [hp] at hp'; cases hp'; exact hr')⟩
  · rintro ⟨⟨i, hi, hr⟩, hnot⟩
    cases hp : prev[k]? with
    | none => exact .inl ⟨i, by simpa using hi, hr⟩
    | some p =>
      have hrp : r ∉ p.ips := fun hrp => hnot ⟨p, hp, hrp⟩
      refine .inr ⟨_, ⟨p, i, rfl, hi, fun he => hrp (he ▸ hr), rfl⟩, ?_⟩
      rw [(interfaceDiff_addrs p i).1, mem_addrDifference]
      exact ⟨hr, hrp⟩

theorem mem_addrsRemoved :
    (k, r) ∈ (cur.updateFromWithFlag prev b).addrsRemoved ↔ (k, r) ∈ addrPairs prev ∧ (k, r) ∉ addrPairs cur := by
  simp only [Update.addrsRemoved, Multiset.mem_add, mem_flatAddrs, IfList.getElem?_removed,
    IfList.modified_eq_some, Multiset.mem_coe, mem_addrPairs]
  constructor
  · rintro (⟨p, hp, hr⟩ | ⟨d, ⟨p, i, hp, hi, hne, rfl⟩, hr⟩)
    · split at hp
      · cases hp
      · rename_i hnone
        exact ⟨⟨p, hp, hr⟩, fun ⟨i, hi, _⟩ => hnone (by simp [hi])⟩
    · rw [(interfaceDiff_addrs p i).2, mem_addrDifference] at hr
      exact ⟨⟨p, hp, hr.1⟩, fun ⟨i', hi', hr'⟩ => hr.2 (by rw [hi] at hi'; cases hi'; exact hr')⟩
  · rintro ⟨⟨p, hp, hr⟩, hnot⟩
    cases hi : cur[k]? with
    | none => exact .inl ⟨p, by simpa using hp, hr⟩
    | some i =>
      have hri : r ∉ i.ips := fun hri => hnot ⟨i, hi, hri⟩
      refine .inr ⟨_, ⟨p, i, hp, rfl, fun he => hri (he ▸ hr), rfl⟩, ?_⟩
      rw [(interfaceDiff_addrs p i).2, mem_addrDifference]
      exact ⟨hr, hri⟩

/-- A pair is not yielded by both halves of an iterator: an added (or removed) interface is not a
modified one. -/
theorem nodup_halves {whole : HashMap IfIndex Interface} {modified : HashMap IfIndex InterfaceDiff}
    {addrs : InterfaceDiff → Multiset IpRecord}
    (hw : ∀ (k : IfIndex) (i : Interface), whole[k]? = some i → i.ips.SortedLT)
    (hm : ∀ (k : IfIndex) (d : InterfaceDiff), modified[k]? = some d → (addrs d).Nodup)
    (hd : ∀ (k : IfIndex) (i : Interface) (d : InterfaceDiff), whole[k]? = some i → modified[k]? ≠ some d) :
    (flatAddrs whole (fun i => i.ips) + flatAddrs modified addrs).Nodup := by
  refine Multiset.nodup_add.2 ⟨nodup_flatAddrs ?_, nodup_flatAddrs hm, ?_⟩
  · intro k i hi
    exact Multiset.coe_nodup.2 (hw k i hi).nodup
  · refine Multiset.disjoint_left.2 ?_
    rintro ⟨k, r⟩ hwhole hmodified
    obtain ⟨i, hi, -⟩ := mem_flatAddrs.1 hwhole
    obtain ⟨d, hkd, -⟩ := mem_flatAddrs.1 hmodified
    exact hd k i d hi hkd

theorem nodup_addrsAdded (h : cur.WF) : (cur.updateFromWithFlag prev b).addrsAdded.Nodup := by
  refine nodup_halves ?_ ?_ ?_
  · intro k i hi
    rw [IfList.getElem?_added] at hi
    split at hi
    · cases hi
    · exact h.sorted k i hi
  · intro k d hd
    obtain ⟨p, i, -, -, -, rfl⟩ := IfList.modified_eq_some.1 hd
    rw [(interfaceDiff_addrs p i).1]
    exact nodup_addrDifference _ _
  · intro k i d hi hd
    obtain ⟨p, -, hp, -⟩ := IfList.modified_eq_some.1 hd
    simp [IfList.getElem?_added, hp] at hi

theorem nodup_addrsRemoved (h : prev.WF) : (cur.updateFromWithFlag prev b).addrsRemoved.Nodup := by
  refine nodup_halves ?_ ?_ ?_
  · intro k i hi
    rw [IfList.getElem?_removed] at hi
    split at hi
    · cases hi
    · exact h.sorted k i hi
  · intro k d hd
    obtain ⟨p, i, -, -, -, rfl⟩ := IfList.modified_eq_some.1 hd
    rw [(interfaceDiff_addrs p i).2]
    exact nodup_addrDifference _ _
  · intro k p d hp hd
    obtain ⟨-, i, -, hi, -⟩ := IfList.modified_eq_some.1 hd
    simp [IfList.getElem?_removed, hi] at hp

theorem addrsAdded_eq (h : cur.WF) :
    (cur.updateFromWithFlag prev b).addrsAdded = (addrPairs cur \ addrPairs prev).val := by
  refine (Multiset.Nodup.ext (nodup_addrsAdded h) (Finset.nodup _)).2 ?_
  rintro ⟨k, r⟩
  rw [mem_addrsAdded, Finset.mem_val, Finset.mem_sdiff]

theorem addrsRemoved_eq (h : prev.WF) :
    (cur.updateFromWithFlag prev b).addrsRemoved = (addrPairs prev \ addrPairs cur).val := by
  refine (Multiset.Nodup.ext (nodup_addrsRemoved h) (Finset.nodup _)).2 ?_
  rintro ⟨k, r⟩
  rw [mem_addrsRemoved, Finset.mem_val, Finset.mem_sdiff]

end

/-! ## The client -/

section
variable {α : Type} [DecidableEq α]

/-- Remove each element in turn; fail on one that is not there. -/
def removeAll : Finset α → List α → Option (Finset α)
  | held, [] => some held
  | held, a :: as => if a ∈ held then removeAll (held.erase a) as else none

/-- Insert each element in turn; fail on one that is there. -/
def insertAll : Finset α → List α → Option (Finset α)
  | held, [] => some held
  | held, a :: as => if a ∈ held then none else insertAll (insert a held) as

theorem removeAll_eq : ∀ {as : List α} {held : Finset α}, as.Nodup → (∀ a ∈ as, a ∈ held) →
    removeAll held as = some (held \ as.toFinset)
  | [], held, _, _ => by simp [removeAll]
  | a :: as, held, hn, hm => by
    obtain ⟨ha, hn⟩ := List.nodup_cons.1 hn
    have herase : ∀ x ∈ as, x ∈ held.erase a := fun x hx =>
      Finset.mem_erase.2 ⟨fun he => ha (he ▸ hx), hm x (by simp [hx])⟩
    rw [removeAll, if_pos (hm a (by simp)), removeAll_eq hn herase]
    congr 1
    ext x
    simp only [Finset.mem_sdiff, Finset.mem_erase, List.mem_toFinset, List.toFinset_cons, Finset.mem_insert,
      not_or]
    tauto

theorem insertAll_eq : ∀ {as : List α} {held : Finset α}, as.Nodup → (∀ a ∈ as, a ∉ held) →
    insertAll held as = some (held ∪ as.toFinset)
  | [], held, _, _ => by simp [insertAll]
  | a :: as, held, hn, hm => by
    obtain ⟨ha, hn⟩ := List.nodup_cons.1 hn
    have hinsert : ∀ x ∈ as, x ∉ insert a held := fun x hx => by
      rw [Finset.mem_insert, not_or]
      exact ⟨fun he => ha (he ▸ hx), hm x (by simp [hx])⟩
    rw [insertAll, if_neg (hm a (by simp)), insertAll_eq hn hinsert]
    congr 1
    ext x
    simp only [Finset.mem_union, Finset.mem_insert, List.mem_toFinset, List.toFinset_cons]
    tauto

end

/-- The two iterators of one update, run in some order. -/
structure Visit where
  removed : List (IfIndex × IpRecord)
  added : List (IfIndex × IpRecord)

def Enumerates (u : Update) (v : Visit) : Prop :=
  (v.removed : Multiset _) = u.addrsRemoved ∧ (v.added : Multiset _) = u.addrsAdded

/-- Remove `addrs_removed()`, then insert `addrs_added()`. -/
def clientStep (held : Finset (IfIndex × IpRecord)) (v : Visit) : Option (Finset (IfIndex × IpRecord)) :=
  (removeAll held v.removed).bind (insertAll · v.added)

/-- From the empty set; `none` once a change could not be made. -/
def clientRun (vs : List Visit) : Option (Finset (IfIndex × IpRecord)) := vs.foldlM clientStep ∅

theorem clientStep_eq {cur prev : IfList} {b : Bool} (hc : cur.WF) (hp : prev.WF) {v : Visit}
    (hv : Enumerates (cur.updateFromWithFlag prev b) v) :
    clientStep (addrPairs prev) v = some (addrPairs cur) := by
  obtain ⟨hr, ha⟩ := hv
  rw [addrsRemoved_eq hp] at hr
  rw [addrsAdded_eq hc] at ha
  have hrn : v.removed.Nodup := Multiset.coe_nodup.1 (hr ▸ Finset.nodup _)
  have han : v.added.Nodup := Multiset.coe_nodup.1 (ha ▸ Finset.nodup _)
  have hrm : ∀ x, x ∈ v.removed ↔ x ∈ addrPairs prev \ addrPairs cur := fun x => by
    rw [← Multiset.mem_coe, hr, Finset.mem_val]
  have ham : ∀ x, x ∈ v.added ↔ x ∈ addrPairs cur \ addrPairs prev := fun x => by
    rw [← Multiset.mem_coe, ha, Finset.mem_val]
  rw [clientStep, removeAll_eq hrn fun x hx => (Finset.mem_sdiff.1 ((hrm x).1 hx)).1, Option.bind_some,
    insertAll_eq han fun x hx hx' =>
      (Finset.mem_sdiff.1 ((ham x).1 hx)).2 (Finset.mem_sdiff.1 hx').1]
  congr 1
  ext x
  simp only [Finset.mem_union, Finset.mem_sdiff, List.mem_toFinset, hrm, ham]
  tauto

/-! ## Whole runs of the cursor -/

/-- The snapshot the receiver of `us` held before its `n`-th update: the empty one before the first. -/
def snapshotBefore (us : List Update) (n : Nat) : IfList := (lastInterfaces (us.take n)).getD ∅

theorem snapshotBefore_succ {us : List Update} {n : Nat} (h : n < us.length) :
    snapshotBefore us (n + 1) = us[n].interfaces := by
  rw [snapshotBefore, List.take_succ_eq_append_getElem h, lastInterfaces_concat]
  rfl

/-- Initial or not, every update of an unbroken log is the diff from the snapshot before it. -/
theorem Unbroken.eq_updateFromWithFlag {us : List Update} (h : Unbroken us) {n : Nat} (hn : n < us.length) :
    us[n] = us[n].interfaces.updateFromWithFlag (snapshotBefore us n) (decide (n = 0)) := by
  cases n with
  | zero =>
    have := h.head us[0] (by rw [List.head?_eq_getElem?, List.getElem?_eq_getElem hn]; rfl)
    simpa [snapshotBefore, lastInterfaces, IfList.initialUpdate] using this
  | succ n =>
    rw [snapshotBefore_succ (by omega)]
    exact (h.follows hn).2

/-- What a cursor emits, after what it was at: the lists fed, without those that repeat their predecessor. -/
theorem feed_interfaces_cons {c : UpdateCursor} (hc : c.initialPending = false) (ls : List IfList) :
    c.prevList :: (c.feed ls).2.map (·.interfaces) = ls.destutter' (· ≠ ·) c.prevList := by
  induction ls generalizing c with
  | nil => rfl
  | cons l ls ih =>
    have hnext := ih (c.advance_initialPending l)
    rw [UpdateCursor.advance_prevList] at hnext
    rcases c.advance_cases l with ⟨h, -⟩ | ⟨-, hl, hr⟩ | ⟨-, hl, hr⟩
    · rw [hc] at h
      cases h
    · rw [List.destutter'_cons_neg _ (not_not_intro hl.symm), ← hl, ← hnext]
      simp [UpdateCursor.feed, hr]
    · rw [List.destutter'_cons_pos _ (Ne.symm hl), ← hnext]
      simp [UpdateCursor.feed, hr]

/-- **What a fresh cursor emits**: the snapshots fed to it, each stretch of equal ones once. -/
theorem feed_interfaces (ls : List IfList) :
    (UpdateCursor.default.feed ls).2.map (·.interfaces) = ls.destutter (· ≠ ·) := by
  cases ls with
  | nil => rfl
  | cons l ls =>
    rw [List.destutter_cons', ← feed_interfaces_cons (c := ⟨l, false⟩) rfl]
    rfl

theorem feed_interfaces_mem {ls : List IfList} :
    ∀ u ∈ (UpdateCursor.default.feed ls).2, u.interfaces ∈ ls := by
  intro u hu
  have hmem := List.mem_map_of_mem (f := (·.interfaces)) hu
  rw [feed_interfaces] at hmem
  exact (List.destutter_sublist _ ls).mem hmem

theorem wf_empty : (∅ : IfList).WF := ⟨by simp, by simp⟩

theorem addrPairs_empty : addrPairs ∅ = ∅ := by
  ext ⟨k, r⟩; simp

/-- What a client that follows the address changes of `us` may rely on; `ls` are the lists fed. -/
structure AddrsReplay (ls : List IfList) (us : List Update) : Prop where
  /-- The snapshots are those lists, each stretch of equal ones once. -/
  snapshots : us.map (·.interfaces) = ls.destutter (· ≠ ·)
  /-- `addrs_added()`: the pairs of the new snapshot that the one before lacks, each once. -/
  added : ∀ n, ∀ h : n < us.length,
    us[n].addrsAdded = (addrPairs us[n].interfaces \ addrPairs (snapshotBefore us n)).val
  /-- `addrs_removed()`: the pairs of the snapshot before that the new one lacks, each once. -/
  removed : ∀ n, ∀ h : n < us.length,
    us[n].addrsRemoved = (addrPairs (snapshotBefore us n) \ addrPairs us[n].interfaces).val
  /-- In whatever order the iterators run, no change fails, and after `n` updates the client holds
  the pairs of the `n`-th snapshot. -/
  replay : ∀ vs, List.Forall₂ Enumerates us vs → ∀ n ≤ us.length,
    clientRun (vs.take n) = some (addrPairs (snapshotBefore us n))

theorem clientRun_take_succ {vs : List Visit} {n : Nat} (h : n < vs.length) :
    clientRun (vs.take (n + 1)) = (clientRun (vs.take n)).bind (clientStep · vs[n]) := by
  rw [clientRun, List.take_succ_eq_append_getElem h, List.foldlM_append]
  simp [clientRun]

/-- **Replaying address changes reproduces the snapshot**, over every sequence of lists. -/
theorem feed_addrsReplay (ls : List IfList) (hwf : ∀ l ∈ ls, l.WF) :
    AddrsReplay ls (UpdateCursor.default.feed ls).2 := by
  have hu : Unbroken (UpdateCursor.default.feed ls).2 := (linked_default.feed ls).1
  have hmem := @feed_interfaces_mem ls
  have hsnap := feed_interfaces ls
  generalize (UpdateCursor.default.feed ls).2 = us at hu hmem hsnap
  have hcur : ∀ n, ∀ h : n < us.length, us[n].interfaces.WF := fun n h =>
    hwf _ (hmem _ (List.getElem_mem h))
  have hprev : ∀ n ≤ us.length, (snapshotBefore us n).WF := by
    intro n hn
    cases n with
    | zero => exact wf_empty
    | succ n => rw [snapshotBefore_succ (by omega)]; exact hcur n (by omega)
  refine ⟨hsnap, ?_, ?_, ?_⟩
  · intro n h
    conv_lhs => rw [hu.eq_updateFromWithFlag h]
    exact addrsAdded_eq (hcur n h)
  · intro n h
    conv_lhs => rw [hu.eq_updateFromWithFlag h]
    exact addrsRemoved_eq (hprev n (by omega))
  · intro vs hvs n hn
    induction n with
    | zero => simp [clientRun, snapshotBefore, lastInterfaces, addrPairs_empty]
    | succ n ih =>
      have hv : n < vs.length := hvs.length_eq ▸ hn
      have he : Enumerates us[n] vs[n] := List.forall₂_iff_get.1 hvs |>.2 n hn hv
      rw [hu.eq_updateFromWithFlag hn] at he
      rw [clientRun_take_succ hv, ih (by omega), Option.bind_some, snapshotBefore_succ hn]
      exact clientStep_eq (hcur n hn) (hprev n (by omega)) he

theorem IfList.WF.insert {l : IfList} (h : l.WF) {k : IfIndex} {i : Interface} (hi : i.index = k)
    (hs : i.ips.SortedLT) : IfList.WF (l.insert k i) := by
  refine ⟨fun k' j hj => ?_, fun k' j hj => ?_⟩ <;> rw [HashMap.getElem?_insert] at hj <;> split at hj
  · rename_i hk; cases hj; exact hi.trans hk
  · exact h.keyed k' j hj
  · cases hj; exact hs
  · exact h.sorted k' j hj

/-- 192.0.2.1/24 on interface 2, and the same address on interface 3. -/
def onEth0 : IfList := (∅ : IfList).insert 2 ⟨2, "eth0", "", [⟨.V4 0xC0000201#32, 24⟩]⟩
def onEth1 : IfList := (∅ : IfList).insert 3 ⟨3, "eth1", "", [⟨.V4 0xC0000201#32, 24⟩]⟩

theorem feed_addrsReplay_moved :
    AddrsReplay [onEth0, onEth0, onEth1] (UpdateCursor.default.feed [onEth0, onEth0, onEth1]).2 := by
  refine feed_addrsReplay [onEth0, onEth0, onEth1] ?_
  have h0 : onEth0.WF := wf_empty.insert rfl (List.sortedLT_iff_pairwise.2 (List.pairwise_singleton _ _))
  have h1 : onEth1.WF := wf_empty.insert rfl (List.sortedLT_iff_pairwise.2 (List.pairwise_singleton _ _))
  simp [h0, h1]

end Netwatcher
