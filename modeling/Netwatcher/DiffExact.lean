import Mathlib.Data.Multiset.Sort
import Netwatcher.AddrReplay
/-!
# The diff of two snapshots is exact (`List::update_from`)

`ExactDiff` says what the three maps of an `UpdateDiff` hold, key by key, and that nothing in it is
void: every entry of `modified` reports something. It rests on the address vectors being sorted
without duplicates: the code compares vectors to decide whether to compute set differences, and
equal sets make equal vectors (`Interface::normalise`, lib.rs:191-203).

`reconstruct` is a client that keeps a snapshot by diffs alone: it reads `update.interfaces` only
for a name or a hardware address whose flag is set.
-/
namespace Netwatcher
open Coll

/-! ## One interface -/

/-- The addresses after a diff: those before, less the removed ones, and the added ones, sorted. -/
def restoreIps (ips : List IpRecord) (d : InterfaceDiff) : List IpRecord :=
  ((ips : Multiset IpRecord) - d.addrsRemoved + d.addrsAdded).sort

/-- `d` is the diff from `p` to `i`. -/
structure ExactEntry (p i : Interface) (d : InterfaceDiff) : Prop where
  nameChanged : d.nameChanged = true ↔ p.name ≠ i.name
  hwAddrChanged : d.hwAddrChanged = true ↔ p.hwAddr ≠ i.hwAddr
  nodupAdded : d.addrsAdded.Nodup
  nodupRemoved : d.addrsRemoved.Nodup
  disjoint : ∀ r ∈ d.addrsAdded, r ∉ d.addrsRemoved
  restores : restoreIps p.ips d = i.ips
  /-- Something is reported. -/
  nonempty : d.nameChanged = true ∨ d.hwAddrChanged = true ∨ d.addrsAdded ≠ 0 ∨ d.addrsRemoved ≠ 0

theorem addrDifference_eq_sub {these those : List IpRecord} (h : these.Nodup) (h' : those.Nodup) :
    addrDifference these those = (these : Multiset IpRecord) - (those : Multiset IpRecord) := by
  have val_toFinset {l : List IpRecord} (hl : l.Nodup) : l.toFinset.val = (l : Multiset IpRecord) := by
    rw [List.toFinset_val, hl.dedup]
  rw [addrDifference, Finset.sdiff_val, val_toFinset h, val_toFinset h']

/-- Removing what only `s` has and adding what only `t` has turns `s` into `t`. -/
theorem sub_sub_add_sub (s t : Multiset IpRecord) : s - (s - t) + (t - s) = t := by
  ext r
  rw [Multiset.count_add, Multiset.count_sub, Multiset.count_sub, Multiset.count_sub]
  omega

theorem sort_coe {ips : List IpRecord} (h : ips.SortedLT) : (ips : Multiset IpRecord).sort = ips := by
  have hs : (ips : Multiset IpRecord).sort.Pairwise (· ≤ ·) := Multiset.pairwise_sort _ _
  have hp : (ips : Multiset IpRecord).sort.Perm ips := Multiset.coe_eq_coe.1 (Multiset.sort_eq _ _)
  exact hp.eq_of_pairwise' hs h.sortedLE.pairwise

theorem restoreIps_interfaceDiff {p i : Interface} (hp : p.ips.SortedLT) (hi : i.ips.SortedLT) :
    restoreIps p.ips (interfaceDiff p i) = i.ips := by
  obtain ⟨ha, hr⟩ := interfaceDiff_addrs p i
  rw [restoreIps, ha, hr, addrDifference_eq_sub hi.nodup hp.nodup, addrDifference_eq_sub hp.nodup hi.nodup,
    sub_sub_add_sub, sort_coe hi]

/-- No address reported: the vectors have the same members, so they are equal. -/
theorem ips_eq_of_addrDifference {p i : Interface} (hp : p.ips.SortedLT) (hi : i.ips.SortedLT)
    (ha : addrDifference i.ips p.ips = 0) (hr : addrDifference p.ips i.ips = 0) : p.ips = i.ips := by
  refine hp.eq_of_mem_iff hi fun r => ⟨?_, ?_⟩
  · intro h
    by_contra hno
    have : r ∈ addrDifference p.ips i.ips := mem_addrDifference.2 ⟨h, hno⟩
    rw [hr] at this
    exact absurd this (Multiset.notMem_zero r)
  · intro h
    by_contra hno
    have : r ∈ addrDifference i.ips p.ips := mem_addrDifference.2 ⟨h, hno⟩
    rw [ha] at this
    exact absurd this (Multiset.notMem_zero r)

/-- **One entry of `modified`** is exact and reports something. -/
theorem exactEntry_interfaceDiff {p i : Interface} (hp : p.ips.SortedLT) (hi : i.ips.SortedLT)
    (hidx : p.index = i.index) (hne : p ≠ i) : ExactEntry p i (interfaceDiff p i) := by
  obtain ⟨ha, hr⟩ := interfaceDiff_addrs p i
  refine ⟨by simp [interfaceDiff], by simp [interfaceDiff], ?_, ?_, ?_, restoreIps_interfaceDiff hp hi, ?_⟩
  · rw [ha]
    exact nodup_addrDifference _ _
  · rw [hr]
    exact nodup_addrDifference _ _
  · intro r hadd hrem
    rw [ha, mem_addrDifference] at hadd
    rw [hr, mem_addrDifference] at hrem
    exact hadd.2 hrem.1
  · by_contra hno
    push Not at hno
    obtain ⟨hn, hh, hadd, hrem⟩ := hno
    rw [ha] at hadd
    rw [hr] at hrem
    have hname : p.name = i.name := by simpa [interfaceDiff] using hn
    have hhw : p.hwAddr = i.hwAddr := by simpa [interfaceDiff] using hh
    have hips := ips_eq_of_addrDifference hp hi hadd hrem
    cases p
    cases i
    simp_all

/-! ## The three maps -/

/-- What `update_from` promises of the diff from `prev` to `cur`. -/
structure ExactDiff (prev cur : IfList) (diff : UpdateDiff) : Prop where
  added : ∀ (k : IfIndex) (i : Interface), diff.added[k]? = some i ↔ cur[k]? = some i ∧ prev[k]? = none
  removed : ∀ (k : IfIndex) (p : Interface), diff.removed[k]? = some p ↔ prev[k]? = some p ∧ cur[k]? = none
  modified : ∀ k : IfIndex, diff.modified[k]? ≠ none ↔
    ∃ p i, prev[k]? = some p ∧ cur[k]? = some i ∧ p ≠ i
  /-- No key is in two of the maps. -/
  disjoint : ∀ k : IfIndex, (diff.added[k]? = none ∨ diff.removed[k]? = none) ∧
    (diff.added[k]? = none ∨ diff.modified[k]? = none) ∧ (diff.removed[k]? = none ∨ diff.modified[k]? = none)
  entry : ∀ (k : IfIndex) (p i : Interface) (d : InterfaceDiff), prev[k]? = some p → cur[k]? = some i →
    diff.modified[k]? = some d → ExactEntry p i d

theorem exactDiff {prev cur : IfList} (hp : prev.WF) (hc : cur.WF) :
    ExactDiff prev cur (cur.updateFrom prev).diff := by
  have hadd := fun k => IfList.getElem?_added cur prev false k
  have hrem := fun k => IfList.getElem?_removed cur prev false k
  have hmod := fun k => IfList.getElem?_modified cur prev false k
  unfold IfList.updateFrom
  refine ⟨?_, ?_, ?_, ?_, ?_⟩
  · intro k i
    rw [hadd]
    cases prev[k]? <;> simp
  · intro k p
    rw [hrem]
    cases cur[k]? <;> simp
  · intro k
    rw [Option.ne_none_iff_exists']
    constructor
    · rintro ⟨d, hd⟩
      obtain ⟨p, i, hpk, hi, hne, -⟩ := IfList.modified_eq_some.1 hd
      exact ⟨p, i, hpk, hi, hne⟩
    · rintro ⟨p, i, hpk, hi, hne⟩
      exact ⟨_, IfList.modified_eq_some.2 ⟨p, i, hpk, hi, hne, rfl⟩⟩
  · intro k
    rw [hadd, hrem, hmod]
    unfold modifiedEntry
    cases prev[k]? <;> cases cur[k]? <;> simp
  · intro k p i d hpk hi hd
    obtain ⟨p', i', hp', hi', hne, rfl⟩ := IfList.modified_eq_some.1 hd
    rw [hpk, Option.some.injEq] at hp'
    rw [hi, Option.some.injEq] at hi'
    subst hp' hi'
    have hidx : p.index = i.index := (hp.keyed k p hpk).trans (hc.keyed k i hi).symm
    exact exactEntry_interfaceDiff (hp.sorted k p hpk) (hc.sorted k i hi) hidx hne

/-- **Nothing to report iff nothing changed.** -/
theorem ExactDiff.isEmpty_iff {prev cur : IfList} {diff : UpdateDiff} (h : ExactDiff prev cur diff) :
    diff = ⟨∅, ∅, ∅⟩ ↔ cur = prev := by
  constructor
  · rintro rfl
    refine HashMap.ext_iff.2 fun k => ?_
    have ha := h.added k
    have hr := h.removed k
    have hm := h.modified k
    simp only [Std.ExtTreeMap.getElem?_empty, reduceCtorEq, false_iff, ne_eq, not_true_eq_false] at ha hr hm
    cases hpk : prev[k]? with
    | none =>
      cases hi : cur[k]? with
      | none => rfl
      | some i => exact absurd ⟨hi, hpk⟩ (ha i)
    | some p =>
      cases hi : cur[k]? with
      | none => exact absurd ⟨hpk, hi⟩ (hr p)
      | some i =>
        by_contra hne
        refine hm ⟨p, i, hpk, hi, ?_⟩
        rintro rfl
        exact hne rfl
  · rintro rfl
    have ha : diff.added = ∅ := by
      refine HashMap.ext_iff.2 fun k => Option.ext fun i => ?_
      rw [h.added]
      cases hi : cur[k]? <;> simp
    have hr : diff.removed = ∅ := by
      refine HashMap.ext_iff.2 fun k => Option.ext fun i => ?_
      rw [h.removed]
      cases hi : cur[k]? <;> simp
    have hm : diff.modified = ∅ := by
      refine HashMap.ext_iff.2 fun k => ?_
      by_contra hne
      have hne' : diff.modified[k]? ≠ none := by simpa using hne
      obtain ⟨p, i, hpk, hi, hpi⟩ := (h.modified k).1 hne'
      rw [hpk, Option.some.injEq] at hi
      exact hpi hi
    cases diff
    simp_all

/-! ## A client that keeps a snapshot by diffs -/

def restoreInterface (interfaces : IfList) (k : IfIndex) (p : Interface) (d : InterfaceDiff) : Interface where
  index := p.index
  name := if d.nameChanged then ((interfaces[k]?).map (·.name)).getD "" else p.name
  hwAddr := if d.hwAddrChanged then ((interfaces[k]?).map (·.hwAddr)).getD "" else p.hwAddr
  ips := restoreIps p.ips d

/-- What becomes of an interface the client holds. -/
def keepInterface (u : Update) (k : IfIndex) (p : Interface) : Option Interface :=
  if u.diff.removed.contains k then none
  else match u.diff.modified[k]? with
    | none => some p
    | some d => some (restoreInterface u.interfaces k p d)

def reconstruct (prev : IfList) (u : Update) : IfList :=
  HashMap.collect (HashMap.comprehend prev (keepInterface u) ++ u.diff.added.iter)

theorem getElem?_reconstruct (prev : IfList) (u : Update) (k : IfIndex) :
    (reconstruct prev u)[k]? = u.diff.added[k]?.or (prev[k]?.bind (keepInterface u k)) := by
  rw [reconstruct, HashMap.getElem?_collect_append, HashMap.collect_iter,
    HashMap.getElem?_collect_comprehend]

theorem ExactEntry.restoreInterface {p i : Interface} {d : InterfaceDiff} (h : ExactEntry p i d)
    {interfaces : IfList} {k : IfIndex} (hi : interfaces[k]? = some i) (hidx : p.index = i.index) :
    restoreInterface interfaces k p d = i := by
  have hname : (if d.nameChanged then i.name else p.name) = i.name := by
    split
    · rfl
    · rename_i hn
      by_contra hne
      exact hn (h.nameChanged.2 hne)
  have hhw : (if d.hwAddrChanged then i.hwAddr else p.hwAddr) = i.hwAddr := by
    split
    · rfl
    · rename_i hn
      by_contra hne
      exact hn (h.hwAddrChanged.2 hne)
  simp only [Netwatcher.restoreInterface, hi, Option.map_some, Option.getD_some, hname, hhw, h.restores, hidx]

/-- **The previous snapshot and the diff determine the current one.** -/
theorem reconstruct_updateFrom {prev cur : IfList} (hp : prev.WF) (hc : cur.WF) :
    reconstruct prev (cur.updateFrom prev) = cur := by
  have h := exactDiff hp hc
  refine HashMap.ext_iff.2 fun k => ?_
  rw [getElem?_reconstruct]
  have hadd := IfList.getElem?_added cur prev false k
  have hrem := IfList.getElem?_removed cur prev false k
  unfold IfList.updateFrom at h ⊢
  cases hpk : prev[k]? with
  | none => simp [hadd, hpk]
  | some p =>
    have hcont := IfList.contains_eq_isSome (cur.updateFromWithFlag prev false).diff.removed k
    rw [hadd, hpk, Option.isSome_some, if_pos rfl, Option.none_or, Option.bind_some, keepInterface, hcont, hrem]
    cases hi : cur[k]? with
    | none => simp [hpk]
    | some i =>
      rw [Option.isSome_some, if_pos rfl, Option.isSome_none, if_neg (by simp)]
      cases hd : (cur.updateFromWithFlag prev false).diff.modified[k]? with
      | none =>
        by_contra hne
        have := (h.modified k).2 ⟨p, i, hpk, hi, fun he => hne (congrArg some he)⟩
        exact this hd
      | some d =>
        have hidx : p.index = i.index := (hp.keyed k p hpk).trans (hc.keyed k i hi).symm
        rw [Option.some.injEq]
        exact (h.entry k p i d hpk hi hd).restoreInterface hi hidx

/-- **`update_from` is an exact, non-vacuous diff.** -/
theorem updateFrom_exact {prev cur : IfList} (hp : prev.WF) (hc : cur.WF) :
    ExactDiff prev cur (cur.updateFrom prev).diff ∧
      ((cur.updateFrom prev).diff = ⟨∅, ∅, ∅⟩ ↔ cur = prev) ∧
      reconstruct prev (cur.updateFrom prev) = cur :=
  ⟨exactDiff hp hc, (exactDiff hp hc).isEmpty_iff, reconstruct_updateFrom hp hc⟩

/-- Interface 2 is renamed and changes an address, 3 goes and 4 comes. -/
def beforeRename : IfList := ((∅ : IfList).insert 2
  ⟨2, "eth0", "", [⟨.V4 0xC0000201#32, 24⟩, ⟨.V4 0xC0000202#32, 24⟩]⟩).insert 3 ⟨3, "eth1", "", []⟩
def afterRename : IfList := ((∅ : IfList).insert 2
  ⟨2, "lan0", "", [⟨.V4 0xC0000202#32, 24⟩, ⟨.V4 0xC0000203#32, 24⟩]⟩).insert 4 ⟨4, "wlan0", "", []⟩

theorem updateFrom_exact_rename :
    ExactDiff beforeRename afterRename (afterRename.updateFrom beforeRename).diff ∧
      ((afterRename.updateFrom beforeRename).diff = ⟨∅, ∅, ∅⟩ ↔ afterRename = beforeRename) ∧
      reconstruct beforeRename (afterRename.updateFrom beforeRename) = afterRename := by
  have pair {a b : BitVec 32} (h : a.toNat < b.toNat) :
      [(⟨.V4 a, 24⟩ : IpRecord), ⟨.V4 b, 24⟩].SortedLT := by
    refine List.sortedLT_iff_pairwise.2 (List.pairwise_pair.2 ?_)
    exact Prod.Lex.toLex_lt_toLex.2 (.inl (Prod.Lex.toLex_lt_toLex.2 (.inr ⟨rfl, h⟩)))
  have nil : ([] : List IpRecord).SortedLT := List.sortedLT_iff_pairwise.2 .nil
  have hp : beforeRename.WF := by
    have h2 := wf_empty.insert (i := ⟨2, "eth0", "", _⟩) rfl
      (pair (a := 0xC0000201#32) (b := 0xC0000202#32) (by decide))
    exact h2.insert (i := ⟨3, "eth1", "", []⟩) rfl nil
  have hc : afterRename.WF := by
    have h2 := wf_empty.insert (i := ⟨2, "lan0", "", _⟩) rfl
      (pair (a := 0xC0000202#32) (b := 0xC0000203#32) (by decide))
    exact h2.insert (i := ⟨4, "wlan0", "", []⟩) rfl nil
  exact updateFrom_exact hp hc

end Netwatcher
