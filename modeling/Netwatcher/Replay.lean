import Netwatcher.AsyncCallback
import Netwatcher.Changes
import Netwatcher.DiffExact
import Netwatcher.Snapshots
import Netwatcher.WatchFd.Modes
/-!
# Clients that work by diffs alone

An `Update` carries the whole snapshot and what has changed. `ByDiffs` says that the second suffices,
for every update of a watcher: a client that starts with nothing and applies each diff holds the
snapshot of that update, and one that adds up the changes of several updates has the change between
the snapshots at the two ends.

Every watcher's log is unbroken, and `Unbroken.byDiffs` needs proper snapshots beside that. The
listings a watcher makes are `list_interfaces`'s, which returns no other (`Returns.proper`); what is
left is that a watcher passes on no list but these. `WatchWin.Replay` and `WatchAndroid.Replay` do
this for the other platforms.
-/
namespace Netwatcher
open Coll Deltas Runs

/-- What a client may rely on. -/
structure ByDiffs (us : List Update) : Prop where
  /-- The snapshot of each update, from the diffs up to it. -/
  rebuilds : ∀ n ≤ us.length, (us.take n).foldl reconstruct ∅ = snapshotBefore us n
  /-- The change over any stretch, and so the addresses at its end from those at its start. -/
  addsUp : ∀ m n, m ≤ n → n ≤ us.length → ∃ cs, List.Forall₂ Reports (stretch us m n) cs ∧
    Change.net cs = .between (snapshotBefore us m) (snapshotBefore us n) ∧
    (Change.net cs).addrs.apply (addrPairs (snapshotBefore us m)) = addrPairs (snapshotBefore us n)

/-- An initial update is applied as any other. -/
theorem reconstruct_updateFromWithFlag {prev cur : IfList} (hp : prev.WF) (hc : cur.WF) (b : Bool) :
    reconstruct prev (cur.updateFromWithFlag prev b) = cur := reconstruct_updateFrom hp hc

theorem Unbroken.rebuilds {us : List Update} (h : Unbroken us) (hwf : ∀ u ∈ us, u.interfaces.WF) {n : Nat}
    (hn : n ≤ us.length) : (us.take n).foldl reconstruct ∅ = snapshotBefore us n := by
  induction n with
  | zero => rfl
  | succ n ih =>
    have hlt : n < us.length := hn
    rw [List.take_succ_eq_append_getElem hlt, List.foldl_concat, ih (by omega), snapshotBefore_succ hlt]
    conv_lhs => rw [h.eq_updateFromWithFlag hlt]
    exact reconstruct_updateFromWithFlag (snapshotBefore_wf hwf (by omega)) (hwf _ (List.getElem_mem _)) _

/-- **An unbroken log of proper snapshots can be followed by diffs.** -/
theorem Unbroken.byDiffs {us : List Update} (h : Unbroken us) (hwf : ∀ u ∈ us, u.interfaces.WF) :
    ByDiffs us where
  rebuilds _ hn := h.rebuilds hwf hn
  addsUp m n hmn hn := by
    refine ⟨_, h.reported hwf hn, net_reported us hmn, ?_⟩
    rw [net_reported us hmn]
    exact Delta.apply_between _ _

theorem Unbroken.left {us vs : List Update} (h : Unbroken (us ++ vs)) : Unbroken us := by
  refine ⟨?_, h.chain.left_of_append⟩
  intro u hu
  cases us with
  | nil => cases hu
  | cons v us => exact h.head u hu

/-! ## Where the lists of a log come from -/

section
variable {P : IfList → Prop}

/-- A cursor puts the list it is given into its update. -/
theorem UpdateCursor.advance_interfaces {c : UpdateCursor} {l : IfList} {u : Update}
    (h : (c.advance l).2 = some u) : u.interfaces = l := by
  rcases c.advance_cases l with ⟨-, hr⟩ | ⟨-, -, hr⟩ | ⟨-, -, hr⟩ <;> rw [hr] at h <;> cases h <;> rfl

theorem mem_digestResult {v : UpdateCursor × List Update} {r : Option IfList} {u : Update}
    (h : u ∈ (digestResult v r).2) : u ∈ v.2 ∨ r = some u.interfaces := by
  rcases List.mem_append.1 h with h | h
  · exact .inl h
  · right
    cases r with
    | none => simp [WatchFd.nextUpdate] at h
    | some l => rw [UpdateCursor.advance_interfaces (Option.mem_toList.1 h)]

/-- A cursor and the updates it has emitted, which are of lists with `P`. -/
structure Digested (P : IfList → Prop) (v : UpdateCursor × List Update) : Prop where
  linked : Linked v.1 v.2
  lists : ∀ u ∈ v.2, P u.interfaces

theorem Digested.default : Digested P (.default, []) := ⟨linked_default, nofun⟩

theorem Digested.digestResult {v : UpdateCursor × List Update} (h : Digested P v) {r : Option IfList}
    (hr : ∀ l, r = some l → P l) : Digested P (digestResult v r) := by
  refine ⟨WatchFd.linked_nextUpdate h.linked r, ?_⟩
  intro u hu
  rcases mem_digestResult hu with hu | hu
  · exact h.lists u hu
  · exact hr _ hu

/-- A step that digests the result at hand, or none. -/
theorem Digested.step {v v' : UpdateCursor × List Update} {r r' : Option (Option IfList)}
    (h : Digested P v) (hv : v' = (handedOver r r').foldl Netwatcher.digestResult v)
    (hr : ∀ l, r = some (some l) → P l) : Digested P v' := by
  subst hv
  cases r with
  | none => exact h
  | some r =>
    cases r' with
    | some _ => exact h
    | none =>
      refine h.digestResult fun l hl => hr l ?_
      rw [hl]

/-- What has been delivered is a beginning of what was emitted. -/
theorem Digested.byDiffs {v : UpdateCursor × List Update} (h : Digested IfList.WF v) {us vs : List Update}
    (hv : v.2 = us ++ vs) : ByDiffs us := by
  refine (hv ▸ h.linked.1).left.byDiffs fun u hu => h.lists u ?_
  rw [hv]
  exact List.mem_append_left _ hu

/-- Every list at the consumer's end of a queue. -/
structure EndOf (P : IfList → Prop) (s : AsyncCallbackQueue × QueuedWatch) : Prop where
  latest : ∀ l, s.1.latest = some l → P l
  taken : ∀ l, s.2.pc = .taken l → P l
  yielded : ∀ u ∈ s.2.yielded, P u.interfaces

theorem EndOf.new {q : AsyncCallbackQueue} (kind : WatchKind) (h : ∀ l, q.latest = some l → P l) :
    EndOf P (q, .new kind) := ⟨h, nofun, nofun⟩

theorem EndOf.push {q : AsyncCallbackQueue} {w : QueuedWatch} (h : EndOf P (q, w)) {list : IfList}
    (hl : P list) : EndOf P ((pushAsyncList q list).1, w) := by
  refine ⟨?_, h.taken, h.yielded⟩
  intro l hq
  simp only [pushAsyncList, Option.some.injEq] at hq
  rwa [← hq]

/-- A consumer yields what it has found. -/
theorem EndOf.step {s s' : AsyncCallbackQueue × QueuedWatch} (h : EndOf P s) (hs : WatchStep s s') :
    EndOf P s' := by
  cases hs with
  | call hp => exact ⟨h.latest, by simp, h.yielded⟩
  | found waker hp hl =>
    obtain ⟨hq, hq'⟩ := look_found hl
    refine ⟨?_, ?_, h.yielded⟩
    · intro l hn
      cases hq'.symm.trans hn
    · intro l ht
      obtain rfl := Pc.taken.inj ht
      exact h.latest _ hq
  | empty waker hp hl =>
    obtain ⟨hq, hq'⟩ := look_empty hl
    refine ⟨?_, by simp, h.yielded⟩
    intro l hn
    cases hq'.symm.trans hn
  | wake hp => exact ⟨h.latest, by simp, h.yielded⟩
  | cancel hk hp => exact ⟨h.latest, by simp, h.yielded⟩
  | @digest q w list hp =>
    have hlist := h.taken list hp
    have hmem := fun u => mem_digestResult (v := (w.cursor, w.yielded)) (r := some list) (u := u)
    simp only [digestResult, WatchFd.nextUpdate] at hmem
    unfold QueuedWatch.digest
    split
    · rename_i hadv
      refine ⟨h.latest, by simp, ?_⟩
      intro u hu
      rcases hmem u (by simpa [hadv] using hu) with hu | hu
      · exact h.yielded u hu
      · rwa [← Option.some.inj hu]
    · exact ⟨h.latest, by simp, h.yielded⟩

end

/-! ## The Unix watches -/

/-- What a watch has of a listing: `Err` is dropped. -/
def ListUnix.Gives (r : Option IfList) : Prop := ∃ listing, ListUnix.Returns listing ∧ listing.toOption = r

theorem ListUnix.Gives.wf {l : IfList} (h : ListUnix.Gives (some l)) : l.WF := by
  obtain ⟨listing, hr, he⟩ := h
  cases listing with
  | error e => cases he
  | ok l' =>
    obtain rfl := Option.some.inj he
    exact hr.proper _ rfl

/-- A result about to reach the cursor is one that `list_interfaces` gives. -/
def WatchFd.Lists (s : WatchFd.Watcher) : Prop := ∀ r, s.pc.atHand = some r → ListUnix.Gives r

def WatchFdAsync.Lists (s : WatchFdAsync.AsyncWatch) : Prop := ∀ r, s.pc.atHand = some r → ListUnix.Gives r

theorem WatchFd.byDiffs {mode : WatchFd.Mode} {s : WatchFd.Watcher}
    (r : Reach ((WatchFd.system mode).restrict WatchFd.Lists) s) : ByDiffs s.delivered := by
  have h : Digested IfList.WF s.view := by
    refine r.restrict_inv (I := fun s => Digested IfList.WF s.view) ?_ ?_
    · rintro s ⟨-, -, hc, -, -, hp, -⟩ -
      rw [WatchFd.Watcher.view, hc, hp]
      exact .default
    · intro s s' _ hlists ih hs _
      exact ih.step hs.view fun l hl => (hlists _ hl).wf
  have hsent := (WatchFd.logInv r.restrict.1).sent
  rw [List.append_assoc] at hsent
  exact h.byDiffs hsent

theorem WatchFdAsync.byDiffs {s : WatchFdAsync.AsyncWatch}
    (r : Reach (WatchFdAsync.system.restrict WatchFdAsync.Lists) s) : ByDiffs s.delivered := by
  have h : Digested IfList.WF s.view := by
    refine r.restrict_inv (I := fun s => Digested IfList.WF s.view) ?_ ?_
    · rintro s ⟨-, hc, -, -, hp, -⟩ -
      rw [WatchFdAsync.AsyncWatch.view, hc, hp]
      exact .default
    · intro s s' _ hlists ih hs _
      exact ih.step hs.view fun l hl => (hlists _ hl).wf
  have hsent := (WatchFdAsync.sentInv r.restrict.1).sent
  rw [List.append_assoc] at hsent
  exact h.byDiffs hsent

/-- **The updates of every Unix watch can be followed by diffs**, whatever the OS reports in its
listings. -/
theorem unix_byDiffs :
    (∀ mode s, Reach ((WatchFd.system mode).restrict WatchFd.Lists) s → ByDiffs s.delivered) ∧
    (∀ s, Reach (WatchFdAsync.system.restrict WatchFdAsync.Lists) s → ByDiffs s.delivered) :=
  ⟨fun _ _ r => WatchFd.byDiffs r, fun _ r => WatchFdAsync.byDiffs r⟩

/-- A blocking watch that has returned what it listed when it was set up. -/
def firstReturned (l : IfList) : WatchFd.Watcher where
  mode := .blocking
  os := ⟨l, 0, false⟩
  socket := 0
  pc := .idle
  cursor := ⟨l, false⟩
  initialUpdate := none
  hup := false
  produced := [l.initialUpdate]
  delivered := [l.initialUpdate]

theorem unix_byDiffs_labelled :
    ∃ l, ListUnix.listing ListUnix.sortedOrder (fun _ => 2) ListUnix.labelled = .ok l ∧
      ByDiffs (firstReturned l).delivered := by
  obtain ⟨m, -, hl⟩ := ListUnix.listing_eq (fun _ => 2) ListUnix.labelled
  refine ⟨_, hl ListUnix.sortedOrder, unix_byDiffs.1 .blocking _ ?_⟩
  have hl := hl ListUnix.sortedOrder
  generalize ListUnix.collectByIndex (ListUnix.sortedOrder.drain m) = l at hl
  have hgives : ∀ r, some (some l) = some r → ListUnix.Gives r := by
    rintro r h
    obtain rfl := Option.some.inj h
    exact ⟨.ok l, ⟨_, _, _, hl⟩, rfl⟩
  have r0 : Reach ((WatchFd.system .blocking).restrict WatchFd.Lists)
      ⟨.blocking, ⟨l, 0, false⟩, 0, .opened, .default, none, false, [], []⟩ :=
    .init ⟨⟨rfl, rfl, rfl, rfl, rfl, rfl, rfl⟩, nofun⟩
  have r1 := (r0.step ⟨.startFirst rfl, nofun⟩).step ⟨.endFirst (some l) rfl fun _ => rfl, hgives⟩
  exact (r1.step ⟨.firstBlocking rfl rfl, nofun⟩).step ⟨.takeInitial rfl rfl, nofun⟩

end Netwatcher
