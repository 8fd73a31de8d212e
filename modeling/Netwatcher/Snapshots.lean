import Netwatcher.AddrReplay
import Netwatcher.ListWin.Query
/-!
# Whatever `list_interfaces` returns is a proper snapshot

The diff and everything built on it want a snapshot in which each interface is stored under its own
index and has its addresses as `normalise` leaves them (`IfList.WF`). Both platforms' functions make
no other: whatever the entries are, also if two names have one index, and whatever is in the buffer,
also if its pointers do not form a chain.

| here | there |
| --- | --- |
| `ListUnix.Returns` | what `list_interfaces` may return on Linux, macOS and Android (list_unix.rs:24) |
| `ListWin.Returns`  | what it may return on Windows, if it does (list_win.rs:22) |
-/
namespace Netwatcher
open Coll Loop

/-- Of a failed listing nothing is asked. -/
def Proper (r : Except Error IfList) : Prop := ∀ l, r = .ok l → l.WF

/-! ## Unix -/

namespace ListUnix

theorem toInterface_wf (c : CandidateInterface) :
    (toInterface c).2.index = (toInterface c).1 ∧ (toInterface c).2.ips.SortedLT :=
  ⟨rfl, Interface.normalise_sorted _⟩

/-- Whatever was drained, and in whatever order. -/
theorem collectByIndex_wf (drained : List (String × CandidateInterface)) : (collectByIndex drained).WF := by
  have hmem {k : IfIndex} {i : Interface} (h : (collectByIndex drained)[k]? = some i) :
      ∃ c, (k, i) = toInterface c := by
    obtain ⟨kv, -, he⟩ := List.mem_map.1 (HashMap.mem_of_getElem?_collect h)
    exact ⟨kv.2, he.symm⟩
  refine ⟨?_, ?_⟩
  · intro k i h
    obtain ⟨c, hc⟩ := hmem h
    obtain ⟨rfl, rfl⟩ := Prod.mk.inj hc
    exact (toInterface_wf c).1
  · intro k i h
    obtain ⟨c, hc⟩ := hmem h
    obtain ⟨rfl, rfl⟩ := Prod.mk.inj hc
    exact (toInterface_wf c).2

def Returns (r : Except Error IfList) : Prop :=
  ∃ (order : DrainOrder) (ifNametoindex : String → Except String UInt32)
    (getifaddrs : Except String (List InterfaceAddress)), listInterfaces order ifNametoindex getifaddrs = r

theorem Returns.proper {r : Except Error IfList} (h : Returns r) : Proper r := by
  rintro l rfl
  obtain ⟨order, ifNametoindex, getifaddrs, h⟩ := h
  cases ha : getifaddrs with
  | error e => simp [listInterfaces, ha, Except.mapError, bind, Except.bind] at h
  | ok addrs =>
    cases hs : scan ifNametoindex addrs with
    | error e => simp [listInterfaces, ha, hs, Except.mapError, bind, Except.bind] at h
    | ok candidates =>
      simp only [listInterfaces, ha, hs, Except.mapError, bind, Except.bind, pure, Except.pure,
        Except.ok.injEq] at h
      rw [← h]
      exact collectByIndex_wf _

end ListUnix

/-! ## Windows -/

namespace ListWin

/-- One turn of the outer loop: it leaves the map alone, or inserts an interface under its index. -/
theorem adapterTurn_wf {mem : Memory} {turns : Nat} {s s' : Ptr × IfList} (h : s.2.WF)
    (hb : adapterTurn mem turns s = some (.ok s')) : s'.2.WF := by
  unfold adapterTurn at hb
  cases hread : mem.adapters s.1 with
  | none => simp [hread] at hb
  | some adapter =>
    by_cases hdown : adapter.operStatus = ifOperStatusDown
    · simp only [hread, if_pos hdown, Option.some.injEq, Except.ok.injEq] at hb
      rwa [← hb]
    · simp only [hread, if_neg hdown] at hb
      cases hmac : formatPhysicalAddress adapter with
      | error e => simp [hmac] at hb
      | ok hwAddr =>
        cases hips : collectUnicasts mem turns adapter.firstUnicastAddress with
        | none => simp [hmac, hips] at hb
        | some r =>
          cases r with
          | error e => simp [hmac, hips] at hb
          | ok t =>
            cases hk : adapter.ifindex with
            | none =>
              simp only [hmac, hips, hk, Option.some.injEq, Except.ok.injEq] at hb
              rwa [← hb]
            | some k =>
              simp only [hmac, hips, hk, Option.some.injEq, Except.ok.injEq] at hb
              rw [← hb]
              exact h.insert rfl (Interface.normalise_sorted _)

theorem walkAdapters_wf {mem : Memory} {turns : Nat} {first : Ptr} {t : Ptr × IfList}
    (h : walkAdapters mem turns first = some (.ok t)) : t.2.WF :=
  whileLoop_inv (I := fun s => s.2.WF) (fun _ _ hs _ hb => adapterTurn_wf hs hb) wf_empty h

def Returns (r : Except Error IfList) : Prop :=
  ∃ (api : Api) (turns : Nat), listInterfaces api turns = some (.returned r)

theorem Returns.proper {r : Except Error IfList} (h : Returns r) : Proper r := by
  rintro l rfl
  obtain ⟨api, turns, h⟩ := h
  unfold listInterfaces at h
  cases hq : query api turns with
  | none => simp [hq] at h
  | some q =>
    cases q with
    | error e =>
      simp only [hq, Option.some.injEq] at h
      rw [h] at hq
      rw [query_returned hq]
      exact wf_empty
    | ok q =>
      simp only [hq, Option.bind_eq_some_iff] at h
      obtain ⟨reply, -, h⟩ := h
      cases hw : walkAdapters reply.memory turns reply.buf with
      | none => simp [hw] at h
      | some w =>
        cases w with
        | error a => cases a <;> simp [hw, Abort.exit] at h
        | ok t =>
          simp only [hw, Option.some.injEq, Exit.returned.injEq, Except.ok.injEq] at h
          rw [← h]
          exact walkAdapters_wf hw

end ListWin

end Netwatcher
