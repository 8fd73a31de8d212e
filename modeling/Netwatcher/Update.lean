import Mathlib.Data.Multiset.Bind
import Mathlib.Data.Finset.SDiff
import Mathlib.Data.Finset.Dedup
import Netwatcher.Types
/-!
# Updates: the diff of two snapshots (`src/lib.rs`)

| here | there |
| --- | --- |
| `InterfaceDiff`, `UpdateDiff`, `Update` | lib.rs:275, :264, :211 |
| `interfaceDiff`       | the loop body of `update_from_with_flag` that fills one `InterfaceDiff` (lib.rs:321-346) |
| `updateFromWithFlag`  | `List::update_from_with_flag` (lib.rs:298) |
| `initialUpdate`, `updateFrom` | `List::initial_update` (lib.rs:290), `List::update_from` (lib.rs:294) |
| `addrsAdded`, `addrsRemoved` | `Update::addrs_added` (lib.rs:226), `Update::addrs_removed` (lib.rs:246) |

`addrs_added` and `addrs_removed` of an `InterfaceDiff` are `Vec`s filled by iterating over a
`HashSet`, whose order is unspecified and differs between two calls on equal sets. They are
multisets here: what is in the vector and how often, not where. The same holds for the two
iterators of `Update`, which run over hash maps.
-/
namespace Netwatcher
open Coll

structure InterfaceDiff where
  nameChanged : Bool
  hwAddrChanged : Bool
  addrsAdded : Multiset IpRecord
  addrsRemoved : Multiset IpRecord
deriving DecidableEq

structure UpdateDiff where
  added : HashMap IfIndex Interface
  removed : HashMap IfIndex Interface
  modified : HashMap IfIndex InterfaceDiff
deriving DecidableEq

structure Update where
  isInitial : Bool
  interfaces : IfList
  diff : UpdateDiff
deriving DecidableEq

/-- `curr_addr_set.difference(&prev_addr_set)`, collected. -/
def addrDifference (these those : List IpRecord) : Multiset IpRecord :=
  (these.toFinset \ those.toFinset).val

/-- The body of the `for` loop over `self` once both interfaces are at hand and differ. -/
def interfaceDiff (prevInterface interface : Interface) : InterfaceDiff :=
  let (addrsAdded, addrsRemoved) :=
    if prevInterface.ips = interface.ips then (0, 0)
    else (addrDifference interface.ips prevInterface.ips, addrDifference prevInterface.ips interface.ips)
  { nameChanged := prevInterface.name != interface.name
    hwAddrChanged := prevInterface.hwAddr != interface.hwAddr
    addrsAdded
    addrsRemoved }

/-- What the loop inserts under `index`: nothing for a new or an unchanged interface. -/
def modifiedEntry (prev : IfList) (index : IfIndex) (interface : Interface) : Option InterfaceDiff :=
  match prev[index]? with
  | none => none
  | some prevInterface =>
    if prevInterface = interface then none else some (interfaceDiff prevInterface interface)

namespace IfList

def updateFromWithFlag (self prev : IfList) (isInitial : Bool) : Update where
  isInitial
  interfaces := self
  diff :=
    { added := HashMap.collect (self.iter.filter fun kv => !prev.contains kv.1)
      removed := HashMap.collect (prev.iter.filter fun kv => !self.contains kv.1)
      modified := self.iter.foldl (fun modified kv =>
        HashMap.insertSome modified kv.1 (modifiedEntry prev kv.1 kv.2)) ∅ }

def initialUpdate (self : IfList) : Update := updateFromWithFlag self ∅ true

def updateFrom (self prev : IfList) : Update := updateFromWithFlag self prev false

@[simp] theorem updateFromWithFlag_interfaces (self prev : IfList) (b : Bool) :
    (updateFromWithFlag self prev b).interfaces = self := rfl
@[simp] theorem updateFromWithFlag_isInitial (self prev : IfList) (b : Bool) :
    (updateFromWithFlag self prev b).isInitial = b := rfl
@[simp] theorem initialUpdate_interfaces (self : IfList) : (initialUpdate self).interfaces = self := rfl
@[simp] theorem updateFrom_interfaces (self prev : IfList) : (updateFrom self prev).interfaces = self := rfl
@[simp] theorem initialUpdate_isInitial (self : IfList) : (initialUpdate self).isInitial = true := rfl
@[simp] theorem updateFrom_isInitial (self prev : IfList) : (updateFrom self prev).isInitial = false := rfl

/-! ## The diff, key by key -/

theorem contains_eq_isSome (l : IfList) (k : IfIndex) : l.contains k = l[k]?.isSome :=
  Std.ExtTreeMap.contains_eq_isSome_getElem?

/-- `iter().filter(|(index, _)| !other.contains_key(index))`: the entries only `l` has. -/
theorem getElem?_onlyIn (l other : IfList) (k : IfIndex) :
    (HashMap.collect (l.iter.filter fun kv => !other.contains kv.1))[k]? =
      if other[k]?.isSome then none else l[k]? := by
  rw [HashMap.filter_iter, HashMap.getElem?_collect_comprehend]
  simp only [contains_eq_isSome]
  cases other[k]?.isSome <;> cases l[k]? <;> simp

theorem getElem?_added (self prev : IfList) (b : Bool) (k : IfIndex) :
    (updateFromWithFlag self prev b).diff.added[k]? =
      if prev[k]?.isSome then none else self[k]? := getElem?_onlyIn self prev k

theorem getElem?_removed (self prev : IfList) (b : Bool) (k : IfIndex) :
    (updateFromWithFlag self prev b).diff.removed[k]? =
      if self[k]?.isSome then none else prev[k]? := getElem?_onlyIn prev self k

theorem getElem?_modified (self prev : IfList) (b : Bool) (k : IfIndex) :
    (updateFromWithFlag self prev b).diff.modified[k]? = self[k]?.bind (modifiedEntry prev k) := by
  simp only [updateFromWithFlag]
  rw [HashMap.foldl_iter, HashMap.getElem?_collect_comprehend]

/-- An entry of `modified` is the diff of two interfaces that differ. -/
theorem modified_eq_some {self prev : IfList} {b : Bool} {k : IfIndex} {d : InterfaceDiff} :
    (updateFromWithFlag self prev b).diff.modified[k]? = some d ↔
      ∃ p i, prev[k]? = some p ∧ self[k]? = some i ∧ p ≠ i ∧ interfaceDiff p i = d := by
  rw [getElem?_modified]
  cases hi : self[k]? with
  | none => simp
  | some i =>
    rw [Option.bind_some, modifiedEntry]
    cases hp : prev[k]? with
    | none => simp
    | some p => by_cases he : p = i <;> simp [he]

end IfList

/-! ## The address iterators of an update -/

/-- `flat_map` over a map whose values hold addresses, each paired with its interface index. -/
def flatAddrs {β : Type} (m : HashMap IfIndex β) (addrs : β → Multiset IpRecord) :
    Multiset (IfIndex × IpRecord) :=
  (m.iter : Multiset (IfIndex × β)).bind fun kv => (addrs kv.2).map (kv.1, ·)

def Update.addrsAdded (u : Update) : Multiset (IfIndex × IpRecord) :=
  flatAddrs u.diff.added (fun i => i.ips) + flatAddrs u.diff.modified (·.addrsAdded)

def Update.addrsRemoved (u : Update) : Multiset (IfIndex × IpRecord) :=
  flatAddrs u.diff.removed (fun i => i.ips) + flatAddrs u.diff.modified (·.addrsRemoved)

end Netwatcher
