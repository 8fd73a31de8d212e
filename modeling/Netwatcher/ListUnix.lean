import Netwatcher.Types
/-!
# `list_interfaces` on Unix (`src/list_unix.rs`)

`getifaddrs` reports one entry for each address of each interface name, in any order. The first
loop groups the entries by name in a hash map; the second pass drains that map, in an unspecified
order, and collects the interfaces that are up by index. The drain order is a parameter
(`DrainOrder`), as are the results of `getifaddrs` and `if_nametoindex`.

| here | there |
| --- | --- |
| `Sockaddr`, `InterfaceAddress` | `SockaddrStorage`, `InterfaceAddress` of `nix` |
| `CandidateIpRecord`, `CandidateInterface` | list_unix.rs:19, :11 |
| `scanEntry`, `scan` | the loop over `getifaddrs` (list_unix.rs:28-70) |
| `toInterface`, `listInterfaces` | the drain (list_unix.rs:72-101), `list_interfaces` (:24) |
| `applyFallbackForFamily`, `applyAliasPrefixFallback` | list_unix.rs:112, :107 |
| `formatMac` | list_unix.rs:128 |
-/
namespace Netwatcher.ListUnix
open Coll

/-- A socket address as the code looks at it: by family. -/
inductive Sockaddr
  | link (addr : Option (List UInt8))
  | inet (ip : BitVec 32)
  | inet6 (ip : BitVec 128)
  | other
deriving DecidableEq, Repr

def Sockaddr.asLinkAddr : Sockaddr → Option (Option (List UInt8)) | .link a => some a | _ => none
def Sockaddr.asSockaddrIn : Sockaddr → Option (BitVec 32) | .inet ip => some ip | _ => none
def Sockaddr.asSockaddrIn6 : Sockaddr → Option (BitVec 128) | .inet6 ip => some ip | _ => none

abbrev InterfaceFlags := BitVec 32

def iffUp : InterfaceFlags := 0x1#32

/-- `flags.contains(InterfaceFlags::IFF_UP)`. -/
def isUp (flags : InterfaceFlags) : Bool := flags &&& iffUp == iffUp

structure InterfaceAddress where
  interfaceName : String
  flags : InterfaceFlags
  address : Option Sockaddr
  netmask : Option Sockaddr
deriving DecidableEq, Repr

structure CandidateIpRecord where
  ip : IpAddr
  prefixLen : Option UInt8
deriving DecidableEq, Repr

structure CandidateInterface where
  name : String
  index : UInt32
  flags : InterfaceFlags
  hwAddr : Option String
  ips : List CandidateIpRecord
deriving DecidableEq, Repr

/-- `leading_ones()`. -/
def leadingOnes {w : Nat} (x : BitVec w) : Nat :=
  (((List.range w).map x.getMsbD).takeWhile id).length

def hexDigit (n : Nat) : Char := Char.ofNat (if n < 10 then 48 + n else 55 + n)

/-- `{b:02X}`. -/
def hexByte (b : UInt8) : String := String.ofList [hexDigit (b.toNat / 16), hexDigit (b.toNat % 16)]

/-- `write!(mac, ..)`: a `String` takes whatever is written to it. -/
def writeStr (mac s : String) : Except Error String := .ok (mac ++ s)

def formatMac (bytes : List UInt8) : Except Error String :=
  bytes.zipIdx.foldlM (fun mac (b, i) => do
    let mac ← if i ≠ 0 then writeStr mac ":" else pure mac
    writeStr mac (hexByte b)) ""

/-! ## Grouping by name -/

/-- The prefix length of a netmask, when it is of the address's own family. -/
def prefixOf {w : Nat} (as : Sockaddr → Option (BitVec w)) (netmask : Option Sockaddr) : Option UInt8 :=
  netmask.bind fun netmask => (as netmask).map fun bits => UInt8.ofNat (leadingOnes bits)

/-- The `if let .. else if let .. else continue` chain: what is pushed for an address. -/
def ipRecord (addr : InterfaceAddress) : Option CandidateIpRecord :=
  match addr.address with
  | none => none
  | some a =>
    match a.asSockaddrIn with
    | some ip => some ⟨.V4 ip, prefixOf Sockaddr.asSockaddrIn addr.netmask⟩
    | none =>
      match a.asSockaddrIn6 with
      | some ip => some ⟨.V6 ip, prefixOf Sockaddr.asSockaddrIn6 addr.netmask⟩
      | none => none

/-- The link-layer address an entry carries. -/
def linkAddr (addr : InterfaceAddress) : Option (List UInt8) :=
  addr.address.bind fun a => a.asLinkAddr.bind id

/-- The closure of `or_insert_with`. -/
def freshCandidate (index : UInt32) (addr : InterfaceAddress) : CandidateInterface :=
  { name := addr.interfaceName, index, flags := addr.flags, hwAddr := none, ips := [] }

/-- The loop body once the candidate of the name is at hand. -/
def CandidateInterface.record (candidate : CandidateInterface) (addr : InterfaceAddress) :
    Except Error CandidateInterface := do
  let candidate := { candidate with flags := candidate.flags ||| addr.flags }
  let candidate ← match linkAddr addr with
    | some rawAddr => do
      let mac ← formatMac rawAddr
      pure { candidate with hwAddr := some mac }
    | none => pure candidate
  match ipRecord addr with
  | some cip => pure { candidate with ips := candidate.ips ++ [cip] }
  | none => pure candidate

def scanEntry (ifNametoindex : String → Except String UInt32)
    (candidates : HashMap String CandidateInterface) (addr : InterfaceAddress) :
    Except Error (HashMap String CandidateInterface) := do
  let index ← (ifNametoindex addr.interfaceName).mapError Error.getInterfaceName
  let candidate := (candidates[addr.interfaceName]?).getD (freshCandidate index addr)
  let candidate ← candidate.record addr
  pure (candidates.insert addr.interfaceName candidate)

def scan (ifNametoindex : String → Except String UInt32) (addrs : List InterfaceAddress) :
    Except Error (HashMap String CandidateInterface) :=
  addrs.foldlM (scanEntry ifNametoindex) ∅

/-! ## Collection by index -/

def applyFallbackForFamily (ips : List CandidateIpRecord) (matchesFamily : IpAddr → Bool) :
    List CandidateIpRecord :=
  match (ips.filter (matchesFamily ·.ip)).findSome? (·.prefixLen) with
  | none => ips
  | some prefixInUse =>
    ips.map fun cip =>
      if matchesFamily cip.ip then { cip with prefixLen := some (cip.prefixLen.getD prefixInUse) } else cip

def applyAliasPrefixFallback (ips : List CandidateIpRecord) : List CandidateIpRecord :=
  applyFallbackForFamily (applyFallbackForFamily ips IpAddr.isIpv4) IpAddr.isIpv6

/-- The closure of the second `map`: the interface of a candidate, under its index. -/
def toInterface (c : CandidateInterface) : IfIndex × Interface :=
  let ips := (applyAliasPrefixFallback c.ips).filterMap fun cip => cip.prefixLen.map (IpRecord.mk cip.ip ·)
  let hwAddr := c.hwAddr.getD "00:00:00:00:00:00"
  (c.index, Interface.normalise { index := c.index, name := c.name, hwAddr, ips })

/-- One way a hash map of candidates may be iterated. -/
structure DrainOrder where
  drain : HashMap String CandidateInterface → List (String × CandidateInterface)
  perm : ∀ m, (drain m).Perm m.iter

def collectByIndex (drained : List (String × CandidateInterface)) : IfList :=
  HashMap.collect ((drained.filter fun kv => isUp kv.2.flags).map fun kv => toInterface kv.2)

def listInterfaces (order : DrainOrder) (ifNametoindex : String → Except String UInt32)
    (getifaddrs : Except String (List InterfaceAddress)) : Except Error IfList := do
  let addrs ← getifaddrs.mapError Error.getifaddrs
  let candidates ← scan ifNametoindex addrs
  pure (collectByIndex (order.drain candidates))

/-! ## What the first loop has gathered -/

theorem formatMac_ok (bytes : List UInt8) : ∃ mac, formatMac bytes = .ok mac := by
  unfold formatMac
  generalize "" = mac
  induction bytes.zipIdx generalizing mac with
  | nil => exact ⟨mac, rfl⟩
  | cons bi l ih =>
    rw [List.foldlM_cons]
    by_cases h : bi.2 ≠ 0
    · simpa [h, writeStr, bind, Except.bind] using ih _
    · simpa [h, writeStr, bind, Except.bind, pure, Except.pure] using ih _

theorem isUp_or (a b : InterfaceFlags) : isUp (a ||| b) = (isUp a || isUp b) := by
  have key (x : InterfaceFlags) : isUp x = x.getLsbD 0 := by
    rw [isUp, iffUp, Bool.eq_iff_iff, beq_iff_eq, ← BitVec.toNat_inj, BitVec.toNat_and]
    simp [Nat.and_one_is_mod, BitVec.getLsbD, Nat.testBit_zero]
  rw [key, key, key, BitVec.getLsbD_or]

/-- The loop body cannot fail; it keeps the name, adds the flags and pushes the address, if any. -/
theorem CandidateInterface.record_ok (c : CandidateInterface) (addr : InterfaceAddress) :
    ∃ c', c.record addr = .ok c' ∧ c'.name = c.name ∧ c'.index = c.index ∧
      c'.flags = c.flags ||| addr.flags ∧ c'.ips = c.ips ++ (ipRecord addr).toList := by
  cases hl : linkAddr addr with
  | none =>
    cases hr : ipRecord addr <;>
      simp [CandidateInterface.record, hl, hr, bind, Except.bind, pure, Except.pure]
  | some raw =>
    obtain ⟨mac, hmac⟩ := formatMac_ok raw
    cases hr : ipRecord addr <;>
      simp [CandidateInterface.record, hl, hr, hmac, bind, Except.bind, pure, Except.pure]

/-- Some entry of the name reports `IFF_UP`. -/
def Up (addrs : List InterfaceAddress) (name : String) : Prop :=
  ∃ a ∈ addrs, a.interfaceName = name ∧ isUp a.flags = true

theorem up_concat {addrs : List InterfaceAddress} {a : InterfaceAddress} {name : String} :
    Up (addrs ++ [a]) name ↔ Up addrs name ∨ a.interfaceName = name ∧ isUp a.flags = true := by
  simp [Up, or_and_right, exists_or]

/-- The candidate holds what the entries of its name say. -/
structure Gathered (idx : String → UInt32) (addrs : List InterfaceAddress) (name : String)
    (c : CandidateInterface) : Prop where
  named : c.name = name
  indexed : c.index = idx name
  up : isUp c.flags = true ↔ Up addrs name
  ips : c.ips = (addrs.filter (·.interfaceName = name)).filterMap ipRecord

/-- What the first loop has after the entries `addrs`. -/
structure Scanned (idx : String → UInt32) (addrs : List InterfaceAddress)
    (m : HashMap String CandidateInterface) : Prop where
  present : ∀ a ∈ addrs, ∃ c, m[a.interfaceName]? = some c
  gathered : ∀ (name : String) (c : CandidateInterface), m[name]? = some c → Gathered idx addrs name c

variable {idx : String → UInt32} {addrs : List InterfaceAddress}
  {m : HashMap String CandidateInterface}

/-- The candidate an entry is recorded in, old or fresh. -/
theorem Scanned.candidate (h : Scanned idx addrs m) (a : InterfaceAddress) :
    let c := (m[a.interfaceName]?).getD (freshCandidate (idx a.interfaceName) a)
    c.name = a.interfaceName ∧ c.index = idx a.interfaceName ∧
      (isUp (c.flags ||| a.flags) = true ↔ Up (addrs ++ [a]) a.interfaceName) ∧
      c.ips = (addrs.filter (·.interfaceName = a.interfaceName)).filterMap ipRecord := by
  cases hm : m[a.interfaceName]? with
  | some c =>
    have g := h.gathered _ _ hm
    refine ⟨g.named, g.indexed, ?_, g.ips⟩
    rw [Option.getD_some, isUp_or, Bool.or_eq_true, g.up, up_concat]
    simp
  | none =>
    have hno : ∀ b ∈ addrs, b.interfaceName ≠ a.interfaceName := by
      intro b hb he
      obtain ⟨c, hc⟩ := h.present b hb
      rw [he, hm] at hc
      cases hc
    have hf : addrs.filter (·.interfaceName = a.interfaceName) = [] := by
      simpa [List.filter_eq_nil_iff] using hno
    refine ⟨rfl, rfl, ?_, ?_⟩
    · have hu : ¬ Up addrs a.interfaceName := fun ⟨b, hb, he, _⟩ => hno b hb he
      simp [freshCandidate, up_concat, hu]
    · rw [hf]; rfl

/-- One turn of the loop. -/
theorem Scanned.step (h : Scanned idx addrs m) (a : InterfaceAddress) :
    ∃ m', scanEntry (fun name => .ok (idx name)) m a = .ok m' ∧ Scanned idx (addrs ++ [a]) m' := by
  obtain ⟨hname, hindex, hup, hips⟩ := h.candidate a
  obtain ⟨c, hc, cname, cindex, cflags, cips⟩ := CandidateInterface.record_ok
    ((m[a.interfaceName]?).getD (freshCandidate (idx a.interfaceName) a)) a
  refine ⟨m.insert a.interfaceName c, ?_, ?_, ?_⟩
  · simp [scanEntry, Except.mapError, hc, bind, Except.bind, pure, Except.pure]
  · intro b hb
    rw [HashMap.getElem?_insert]
    split
    · exact ⟨c, rfl⟩
    · rename_i hne
      rcases List.mem_append.1 hb with hb | hb
      · exact h.present b hb
      · exact absurd (by rw [List.mem_singleton.1 hb]) hne
  · intro name d hd
    rw [HashMap.getElem?_insert] at hd
    by_cases hn : a.interfaceName = name
    · subst hn
      rw [if_pos rfl, Option.some.injEq] at hd
      subst hd
      refine ⟨cname.trans hname, cindex.trans hindex, by rw [cflags]; exact hup, ?_⟩
      rw [cips, hips]
      cases hr : ipRecord a <;> simp [List.filter_append, List.filterMap_append, hr]
    · rw [if_neg hn] at hd
      have g := h.gathered _ _ hd
      refine ⟨g.named, g.indexed, ?_, ?_⟩
      · rw [g.up, up_concat]; simp [hn]
      · rw [g.ips]; simp [List.filter_append, hn]

/-- **The first loop**: with every name resolved it succeeds, and groups all entries by name. -/
theorem scan_scanned (idx : String → UInt32) (addrs : List InterfaceAddress) :
    ∃ m, scan (fun name => .ok (idx name)) addrs = .ok m ∧ Scanned idx addrs m := by
  induction addrs using List.reverseRecOn with
  | nil => exact ⟨∅, rfl, by simp, by simp⟩
  | append_singleton addrs a ih =>
    obtain ⟨m, hm, h⟩ := ih
    obtain ⟨m', hm', h'⟩ := h.step a
    refine ⟨m', ?_, h'⟩
    rw [scan, List.foldlM_append]
    rw [scan] at hm
    rw [hm]
    simp [bind, Except.bind, pure, Except.pure, hm']

/-! ## What the drain keeps -/

/-- An address that has its own prefix length keeps it. -/
theorem mem_applyFallbackForFamily {ips : List CandidateIpRecord} (fam : IpAddr → Bool) {ip : IpAddr}
    {p : UInt8} (h : ⟨ip, some p⟩ ∈ ips) : ⟨ip, some p⟩ ∈ applyFallbackForFamily ips fam := by
  unfold applyFallbackForFamily
  split
  · exact h
  · exact List.mem_map.2 ⟨_, h, by simp⟩

theorem mem_toInterface_ips {c : CandidateInterface} {ip : IpAddr} {p : UInt8}
    (h : ⟨ip, some p⟩ ∈ c.ips) : ⟨ip, p⟩ ∈ (toInterface c).2.ips := by
  have h' : ⟨ip, some p⟩ ∈ applyAliasPrefixFallback c.ips :=
    mem_applyFallbackForFamily _ (mem_applyFallbackForFamily _ h)
  rw [toInterface, Interface.mem_normalise]
  exact List.mem_filterMap.2 ⟨_, h', rfl⟩

theorem toInterface_index (c : CandidateInterface) : (toInterface c).1 = c.index := rfl
theorem toInterface_name (c : CandidateInterface) : (toInterface c).2.name = c.name := rfl

/-- The candidates that are up, as the drain hands them over. -/
def upEntries (drained : List (String × CandidateInterface)) : List (IfIndex × Interface) :=
  (drained.filter fun kv => isUp kv.2.flags).map fun kv => toInterface kv.2

theorem Scanned.mem_upEntries (h : Scanned idx addrs m) {drained : List (String × CandidateInterface)}
    (hp : drained.Perm m.iter) {k : IfIndex} {i : Interface} :
    (k, i) ∈ upEntries drained ↔
      ∃ name c, m[name]? = some c ∧ Up addrs name ∧ k = idx name ∧ i = (toInterface c).2 := by
  simp only [upEntries, List.mem_map, List.mem_filter, Prod.exists, hp.mem_iff, HashMap.mem_iter]
  constructor
  · rintro ⟨name, c, ⟨hc, hu⟩, ht⟩
    have g := h.gathered _ _ hc
    exact ⟨name, c, hc, g.up.1 hu, by rw [← g.indexed, ← toInterface_index, ht], by rw [ht]⟩
  · rintro ⟨name, c, hc, hu, rfl, rfl⟩
    have g := h.gathered _ _ hc
    exact ⟨name, c, ⟨hc, g.up.2 hu⟩, Prod.ext g.indexed rfl⟩

/-- No index is shared by two names that are up. -/
def Unshared (idx : String → UInt32) (addrs : List InterfaceAddress) : Prop :=
  ∀ name name', Up addrs name → Up addrs name' → idx name = idx name' → name = name'

/-- Then the second map overwrites nothing. -/
theorem Scanned.nodup_upEntries (h : Scanned idx addrs m) (hu : Unshared idx addrs)
    {drained : List (String × CandidateInterface)} (hp : drained.Perm m.iter) :
    ((upEntries drained).map Prod.fst).Nodup := by
  have hkeys : (drained.map Prod.fst).Nodup :=
    (hp.map _).nodup_iff.2 (HashMap.nodup_keys_iter m)
  rw [upEntries, List.map_map]
  refine (hkeys.of_map.filter _).map_on ?_
  rintro ⟨n, c⟩ hx ⟨n', c'⟩ hy he
  simp only [List.mem_filter, hp.mem_iff, HashMap.mem_iter] at hx hy
  have g := h.gathered _ _ hx.1
  have g' := h.gathered _ _ hy.1
  have hn : n = n' := by
    refine hu n n' (g.up.1 hx.2) (g'.up.1 hy.2) ?_
    rw [← g.indexed, ← g'.indexed]
    exact he
  subst hn
  rw [hx.1, Option.some.injEq] at hy
  rw [hy.1]

/-- The drain that leaves one name for the end. -/
def lastOrder (name : String) : DrainOrder where
  drain m := m.iter.filter (fun kv => ¬ kv.1 = name) ++ m.iter.filter fun kv => ¬ ¬ kv.1 = name
  perm m := by simpa using List.filter_append_perm (fun kv => !decide (kv.1 = name)) m.iter

/-- Under that order the name takes its index, whoever else has it. -/
theorem Scanned.lastOrder_wins (h : Scanned idx addrs m) {name : String} (hu : Up addrs name) :
    ∃ i, (collectByIndex ((lastOrder name).drain m))[idx name]? = some i ∧ i.name = name := by
  obtain ⟨a, ha, rfl, -⟩ := id hu
  obtain ⟨c, hc⟩ := h.present a ha
  have g := h.gathered _ _ hc
  let last := upEntries (m.iter.filter fun kv => ¬ ¬ kv.1 = a.interfaceName)
  have hsplit : collectByIndex ((lastOrder a.interfaceName).drain m) =
      HashMap.collect (upEntries (m.iter.filter fun kv => ¬ kv.1 = a.interfaceName) ++ last) := by
    simp only [collectByIndex, lastOrder, last, upEntries, List.filter_append, List.map_append]
  have hmem : idx a.interfaceName ∈ last.map Prod.fst := by
    refine List.mem_map.2 ⟨toInterface c, List.mem_map.2 ⟨(a.interfaceName, c), ?_, rfl⟩, g.indexed⟩
    simp [List.mem_filter, HashMap.mem_iter, hc, g.up.2 hu]
  obtain ⟨i, hi⟩ := HashMap.isSome_getElem?_collect hmem
  refine ⟨i, by rw [hsplit, HashMap.getElem?_collect_append_of_mem hmem, hi], ?_⟩
  obtain ⟨⟨n, d⟩, hd, he⟩ := List.mem_map.1 (HashMap.mem_of_getElem?_collect hi)
  simp only [List.mem_filter, HashMap.mem_iter, Bool.not_not, decide_not, decide_eq_true_eq] at hd
  have hname := toInterface_name d
  rwa [he, (h.gathered _ _ hd.1.1).named, hd.1.2] at hname

/-! ## The whole listing -/

/-- The listing of `addrs` under one order, every name resolved by `idx`. -/
def listing (order : DrainOrder) (idx : String → UInt32) (addrs : List InterfaceAddress) :
    Except Error IfList :=
  listInterfaces order (fun name => .ok (idx name)) (.ok addrs)

theorem listing_eq (idx : String → UInt32) (addrs : List InterfaceAddress) :
    ∃ m, Scanned idx addrs m ∧
      ∀ order : DrainOrder, listing order idx addrs = .ok (collectByIndex (order.drain m)) := by
  obtain ⟨m, hm, h⟩ := scan_scanned idx addrs
  refine ⟨m, h, ?_⟩
  intro order
  simp [listing, listInterfaces, Except.mapError, hm, bind, Except.bind, pure, Except.pure]

/-- Each entry that has an address with a prefix length of its own, on a name that is up, is listed
under the index of the name. -/
def LosesNothing (idx : String → UInt32) (addrs : List InterfaceAddress) : Prop :=
  ∀ order : DrainOrder, ∃ l, listing order idx addrs = .ok l ∧
    ∀ a ∈ addrs, Up addrs a.interfaceName → ∀ ip p, ipRecord a = some ⟨ip, some p⟩ →
      ∃ i, l[idx a.interfaceName]? = some i ∧ ⟨ip, p⟩ ∈ i.ips

def OrderFree (idx : String → UInt32) (addrs : List InterfaceAddress) : Prop :=
  ∀ order order' : DrainOrder, listing order idx addrs = listing order' idx addrs

theorem losesNothing_of_unshared (hu : Unshared idx addrs) : LosesNothing idx addrs := by
  intro order
  obtain ⟨m, h, hl⟩ := listing_eq idx addrs
  refine ⟨_, hl order, ?_⟩
  intro a ha hup ip p hr
  obtain ⟨c, hc⟩ := h.present a ha
  refine ⟨(toInterface c).2, ?_, mem_toInterface_ips ?_⟩
  · exact (HashMap.getElem?_collect_iff (h.nodup_upEntries hu (order.perm m))).2
      ((h.mem_upEntries (order.perm m)).2 ⟨_, c, hc, hup, rfl, rfl⟩)
  · rw [(h.gathered _ _ hc).ips]
    exact List.mem_filterMap.2 ⟨a, by simpa using ha, hr⟩

theorem orderFree_of_unshared (hu : Unshared idx addrs) : OrderFree idx addrs := by
  intro order order'
  obtain ⟨m, h, hl⟩ := listing_eq idx addrs
  have hp : (upEntries (order.drain m)).Perm (upEntries (order'.drain m)) :=
    (((order.perm m).trans (order'.perm m).symm).filter _).map _
  have he : collectByIndex (order.drain m) = collectByIndex (order'.drain m) :=
    HashMap.collect_perm (h.nodup_upEntries hu (order.perm m)) hp
  rw [hl, hl, he]

theorem unshared_of_orderFree (ho : OrderFree idx addrs) : Unshared idx addrs := by
  intro name name' hup hup' hidx
  obtain ⟨m, h, hl⟩ := listing_eq idx addrs
  have he := ho (lastOrder name) (lastOrder name')
  rw [hl, hl, Except.ok.injEq] at he
  obtain ⟨i, hi, rfl⟩ := h.lastOrder_wins hup
  obtain ⟨i', hi', rfl⟩ := h.lastOrder_wins hup'
  rw [he, hidx, hi', Option.some.injEq] at hi
  rw [hi]

/-- **Exactly when a listing is faithful**: it keeps every address, under every iteration order the
same, iff no two names that are up resolve to one index. -/
theorem listInterfaces_faithful_iff (idx : String → UInt32) (addrs : List InterfaceAddress) :
    LosesNothing idx addrs ∧ OrderFree idx addrs ↔
      ∀ name name', Up addrs name → Up addrs name' → idx name = idx name' → name = name' :=
  ⟨fun h => unshared_of_orderFree h.2,
    fun hu => ⟨losesNothing_of_unshared hu, orderFree_of_unshared hu⟩⟩

/-- `eth0` with 192.0.2.1/24 and its label `eth0:1` with 192.0.2.2/24, both up. -/
def labelled : List InterfaceAddress :=
  [⟨"eth0", iffUp, some (.inet 0xC0000201#32), some (.inet 0xFFFFFF00#32)⟩,
   ⟨"eth0:1", iffUp, some (.inet 0xC0000202#32), some (.inet 0xFFFFFF00#32)⟩]

def sortedOrder : DrainOrder := ⟨fun m => m.iter, fun _ => .refl _⟩
def reversedOrder : DrainOrder := ⟨fun m => m.iter.reverse, fun _ => List.reverse_perm _⟩

def addressesAt (r : Except Error IfList) (k : IfIndex) : List IpRecord :=
  match r with
  | .ok l => ((l[k]?).map (·.ips)).getD []
  | .error _ => []

/-- The label and the device both resolve to index 2: the one drained last takes it alone. -/
theorem labelled_lossy :
    ¬ LosesNothing (fun _ => 2) labelled ∧ ¬ OrderFree (fun _ => 2) labelled := by
  have hsorted : addressesAt (listing sortedOrder (fun _ => 2) labelled) 2 =
      [⟨.V4 0xC0000202#32, 24⟩] := by decide +kernel
  have hreversed : addressesAt (listing reversedOrder (fun _ => 2) labelled) 2 =
      [⟨.V4 0xC0000201#32, 24⟩] := by decide +kernel
  constructor
  · intro h
    obtain ⟨l, hl, keeps⟩ := h sortedOrder
    obtain ⟨i, hi, hmem⟩ := keeps labelled[0] (by decide) ⟨labelled[0], by decide, rfl, by decide⟩
      (.V4 0xC0000201#32) 24 (by decide)
    rw [hl] at hsorted
    simp only [addressesAt, hi, Option.map_some, Option.getD_some] at hsorted
    rw [hsorted] at hmem
    exact absurd hmem (by decide)
  · intro h
    rw [h sortedOrder reversedOrder, hreversed] at hsorted
    exact absurd hsorted (by decide)

end Netwatcher.ListUnix
