import Netwatcher.ListUnix.Fallback
/-!
# What the Unix `list_interfaces` returns (`src/list_unix.rs`)

`Listed` is the contract of a listing, in terms of the entries of each name and nothing else: no
candidate, no map, no order of a drain. `listInterfaces_spec` proves it of the two passes.

| here | there |
| --- | --- |
| `entriesOf`, `recordsOf` | what `getifaddrs` reports of one name, and the addresses in it |
| `macText`     | `format_mac` (list_unix.rs:128), which cannot fail |
| `hwAddrOf`    | `c.hw_addr.unwrap_or_else(..)` (list_unix.rs:89) |
-/
namespace Netwatcher.ListUnix
open Coll

def entriesOf (addrs : List InterfaceAddress) (name : String) : List InterfaceAddress :=
  addrs.filter (·.interfaceName = name)

def recordsOf (addrs : List InterfaceAddress) (name : String) : List CandidateIpRecord :=
  (entriesOf addrs name).filterMap ipRecord

/-- Two digits a byte, separated by colons. -/
def macText (bytes : List UInt8) : String := ":".intercalate (bytes.map hexByte)

/-- The last link-layer address among the entries of the name, or the placeholder. -/
def hwAddrOf (addrs : List InterfaceAddress) (name : String) : String :=
  (((entriesOf addrs name).filterMap linkAddr).getLast?.map macText).getD "00:00:00:00:00:00"

/-- An entry of the name carries `ip` with prefix length `p` of its own, or without any, and `p` is
the first one that an entry of the name has for the family. -/
def Carries (addrs : List InterfaceAddress) (name : String) (ip : IpAddr) (p : UInt8) : Prop :=
  ⟨ip, some p⟩ ∈ recordsOf addrs name ∨
    ⟨ip, none⟩ ∈ recordsOf addrs name ∧ (ownPrefixes (recordsOf addrs name) ip).head? = some p

def Sockaddr.ofIp : IpAddr → Sockaddr
  | .V4 ip => .inet ip
  | .V6 ip => .inet6 ip

def maskOnes : IpAddr → Nat
  | .V4 mask => leadingOnes mask
  | .V6 mask => leadingOnes mask

/-- The prefix length that an entry gives `ip` by a netmask of its family, or that it gives none.
`mem_recordsOf` says that this is how `recordsOf` reads the entries. -/
def OwnPrefix (netmask : Option Sockaddr) (ip : IpAddr) : Option UInt8 → Prop
  | some p => ∃ mask, sameFamily ip mask = true ∧ netmask = some (.ofIp mask) ∧ p.toNat = maskOnes mask
  | none => ∀ mask, sameFamily ip mask = true → netmask ≠ some (.ofIp mask)

def maxPrefix : IpAddr → Nat
  | .V4 _ => 32
  | .V6 _ => 128

/-- `l` is what the entries say. -/
structure Listed (idx : String → UInt32) (addrs : List InterfaceAddress) (l : IfList) : Prop where
  keys : ∀ k : IfIndex, (∃ i, l[k]? = some i) ↔ ∃ name, Up addrs name ∧ idx name = k
  index : ∀ (k : IfIndex) (i : Interface), l[k]? = some i → i.index = k
  name : ∀ (k : IfIndex) (i : Interface), l[k]? = some i → Up addrs i.name ∧ idx i.name = k
  hwAddr : ∀ (k : IfIndex) (i : Interface), l[k]? = some i → i.hwAddr = hwAddrOf addrs i.name
  sorted : ∀ (k : IfIndex) (i : Interface), l[k]? = some i → i.ips.SortedLT
  ips : ∀ (k : IfIndex) (i : Interface), l[k]? = some i →
    ∀ ip p, ⟨ip, p⟩ ∈ i.ips ↔ Carries addrs i.name ip p
  prefixes : ∀ (k : IfIndex) (i : Interface), l[k]? = some i →
    ∀ r ∈ i.ips, r.prefixLen.toNat ≤ maxPrefix r.ip

/-- Different names resolve to different indices. -/
def DistinctIndices (idx : String → UInt32) (addrs : List InterfaceAddress) : Prop :=
  ∀ a ∈ addrs, ∀ b ∈ addrs, idx a.interfaceName = idx b.interfaceName → a.interfaceName = b.interfaceName

/-! ## Hardware addresses -/

theorem macText_concat {bytes : List UInt8} (h : bytes ≠ []) (b : UInt8) :
    macText (bytes ++ [b]) = macText bytes ++ ":" ++ hexByte b := by
  rw [macText, List.map_append, String.intercalate_append_of_ne_nil (by simpa using h) (by simp)]
  rfl

theorem formatMac_eq (bytes : List UInt8) : formatMac bytes = .ok (macText bytes) := by
  induction bytes using List.reverseRecOn with
  | nil => rfl
  | append_singleton bytes b ih =>
    have hz : (bytes ++ [b]).zipIdx = bytes.zipIdx ++ [(b, bytes.length)] := by
      simp [List.zipIdx_append]
    rw [formatMac] at ih ⊢
    rw [hz, List.foldlM_append, ih]
    cases bytes with
    | nil => simp [writeStr, macText, bind, Except.bind, pure, Except.pure]
    | cons c bytes =>
      rw [macText_concat (by simp)]
      simp [writeStr, bind, Except.bind, pure, Except.pure]

theorem CandidateInterface.record_hwAddr {c c' : CandidateInterface} {addr : InterfaceAddress}
    (h : c.record addr = .ok c') : c'.hwAddr = ((linkAddr addr).map macText).or c.hwAddr := by
  cases hl : linkAddr addr with
  | none =>
    cases hr : ipRecord addr <;>
      simp [CandidateInterface.record, hl, hr, bind, Except.bind, pure, Except.pure] at h <;> simp [← h]
  | some raw =>
    cases hr : ipRecord addr <;>
      simp [CandidateInterface.record, hl, hr, formatMac_eq, bind, Except.bind, pure, Except.pure] at h <;>
      simp [← h]

section
variable {idx : String → UInt32} {addrs : List InterfaceAddress} {m m' : HashMap String CandidateInterface}

/-- The candidate has the last hardware address of its name. -/
def HwGathered (addrs : List InterfaceAddress) (m : HashMap String CandidateInterface) : Prop :=
  ∀ (name : String) (c : CandidateInterface), m[name]? = some c →
    c.hwAddr = ((entriesOf addrs name).filterMap linkAddr).getLast?.map macText

theorem getLast?_linkAddr_concat (addrs : List InterfaceAddress) (a : InterfaceAddress) :
    ((entriesOf (addrs ++ [a]) a.interfaceName).filterMap linkAddr).getLast? =
      (linkAddr a).or ((entriesOf addrs a.interfaceName).filterMap linkAddr).getLast? := by
  cases hl : linkAddr a <;> simp [entriesOf, List.filter_append, List.filterMap_append, hl]

/-- One turn of the loop. -/
theorem HwGathered.step (hg : HwGathered addrs m) (h : Scanned idx addrs m) (a : InterfaceAddress)
    (he : scanEntry (fun name => .ok (idx name)) m a = .ok m') : HwGathered (addrs ++ [a]) m' := by
  obtain ⟨c, hc, -⟩ := CandidateInterface.record_ok
    ((m[a.interfaceName]?).getD (freshCandidate (idx a.interfaceName) a)) a
  simp only [scanEntry, Except.mapError, hc, bind, Except.bind, pure, Except.pure, Except.ok.injEq] at he
  subst he
  intro name d hd
  rw [HashMap.getElem?_insert] at hd
  by_cases hn : a.interfaceName = name
  · subst hn
    rw [if_pos rfl, Option.some.injEq] at hd
    subst hd
    rw [CandidateInterface.record_hwAddr hc, getLast?_linkAddr_concat]
    have hold : ((m[a.interfaceName]?).getD (freshCandidate (idx a.interfaceName) a)).hwAddr =
        ((entriesOf addrs a.interfaceName).filterMap linkAddr).getLast?.map macText := by
      cases hm : m[a.interfaceName]? with
      | some c => exact hg _ _ hm
      | none =>
        -- a name without a candidate has had no entry
        have hnil : entriesOf addrs a.interfaceName = [] := by
          rw [entriesOf, List.filter_eq_nil_iff]
          intro b hb hbn
          obtain ⟨c, hc⟩ := h.present b hb
          rw [of_decide_eq_true hbn, hm] at hc
          cases hc
        rw [hnil]
        rfl
    rw [hold]
    cases linkAddr a <;> simp
  · rw [if_neg hn] at hd
    rw [hg name d hd]
    simp [entriesOf, List.filter_append, hn]

theorem hwGathered (hs : scan (fun name => .ok (idx name)) addrs = .ok m) : HwGathered addrs m := by
  induction addrs using List.reverseRecOn generalizing m with
  | nil =>
    simp only [scan, List.foldlM_nil, pure, Except.pure, Except.ok.injEq] at hs
    subst hs
    intro name c hc
    simp at hc
  | append_singleton addrs a ih =>
    obtain ⟨m₀, hm₀, h₀⟩ := scan_scanned idx addrs
    rw [scan, List.foldlM_append] at hs
    rw [scan] at hm₀
    rw [hm₀] at hs
    obtain ⟨m₁, hm₁, -⟩ := h₀.step a
    have hm : m₁ = m := by simpa [bind, Except.bind, pure, Except.pure, hm₁] using hs
    subst hm
    exact (ih hm₀).step h₀ a hm₁

end

/-! ## Prefix lengths -/

/-- The addresses of a candidate with the prefix lengths they end up with. -/
theorem mem_toInterface_ips_iff {c : CandidateInterface} {ip : IpAddr} {p : UInt8} :
    ⟨ip, p⟩ ∈ (toInterface c).2.ips ↔
      ⟨ip, some p⟩ ∈ c.ips ∨ ⟨ip, none⟩ ∈ c.ips ∧ (ownPrefixes c.ips ip).head? = some p := by
  rw [toInterface, Interface.mem_normalise, applyAliasPrefixFallback_eq, List.filterMap_map,
    List.mem_filterMap]
  constructor
  · rintro ⟨⟨ip', q⟩, hmem, hq⟩
    obtain ⟨p', hp', he⟩ := Option.map_eq_some_iff.1 hq
    obtain ⟨rfl, rfl⟩ := IpRecord.mk.inj he
    cases q with
    | none => exact .inr ⟨hmem, hp'⟩
    | some q =>
      obtain rfl : q = p' := by simpa using hp'
      exact .inl hmem
  · rintro (h | ⟨h, hp⟩)
    · exact ⟨_, h, rfl⟩
    · refine ⟨_, h, ?_⟩
      simp [hp]

/-- How far a list of bits is true. -/
theorem length_takeWhile_id_eq_iff {l : List Bool} {n : Nat} : (l.takeWhile id).length = n ↔
    n ≤ l.length ∧ (∀ i < n, l[i]? = some true) ∧ (n < l.length → l[n]? = some false) := by
  induction l generalizing n with
  | nil => cases n <;> simp
  | cons b l ih =>
    cases b with
    | false =>
      cases n with
      | zero => simp
      | succ n =>
        refine iff_of_false (by simp) ?_
        rintro ⟨-, h, -⟩
        simpa using h 0 (by simp)
    | true =>
      cases n with
      | zero => simp
      | succ n =>
        have hall : (∀ i < n + 1, (true :: l)[i]? = some true) ↔ ∀ i < n, l[i]? = some true := by
          constructor
          · intro h i hi
            simpa using h (i + 1) (by omega)
          · rintro h (_ | i) hi
            · rfl
            · simpa using h i (by omega)
        rw [hall]
        simpa using ih (n := n)

/-- A mask of `p` leading ones. -/
theorem leadingOnes_eq_iff {w p : Nat} {mask : BitVec w} : leadingOnes mask = p ↔
    p ≤ w ∧ (∀ i < p, mask.getMsbD i = true) ∧ (p < w → mask.getMsbD p = false) := by
  have hget (i : Nat) (hi : i < w) (b : Bool) :
      ((List.range w).map mask.getMsbD)[i]? = some b ↔ mask.getMsbD i = b := by
    simp [List.getElem?_range hi]
  rw [leadingOnes, length_takeWhile_id_eq_iff, List.length_map, List.length_range]
  refine and_congr_right fun hp => and_congr ?_ ?_
  · exact forall₂_congr fun i hi => hget i (by omega) true
  · exact forall_congr' fun hlt => hget p hlt false

theorem leadingOnes_le {w : Nat} (mask : BitVec w) : leadingOnes mask ≤ w := (leadingOnes_eq_iff.1 rfl).1

theorem maskOnes_le (mask : IpAddr) : maskOnes mask ≤ maxPrefix mask := by
  cases mask <;> exact leadingOnes_le _

section
variable {w : Nat} {as : Sockaddr → Option (BitVec w)} {netmask : Option Sockaddr}

theorem prefixOf_eq_some (hw : w ≤ 128) {p : UInt8} : prefixOf as netmask = some p ↔
    ∃ s mask, netmask = some s ∧ as s = some mask ∧ p.toNat = leadingOnes mask := by
  simp only [prefixOf, Option.bind_eq_some_iff, Option.map_eq_some_iff]
  constructor
  · rintro ⟨s, hs, mask, hm, rfl⟩
    have := leadingOnes_le mask
    exact ⟨s, mask, hs, hm, by rw [UInt8.toNat_ofNat', Nat.mod_eq_of_lt (by omega)]⟩
  · rintro ⟨s, mask, hs, hm, hp⟩
    refine ⟨s, hs, mask, hm, ?_⟩
    rw [← hp, UInt8.ofNat_toNat]

theorem prefixOf_eq_none : prefixOf as netmask = none ↔ ∀ s mask, as s = some mask → netmask ≠ some s := by
  simp only [prefixOf, Option.bind_eq_none_iff, Option.map_eq_none_iff]
  constructor
  · rintro h s mask hs rfl
    rw [h s rfl] at hs
    cases hs
  · rintro h s rfl
    cases hs : as s with
    | none => rfl
    | some mask => exact absurd rfl (h s mask hs)

/-- `as` reads the addresses of one family, that of `ip`. -/
theorem prefixOf_eq_iff (hw : w ≤ 128) {f : BitVec w → IpAddr} {ip : IpAddr}
    (has : ∀ s mask, as s = some mask ↔ s = .ofIp (f mask))
    (hfamily : ∀ ip', sameFamily ip ip' = true ↔ ∃ mask, ip' = f mask)
    (hones : ∀ mask, maskOnes (f mask) = leadingOnes mask) {q : Option UInt8} :
    prefixOf as netmask = q ↔ OwnPrefix netmask ip q := by
  cases q with
  | some p =>
    rw [prefixOf_eq_some hw]
    constructor
    · rintro ⟨s, mask, rfl, hm, hp⟩
      exact ⟨f mask, (hfamily _).2 ⟨mask, rfl⟩, by rw [(has _ _).1 hm], by rw [hones, hp]⟩
    · rintro ⟨ip', hf, rfl, hp⟩
      obtain ⟨mask, rfl⟩ := (hfamily _).1 hf
      exact ⟨_, mask, rfl, (has _ _).2 rfl, by rw [← hones, hp]⟩
  | none =>
    rw [prefixOf_eq_none]
    constructor
    · rintro h ip' hf
      obtain ⟨mask, rfl⟩ := (hfamily _).1 hf
      exact h _ mask ((has _ _).2 rfl)
    · rintro h s mask hs
      rw [(has _ _).1 hs]
      exact h _ ((hfamily _).2 ⟨mask, rfl⟩)

end

/-- **What an entry carries**: its address, and the prefix length of a netmask of that family. -/
theorem ipRecord_eq_some {a : InterfaceAddress} {ip : IpAddr} {q : Option UInt8} :
    ipRecord a = some ⟨ip, q⟩ ↔ a.address = some (.ofIp ip) ∧ OwnPrefix a.netmask ip q := by
  unfold ipRecord
  cases ha : a.address with
  | none => simp
  | some s =>
    cases ip with
    | V4 ip =>
      have hq : prefixOf Sockaddr.asSockaddrIn a.netmask = q ↔ OwnPrefix a.netmask (.V4 ip) q := by
        refine prefixOf_eq_iff (by omega) (f := .V4) ?_ ?_ fun _ => rfl
        · rintro (_ | _ | _ | _) mask <;> simp [Sockaddr.asSockaddrIn, Sockaddr.ofIp]
        · rintro (_ | _) <;> simp [sameFamily, IpAddr.isIpv4]
      cases s <;> simp [Sockaddr.asSockaddrIn, Sockaddr.asSockaddrIn6, Sockaddr.ofIp, hq]
    | V6 ip =>
      have hq : prefixOf Sockaddr.asSockaddrIn6 a.netmask = q ↔ OwnPrefix a.netmask (.V6 ip) q := by
        refine prefixOf_eq_iff (by omega) (f := .V6) ?_ ?_ fun _ => rfl
        · rintro (_ | _ | _ | _) mask <;> simp [Sockaddr.asSockaddrIn6, Sockaddr.ofIp]
        · rintro (_ | _) <;> simp [sameFamily, IpAddr.isIpv4]
      cases s <;> simp [Sockaddr.asSockaddrIn, Sockaddr.asSockaddrIn6, Sockaddr.ofIp, hq]

/-- **What the entries of a name carry**, in terms of their socket addresses. -/
theorem mem_recordsOf {addrs : List InterfaceAddress} {name : String} {ip : IpAddr} {q : Option UInt8} :
    ⟨ip, q⟩ ∈ recordsOf addrs name ↔
      ∃ a ∈ addrs, a.interfaceName = name ∧ a.address = some (.ofIp ip) ∧ OwnPrefix a.netmask ip q := by
  simp [recordsOf, entriesOf, ipRecord_eq_some, and_assoc]

theorem maxPrefix_congr {ip ip' : IpAddr} (h : sameFamily ip ip' = true) : maxPrefix ip = maxPrefix ip' := by
  cases ip <;> cases ip' <;> first | rfl | cases h

/-- So does a borrowed one: it comes from the same family. -/
theorem Carries.le {addrs : List InterfaceAddress} {name : String} {ip : IpAddr} {p : UInt8}
    (h : Carries addrs name ip p) : p.toNat ≤ maxPrefix ip := by
  have own {ip : IpAddr} {p : UInt8} (h : ⟨ip, some p⟩ ∈ recordsOf addrs name) : p.toNat ≤ maxPrefix ip := by
    obtain ⟨a, -, -, -, mask, hf, -, hp⟩ := mem_recordsOf.1 h
    rw [hp, maxPrefix_congr hf]
    exact maskOnes_le mask
  rcases h with h | ⟨-, h⟩
  · exact own h
  · obtain ⟨⟨ip', q⟩, hmem, hq⟩ := List.mem_filterMap.1 (List.mem_of_head? h)
    split at hq
    · rename_i hf
      rw [maxPrefix_congr hf]
      exact own (hq ▸ hmem)
    · cases hq

/-! ## The whole listing -/

section
variable {idx : String → UInt32} {addrs : List InterfaceAddress}

theorem DistinctIndices.unshared (hd : DistinctIndices idx addrs) : Unshared idx addrs := by
  rintro name name' ⟨a, ha, rfl, -⟩ ⟨b, hb, rfl, -⟩ hidx
  exact hd a ha b hb hidx

/-- What is under an index comes from the candidate of one name. -/
theorem Scanned.getElem?_collectByIndex {m : HashMap String CandidateInterface} (h : Scanned idx addrs m)
    (hu : Unshared idx addrs) (order : DrainOrder) {k : IfIndex} {i : Interface} :
    (collectByIndex (order.drain m))[k]? = some i ↔
      ∃ name c, m[name]? = some c ∧ Up addrs name ∧ k = idx name ∧ i = (toInterface c).2 := by
  rw [← h.mem_upEntries (order.perm m)]
  exact HashMap.getElem?_collect_iff (h.nodup_upEntries hu (order.perm m))

/-- **A listing is what the entries say**, under every order of the drain. -/
theorem listing_listed (order : DrainOrder) (hd : DistinctIndices idx addrs) :
    ∃ l, listing order idx addrs = .ok l ∧ Listed idx addrs l := by
  obtain ⟨m, hm, h⟩ := scan_scanned idx addrs
  have hg := hwGathered hm
  have hget := @Scanned.getElem?_collectByIndex idx addrs m h hd.unshared order
  -- one fact about the interface under `k` at a time
  have under {k : IfIndex} {i : Interface} (hi : (collectByIndex (order.drain m))[k]? = some i) :
      ∃ c, m[i.name]? = some c ∧ Gathered idx addrs i.name c ∧ Up addrs i.name ∧ idx i.name = k ∧
        i = (toInterface c).2 := by
    obtain ⟨name, c, hc, hup, rfl, rfl⟩ := hget.1 hi
    have g := h.gathered name c hc
    have hn : (toInterface c).2.name = name := (toInterface_name c).trans g.named
    rw [hn]
    exact ⟨c, hc, g, hup, rfl, rfl⟩
  refine ⟨collectByIndex (order.drain m), ?_, ?_, ?_, ?_, ?_, ?_, ?_, ?_⟩
  · simp [listing, listInterfaces, Except.mapError, hm, bind, Except.bind, pure, Except.pure]
  · intro k
    constructor
    · rintro ⟨i, hi⟩
      obtain ⟨name, c, -, hup, rfl, -⟩ := hget.1 hi
      exact ⟨name, hup, rfl⟩
    · rintro ⟨name, hup, rfl⟩
      obtain ⟨a, ha, rfl, -⟩ := id hup
      obtain ⟨c, hc⟩ := h.present a ha
      exact ⟨_, hget.2 ⟨_, c, hc, hup, rfl, rfl⟩⟩
  · intro k i hi
    obtain ⟨c, -, g, -, hk, he⟩ := under hi
    rw [← hk, ← g.indexed, he]
    rfl
  · intro k i hi
    obtain ⟨c, -, -, hup, hk, -⟩ := under hi
    exact ⟨hup, hk⟩
  · intro k i hi
    obtain ⟨c, hc, -, -, -, he⟩ := under hi
    rw [hwAddrOf, ← hg i.name c hc, he]
    rfl
  · intro k i hi
    obtain ⟨c, -, -, -, -, he⟩ := under hi
    rw [he]
    exact Interface.normalise_sorted _
  · intro k i hi ip p
    obtain ⟨c, -, g, -, -, he⟩ := under hi
    rw [Carries, show recordsOf addrs i.name = c.ips from g.ips.symm, ← mem_toInterface_ips_iff, ← he]
  · intro k i hi r hr
    obtain ⟨c, -, g, -, -, he⟩ := under hi
    have hcarries : Carries addrs i.name r.ip r.prefixLen := by
      rw [Carries, show recordsOf addrs i.name = c.ips from g.ips.symm, ← mem_toInterface_ips_iff, ← he]
      exact hr
    exact hcarries.le

/-- The specification leaves no choice. -/
theorem Listed.eq {l l' : IfList} (h : Listed idx addrs l) (h' : Listed idx addrs l')
    (hu : Unshared idx addrs) : l = l' := by
  refine HashMap.ext_iff.2 fun k => ?_
  cases hi : l[k]? with
  | none =>
    cases hj : l'[k]? with
    | none => rfl
    | some j =>
      obtain ⟨i, hi'⟩ := (h.keys k).2 ((h'.keys k).1 ⟨j, hj⟩)
      rw [hi] at hi'
      cases hi'
  | some i =>
    obtain ⟨j, hj⟩ := (h'.keys k).2 ((h.keys k).1 ⟨i, hi⟩)
    have hname : i.name = j.name :=
      hu _ _ (h.name k i hi).1 (h'.name k j hj).1 ((h.name k i hi).2.trans (h'.name k j hj).2.symm)
    have hips : i.ips = j.ips := (h.sorted k i hi).eq_of_mem_iff (h'.sorted k j hj) fun r => by
      rw [h.ips k i hi r.ip r.prefixLen, h'.ips k j hj r.ip r.prefixLen, hname]
    have hhw : i.hwAddr = j.hwAddr := by rw [h.hwAddr k i hi, h'.hwAddr k j hj, hname]
    have hidx : i.index = j.index := (h.index k i hi).trans (h'.index k j hj).symm
    rw [hj, Option.some.injEq]
    cases i
    cases j
    simp_all

end

/-! ## Names that do not resolve -/

/-- Only the names that occur are resolved. -/
theorem scan_congr {f g : String → Except String UInt32} {addrs : List InterfaceAddress}
    (h : ∀ a ∈ addrs, f a.interfaceName = g a.interfaceName) : scan f addrs = scan g addrs := by
  unfold scan
  generalize (∅ : HashMap String CandidateInterface) = m
  induction addrs generalizing m with
  | nil => rfl
  | cons a addrs ih =>
    have he : scanEntry f m a = scanEntry g m a := by rw [scanEntry, scanEntry, h a (by simp)]
    rw [List.foldlM_cons, List.foldlM_cons, he]
    congr 1
    funext m'
    exact ih (fun b hb => h b (List.mem_cons_of_mem _ hb)) m'

/-- **One name that does not resolve fails the scan.** -/
theorem scan_error {f : String → Except String UInt32} {addrs : List InterfaceAddress}
    (h : ∃ a ∈ addrs, ∃ e, f a.interfaceName = .error e) : ∃ e, scan f addrs = .error (.getInterfaceName e) := by
  unfold scan
  generalize (∅ : HashMap String CandidateInterface) = m
  induction addrs generalizing m with
  | nil => simp at h
  | cons a addrs ih =>
    rw [List.foldlM_cons]
    cases hf : f a.interfaceName with
    | error e =>
      refine ⟨e, ?_⟩
      simp [scanEntry, hf, Except.mapError, bind, Except.bind]
    | ok index =>
      obtain ⟨c, hc, -⟩ := CandidateInterface.record_ok
        ((m[a.interfaceName]?).getD (freshCandidate index a)) a
      have he : scanEntry f m a = .ok (m.insert a.interfaceName c) := by
        simp [scanEntry, hf, Except.mapError, hc, bind, Except.bind, pure, Except.pure]
      rw [he]
      refine ih ?_ _
      obtain ⟨b, hb, e, hbe⟩ := h
      rcases List.mem_cons.1 hb with rfl | hb
      · rw [hf] at hbe
        cases hbe
      · exact ⟨b, hb, e, hbe⟩

/-- **Unix `list_interfaces` meets its specification**: it fails if a name does not resolve, and lists
what the entries say if all do, to different indices. -/
theorem listInterfaces_spec (order : DrainOrder) (ifNametoindex : String → Except String UInt32)
    (addrs : List InterfaceAddress) :
    ((∃ a ∈ addrs, ∃ e, ifNametoindex a.interfaceName = .error e) →
      ∃ e, listInterfaces order ifNametoindex (.ok addrs) = .error (.getInterfaceName e)) ∧
    ∀ idx : String → UInt32, (∀ a ∈ addrs, ifNametoindex a.interfaceName = .ok (idx a.interfaceName)) →
      DistinctIndices idx addrs →
        ∃ l, listInterfaces order ifNametoindex (.ok addrs) = .ok l ∧ Listed idx addrs l := by
  refine ⟨?_, ?_⟩
  · intro h
    obtain ⟨e, he⟩ := scan_error h
    refine ⟨e, ?_⟩
    simp [listInterfaces, Except.mapError, he, bind, Except.bind]
  · intro idx hok hd
    have hs : scan ifNametoindex addrs = scan (fun name => .ok (idx name)) addrs := scan_congr hok
    obtain ⟨l, hl, h⟩ := listing_listed order hd
    refine ⟨l, ?_, h⟩
    rw [← hl]
    simp [listing, listInterfaces, Except.mapError, hs, bind, Except.bind]

/-- `eth0` with an alias that has no netmask of its own. -/
def aliased : List InterfaceAddress :=
  [⟨"eth0", iffUp, some (.inet 0xC0000201#32), some (.inet 0xFFFFFF00#32)⟩,
   ⟨"eth0", iffUp, some (.inet 0xC0000202#32), none⟩]

theorem listInterfaces_spec_aliased :
    (∃ l, listInterfaces sortedOrder (fun _ => .ok 2) (.ok aliased) = .ok l ∧
      Listed (fun _ => 2) aliased l) ∧ Carries aliased "eth0" (.V4 0xC0000202#32) 24 := by
  refine ⟨(listInterfaces_spec sortedOrder (fun _ => .ok 2) aliased).2 (fun _ => 2) (fun _ _ => rfl) ?_, ?_⟩
  · simp [DistinctIndices, aliased]
  · -- the alias has no netmask, and the other address has 24 bits of one
    exact .inr ⟨mem_recordsOf.2 ⟨_, List.mem_cons_of_mem _ (List.mem_singleton_self _), rfl, rfl, by simp [OwnPrefix]⟩,
      by decide⟩

end Netwatcher.ListUnix
