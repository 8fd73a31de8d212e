import Netwatcher.ListUnix.Spec
/-!
# The order of the entries (`src/list_unix.rs`)

`Interface::normalise` is there so that "a reordering of otherwise identical addresses does not
produce a spurious modified update" (lib.rs:191-198). The flags, the hardware address and the sorted
addresses do not depend on the order of the entries. The borrowed prefix length does: it is the
*first* one of its family (`apply_fallback_for_family`, list_unix.rs:112), so an alias without a
netmask, on an interface whose other addresses of the family differ in prefix length, is listed with
whichever of these comes first.

`orderInsensitive_iff` says exactly when that happens.
-/
namespace Netwatcher.ListUnix
open Coll

/-- Each name has at most one link-layer address. -/
def SingleLink (addrs : List InterfaceAddress) : Prop :=
  ∀ name, ((entriesOf addrs name).filterMap linkAddr).length ≤ 1

/-- Every reordering of the entries gives the same list, whatever the orders of the drains. -/
def OrderInsensitive (idx : String → UInt32) (addrs : List InterfaceAddress) : Prop :=
  ∀ addrs', addrs.Perm addrs' → ∀ order order' : DrainOrder,
    listing order idx addrs = listing order' idx addrs'

/-- Wherever an address without a prefix length may borrow either of two, both are listed for it
anyway. -/
def BorrowsAlike (addrs : List InterfaceAddress) : Prop :=
  ∀ name, Up addrs name → ∀ ip, ⟨ip, none⟩ ∈ recordsOf addrs name →
    ∀ p ∈ ownPrefixes (recordsOf addrs name) ip, ∀ q ∈ ownPrefixes (recordsOf addrs name) ip,
      p = q ∨ ⟨ip, some p⟩ ∈ recordsOf addrs name ∧ ⟨ip, some q⟩ ∈ recordsOf addrs name

section
variable {idx : String → UInt32} {addrs addrs' : List InterfaceAddress}

/-! ## What a reordering keeps -/

theorem up_perm (h : addrs.Perm addrs') {name : String} : Up addrs name ↔ Up addrs' name := by
  unfold Up
  simp only [h.mem_iff]

theorem entriesOf_perm (h : addrs.Perm addrs') (name : String) :
    (entriesOf addrs name).Perm (entriesOf addrs' name) := h.filter _

theorem recordsOf_perm (h : addrs.Perm addrs') (name : String) :
    (recordsOf addrs name).Perm (recordsOf addrs' name) := (entriesOf_perm h name).filterMap _

theorem ownPrefixes_perm {recs recs' : List CandidateIpRecord} (h : recs.Perm recs') (ip : IpAddr) :
    (ownPrefixes recs ip).Perm (ownPrefixes recs' ip) := h.filterMap _

theorem DistinctIndices.perm (hd : DistinctIndices idx addrs) (h : addrs.Perm addrs') :
    DistinctIndices idx addrs' := by
  intro a ha b hb
  exact hd a (h.mem_iff.2 ha) b (h.mem_iff.2 hb)

/-- With one link-layer address at most, the last one is the only one. -/
theorem hwAddrOf_perm (hs : SingleLink addrs) (h : addrs.Perm addrs') (name : String) :
    hwAddrOf addrs name = hwAddrOf addrs' name := by
  have hp : ((entriesOf addrs name).filterMap linkAddr).Perm ((entriesOf addrs' name).filterMap linkAddr) :=
    (entriesOf_perm h name).filterMap _
  have he : (entriesOf addrs name).filterMap linkAddr = (entriesOf addrs' name).filterMap linkAddr := by
    have hle := hs name
    generalize (entriesOf addrs name).filterMap linkAddr = l at hp hle
    rcases l with - | ⟨x, - | ⟨y, l⟩⟩
    · exact hp.nil_eq
    · exact hp.singleton_eq
    · simp at hle
  rw [hwAddrOf, hwAddrOf, he]

/-- Whichever comes first, the same addresses are carried. -/
theorem carries_perm (hb : BorrowsAlike addrs) (h : addrs.Perm addrs') {name : String} (hup : Up addrs name)
    {ip : IpAddr} {p : UInt8} (hc : Carries addrs' name ip p) : Carries addrs name ip p := by
  have hrec := recordsOf_perm h name
  have hown := ownPrefixes_perm hrec ip
  rcases hc with hc | ⟨hc, hp⟩
  · exact .inl (hrec.mem_iff.2 hc)
  · rw [← hrec.mem_iff] at hc
    have hmem : p ∈ ownPrefixes (recordsOf addrs name) ip := hown.mem_iff.2 (List.mem_of_head? hp)
    cases hq : (ownPrefixes (recordsOf addrs name) ip).head? with
    | none =>
      rw [List.head?_eq_none_iff] at hq
      rw [hq] at hmem
      cases hmem
    | some q =>
      rcases hb name hup ip hc p hmem q (List.mem_of_head? hq) with rfl | ⟨hown', -⟩
      · exact .inr ⟨hc, hq⟩
      · exact .inl hown'

theorem BorrowsAlike.perm (hb : BorrowsAlike addrs) (h : addrs.Perm addrs') : BorrowsAlike addrs' := by
  intro name hup ip hmem p hp q hq
  have hrec := recordsOf_perm h name
  have hown := ownPrefixes_perm hrec ip
  rw [← hrec.mem_iff, ← hrec.mem_iff]
  exact hb name ((up_perm h).2 hup) ip (hrec.mem_iff.2 hmem) p (hown.mem_iff.2 hp) q (hown.mem_iff.2 hq)

/-- **Then a list that fits one order fits the other.** -/
theorem Listed.perm {l : IfList} (hl : Listed idx addrs l) (h : addrs.Perm addrs') (hs : SingleLink addrs)
    (hb : BorrowsAlike addrs) : Listed idx addrs' l where
  keys := fun k => by simpa only [up_perm h] using hl.keys k
  index := hl.index
  name := fun k i hi => by simpa only [up_perm h] using hl.name k i hi
  hwAddr := fun k i hi => by rw [← hwAddrOf_perm hs h]; exact hl.hwAddr k i hi
  sorted := hl.sorted
  ips := fun k i hi ip p => by
    rw [hl.ips k i hi]
    have hup := (hl.name k i hi).1
    exact ⟨carries_perm (hb.perm h) h.symm ((up_perm h).1 hup), carries_perm hb h hup⟩
  prefixes := hl.prefixes

theorem orderInsensitive_of_borrowsAlike (hd : DistinctIndices idx addrs) (hs : SingleLink addrs)
    (hb : BorrowsAlike addrs) : OrderInsensitive idx addrs := by
  intro addrs' h order order'
  obtain ⟨l, hl, hlisted⟩ := listing_listed order hd
  obtain ⟨l', hl', hlisted'⟩ := listing_listed order' (hd.perm h)
  have he : l = l' := (hlisted.perm h hs hb).eq hlisted' (hd.perm h).unshared
  rw [hl, hl', he]

/-! ## Where the order shows -/

/-- An entry that has a prefix length of its own can be moved to the front. -/
theorem exists_perm_head {name : String} {ip : IpAddr} {p : UInt8}
    (hp : p ∈ ownPrefixes (recordsOf addrs name) ip) :
    ∃ addrs', addrs.Perm addrs' ∧ (ownPrefixes (recordsOf addrs' name) ip).head? = some p := by
  obtain ⟨cip, hcip, hf⟩ := List.mem_filterMap.1 hp
  obtain ⟨a, ha, hr⟩ := List.mem_filterMap.1 hcip
  obtain ⟨hmem, hname⟩ := List.mem_filter.1 ha
  refine ⟨a :: addrs.erase a, List.perm_cons_erase hmem, ?_⟩
  have hrec : recordsOf (a :: addrs.erase a) name = cip :: recordsOf (addrs.erase a) name := by
    rw [recordsOf, entriesOf, List.filter_cons, if_pos hname, List.filterMap_cons, hr]
    rfl
  rw [hrec, ownPrefixes, List.filterMap_cons, hf]
  rfl

theorem borrowsAlike_of_orderInsensitive (hd : DistinctIndices idx addrs) (ho : OrderInsensitive idx addrs) :
    BorrowsAlike addrs := by
  intro name hup ip hmem p hp q hq
  -- with `p` first, `p` is listed for `ip`; the list is the one with `q` first
  have listed {p q : UInt8} (hp : p ∈ ownPrefixes (recordsOf addrs name) ip)
      (hq : q ∈ ownPrefixes (recordsOf addrs name) ip) (hne : p ≠ q) :
      ⟨ip, some p⟩ ∈ recordsOf addrs name := by
    obtain ⟨first, hfirst, hheadp⟩ := exists_perm_head hp
    obtain ⟨first', hfirst', hheadq⟩ := exists_perm_head hq
    obtain ⟨l, hl, h⟩ := listing_listed sortedOrder (hd.perm hfirst)
    obtain ⟨l', hl', h'⟩ := listing_listed sortedOrder (hd.perm hfirst')
    have he : l = l' := by
      have := (ho first hfirst sortedOrder sortedOrder).symm.trans (ho first' hfirst' sortedOrder sortedOrder)
      rw [hl, hl', Except.ok.injEq] at this
      exact this
    subst he
    obtain ⟨i, hi⟩ := (h.keys (idx name)).2 ⟨name, (up_perm hfirst).1 hup, rfl⟩
    obtain ⟨hupi, hidx⟩ := h.name _ i hi
    have hname : i.name = name := (hd.perm hfirst).unshared _ _ hupi ((up_perm hfirst).1 hup) hidx
    have hin : ⟨ip, p⟩ ∈ i.ips := by
      rw [h.ips _ i hi, hname]
      exact .inr ⟨(recordsOf_perm hfirst name).mem_iff.1 hmem, hheadp⟩
    rw [h'.ips _ i hi, hname] at hin
    rcases hin with hown | ⟨-, hhead⟩
    · exact (recordsOf_perm hfirst' name).mem_iff.2 hown
    · rw [hheadq, Option.some.injEq] at hhead
      exact absurd hhead.symm hne
  by_cases hne : p = q
  · exact .inl hne
  · exact .inr ⟨listed hp hq hne, listed hq hp fun h => hne h.symm⟩

end

/-- **Exactly when the order of the entries does not matter**: wherever an address without a prefix
length may borrow two different ones, it has both of its own as well. -/
theorem orderInsensitive_iff {idx : String → UInt32} {addrs : List InterfaceAddress}
    (hd : DistinctIndices idx addrs) (hs : SingleLink addrs) :
    OrderInsensitive idx addrs ↔ BorrowsAlike addrs :=
  ⟨borrowsAlike_of_orderInsensitive hd, orderInsensitive_of_borrowsAlike hd hs⟩

theorem orderInsensitive_iff_aliased :
    OrderInsensitive (fun _ => 2) aliased ↔ BorrowsAlike aliased := by
  refine orderInsensitive_iff ?_ ?_
  · simp [DistinctIndices, aliased]
  · intro name
    by_cases hn : "eth0" = name <;> simp [entriesOf, aliased, hn, linkAddr, Sockaddr.asLinkAddr]

/-- `eth0` with 192.0.2.1/24, 198.51.100.1/16 and the alias 192.0.2.2 without a netmask. -/
def twoPrefixes : List InterfaceAddress :=
  [⟨"eth0", iffUp, some (.inet 0xC0000201#32), some (.inet 0xFFFFFF00#32)⟩,
   ⟨"eth0", iffUp, some (.inet 0xC6336401#32), some (.inet 0xFFFF0000#32)⟩,
   ⟨"eth0", iffUp, some (.inet 0xC0000202#32), none⟩]

/-- With the first two entries exchanged the alias is listed as /16 instead of /24. -/
theorem twoPrefixes_sensitive :
    DistinctIndices (fun _ => 2) twoPrefixes ∧ SingleLink twoPrefixes ∧
      ¬ OrderInsensitive (fun _ => 2) twoPrefixes := by
  refine ⟨?_, ?_, ?_⟩
  · simp [DistinctIndices, twoPrefixes]
  · intro name
    by_cases hn : "eth0" = name <;> simp [entriesOf, twoPrefixes, hn, linkAddr, Sockaddr.asLinkAddr]
  · intro h
    let swapped := [twoPrefixes[1], twoPrefixes[0], twoPrefixes[2]]
    have hp : twoPrefixes.Perm swapped := .swap _ _ _
    have h24 : addressesAt (listing sortedOrder (fun _ => 2) twoPrefixes) 2 =
        [⟨.V4 0xC0000201#32, 24⟩, ⟨.V4 0xC0000202#32, 24⟩, ⟨.V4 0xC6336401#32, 16⟩] := by decide +kernel
    have h16 : addressesAt (listing sortedOrder (fun _ => 2) swapped) 2 =
        [⟨.V4 0xC0000201#32, 24⟩, ⟨.V4 0xC0000202#32, 16⟩, ⟨.V4 0xC6336401#32, 16⟩] := by decide +kernel
    rw [h swapped hp sortedOrder sortedOrder, h16] at h24
    exact absurd h24 (by decide)

end Netwatcher.ListUnix
