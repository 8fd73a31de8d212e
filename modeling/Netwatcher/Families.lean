import Netwatcher.Snapshots
/-!
# Addresses by family (`Interface::ipv4_ips`, `Interface::ipv6_ips`)

The two iterators filter `ips`. In the order that `normalise` sorts by, every IPv4 address is before
every IPv6 one, so on a listed interface the iterators cut `ips` in two: one after the other they
give every address, each as often as it has prefix lengths, and each in ascending order.
-/
namespace Netwatcher
open Coll

namespace Interface

def ipv4Ips (self : Interface) : List (BitVec 32) :=
  self.ips.filterMap fun ipRecord =>
    match ipRecord.ip with
    | .V4 v4 => some v4
    | .V6 _ => none

def ipv6Ips (self : Interface) : List (BitVec 128) :=
  self.ips.filterMap fun ipRecord =>
    match ipRecord.ip with
    | .V4 _ => none
    | .V6 v6 => some v6

theorem map_ipv4Ips (self : Interface) :
    self.ipv4Ips.map IpAddr.V4 = (self.ips.filter (·.ip.isIpv4)).map (·.ip) := by
  unfold ipv4Ips
  induction self.ips with
  | nil => rfl
  | cons r ips ih => cases hr : r.ip <;> simp [hr, IpAddr.isIpv4, ih]

theorem map_ipv6Ips (self : Interface) :
    self.ipv6Ips.map IpAddr.V6 = (self.ips.filter (!·.ip.isIpv4)).map (·.ip) := by
  unfold ipv6Ips
  induction self.ips with
  | nil => rfl
  | cons r ips ih => cases hr : r.ip <;> simp [hr, IpAddr.isIpv4, ih]

end Interface

/-! ## The order of records -/

theorem IpRecord.rank_le {a b : IpRecord} (h : a < b) : a.ip.rank ≤ b.ip.rank := by
  have hlt : toLex (a.ip.rank, a.prefixLen.toNat) < toLex (b.ip.rank, b.prefixLen.toNat) := h
  rcases Prod.Lex.toLex_lt_toLex.1 hlt with hlt | ⟨he, -⟩
  · exact hlt.le
  · exact he.le

/-- Nothing but IPv4 comes before IPv4. -/
theorem IpRecord.isIpv4_of_lt {a b : IpRecord} (h : a < b) (hb : b.ip.isIpv4 = true) : a.ip.isIpv4 = true := by
  have hle := rank_le h
  cases ha : a.ip with
  | V4 bits => rfl
  | V6 bits =>
    cases hb' : b.ip with
    | V4 bits' =>
      rw [ha, hb'] at hle
      simp [IpAddr.rank, Prod.Lex.toLex_le_toLex] at hle
    | V6 bits' =>
      rw [hb'] at hb
      cases hb

/-- Sorted records are those of IPv4 and then the others. -/
theorem ips_eq_append {ips : List IpRecord} (h : ips.Pairwise (· < ·)) :
    ips = ips.filter (·.ip.isIpv4) ++ ips.filter (!·.ip.isIpv4) := by
  induction h with
  | nil => rfl
  | @cons r ips hr h ih =>
    cases hv : r.ip.isIpv4 with
    | true => simpa [hv] using ih
    | false =>
      have hno : ∀ s ∈ ips, s.ip.isIpv4 = false := by
        intro s hs
        by_contra h4
        rw [Bool.not_eq_false] at h4
        rw [IpRecord.isIpv4_of_lt (hr s hs) h4] at hv
        cases hv
      have hnil : ips.filter (·.ip.isIpv4) = [] := by simpa [List.filter_eq_nil_iff] using hno
      have hall : ips.filter (!·.ip.isIpv4) = ips := by simpa [List.filter_eq_self] using hno
      simp [hv, hnil, hall]

/-- The addresses of one family, as picked out of sorted records, ascend. -/
theorem pairwise_family {w : Nat} {ips : List IpRecord} {pick : IpRecord → Option (BitVec w)}
    (family : BitVec w → IpAddr) (h : ips.Pairwise (· < ·)) (hpick : ∀ r x, pick r = some x → r.ip = family x)
    (hrank : ∀ x y, (family x).rank ≤ (family y).rank → x.toNat ≤ y.toNat) :
    (ips.filterMap pick).Pairwise (·.toNat ≤ ·.toNat) := by
  refine h.filterMap _ ?_
  intro a b hab x hx y hy
  have hle := IpRecord.rank_le hab
  rw [hpick a x hx, hpick b y hy] at hle
  exact hrank x y hle

/-! ## A listed interface -/

structure ByFamily (i : Interface) : Prop where
  whole : i.ips.map (·.ip) = i.ipv4Ips.map IpAddr.V4 ++ i.ipv6Ips.map IpAddr.V6
  ipv4 : i.ipv4Ips.Pairwise (·.toNat ≤ ·.toNat)
  ipv6 : i.ipv6Ips.Pairwise (·.toNat ≤ ·.toNat)

theorem byFamily {i : Interface} (h : i.ips.SortedLT) : ByFamily i := by
  have hlt := List.sortedLT_iff_pairwise.1 h
  refine ⟨?_, ?_, ?_⟩
  · rw [i.map_ipv4Ips, i.map_ipv6Ips, ← List.map_append, ← ips_eq_append hlt]
  · refine pairwise_family IpAddr.V4 hlt (fun r x hx => ?_) fun x y hle => ?_
    · cases hr : r.ip <;> simp [hr] at hx
      rw [hx]
    · simpa [IpAddr.rank, Prod.Lex.toLex_le_toLex] using hle
  · refine pairwise_family IpAddr.V6 hlt (fun r x hx => ?_) fun x y hle => ?_
    · cases hr : r.ip <;> simp [hr] at hx
      rw [hx]
    · simpa [IpAddr.rank, Prod.Lex.toLex_le_toLex] using hle

/-- **Every interface that is listed can be split by family**, on either platform and whatever the OS
reports. -/
theorem listed_byFamily {l : IfList} (h : ListUnix.Returns (.ok l) ∨ ListWin.Returns (.ok l)) :
    ∀ (k : IfIndex) (i : Interface), l[k]? = some i → i.index = k ∧ ByFamily i := by
  have hwf : l.WF := by
    rcases h with h | h
    · exact h.proper _ rfl
    · exact h.proper _ rfl
  intro k i hi
  exact ⟨hwf.keyed k i hi, byFamily (hwf.sorted k i hi)⟩

theorem listed_byFamily_labelled :
    ∃ l, ListUnix.listing ListUnix.sortedOrder (fun _ => 2) ListUnix.labelled = .ok l ∧
      ∀ (k : IfIndex) (i : Interface), l[k]? = some i → i.index = k ∧ ByFamily i := by
  obtain ⟨m, -, hl⟩ := ListUnix.listing_eq (fun _ => 2) ListUnix.labelled
  exact ⟨_, hl ListUnix.sortedOrder, listed_byFamily (.inl ⟨_, _, _, hl ListUnix.sortedOrder⟩)⟩

end Netwatcher
