import Netwatcher.Lib.Gaps
import Netwatcher.ListUnix
/-!
# Borrowed prefix lengths (`src/list_unix.rs`)

An alias on macOS has no netmask, so it borrows a prefix length from another address of its family
on the interface. Each pass of `apply_alias_prefix_fallback` fills the gaps of one family, in place,
in a vector where the families are interleaved: `Gaps.Slot.fill` for the class of that family.

| here | there |
| --- | --- |
| `ownPrefixes` | what `apply_fallback_for_family` (list_unix.rs:112) looks through |
| `Filled`      | what `apply_alias_prefix_fallback` (list_unix.rs:107) is for |
-/
namespace Netwatcher.ListUnix
open Gaps

def sameFamily (ip ip' : IpAddr) : Bool := ip.isIpv4 == ip'.isIpv4

/-- The prefix lengths that addresses of the family of `ip` have of their own. -/
def ownPrefixes (recs : List CandidateIpRecord) (ip : IpAddr) : List UInt8 :=
  recs.filterMap fun cip => if sameFamily ip cip.ip then cip.prefixLen else none

/-- `out` is `ips` with the gaps of each family filled from that family, and nothing else changed. -/
structure Filled (ips out : List CandidateIpRecord) : Prop where
  /-- The same addresses in the same order. -/
  addresses : out.map (·.ip) = ips.map (·.ip)
  kept : ∀ (n : Nat) (ip : IpAddr) (p : UInt8), ips[n]? = some ⟨ip, some p⟩ → out[n]? = some ⟨ip, some p⟩
  borrowed : ∀ (n : Nat) (ip : IpAddr), ips[n]? = some ⟨ip, none⟩ →
    out[n]? = some ⟨ip, (ownPrefixes ips ip).head?⟩
  /-- A gap stays iff its family had no prefix length at all. -/
  gap_iff : ∀ (n : Nat) (ip : IpAddr), ips[n]? = some ⟨ip, none⟩ →
    (out[n]? = some ⟨ip, none⟩ ↔ ∀ cip ∈ ips, sameFamily ip cip.ip = true → cip.prefixLen = none)
  /-- A family has prefix lengths throughout, or none. -/
  uniform : ∀ cip ∈ out, ∀ cip' ∈ out, sameFamily cip.ip cip'.ip = true →
    (cip.prefixLen = none ↔ cip'.prefixLen = none)

/-! ## The passes fill gaps -/

def prefixSlot : Slot CandidateIpRecord UInt8 where
  get cip := cip.prefixLen
  put cip p := { cip with prefixLen := some p }
  get_put _ _ := rfl
  put_get cip p h := by rw [← h]

def ofFamily (matchesFamily : IpAddr → Bool) (cip : CandidateIpRecord) : Bool := matchesFamily cip.ip

theorem ofFamily_ignored (fam : IpAddr → Bool) : prefixSlot.Ignored (ofFamily fam) := fun _ _ => rfl

theorem families_apart : Apart (ofFamily IpAddr.isIpv4) (ofFamily IpAddr.isIpv6) := by
  rintro ⟨ip, p⟩ h
  cases ip with
  | V4 a => rfl
  | V6 a => cases h

/-- **One pass of the code** is a pass over the class. -/
theorem applyFallbackForFamily_eq_fill (ips : List CandidateIpRecord) (fam : IpAddr → Bool) :
    applyFallbackForFamily ips fam = prefixSlot.fill (ofFamily fam) ips := by
  unfold applyFallbackForFamily Slot.fill
  rw [show (ips.filter (fam ·.ip)).findSome? (·.prefixLen) = prefixSlot.first (ofFamily fam) ips from rfl]
  cases prefixSlot.first (ofFamily fam) ips with
  | none => simp [Slot.complete]
  | some p => rfl

theorem applyAliasPrefixFallback_eq_fill (ips : List CandidateIpRecord) :
    applyAliasPrefixFallback ips =
      prefixSlot.fill (ofFamily IpAddr.isIpv6) (prefixSlot.fill (ofFamily IpAddr.isIpv4) ips) := by
  rw [applyAliasPrefixFallback, applyFallbackForFamily_eq_fill, applyFallbackForFamily_eq_fill]

theorem complete_prefixSlot (value : Option UInt8) (cip : CandidateIpRecord) :
    prefixSlot.complete value cip = ⟨cip.ip, cip.prefixLen.or value⟩ := by
  obtain ⟨ip, p⟩ := cip
  cases value with
  | none => simp [Slot.complete]
  | some q => cases p <;> rfl

theorem ofFamily_isIpv4 (a : BitVec 32) : ofFamily IpAddr.isIpv4 = fun cip => sameFamily (.V4 a) cip.ip := by
  funext ⟨ip, p⟩
  cases ip <;> rfl

theorem ofFamily_isIpv6 (a : BitVec 128) : ofFamily IpAddr.isIpv6 = fun cip => sameFamily (.V6 a) cip.ip := by
  funext ⟨ip, p⟩
  cases ip <;> rfl

/-- What a pass finds first is the first prefix length of the family. -/
theorem first_prefixSlot (ips : List CandidateIpRecord) (ip : IpAddr) {c : CandidateIpRecord → Bool}
    (hc : c = fun cip => sameFamily ip cip.ip) : prefixSlot.first c ips = (ownPrefixes ips ip).head? := by
  rw [hc, ownPrefixes, ← List.filterMap_filter, List.head?_filterMap]
  rfl

/-- **Both passes together**: each address keeps its own prefix length, or gets the first of its
family. -/
theorem applyAliasPrefixFallback_eq (ips : List CandidateIpRecord) :
    applyAliasPrefixFallback ips =
      ips.map fun cip => ⟨cip.ip, cip.prefixLen.or (ownPrefixes ips cip.ip).head?⟩ := by
  rw [applyAliasPrefixFallback_eq_fill, Slot.fill_fill (ofFamily_ignored _) families_apart]
  refine List.map_congr_left fun cip _ => ?_
  obtain ⟨ip, p⟩ := cip
  cases ip with
  | V4 a =>
    have h4 : ofFamily IpAddr.isIpv4 ⟨.V4 a, p⟩ = true := rfl
    rw [if_pos h4, complete_prefixSlot, first_prefixSlot ips (.V4 a) (ofFamily_isIpv4 a)]
  | V6 a =>
    have h4 : ofFamily IpAddr.isIpv4 ⟨.V6 a, p⟩ ≠ true := Bool.false_ne_true
    have h6 : ofFamily IpAddr.isIpv6 ⟨.V6 a, p⟩ = true := rfl
    rw [if_neg h4, if_pos h6, complete_prefixSlot, first_prefixSlot ips (.V6 a) (ofFamily_isIpv6 a)]

/-! ## What the fallback is for -/

section
variable {ips : List CandidateIpRecord}

theorem getElem?_applyAliasPrefixFallback (ips : List CandidateIpRecord) (n : Nat) :
    (applyAliasPrefixFallback ips)[n]? =
      ips[n]?.map fun cip => ⟨cip.ip, cip.prefixLen.or (ownPrefixes ips cip.ip).head?⟩ := by
  rw [applyAliasPrefixFallback_eq, List.getElem?_map]

/-- A family without prefix lengths. -/
theorem head?_ownPrefixes_eq_none {ip : IpAddr} :
    (ownPrefixes ips ip).head? = none ↔ ∀ cip ∈ ips, sameFamily ip cip.ip = true → cip.prefixLen = none := by
  rw [List.head?_eq_none_iff, ownPrefixes, List.filterMap_eq_nil_iff]
  refine forall₂_congr fun cip _ => ?_
  cases sameFamily ip cip.ip <;> simp

/-- An address has no prefix length in the end iff its family had none. -/
theorem prefixLen_eq_none {cip : CandidateIpRecord} (h : cip ∈ applyAliasPrefixFallback ips) :
    cip.prefixLen = none ↔ ∀ c ∈ ips, sameFamily cip.ip c.ip = true → c.prefixLen = none := by
  rw [applyAliasPrefixFallback_eq] at h
  obtain ⟨c, hc, rfl⟩ := List.mem_map.1 h
  rw [← head?_ownPrefixes_eq_none, Option.or_eq_none_iff]
  refine ⟨And.right, fun hno => ⟨?_, hno⟩⟩
  exact head?_ownPrefixes_eq_none.1 hno c hc (by simp [sameFamily])

theorem filled (ips : List CandidateIpRecord) : Filled ips (applyAliasPrefixFallback ips) := by
  have hget := getElem?_applyAliasPrefixFallback ips
  refine ⟨?_, ?_, ?_, ?_, ?_⟩
  · rw [applyAliasPrefixFallback_eq, List.map_map]
    rfl
  · intro n ip p hn
    rw [hget, hn]
    rfl
  · intro n ip hn
    rw [hget, hn]
    rfl
  · intro n ip hn
    rw [hget, hn, ← head?_ownPrefixes_eq_none]
    simp
  · intro cip hcip cip' hcip' hf
    have hfam : ∀ ip, sameFamily cip.ip ip = sameFamily cip'.ip ip := by
      intro ip
      simp only [sameFamily, beq_iff_eq] at hf ⊢
      rw [hf]
    rw [prefixLen_eq_none hcip, prefixLen_eq_none hcip']
    simp only [hfam]

/-- The families in the other order. -/
theorem applyFallbackForFamily_comm (ips : List CandidateIpRecord) :
    applyFallbackForFamily (applyFallbackForFamily ips IpAddr.isIpv6) IpAddr.isIpv4 =
      applyAliasPrefixFallback ips := by
  rw [applyAliasPrefixFallback_eq_fill, applyFallbackForFamily_eq_fill, applyFallbackForFamily_eq_fill]
  exact Slot.fill_comm (ofFamily_ignored _) (ofFamily_ignored _) families_apart.symm ips

theorem applyAliasPrefixFallback_idem (ips : List CandidateIpRecord) :
    applyAliasPrefixFallback (applyAliasPrefixFallback ips) = applyAliasPrefixFallback ips := by
  rw [applyAliasPrefixFallback_eq_fill (applyAliasPrefixFallback ips)]
  have h4 : prefixSlot.fill (ofFamily IpAddr.isIpv4) (applyAliasPrefixFallback ips) = applyAliasPrefixFallback ips := by
    rw [← applyFallbackForFamily_comm, applyFallbackForFamily_eq_fill _ IpAddr.isIpv4]
    exact Slot.fill_idem (ofFamily_ignored _) _
  rw [h4, applyAliasPrefixFallback_eq_fill]
  exact Slot.fill_idem (ofFamily_ignored _) _

/-- A family is completed from its own records, wherever the other one stands between them. -/
theorem filter_applyAliasPrefixFallback_congr {ips' : List CandidateIpRecord} (ip : IpAddr)
    (h : ips.filter (fun cip => sameFamily ip cip.ip) = ips'.filter fun cip => sameFamily ip cip.ip) :
    (applyAliasPrefixFallback ips).filter (fun cip => sameFamily ip cip.ip) =
      (applyAliasPrefixFallback ips').filter fun cip => sameFamily ip cip.ip := by
  cases ip with
  | V4 a =>
    rw [← ofFamily_isIpv4] at h ⊢
    rw [← applyFallbackForFamily_comm, ← applyFallbackForFamily_comm]
    simp only [applyFallbackForFamily_eq_fill]
    refine Slot.filter_fill_congr (ofFamily_ignored _) ?_
    rw [Slot.filter_fill_of_apart (ofFamily_ignored _) families_apart.symm,
      Slot.filter_fill_of_apart (ofFamily_ignored _) families_apart.symm, h]
  | V6 a =>
    rw [← ofFamily_isIpv6] at h ⊢
    simp only [applyAliasPrefixFallback_eq_fill]
    refine Slot.filter_fill_congr (ofFamily_ignored _) ?_
    rw [Slot.filter_fill_of_apart (ofFamily_ignored _) families_apart,
      Slot.filter_fill_of_apart (ofFamily_ignored _) families_apart, h]

/-- **The fallback fills the gaps of each family from that family and touches nothing else**: a second
application changes nothing, the order of the two passes does not matter, and neither family sees the
records of the other. -/
theorem applyAliasPrefixFallback_fills (ips : List CandidateIpRecord) :
    Filled ips (applyAliasPrefixFallback ips) ∧
      applyAliasPrefixFallback (applyAliasPrefixFallback ips) = applyAliasPrefixFallback ips ∧
      applyFallbackForFamily (applyFallbackForFamily ips IpAddr.isIpv6) IpAddr.isIpv4 =
        applyAliasPrefixFallback ips ∧
      ∀ (ips' : List CandidateIpRecord) (ip : IpAddr),
        ips.filter (fun cip => sameFamily ip cip.ip) = ips'.filter (fun cip => sameFamily ip cip.ip) →
          (applyAliasPrefixFallback ips).filter (fun cip => sameFamily ip cip.ip) =
            (applyAliasPrefixFallback ips').filter fun cip => sameFamily ip cip.ip := by
  refine ⟨filled ips, applyAliasPrefixFallback_idem ips, applyFallbackForFamily_comm ips, ?_⟩
  intro ips' ip h
  exact filter_applyAliasPrefixFallback_congr ip h

/-- An alias between the families borrows from its own. -/
example : applyAliasPrefixFallback
      [⟨.V6 1#128, some 64⟩, ⟨.V4 1#32, none⟩, ⟨.V4 2#32, some 24⟩, ⟨.V6 2#128, none⟩] =
    [⟨.V6 1#128, some 64⟩, ⟨.V4 1#32, some 24⟩, ⟨.V4 2#32, some 24⟩, ⟨.V6 2#128, some 64⟩] := by decide

end

end Netwatcher.ListUnix
