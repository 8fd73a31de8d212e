import Mathlib.Data.Prod.Lex
import Netwatcher.Lib.HashMap
import Netwatcher.Lib.SortDedup
/-!
# Interfaces, addresses and snapshots (`src/lib.rs`)

| here | there |
| --- | --- |
| `IpAddr`    | `std::net::IpAddr`, the address as its bits in network order |
| `IpRecord`  | `IpRecord` (lib.rs:156) with the derived `Ord`: family, address, prefix length |
| `Interface` | `Interface` (lib.rs:163) |
| `normalise` | `Interface::normalise` (lib.rs:199) |
| `IfList`    | `List` (lib.rs:287), renamed because `List` is taken |
| `Error`     | `Error` (error.rs:4) |
| `IfList.WF` | what `list_interfaces` guarantees: stored under its own index, addresses normalised |
-/
namespace Netwatcher
open Coll SortDedup

abbrev IfIndex := UInt32

inductive IpAddr
  | V4 (bits : BitVec 32)
  | V6 (bits : BitVec 128)
deriving DecidableEq, Repr

def IpAddr.isIpv4 : IpAddr → Bool | .V4 _ => true | .V6 _ => false
def IpAddr.isIpv6 : IpAddr → Bool | .V4 _ => false | .V6 _ => true

/-- Derived `Ord` of `IpAddr`: every IPv4 address before every IPv6 one, then by the bytes. -/
def IpAddr.rank : IpAddr → ℕ ×ₗ ℕ
  | .V4 bits => toLex (0, bits.toNat)
  | .V6 bits => toLex (1, bits.toNat)

theorem IpAddr.rank_injective : Function.Injective IpAddr.rank
  | .V4 a, .V4 b, h => by
    simp only [rank, EmbeddingLike.apply_eq_iff_eq, Prod.mk.injEq, true_and] at h
    rw [BitVec.eq_of_toNat_eq h]
  | .V6 a, .V6 b, h => by
    simp only [rank, EmbeddingLike.apply_eq_iff_eq, Prod.mk.injEq, true_and] at h
    rw [BitVec.eq_of_toNat_eq h]
  | .V4 _, .V6 _, h => by simp [rank] at h
  | .V6 _, .V4 _, h => by simp [rank] at h

structure IpRecord where
  ip : IpAddr
  prefixLen : UInt8
deriving DecidableEq, Repr

def IpRecord.rank (r : IpRecord) : (ℕ ×ₗ ℕ) ×ₗ ℕ := toLex (r.ip.rank, r.prefixLen.toNat)

theorem IpRecord.rank_injective : Function.Injective IpRecord.rank := by
  rintro ⟨a, p⟩ ⟨b, q⟩ h
  simp only [IpRecord.rank, EmbeddingLike.apply_eq_iff_eq, Prod.mk.injEq] at h
  rw [IpAddr.rank_injective h.1, UInt8.toNat_inj.1 h.2]

instance : LinearOrder IpRecord := LinearOrder.lift' IpRecord.rank IpRecord.rank_injective

structure Interface where
  index : IfIndex
  name : String
  hwAddr : String
  ips : List IpRecord
deriving DecidableEq, Repr

/-- `self.ips.sort(); self.ips.dedup()` (lib.rs:199). -/
def Interface.normalise (self : Interface) : Interface := { self with ips := sortDedup self.ips }

/-- `List(HashMap<IfIndex, Interface>)` (lib.rs:287). -/
abbrev IfList := HashMap IfIndex Interface

/-- Every interface is stored under its own index, its addresses as `normalise` leaves them. -/
structure IfList.WF (l : IfList) : Prop where
  keyed : ∀ (k : IfIndex) (i : Interface), l[k]? = some i → i.index = k
  sorted : ∀ (k : IfIndex) (i : Interface), l[k]? = some i → i.ips.SortedLT

/-- `Error` (error.rs:4); an `std::io::Error` is its text. -/
inductive Error
  | createSocket (msg : String)
  | bind (msg : String)
  | createPipe (msg : String)
  | getifaddrs (msg : String)
  | getInterfaceName (msg : String)
  | formatMacAddress
  | unexpectedWindowsResult (code : UInt32)
  | addressNotAssociated
  | invalidParameter
  | notEnoughMemory
  | invalidHandle
  | noAndroidContext
  | jni (msg : String)
  | io (msg : String)
deriving DecidableEq, Repr

theorem Interface.normalise_sorted (self : Interface) : self.normalise.ips.SortedLT :=
  sortedLT_sortDedup _

@[simp] theorem Interface.mem_normalise {self : Interface} {r : IpRecord} :
    r ∈ self.normalise.ips ↔ r ∈ self.ips := mem_sortDedup

end Netwatcher
