import Netwatcher.Lib.Separated
import Netwatcher.ListWin
import Netwatcher.Update
/-!
# Hardware addresses as text (`src/list_unix.rs`, `src/list_win.rs`)

A hardware address is kept as a string, and two strings are compared to decide `hw_addr_changed`. The
string says neither more nor less than the bytes: `parseMac` reads them back. The code that writes it
is there twice, for Unix and inline for Windows.

| here | there |
| --- | --- |
| `hexValue`, `byteItem` | what `{:02X}` writes, read back |
| `parseMac`    | the reader of `format_mac` (list_unix.rs:128) and of the loop of list_win.rs:68-75 |
-/
namespace Netwatcher
open Coll ListUnix Separated

/-! ## Two digits -/

/-- The value of an upper-case hexadecimal digit. -/
def hexValue (c : Char) : Option Nat :=
  if 48 ≤ c.toNat ∧ c.toNat ≤ 57 then some (c.toNat - 48)
  else if 65 ≤ c.toNat ∧ c.toNat ≤ 70 then some (c.toNat - 55)
  else none

def readByte : List Char → Option UInt8
  | [high, low] =>
    match hexValue high, hexValue low with
    | some h, some l => some (UInt8.ofNat (16 * h + l))
    | _, _ => none
  | _ => none

theorem toNat_hexDigit : ∀ n < 16, (hexDigit n).toNat = if n < 10 then 48 + n else 55 + n := by
  decide

/-- **A digit stands for one value, and a value for one digit.** -/
theorem hexValue_eq_some {c : Char} {n : Nat} : hexValue c = some n ↔ n < 16 ∧ hexDigit n = c := by
  constructor
  · intro h
    -- the digit is the character whose number the value was computed from
    have hn : n < 16 ∧ c.toNat = if n < 10 then 48 + n else 55 + n := by
      unfold hexValue at h
      split_ifs at h ⊢ <;> rw [Option.some.injEq] at h <;> omega
    exact ⟨hn.1, by rw [hexDigit, ← hn.2, Char.ofNat_toNat]⟩
  · rintro ⟨hn, rfl⟩
    rw [hexValue, toNat_hexDigit n hn]
    by_cases h10 : n < 10
    · rw [if_pos h10, if_pos (by omega), Nat.add_sub_cancel_left]
    · rw [if_neg h10, if_neg (by omega), if_pos (by omega), Nat.add_sub_cancel_left]

theorem readByte_eq_some {s : List Char} {b : UInt8} : readByte s = some b ↔ (hexByte b).toList = s := by
  have hb := b.toNat_lt
  constructor
  · intro h
    unfold readByte at h
    split at h
    · rename_i high low
      split at h
      · rename_i n m hh hl
        obtain ⟨hn, rfl⟩ := hexValue_eq_some.1 hh
        obtain ⟨hm, rfl⟩ := hexValue_eq_some.1 hl
        rw [Option.some.injEq] at h
        have hv : b.toNat = 16 * n + m := by
          rw [← h, UInt8.toNat_ofNat', Nat.mod_eq_of_lt (by omega)]
        rw [hexByte, String.toList_ofList, hv, show (16 * n + m) / 16 = n by omega,
          show (16 * n + m) % 16 = m by omega]
      · cases h
    · cases h
  · rintro rfl
    have hh := hexValue_eq_some.2 ⟨show b.toNat / 16 < 16 by omega, rfl⟩
    have hl := hexValue_eq_some.2 ⟨show b.toNat % 16 < 16 by omega, rfl⟩
    simp only [hexByte, String.toList_ofList, readByte, hh, hl, Nat.div_add_mod, UInt8.ofNat_toNat]

/-- No digit is a colon. -/
theorem colon_notMem_hexByte (b : UInt8) : ':' ∉ (hexByte b).toList := by
  have hb := b.toNat_lt
  have hne : ∀ n < 16, ':' ≠ hexDigit n := by decide
  rw [hexByte, String.toList_ofList, List.mem_cons, List.mem_singleton, not_or]
  exact ⟨hne _ (by omega), hne _ (by omega)⟩

/-! ## The whole address -/

def byteItem : Item ':' UInt8 where
  write b := (hexByte b).toList
  read := readByte
  read_eq_some _ _ := readByte_eq_some
  sep_notMem := colon_notMem_hexByte
  write_ne_nil b := by simp [hexByte]

/-- Split at the colons, two digits a byte; the empty string is the empty address. -/
def parseMac (mac : String) : Option (List UInt8) := byteItem.parse mac.toList

theorem byteItem_write : byteItem.write = fun b => (hexByte b).toList := by
  rw [byteItem]

theorem toList_macText (bytes : List UInt8) : (macText bytes).toList = byteItem.join bytes := by
  have hsep : ":".toList = [':'] := by simp
  rw [macText, String.toList_intercalate, hsep, List.map_map, Item.join, byteItem_write, Function.comp_def]

/-- **Reading and writing are inverse to each other**: only what is written for the bytes is read as
them. -/
theorem parseMac_eq_some_iff {mac : String} {bytes : List UInt8} :
    parseMac mac = some bytes ↔ formatMac bytes = .ok mac := by
  rw [parseMac, Item.parse_eq_some_iff, ← toList_macText, String.toList_inj, formatMac_eq, Except.ok.injEq]

theorem formatMac_inj {bytes bytes' : List UInt8} : formatMac bytes = formatMac bytes' ↔ bytes = bytes' := by
  refine ⟨fun h => ?_, fun h => by rw [h]⟩
  obtain ⟨mac, hmac⟩ := formatMac_ok bytes
  have hread := parseMac_eq_some_iff.2 hmac
  rw [parseMac_eq_some_iff.2 (h ▸ hmac), Option.some.injEq] at hread
  exact hread.symm

/-- The Windows loop writes what `format_mac` does. -/
theorem formatPhysicalAddress_eq_formatMac {adapter : ListWin.AdapterAddresses} {bytes : List UInt8} {mac : String}
    (hb : bytes <+: adapter.physicalAddress.toList) (hn : adapter.physicalAddressLength.toNat = bytes.length)
    (h : formatMac bytes = .ok mac) : ListWin.formatPhysicalAddress adapter = .ok mac := by
  have hlen : adapter.physicalAddressLength ≤ 8 := by
    rw [UInt32.le_iff_toNat_le, hn]
    simpa using hb.length_le
  rw [formatMac_eq, Except.ok.injEq] at h
  rw [ListWin.formatPhysicalAddress_eq hlen, hn, ← h, ← List.prefix_iff_eq_take.1 hb]

/-- A hardware address is reported as changed iff its text has. -/
theorem hwAddrChanged_iff {prev cur : IfList} {k : IfIndex} {p i : Interface} (hp : prev[k]? = some p)
    (hi : cur[k]? = some i) (isInitial : Bool) :
    (∃ d, (cur.updateFromWithFlag prev isInitial).diff.modified[k]? = some d ∧ d.hwAddrChanged = true) ↔
      p.hwAddr ≠ i.hwAddr := by
  constructor
  · rintro ⟨d, hd, hchanged⟩
    obtain ⟨p', i', hp', hi', -, rfl⟩ := IfList.modified_eq_some.1 hd
    rw [hp, Option.some.injEq] at hp'
    rw [hi, Option.some.injEq] at hi'
    subst hp' hi'
    simpa [interfaceDiff] using hchanged
  · intro hne
    refine ⟨_, IfList.modified_eq_some.2 ⟨p, i, hp, hi, fun he => hne (by rw [he]), rfl⟩, ?_⟩
    simpa [interfaceDiff] using hne

/-- **A formatted hardware address says exactly its bytes, on both platforms**: it is read back to
them, two are equal and `hw_addr_changed` is not set iff the bytes are equal, and Windows formats the
bytes in its array as Unix does. -/
theorem formatMac_lossless (bytes bytes' : List UInt8) :
    (∃ mac, formatMac bytes = .ok mac ∧ parseMac mac = some bytes ∧
      ∀ adapter : ListWin.AdapterAddresses, bytes <+: adapter.physicalAddress.toList →
        adapter.physicalAddressLength.toNat = bytes.length → ListWin.formatPhysicalAddress adapter = .ok mac) ∧
    (formatMac bytes = formatMac bytes' ↔ bytes = bytes') ∧
    ∀ (prev cur : IfList) (isInitial : Bool) (k : IfIndex) (p i : Interface),
      prev[k]? = some p → cur[k]? = some i → formatMac bytes = .ok p.hwAddr → formatMac bytes' = .ok i.hwAddr →
        ((∃ d, (cur.updateFromWithFlag prev isInitial).diff.modified[k]? = some d ∧ d.hwAddrChanged = true) ↔
          bytes ≠ bytes') := by
  refine ⟨?_, formatMac_inj, ?_⟩
  · obtain ⟨mac, hmac⟩ := formatMac_ok bytes
    refine ⟨mac, hmac, parseMac_eq_some_iff.2 hmac, ?_⟩
    intro adapter hb hn
    exact formatPhysicalAddress_eq_formatMac hb hn hmac
  · intro prev cur isInitial k p i hp hi hb hb'
    have hmac : p.hwAddr = i.hwAddr ↔ bytes = bytes' := by
      rw [← formatMac_inj, hb, hb', Except.ok.injEq]
    rw [hwAddrChanged_iff hp hi]
    exact not_congr hmac

example : parseMac "0A:FF" = some [0x0A, 0xFF] ∧ parseMac "0a:ff" = none := by decide +kernel

end Netwatcher
