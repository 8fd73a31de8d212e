import Netwatcher.Lib.Loop
import Netwatcher.ListUnix.Spec
/-!
# `list_interfaces` on Windows (`src/list_win.rs`)

`GetAdaptersAddresses` fills a buffer with a chain of adapters, each with a chain of unicast
addresses; two nested loops follow their `Next` pointers. The loops are those of `Lib.Loop`: a
function of a bound on the turns, which gives `none` when the bound is too small.

| here | there |
| --- | --- |
| `Ptr`, `Memory`    | raw pointers and what they point at; 0 is the null pointer |
| `AdapterAddresses`, `UnicastAddress`, `Sockaddr` | `IP_ADAPTER_ADDRESSES_LH`, `IP_ADAPTER_UNICAST_ADDRESS_LH`, `SOCKADDR`: the fields the code reads |
| `Reply`, `Api`     | what one call of `GetAdaptersAddresses` does |
| `queryTurn`        | the `loop` around that call (list_win.rs:34-58) |
| `unicastTurn`      | one turn of the inner `while` (list_win.rs:76-97) |
| `adapterTurn`      | one turn of the outer `while` (list_win.rs:62-123) |
| `Abort`, `Exit`    | how the walk is left before its end, and how the function is left |
-/
namespace Netwatcher.ListWin
open Coll Loop
open ListUnix (hexByte writeStr macText)

abbrev Ptr := Nat

abbrev AddressFamily := UInt16

def afInet : AddressFamily := 2
def afInet6 : AddressFamily := 23

structure Sockaddr where
  saFamily : AddressFamily
  /-- `sin_addr`, the structure read as a `SOCKADDR_IN`. -/
  sinAddr : BitVec 32
  /-- `sin6_addr`, the structure read as a `SOCKADDR_IN6`. -/
  sin6Addr : BitVec 128
deriving DecidableEq

structure UnicastAddress where
  next : Ptr
  /-- What `Address.lpSockaddr` points at. -/
  sockaddr : Sockaddr
  onLinkPrefixLength : UInt8
deriving DecidableEq

abbrev IfOperStatus := Int32

def ifOperStatusDown : IfOperStatus := 2

structure AdapterAddresses where
  /-- `Anonymous1.Anonymous.IfIndex`. -/
  ifIndex : UInt32
  next : Ptr
  firstUnicastAddress : Ptr
  /-- The wide characters before the terminator. -/
  friendlyName : List UInt16
  physicalAddress : Vector UInt8 8
  physicalAddressLength : UInt32
  operStatus : IfOperStatus
  ipv6IfIndex : UInt32
deriving DecidableEq

structure Memory where
  adapters : Ptr → Option AdapterAddresses
  unicasts : Ptr → Option UnicastAddress

inductive Abort
  | failed (e : Error)
  | panicked
  /-- A pointer that points at nothing was dereferenced. -/
  | fault

inductive Exit
  | returned (r : Except Error IfList)
  | panicked
  | fault

def Abort.exit : Abort → Exit
  | .failed e => .returned (.error e)
  | .panicked => .panicked
  | .fault => .fault

/-! ## The call of `GetAdaptersAddresses` -/

abbrev Win32Error := UInt32

def errorSuccess : Win32Error := 0
def errorNotEnoughMemory : Win32Error := 8
def errorInvalidParameter : Win32Error := 87
def errorBufferOverflow : Win32Error := 111
def errorNoData : Win32Error := 232
def errorAddressNotAssociated : Win32Error := 1228

structure Reply where
  res : Win32Error
  /-- What it leaves in `sizepointer`. -/
  sizepointer : UInt32
  /-- `buf.as_ptr()`. -/
  buf : Ptr
  memory : Memory

/-- What the call does, by the number of calls before it and the size of the buffer. -/
abbrev Api := Nat → UInt32 → Reply

structure Query where
  calls : Nat
  size : UInt32
  /-- The reply that ended the loop. -/
  reply : Option Reply

def queryTurn (api : Api) (q : Query) : Option (Except Exit Query) :=
  let reply := api q.calls q.size
  if reply.res = errorSuccess then some (.ok { q with reply := some reply })
  else if reply.res = errorAddressNotAssociated then some (.error (.returned (.error .addressNotAssociated)))
  else if reply.res = errorBufferOverflow then
    some (.ok { calls := q.calls + 1, size := reply.sizepointer, reply := none })
  else if reply.res = errorInvalidParameter then some (.error (.returned (.error .invalidParameter)))
  else if reply.res = errorNotEnoughMemory then some (.error (.returned (.error .notEnoughMemory)))
  else if reply.res = errorNoData then some (.error (.returned (.ok ∅)))
  else some (.error (.returned (.error (.unexpectedWindowsResult reply.res))))

/-- Microsoft recommends a 15 KB initial buffer. -/
def startSize : UInt32 := 15 * 1024

def query (api : Api) (turns : Nat) : Option (Except Exit Query) :=
  whileLoop (fun q => q.reply.isNone) (queryTurn api) turns ⟨0, startSize, none⟩

/-! ## The adapter walk -/

/-- `write!(hw_addr, ..).map_err(|_| Error::FormatMacAddress)?`. -/
def write (hwAddr s : String) : Except Abort String :=
  (writeStr hwAddr s).mapError .failed

/-- One turn of the `for` loop over the bytes; the index is checked against the array. -/
def writeByte (physicalAddress : Vector UInt8 8) (hwAddr : String) (i : Nat) : Except Abort String := do
  let hwAddr ← if i ≠ 0 then write hwAddr ":" else pure hwAddr
  match physicalAddress[i]? with
  | some b => write hwAddr (hexByte b)
  | none => .error .panicked

def formatPhysicalAddress (adapter : AdapterAddresses) : Except Abort String :=
  (List.range adapter.physicalAddressLength.toNat).foldlM (writeByte adapter.physicalAddress) ""

/-- The `match` on the address family; `none` is its `_ => continue`. -/
def Sockaddr.ip (sockaddr : Sockaddr) : Option IpAddr :=
  if sockaddr.saFamily = afInet then some (.V4 sockaddr.sinAddr)
  else if sockaddr.saFamily = afInet6 then some (.V6 sockaddr.sin6Addr)
  else none

/-- The state is `unicast_ptr` and `ips`. -/
def unicastTurn (mem : Memory) (s : Ptr × List IpRecord) : Option (Except Abort (Ptr × List IpRecord)) :=
  match mem.unicasts s.1 with
  | none => some (.error .fault)
  | some unicast =>
    match unicast.sockaddr.ip with
    -- `continue` goes back to the condition; `unicast_ptr` is still the same
    | none => some (.ok s)
    | some ip => some (.ok (unicast.next, s.2 ++ [⟨ip, unicast.onLinkPrefixLength⟩]))

def collectUnicasts (mem : Memory) (turns : Nat) (first : Ptr) :
    Option (Except Abort (Ptr × List IpRecord)) :=
  whileLoop (fun s => s.1 != 0) (unicastTurn mem) turns (first, [])

/-- `ifindex`, or none: the adapter is skipped. -/
def AdapterAddresses.ifindex (adapter : AdapterAddresses) : Option IfIndex :=
  if adapter.ifIndex ≠ 0 then some adapter.ifIndex
  else if adapter.ipv6IfIndex ≠ 0 then some adapter.ipv6IfIndex
  else none

/-- `String::from_utf16`: an unpaired surrogate is an error. -/
def fromUtf16 : List UInt16 → Option (List Char)
  | [] => some []
  | u :: rest =>
    if u < 0xD800 ∨ 0xDFFF < u then (fromUtf16 rest).map (Char.ofNat u.toNat :: ·)
    else if 0xDBFF < u then none
    else
      match rest with
      | [] => none
      | v :: rest =>
        if v < 0xDC00 ∨ 0xDFFF < v then none
        else (fromUtf16 rest).map
          (Char.ofNat (0x10000 + (u.toNat - 0xD800) * 0x400 + (v.toNat - 0xDC00)) :: ·)

/-- `FriendlyName.to_string().unwrap_or_else(|_| "".to_owned())`. -/
def AdapterAddresses.name (adapter : AdapterAddresses) : String :=
  ((fromUtf16 adapter.friendlyName).map String.ofList).getD ""

/-- The state is `adapter_ptr` and `ifs`. -/
def adapterTurn (mem : Memory) (turns : Nat) (s : Ptr × IfList) : Option (Except Abort (Ptr × IfList)) :=
  match mem.adapters s.1 with
  | none => some (.error .fault)
  | some adapter =>
    if adapter.operStatus = ifOperStatusDown then some (.ok (adapter.next, s.2))
    else
      match formatPhysicalAddress adapter with
      | .error e => some (.error e)
      | .ok hwAddr =>
        match collectUnicasts mem turns adapter.firstUnicastAddress with
        | none => none
        | some (.error e) => some (.error e)
        | some (.ok (_, ips)) =>
          match adapter.ifindex with
          | none => some (.ok (adapter.next, s.2))
          | some ifindex =>
            let iface := Interface.normalise { index := ifindex, name := adapter.name, hwAddr, ips }
            some (.ok (adapter.next, s.2.insert ifindex iface))

def walkAdapters (mem : Memory) (turns : Nat) (first : Ptr) : Option (Except Abort (Ptr × IfList)) :=
  whileLoop (fun s => s.1 != 0) (adapterTurn mem turns) turns (first, ∅)

def listInterfaces (api : Api) (turns : Nat) : Option Exit :=
  match query api turns with
  | none => none
  | some (.error e) => some e
  | some (.ok q) => q.reply.bind fun reply =>
    match walkAdapters reply.memory turns reply.buf with
    | none => none
    | some (.error a) => some a.exit
    | some (.ok s) => some (.returned (.ok s.2))

/-! ## What is in the memory -/

/-- An adapter and the unicast addresses that hang off it. -/
structure Adapter where
  header : AdapterAddresses
  unicasts : List UnicastAddress
deriving DecidableEq

def Memory.Unicast (mem : Memory) (p : Ptr) (u : UnicastAddress) : Prop := mem.unicasts p = some u

/-- At `p` there is the adapter, and a null-terminated chain of its addresses. -/
def Memory.Adapter (mem : Memory) (p : Ptr) (a : Adapter) : Prop :=
  mem.adapters p = some a.header ∧
    Chain mem.Unicast (·.next) 0 a.header.firstUnicastAddress a.unicasts

/-- The buffer holds a null-terminated chain of adapters. -/
def Reply.Holds (reply : Reply) (adapters : List Adapter) : Prop :=
  Chain reply.memory.Adapter (·.header.next) 0 reply.buf adapters

/-- After some calls, `GetAdaptersAddresses` succeeds with `reply`. -/
def Answers (api : Api) (reply : Reply) : Prop :=
  ∃ calls size, Ends (query api) (.ok ⟨calls, size, some reply⟩)

def UnicastAddress.record (u : UnicastAddress) : Option IpRecord :=
  u.sockaddr.ip.map (⟨·, u.onLinkPrefixLength⟩)

/-- What an adapter is listed as, under the index `k`. -/
def Adapter.interface (a : Adapter) (k : IfIndex) : Interface :=
  Interface.normalise
    { index := k
      name := a.header.name
      hwAddr := macText (a.header.physicalAddress.toList.take a.header.physicalAddressLength.toNat)
      ips := a.unicasts.filterMap UnicastAddress.record }

/-- The index it is listed under, if it is listed. -/
def Adapter.key (a : Adapter) : Option IfIndex :=
  if a.header.operStatus = ifOperStatusDown then none else a.header.ifindex

/-- What the walk should leave: each adapter in turn, addresses of other families left out. -/
def processed (adapters : List Adapter) : IfList :=
  HashMap.collect (adapters.filterMap fun a => a.key.map fun k => (k, a.interface k))

/-- The walk gets past the adapter: it is down, or its bytes are in the array and its addresses are
of the two families. -/
def Adapter.Passable (a : Adapter) : Prop :=
  a.header.operStatus ≠ ifOperStatusDown →
    a.header.physicalAddressLength ≤ 8 ∧
      ∀ u ∈ a.unicasts, u.sockaddr.saFamily = afInet ∨ u.sockaddr.saFamily = afInet6

/-! ## One adapter -/

theorem writeByte_eq (v : Vector UInt8 8) (hwAddr : String) (i : Nat) :
    writeByte v hwAddr i = match v[i]? with
      | some b => .ok ((if i ≠ 0 then hwAddr ++ ":" else hwAddr) ++ hexByte b)
      | none => .error .panicked := by
  unfold writeByte write writeStr
  by_cases hi : i ≠ 0
  · rw [if_pos hi, if_pos hi]
    cases v[i]? <;> rfl
  · rw [if_neg hi, if_neg hi]
    cases v[i]? <;> rfl

theorem writeByte_of_lt {v : Vector UInt8 8} {bytes : List UInt8} {b : UInt8} (hb : v[bytes.length]? = some b) :
    writeByte v (macText bytes) bytes.length = .ok (macText (bytes ++ [b])) := by
  rw [writeByte_eq, hb]
  cases bytes with
  | nil => simp [macText]
  | cons c bytes =>
    rw [ListUnix.macText_concat (by simp)]
    simp

/-- The loop over the bytes writes them as the Unix code does. -/
theorem foldlM_writeByte (v : Vector UInt8 8) (n : Nat) (hn : n ≤ 8) :
    (List.range n).foldlM (writeByte v) "" = .ok (macText (v.toList.take n)) := by
  induction n with
  | zero => rfl
  | succ n ih =>
    have hlt : n < v.toList.length := by rw [Vector.length_toList]; omega
    have hlen : (v.toList.take n).length = n := by rw [List.length_take]; omega
    have hb : v[(v.toList.take n).length]? = some v.toList[n] := by
      rw [hlen]
      simp [Vector.getElem?_eq_getElem (show n < 8 by omega)]
    have hw := writeByte_of_lt hb
    rw [hlen] at hw
    rw [List.range_succ, List.foldlM_append, ih (by omega), List.take_succ_eq_append_getElem hlt]
    simp [bind, Except.bind, pure, Except.pure, hw]

theorem formatPhysicalAddress_eq {adapter : AdapterAddresses} (h : adapter.physicalAddressLength ≤ 8) :
    formatPhysicalAddress adapter =
      .ok (macText (adapter.physicalAddress.toList.take adapter.physicalAddressLength.toNat)) :=
  foldlM_writeByte _ _ (UInt32.le_iff_toNat_le.1 h)

/-- Without a panic, the length is within the array. -/
theorem le_of_formatPhysicalAddress {adapter : AdapterAddresses} {hwAddr : String}
    (h : formatPhysicalAddress adapter = .ok hwAddr) : adapter.physicalAddressLength ≤ 8 := by
  rw [UInt32.le_iff_toNat_le]
  unfold formatPhysicalAddress at h
  cases hn : adapter.physicalAddressLength.toNat with
  | zero => simp
  | succ n =>
    rw [hn, List.range_succ, List.foldlM_append] at h
    cases hr : (List.range n).foldlM (writeByte adapter.physicalAddress) "" with
    | error e => simp [hr, bind, Except.bind] at h
    | ok mac =>
      -- the last byte written is in the array
      have hlast : adapter.physicalAddress[n]? ≠ none := by
        intro hno
        rw [hr] at h
        simp [bind, Except.bind, writeByte_eq, hno] at h
      have hlt : n < 8 := by
        by_contra hge
        exact hlast (Vector.getElem?_eq_none (by omega))
      show n + 1 ≤ 8
      omega

/-- The family says which structure the address is in. -/
def Sockaddr.Contains (s : Sockaddr) : IpAddr → Prop
  | .V4 ip => s.saFamily = afInet ∧ s.sinAddr = ip
  | .V6 ip => s.saFamily = afInet6 ∧ s.sin6Addr = ip

theorem Sockaddr.ip_eq_some {s : Sockaddr} {ip : IpAddr} : s.ip = some ip ↔ s.Contains ip := by
  have hne : afInet6 ≠ afInet := by decide
  unfold Sockaddr.ip Sockaddr.Contains
  by_cases h4 : s.saFamily = afInet
  · cases ip <;> simp [h4, hne.symm]
  · by_cases h6 : s.saFamily = afInet6
    · cases ip <;> simp [h6, hne]
    · cases ip <;> simp [h4, h6]

theorem Sockaddr.ip_ne_none {s : Sockaddr} : s.ip ≠ none ↔ s.saFamily = afInet ∨ s.saFamily = afInet6 := by
  rw [Option.ne_none_iff_exists']
  constructor
  · rintro ⟨ip | ip, h⟩
    · exact .inl (Sockaddr.ip_eq_some.1 h).1
    · exact .inr (Sockaddr.ip_eq_some.1 h).1
  · rintro (h | h)
    · exact ⟨.V4 s.sinAddr, Sockaddr.ip_eq_some.2 ⟨h, rfl⟩⟩
    · exact ⟨.V6 s.sin6Addr, Sockaddr.ip_eq_some.2 ⟨h, rfl⟩⟩

section
variable {mem : Memory}

theorem ptr_cond {τ : Type} (s : Ptr × τ) : (s.1 != 0) = true ↔ s.1 ≠ 0 := by
  rw [bne_iff_ne]

/-- A turn over an address of either family moves on and pushes its record; over another, it changes
nothing. -/
theorem unicastTurn_eq {p : Ptr} {u : UnicastAddress} (h : mem.Unicast p u) (ips : List IpRecord) :
    unicastTurn mem (p, ips) = some (.ok (match u.sockaddr.ip with
      | some ip => (u.next, ips ++ [⟨ip, u.onLinkPrefixLength⟩])
      | none => (p, ips))) := by
  unfold unicastTurn
  rw [show mem.unicasts p = some u from h]
  cases hi : u.sockaddr.ip <;> simp [hi]

section
variable {first : Ptr} {us : List UnicastAddress}

/-- **The inner loop on IP-only input** ends, and has collected the records of the chain. -/
theorem collectUnicasts_ends (h : Chain mem.Unicast (·.next) 0 first us)
    (hip : ∀ u ∈ us, u.sockaddr.saFamily = afInet ∨ u.sockaddr.saFamily = afInet6) :
    Ends (fun turns => collectUnicasts mem turns first) (.ok (0, us.filterMap UnicastAddress.record)) := by
  rw [List.filterMap_eq_flatMap_toList, List.flatMap_eq_foldl]
  refine (h.walk ptr_cond ?_).ends
  intro p ips u hu hat
  refine ends_of_eq fun _ => ?_
  rw [unicastTurn_eq hat]
  cases hi : u.sockaddr.ip with
  | none => exact absurd hi (Sockaddr.ip_ne_none.2 (hip u hu))
  | some ip => simp [UnicastAddress.record, hi]

variable {turns : Nat}

/-- An inner loop that has ended has met no other family. -/
theorem isIp_of_collectUnicasts {t : Ptr × List IpRecord} (h : Chain mem.Unicast (·.next) 0 first us)
    (he : collectUnicasts mem turns first = some (.ok t)) :
    ∀ u ∈ us, u.sockaddr.saFamily = afInet ∨ u.sockaddr.saFamily = afInet6 := by
  refine h.turns ptr_cond ?_ he
  intro p ips s' u _ hat hb
  rw [unicastTurn_eq hat, Option.some.injEq, Except.ok.injEq] at hb
  cases hi : u.sockaddr.ip with
  | none =>
    right
    rw [← hb, hi]
  | some ip =>
    left
    refine ⟨Sockaddr.ip_ne_none.1 (by simp [hi]), ?_⟩
    rw [← hb, hi]

/-- An address cannot make the inner loop fail. -/
theorem collectUnicasts_ok {r : Except Abort (Ptr × List IpRecord)} (h : Chain mem.Unicast (·.next) 0 first us)
    (he : collectUnicasts mem turns first = some r) : ∃ t, r = .ok t := by
  refine h.turns_ok ptr_cond ?_ he
  intro p ips r u _ hat hb
  rw [unicastTurn_eq hat, Option.some.injEq] at hb
  refine ⟨_, hb.symm, ?_⟩
  cases u.sockaddr.ip with
  | none => exact .inr rfl
  | some ip => exact .inl rfl

end

/-! ## All adapters -/

/-- What a turn over the adapter leaves in the map. -/
def Adapter.addTo (a : Adapter) (ifs : IfList) : IfList :=
  match a.key with
  | none => ifs
  | some k => ifs.insert k (a.interface k)

theorem processed_eq_foldl (adapters : List Adapter) :
    processed adapters = adapters.foldl (fun ifs a => a.addTo ifs) ∅ := by
  induction adapters using List.reverseRecOn with
  | nil => rfl
  | append_singleton adapters a ih =>
    rw [List.foldl_append, ← ih, List.foldl_cons, List.foldl_nil, Adapter.addTo, processed, List.filterMap_append]
    cases hk : a.key with
    | none => simp [hk, processed]
    | some k => simp [hk, processed]

/-- **One turn of the outer loop**, its inner loop included. -/
theorem adapterTurn_ends {p : Ptr} {a : Adapter} (h : mem.Adapter p a) (hp : a.Passable) (ifs : IfList) :
    Ends (fun turns => adapterTurn mem turns (p, ifs)) (.ok (a.header.next, a.addTo ifs)) := by
  obtain ⟨hread, hchain⟩ := h
  by_cases hdown : a.header.operStatus = ifOperStatusDown
  · refine ends_of_eq fun turns => ?_
    simp only [adapterTurn, hread, if_pos hdown, Adapter.addTo, Adapter.key]
  · obtain ⟨hlen, hip⟩ := hp hdown
    obtain ⟨n, hn⟩ := collectUnicasts_ends hchain hip
    refine ⟨n, fun turns hturns => ?_⟩
    have hips : collectUnicasts mem turns a.header.firstUnicastAddress =
        some (.ok (0, a.unicasts.filterMap UnicastAddress.record)) := hn turns hturns
    simp only [adapterTurn, hread, if_neg hdown, formatPhysicalAddress_eq hlen, hips, Adapter.addTo,
      Adapter.key]
    cases a.header.ifindex <;> rfl

/-- A turn that is finished was over an adapter the walk gets past. -/
theorem passable_of_adapterTurn {s s' : Ptr × IfList} {a : Adapter} {turns : Nat} (h : mem.Adapter s.1 a)
    (hb : adapterTurn mem turns s = some (.ok s')) : a.Passable ∧ s'.1 = a.header.next := by
  obtain ⟨hread, hchain⟩ := h
  by_cases hdown : a.header.operStatus = ifOperStatusDown
  · simp only [adapterTurn, hread, if_pos hdown, Option.some.injEq, Except.ok.injEq] at hb
    exact ⟨fun hup => absurd hdown hup, by rw [← hb]⟩
  · simp only [adapterTurn, hread, if_neg hdown] at hb
    cases hmac : formatPhysicalAddress a.header with
    | error e => simp [hmac] at hb
    | ok hwAddr =>
      cases hips : collectUnicasts mem turns a.header.firstUnicastAddress with
      | none => simp [hmac, hips] at hb
      | some r =>
        cases r with
        | error e => simp [hmac, hips] at hb
        | ok t =>
          refine ⟨fun _ => ⟨le_of_formatPhysicalAddress hmac, isIp_of_collectUnicasts hchain hips⟩, ?_⟩
          cases hk : a.header.ifindex <;> simp [hmac, hips, hk] at hb <;> rw [← hb]

/-- A turn over an adapter whose bytes are in the array does not fail. -/
theorem adapterTurn_ok {s : Ptr × IfList} {a : Adapter} {turns : Nat} {r : Except Abort (Ptr × IfList)}
    (h : mem.Adapter s.1 a) (hlen : a.header.physicalAddressLength ≤ 8)
    (hb : adapterTurn mem turns s = some r) : ∃ s', r = .ok s' := by
  obtain ⟨hread, hchain⟩ := h
  by_cases hdown : a.header.operStatus = ifOperStatusDown
  · simp only [adapterTurn, hread, if_pos hdown, Option.some.injEq] at hb
    exact ⟨_, hb.symm⟩
  · simp only [adapterTurn, hread, if_neg hdown, formatPhysicalAddress_eq hlen] at hb
    cases hips : collectUnicasts mem turns a.header.firstUnicastAddress with
    | none => simp [hips] at hb
    | some c =>
      obtain ⟨t, rfl⟩ := collectUnicasts_ok hchain hips
      cases hk : a.header.ifindex <;> simp only [hips, hk, Option.some.injEq] at hb <;> exact ⟨_, hb.symm⟩

variable {first : Ptr} {adapters : List Adapter} {turns : Nat}

theorem walkAdapters_ends (h : Chain mem.Adapter (·.header.next) 0 first adapters)
    (hp : ∀ a ∈ adapters, a.Passable) :
    Ends (fun turns => walkAdapters mem turns first) (.ok (0, processed adapters)) := by
  rw [processed_eq_foldl]
  refine (h.walk ptr_cond ?_).ends
  intro p ifs a ha hat
  exact adapterTurn_ends hat (hp a ha) ifs

theorem passable_of_walkAdapters (h : Chain mem.Adapter (·.header.next) 0 first adapters) {t : Ptr × IfList}
    (he : walkAdapters mem turns first = some (.ok t)) : ∀ a ∈ adapters, a.Passable := by
  refine h.turns ptr_cond ?_ he
  intro p ifs s' a _ hat hb
  exact .inl (passable_of_adapterTurn hat hb)

theorem walkAdapters_ok (h : Chain mem.Adapter (·.header.next) 0 first adapters)
    (hlen : ∀ a ∈ adapters, a.header.physicalAddressLength ≤ 8) {r : Except Abort (Ptr × IfList)}
    (he : walkAdapters mem turns first = some r) : ∃ t, r = .ok t := by
  refine h.turns_ok ptr_cond ?_ he
  intro p ifs r a ha hat hb
  obtain ⟨s', rfl⟩ := adapterTurn_ok hat (hlen a ha) hb
  exact ⟨s', rfl, .inl (passable_of_adapterTurn hat hb).2⟩

end

/-! ## The whole function -/

section
variable {api : Api} {reply : Reply} {adapters : List Adapter}

theorem listInterfaces_ends (h : Answers api reply) (hc : reply.Holds adapters)
    (hp : ∀ a ∈ adapters, a.Passable) :
    Ends (listInterfaces api) (.returned (.ok (processed adapters))) := by
  obtain ⟨calls, size, n, hn⟩ := h
  obtain ⟨n', hn'⟩ := walkAdapters_ends hc hp
  refine ⟨max n n', fun turns hturns => ?_⟩
  have hw : walkAdapters reply.memory turns reply.buf = some (.ok (0, processed adapters)) :=
    hn' turns (by omega)
  simp only [listInterfaces, hn turns (by omega), Option.bind_some, hw]

theorem passable_of_listInterfaces (h : Answers api reply) (hc : reply.Holds adapters) {l : IfList}
    (he : Ends (listInterfaces api) (.returned (.ok l))) : ∀ a ∈ adapters, a.Passable := by
  obtain ⟨calls, size, n, hn⟩ := h
  obtain ⟨n', hn'⟩ := he
  have hq := hn (max n n') (by omega)
  have hl := hn' (max n n') (by omega)
  simp only [listInterfaces, hq, Option.bind_some] at hl
  cases hw : walkAdapters reply.memory (max n n') reply.buf with
  | none => simp [hw] at hl
  | some r =>
    cases r with
    | error a => cases a <;> simp [hw, Abort.exit] at hl
    | ok t => exact passable_of_walkAdapters hc hw

/-- With every physical address within its array, the function lists the adapters or **never returns**. -/
theorem listInterfaces_spins (h : Answers api reply) (hc : reply.Holds adapters)
    (hlen : ∀ a ∈ adapters, a.header.physicalAddressLength ≤ 8) (hp : ¬ ∀ a ∈ adapters, a.Passable)
    (turns : Nat) : listInterfaces api turns = none := by
  obtain ⟨calls, size, hquery⟩ := h
  cases hq : query api turns with
  | none => simp only [listInterfaces, hq]
  | some r =>
    have hr : r = .ok ⟨calls, size, some reply⟩ := (ends_of_whileLoop hq).unique hquery
    subst hr
    cases hw : walkAdapters reply.memory turns reply.buf with
    | none => simp only [listInterfaces, hq, Option.bind_some, hw]
    | some w =>
      obtain ⟨t, rfl⟩ := walkAdapters_ok hc hlen hw
      exact absurd (passable_of_walkAdapters hc hw) hp

/-- **The walk gets to its end, every adapter processed, iff it gets past every one of them.** -/
theorem listInterfaces_walks_iff (h : Answers api reply) (hc : reply.Holds adapters) :
    Ends (listInterfaces api) (.returned (.ok (processed adapters))) ↔ ∀ a ∈ adapters, a.Passable :=
  ⟨passable_of_listInterfaces h hc, listInterfaces_ends h hc⟩

end

/-- The memory with these structures at these addresses. -/
def memoryAt (adapters : List (Ptr × AdapterAddresses)) (unicasts : List (Ptr × UnicastAddress)) : Memory where
  adapters := fun p => adapters.lookup p
  unicasts := fun p => unicasts.lookup p

/-- `GetAdaptersAddresses` succeeds at the first call. -/
theorem answers_const {reply : Reply} (h : reply.res = errorSuccess) : Answers (fun _ _ => reply) reply := by
  have hq : queryTurn (fun _ _ => reply) ⟨0, startSize, none⟩ = some (.ok ⟨0, startSize, some reply⟩) := by
    simp only [queryTurn, if_pos h]
  have hend : WhileEnds (fun q : Query => q.reply.isNone) (fun _ => queryTurn fun _ _ => reply)
      ⟨0, startSize, none⟩ (.ok ⟨0, startSize, some reply⟩) :=
    .turn rfl (ends_of_eq fun _ => hq) (whileEnds_stop rfl)
  exact ⟨0, startSize, hend.ends⟩

/-- An adapter with an address of family 17 (`AF_NETBIOS`) before its IPv4 address. -/
def netbios : Adapter where
  header :=
    { ifIndex := 3, next := 0, firstUnicastAddress := 2, friendlyName := [], operStatus := 1
      physicalAddress := .replicate 8 0, physicalAddressLength := 6, ipv6IfIndex := 3 }
  unicasts := [⟨3, ⟨17, 0, 0⟩, 0⟩, ⟨0, ⟨afInet, 0xC0000201#32, 0⟩, 24⟩]

def netbiosReply : Reply :=
  ⟨errorSuccess, startSize, 1, memoryAt [(1, netbios.header)]
    [(2, ⟨3, ⟨17, 0, 0⟩, 0⟩), (3, ⟨0, ⟨afInet, 0xC0000201#32, 0⟩, 24⟩)]⟩

theorem netbiosReply_holds : netbiosReply.Holds [netbios] :=
  .cell (by decide) ⟨rfl, .cell (by decide) rfl (.cell (by decide) rfl .null)⟩ .null

/-- The chain is as it should be, and the walk never gets past its first address. -/
theorem listInterfaces_spins_netbios :
    Answers (fun _ _ => netbiosReply) netbiosReply ∧ netbiosReply.Holds [netbios] ∧
      ∀ turns, listInterfaces (fun _ _ => netbiosReply) turns = none := by
  refine ⟨answers_const rfl, netbiosReply_holds, ?_⟩
  refine listInterfaces_spins (answers_const rfl) netbiosReply_holds (by decide) ?_
  intro hp
  have hip := (hp netbios (by simp) (by decide)).2
  exact absurd hip (by decide)

/-- A tunnel that is down, an adapter with an IPv6 index only, and one with no index. -/
def tunnel : Adapter where
  header :=
    { ifIndex := 5, next := 2, firstUnicastAddress := 0, friendlyName := [0x74], operStatus := ifOperStatusDown
      physicalAddress := .replicate 8 0, physicalAddressLength := 0, ipv6IfIndex := 5 }
  unicasts := []

def ethernet : Adapter where
  header :=
    { ifIndex := 0, next := 3, firstUnicastAddress := 4, friendlyName := [0x65], operStatus := 1
      physicalAddress := .replicate 8 0xAB, physicalAddressLength := 6, ipv6IfIndex := 7 }
  unicasts := [⟨5, ⟨afInet6, 0, 1#128⟩, 64⟩, ⟨0, ⟨afInet, 0xC0000201#32, 0⟩, 24⟩]

def unindexed : Adapter where
  header :=
    { ifIndex := 0, next := 0, firstUnicastAddress := 0, friendlyName := [], operStatus := 1
      physicalAddress := .replicate 8 0, physicalAddressLength := 0, ipv6IfIndex := 0 }
  unicasts := []

def threeReply : Reply :=
  ⟨errorSuccess, startSize, 1,
    memoryAt [(1, tunnel.header), (2, ethernet.header), (3, unindexed.header)]
      [(4, ⟨5, ⟨afInet6, 0, 1#128⟩, 64⟩), (5, ⟨0, ⟨afInet, 0xC0000201#32, 0⟩, 24⟩)]⟩

theorem threeReply_holds : threeReply.Holds [tunnel, ethernet, unindexed] :=
  .cell (by decide) ⟨rfl, .null⟩
    (.cell (by decide) ⟨rfl, .cell (by decide) rfl (.cell (by decide) rfl .null)⟩
      (.cell (by decide) ⟨rfl, .null⟩ .null))

theorem three_passable : ∀ a ∈ [tunnel, ethernet, unindexed], a.Passable := by
  unfold Adapter.Passable
  decide

theorem listInterfaces_walks_iff_three :
    Ends (listInterfaces fun _ _ => threeReply) (.returned (.ok (processed [tunnel, ethernet, unindexed]))) ↔
      ∀ a ∈ [tunnel, ethernet, unindexed], a.Passable :=
  listInterfaces_walks_iff (answers_const rfl) threeReply_holds

/-! ## What it lists -/

/-- The adapter is to be listed: it is not down, and has an index. -/
def Adapter.Kept (a : Adapter) : Prop :=
  a.header.operStatus ≠ ifOperStatusDown ∧ (a.header.ifIndex ≠ 0 ∨ a.header.ipv6IfIndex ≠ 0)

/-- Its IPv4 index if it has one, else its IPv6 index. -/
def Adapter.index (a : Adapter) : IfIndex :=
  if a.header.ifIndex ≠ 0 then a.header.ifIndex else a.header.ipv6IfIndex

/-- **The specification**: what the buffer says of its adapters, as the map says it. -/
structure Listed (adapters : List Adapter) (l : IfList) : Prop where
  keys : ∀ k : IfIndex, (∃ i, l[k]? = some i) ↔ ∃ a ∈ adapters, a.Kept ∧ a.index = k
  index : ∀ (k : IfIndex) (i : Interface), l[k]? = some i → i.index = k
  name : ∀ a ∈ adapters, a.Kept → ∀ i : Interface, l[a.index]? = some i → i.name = a.header.name
  hwAddr : ∀ a ∈ adapters, a.Kept → ∀ i : Interface, l[a.index]? = some i →
    i.hwAddr = macText (a.header.physicalAddress.toList.take a.header.physicalAddressLength.toNat)
  sorted : ∀ (k : IfIndex) (i : Interface), l[k]? = some i → i.ips.SortedLT
  ips : ∀ a ∈ adapters, a.Kept → ∀ i : Interface, l[a.index]? = some i → ∀ r : IpRecord,
    r ∈ i.ips ↔ ∃ u ∈ a.unicasts, u.sockaddr.Contains r.ip ∧ u.onLinkPrefixLength = r.prefixLen

/-- No two kept adapters have one index. -/
def DistinctIndices (adapters : List Adapter) : Prop :=
  adapters.Pairwise fun a b => a.Kept → b.Kept → a.index ≠ b.index

theorem Adapter.key_eq_some {a : Adapter} {k : IfIndex} : a.key = some k ↔ a.Kept ∧ a.index = k := by
  unfold Adapter.key Adapter.Kept Adapter.index AdapterAddresses.ifindex
  by_cases hdown : a.header.operStatus = ifOperStatusDown
  · simp [hdown]
  · by_cases h4 : a.header.ifIndex = 0
    · by_cases h6 : a.header.ipv6IfIndex = 0 <;> simp [hdown, h4, h6]
    · simp [hdown, h4]

theorem Adapter.mem_interface_ips {a : Adapter} {k : IfIndex} {r : IpRecord} :
    r ∈ (a.interface k).ips ↔ ∃ u ∈ a.unicasts, u.sockaddr.Contains r.ip ∧ u.onLinkPrefixLength = r.prefixLen := by
  rw [Adapter.interface, Interface.mem_normalise, List.mem_filterMap]
  refine exists_congr fun u => and_congr_right fun _ => ?_
  rw [← Sockaddr.ip_eq_some]
  cases hi : u.sockaddr.ip with
  | none => simp [UnicastAddress.record, hi]
  | some ip =>
    obtain ⟨ip', p⟩ := r
    simp [UnicastAddress.record, hi]

section
variable {adapters : List Adapter}

/-- With different indices no adapter is overwritten. -/
theorem getElem?_processed (hd : DistinctIndices adapters) {k : IfIndex} {i : Interface} :
    (processed adapters)[k]? = some i ↔ ∃ a ∈ adapters, a.Kept ∧ a.index = k ∧ a.interface k = i := by
  have hkeys : ((adapters.filterMap fun a => a.key.map fun k => (k, a.interface k)).map Prod.fst).Nodup := by
    rw [List.map_filterMap, List.Nodup, List.pairwise_filterMap]
    refine hd.imp ?_
    intro a b hab k hk k' hk'
    obtain ⟨ha, rfl⟩ := Adapter.key_eq_some.1 (by simpa using hk)
    obtain ⟨hb, rfl⟩ := Adapter.key_eq_some.1 (by simpa using hk')
    exact hab ha hb
  rw [processed, HashMap.getElem?_collect_iff hkeys, List.mem_filterMap]
  refine exists_congr fun a => and_congr_right fun _ => ?_
  rw [Option.map_eq_some_iff]
  constructor
  · rintro ⟨k', hk, he⟩
    obtain ⟨rfl, rfl⟩ := Prod.mk.inj he
    obtain ⟨hkept, hidx⟩ := Adapter.key_eq_some.1 hk
    exact ⟨hkept, hidx, rfl⟩
  · rintro ⟨hkept, hidx, rfl⟩
    exact ⟨k, Adapter.key_eq_some.2 ⟨hkept, hidx⟩, rfl⟩

/-- Under the index of a kept adapter is that adapter. -/
theorem eq_interface_of_processed (hd : DistinctIndices adapters) {a : Adapter} (ha : a ∈ adapters) (hk : a.Kept)
    {i : Interface} (hi : (processed adapters)[a.index]? = some i) : i = a.interface a.index := by
  have hown := (getElem?_processed hd).2 ⟨a, ha, hk, rfl, rfl⟩
  rw [hi, Option.some.injEq] at hown
  exact hown

theorem processed_listed (hd : DistinctIndices adapters) : Listed adapters (processed adapters) := by
  refine ⟨?_, ?_, ?_, ?_, ?_, ?_⟩
  · intro k
    constructor
    · rintro ⟨i, hi⟩
      obtain ⟨a, ha, hk, hidx, -⟩ := (getElem?_processed hd).1 hi
      exact ⟨a, ha, hk, hidx⟩
    · rintro ⟨a, ha, hk, hidx⟩
      exact ⟨_, (getElem?_processed hd).2 ⟨a, ha, hk, hidx, rfl⟩⟩
  · intro k i hi
    obtain ⟨a, -, -, -, rfl⟩ := (getElem?_processed hd).1 hi
    rfl
  · intro a ha hk i hi
    rw [eq_interface_of_processed hd ha hk hi]
    rfl
  · intro a ha hk i hi
    rw [eq_interface_of_processed hd ha hk hi]
    rfl
  · intro k i hi
    obtain ⟨a, -, -, -, rfl⟩ := (getElem?_processed hd).1 hi
    exact Interface.normalise_sorted _
  · intro a ha hk i hi r
    rw [eq_interface_of_processed hd ha hk hi]
    exact Adapter.mem_interface_ips

/-- **Windows `list_interfaces` meets its specification** on a chain of adapters with IP addresses only. -/
theorem listInterfaces_listed {api : Api} {reply : Reply} (h : Answers api reply) (hc : reply.Holds adapters)
    (hp : ∀ a ∈ adapters, a.Passable) (hd : DistinctIndices adapters) :
    ∃ l, Ends (listInterfaces api) (.returned (.ok l)) ∧ Listed adapters l :=
  ⟨processed adapters, listInterfaces_ends h hc hp, processed_listed hd⟩

theorem listInterfaces_listed_three :
    ∃ l, Ends (listInterfaces fun _ _ => threeReply) (.returned (.ok l)) ∧
      Listed [tunnel, ethernet, unindexed] l := by
  refine listInterfaces_listed (answers_const rfl) threeReply_holds three_passable ?_
  unfold DistinctIndices Adapter.Kept
  decide

end

end Netwatcher.ListWin
