import Netwatcher.ListWin
/-!
# Asking for the adapters again (`src/list_win.rs`, lines 26-57)

`GetAdaptersAddresses` is called until its buffer is large enough: on `ERROR_BUFFER_OVERFLOW` the
buffer is resized to what the call left in `sizepointer`. Nothing bounds the number of calls. The
function returns iff some call does not overflow (`query_iff`), and the first one that does not
decides what it returns.

| here | there |
| --- | --- |
| `sizeAt`  | the length of `buf`, and `sizepointer`, at each call (list_win.rs:28-31, :50) |
| `failure` | the arms that return (list_win.rs:48, :53-56) |
-/
namespace Netwatcher.ListWin
open Coll Loop

/-- What a call is told of the buffer, by the number of calls before it that have overflowed. -/
def sizeAt (api : Api) : Nat → UInt32
  | 0 => startSize
  | n + 1 => (api n (sizeAt api n)).sizepointer

def replyAt (api : Api) (n : Nat) : Reply := api n (sizeAt api n)

def Overflows (api : Api) (n : Nat) : Prop := (replyAt api n).res = errorBufferOverflow

/-- What is returned for a result code that is neither success nor an overflow. -/
def failure (res : Win32Error) : Except Error IfList :=
  if res = errorAddressNotAssociated then .error .addressNotAssociated
  else if res = errorInvalidParameter then .error .invalidParameter
  else if res = errorNotEnoughMemory then .error .notEnoughMemory
  else if res = errorNoData then .ok ∅
  else .error (.unexpectedWindowsResult res)

/-- How the `n`-th call ends the loop, if it does not overflow. -/
def settled (api : Api) (n : Nat) : Except Exit Query :=
  if (replyAt api n).res = errorSuccess then .ok ⟨n, sizeAt api n, some (replyAt api n)⟩
  else .error (.returned (failure (replyAt api n).res))

section
variable {api : Api} {n : Nat}

theorem queryTurn_overflow (h : Overflows api n) :
    queryTurn api ⟨n, sizeAt api n, none⟩ = some (.ok ⟨n + 1, sizeAt api (n + 1), none⟩) := by
  have hres : (api n (sizeAt api n)).res = errorBufferOverflow := h
  simp [queryTurn, hres, errorBufferOverflow, errorSuccess, errorAddressNotAssociated, sizeAt]

theorem queryTurn_settled (h : ¬ Overflows api n) :
    queryTurn api ⟨n, sizeAt api n, none⟩ = some (settled api n) := by
  have hres : (api n (sizeAt api n)).res ≠ errorBufferOverflow := h
  unfold queryTurn settled failure replyAt
  grind

/-- After `n` calls that have overflowed, the loop is about to make the next. -/
theorem query_overflowed (h : ∀ j < n, Overflows api j) (turns : Nat) :
    query api (turns + n) =
      whileLoop (fun q => q.reply.isNone) (queryTurn api) turns ⟨n, sizeAt api n, none⟩ := by
  induction n generalizing turns with
  | zero => rfl
  | succ n ih =>
    have hn := queryTurn_overflow (h n (by omega))
    rw [show turns + (n + 1) = turns + 1 + n by omega, ih fun j hj => h j (by omega), whileLoop,
      if_pos Option.isNone_none, hn]

/-- **Calls that all overflow** are made forever. -/
theorem query_spins (h : ∀ j, Overflows api j) (turns : Nat) : query api turns = none := by
  have := query_overflowed (n := turns) (fun j _ => h j) 0
  rwa [Nat.zero_add] at this

/-- **The first call that does not overflow** ends the loop. -/
theorem query_ends (h : ∀ j < n, Overflows api j) (hn : ¬ Overflows api n) :
    Ends (query api) (settled api n) := by
  have hq : query api (1 + 1 + n) = some (settled api n) := by
    rw [query_overflowed h, whileLoop, if_pos Option.isNone_none, queryTurn_settled hn, settled]
    by_cases hok : (replyAt api n).res = errorSuccess
    · simp [hok, whileLoop]
    · simp [hok]
  exact ends_of_whileLoop hq

theorem query_iff (r : Except Exit Query) :
    Ends (query api) r ↔ ∃ n, (∀ j < n, Overflows api j) ∧ ¬ Overflows api n ∧ r = settled api n := by
  constructor
  · intro h
    have hex : ∃ n, ¬ Overflows api n := by
      by_contra hno
      push Not at hno
      obtain ⟨turns, hturns⟩ := h
      have := hturns turns le_rfl
      rw [query_spins hno] at this
      cases this
    classical
    have hmin : ∀ j < Nat.find hex, Overflows api j := fun j hj => not_not.1 (Nat.find_min hex hj)
    exact ⟨Nat.find hex, hmin, Nat.find_spec hex, h.unique (query_ends hmin (Nat.find_spec hex))⟩
  · rintro ⟨n, h, hn, rfl⟩
    exact query_ends h hn

/-- A list is returned from the loop in one case only, and it is empty. -/
theorem query_returned {turns : Nat} {l : IfList} (h : query api turns = some (.error (.returned (.ok l)))) :
    l = ∅ := by
  obtain ⟨n, -, -, hs⟩ := (query_iff _).1 (ends_of_whileLoop h)
  unfold settled failure at hs
  grind

end

/-- **How a listing depends on the calls.** It returns nothing while every call overflows; the first
call that does not, made with the size the call before it asked for, decides: a failure is returned as
it is, with no data there are no interfaces, and a success is walked. -/
theorem listInterfaces_calls (api : Api) :
    ((∀ j, Overflows api j) → ∀ turns, listInterfaces api turns = none) ∧
    (∀ n, (∀ j < n, Overflows api j) → ¬ Overflows api n →
      ((replyAt api n).res ≠ errorSuccess →
        Ends (listInterfaces api) (.returned (failure (replyAt api n).res))) ∧
      ((replyAt api n).res = errorSuccess → ∀ adapters, (replyAt api n).Holds adapters →
        (∀ a ∈ adapters, a.Passable) → Ends (listInterfaces api) (.returned (.ok (processed adapters))))) := by
  refine ⟨?_, ?_⟩
  · intro h turns
    simp only [listInterfaces, query_spins h turns]
  · intro n h hn
    have hends := query_ends h hn
    refine ⟨?_, ?_⟩
    · intro hfail
      rw [settled, if_neg hfail] at hends
      obtain ⟨turns, hturns⟩ := hends
      refine ⟨turns, fun m hm => ?_⟩
      simp only [listInterfaces, hturns m hm]
    · intro hok adapters hc hp
      rw [settled, if_pos hok] at hends
      exact listInterfaces_ends ⟨_, _, hends⟩ hc hp

end Netwatcher.ListWin
