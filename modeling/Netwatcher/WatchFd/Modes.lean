import Netwatcher.WatchFd.AsyncWatch
/-!
# The three Unix watch modes agree (`src/watch_fd.rs`)

A watch is given listing results, `None` for a failed one: the first when it is set up, then one for
each readiness it handles. What it delivers is a function of these results, `expectedUpdates`, and
the function is the same for the callback thread, for repeated calls of `BlockingWatch::changed` and
for repeated awaits of `AsyncWatch::changed`.

| here | there |
| --- | --- |
| `handed`       | the results `list_interfaces` gave a run, in order, where `cursor.advance` is reached or skipped |
| `digestResult` | `let Ok(new_list) = .. else { .. }; cursor.advance(new_list)` (watch_fd.rs:60, :189) |
| `undelivered`  | an update a callback or a poll is about to get, or one parked in `initial_update` |
-/
namespace Netwatcher
open Coll Runs WatchFd

/-! ## What the updates should be -/

/-- The updates due after one with the interfaces `cur`. -/
def laterUpdates (cur : IfList) : List (Option IfList) → List Update
  | [] => []
  | none :: rs => laterUpdates cur rs
  | some l :: rs => if l = cur then laterUpdates cur rs else l.updateFrom cur :: laterUpdates l rs

def expectedUpdates (first : IfList) (rs : List (Option IfList)) : List Update :=
  first.initialUpdate :: laterUpdates first rs

/-- The last list that was listed. -/
def currentList (first : IfList) (rs : List (Option IfList)) : IfList :=
  rs.foldl (fun cur r => r.getD cur) first

/-- A cursor and the updates it has emitted, given one more result. -/
def digestResult (v : UpdateCursor × List Update) (r : Option IfList) : UpdateCursor × List Update :=
  ((nextUpdate v.1 r).1, v.2 ++ (nextUpdate v.1 r).2.toList)

theorem foldl_digestResult (cur : IfList) (log : List Update) (rs : List (Option IfList)) :
    rs.foldl digestResult (⟨cur, false⟩, log) = (⟨currentList cur rs, false⟩, log ++ laterUpdates cur rs) := by
  induction rs generalizing cur log with
  | nil => simp [currentList, laterUpdates]
  | cons r rs ih =>
    rw [List.foldl_cons]
    cases r with
    | none =>
      have hd : digestResult (⟨cur, false⟩, log) none = (⟨cur, false⟩, log) := by
        simp [digestResult, nextUpdate]
      rw [hd, ih]
      rfl
    | some l =>
      by_cases hl : l = cur
      · subst hl
        have hd : digestResult (⟨l, false⟩, log) (some l) = (⟨l, false⟩, log) := by
          simp [digestResult, nextUpdate, UpdateCursor.advance]
        rw [hd, ih, laterUpdates, if_pos rfl]
        rfl
      · have hd : digestResult (⟨cur, false⟩, log) (some l) = (⟨l, false⟩, log ++ [l.updateFrom cur]) := by
          simp [digestResult, nextUpdate, UpdateCursor.advance, hl]
        rw [hd, ih, laterUpdates, if_neg hl, List.append_assoc]
        rfl

/-- A fresh cursor emits what is expected. -/
theorem foldl_digestResult_default (first : IfList) (rs : List (Option IfList)) :
    (some first :: rs).foldl digestResult (.default, []) =
      (⟨currentList first rs, false⟩, expectedUpdates first rs) := by
  have hd : digestResult (.default, []) (some first) = (⟨first, false⟩, [first.initialUpdate]) := by
    simp [digestResult, nextUpdate, UpdateCursor.advance, UpdateCursor.default]
  rw [List.foldl_cons, hd, foldl_digestResult]
  rfl

theorem currentList_concat (first : IfList) (rs : List (Option IfList)) (r : Option IfList) :
    currentList first (rs ++ [r]) = r.getD (currentList first rs) := by
  simp [currentList]

/-- One more result, and the update it is good for. -/
theorem laterUpdates_concat (cur : IfList) (rs : List (Option IfList)) (r : Option IfList) :
    laterUpdates cur (rs ++ [r]) =
      laterUpdates cur rs ++ (nextUpdate ⟨currentList cur rs, false⟩ r).2.toList := by
  have hd := foldl_digestResult cur [] (rs ++ [r])
  rw [List.foldl_append, foldl_digestResult] at hd
  exact (Prod.mk.inj hd).2.symm

/-- What a watch has delivered and still holds, once it was given `first` and then `rs`. -/
structure Delivers (first : IfList) (rs : List (Option IfList)) (cursor : UpdateCursor)
    (delivered undelivered : List Update) : Prop where
  cursor : cursor = ⟨currentList first rs, false⟩
  updates : delivered ++ undelivered = expectedUpdates first rs

/-- The result a step takes to the cursor: it is at hand before and not after. -/
def handedOver : Option (Option IfList) → Option (Option IfList) → List (Option IfList)
  | some r, none => [r]
  | _, _ => []

theorem handedOver_self (r : Option (Option IfList)) : handedOver r r = [] := by
  cases r <;> rfl

/-- A step that leaves what is at hand where it is digests nothing. -/
theorem digest_self (v : UpdateCursor × List Update) (r : Option (Option IfList)) :
    v = (handedOver r r).foldl digestResult v := by
  rw [handedOver_self]
  rfl

/-- Nor does one that has nothing at hand. -/
theorem digest_of_none (v : UpdateCursor × List Update) {r r' : Option (Option IfList)} (h : r = none) :
    v = (handedOver r r').foldl digestResult v := by
  rw [h]
  rfl

end Netwatcher

/-! ## The callback thread and the blocking watch -/

namespace Netwatcher.WatchFd
open Runs

/-- A listing result not yet given to the cursor. -/
def Pc.atHand : Pc → Option (Option IfList)
  | .firstListed r | .listed r => some r
  | _ => none

def handed (s s' : Watcher) : List (Option IfList) := handedOver s.pc.atHand s'.pc.atHand

def Watcher.undelivered (s : Watcher) : List Update := s.pc.unsent ++ s.initialUpdate.toList

theorem resume_atHand (s : Watcher) (yielded : Bool) : (s.resume yielded).atHand = none := by
  rcases resume_cases s yielded with h | h | ⟨_, h⟩ <;> rw [h] <;> rfl

theorem absorb_atHand (s : Watcher) (r : Option IfList) : (s.absorb r).pc.atHand = none := by
  simp only [Watcher.absorb]
  cases (nextUpdate s.cursor r).2 with
  | none => exact resume_atHand s false
  | some u => rfl

/-- The cursor and what has come out of it. -/
def Watcher.view (s : Watcher) : UpdateCursor × List Update := (s.cursor, s.produced)

/-- **Each step is `digestResult`** on the result it takes to the cursor, if any. -/
theorem Step.view {s s' : Watcher} (h : Step s s') :
    s'.view = (handed s s').foldl digestResult s.view := by
  cases h with
  | change l => exact digest_self _ _
  | arrive k => exact digest_self _ _
  | startFirst hp => exact digest_of_none _ (by rw [hp]; rfl)
  | pipeFails _ hp => exact digest_of_none _ (by rw [hp]; rfl)
  | endFirst r hp _ => exact digest_of_none _ (by rw [hp]; rfl)
  | firstFails hp =>
    have hh : handed s { s with pc := .failed } = [none] := by rw [handed, hp]; rfl
    rw [hh]
    simp [Watcher.view, digestResult, nextUpdate]
  | @firstCallback l _ hp =>
    have hh : handed s (s.firstCallback l) = [some l] := by
      rw [handed, hp]
      simp only [Watcher.firstCallback]
      cases (s.cursor.advance l).2 <;> rfl
    rw [hh]
    rfl
  | @firstBlocking l _ hp =>
    have hh : handed s (s.firstBlocking l) = [some l] := by rw [handed, hp]; rfl
    rw [hh]
    rfl
  | takeInitial hp _ => exact digest_of_none _ (by rw [hp]; rfl)
  | callChanged hp _ => exact digest_of_none _ (by rw [hp]; rfl)
  | pollSocket hup hp _ => exact digest_of_none _ (by rw [hp]; rfl)
  | pollPipe _ hp => exact digest_of_none _ (by rw [hp]; rfl)
  | recv hp _ => exact digest_of_none _ (by rw [hp]; rfl)
  | startListing hp => exact digest_of_none _ (by rw [hp]; rfl)
  | endListing r hp _ => exact digest_of_none _ (by rw [hp]; rfl)
  | @absorb r hp =>
    have hh : handed s (s.absorb r) = [r] := by rw [handed, hp, absorb_atHand]; rfl
    rw [hh]
    rfl
  | deliver hp => exact digest_of_none _ (by rw [hp]; rfl)
  | panic _ hp => exact digest_of_none _ (by rw [hp]; rfl)

section
variable {mode : Mode} {first : IfList} {rs : List (Option IfList)} {s : Watcher}

theorem delivers (t : Trace (system mode) handed (some first :: rs) s) :
    Delivers first rs s.cursor s.delivered s.undelivered := by
  have hv : s.view = (⟨currentList first rs, false⟩, expectedUpdates first rs) := by
    rw [← foldl_digestResult_default]
    refine Trace.fold ?_ (fun _ _ h => Step.view h) t
    rintro s ⟨-, -, hc, -, -, hp, -⟩
    rw [Watcher.view, hc, hp]
  obtain ⟨hc, hp⟩ := Prod.mk.inj hv
  refine ⟨hc, ?_⟩
  rw [← hp, (logInv t.reach).sent, Watcher.undelivered, List.append_assoc]

theorem undelivered_of_polling (r : Reach (system mode) s) (hp : s.pc = .polling) : s.undelivered = [] := by
  have hi := (logInv r).unparked (by simp [hp, Pc.looping])
  rw [Watcher.undelivered, hi, hp]
  rfl

end

/-! ### Every sequence of results has a run -/

/-- Where the watcher is after a delivery, it can go back to polling: the callback thread does,
`changed` is called again. -/
theorem trace_deliver {mode : Mode} {bs : List (Option IfList)} {s : Watcher} {u : Update}
    (t : Trace (system mode) handed bs s) (hp : s.pc = .delivering u) (hh : s.hup = false) :
    ∃ s', Trace (system mode) handed bs s' ∧ s'.pc = .polling := by
  have ha : s.pc.atHand = none := by rw [hp]; rfl
  have t1 := t.silent (.deliver hp) (by rw [handed, ha]; rfl)
  have hi := (logInv t.reach).unparked (by simp [hp, Pc.looping])
  cases hm : s.mode with
  | callback => exact ⟨_, t1, by simp [Watcher.resume, hm, hh]⟩
  | blocking =>
    have hidle : s.resume true = .idle := by simp [Watcher.resume, hm]
    rw [hidle] at t1
    exact ⟨_, t1.silent (.callChanged rfl hi) rfl, rfl⟩

/-- One readiness is handled: the OS state changes during the listing, so its result may be any. -/
theorem trace_round {mode : Mode} {bs : List (Option IfList)} {s : Watcher}
    (t : Trace (system mode) handed bs s) (hp : s.pc = .polling) (r : Option IfList) :
    ∃ s', Trace (system mode) handed (bs ++ [r]) s' ∧ s'.pc = .polling := by
  have ha : s.pc.atHand = none := by rw [hp]; rfl
  have t1 := t.silent (.pollSocket false hp fun _ => rfl) (by rw [handed, ha]; rfl)
  have t2 := (t1.silent (.recv rfl (.err _)) rfl).silent (.startListing rfl) rfl
  have t3 := (t2.silent (.change ∅) rfl).silent (.endListing r rfl fun h => by cases h) rfl
  have t4 := t3.emit (.absorb rfl) (b := r) (by rw [handed, absorb_atHand]; rfl)
  cases hu : (nextUpdate s.cursor r).2 with
  | none =>
    refine ⟨_, t4, ?_⟩
    simp only [Watcher.absorb, hu, Watcher.resume]
    cases s.mode <;> rfl
  | some u => exact trace_deliver t4 (u := u) (by simp only [Watcher.absorb, hu]) rfl

/-- The set-up with a listing that returns `first`, up to the first `poll`. -/
theorem trace_first (mode : Mode) (first : IfList) :
    ∃ s, Trace (system mode) handed [some first] s ∧ s.pc = .polling := by
  have t0 : Trace (system mode) handed []
      ⟨mode, ⟨first, 0, false⟩, 0, .opened, .default, none, false, [], []⟩ :=
    .init ⟨rfl, rfl, rfl, rfl, rfl, rfl, rfl⟩
  have t1 := (t0.silent (.startFirst rfl) rfl).silent (.endFirst (some first) rfl fun _ => rfl) rfl
  cases mode with
  | callback => exact trace_deliver (t1.emit (.firstCallback rfl rfl) (b := some first) rfl) rfl rfl
  | blocking =>
    have t2 := t1.emit (.firstBlocking rfl rfl) (b := some first) rfl
    exact ⟨_, (t2.silent (.takeInitial rfl rfl) rfl).silent (.callChanged rfl rfl) rfl, rfl⟩

theorem trace_exists (mode : Mode) (first : IfList) (rs : List (Option IfList)) :
    ∃ s, Trace (system mode) handed (some first :: rs) s ∧ s.pc = .polling := by
  induction rs using List.reverseRecOn with
  | nil => exact trace_first mode first
  | append_singleton rs r ih =>
    obtain ⟨s, t, hp⟩ := ih
    exact trace_round t hp r

end Netwatcher.WatchFd

/-! ## The async watch -/

namespace Netwatcher.WatchFdAsync
open Runs Netwatcher.WatchFd

def Pc.atHand : Pc → Option (Option IfList)
  | .firstListed r | .listed r => some r
  | _ => none

def handed (s s' : AsyncWatch) : List (Option IfList) := handedOver s.pc.atHand s'.pc.atHand

def AsyncWatch.undelivered (s : AsyncWatch) : List Update := s.pc.unsent ++ s.initialUpdate.toList

def AsyncWatch.view (s : AsyncWatch) : UpdateCursor × List Update := (s.cursor, s.produced)

/-- `changed` has no `next_update`, but does the same with a result. -/
theorem absorb_view (s : AsyncWatch) (r : Option IfList) :
    (s.absorb r).view = digestResult s.view r ∧ (s.absorb r).pc.atHand = none := by
  cases r with
  | none => simp [AsyncWatch.absorb, AsyncWatch.view, digestResult, nextUpdate, Pc.atHand]
  | some l =>
    refine ⟨rfl, ?_⟩
    simp only [AsyncWatch.absorb]
    cases (s.cursor.advance l).2 <;> rfl

/-- **Each step is `digestResult`** on the result it takes to the cursor, if any. -/
theorem Step.view {s s' : AsyncWatch} (h : Step s s') :
    s'.view = (handed s s').foldl digestResult s.view := by
  cases h with
  | change l => exact digest_self _ _
  | arrive k => exact digest_self _ _
  | spurious => exact digest_self _ _
  | register ready hp => exact digest_of_none _ (by rw [hp]; rfl)
  | registerFails hp => exact digest_of_none _ (by rw [hp]; rfl)
  | startFirst hp => exact digest_of_none _ (by rw [hp]; rfl)
  | endFirst r hp _ => exact digest_of_none _ (by rw [hp]; rfl)
  | firstFails hp =>
    have hh : handed s { s with pc := .failed } = [none] := by rw [handed, hp]; rfl
    rw [hh]
    simp [AsyncWatch.view, digestResult, nextUpdate]
  | @firstAdvance l hp =>
    have hh : handed s (s.firstAdvance l) = [some l] := by rw [handed, hp]; rfl
    rw [hh]
    rfl
  | takeInitial hp _ => exact digest_of_none _ (by rw [hp]; rfl)
  | pollFailed hp _ _ => exact digest_of_none _ (by rw [hp]; rfl)
  | pollFresh hp _ _ => exact digest_of_none _ (by rw [hp]; rfl)
  | readable hp _ => exact digest_of_none _ (by rw [hp]; rfl)
  | readableFails hp => exact digest_of_none _ (by rw [hp]; rfl)
  | drop hp => exact digest_of_none _ (by rcases hp with hp | hp <;> rw [hp] <;> rfl)
  | recv hp _ => exact digest_of_none _ (by rw [hp]; rfl)
  | clearReady keep hp => exact digest_of_none _ (by rw [hp]; rfl)
  | startListing hp => exact digest_of_none _ (by rw [hp]; rfl)
  | endListing r hp _ => exact digest_of_none _ (by rw [hp]; rfl)
  | @absorb r hp =>
    obtain ⟨hv, ha⟩ := absorb_view s r
    have hh : handed s (s.absorb r) = [r] := by rw [handed, hp, ha]; rfl
    rw [hh, hv]
    rfl
  | complete hp => exact digest_of_none _ (by rw [hp]; rfl)

section
variable {first : IfList} {rs : List (Option IfList)} {s : AsyncWatch}

theorem delivers (t : Trace system handed (some first :: rs) s) :
    Delivers first rs s.cursor s.delivered s.undelivered := by
  have hv : s.view = (⟨currentList first rs, false⟩, expectedUpdates first rs) := by
    rw [← foldl_digestResult_default]
    refine Trace.fold ?_ (fun _ _ h => Step.view h) t
    rintro s ⟨-, hc, -, -, hp, -⟩
    rw [AsyncWatch.view, hc, hp]
  obtain ⟨hc, hp⟩ := Prod.mk.inj hv
  refine ⟨hc, ?_⟩
  rw [← hp, (sentInv t.reach).sent, AsyncWatch.undelivered, List.append_assoc]

theorem undelivered_of_suspended (r : Reach system s) (hp : s.pc = .suspended) : s.undelivered = [] := by
  have hi := (sentInv r).unparked (by simp [hp])
  rw [AsyncWatch.undelivered, hi, hp]
  rfl

end

/-! ### Every sequence of results has a run -/

/-- One readiness is handled: the OS state changes during the listing, so its result may be any. -/
theorem trace_round {bs : List (Option IfList)} {s : AsyncWatch} (t : Trace system handed bs s)
    (hp : s.pc = .suspended) (hf : s.readinessFailed = false) (r : Option IfList) :
    ∃ s', Trace system handed (bs ++ [r]) s' ∧ s'.pc = .suspended ∧ s'.readinessFailed = false := by
  have hi := (sentInv t.reach).unparked (by simp [hp])
  have t1 := t.silent .spurious (handedOver_self _)
  have t2 := t1.silent (.readable hp rfl) (by rw [handed, hp]; rfl)
  have t3 := (t2.silent (.recv rfl (.err _)) rfl).silent (.clearReady false rfl) rfl
  have t4 := (t3.silent (.startListing rfl) rfl).silent (.change ∅) rfl
  have t5 := t4.silent (.endListing r rfl fun h => by cases h) rfl
  have t6 := t5.emit (.absorb rfl) (b := r) (by rw [handed, (absorb_view _ r).2]; rfl)
  cases r with
  | none => exact ⟨_, t6, rfl, hf⟩
  | some l =>
    cases hu : (s.cursor.advance l).2 with
    | none => exact ⟨_, t6, by simp only [AsyncWatch.absorb, hu], hf⟩
    | some u =>
      have t7 := t6.silent (.complete (u := u) (by simp only [AsyncWatch.absorb, hu]))
        (by simp only [handed, AsyncWatch.absorb, hu]; rfl)
      exact ⟨_, t7.silent (.pollFresh rfl hi hf) rfl, rfl, hf⟩

theorem trace_exists (first : IfList) (rs : List (Option IfList)) :
    ∃ s, Trace system handed (some first :: rs) s ∧ s.pc = .suspended ∧ s.readinessFailed = false := by
  induction rs using List.reverseRecOn with
  | nil =>
    have t0 : Trace system handed []
        ⟨⟨first, 0, false⟩, 0, false, .opened, .default, none, false, [], []⟩ :=
      .init ⟨rfl, rfl, rfl, rfl, rfl, rfl⟩
    have t1 := ((t0.silent (.register false rfl) rfl).silent (.startFirst rfl) rfl).silent
      (.endFirst (some first) rfl fun _ => rfl) rfl
    have t2 := t1.emit (.firstAdvance rfl) (b := some first) rfl
    exact ⟨_, (t2.silent (.takeInitial rfl rfl) rfl).silent (.pollFresh rfl rfl rfl) rfl, rfl, rfl⟩
  | append_singleton rs r ih =>
    obtain ⟨s, t, hp, hf⟩ := ih
    exact trace_round t hp hf r

end Netwatcher.WatchFdAsync

/-! ## Agreement -/

namespace Netwatcher
open Runs

/-- **The three Unix watch modes agree**: given `first` and then `rs`, each delivers
`expectedUpdates first rs` and nothing else, and has delivered all of it when it waits for the next
readiness; and each can be given these results. -/
theorem unix_modes_agree (first : IfList) (rs : List (Option IfList)) :
    (∀ (mode : WatchFd.Mode) (s : WatchFd.Watcher),
      Trace (WatchFd.system mode) WatchFd.handed (some first :: rs) s →
        Delivers first rs s.cursor s.delivered s.undelivered ∧
          (s.pc = .polling → s.delivered = expectedUpdates first rs)) ∧
    (∀ s : WatchFdAsync.AsyncWatch,
      Trace WatchFdAsync.system WatchFdAsync.handed (some first :: rs) s →
        Delivers first rs s.cursor s.delivered s.undelivered ∧
          (s.pc = .suspended → s.delivered = expectedUpdates first rs)) ∧
    (∀ mode : WatchFd.Mode, ∃ s,
      Trace (WatchFd.system mode) WatchFd.handed (some first :: rs) s ∧ s.pc = .polling) ∧
    (∃ s, Trace WatchFdAsync.system WatchFdAsync.handed (some first :: rs) s ∧ s.pc = .suspended) := by
  refine ⟨?_, ?_, ?_, ?_⟩
  · intro mode s t
    have h := WatchFd.delivers t
    refine ⟨h, ?_⟩
    intro hp
    rw [← h.updates, WatchFd.undelivered_of_polling t.reach hp, List.append_nil]
  · intro s t
    have h := WatchFdAsync.delivers t
    refine ⟨h, ?_⟩
    intro hp
    rw [← h.updates, WatchFdAsync.undelivered_of_suspended t.reach hp, List.append_nil]
  · intro mode
    exact WatchFd.trace_exists mode first rs
  · obtain ⟨s, t, hp, -⟩ := WatchFdAsync.trace_exists first rs
    exact ⟨s, t, hp⟩

end Netwatcher
