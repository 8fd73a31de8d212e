import Std.Data.ExtTreeMap
import Mathlib.Data.List.Nodup
import Mathlib.Data.List.Induction
/-!
# Hash maps as values

A hash map compared by its contents: two maps are equal iff they map the same keys to the same
values. The iteration order of a real hash map is unspecified, so results that go through `iter`
are stated up to it: either the result is a map again (`collect` of distinct keys forgets the
order) or it is given as a multiset. Where an order matters, it is a list that is a permutation
of `iter`.

| here | there |
| --- | --- |
| `HashMap`, `m[k]?`, `insert`, `erase` | `HashMap`, `get`, `insert`, `remove` |
| `iter`    | `iter()`, `drain()`, `values()`, one order of them |
| `setValues` | what a loop over `values_mut()` leaves |
| `collect` | `collect::<HashMap<_, _>>()`: later pairs overwrite earlier ones |
-/

namespace Coll

/-- A map from `K` to `V`, equal to another iff the contents are. -/
abbrev HashMap (K V : Type*) [Ord K] := Std.ExtTreeMap K V compare

namespace HashMap

section
variable {K V W : Type*} [Ord K] [Std.TransOrd K] [Std.LawfulEqOrd K]

def iter (m : HashMap K V) : List (K × V) := m.toList

def collect (l : List (K × V)) : HashMap K V := l.foldl (fun m kv => m.insert kv.1 kv.2) ∅

omit [Std.LawfulEqOrd K] in
@[simp] theorem collect_nil : collect ([] : List (K × V)) = ∅ := rfl

omit [Std.LawfulEqOrd K] in
@[simp] theorem collect_concat (l : List (K × V)) (kv : K × V) :
    collect (l ++ [kv]) = (collect l).insert kv.1 kv.2 := by
  simp [collect]

theorem getElem?_insert [DecidableEq K] (m : HashMap K V) (k k' : K) (v : V) :
    (m.insert k v)[k']? = if k = k' then some v else m[k']? := by
  simp [Std.ExtTreeMap.getElem?_insert]

theorem getElem?_erase [DecidableEq K] (m : HashMap K V) (k k' : K) :
    (m.erase k)[k']? = if k = k' then none else m[k']? := by
  simp [Std.ExtTreeMap.getElem?_erase]

theorem isEmpty_eq_false_iff {m : HashMap K V} : m.isEmpty = false ↔ ∃ (k : K) (v : V), m[k]? = some v := by
  rw [← Bool.not_eq_true, Std.ExtTreeMap.isEmpty_iff]
  constructor
  · intro h
    by_contra hno
    push Not at hno
    exact h (Std.ExtTreeMap.ext_getElem? fun k => by
      rw [Option.eq_none_iff_forall_ne_some.2 (hno k)]; simp)
  · rintro ⟨k, v, hv⟩ rfl
    simp at hv

theorem mem_iter {m : HashMap K V} {k : K} {v : V} : (k, v) ∈ m.iter ↔ m[k]? = some v :=
  Std.ExtTreeMap.mem_toList_iff_getElem?_eq_some

theorem nodup_keys_iter (m : HashMap K V) : (m.iter.map Prod.fst).Nodup := by
  have h := Std.ExtTreeMap.distinct_keys_toList (t := m)
  rw [List.Nodup, List.pairwise_map]
  exact h.imp fun hne heq => hne (by rw [heq]; exact Std.ReflCmp.compare_self)

theorem ext_iff {m m' : HashMap K V} : m = m' ↔ ∀ k : K, m[k]? = m'[k]? :=
  ⟨fun h _ => h ▸ rfl, Std.ExtTreeMap.ext_getElem?⟩

/-- Whatever a collected map holds was in the list. -/
theorem mem_of_getElem?_collect {l : List (K × V)} {k : K} {v : V} :
    (collect l)[k]? = some v → (k, v) ∈ l := by
  classical
  induction l using List.reverseRecOn with
  | nil => simp
  | append_singleton l kv ih =>
    rw [collect_concat, getElem?_insert]
    split
    · rename_i hk
      intro hv
      simp only [Option.some.injEq] at hv
      simp [← hk, ← hv]
    · intro hv; simp [ih hv]

/-- Every key of the list is a key of the collected map. -/
theorem isSome_getElem?_collect {l : List (K × V)} {k : K} (h : k ∈ l.map Prod.fst) :
    ∃ v, (collect l)[k]? = some v := by
  classical
  induction l using List.reverseRecOn with
  | nil => simp at h
  | append_singleton l kv ih =>
    rw [collect_concat, getElem?_insert]
    split
    · exact ⟨_, rfl⟩
    · rename_i hne
      simp only [List.map_append, List.map_cons, List.map_nil, List.mem_append, List.mem_singleton] at h
      rcases h with h | h
      · exact ih h
      · exact absurd h.symm hne

/-- With distinct keys nothing is overwritten. -/
theorem getElem?_collect_iff {l : List (K × V)} (hn : (l.map Prod.fst).Nodup) {k : K} {v : V} :
    (collect l)[k]? = some v ↔ (k, v) ∈ l := by
  refine ⟨mem_of_getElem?_collect, fun h => ?_⟩
  obtain ⟨w, hw⟩ := isSome_getElem?_collect (List.mem_map_of_mem (f := Prod.fst) h)
  have hw' := mem_of_getElem?_collect hw
  have := List.inj_on_of_nodup_map hn h hw' rfl
  rw [hw, Prod.mk.inj this |>.2]

/-- With distinct keys the order does not matter. -/
theorem collect_perm {l l' : List (K × V)} (hn : (l.map Prod.fst).Nodup) (hp : l.Perm l') :
    collect l = collect l' := by
  have hn' : (l'.map Prod.fst).Nodup := (hp.map _).nodup_iff.1 hn
  refine ext_iff.2 fun k => Option.ext ?_
  intro v
  rw [getElem?_collect_iff hn, getElem?_collect_iff hn', hp.mem_iff]

/-- Later pairs overwrite earlier ones. -/
theorem getElem?_collect_append (l l' : List (K × V)) (k : K) :
    (collect (l ++ l'))[k]? = (collect l')[k]?.or (collect l)[k]? := by
  classical
  induction l' using List.reverseRecOn with
  | nil => simp
  | append_singleton l' kv ih =>
    rw [← List.append_assoc, collect_concat, collect_concat, getElem?_insert, getElem?_insert]
    split
    · rfl
    · exact ih

/-- The last pair of a key wins. -/
theorem getElem?_collect_append_of_mem {l l' : List (K × V)} {k : K} (h : k ∈ l'.map Prod.fst) :
    (collect (l ++ l'))[k]? = (collect l')[k]? := by
  obtain ⟨v, hv⟩ := isSome_getElem?_collect h
  rw [getElem?_collect_append, hv, Option.some_or]

@[simp] theorem collect_iter (m : HashMap K V) : collect m.iter = m :=
  ext_iff.2 fun _ => Option.ext fun _ => by
    rw [getElem?_collect_iff (nodup_keys_iter m), mem_iter]

/-! ## Comprehensions over one map -/

/-- Keep or rewrite each entry under its own key. -/
def comprehend (m : HashMap K V) (f : K → V → Option W) : List (K × W) :=
  m.iter.filterMap fun kv => (f kv.1 kv.2).map (kv.1, ·)

theorem mem_comprehend {m : HashMap K V} {f : K → V → Option W} {k : K} {w : W} :
    (k, w) ∈ comprehend m f ↔ ∃ v, m[k]? = some v ∧ f k v = some w := by
  simp only [comprehend, List.mem_filterMap, Option.map_eq_some_iff, Prod.mk.injEq, Prod.exists]
  constructor
  · rintro ⟨k', v, hm, w', hf, rfl, rfl⟩; exact ⟨v, mem_iter.1 hm, hf⟩
  · rintro ⟨v, hm, hf⟩; exact ⟨k, v, mem_iter.2 hm, w, hf, rfl, rfl⟩

theorem nodup_keys_comprehend (m : HashMap K V) (f : K → V → Option W) :
    ((comprehend m f).map Prod.fst).Nodup := by
  have hsub : ((comprehend m f).map Prod.fst).Sublist (m.iter.map Prod.fst) := by
    unfold comprehend
    induction m.iter with
    | nil => simp
    | cons kv l ih =>
      cases hf : f kv.1 kv.2 with
      | none => simpa [hf] using ih.cons kv.1
      | some w => simpa [hf] using ih
  exact (nodup_keys_iter m).sublist hsub

theorem getElem?_collect_comprehend (m : HashMap K V) (f : K → V → Option W) (k : K) :
    (collect (comprehend m f))[k]? = m[k]?.bind (f k) := by
  refine Option.ext ?_
  intro w
  rw [getElem?_collect_iff (nodup_keys_comprehend m f), mem_comprehend, Option.bind_eq_some_iff]

omit [Std.LawfulEqOrd K] in
/-- `iter().filter(..).collect()` is such a comprehension. -/
theorem filter_iter (m : HashMap K V) (p : K × V → Bool) :
    m.iter.filter p = comprehend m fun k v => if p (k, v) then some v else none := by
  rw [comprehend, ← List.filterMap_eq_filter]
  refine List.filterMap_congr ?_
  intro kv _
  by_cases h : p kv <;> simp [h, Option.guard]

/-- One turn of a loop that inserts or does not. -/
def insertSome (m : HashMap K V) (k : K) : Option V → HashMap K V
  | none => m
  | some v => m.insert k v

omit [Std.LawfulEqOrd K] in
/-- So is a `for` loop that inserts at most once for each entry. -/
theorem foldl_iter (m : HashMap K V) (f : K → V → Option W) :
    m.iter.foldl (fun acc kv => insertSome acc kv.1 (f kv.1 kv.2)) (∅ : HashMap K W) =
      collect (comprehend m f) := by
  unfold comprehend collect
  generalize (∅ : HashMap K W) = acc
  induction m.iter generalizing acc with
  | nil => rfl
  | cons kv l ih =>
    cases hf : f kv.1 kv.2 with
    | none => simpa [hf, insertSome] using ih acc
    | some w => simpa [hf, insertSome] using ih (acc.insert kv.1 w)

/-- `values_mut()`: new values, in the order the old ones were visited, under the old keys. -/
def setValues (visited : List (K × V)) (values : List W) : HashMap K W :=
  collect ((visited.map Prod.fst).zip values)

theorem getElem?_setValues_map {m : HashMap K V} {visited : List (K × V)} (hp : visited.Perm m.iter)
    (f : V → W) (k : K) : (setValues visited ((visited.map Prod.snd).map f))[k]? = m[k]?.map f := by
  have hzip : (visited.map Prod.fst).zip ((visited.map Prod.snd).map f) =
      visited.map fun kv => (kv.1, f kv.2) := by
    rw [List.map_map, List.zip_map', Function.comp_def]
  have hkeys : ((visited.map fun kv => (kv.1, f kv.2)).map Prod.fst).Nodup := by
    rw [List.map_map]
    exact (hp.map _).nodup_iff.2 (nodup_keys_iter m)
  refine Option.ext ?_
  intro w
  rw [setValues, hzip, getElem?_collect_iff hkeys, List.mem_map, Option.map_eq_some_iff]
  constructor
  · rintro ⟨⟨k', v⟩, hm, he⟩
    obtain ⟨rfl, rfl⟩ := Prod.mk.inj he
    exact ⟨v, mem_iter.1 (hp.mem_iff.1 hm), rfl⟩
  · rintro ⟨v, hm, rfl⟩
    exact ⟨(k, v), hp.mem_iff.2 (mem_iter.2 hm), rfl⟩

end

end HashMap

end Coll
