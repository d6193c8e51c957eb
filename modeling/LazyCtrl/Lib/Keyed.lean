import Mathlib.Algebra.BigOperators.Group.List.Basic
import Mathlib.Algebra.Ring.Int.Defs
import Mathlib.Data.List.Nodup
import Mathlib.Data.List.Dedup

/-!
# Lists of keyed records

A table is a list of records that carry their own key; a search takes the first record with the
key.  The lemmas say what overwriting, appending, permuting and removing a record look like to a
search.
-/

class Keyed (α : Type*) (κ : outParam Type*) where
  key : α → κ

namespace Keyed

variable {α κ : Type*} [Keyed α κ]

def keys (items : List α) : List κ := items.map key

variable [DecidableEq κ]

def lookup (items : List α) (k : κ) : Option α := items.find? fun item => key item = k

def position (items : List α) (k : κ) : Option Nat := items.findIdx? fun item => key item = k

variable {items others : List α} {item : α} {k : κ} {i : Nat}

theorem position_eq_some (found : position items k = some i) :
    ∃ inside : i < items.length, key items[i] = k ∧ lookup items k = some items[i] := by
  obtain ⟨inside, here, before⟩ := List.findIdx?_eq_some_iff_getElem.mp found
  refine ⟨inside, by simpa using here, ?_⟩
  rw [lookup, List.find?_eq_some_iff_getElem]
  exact ⟨here, i, inside, rfl, fun j earlier => by simpa using before j earlier⟩

theorem position_eq_none : position items k = none ↔ ∀ item ∈ items, key item ≠ k := by
  simp [position, List.findIdx?_eq_none_iff]

theorem lookup_eq_none : lookup items k = none ↔ ∀ item ∈ items, key item ≠ k := by
  simp [lookup]

theorem lookup_isSome_iff : (lookup items k).isSome ↔ k ∈ keys items := by
  simp [lookup, keys, List.find?_isSome]

theorem lookup_key (found : lookup items k = some item) : key item = k := by
  simpa using List.find?_some found

theorem lookup_mem (found : lookup items k = some item) : item ∈ items :=
  List.mem_of_find?_eq_some found

theorem position_of_lookup (found : lookup items k = some item) :
    ∃ i, position items k = some i ∧ ∃ inside : i < items.length, items[i] = item := by
  cases search : position items k with
  | none => exact absurd (lookup_key found) (position_eq_none.mp search item (lookup_mem found))
  | some i =>
    obtain ⟨inside, -, here⟩ := position_eq_some search
    exact ⟨i, rfl, inside, Option.some.inj (here.symm.trans found)⟩

theorem lookup_eq_some_iff (nodup : (keys items).Nodup) :
    lookup items k = some item ↔ item ∈ items ∧ key item = k := by
  refine ⟨fun found => ⟨lookup_mem found, lookup_key found⟩, ?_⟩
  rintro ⟨member, rfl⟩
  obtain ⟨other, found⟩ : ∃ other, lookup items (key item) = some other :=
    Option.isSome_iff_exists.mp (lookup_isSome_iff.mpr (List.mem_map_of_mem member))
  have equal : other = item :=
    List.inj_on_of_nodup_map nodup (lookup_mem found) member (lookup_key found)
  rw [found, equal]

theorem lookup_perm (nodup : (keys items).Nodup) (perm : items.Perm others) (k : κ) :
    lookup items k = lookup others k := by
  have nodupOthers : (keys others).Nodup := (perm.map key).nodup nodup
  ext item
  rw [lookup_eq_some_iff nodup, lookup_eq_some_iff nodupOthers, perm.mem_iff]

theorem perm_of_lookup_eq (nodup : (keys items).Nodup) (nodupOthers : (keys others).Nodup)
    (same : ∀ k : κ, lookup items k = lookup others k) : items.Perm others := by
  rw [List.perm_ext_iff_of_nodup (List.Nodup.of_map _ nodup) (List.Nodup.of_map _ nodupOthers)]
  intro item
  have here : lookup items (key item) = some item ↔ item ∈ items ∧ key item = key item :=
    lookup_eq_some_iff nodup
  have there : lookup others (key item) = some item ↔ item ∈ others ∧ key item = key item :=
    lookup_eq_some_iff nodupOthers
  rw [same (key item), there] at here
  simpa using here.symm

theorem lookup_set (found : position items k = some i) (item : α) (sameKey : key item = k)
    (other : κ) :
    lookup (items.set i item) other = if other = k then some item else lookup items other := by
  induction items generalizing i with
  | nil => simp [position] at found
  | cons head tail ih =>
    by_cases here : key head = k
    · obtain rfl : i = 0 := by simpa [position, List.findIdx?_cons, here] using found.symm
      by_cases equal : other = k
      · simp [lookup, equal, sameKey]
      · simp [lookup, here, sameKey, Ne.symm equal, equal]
    · obtain ⟨j, rest, rfl⟩ : ∃ j, position tail k = some j ∧ i = j + 1 := by
        have shifted : (position tail k).map (· + 1) = some i := by
          simpa [position, List.findIdx?_cons, here] using found
        obtain ⟨j, rest, rfl⟩ := Option.map_eq_some_iff.mp shifted
        exact ⟨j, rest, rfl⟩
      have next := ih rest
      by_cases headHit : key head = other
      · have differs : other ≠ k := headHit ▸ here
        simp [lookup, headHit, differs]
      · simpa [lookup, headHit] using next

theorem lookup_append (absent : lookup items (key item) = none) (other : κ) :
    lookup (items ++ [item]) other =
      if other = key item then some item else lookup items other := by
  by_cases equal : other = key item
  · subst equal
    rw [lookup] at absent ⊢
    simp [List.find?_append, absent]
  · simp [lookup, List.find?_append, equal, Ne.symm equal]

theorem keys_set (found : position items k = some i) (item : α) (sameKey : key item = k) :
    keys (items.set i item) = keys items := by
  obtain ⟨inside, keyEq, -⟩ := position_eq_some found
  have insideKeys : i < (keys items).length := by simpa [keys] using inside
  have same : (keys items)[i] = key item := by simp [keys, keyEq, sameKey]
  rw [keys, List.map_set, ← same]
  exact List.set_getElem_self insideKeys

theorem keys_append_nodup (nodup : (keys items).Nodup)
    (absent : lookup items (key item) = none) : (keys (items ++ [item])).Nodup := by
  have fresh : key item ∉ keys items := by
    rw [← lookup_isSome_iff, absent]
    simp
  rw [keys, List.map_append, List.map_singleton]
  exact List.Nodup.append nodup (List.nodup_singleton _) (List.disjoint_singleton.mpr fresh)

theorem lookup_of_cons_perm (nodup : (keys others).Nodup) (perm : (item :: items).Perm others)
    (other : κ) :
    lookup items other = if other = key item then none else lookup others other := by
  have consNodup : (keys (item :: items)).Nodup := (perm.map key).nodup_iff.mpr nodup
  have absent : key item ∉ keys items := (List.nodup_cons.mp consNodup).1
  split
  · rename_i equal
    rwa [← Option.not_isSome_iff_eq_none, lookup_isSome_iff, equal]
  · rename_i differs
    rw [← lookup_perm consNodup perm]
    simp [lookup, Ne.symm differs]

def upsert (items : List α) (k : κ) (record : Option α → α) : List α :=
  match position items k with
  | some i => items.set i (record items[i]?)
  | none => items ++ [record none]

section Upsert

variable {record : Option α → α}

def KeepsKey (k : κ) (record : Option α → α) : Prop :=
  ∀ present, (∀ item, present = some item → key item = k) → key (record present) = k

theorem KeepsKey.lookup (sameKey : KeepsKey k record) : key (record (lookup items k)) = k :=
  sameKey _ fun _ => lookup_key

omit [DecidableEq κ] in
theorem KeepsKey.none (sameKey : KeepsKey k record) : key (record none) = k :=
  sameKey _ fun _ found => by cases found

theorem lookup_upsert (sameKey : KeepsKey k record) (other : κ) :
    lookup (upsert items k record) other =
      if other = k then some (record (lookup items k)) else lookup items other := by
  cases search : position items k with
  | some i =>
    obtain ⟨inside, -, found⟩ := position_eq_some search
    simp only [upsert, search, List.getElem?_eq_getElem inside, ← found]
    rw [lookup_set search _ sameKey.lookup]
  | none =>
    have absent : lookup items k = none := lookup_eq_none.mpr (position_eq_none.mp search)
    simp only [upsert, search, absent]
    rw [lookup_append (by rwa [sameKey.none]), sameKey.none]

theorem keys_upsert_nodup (sameKey : KeepsKey k record) (nodup : (keys items).Nodup) :
    (keys (upsert items k record)).Nodup := by
  cases search : position items k with
  | some i =>
    obtain ⟨inside, -, found⟩ := position_eq_some search
    simp only [upsert, search, List.getElem?_eq_getElem inside, ← found]
    rwa [keys_set search _ sameKey.lookup]
  | none =>
    have absent : lookup items k = none := lookup_eq_none.mpr (position_eq_none.mp search)
    simp only [upsert, search]
    exact keys_append_nodup nodup (by rwa [sameKey.none])

theorem mem_keys_upsert (sameKey : KeepsKey k record) {other : κ} :
    other ∈ keys (upsert items k record) ↔ other = k ∨ other ∈ keys items := by
  rw [← lookup_isSome_iff, lookup_upsert sameKey, ← lookup_isSome_iff]
  split <;> simp [*]

theorem length_upsert (items : List α) (k : κ) (record : Option α → α) :
    (upsert items k record).length =
      if (lookup items k).isSome then items.length else items.length + 1 := by
  cases search : position items k with
  | some i =>
    obtain ⟨inside, -, found⟩ := position_eq_some search
    simp [upsert, search, found]
  | none =>
    have absent : lookup items k = none := lookup_eq_none.mpr (position_eq_none.mp search)
    simp [upsert, search, absent]

theorem upsert_of_absent (absent : lookup items k = none) :
    upsert items k record = items ++ [record none] := by
  have search : position items k = none := position_eq_none.mpr (lookup_eq_none.mp absent)
  rw [upsert, search]

theorem upsert_upsert_of_absent {first : Option α → α} (sameKey : KeepsKey k first)
    (absent : lookup items k = none) :
    upsert (upsert items k first) k record = items ++ [record (some (first none))] := by
  have search : position (items ++ [first none]) k = some items.length := by
    have before := position_eq_none.mpr (lookup_eq_none.mp absent)
    rw [position] at before ⊢
    simp [List.findIdx?_append, before, sameKey.none]
  rw [upsert_of_absent absent, upsert, search]
  simp

section Total

omit [DecidableEq κ] [Keyed α κ]

def total (weight : α → Nat) : List α → Nat
  | [] => 0
  | item :: items => weight item + total weight items

theorem total_append (weight : α → Nat) (items others : List α) :
    total weight (items ++ others) = total weight items + total weight others := by
  induction items with
  | nil => exact (Nat.zero_add _).symm
  | cons item items ih => rw [List.cons_append, total, total, ih, Nat.add_assoc]

theorem total_one (items : List α) : total (fun _ => 1) items = items.length := by
  induction items with
  | nil => rfl
  | cons item items ih => rw [total, ih, List.length_cons, Nat.add_comm]

theorem total_perm (weight : α → Nat) (perm : items.Perm others) :
    total weight items = total weight others := by
  induction perm with
  | nil => rfl
  | cons item _ ih => rw [total, total, ih]
  | swap => exact Nat.add_left_comm _ _ _
  | trans _ _ first second => exact first.trans second

theorem total_set (weight : α → Nat) (items : List α) {i : Nat} (inside : i < items.length)
    (item : α) :
    total weight (items.set i item) + weight items[i] = total weight items + weight item := by
  induction items generalizing i with
  | nil => cases inside
  | cons head tail ih =>
    cases i with
    | zero =>
      rw [List.set_cons_zero, List.getElem_cons_zero, total, total]
      omega
    | succ i =>
      have rest := ih (Nat.lt_of_succ_lt_succ inside)
      rw [List.set_cons_succ, List.getElem_cons_succ, total, total]
      omega

end Total

theorem total_upsert_le (weight : α → Nat) {c : Nat}
    (grows : ∀ present, weight (record present) ≤ (present.map weight).getD 0 + c)
    (items : List α) (k : κ) :
    total weight (upsert items k record) ≤ total weight items + c := by
  cases search : position items k with
  | some i =>
    obtain ⟨inside, -, -⟩ := position_eq_some search
    have here := grows (some items[i])
    have sum := total_set weight items inside (record (some items[i]))
    simp only [upsert, search, List.getElem?_eq_getElem inside]
    simp only [Option.map_some, Option.getD_some] at here
    omega
  | none =>
    have fresh := grows none
    simp only [Option.map_none, Option.getD_none] at fresh
    simp only [upsert, search, total_append, total]
    omega

variable {β : Type*} {keyOf : β → κ} {step : β → Option α → α}

def collect (keyOf : β → κ) (step : β → Option α → α) (items : List α) (elements : List β) :
    List α :=
  elements.foldl (fun items element => upsert items (keyOf element) (step element)) items

theorem lookup_collect (sameKey : ∀ element, KeepsKey (keyOf element) (step element))
    (elements : List β) (items : List α) (k : κ) :
    lookup (collect keyOf step items elements) k =
      (elements.filter fun element => keyOf element = k).foldl
        (fun present element => some (step element present)) (lookup items k) := by
  induction elements generalizing items with
  | nil => rfl
  | cons element elements ih =>
    have first := @lookup_upsert _ _ _ _ items _ _ (sameKey element) k
    rw [collect, List.foldl_cons, ← collect, ih, first]
    by_cases here : keyOf element = k
    · simp [here]
    · simp [here, Ne.symm here]

theorem total_collect_le (weight : α → Nat) {c : Nat} {elements : List β}
    (grows : ∀ element ∈ elements, ∀ present,
      weight (step element present) ≤ (present.map weight).getD 0 + c) (items : List α) :
    total weight (collect keyOf step items elements) ≤
      total weight items + c * elements.length := by
  induction elements generalizing items with
  | nil => exact Nat.le_refl _
  | cons element elements ih =>
    obtain ⟨here, later⟩ := List.forall_mem_cons.mp grows
    have first := total_upsert_le weight here items (keyOf element)
    have rest := ih later (upsert items (keyOf element) (step element))
    rw [collect, List.foldl_cons, ← collect, List.length_cons, Nat.mul_succ]
    omega

theorem keys_collect_nodup
    (sameKey : ∀ element, KeepsKey (keyOf element) (step element))
    (elements : List β) (nodup : (keys items).Nodup) :
    (keys (collect keyOf step items elements)).Nodup := by
  induction elements generalizing items with
  | nil => exact nodup
  | cons element elements ih => exact ih (keys_upsert_nodup (sameKey element) nodup)

theorem mem_keys_collect (sameKey : ∀ element, KeepsKey (keyOf element) (step element))
    (elements : List β) (k : κ) :
    k ∈ keys (collect keyOf step [] elements) ↔ k ∈ elements.map keyOf := by
  have someOf : ∀ (elements : List β) (present : Option α), elements ≠ [] →
      (elements.foldl (fun present element => some (step element present)) present).isSome := by
    intro elements present nonempty
    obtain ⟨front, last, rfl⟩ := (List.eq_nil_or_concat' elements).resolve_left nonempty
    simp
  rw [← lookup_isSome_iff, lookup_collect sameKey]
  by_cases none_ : elements.filter (fun element => keyOf element = k) = []
  · have absent := List.filter_eq_nil_iff.mp none_
    simp only [none_, List.mem_map]
    simpa [lookup] using absent
  · simp only [someOf _ _ none_, true_iff]
    obtain ⟨element, member⟩ := List.exists_mem_of_ne_nil _ none_
    obtain ⟨inside, here⟩ := List.mem_filter.mp member
    exact List.mem_map.mpr ⟨element, inside, by simpa using here⟩

theorem keys_collect_perm (sameKey : ∀ element, KeepsKey (keyOf element) (step element))
    (elements : List β) :
    (keys (collect keyOf step [] elements)).Perm (elements.map keyOf).dedup := by
  have nodup : (keys (collect keyOf step [] elements)).Nodup :=
    keys_collect_nodup sameKey elements List.nodup_nil
  rw [List.perm_ext_iff_of_nodup nodup (List.nodup_dedup _)]
  intro k
  rw [mem_keys_collect sameKey, List.mem_dedup]

section Size

variable (size : α → Int)

omit [Keyed α κ] [DecidableEq κ] in
theorem sum_map_set (items : List α) {i : Nat} (inside : i < items.length) (item : α) :
    ((items.set i item).map size).sum + size items[i] = (items.map size).sum + size item := by
  induction items generalizing i with
  | nil => cases inside
  | cons head tail ih =>
    cases i with
    | zero =>
      rw [List.set_cons_zero, List.getElem_cons_zero, List.map_cons, List.map_cons,
        List.sum_cons, List.sum_cons]
      omega
    | succ i =>
      have rest := ih (Nat.lt_of_succ_lt_succ inside)
      rw [List.set_cons_succ, List.getElem_cons_succ, List.map_cons, List.map_cons,
        List.sum_cons, List.sum_cons]
      omega

theorem sum_upsert_eq (items : List α) (k : κ) (record : Option α → α) :
    ((upsert items k record).map size).sum + ((lookup items k).map size).getD 0 =
      (items.map size).sum + size (record (lookup items k)) := by
  cases search : position items k with
  | some i =>
    obtain ⟨inside, -, found⟩ := position_eq_some search
    have sum := sum_map_set size items inside (record (some items[i]))
    simp only [upsert, search, List.getElem?_eq_getElem inside, found]
    exact sum
  | none =>
    have absent : lookup items k = none := lookup_eq_none.mpr (position_eq_none.mp search)
    simp only [upsert, search, absent, List.map_append, List.map_singleton, List.sum_append,
      List.sum_singleton]
    exact Int.add_zero _

theorem sum_upsert {c : Int}
    (grows : ∀ present, (∀ item, present = some item → key item = k) →
      size (record present) = (present.map size).getD 0 + c) (items : List α) :
    ((upsert items k record).map size).sum = (items.map size).sum + c := by
  have assigned := sum_upsert_eq size items k record
  rw [grows (lookup items k) fun item found => lookup_key found] at assigned
  omega

theorem sum_collect {amount : β → Int}
    (grows : ∀ element present, (∀ item, present = some item → key item = keyOf element) →
      size (step element present) = (present.map size).getD 0 + amount element)
    (elements : List β) (items : List α) :
    ((collect keyOf step items elements).map size).sum =
      (items.map size).sum + (elements.map amount).sum := by
  induction elements generalizing items with
  | nil => simp [collect]
  | cons element elements ih =>
    rw [collect, List.foldl_cons, ← collect, ih, sum_upsert size (grows element),
      List.map_cons, List.sum_cons, Int.add_assoc]

theorem sum_of_key (nodup : (keys items).Nodup) (k : κ) :
    (items.map fun item => if key item = k then size item else 0).sum =
      ((lookup items k).map size).getD 0 := by
  induction items with
  | nil => rfl
  | cons head tail ih =>
    rw [keys, List.map_cons, List.nodup_cons] at nodup
    rw [List.map_cons, List.sum_cons, ih nodup.2]
    by_cases here : key head = k
    · have absent : lookup tail k = none := by
        rw [← Option.not_isSome_iff_eq_none, lookup_isSome_iff]
        exact here ▸ nodup.1
      have found : lookup (head :: tail) k = some head := by simp [lookup, here]
      rw [if_pos here, absent, found]
      exact Int.add_zero _
    · have next : lookup (head :: tail) k = lookup tail k := by simp [lookup, here]
      rw [if_neg here, next, Int.zero_add]

theorem size_of_mem_collect (sameKey : ∀ element, KeepsKey (keyOf element) (step element))
    (grows : ∀ element present, size (step element present) = (present.map size).getD 0 + 1)
    {elements : List β} (member : item ∈ collect keyOf step [] elements) :
    size item = (elements.map keyOf).count (key item) := by
  have counted : ∀ (elements : List β) (present : Option α),
      ((elements.foldl (fun present element => some (step element present)) present).map
        size).getD 0 = (present.map size).getD 0 + elements.length := by
    intro elements
    induction elements with
    | nil => simp
    | cons element elements ih =>
      intro present
      rw [List.foldl_cons, ih, Option.map_some, Option.getD_some, grows, List.length_cons]
      omega
  have nodup : (keys (collect keyOf step [] elements)).Nodup :=
    keys_collect_nodup sameKey elements List.nodup_nil
  have found : lookup (collect keyOf step [] elements) (key item) = some item :=
    (lookup_eq_some_iff nodup).mpr ⟨member, rfl⟩
  have total := counted (elements.filter fun element => keyOf element = key item) none
  have start : lookup ([] : List α) (key item) = none := rfl
  rw [← start, ← lookup_collect sameKey, found] at total
  rw [List.count_eq_countP, List.countP_map, List.countP_eq_length_filter]
  simpa [start, Function.comp_def, beq_eq_decide] using total

end Size

end Upsert

end Keyed
