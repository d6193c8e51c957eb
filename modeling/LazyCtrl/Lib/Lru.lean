import LazyCtrl.Lib.Keyed
import Mathlib.Data.List.Dedup
import Mathlib.Data.List.Perm.Subperm

/-!
# Bounded maps in order of use

A linked hash map in access order with a rule that removes the eldest entry as soon as there are more
entries than allowed.  The entries are listed in the order of their last use.  A search does not see
this order; it decides only which key an insertion drops, and that key is one after whose last use as
many others have been used as the map may hold.
-/

structure LruEntry (κ ν : Type*) where
  key : κ
  value : ν
  deriving DecidableEq, Repr

instance {κ ν : Type*} : Keyed (LruEntry κ ν) κ := ⟨LruEntry.key⟩

@[simp]
theorem LruEntry.keyed_key {κ ν : Type*} (entry : LruEntry κ ν) : Keyed.key entry = entry.key := rfl

structure LruMap (κ ν : Type*) (capacity : Nat) where
  entries : List (LruEntry κ ν)
  nodup : (Keyed.keys entries).Nodup
  bounded : entries.length ≤ capacity

namespace LruMap

variable {κ ν : Type*} {capacity : Nat}

def empty : LruMap κ ν capacity := ⟨[], List.nodup_nil, Nat.zero_le _⟩

/-- The entries stand in the order of their last use, where `since` gives the keys that were used
after the last use of a key. -/
def Ordered (since : κ → List κ) (map : LruMap κ ν capacity) : Prop :=
  map.entries.Pairwise fun older newer => newer.key ∈ since older.key

theorem ordered_empty (since : κ → List κ) : (empty : LruMap κ ν capacity).Ordered since :=
  List.Pairwise.nil

variable [DecidableEq κ]

def find (map : LruMap κ ν capacity) (k : κ) : Option ν :=
  (Keyed.lookup map.entries k).map LruEntry.value

def others (map : LruMap κ ν capacity) (k : κ) : List (LruEntry κ ν) :=
  map.entries.filter fun entry => entry.key ≠ k

theorem others_sublist (map : LruMap κ ν capacity) (k : κ) :
    (map.others k).Sublist map.entries :=
  List.filter_sublist

theorem nodup_others (map : LruMap κ ν capacity) (k : κ) : (Keyed.keys (map.others k)).Nodup :=
  map.nodup.sublist ((map.others_sublist k).map _)

theorem lookup_others (map : LruMap κ ν capacity) (k other : κ) :
    Keyed.lookup (map.others k) other =
      if other = k then none else Keyed.lookup map.entries other := by
  split
  · rename_i equal
    rw [Keyed.lookup_eq_none, equal]
    intro entry member
    simpa using (List.mem_filter.mp member).2
  · rename_i differs
    rw [Keyed.lookup, Keyed.lookup, others, List.find?_filter]
    refine congrArg (List.find? · _) (funext fun entry => ?_)
    by_cases hit : entry.key = other
    · simp [hit, differs]
    · simp [hit]

def used (map : LruMap κ ν capacity) (entry : LruEntry κ ν) : List (LruEntry κ ν) :=
  map.others entry.key ++ [entry]

theorem lookup_others_self (map : LruMap κ ν capacity) (entry : LruEntry κ ν) :
    Keyed.lookup (map.others entry.key) (Keyed.key entry) = none := by
  rw [lookup_others, LruEntry.keyed_key, if_pos rfl]

theorem nodup_used (map : LruMap κ ν capacity) (entry : LruEntry κ ν) :
    (Keyed.keys (map.used entry)).Nodup :=
  Keyed.keys_append_nodup (map.nodup_others _) (map.lookup_others_self entry)

theorem length_used_le (map : LruMap κ ν capacity) (entry : LruEntry κ ν) :
    (map.used entry).length ≤ capacity + 1 := by
  rw [used, List.length_append, List.length_singleton]
  exact Nat.succ_le_succ (Nat.le_trans (map.others_sublist _).length_le map.bounded)

theorem lookup_used (map : LruMap κ ν capacity) (entry : LruEntry κ ν) (other : κ) :
    Keyed.lookup (map.used entry) other =
      if other = entry.key then some entry else Keyed.lookup map.entries other := by
  rw [used, Keyed.lookup_append (map.lookup_others_self entry), lookup_others, LruEntry.keyed_key]
  by_cases equal : other = entry.key
  · rw [if_pos equal, if_pos equal]
  · rw [if_neg equal, if_neg equal, if_neg equal]

theorem length_used_of_mem (map : LruMap κ ν capacity) {entry : LruEntry κ ν}
    (member : entry ∈ map.entries) : (map.used entry).length ≤ capacity := by
  have shorter : (map.others entry.key).length < map.entries.length :=
    List.length_filter_lt_length_iff_exists.mpr ⟨entry, member, by simp⟩
  rw [used, List.length_append, List.length_singleton]
  exact Nat.le_trans shorter map.bounded

def get (map : LruMap κ ν capacity) (k : κ) : Option ν × LruMap κ ν capacity :=
  match found : Keyed.lookup map.entries k with
  | none => (none, map)
  | some entry =>
    (some entry.value,
      ⟨map.used entry, map.nodup_used entry,
        map.length_used_of_mem (Keyed.lookup_mem found)⟩)

def evicted (map : LruMap κ ν capacity) (entry : LruEntry κ ν) : Option κ :=
  if capacity < (map.used entry).length then (map.used entry).head?.map LruEntry.key else none

def put (map : LruMap κ ν capacity) (entry : LruEntry κ ν) : LruMap κ ν capacity :=
  if full : capacity < (map.used entry).length then
    ⟨(map.used entry).tail, (map.nodup_used entry).sublist ((List.tail_sublist _).map _), by
      have atMost := map.length_used_le entry
      rw [List.length_tail]
      omega⟩
  else ⟨map.used entry, map.nodup_used entry, Nat.le_of_not_lt full⟩

def remove (map : LruMap κ ν capacity) (k : κ) : LruMap κ ν capacity :=
  ⟨map.others k, map.nodup_others k,
    Nat.le_trans (map.others_sublist k).length_le map.bounded⟩

@[simp]
theorem find_empty (k : κ) : (empty : LruMap κ ν capacity).find k = none := rfl

theorem get_fst (map : LruMap κ ν capacity) (k : κ) : (map.get k).1 = map.find k := by
  rw [get, find]
  split <;> rename_i found
  · rw [found, Option.map_none]
  · exact (congrArg (Option.map LruEntry.value) found).symm

theorem entries_get (map : LruMap κ ν capacity) (k : κ) :
    (map.find k = none ∧ (map.get k).2 = map) ∨
      ∃ entry, Keyed.lookup map.entries k = some entry ∧ (map.get k).2.entries = map.used entry := by
  rw [get, find]
  split <;> rename_i found
  · rw [found]
    exact Or.inl ⟨rfl, rfl⟩
  · exact Or.inr ⟨_, found, rfl⟩

theorem find_get (map : LruMap κ ν capacity) (k other : κ) :
    (map.get k).2.find other = map.find other := by
  obtain ⟨-, same⟩ | ⟨entry, found, entries⟩ := map.entries_get k
  · rw [same]
  · have keyEq : entry.key = k := Keyed.lookup_key found
    rw [find, entries, lookup_used, find, keyEq]
    split
    · rename_i equal
      rw [equal, found]
    · rfl

theorem find_put (map : LruMap κ ν capacity) (entry : LruEntry κ ν) (other : κ) :
    (map.put entry).find other =
      if map.evicted entry = some other then none
      else if other = entry.key then some entry.value else map.find other := by
  have fromUsed : (Keyed.lookup (map.used entry) other).map LruEntry.value =
      if other = entry.key then some entry.value else map.find other := by
    rw [lookup_used]
    split <;> rfl
  rw [put, evicted]
  split
  · rename_i full
    obtain ⟨eldest, rest, list⟩ := List.exists_cons_of_length_pos (Nat.zero_lt_of_lt full)
    have dropped := Keyed.lookup_of_cons_perm (map.nodup_used entry) (.of_eq list.symm) other
    rw [LruEntry.keyed_key] at dropped
    simp only [find, list, List.tail_cons, List.head?_cons, Option.map_some, Option.some.injEq]
    by_cases eldestHit : eldest.key = other
    · rw [if_pos eldestHit, dropped, if_pos eldestHit.symm, Option.map_none]
    · rw [if_neg eldestHit, dropped, if_neg (Ne.symm eldestHit), fromUsed]
      rfl
  · rw [if_neg (by simp)]
    exact fromUsed

theorem find_remove (map : LruMap κ ν capacity) (k other : κ) :
    (map.remove k).find other = if other = k then none else map.find other := by
  rw [find, remove, lookup_others]
  split <;> rfl

variable {since later : κ → List κ} {map : LruMap κ ν capacity}

theorem Ordered.used (ordered : map.Ordered since) {entry : LruEntry κ ν}
    (kept : ∀ k, k ≠ entry.key → since k ⊆ later k) (recent : ∀ k, k ≠ entry.key →
      entry.key ∈ later k) :
    (map.used entry).Pairwise fun older newer => newer.key ∈ later older.key := by
  have differs : ∀ older ∈ map.others entry.key, older.key ≠ entry.key := fun older member => by
    simpa using (List.mem_filter.mp member).2
  refine List.pairwise_append.mpr ⟨?_, List.pairwise_singleton _ _, ?_⟩
  · refine (ordered.sublist (map.others_sublist _)).imp_of_mem ?_
    intro older newer member _ before
    exact kept older.key (differs older member) before
  · intro older member newer last
    obtain rfl := List.mem_singleton.mp last
    exact recent older.key (differs older member)

theorem Ordered.get (ordered : map.Ordered since) {k : κ}
    (kept : ∀ other, other ≠ k → since other ⊆ later other)
    (recent : ∀ other, other ≠ k → k ∈ later other) (hit : map.find k ≠ none) :
    (map.get k).2.Ordered later := by
  obtain ⟨missing, -⟩ | ⟨entry, found, entries⟩ := map.entries_get k
  · exact absurd missing hit
  · obtain rfl : entry.key = k := Keyed.lookup_key found
    rw [Ordered, entries]
    exact ordered.used kept recent

theorem Ordered.put (ordered : map.Ordered since) {entry : LruEntry κ ν}
    (kept : ∀ k, k ≠ entry.key → since k ⊆ later k)
    (recent : ∀ k, k ≠ entry.key → entry.key ∈ later k) : (map.put entry).Ordered later := by
  have whole := ordered.used kept recent
  rw [Ordered, LruMap.put]
  split
  · exact whole.sublist (List.tail_sublist _)
  · exact whole

theorem Ordered.remove (ordered : map.Ordered since) (k : κ) : (map.remove k).Ordered since :=
  ordered.sublist (map.others_sublist k)

theorem Ordered.evicted (ordered : map.Ordered since) {entry : LruEntry κ ν} {eldest : κ}
    (later : κ → List κ) (kept : ∀ k, k ≠ entry.key → since k ⊆ later k)
    (recent : ∀ k, k ≠ entry.key → entry.key ∈ later k)
    (dropped : map.evicted entry = some eldest) : capacity ≤ (later eldest).dedup.length := by
  have whole := ordered.used kept recent
  have nodup := map.nodup_used entry
  rw [LruMap.evicted] at dropped
  split at dropped
  · rename_i full
    obtain ⟨first, rest, list⟩ := List.exists_cons_of_length_pos (Nat.zero_lt_of_lt full)
    rw [list] at whole nodup dropped full
    obtain rfl : first.key = eldest := by simpa using dropped
    have newer : Keyed.keys rest ⊆ (later first.key).dedup := by
      intro k member
      obtain ⟨other, inRest, rfl⟩ := List.mem_map.mp member
      exact List.mem_dedup.mpr (List.rel_of_pairwise_cons whole inRest)
    have enough := (List.subperm_of_subset (List.nodup_cons.mp nodup).2 newer).length_le
    rw [List.length_map] at enough
    rw [List.length_cons] at full
    omega
  · cases dropped

end LruMap
