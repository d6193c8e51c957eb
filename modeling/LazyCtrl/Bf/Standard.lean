import LazyCtrl.Bf.Table

/-!
# Filters of the default length

Every filter that the program creates itself has the default length and both hash functions, so a
string probes the same positions in all of them.  A table of such filters is searched and extended
without any undefined step, and what it reports depends on the arrays only.
-/

namespace LazyCtrl

open Keyed

def stdProbes (s : List Byte) : Set Nat :=
  {i | ∃ func ∈ hashFunctions, i = (func.apply s).toNat % lcBfDftLen.toNat}

def Covers (array : BitArray) (s : List Byte) : Prop := Bloom.Reports stdProbes (bitsOf array) s

def BloomFilter.Standard (bf : BloomFilter) : Prop :=
  bf.len = lcBfDftLen ∧ bf.funcs = hashFunctions

structure StdTable (filters : List BloomFilter) : Prop where
  nodup : (keys filters).Nodup
  standard : ∀ bf ∈ filters, bf.Standard

variable {filters : List BloomFilter} {bf : BloomFilter}

theorem BloomFilter.Standard.probes_eq (standard : bf.Standard) : bf.probes = stdProbes := by
  funext s
  rw [BloomFilter.probes, standard.1, standard.2]
  rfl

theorem not_reports_of_empty {bf : BloomFilter} (standard : bf.Standard)
    (empty : bf.array = fun _ => 0) (s : List Byte) : ¬ Bloom.Reports bf.probes bf.bits s := by
  intro reports
  have probe : (Hashfunc.sax.apply s).toNat % bf.len.toNat ∈ bf.probes s :=
    ⟨.sax, by rw [standard.2]; decide, rfl⟩
  obtain ⟨inside, bit⟩ := mem_bitsOf.mp (reports probe)
  simp [empty] at bit

theorem StdTable.wide (table : StdTable filters) : WideTable filters :=
  ⟨table.nodup, fun bf member => BloomFilter.nbytes_of_dftLen (table.standard bf member).1⟩

theorem StdTable.valid (table : StdTable filters) : ∀ bf ∈ filters, bf.Valid :=
  fun bf member => BloomFilter.valid_of_dftLen (table.standard bf member).1

theorem stdTable_nil : StdTable [] := ⟨by simp [keys], by simp⟩

theorem stdTable_empty (bfId : BitVec 32) (portNo : BitVec 16) :
    StdTable [.empty bfId portNo] := by
  refine ⟨by simp [keys], fun bf member => ?_⟩
  obtain rfl := List.mem_singleton.mp member
  exact ⟨rfl, rfl⟩

theorem Updated.stdTable {alloc : Alloc} {after : List BloomFilter} {ret : Int}
    (updated : Updated alloc filters bf after ret) (table : StdTable filters)
    (len : bf.len = lcBfDftLen) : StdTable after := by
  refine ⟨updated.table.nodup, fun stored member => ?_⟩
  rcases updated.shape stored member with ⟨old, oldMember, sameLen, sameFuncs⟩ | ⟨newLen, funcs⟩
  · obtain ⟨oldLen, oldFuncs⟩ := table.standard old oldMember
    exact ⟨sameLen.trans oldLen, sameFuncs.trans oldFuncs⟩
  · exact ⟨newLen.trans len, funcs⟩

theorem bfGdtCheck_of_covers {gdt : BfGdt} (holds : gdt.Holds filters) (table : StdTable filters)
    {bfId : BitVec 32} {array : BitArray} {s : List Byte}
    (found : contents filters bfId = some array) (covers : Covers array s) :
    ∃ slot, bfGdtCheck gdt s = some (some slot) := by
  obtain ⟨bf, search, rfl⟩ := Option.map_eq_some_iff.mp found
  have member := lookup_mem search
  obtain ⟨result, returned, meaning⟩ := bfGdtCheck_of_holds holds table.valid s
  have reports : Bloom.Reports bf.probes bf.bits s := by
    rw [(table.standard bf member).probes_eq]
    exact covers
  obtain ⟨slot, rfl⟩ := Option.ne_none_iff_exists'.mp (meaning.mpr ⟨bf, member, reports⟩)
  exact ⟨slot, returned⟩

structure ItemAdded (filters : List BloomFilter) (bfId : BitVec 32) (s : List Byte)
    (after : List BloomFilter) : Prop where
  table : StdTable after
  keys_eq : keys after = keys filters
  contents_of_ne : ∀ other, other ≠ bfId → contents after other = contents filters other
  covers : ∃ array, contents after bfId = some array ∧ Covers array s ∧
    ∀ old, contents filters bfId = some old → bitsOf old ⊆ bitsOf array

theorem tableAddItem_of_found (table : StdTable filters) {bfId : BitVec 32}
    (found : lookup filters bfId = some bf) (s : List Byte) :
    ∃ after, tableAddItem filters bfId s = some (after, 0) ∧ ItemAdded filters bfId s after := by
  have member := lookup_mem found
  have standard := table.standard _ member
  obtain ⟨i, array, search, added, bits⟩ := tableAddItem_of_valid found (table.valid _ member) s
  have sameId : ({ bf with array } : BloomFilter).bfId = bfId := lookup_key found
  have sameKeys := keys_set search { bf with array } sameId
  have after : ∀ other, contents (filters.set i { bf with array }) other =
      if other = bfId then some array else contents filters other := fun other => by
    rw [contents, lookup_set search _ sameId]
    split <;> simp [contents]
  rw [standard.probes_eq] at bits
  refine ⟨filters.set i { bf with array }, added, ⟨sameKeys ▸ table.nodup, ?_⟩, sameKeys,
    fun other differs => by rw [after, if_neg differs], array, by rw [after, if_pos rfl], ?_, ?_⟩
  · intro stored storedMember
    rcases List.mem_or_eq_of_mem_set storedMember with old | rfl
    · exact table.standard stored old
    · exact standard
  · rw [Covers, bits]
    exact Bloom.reports_add_self stdProbes _ s
  · intro old oldFound
    rw [contents, found] at oldFound
    obtain rfl := Option.some.inj oldFound
    rw [bits]
    exact Bloom.subset_add stdProbes _ s

end LazyCtrl
