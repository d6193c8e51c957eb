import LazyCtrl.Lib.Keyed
import LazyCtrl.Bf.Filter

/-!
# The group distribution table

The functions of `lib/bf-gdt.c`, which the daemon and the kernel module both compile.  A table has
64 slots of pointers and a counter of the slots in use.  A pointer to a filter is the number of the
slot that holds it.  A slot that is read while it is null has no defined outcome.

The second half of the file says what the functions do on a table whose slots in use are exactly
the first `nbf`: each one is a simple operation on the list of filters.
-/

namespace LazyCtrl

open Keyed

def bfGdtMaxFilters : Nat := 64

structure BfGdt where
  gid : BitVec 32
  nbf : Nat
  bfArray : List (Option BloomFilter)
  deriving DecidableEq

def bfGdtInit (gid : BitVec 32) : BfGdt :=
  { gid, nbf := 0, bfArray := List.replicate bfGdtMaxFilters none }

def BfGdt.slot (gdt : BfGdt) (i : Nat) : Option BloomFilter := (gdt.bfArray[i]?).join

def bfGdtAddFilter (alloc : Alloc) (gdt : BfGdt) (bfId : BitVec 32) (portNo : BitVec 16)
    (len : BitVec 32) : Option (BfGdt × Option Nat) :=
  if gdt.nbf ≥ bfGdtMaxFilters then
    some (gdt, none)
  else do
    match ← bfCreate alloc bfId len portNo 2 with
    | none => some (gdt, none)
    | some bf =>
      some ({ gdt with nbf := gdt.nbf + 1, bfArray := gdt.bfArray.set gdt.nbf (some bf) },
        some gdt.nbf)

def findSlot (bfId : BitVec 32) : List (Option BloomFilter) → Nat → Option (Option Nat)
  | _, 0 => some none
  | some bf :: slots, n + 1 =>
    if bf.bfId = bfId then some (some 0)
    else (findSlot bfId slots n).map fun found => found.map (· + 1)
  | _, _ + 1 => none

def bfGdtFindFilter (gdt : BfGdt) (bfId : BitVec 32) : Option (Option Nat) :=
  findSlot bfId gdt.bfArray gdt.nbf

def bfGdtDelFilter (gdt : BfGdt) (bfId : BitVec 32) : Option (BfGdt × Int) := do
  match ← findSlot bfId gdt.bfArray gdt.nbf with
  | none => some (gdt, 1)
  | some i =>
    let moved :=
      if i ≠ gdt.nbf - 1 then gdt.bfArray.set i (gdt.slot (gdt.nbf - 1)) else gdt.bfArray
    some ({ gdt with nbf := gdt.nbf - 1, bfArray := moved.set (gdt.nbf - 1) none }, 0)

def bfGdtInsertFilter (alloc : Alloc) (gdt : BfGdt) (bf : BloomFilter) :
    Option (BfGdt × Option Nat) := do
  match ← bfGdtAddFilter alloc gdt bf.bfId bf.portNo bf.len with
  | (gdt, none) => some (gdt, none)
  | (gdt, some i) =>
    let newBf ← gdt.slot i
    let array ← copyBytes newBf.array bf.array newBf.nbytes
    some ({ gdt with bfArray := gdt.bfArray.set i (some { newBf with array }) }, some i)

def bfGdtUpdateFilter (alloc : Alloc) (gdt : BfGdt) (bf : BloomFilter) : Option (BfGdt × Int) := do
  match ← bfGdtFindFilter gdt bf.bfId with
  | some i =>
    let matched ← gdt.slot i
    if ← sameBytes matched.array bf.array matched.nbytes then
      some (gdt, -1)
    else
      let array ← copyBytes matched.array bf.array matched.nbytes
      some ({ gdt with bfArray := gdt.bfArray.set i (some { matched with array }) }, 1)
  | none =>
    let (gdt, _) ← bfGdtInsertFilter alloc gdt bf
    some (gdt, 2)

def bfGdtDestroy : Option BfGdt → Option Int
  | none => some 0
  | some gdt => do
      for bf in gdt.bfArray.take gdt.nbf do
        bfDestroy (← bf)
      return 0

def bfGdtAddItem (gdt : BfGdt) (bfId : BitVec 32) (s : List Byte) : Option (BfGdt × Int) := do
  match ← findSlot bfId gdt.bfArray gdt.nbf with
  | none => some (gdt, -1)
  | some i =>
    let bf ← gdt.slot i
    let bf ← bfAdd bf s
    some ({ gdt with bfArray := gdt.bfArray.set i (some bf) }, 0)

def checkSlots (s : List Byte) : List (Option BloomFilter) → Nat → Option (Option Nat)
  | _, 0 => some none
  | some bf :: slots, n + 1 => do
      if ← bfCheck bf s then some (some 0)
      else (checkSlots s slots n).map fun found => found.map (· + 1)
  | _, _ + 1 => none

def bfGdtCheck (gdt : BfGdt) (s : List Byte) : Option (Option Nat) :=
  checkSlots s gdt.bfArray gdt.nbf

structure BfGdt.Holds (gdt : BfGdt) (filters : List BloomFilter) : Prop where
  nbf_eq : gdt.nbf = filters.length
  length_le : filters.length ≤ bfGdtMaxFilters
  slots_eq : gdt.bfArray =
    filters.map some ++ List.replicate (bfGdtMaxFilters - filters.length) none

theorem bfGdtInit_holds (gid : BitVec 32) : (bfGdtInit gid).Holds [] :=
  ⟨rfl, by decide, rfl⟩

instance : Keyed BloomFilter (BitVec 32) := ⟨BloomFilter.bfId⟩

@[simp]
theorem key_eq_bfId (bf : BloomFilter) : key bf = bf.bfId := rfl

namespace BfGdt.Holds

variable {gdt : BfGdt} {filters : List BloomFilter}

theorem slot_eq (holds : gdt.Holds filters) {i : Nat} (inside : i < filters.length) :
    gdt.slot i = some (filters[i]) := by
  simp [BfGdt.slot, holds.slots_eq, List.getElem?_append, inside]

theorem set (holds : gdt.Holds filters) {i : Nat} (inside : i < filters.length)
    (bf : BloomFilter) :
    { gdt with bfArray := gdt.bfArray.set i (some bf) }.Holds (filters.set i bf) := by
  refine ⟨by simpa using holds.nbf_eq, by simpa using holds.length_le, ?_⟩
  simp only [holds.slots_eq, List.length_set, List.map_set]
  rw [List.set_append_left _ _ (by simpa using inside)]

theorem append (holds : gdt.Holds filters) (room : filters.length < bfGdtMaxFilters)
    (bf : BloomFilter) :
    { gdt with nbf := gdt.nbf + 1, bfArray := gdt.bfArray.set gdt.nbf (some bf) }.Holds
      (filters ++ [bf]) := by
  refine ⟨by simp [holds.nbf_eq], by simpa using Nat.succ_le_of_lt room, ?_⟩
  obtain ⟨free, freeEq⟩ : ∃ free, bfGdtMaxFilters - filters.length = free + 1 :=
    ⟨bfGdtMaxFilters - filters.length - 1, by omega⟩
  have fewer : bfGdtMaxFilters - (filters ++ [bf]).length = free := by
    simp
    omega
  simp only [holds.slots_eq, holds.nbf_eq, freeEq, fewer, List.replicate_succ]
  rw [List.set_append_right _ _ (by simp)]
  simp

end BfGdt.Holds

private theorem findSlot_map_some (bfId : BitVec 32) (filters : List BloomFilter)
    (free : List (Option BloomFilter)) :
    findSlot bfId (filters.map some ++ free) filters.length =
      some (position filters bfId) := by
  induction filters with
  | nil => simp [findSlot, position]
  | cons bf filters ih =>
    by_cases found : bf.bfId = bfId
    · simp [findSlot, position, List.findIdx?_cons, found]
    · simp [findSlot, position, List.findIdx?_cons, found] at ih ⊢
      simp [ih]

theorem bfGdtFindFilter_of_holds {gdt : BfGdt} {filters : List BloomFilter}
    (holds : gdt.Holds filters) (bfId : BitVec 32) :
    bfGdtFindFilter gdt bfId = some (position filters bfId) := by
  rw [bfGdtFindFilter, holds.slots_eq, holds.nbf_eq, findSlot_map_some]

end LazyCtrl
