import LazyCtrl.Bf.Table

/-!
# Filters of any admitted length

The program creates all its filters with 1024 bits, but its functions take any length.  They clear,
copy and compare `len/8` bytes, while a string probes bits up to `len - 1`.  So the bits of the last
byte are neither cleared nor copied when the length is not a multiple of 8, and an update keeps the
length of the filter that it overwrites.
-/

namespace LazyCtrl

open Keyed

def Admitted (len : BitVec 32) : Prop := 1 ≤ len.toNat ∧ len.toNat ≤ 1024

instance (len : BitVec 32) : Decidable (Admitted len) := inferInstanceAs (Decidable (_ ∧ _))

/-- A filter that `bf_create` makes of a piece of the heap, after some calls of `bf_add`. -/
def madeFilter (heap : BitArray) (bfId len : BitVec 32) (portNo : BitVec 16)
    (strings : List (List Byte)) : Option BloomFilter :=
  (bfCreate (some heap) bfId len portNo 2).join.bind fun bf => strings.foldlM bfAdd bf

/-- What a client expects of filters of a length, and of their copies in a table.  The second
argument is the length of the filter that the table has under the same id before an update. -/
structure FilterSound (len : BitVec 32) (old : Option (BitVec 32)) : Prop where
  empty : ∀ heap bfId portNo s,
    ∃ bf, madeFilter heap bfId len portNo [] = some bf ∧ bfCheck bf s = some false
  added : ∀ heap bfId portNo strings,
    ∃ bf, madeFilter heap bfId len portNo strings = some bf ∧
      ∀ s ∈ strings, bfCheck bf s = some true
  inserted : ∀ heap bfId portNo strings bf, madeFilter heap bfId len portNo strings = some bf →
    ∀ (gdt : BfGdt) filters, gdt.Holds filters → filters.length < bfGdtMaxFilters → ∀ newHeap,
      ∃ after slot copy, bfGdtInsertFilter (some newHeap) gdt bf = some (after, some slot) ∧
        after.slot slot = some copy ∧ ∀ s, bfCheck copy s = bfCheck bf s
  updated : ∀ heap bfId portNo strings bf, madeFilter heap bfId len portNo strings = some bf →
    ∀ (gdt : BfGdt) filters, gdt.Holds filters → (lookup filters bfId).map BloomFilter.len = old →
      (∀ matched ∈ lookup filters bfId, matched.funcs = hashFunctions) →
      (old = none → filters.length < bfGdtMaxFilters) → ∀ newHeap,
        ∃ after ret slot copy, bfGdtUpdateFilter (some newHeap) gdt bf = some (after, ret) ∧
          bfGdtFindFilter after bfId = some (some slot) ∧ after.slot slot = some copy ∧
          ∀ s, bfCheck copy s = bfCheck bf s

theorem mem_bitsOf_congr {array other : BitArray} {i : Nat}
    (same : ∀ inside : i / sizeChar < 128, array ⟨i / sizeChar, inside⟩ = other ⟨_, inside⟩) :
    i ∈ bitsOf array ↔ i ∈ bitsOf other := by
  rw [mem_bitsOf, mem_bitsOf]
  exact exists_congr fun inside => by rw [same inside]

theorem not_mem_bitsOf_zero {array : BitArray} {i : Nat}
    (zero : ∀ inside : i / sizeChar < 128, array ⟨i / sizeChar, inside⟩ = 0) :
    i ∉ bitsOf array := by
  rw [mem_bitsOf]
  rintro ⟨inside, bit⟩
  rw [zero inside] at bit
  simp at bit

theorem lt_of_mem_probes {bf : BloomFilter} (valid : bf.Valid) {s : List Byte} {i : Nat}
    (probe : i ∈ bf.probes s) : i < bf.len.toNat := by
  obtain ⟨func, -, rfl⟩ := probe
  exact Nat.mod_lt _ valid.1

theorem bfCheck_congr {bf other : BloomFilter} (valid : bf.Valid) (len : other.len = bf.len)
    (funcs : other.funcs = bf.funcs) (bits : ∀ i < bf.len.toNat, i ∈ other.bits ↔ i ∈ bf.bits)
    (s : List Byte) : bfCheck other s = bfCheck bf s := by
  have otherValid : other.Valid := by rwa [BloomFilter.Valid, len]
  have probes : other.probes s = bf.probes s := by
    rw [BloomFilter.probes, BloomFilter.probes, len, funcs]
  obtain ⟨result, returned, meaning⟩ := bfCheck_of_valid valid s
  obtain ⟨otherResult, otherReturned, otherMeaning⟩ := bfCheck_of_valid otherValid s
  have same : otherResult = result := by
    rw [Bool.eq_iff_iff, otherMeaning, meaning, Bloom.Reports, Bloom.Reports, probes]
    exact forall₂_congr fun i probe => bits i (lt_of_mem_probes valid probe)
  rw [otherReturned, returned, same]

theorem foldlM_bfAdd {bf : BloomFilter} (valid : bf.Valid) (strings : List (List Byte)) :
    ∃ array, strings.foldlM bfAdd bf = some { bf with array } ∧
      bitsOf array = bf.bits ∪ {i | ∃ s ∈ strings, i ∈ bf.probes s} := by
  induction strings generalizing bf with
  | nil => exact ⟨bf.array, rfl, by simp [BloomFilter.bits]⟩
  | cons s strings ih =>
    obtain ⟨array, first, firstBits⟩ := bfAdd_of_valid valid s
    obtain ⟨final, rest, finalBits⟩ := @ih { bf with array } valid
    refine ⟨final, ?_, ?_⟩
    · rw [List.foldlM_cons, first]
      exact rest
    · have middle : ({ bf with array } : BloomFilter).bits = Bloom.add bf.probes bf.bits s :=
        firstBits
      rw [finalBits, middle]
      ext i
      simp only [Bloom.add, Set.mem_union, Set.mem_ofPred_eq, List.mem_cons, exists_eq_or_imp,
        or_assoc]
      rfl

def clearedHeap (heap : BitArray) (len : BitVec 32) : BitArray :=
  fun i => if i.val < len.toNat / sizeChar then 0 else heap i

structure Made (heap : BitArray) (bfId len : BitVec 32) (portNo : BitVec 16)
    (strings : List (List Byte)) (bf : BloomFilter) : Prop where
  bfId_eq : bf.bfId = bfId
  len_eq : bf.len = len
  portNo_eq : bf.portNo = portNo
  funcs_eq : bf.funcs = hashFunctions
  mem_bits : ∀ i, i ∈ bf.bits ↔ i ∈ bitsOf (clearedHeap heap len) ∨ ∃ s ∈ strings, i ∈ bf.probes s

section Made

variable {heap : BitArray} {bfId len : BitVec 32} {portNo : BitVec 16}
  {strings : List (List Byte)} {bf : BloomFilter}

theorem exists_made (admitted : Admitted len) (heap : BitArray) (bfId : BitVec 32)
    (portNo : BitVec 16) (strings : List (List Byte)) :
    ∃ bf, madeFilter heap bfId len portNo strings = some bf ∧
      Made heap bfId len portNo strings bf := by
  have few : len.toNat / sizeChar ≤ 128 := by
    have := admitted.2
    rw [sizeChar]
    omega
  obtain ⟨array, added, bits⟩ := @foldlM_bfAdd
    { bfId, len, portNo, array := clearedHeap heap len, funcs := hashFunctions } admitted strings
  refine ⟨{ bfId, len, portNo, array, funcs := hashFunctions }, ?_, rfl, rfl, rfl, rfl,
    fun i => ?_⟩
  · have created : bfCreate (some heap) bfId len portNo 2 =
        some (some { bfId, len, portNo, array := clearedHeap heap len, funcs := hashFunctions }) := by
      simp only [bfCreate, clearBytes, few, hashFunctions, List.length_cons, List.length_nil]
      rfl
    rw [madeFilter, created]
    exact added
  · rw [BloomFilter.bits, bits]
    rfl

theorem made_of_madeFilter (admitted : Admitted len)
    (made : madeFilter heap bfId len portNo strings = some bf) :
    Made heap bfId len portNo strings bf := by
  obtain ⟨other, same, facts⟩ := exists_made admitted heap bfId portNo strings
  obtain rfl := Option.some.inj (same.symm.trans made)
  exact facts

theorem Made.valid (made : Made heap bfId len portNo strings bf) (admitted : Admitted len) :
    bf.Valid := by
  rwa [BloomFilter.Valid, made.len_eq]

theorem Made.probes_eq (made : Made heap bfId len portNo strings bf) (s : List Byte) :
    bf.probes s = {i | ∃ func ∈ hashFunctions, i = (func.apply s).toNat % len.toNat} := by
  rw [BloomFilter.probes, made.funcs_eq, made.len_eq]

theorem Made.bfCheck_of_mem (made : Made heap bfId len portNo strings bf)
    (admitted : Admitted len) {s : List Byte} (member : s ∈ strings) :
    bfCheck bf s = some true := by
  obtain ⟨result, returned, meaning⟩ := bfCheck_of_valid (made.valid admitted) s
  have reported : result = true :=
    meaning.mpr fun i probe => (made.mem_bits i).mpr (.inr ⟨s, member, probe⟩)
  rw [returned, reported]

end Made

section Stored

variable {gdt : BfGdt} {filters : List BloomFilter} {bf matched : BloomFilter}

theorem bfGdtInsertFilter_of_room (holds : gdt.Holds filters) (valid : bf.Valid)
    (room : filters.length < bfGdtMaxFilters) (heap : BitArray) :
    ∃ after slot, bfGdtInsertFilter (some heap) gdt bf = some (after, some slot) ∧
      after.slot slot = some (bf.copyOf heap) := by
  have inserted := bfGdtInsertFilter_refines holds (some heap) bf room heap rfl
  rw [if_pos valid.nbytes_le] at inserted
  obtain ⟨after, returned, -, afterHolds⟩ := inserted
  refine ⟨after, filters.length, returned, ?_⟩
  simpa using afterHolds.slot_eq (i := filters.length) (by simp)

theorem exists_slot_of_lookup (holds : gdt.Holds filters) {bfId : BitVec 32}
    (found : lookup filters bfId = some matched) :
    ∃ slot, bfGdtFindFilter gdt bfId = some (some slot) ∧ gdt.slot slot = some matched := by
  obtain ⟨i, search, inside, rfl⟩ := position_of_lookup found
  exact ⟨i, by rw [bfGdtFindFilter_of_holds holds, search], holds.slot_eq inside⟩

theorem BloomFilter.withContent_of_sameContent (same : matched.SameContent bf) :
    matched.withContent bf = matched := by
  have array : (fun i : Fin 128 => if i.val < matched.nbytes then bf.array i else matched.array i) =
      matched.array := by
    funext i
    split
    · rename_i inside
      exact (same i inside).symm
    · rfl
  rw [BloomFilter.withContent, array]

theorem bfGdtUpdateFilter_of_lookup (holds : gdt.Holds filters) (valid : matched.Valid)
    (found : lookup filters bf.bfId = some matched) (alloc : Alloc) :
    ∃ after ret slot, bfGdtUpdateFilter alloc gdt bf = some (after, ret) ∧
      bfGdtFindFilter after bf.bfId = some (some slot) ∧
      after.slot slot = some (matched.withContent bf) := by
  obtain ⟨i, search, inside, here⟩ := position_of_lookup found
  have sameId : matched.bfId = bf.bfId := lookup_key found
  have stored : lookup (filters.set i (matched.withContent bf)) bf.bfId =
      some (matched.withContent bf) := by
    rw [lookup_set search (matched.withContent bf) sameId, if_pos rfl]
  have update : ∃ ret, tableUpdate alloc filters bf =
      some (filters.set i (matched.withContent bf), ret) := by
    by_cases same : matched.SameContent bf
    · have kept : filters.set i matched = filters := by rw [← here, List.set_getElem_self]
      refine ⟨-1, ?_⟩
      rw [BloomFilter.withContent_of_sameContent same, kept]
      simp [tableUpdate, search, inside, here, valid.nbytes_le, same]
    · exact ⟨1, by simp [tableUpdate, search, inside, here, valid.nbytes_le, same]⟩
  obtain ⟨ret, update⟩ := update
  have refines := bfGdtUpdateFilter_refines holds alloc bf
  rw [update] at refines
  obtain ⟨after, returned, -, afterHolds⟩ := refines
  obtain ⟨slot, slotFound, slotEq⟩ := exists_slot_of_lookup afterHolds stored
  exact ⟨after, ret, slot, returned, slotFound, slotEq⟩

theorem bfGdtUpdateFilter_of_room (holds : gdt.Holds filters) (valid : bf.Valid)
    (absent : lookup filters bf.bfId = none) (room : filters.length < bfGdtMaxFilters)
    (heap : BitArray) :
    ∃ after ret slot, bfGdtUpdateFilter (some heap) gdt bf = some (after, ret) ∧
      bfGdtFindFilter after bf.bfId = some (some slot) ∧
      after.slot slot = some (bf.copyOf heap) := by
  have stored : lookup (filters ++ [bf.copyOf heap]) bf.bfId = some (bf.copyOf heap) := by
    have missing : lookup filters (key (bf.copyOf heap)) = none := absent
    rw [lookup_append missing]
    exact if_pos rfl
  have update : tableUpdate (some heap) filters bf = some (filters ++ [bf.copyOf heap], 2) := by
    have missing := position_eq_none.mpr (lookup_eq_none.mp absent)
    simp [tableUpdate, missing, Nat.not_le_of_lt room, valid.nbytes_le]
  have refines := bfGdtUpdateFilter_refines holds (some heap) bf
  rw [update] at refines
  obtain ⟨after, returned, -, afterHolds⟩ := refines
  obtain ⟨slot, slotFound, slotEq⟩ := exists_slot_of_lookup afterHolds stored
  exact ⟨after, 2, slot, returned, slotFound, slotEq⟩

end Stored

theorem div_lt_of_lt {i n : Nat} (whole : n % sizeChar = 0) (below : i < n) :
    i / sizeChar < n / sizeChar := by
  unfold sizeChar at *
  omega

section Whole

variable {heap : BitArray} {bfId len : BitVec 32} {portNo : BitVec 16}
  {strings : List (List Byte)} {bf matched : BloomFilter}

theorem Made.bfCheck_nil (made : Made heap bfId len portNo [] bf) (admitted : Admitted len)
    (whole : len.toNat % sizeChar = 0) (s : List Byte) : bfCheck bf s = some false := by
  obtain ⟨result, returned, meaning⟩ := bfCheck_of_valid (made.valid admitted) s
  have silent : result ≠ true := fun reported => by
    have probe : (Hashfunc.sax.apply s).toNat % len.toNat ∈ bf.probes s := by
      rw [made.probes_eq]
      exact ⟨.sax, by decide, rfl⟩
    have below : (Hashfunc.sax.apply s).toNat % len.toNat < len.toNat := Nat.mod_lt _ admitted.1
    have set := (made.mem_bits _).mp (meaning.mp reported probe)
    refine set.elim (not_mem_bitsOf_zero fun inside => ?_) (by simp)
    exact if_pos (div_lt_of_lt whole below)
  rw [returned, Bool.eq_false_iff.mpr silent]

theorem BloomFilter.Valid.bfCheck_copyOf (valid : bf.Valid) (funcs : bf.funcs = hashFunctions)
    (whole : bf.len.toNat % sizeChar = 0) (heap : BitArray) (s : List Byte) :
    bfCheck (bf.copyOf heap) s = bfCheck bf s := by
  refine @bfCheck_congr bf (bf.copyOf heap) valid rfl funcs.symm (fun i below => ?_) s
  exact mem_bitsOf_congr fun _ => if_pos (div_lt_of_lt whole below)

theorem BloomFilter.Valid.bfCheck_withContent (valid : bf.Valid) (len : matched.len = bf.len)
    (funcs : matched.funcs = bf.funcs) (whole : bf.len.toNat % sizeChar = 0) (s : List Byte) :
    bfCheck (matched.withContent bf) s = bfCheck bf s := by
  refine @bfCheck_congr bf (matched.withContent bf) valid len funcs (fun i below => ?_) s
  refine mem_bitsOf_congr fun _ => if_pos ?_
  rw [BloomFilter.nbytes, len]
  exact div_lt_of_lt whole below

theorem filterSound_of_whole {old : Option (BitVec 32)} (admitted : Admitted len)
    (whole : len.toNat % sizeChar = 0) (same : ∀ l ∈ old, l = len) : FilterSound len old where
  empty heap bfId portNo s := by
    obtain ⟨bf, created, made⟩ := exists_made admitted heap bfId portNo []
    exact ⟨bf, created, made.bfCheck_nil admitted whole s⟩
  added heap bfId portNo strings := by
    obtain ⟨bf, created, made⟩ := exists_made admitted heap bfId portNo strings
    exact ⟨bf, created, fun s member => made.bfCheck_of_mem admitted member⟩
  inserted heap bfId portNo strings bf created gdt filters holds room newHeap := by
    have made := made_of_madeFilter admitted created
    have valid := made.valid admitted
    obtain ⟨after, slot, returned, stored⟩ := bfGdtInsertFilter_of_room holds valid room newHeap
    refine ⟨after, slot, _, returned, stored, valid.bfCheck_copyOf made.funcs_eq ?_ newHeap⟩
    rwa [made.len_eq]
  updated heap bfId portNo strings bf created gdt filters holds oldLen oldFuncs room newHeap := by
    have made := made_of_madeFilter admitted created
    have valid := made.valid admitted
    have bfWhole : bf.len.toNat % sizeChar = 0 := by rwa [made.len_eq]
    obtain rfl := made.bfId_eq
    cases found : lookup filters bf.bfId with
    | none =>
      rw [found] at oldLen
      obtain ⟨after, ret, slot, returned, slotFound, stored⟩ :=
        bfGdtUpdateFilter_of_room holds valid found (room oldLen.symm) newHeap
      exact ⟨after, ret, slot, _, returned, slotFound, stored,
        valid.bfCheck_copyOf made.funcs_eq bfWhole newHeap⟩
    | some matched =>
      rw [found] at oldLen oldFuncs
      have lenEq : matched.len = bf.len := (same _ oldLen.symm).trans made.len_eq.symm
      have matchedValid : matched.Valid := by rwa [BloomFilter.Valid, lenEq]
      obtain ⟨after, ret, slot, returned, slotFound, stored⟩ :=
        bfGdtUpdateFilter_of_lookup holds matchedValid found (some newHeap)
      exact ⟨after, ret, slot, _, returned, slotFound, stored, valid.bfCheck_withContent lenEq
        ((oldFuncs matched rfl).trans made.funcs_eq.symm) bfWhole⟩

end Whole

def lastBitString (len second : Nat) : List Byte :=
  [1, BitVec.ofNat 8 second,
    BitVec.ofNat 8 ((2 * len - 1 - (8261505 + 65599 * second) % len) % len)]

private def lastBitSelected (len : Nat) : Bool :=
  (List.range 256).any fun second =>
    (Hashfunc.sdbm.apply (lastBitString len second)).toNat % len == len - 1

private theorem lastBitSelected_all :
    (List.range 1024).all (fun n => lastBitSelected (n + 1)) = true := by
  decide +kernel

theorem exists_sdbm_last {len : BitVec 32} (admitted : Admitted len) :
    ∃ s, (Hashfunc.sdbm.apply s).toNat % len.toNat = len.toNat - 1 := by
  have selected := List.all_eq_true.mp lastBitSelected_all (len.toNat - 1)
    (List.mem_range.mpr (by have := admitted.2; have := admitted.1; omega))
  rw [Nat.sub_add_cancel admitted.1] at selected
  obtain ⟨second, -, last⟩ := List.any_eq_true.mp selected
  exact ⟨_, by simpa using last⟩

/-- A number of bytes more than `n`, whose last bit some string selects, and the other bit that the
string selects is not where both hash functions lead with fewer bytes. -/
private def lastBitApart (n : Nat) : Bool :=
  (List.range 256).any fun second =>
    (Hashfunc.sdbm.apply (lastBitString (8 * (n + 1)) second)).toNat % (8 * (n + 1)) == 8 * n + 7 &&
      (List.range n).all fun m =>
        !((Hashfunc.sax.apply (lastBitString (8 * (n + 1)) second)).toNat % (8 * (m + 1)) ==
            (Hashfunc.sax.apply (lastBitString (8 * (n + 1)) second)).toNat % (8 * (n + 1)) &&
          (Hashfunc.sdbm.apply (lastBitString (8 * (n + 1)) second)).toNat % (8 * (m + 1)) ==
            (Hashfunc.sax.apply (lastBitString (8 * (n + 1)) second)).toNat % (8 * (n + 1)))

private theorem lastBitApart_all : (List.range 128).all lastBitApart = true := by
  decide +kernel

theorem exists_apart {len shorter : BitVec 32} (admitted : Admitted len)
    (whole : len.toNat % sizeChar = 0) (shorterAdmitted : Admitted shorter)
    (shorterWhole : shorter.toNat % sizeChar = 0) (less : shorter.toNat < len.toNat) :
    ∃ s, (Hashfunc.sdbm.apply s).toNat % len.toNat = len.toNat - 1 ∧
      ¬ ((Hashfunc.sax.apply s).toNat % shorter.toNat = (Hashfunc.sax.apply s).toNat % len.toNat ∧
        (Hashfunc.sdbm.apply s).toNat % shorter.toNat =
          (Hashfunc.sax.apply s).toNat % len.toNat) := by
  obtain ⟨positive, few⟩ := admitted
  have shorterPositive := shorterAdmitted.1
  unfold sizeChar at whole shorterWhole
  have apart := List.all_eq_true.mp lastBitApart_all (len.toNat / 8 - 1)
    (List.mem_range.mpr (by omega))
  obtain ⟨second, -, facts⟩ := List.any_eq_true.mp apart
  have lenEq : 8 * (len.toNat / 8 - 1 + 1) = len.toNat := by omega
  have lastEq : 8 * (len.toNat / 8 - 1) + 7 = len.toNat - 1 := by omega
  have shorterEq : 8 * (shorter.toNat / 8 - 1 + 1) = shorter.toNat := by omega
  rw [lenEq, lastEq, Bool.and_eq_true] at facts
  refine ⟨_, beq_iff_eq.mp facts.1, ?_⟩
  have differ := List.all_eq_true.mp facts.2 (shorter.toNat / 8 - 1)
    (List.mem_range.mpr (by omega))
  rw [shorterEq] at differ
  simpa [← not_and_or] using differ

section Partial

variable {bfId len : BitVec 32} {portNo : BitVec 16} {old : Option (BitVec 32)}
  {bf matched : BloomFilter} {s : List Byte} {i : Nat}

theorem Made.mem_bits_singleton (made : Made (fun _ => 0) bfId len portNo [s] bf) :
    i ∈ bf.bits ↔ i ∈ bf.probes s := by
  have clear : i ∉ bitsOf (clearedHeap (fun _ => 0) len) :=
    not_mem_bitsOf_zero fun _ => by simp [clearedHeap]
  rw [made.mem_bits, or_iff_right clear]
  simp

theorem BloomFilter.Valid.mem_bits_of_bfCheck (valid : bf.Valid)
    (funcs : bf.funcs = hashFunctions) (reported : bfCheck bf s = some true) (func : Hashfunc) :
    (func.apply s).toNat % bf.len.toNat ∈ bf.bits := by
  obtain ⟨result, returned, meaning⟩ := bfCheck_of_valid valid s
  obtain rfl := Option.some.inj (returned.symm.trans reported)
  refine meaning.mp rfl ⟨func, ?_, rfl⟩
  rw [funcs]
  cases func <;> decide

theorem lt_nbytes_of_mem_copyOf (member : i ∈ (bf.copyOf fun _ => 0).bits) :
    i / sizeChar < bf.nbytes := by
  by_contra outside
  exact not_mem_bitsOf_zero (fun _ => if_neg outside) member

theorem mem_bits_of_mem_withContent (clear : matched.array = fun _ => 0)
    (member : i ∈ (matched.withContent bf).bits) :
    i / sizeChar < matched.nbytes ∧ i ∈ bf.bits := by
  by_cases inside : i / sizeChar < matched.nbytes
  · exact ⟨inside, (mem_bitsOf_congr fun _ => if_pos inside).mp member⟩
  · refine absurd member (not_mem_bitsOf_zero fun _ => (if_neg inside).trans ?_)
    rw [clear]

theorem FilterSound.bfCheck_copyOf (sound : FilterSound len old) (admitted : Admitted len)
    {strings : List (List Byte)} {heap : BitArray}
    (created : madeFilter heap bfId len portNo strings = some bf) (newHeap : BitArray)
    (s : List Byte) : bfCheck (bf.copyOf newHeap) s = bfCheck bf s := by
  have valid := (made_of_madeFilter admitted created).valid admitted
  have holds := bfGdtInit_holds 0
  obtain ⟨after, slot, copy, returned, stored, answers⟩ :=
    sound.inserted heap bfId portNo strings bf created _ _ holds (by decide) newHeap
  obtain ⟨after', slot', returned', stored'⟩ :=
    bfGdtInsertFilter_of_room holds valid (by decide) newHeap
  rw [returned] at returned'
  obtain ⟨rfl, sameSlot⟩ := Prod.mk.inj (Option.some.inj returned')
  obtain rfl := Option.some.inj sameSlot
  obtain rfl := Option.some.inj (stored.symm.trans stored')
  exact answers s

theorem FilterSound.bfCheck_withContent (sound : FilterSound len old) (admitted : Admitted len)
    {strings : List (List Byte)} {heap : BitArray}
    (created : madeFilter heap bfId len portNo strings = some bf) (matchedId : matched.bfId = bfId)
    (oldLen : old = some matched.len) (funcs : matched.funcs = hashFunctions)
    (valid : matched.Valid) (s : List Byte) :
    bfCheck (matched.withContent bf) s = bfCheck bf s := by
  obtain rfl := (made_of_madeFilter admitted created).bfId_eq
  have holds : BfGdt.Holds ⟨0, 1, some matched :: List.replicate 63 none⟩ [matched] :=
    ⟨rfl, (by decide : 1 ≤ bfGdtMaxFilters), rfl⟩
  have found : lookup [matched] bf.bfId = some matched := by simp [lookup, matchedId]
  obtain ⟨after, ret, slot, copy, returned, slotFound, stored, answers⟩ :=
    sound.updated heap bf.bfId portNo strings bf created _ _ holds (by rw [found, oldLen]; rfl)
      (by rw [found]; rintro _ ⟨⟩; exact funcs) (by simp [oldLen]) (fun _ => 0)
  obtain ⟨after', ret', slot', returned', slotFound', stored'⟩ :=
    bfGdtUpdateFilter_of_lookup holds valid found (some fun _ => 0)
  rw [returned] at returned'
  obtain ⟨rfl, -⟩ := Prod.mk.inj (Option.some.inj returned')
  obtain rfl := Option.some.inj (Option.some.inj (slotFound.symm.trans slotFound'))
  obtain rfl := Option.some.inj (stored.symm.trans stored')
  exact answers s

theorem FilterSound.whole (sound : FilterSound len old) (admitted : Admitted len) :
    len.toNat % sizeChar = 0 := by
  by_contra rest
  obtain ⟨s, last⟩ := exists_sdbm_last admitted
  obtain ⟨bf, created, made⟩ := exists_made admitted (fun _ => 0) 0 0 [s]
  have answers := sound.bfCheck_copyOf admitted created (fun _ => 0) s
  rw [made.bfCheck_of_mem admitted (List.mem_singleton.mpr rfl)] at answers
  have copyValid : (bf.copyOf fun _ => 0).Valid := made.valid admitted
  have member := copyValid.mem_bits_of_bfCheck rfl answers .sdbm
  have lenEq : (bf.copyOf fun _ => 0).len = len := made.len_eq
  rw [lenEq, last] at member
  have inside := lt_nbytes_of_mem_copyOf member
  rw [BloomFilter.nbytes, made.len_eq] at inside
  have := admitted.1
  unfold sizeChar at *
  omega

private def clearFilter (len : BitVec 32) : BloomFilter :=
  { bfId := 0, len, portNo := 0, array := fun _ => 0, funcs := hashFunctions }

private theorem FilterSound.mem_of_update {l : BitVec 32} (sound : FilterSound len (some l))
    (admitted : Admitted len) (oldAdmitted : Admitted l) (s : List Byte) (func : Hashfunc) :
    (func.apply s).toNat % l.toNat / sizeChar < l.toNat / sizeChar ∧
      ∃ other ∈ hashFunctions,
        (func.apply s).toNat % l.toNat = (other.apply s).toNat % len.toNat := by
  obtain ⟨bf, created, made⟩ := exists_made admitted (fun _ => 0) 0 0 [s]
  have answers := @FilterSound.bfCheck_withContent 0 len 0 _ bf (clearFilter l) sound admitted _ _
    created rfl rfl rfl oldAdmitted s
  rw [made.bfCheck_of_mem admitted (List.mem_singleton.mpr rfl)] at answers
  have copyValid : ((clearFilter l).withContent bf).Valid := oldAdmitted
  have member := copyValid.mem_bits_of_bfCheck rfl answers func
  obtain ⟨inside, original⟩ := mem_bits_of_mem_withContent rfl member
  rw [made.mem_bits_singleton, made.probes_eq] at original
  exact ⟨inside, original⟩

theorem FilterSound.sameLength {l : BitVec 32} (sound : FilterSound len (some l))
    (admitted : Admitted len) (oldAdmitted : Admitted l) : l = len := by
  have whole := sound.whole admitted
  have positive := oldAdmitted.1
  obtain ⟨s, last⟩ := exists_sdbm_last oldAdmitted
  obtain ⟨inside, other, -, original⟩ := sound.mem_of_update admitted oldAdmitted s .sdbm
  rw [last] at inside original
  have oldWhole : l.toNat % sizeChar = 0 := by
    unfold sizeChar at *
    omega
  have below : (other.apply s).toNat % len.toNat < len.toNat := Nat.mod_lt _ admitted.1
  have notLonger : l.toNat ≤ len.toNat := by omega
  by_contra differ
  have shorter : l.toNat < len.toNat :=
    lt_of_le_of_ne notLonger fun same => differ (BitVec.eq_of_toNat_eq same)
  obtain ⟨s, last, apart⟩ := exists_apart admitted whole oldAdmitted oldWhole shorter
  -- Neither probe of the copy can be the last bit of the original, which lies behind it.
  have probe : ∀ func : Hashfunc, (func.apply s).toNat % l.toNat =
      (Hashfunc.sax.apply s).toNat % len.toNat := fun func => by
    obtain ⟨-, other, -, original⟩ := sound.mem_of_update admitted oldAdmitted s func
    have inside : (func.apply s).toNat % l.toNat < l.toNat := Nat.mod_lt _ positive
    cases other with
    | sax => exact original
    | sdbm => omega
  exact apart ⟨probe .sax, probe .sdbm⟩

end Partial

/-- Filters of a length are sound exactly when the length is a multiple of 8 and the table has no
filter of another length under the id of an update. -/
theorem filterSound_iff {len : BitVec 32} {old : Option (BitVec 32)} (admitted : Admitted len)
    (oldAdmitted : ∀ l ∈ old, Admitted l) :
    FilterSound len old ↔ len.toNat % sizeChar = 0 ∧ ∀ l ∈ old, l = len := by
  refine ⟨fun sound => ⟨sound.whole admitted, ?_⟩,
    fun ⟨whole, same⟩ => filterSound_of_whole admitted whole same⟩
  rintro l rfl
  exact sound.sameLength admitted (oldAdmitted l rfl)

/-- The length of the program's own filters. -/
theorem filterSound_iff_dftLen : FilterSound lcBfDftLen (some lcBfDftLen) :=
  (filterSound_iff (by decide) (by rintro _ ⟨⟩; decide)).mpr ⟨by decide, by rintro _ ⟨⟩; rfl⟩

/-- Nine bits: a new filter reports a string when the heap was not clear, and a copy misses it when
the heap was clear. -/
theorem not_filterSound_nine :
    (∀ old, ¬ FilterSound 9 old) ∧
      ((madeFilter (fun _ => 255) 1 9 2 []).bind fun bf => bfCheck bf [8]) = some true ∧
      ((madeFilter (fun _ => 0) 1 9 2 [[8]]).bind fun bf => bfCheck bf [8]) = some true ∧
      ((madeFilter (fun _ => 0) 1 9 2 [[8]]).bind fun bf =>
        (bfGdtInsertFilter (some fun _ => 0) (bfGdtInit 0) bf).bind fun (gdt, _) =>
          (gdt.slot 0).bind fun copy => bfCheck copy [8]) = some false := by
  refine ⟨fun old sound => ?_, by decide, by decide, by decide⟩
  exact absurd (sound.whole (by decide)) (by decide)


end LazyCtrl
