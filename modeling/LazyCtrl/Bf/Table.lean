import LazyCtrl.Bf.Gdt

/-!
# The table as a bounded list of filters

Each operation of `lib/bf-gdt.c` on a well-formed table is one operation on the list of its
filters.  The list operations are stated here and every function of the table is shown to refine
its list operation; after that no proof looks at slots again.  The last part describes the list
operations by what `lookup` and the set of ids see of them.
-/

namespace LazyCtrl

open Keyed

def BloomFilter.copyOf (bf : BloomFilter) (heap : BitArray) : BloomFilter :=
  { bf with
    array := fun i => if i.val < bf.nbytes then bf.array i else heap i
    funcs := hashFunctions }

def BloomFilter.SameContent (matched bf : BloomFilter) : Prop :=
  ∀ i : Fin 128, i.val < matched.nbytes → matched.array i = bf.array i

instance (matched bf : BloomFilter) : Decidable (matched.SameContent bf) := by
  unfold BloomFilter.SameContent
  infer_instance

def BloomFilter.withContent (matched bf : BloomFilter) : BloomFilter :=
  { matched with
    array := fun i => if i.val < matched.nbytes then bf.array i else matched.array i }

def tableAdd (alloc : Alloc) (filters : List BloomFilter) (bfId : BitVec 32) (portNo : BitVec 16)
    (len : BitVec 32) : Option (List BloomFilter × Option Nat) :=
  if bfGdtMaxFilters ≤ filters.length then
    some (filters, none)
  else
    (bfCreate alloc bfId len portNo 2).map fun created =>
      match created with
      | none => (filters, none)
      | some bf => (filters ++ [bf], some filters.length)

def tableUpdate (alloc : Alloc) (filters : List BloomFilter) (bf : BloomFilter) :
    Option (List BloomFilter × Int) :=
  match position filters bf.bfId with
  | some i =>
    (filters[i]?).bind fun matched =>
      if matched.nbytes ≤ 128 then
        if matched.SameContent bf then some (filters, -1)
        else some (filters.set i (matched.withContent bf), 1)
      else
        none
  | none =>
    if bfGdtMaxFilters ≤ filters.length then
      some (filters, 2)
    else
      match alloc with
      | none => some (filters, 2)
      | some heap =>
        if bf.nbytes ≤ 128 then some (filters ++ [bf.copyOf heap], 2) else none

def tableAddItem (filters : List BloomFilter) (bfId : BitVec 32) (s : List Byte) :
    Option (List BloomFilter × Int) :=
  match position filters bfId with
  | none => some (filters, -1)
  | some i => (filters[i]?).bind fun bf => (bfAdd bf s).map fun bf => (filters.set i bf, 0)

def tableDel (filters : List BloomFilter) (bfId : BitVec 32) : List BloomFilter × Int :=
  match position filters bfId with
  | none => (filters, 1)
  | some i =>
    match filters.getLast? with
    | none => (filters, 1)
    | some last => ((filters.set i last).dropLast, 0)

def Refines {α : Type*} (gid : BitVec 32) (concrete : Option (BfGdt × α))
    (abstract : Option (List BloomFilter × α)) : Prop :=
  match abstract with
  | none => concrete = none
  | some (filters, result) =>
    ∃ gdt : BfGdt, concrete = some (gdt, result) ∧ gdt.gid = gid ∧ gdt.Holds filters

section Refinement

variable {gdt : BfGdt} {filters : List BloomFilter}

theorem bfGdtAddFilter_refines (holds : gdt.Holds filters) (alloc : Alloc) (bfId : BitVec 32)
    (portNo : BitVec 16) (len : BitVec 32) :
    Refines gdt.gid (bfGdtAddFilter alloc gdt bfId portNo len)
      (tableAdd alloc filters bfId portNo len) := by
  unfold bfGdtAddFilter tableAdd
  rw [holds.nbf_eq]
  by_cases full : bfGdtMaxFilters ≤ filters.length
  · simp only [ge_iff_le, full, if_true]
    exact ⟨gdt, rfl, rfl, holds⟩
  · simp only [ge_iff_le, full, if_false]
    cases created : bfCreate alloc bfId len portNo 2 with
    | none => simp [Refines]
    | some pointer =>
      cases pointer with
      | none => exact ⟨gdt, rfl, rfl, holds⟩
      | some bf =>
        have appended := holds.append (Nat.lt_of_not_le full) bf
        rw [holds.nbf_eq] at appended
        exact ⟨_, rfl, rfl, appended⟩

theorem bfGdtAddFilter_init {alloc : Alloc} {gid bfId : BitVec 32} {portNo : BitVec 16}
    {gdt : BfGdt} {slot : Option Nat}
    (added : bfGdtAddFilter alloc (bfGdtInit gid) bfId portNo lcBfDftLen = some (gdt, slot)) :
    gdt.gid = gid ∧
      (alloc = none ∧ slot = none ∧ gdt.Holds [] ∨
        slot = some 0 ∧ gdt.Holds [.empty bfId portNo]) := by
  have refines := bfGdtAddFilter_refines (bfGdtInit_holds gid) alloc bfId portNo lcBfDftLen
  cases alloc with
  | none =>
    obtain ⟨other, concrete, sameGid, holds⟩ := refines
    obtain ⟨rfl, rfl⟩ := Prod.mk.inj (Option.some.inj (concrete.symm.trans added))
    exact ⟨sameGid, Or.inl ⟨rfl, rfl, holds⟩⟩
  | some heap =>
    rw [tableAdd, if_neg (by decide), bfCreate_dftLen] at refines
    obtain ⟨other, concrete, sameGid, holds⟩ := refines
    obtain ⟨rfl, rfl⟩ := Prod.mk.inj (Option.some.inj (concrete.symm.trans added))
    exact ⟨sameGid, Or.inr ⟨rfl, holds⟩⟩

theorem bfGdtInsertFilter_refines (holds : gdt.Holds filters) (alloc : Alloc)
    (bf : BloomFilter) (room : filters.length < bfGdtMaxFilters) (heap : BitArray)
    (allocated : alloc = some heap) :
    if bf.nbytes ≤ 128 then
      ∃ after : BfGdt, bfGdtInsertFilter alloc gdt bf = some (after, some filters.length) ∧
        after.gid = gdt.gid ∧ after.Holds (filters ++ [bf.copyOf heap])
    else
      bfGdtInsertFilter alloc gdt bf = none := by
  subst allocated
  have added := bfGdtAddFilter_refines holds (some heap) bf.bfId bf.portNo bf.len
  rw [tableAdd, if_neg (Nat.not_le_of_lt room)] at added
  split
  · rename_i fits
    set fresh : BloomFilter :=
      { bfId := bf.bfId, len := bf.len, portNo := bf.portNo,
        array := fun i => if i.val < bf.len.toNat / sizeChar then 0 else heap i,
        funcs := hashFunctions } with freshDef
    have created : bfCreate (some heap) bf.bfId bf.len bf.portNo 2 = some (some fresh) := by
      have cleared : bf.len.toNat / sizeChar ≤ 128 := fits
      simp [bfCreate, clearBytes, cleared, hashFunctions, freshDef]
    rw [created] at added
    obtain ⟨middle, addEq, gidEq, middleHolds⟩ := added
    have slotNew : middle.slot filters.length = some fresh := by
      simpa using middleHolds.slot_eq (i := filters.length) (by simp)
    have copied := middleHolds.set (i := filters.length) (by simp) (bf.copyOf heap)
    have copyEq : copyBytes fresh.array bf.array fresh.nbytes = some (bf.copyOf heap).array := by
      have sameWidth : fresh.nbytes = bf.nbytes := rfl
      rw [copyBytes, sameWidth, if_pos fits]
      congr 1
      funext i
      by_cases inside : i.val < bf.nbytes
      · simp [BloomFilter.copyOf, inside]
      · have outside : ¬ i.val < bf.len.toNat / sizeChar := inside
        simp [BloomFilter.copyOf, inside, freshDef, outside]
    refine ⟨{ middle with bfArray := middle.bfArray.set filters.length (some (bf.copyOf heap)) },
      ?_, gidEq, by simpa using copied⟩
    simp only [bfGdtInsertFilter, addEq, slotNew, copyEq, Option.bind_eq_bind, Option.bind_some]
    rfl
  · rename_i overflow
    have notCleared : ¬ bf.len.toNat / sizeChar ≤ 128 := overflow
    have failed : bfCreate (some heap) bf.bfId bf.len bf.portNo 2 = none := by
      simp [bfCreate, clearBytes, notCleared]
    rw [failed] at added
    have addEq : bfGdtAddFilter (some heap) gdt bf.bfId bf.portNo bf.len = none := added
    simp [bfGdtInsertFilter, addEq]

theorem bfGdtUpdateFilter_refines (holds : gdt.Holds filters) (alloc : Alloc) (bf : BloomFilter) :
    Refines gdt.gid (bfGdtUpdateFilter alloc gdt bf) (tableUpdate alloc filters bf) := by
  unfold bfGdtUpdateFilter tableUpdate
  rw [bfGdtFindFilter_of_holds holds]
  cases found : position filters bf.bfId with
  | some i =>
    obtain ⟨inside, -, -⟩ := position_eq_some found
    simp only [Option.bind_eq_bind, Option.bind_some, holds.slot_eq inside,
      List.getElem?_eq_getElem inside, sameBytes, copyBytes]
    by_cases fits : filters[i].nbytes ≤ 128
    · simp only [fits, if_true, Option.bind_some]
      by_cases same : filters[i].SameContent bf
      · have decided : decide (∀ j : Fin 128, j.val < filters[i].nbytes →
            filters[i].array j = bf.array j) = true := decide_eq_true same
        simp only [decided, same, if_true]
        exact ⟨gdt, rfl, rfl, holds⟩
      · have decided : decide (∀ j : Fin 128, j.val < filters[i].nbytes →
            filters[i].array j = bf.array j) = false := decide_eq_false same
        simp only [decided, same, if_false]
        exact ⟨_, rfl, rfl, holds.set inside (filters[i].withContent bf)⟩
    · simp [fits, Refines]
  | none =>
    simp only [Option.bind_eq_bind, Option.bind_some]
    by_cases full : bfGdtMaxFilters ≤ filters.length
    · have kept : bfGdtInsertFilter alloc gdt bf = some (gdt, none) := by
        simp [bfGdtInsertFilter, bfGdtAddFilter, holds.nbf_eq, full]
      simp only [kept, full, if_true]
      exact ⟨gdt, rfl, rfl, holds⟩
    · cases alloc with
      | none =>
        have kept : bfGdtInsertFilter none gdt bf = some (gdt, none) := by
          simp [bfGdtInsertFilter, bfGdtAddFilter, holds.nbf_eq, full, bfCreate]
        simp only [kept, full, if_false]
        exact ⟨gdt, rfl, rfl, holds⟩
      | some heap =>
        have inserted := bfGdtInsertFilter_refines holds (some heap) bf
          (Nat.lt_of_not_le full) heap rfl
        by_cases fits : bf.nbytes ≤ 128
        · rw [if_pos fits] at inserted
          obtain ⟨after, insertEq, gidEq, afterHolds⟩ := inserted
          simp only [insertEq, full, fits, if_true, if_false]
          exact ⟨after, rfl, gidEq, afterHolds⟩
        · rw [if_neg fits] at inserted
          simp [inserted, full, fits, Refines]

theorem bfGdtAddItem_refines (holds : gdt.Holds filters) (bfId : BitVec 32) (s : List Byte) :
    Refines gdt.gid (bfGdtAddItem gdt bfId s) (tableAddItem filters bfId s) := by
  unfold bfGdtAddItem tableAddItem
  have search := bfGdtFindFilter_of_holds holds bfId
  rw [bfGdtFindFilter] at search
  rw [search]
  cases found : position filters bfId with
  | none => exact ⟨gdt, rfl, rfl, holds⟩
  | some i =>
    obtain ⟨inside, -, -⟩ := position_eq_some found
    simp only [Option.bind_eq_bind, Option.bind_some, holds.slot_eq inside,
      List.getElem?_eq_getElem inside]
    cases added : bfAdd filters[i] s with
    | none => simp [Refines]
    | some bf => exact ⟨_, rfl, rfl, holds.set inside bf⟩

private theorem swapRemove_holds (holds : gdt.Holds filters) {i : Nat}
    (inside : i < filters.length) {last : BloomFilter} (lastEq : filters.getLast? = some last) :
    { gdt with
      nbf := gdt.nbf - 1
      bfArray :=
        (if i ≠ gdt.nbf - 1 then gdt.bfArray.set i (gdt.slot (gdt.nbf - 1))
          else gdt.bfArray).set (gdt.nbf - 1) none }.Holds ((filters.set i last).dropLast) := by
  have lastIndex : filters.length - 1 < filters.length := by omega
  have lastGet : filters[filters.length - 1] = last := by
    rw [List.getLast?_eq_getElem?, List.getElem?_eq_getElem lastIndex] at lastEq
    exact Option.some.inj lastEq
  have moved : (if i ≠ filters.length - 1 then
      gdt.bfArray.set i (gdt.slot (filters.length - 1)) else gdt.bfArray) =
      (filters.set i last).map some ++
        List.replicate (bfGdtMaxFilters - filters.length) none := by
    rw [holds.slot_eq lastIndex, lastGet]
    split
    · have overwritten := (holds.set inside last).slots_eq
      simpa using overwritten
    · rename_i atLast
      have same : filters.set i last = filters := by
        obtain rfl : i = filters.length - 1 := by omega
        rw [← lastGet, List.set_getElem_self]
      rw [same, holds.slots_eq]
  refine ⟨by simp [holds.nbf_eq], ?_, ?_⟩
  · have := holds.length_le
    simp
    omega
  · simp only [holds.nbf_eq]
    rw [moved, List.set_append_left _ _ (by simpa using lastIndex)]
    have split : (filters.set i last).map some =
        ((filters.set i last).dropLast).map some ++ [(filters.set i last).getLast?] := by
      have nonempty : filters.set i last ≠ [] := by
        intro empty
        have lengths := congrArg List.length empty
        rw [List.length_set, List.length_nil] at lengths
        omega
      rw [List.getLast?_eq_getLast_of_ne_nil nonempty]
      rw [← List.map_singleton, ← List.map_append, List.dropLast_append_getLast]
    have cut : ((filters.set i last).map some).set (filters.length - 1) none =
        ((filters.set i last).dropLast).map some ++ [none] := by
      rw [split, List.set_append_right _ _ (by simp)]
      simp
    have more : bfGdtMaxFilters - (filters.length - 1) = 1 + (bfGdtMaxFilters - filters.length) := by
      have := holds.length_le
      omega
    rw [cut, List.append_assoc, List.length_dropLast, List.length_set, more, List.replicate_add]
    rfl

theorem bfGdtDelFilter_refines (holds : gdt.Holds filters) (bfId : BitVec 32) :
    Refines gdt.gid (bfGdtDelFilter gdt bfId) (some (tableDel filters bfId)) := by
  unfold bfGdtDelFilter tableDel
  have search := bfGdtFindFilter_of_holds holds bfId
  rw [bfGdtFindFilter] at search
  rw [search]
  cases found : position filters bfId with
  | none => exact ⟨gdt, rfl, rfl, holds⟩
  | some i =>
    obtain ⟨inside, -, -⟩ := position_eq_some found
    cases lastEq : filters.getLast? with
    | none =>
      rw [List.getLast?_eq_none_iff] at lastEq
      simp [lastEq] at inside
    | some last => exact ⟨_, rfl, rfl, swapRemove_holds holds inside lastEq⟩

private theorem checkSlots_map_some (s : List Byte) (filters : List BloomFilter)
    (free : List (Option BloomFilter)) (valid : ∀ bf ∈ filters, bf.Valid) :
    ∃ result, checkSlots s (filters.map some ++ free) filters.length = some result ∧
      (result ≠ none ↔ ∃ bf ∈ filters, Bloom.Reports bf.probes bf.bits s) := by
  induction filters with
  | nil => exact ⟨none, by simp [checkSlots], by simp⟩
  | cons bf filters ih =>
    obtain ⟨rest, restEq, restMeaning⟩ := ih fun other member => valid other (by simp [member])
    obtain ⟨reported, checkEq, meaning⟩ := bfCheck_of_valid (valid bf (by simp)) s
    cases reported with
    | true =>
      exact ⟨some 0, by simp [checkSlots, checkEq], by simp [meaning.mp rfl]⟩
    | false =>
      have silent : ¬ Bloom.Reports bf.probes bf.bits s := fun reports => by
        simpa using meaning.mpr reports
      refine ⟨rest.map (· + 1), by simp [checkSlots, checkEq, restEq], ?_⟩
      simp [silent, ← restMeaning]

theorem bfGdtCheck_of_holds (holds : gdt.Holds filters) (valid : ∀ bf ∈ filters, bf.Valid)
    (s : List Byte) :
    ∃ result, bfGdtCheck gdt s = some result ∧
      (result ≠ none ↔ ∃ bf ∈ filters, Bloom.Reports bf.probes bf.bits s) := by
  rw [bfGdtCheck, holds.slots_eq, holds.nbf_eq]
  exact checkSlots_map_some s filters _ valid

private theorem reports_of_checkSlots (s : List Byte) (filters : List BloomFilter)
    (free : List (Option BloomFilter)) (valid : ∀ bf ∈ filters, bf.Valid) {i : Nat}
    (returned : checkSlots s (filters.map some ++ free) filters.length = some (some i)) :
    ∃ inside : i < filters.length, Bloom.Reports filters[i].probes filters[i].bits s := by
  induction filters generalizing i with
  | nil => simp [checkSlots] at returned
  | cons bf filters ih =>
    obtain ⟨reported, checkEq, meaning⟩ := bfCheck_of_valid (valid bf (by simp)) s
    cases reported with
    | true =>
      obtain rfl : i = 0 := by simpa [checkSlots, checkEq] using returned.symm
      exact ⟨by simp, meaning.mp rfl⟩
    | false =>
      obtain ⟨j, rest, rfl⟩ : ∃ j,
          checkSlots s (filters.map some ++ free) filters.length = some (some j) ∧
            j + 1 = i := by
        simpa [checkSlots, checkEq] using returned
      obtain ⟨inside, reports⟩ := ih (fun other member => valid other (by simp [member])) rest
      exact ⟨by simpa using inside, by simpa using reports⟩

theorem reports_of_bfGdtCheck (holds : gdt.Holds filters) (valid : ∀ bf ∈ filters, bf.Valid)
    {s : List Byte} {i : Nat} (returned : bfGdtCheck gdt s = some (some i)) :
    ∃ bf ∈ filters, gdt.slot i = some bf ∧ Bloom.Reports bf.probes bf.bits s := by
  rw [bfGdtCheck, holds.slots_eq, holds.nbf_eq] at returned
  obtain ⟨inside, reports⟩ := reports_of_checkSlots s filters _ valid returned
  exact ⟨filters[i], List.getElem_mem inside, holds.slot_eq inside, reports⟩

end Refinement

theorem tableAddItem_of_valid {filters : List BloomFilter} {bfId : BitVec 32} {bf : BloomFilter}
    (found : lookup filters bfId = some bf) (valid : bf.Valid) (s : List Byte) :
    ∃ i array, position filters bfId = some i ∧
      tableAddItem filters bfId s = some (filters.set i { bf with array }, 0) ∧
        bitsOf array = Bloom.add bf.probes bf.bits s := by
  obtain ⟨i, search, inside, rfl⟩ := position_of_lookup found
  obtain ⟨array, added, bits⟩ := bfAdd_of_valid valid s
  refine ⟨i, array, search, ?_, bits⟩
  simp [tableAddItem, search, List.getElem?_eq_getElem inside, added]

theorem tableDel_perm {filters : List BloomFilter} {bfId : BitVec 32} {bf : BloomFilter}
    (found : lookup filters bfId = some bf) :
    ((bf :: (tableDel filters bfId).1).Perm filters) ∧ (tableDel filters bfId).2 = 0 := by
  obtain ⟨i, where_, inside, rfl⟩ := position_of_lookup found
  obtain ⟨front, last, rfl⟩ : ∃ front last, filters = front ++ [last] :=
    ⟨_, _, (List.dropLast_append_getLast (List.ne_nil_of_length_pos (by omega))).symm⟩
  simp only [tableDel, where_, List.getLast?_append, List.getLast?_singleton, Option.some_or,
    and_true]
  rw [List.length_append, List.length_singleton] at inside
  by_cases atLast : i = front.length
  · subst atLast
    rw [List.set_append_right _ _ le_rfl]
    simpa using (List.perm_append_singleton last front).symm
  · have early : i < front.length := by omega
    rw [List.set_append_left _ _ early, List.dropLast_concat, List.getElem_append_left early]
    calc
      List.Perm (front[i] :: front.set i last) (front[i] :: last :: front.eraseIdx i) :=
        (List.set_perm_cons_eraseIdx early last).cons _
      List.Perm _ (last :: front[i] :: front.eraseIdx i) := List.Perm.swap _ _ _
      List.Perm _ (last :: front) := (List.getElem_cons_eraseIdx_perm early).cons _
      List.Perm _ (front ++ [last]) := (List.perm_append_singleton last front).symm

section Wide

variable {filters : List BloomFilter} {bf matched : BloomFilter} {alloc : Alloc}

theorem BloomFilter.sameContent_iff (wide : matched.nbytes = 128) :
    matched.SameContent bf ↔ matched.array = bf.array := by
  refine ⟨fun same => funext fun i => same i (by simp [wide]), fun equal i _ => by rw [equal]⟩

theorem BloomFilter.withContent_eq (wide : matched.nbytes = 128) :
    matched.withContent bf = { matched with array := bf.array } := by
  simp [BloomFilter.withContent, wide]

theorem BloomFilter.copyOf_eq (wide : bf.nbytes = 128) (heap : BitArray) :
    bf.copyOf heap = { bf with funcs := hashFunctions } := by
  simp [BloomFilter.copyOf, wide]

theorem tableUpdate_same (found : lookup filters bf.bfId = some matched)
    (wide : matched.nbytes = 128) (same : matched.array = bf.array) :
    tableUpdate alloc filters bf = some (filters, -1) := by
  obtain ⟨i, where_, inside, here⟩ := position_of_lookup found
  simp [tableUpdate, where_, inside, here, wide, BloomFilter.sameContent_iff wide, same]

theorem tableUpdate_changed (found : lookup filters bf.bfId = some matched)
    (wide : matched.nbytes = 128) (differs : matched.array ≠ bf.array) :
    ∃ i, position filters bf.bfId = some i ∧
      tableUpdate alloc filters bf =
        some (filters.set i { matched with array := bf.array }, 1) := by
  obtain ⟨i, where_, inside, here⟩ := position_of_lookup found
  refine ⟨i, where_, ?_⟩
  simp [tableUpdate, where_, inside, here, wide, BloomFilter.sameContent_iff wide, differs,
    BloomFilter.withContent_eq wide]

theorem tableUpdate_insert (absent : lookup filters bf.bfId = none)
    (room : filters.length < bfGdtMaxFilters) (wide : bf.nbytes = 128) (heap : BitArray) :
    tableUpdate (some heap) filters bf =
      some (filters ++ [{ bf with funcs := hashFunctions }], 2) := by
  have missing := position_eq_none.mpr (lookup_eq_none.mp absent)
  simp [tableUpdate, missing, Nat.not_le_of_lt room, wide, BloomFilter.copyOf_eq wide]

def contents (filters : List BloomFilter) (bfId : BitVec 32) : Option BitArray :=
  (lookup filters bfId).map BloomFilter.array

def CanStore (alloc : Alloc) (filters : List BloomFilter) (bfId : BitVec 32) : Prop :=
  (lookup filters bfId).isSome ∨ filters.length < bfGdtMaxFilters ∧ alloc.isSome

instance (alloc : Alloc) (filters : List BloomFilter) (bfId : BitVec 32) :
    Decidable (CanStore alloc filters bfId) := by
  unfold CanStore
  infer_instance

theorem contents_append (absent : lookup filters bf.bfId = none) (other : BitVec 32) :
    contents (filters ++ [bf]) other =
      if other = bf.bfId then some bf.array else contents filters other := by
  rw [contents, lookup_append absent other, key_eq_bfId]
  split <;> simp [contents]

theorem contents_of_not_canStore {bfId : BitVec 32} (cannot : ¬ CanStore alloc filters bfId) :
    contents filters bfId = none := by
  have absent : lookup filters bfId = none := by
    by_contra present
    exact cannot (Or.inl (Option.isSome_iff_ne_none.mpr present))
  rw [contents, absent]
  rfl

structure WideTable (filters : List BloomFilter) : Prop where
  nodup : (keys filters).Nodup
  wide : ∀ bf ∈ filters, bf.nbytes = 128

theorem wideTable_empty (bfId : BitVec 32) (portNo : BitVec 16) :
    WideTable [.empty bfId portNo] := by
  refine ⟨by simp [keys], fun bf member => ?_⟩
  obtain rfl := List.mem_singleton.mp member
  exact BloomFilter.nbytes_of_dftLen rfl

structure Updated (alloc : Alloc) (filters : List BloomFilter) (bf : BloomFilter)
    (after : List BloomFilter) (ret : Int) : Prop where
  table : WideTable after
  changed : 0 < ret ↔ contents filters bf.bfId ≠ some bf.array
  contents_eq : ∀ other, contents after other =
    if other = bf.bfId ∧ CanStore alloc filters bf.bfId then some bf.array
    else contents filters other
  keys_subset : ∀ id ∈ keys after, id = bf.bfId ∨ id ∈ keys filters
  keys_kept : ∀ id ∈ keys filters, id ∈ keys after
  shape : ∀ stored ∈ after,
    (∃ old ∈ filters, stored.len = old.len ∧ stored.funcs = old.funcs) ∨
      stored.len = bf.len ∧ stored.funcs = hashFunctions

private theorem updated_of_found (table : WideTable filters)
    (found : lookup filters bf.bfId = some matched) :
    ∃ after ret, tableUpdate alloc filters bf = some (after, ret) ∧
      Updated alloc filters bf after ret := by
  have wide := table.wide matched (lookup_mem found)
  have stores : CanStore alloc filters bf.bfId := by simp [CanStore, found]
  by_cases same : matched.array = bf.array
  · refine ⟨filters, -1, tableUpdate_same found wide same, table, ?_, fun other => ?_,
      fun _ member => Or.inr member, fun _ member => member,
      fun stored member => Or.inl ⟨stored, member, rfl, rfl⟩⟩
    · simp [contents, found, same]
    · split
      · rename_i here
        simp [contents, here.1, found, same]
      · rfl
  · obtain ⟨i, search, update⟩ := tableUpdate_changed found wide same
    have sameId : matched.bfId = bf.bfId := lookup_key found
    have sameKeys := keys_set search { matched with array := bf.array } sameId
    refine ⟨_, 1, update, ⟨sameKeys ▸ table.nodup, fun other member => ?_⟩, ?_, fun other => ?_,
      fun id member => Or.inr (sameKeys ▸ member), fun id member => sameKeys.symm ▸ member,
      fun stored member => ?_⟩
    · rcases List.mem_or_eq_of_mem_set member with old | rfl
      · exact table.wide other old
      · exact wide
    · simp [contents, found, same]
    · rw [contents, lookup_set search { matched with array := bf.array } sameId]
      by_cases equal : other = bf.bfId
      · simp [equal, stores]
      · simp [equal, contents]
    · rcases List.mem_or_eq_of_mem_set member with old | rfl
      · exact Or.inl ⟨stored, old, rfl, rfl⟩
      · exact Or.inl ⟨matched, lookup_mem found, rfl, rfl⟩

theorem tableUpdate_of_full (absent : lookup filters bf.bfId = none)
    (full : ¬ (filters.length < bfGdtMaxFilters ∧ alloc.isSome)) :
    tableUpdate alloc filters bf = some (filters, 2) := by
  have missing := position_eq_none.mpr (lookup_eq_none.mp absent)
  by_cases room : filters.length < bfGdtMaxFilters
  · obtain rfl : alloc = none := by simpa [room] using full
    simp [tableUpdate, missing]
  · simp [tableUpdate, missing, Nat.le_of_not_lt room]

private theorem updated_of_full (table : WideTable filters)
    (absent : lookup filters bf.bfId = none)
    (full : ¬ (filters.length < bfGdtMaxFilters ∧ alloc.isSome)) :
    ∃ after ret, tableUpdate alloc filters bf = some (after, ret) ∧
      Updated alloc filters bf after ret := by
  have notStored : ¬ CanStore alloc filters bf.bfId := by simpa [CanStore, absent] using full
  refine ⟨filters, 2, tableUpdate_of_full absent full, table, ?_, fun other => ?_, fun _ member => Or.inr member,
    fun _ member => member, fun stored member => Or.inl ⟨stored, member, rfl, rfl⟩⟩
  · simp [contents, absent]
  · simp [notStored]

private theorem updated_of_insert (table : WideTable filters)
    (absent : lookup filters bf.bfId = none) (room : filters.length < bfGdtMaxFilters)
    (wide : bf.nbytes = 128) (heap : BitArray) :
    ∃ after ret, tableUpdate (some heap) filters bf = some (after, ret) ∧
      Updated (some heap) filters bf after ret := by
  have missing : lookup filters (key { bf with funcs := hashFunctions }) = none := absent
  have stores : CanStore (some heap) filters bf.bfId := by simp [CanStore, room]
  refine ⟨_, 2, tableUpdate_insert absent room wide heap,
    ⟨keys_append_nodup table.nodup missing, fun other member => ?_⟩, ?_, fun other => ?_,
    fun id member => ?_, fun id member => ?_, fun stored member => ?_⟩
  · rcases List.mem_append.mp member with old | new
    · exact table.wide other old
    · rw [List.mem_singleton.mp new]
      exact wide
  · simp [contents, absent]
  · rw [contents_append missing]
    simp [stores]
  · have cases_ : id ∈ keys filters ∨ id = bf.bfId := by simpa [keys] using member
    exact cases_.symm
  · rw [keys, List.map_append]
    exact List.mem_append_left _ member
  · rcases List.mem_append.mp member with old | new
    · exact Or.inl ⟨stored, old, rfl, rfl⟩
    · rw [List.mem_singleton.mp new]
      exact Or.inr ⟨rfl, rfl⟩

theorem WideTable.update (table : WideTable filters) (alloc : Alloc) (bf : BloomFilter)
    (fits : lookup filters bf.bfId = none → bf.nbytes = 128) :
    ∃ after ret, tableUpdate alloc filters bf = some (after, ret) ∧
      Updated alloc filters bf after ret := by
  cases found : lookup filters bf.bfId with
  | some matched => exact updated_of_found table found
  | none =>
    by_cases room : filters.length < bfGdtMaxFilters ∧ alloc.isSome
    · obtain ⟨heap, rfl⟩ := Option.isSome_iff_exists.mp room.2
      exact updated_of_insert table found room.1 (fits found) heap
    · exact updated_of_full table found room

theorem WideTable.del (table : WideTable filters) {bfId : BitVec 32}
    (found : lookup filters bfId = some matched) :
    WideTable (tableDel filters bfId).1 ∧
      ∀ other, contents (tableDel filters bfId).1 other =
        if other = bfId then none else contents filters other := by
  obtain ⟨perm, -⟩ := tableDel_perm found
  have consNodup : (keys (matched :: (tableDel filters bfId).1)).Nodup :=
    (perm.map key).nodup_iff.mpr table.nodup
  refine ⟨⟨consNodup.of_cons, fun bf member => ?_⟩, fun other => ?_⟩
  · exact table.wide bf (perm.subset (List.mem_cons_of_mem _ member))
  · rw [contents, lookup_of_cons_perm table.nodup perm, lookup_key found]
    split <;> simp [contents]

end Wide

end LazyCtrl
