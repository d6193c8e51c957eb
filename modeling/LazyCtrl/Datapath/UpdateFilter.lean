import LazyCtrl.Datapath.BfGdtCmd

/-!
# The return value of an update

`bf_gdt_update_filter` reports 1 for a filter that was there with another array, 2 for a filter that
was not there and -1 for no change.  The caller forwards a filter exactly when the value is positive.
The value says what happened as long as the table has room and memory for a new filter.  A full table
stores nothing and reports 2 all the same.
-/

namespace LazyCtrl

open Keyed

/-- The invariant of a table: exactly the first `nbf` of its 64 slots hold filters, and no two of
them have the same id. -/
structure BfGdt.TableInvariant (gdt : BfGdt) : Prop where
  nbf_le : gdt.nbf ≤ bfGdtMaxFilters
  length_eq : gdt.bfArray.length = bfGdtMaxFilters
  used : ∀ i, (gdt.slot i).isSome ↔ i < gdt.nbf
  distinct : ∀ i j bf other, gdt.slot i = some bf → gdt.slot j = some other →
    bf.bfId = other.bfId → i = j

/-- What the return value of an update says, and what the update leaves. -/
structure Reports (gdt : BfGdt) (bf : BloomFilter) (after : BfGdt) (ret : Int) : Prop where
  changed : ret = 1 ↔
    ∃ matched, findFilter (some gdt) bf.bfId = some (some matched) ∧ matched.array ≠ bf.array
  added : ret = 2 ↔
    findFilter (some gdt) bf.bfId = some none ∧
      ∃ stored, findFilter (some after) bf.bfId = some (some stored)
  kept : ret = -1 ↔ after = gdt
  stored : 0 < ret →
    (∃ stored, findFilter (some after) bf.bfId = some (some stored) ∧ stored.array = bf.array) ∧
      ∀ other, other ≠ bf.bfId → findFilter (some after) other = findFilter (some gdt) other
  again : ∀ alloc, bfGdtUpdateFilter alloc after bf = some (after, -1)

/-- The update returns and its value says what happened. -/
def UpdatesCorrectly (alloc : Alloc) (gdt : BfGdt) (bf : BloomFilter) : Prop :=
  ∃ after ret, bfGdtUpdateFilter alloc gdt bf = some (after, ret) ∧ Reports gdt bf after ret

def updateBoth (gdt : BfGdt) (alloc : Alloc) (bf : BloomFilter) (alloc' : Alloc)
    (bf' : BloomFilter) : Option (BfGdt × Int × Int) := do
  let (gdt, ret) ← bfGdtUpdateFilter alloc gdt bf
  let (gdt, ret') ← bfGdtUpdateFilter alloc' gdt bf'
  some (gdt, ret, ret')

/-- Two updates have the same outcome in both orders, up to the order of the slots. -/
def UpdatesCommute (gdt : BfGdt) (alloc : Alloc) (bf : BloomFilter) (alloc' : Alloc)
    (bf' : BloomFilter) : Prop :=
  ∃ left right ret ret',
    updateBoth gdt alloc bf alloc' bf' = some (left, ret, ret') ∧
      updateBoth gdt alloc' bf' alloc bf = some (right, ret', ret) ∧
        left.gid = right.gid ∧ left.nbf = right.nbf ∧ left.bfArray.Perm right.bfArray ∧
          ∀ bfId, findFilter (some left) bfId = findFilter (some right) bfId

/-- The table can take the filter: a new one finds a free slot and memory; an old one has a length
that lies in the array, and whatever lies past it agrees already. -/
def BfGdt.Takes (alloc : Alloc) (gdt : BfGdt) (bf : BloomFilter) : Prop :=
  match findFilter (some gdt) bf.bfId with
  | some (some matched) =>
    matched.nbytes ≤ 128 ∧ ∀ i : Fin 128, matched.nbytes ≤ i.val → matched.array i = bf.array i
  | _ => gdt.nbf < bfGdtMaxFilters ∧ alloc.isSome

def BfGdt.Lacks (gdt : BfGdt) (bf bf' : BloomFilter) : Prop :=
  findFilter (some gdt) bf.bfId = some none ∧ findFilter (some gdt) bf'.bfId = some none

theorem BfGdt.Holds.slot_eq_getElem? {gdt : BfGdt} {filters : List BloomFilter}
    (holds : gdt.Holds filters) (i : Nat) : gdt.slot i = filters[i]? := by
  rw [BfGdt.slot, holds.slots_eq, List.getElem?_append, List.length_map]
  split
  · rename_i inside
    simp [List.getElem?_eq_getElem inside]
  · rename_i outside
    rw [List.getElem?_eq_none (Nat.le_of_not_lt outside), List.getElem?_replicate]
    split <;> rfl

theorem BfGdt.Holds.tableInvariant {gdt : BfGdt} {filters : List BloomFilter}
    (holds : gdt.Holds filters) (nodup : (keys filters).Nodup) : gdt.TableInvariant := by
  refine ⟨holds.nbf_eq ▸ holds.length_le, ?_, fun i => ?_, fun i j bf other here there same => ?_⟩
  · have := holds.length_le
    simp [holds.slots_eq]
    omega
  · rw [holds.slot_eq_getElem?, holds.nbf_eq]
    simp
  · rw [holds.slot_eq_getElem?, List.getElem?_eq_some_iff] at here there
    obtain ⟨inside, rfl⟩ := here
    obtain ⟨otherInside, rfl⟩ := there
    have equal : (keys filters).get ⟨i, by simpa [keys] using inside⟩ =
        (keys filters).get ⟨j, by simpa [keys] using otherInside⟩ := by simpa [keys] using same
    exact Fin.mk.inj (List.nodup_iff_injective_get.mp nodup equal)

theorem BfGdt.Holds.eq_of_gid_eq {gdt other : BfGdt} {filters : List BloomFilter}
    (holds : gdt.Holds filters) (otherHolds : other.Holds filters) (sameGid : other.gid = gdt.gid) :
    other = gdt := by
  cases gdt
  cases other
  simp only [BfGdt.mk.injEq]
  exact ⟨sameGid, otherHolds.nbf_eq.trans holds.nbf_eq.symm,
    otherHolds.slots_eq.trans holds.slots_eq.symm⟩

private theorem slots_eq_of_used {slots : List (Option BloomFilter)} {n : Nat}
    (bound : n ≤ slots.length) (used : ∀ i, (slots[i]?).join.isSome ↔ i < n) :
    ∃ filters : List BloomFilter, filters.length = n ∧
      slots = filters.map some ++ List.replicate (slots.length - n) none := by
  induction slots generalizing n with
  | nil =>
    obtain rfl : n = 0 := by simpa using bound
    exact ⟨[], rfl, rfl⟩
  | cons slot slots ih =>
    have first := used 0
    cases n with
    | zero =>
      obtain rfl : slot = none := by simpa using first
      obtain ⟨filters, empty, slotsEq⟩ := @ih 0 (Nat.zero_le _) fun i => by
        simpa using used (i + 1)
      obtain rfl := List.length_eq_zero_iff.mp empty
      refine ⟨[], rfl, ?_⟩
      simp only [List.map_nil, List.nil_append, Nat.sub_zero, List.length_cons,
        List.replicate_succ] at slotsEq ⊢
      rw [← slotsEq]
    | succ n =>
      obtain ⟨bf, rfl⟩ : ∃ bf, slot = some bf := by
        simpa [Option.isSome_iff_exists] using first
      obtain ⟨filters, rfl, slotsEq⟩ := @ih n (by simpa using bound) fun i => by
        simpa using used (i + 1)
      refine ⟨bf :: filters, rfl, ?_⟩
      simp only [List.map_cons, List.cons_append, List.length_cons, Nat.add_sub_add_right]
      rw [← slotsEq]

theorem BfGdt.TableInvariant.exists_holds {gdt : BfGdt} (invariant : gdt.TableInvariant) :
    ∃ filters, gdt.Holds filters ∧ (keys filters).Nodup := by
  obtain ⟨filters, count, slots⟩ :=
    slots_eq_of_used (invariant.length_eq ▸ invariant.nbf_le) invariant.used
  rw [invariant.length_eq] at slots
  have holds : gdt.Holds filters :=
    ⟨count.symm, count ▸ invariant.nbf_le, by rw [count]; exact slots⟩
  refine ⟨filters, holds, List.nodup_iff_injective_get.mpr fun i j same => Fin.ext ?_⟩
  have inside : i.val < filters.length := by simpa [keys] using i.isLt
  have otherInside : j.val < filters.length := by simpa [keys] using j.isLt
  rw [List.get_eq_getElem, List.get_eq_getElem] at same
  exact invariant.distinct i j _ _ (holds.slot_eq inside) (holds.slot_eq otherInside)
    (by simpa [keys] using same)

section Update

variable {filters : List BloomFilter} {bf bf' : BloomFilter} {alloc alloc' : Alloc}

def TakesFilter (alloc : Alloc) (filters : List BloomFilter) (bf : BloomFilter) : Prop :=
  match lookup filters bf.bfId with
  | some matched =>
    matched.nbytes ≤ 128 ∧ ∀ i : Fin 128, matched.nbytes ≤ i.val → matched.array i = bf.array i
  | none => filters.length < bfGdtMaxFilters ∧ alloc.isSome

theorem BfGdt.Holds.takes_iff {gdt : BfGdt} (holds : gdt.Holds filters) :
    gdt.Takes alloc bf ↔ TakesFilter alloc filters bf := by
  rw [BfGdt.Takes, TakesFilter, findFilter_of_holds holds, holds.nbf_eq]
  cases lookup filters bf.bfId <;> rfl

def storedFilter (filters : List BloomFilter) (bf : BloomFilter) : BloomFilter :=
  match lookup filters bf.bfId with
  | some matched => { matched with array := bf.array }
  | none => { bf with funcs := hashFunctions }

def updateCode (filters : List BloomFilter) (bf : BloomFilter) : Int :=
  match lookup filters bf.bfId with
  | some matched => if matched.array = bf.array then -1 else 1
  | none => 2

structure UpdatedTo (filters : List BloomFilter) (bf : BloomFilter)
    (after : List BloomFilter) : Prop where
  nodup : (keys after).Nodup
  lookup_eq : ∀ other, lookup after other =
    if other = bf.bfId then some (storedFilter filters bf) else lookup filters other
  length_eq : after.length =
    filters.length + if (lookup filters bf.bfId).isSome then 0 else 1
  kept : updateCode filters bf = -1 → after = filters

private theorem updatedTo_of_found {matched : BloomFilter} (nodup : (keys filters).Nodup)
    (found : lookup filters bf.bfId = some matched) (takes : TakesFilter alloc filters bf) :
    ∃ after, tableUpdate alloc filters bf = some (after, updateCode filters bf) ∧
      UpdatedTo filters bf after := by
  rw [TakesFilter, found] at takes
  obtain ⟨fits, tail⟩ := takes
  obtain ⟨i, search, inside, here⟩ := position_of_lookup found
  have sameId : matched.bfId = bf.bfId := lookup_key found
  have same : matched.SameContent bf ↔ matched.array = bf.array := by
    refine ⟨fun same => funext fun j => ?_, fun equal j _ => by rw [equal]⟩
    rcases Nat.lt_or_ge j.val matched.nbytes with low | high
    · exact same j low
    · exact tail j high
  have content : matched.withContent bf = { matched with array := bf.array } := by
    have arrays : (matched.withContent bf).array = bf.array := funext fun j => by
      rcases Nat.lt_or_ge j.val matched.nbytes with low | high
      · simp [BloomFilter.withContent, low]
      · simp [BloomFilter.withContent, Nat.not_lt_of_ge high, tail j high]
    rw [← arrays]
    rfl
  have updated : tableUpdate alloc filters bf =
      if matched.array = bf.array then some (filters, -1)
      else some (filters.set i { matched with array := bf.array }, 1) := by
    simp [tableUpdate, search, inside, here, fits, same, content]
  have present : storedFilter filters bf = { matched with array := bf.array } := by
    rw [storedFilter, found]
  rw [updated, updateCode, found]
  by_cases equal : matched.array = bf.array
  · refine ⟨filters, by simp [equal], nodup, fun other => ?_, by simp [found], fun _ => rfl⟩
    split
    · rename_i isId
      rw [isId, found, present, ← equal]
    · rfl
  · have sameKeys := keys_set search { matched with array := bf.array } sameId
    refine ⟨filters.set i { matched with array := bf.array }, by simp [equal], sameKeys ▸ nodup,
      fun other => ?_, by simp [found], fun code => ?_⟩
    · rw [lookup_set search { matched with array := bf.array } sameId, present]
    · simp [updateCode, found, equal] at code

private theorem updatedTo_of_absent (nodup : (keys filters).Nodup) (len : bf.len = lcBfDftLen)
    (absent : lookup filters bf.bfId = none) (takes : TakesFilter alloc filters bf) :
    ∃ after, tableUpdate alloc filters bf = some (after, updateCode filters bf) ∧
      UpdatedTo filters bf after := by
  rw [TakesFilter, absent] at takes
  obtain ⟨heap, rfl⟩ := Option.isSome_iff_exists.mp takes.2
  have missing : lookup filters (key { bf with funcs := hashFunctions }) = none := absent
  refine ⟨filters ++ [{ bf with funcs := hashFunctions }], ?_, keys_append_nodup nodup missing,
    fun other => ?_, by simp [absent], fun code => ?_⟩
  · rw [tableUpdate_insert absent takes.1 (BloomFilter.nbytes_of_dftLen len) heap, updateCode,
      absent]
  · rw [lookup_append missing, storedFilter, absent]
    rfl
  · simp [updateCode, absent] at code

theorem updatedTo_of_takes (nodup : (keys filters).Nodup) (len : bf.len = lcBfDftLen)
    (takes : TakesFilter alloc filters bf) :
    ∃ after, tableUpdate alloc filters bf = some (after, updateCode filters bf) ∧
      UpdatedTo filters bf after := by
  cases found : lookup filters bf.bfId with
  | some matched => exact updatedTo_of_found nodup found takes
  | none => exact updatedTo_of_absent nodup len found takes

theorem bfGdtUpdateFilter_of_takes {gdt : BfGdt} (holds : gdt.Holds filters)
    (nodup : (keys filters).Nodup) (len : bf.len = lcBfDftLen)
    (takes : TakesFilter alloc filters bf) :
    ∃ gdtAfter after, bfGdtUpdateFilter alloc gdt bf = some (gdtAfter, updateCode filters bf) ∧
      gdtAfter.gid = gdt.gid ∧ gdtAfter.Holds after ∧ UpdatedTo filters bf after := by
  obtain ⟨after, update, updated⟩ := updatedTo_of_takes nodup len takes
  have refines := bfGdtUpdateFilter_refines holds alloc bf
  rw [update] at refines
  obtain ⟨gdtAfter, concrete, sameGid, afterHolds⟩ := refines
  exact ⟨gdtAfter, after, concrete, sameGid, afterHolds, updated⟩

theorem UpdatedTo.takes_again {after : List BloomFilter} (updated : UpdatedTo filters bf after)
    (len : bf.len = lcBfDftLen) (takes : TakesFilter alloc filters bf) (any : Alloc) :
    TakesFilter any after bf ∧ updateCode after bf = -1 := by
  have stored := updated.lookup_eq bf.bfId
  rw [if_pos rfl] at stored
  cases found : lookup filters bf.bfId with
  | some matched =>
    rw [storedFilter, found] at stored
    rw [TakesFilter, found] at takes
    rw [TakesFilter, updateCode, stored]
    exact ⟨⟨takes.1, fun _ _ => rfl⟩, if_pos rfl⟩
  | none =>
    rw [storedFilter, found] at stored
    rw [TakesFilter, updateCode, stored]
    exact ⟨⟨(BloomFilter.nbytes_of_dftLen len).le, fun _ _ => rfl⟩, if_pos rfl⟩

theorem UpdatedTo.takes_other {after : List BloomFilter} (updated : UpdatedTo filters bf after)
    (differ : bf.bfId ≠ bf'.bfId) (takes : TakesFilter alloc' filters bf')
    (room : lookup filters bf.bfId = none → lookup filters bf'.bfId = none →
      filters.length + 2 ≤ bfGdtMaxFilters) :
    TakesFilter alloc' after bf' ∧ updateCode after bf' = updateCode filters bf' ∧
      storedFilter after bf' = storedFilter filters bf' := by
  have same : lookup after bf'.bfId = lookup filters bf'.bfId := by
    rw [updated.lookup_eq, if_neg differ.symm]
  refine ⟨?_, by rw [updateCode, same, updateCode], by rw [storedFilter, same, storedFilter]⟩
  rw [TakesFilter] at takes ⊢
  rw [same]
  cases missing : lookup filters bf'.bfId with
  | some matched =>
    rw [missing] at takes
    exact takes
  | none =>
    rw [missing] at takes
    refine ⟨?_, takes.2⟩
    rw [updated.length_eq]
    cases found : lookup filters bf.bfId with
    | some matched => simpa using takes.1
    | none => simpa using Nat.lt_of_succ_le (room found missing)

end Update

section ReturnValue

variable {gdt : BfGdt} {filters : List BloomFilter} {bf bf' : BloomFilter} {alloc alloc' : Alloc}

theorem UpdatedTo.kept_iff {gdtAfter : BfGdt} {after : List BloomFilter}
    (updated : UpdatedTo filters bf after) (holds : gdt.Holds filters)
    (afterHolds : gdtAfter.Holds after) (sameGid : gdtAfter.gid = gdt.gid) :
    updateCode filters bf = -1 ↔ gdtAfter = gdt := by
  constructor
  · intro code
    rw [updated.kept code] at afterHolds
    exact holds.eq_of_gid_eq afterHolds sameGid
  · rintro rfl
    have search := findFilter_of_holds holds bf.bfId
    rw [findFilter_of_holds afterHolds, updated.lookup_eq, if_pos rfl, Option.some_inj] at search
    rw [updateCode, ← search]
    cases found : lookup filters bf.bfId with
    | none => simp [found] at search
    | some matched =>
      rw [found, Option.some_inj, storedFilter, found] at search
      simp [storedFilter, found]

theorem updatesCorrectly_of_takes (holds : gdt.Holds filters) (nodup : (keys filters).Nodup)
    (len : bf.len = lcBfDftLen) (takes : TakesFilter alloc filters bf) :
    UpdatesCorrectly alloc gdt bf := by
  obtain ⟨gdtAfter, after, update, sameGid, afterHolds, updated⟩ :=
    bfGdtUpdateFilter_of_takes holds nodup len takes
  have stored := updated.lookup_eq bf.bfId
  rw [if_pos rfl] at stored
  have arrayEq : (storedFilter filters bf).array = bf.array := by
    rw [storedFilter]
    split <;> rfl
  refine ⟨gdtAfter, _, update, ?_, ?_, updated.kept_iff holds afterHolds sameGid,
    fun _ => ⟨?_, fun other differs => ?_⟩, fun any => ?_⟩
  · rw [findFilter_of_holds holds, updateCode]
    cases found : lookup filters bf.bfId with
    | none => simp
    | some matched =>
      by_cases equal : matched.array = bf.array
      · simp [equal]
      · simp [equal]
  · rw [findFilter_of_holds holds, findFilter_of_holds afterHolds, stored, updateCode]
    cases found : lookup filters bf.bfId with
    | none => simp
    | some matched =>
      by_cases equal : matched.array = bf.array
      · simp [equal]
      · simp [equal]
  · rw [findFilter_of_holds afterHolds, stored]
    exact ⟨_, rfl, arrayEq⟩
  · rw [findFilter_of_holds afterHolds, findFilter_of_holds holds, updated.lookup_eq,
      if_neg differs]
  · obtain ⟨again, code⟩ := updated.takes_again len takes any
    obtain ⟨gdtAgain, list, update', sameGid', holds', updated'⟩ :=
      bfGdtUpdateFilter_of_takes afterHolds updated.nodup len again
    rw [code] at update'
    rw [update', (updated'.kept_iff afterHolds holds' sameGid').mp code]

private theorem tail_of_updatesCorrectly {matched : BloomFilter} (holds : gdt.Holds filters)
    (found : lookup filters bf.bfId = some matched) (correct : UpdatesCorrectly alloc gdt bf) :
    matched.nbytes ≤ 128 ∧
      ∀ i : Fin 128, matched.nbytes ≤ i.val → matched.array i = bf.array i := by
  obtain ⟨gdtAfter, ret, update, reports⟩ := correct
  have refines := bfGdtUpdateFilter_refines holds alloc bf
  obtain ⟨j, search, inside, here⟩ := position_of_lookup found
  rw [update] at refines
  by_cases fits : matched.nbytes ≤ 128
  · refine ⟨fits, fun i high => ?_⟩
    by_contra differs
    have arraysDiffer : matched.array ≠ bf.array := fun equal => differs (by rw [equal])
    have code : ret = 1 :=
      reports.changed.mpr ⟨matched, by rw [findFilter_of_holds holds, found], arraysDiffer⟩
    by_cases same : matched.SameContent bf
    · -- Nothing is copied although the arrays differ behind the compared bytes.
      have stays : tableUpdate alloc filters bf = some (filters, -1) := by
        simp [tableUpdate, search, inside, here, fits, same]
      rw [stays] at refines
      obtain ⟨other, concrete, -, -⟩ := refines
      have negative : ret = -1 := (Prod.mk.inj (Option.some.inj concrete)).2
      omega
    · -- The bytes behind the copied ones are kept.
      have changed : tableUpdate alloc filters bf =
          some (filters.set j (matched.withContent bf), 1) := by
        simp [tableUpdate, search, inside, here, fits, same]
      rw [changed] at refines
      obtain ⟨other, concrete, -, afterHolds⟩ := refines
      obtain ⟨rfl, -⟩ := Prod.mk.inj (Option.some.inj concrete)
      obtain ⟨⟨stored, storedEq, arrayEq⟩, -⟩ := reports.stored (by omega)
      have sameId : (matched.withContent bf).bfId = bf.bfId := lookup_key found
      rw [findFilter_of_holds afterHolds, lookup_set search _ sameId, if_pos rfl,
        Option.some_inj, Option.some_inj] at storedEq
      apply differs
      rw [← arrayEq, ← storedEq, BloomFilter.withContent]
      exact (if_neg (Nat.not_lt_of_ge high)).symm
  · have undefined : tableUpdate alloc filters bf = none := by
      simp [tableUpdate, search, inside, here, fits]
    rw [undefined] at refines
    cases refines

theorem takes_of_updatesCorrectly (holds : gdt.Holds filters)
    (correct : UpdatesCorrectly alloc gdt bf) : TakesFilter alloc filters bf := by
  rw [TakesFilter]
  cases found : lookup filters bf.bfId with
  | some matched => exact tail_of_updatesCorrectly holds found correct
  | none =>
    by_contra full
    obtain ⟨gdtAfter, ret, update, reports⟩ := correct
    have refines := bfGdtUpdateFilter_refines holds alloc bf
    rw [update, tableUpdate_of_full found full] at refines
    obtain ⟨other, concrete, -, afterHolds⟩ := refines
    obtain ⟨rfl, code⟩ := Prod.mk.inj (Option.some.inj concrete)
    obtain ⟨-, stored, present⟩ := reports.added.mp code
    rw [findFilter_of_holds afterHolds, found] at present
    cases present

theorem updatesCorrectly_iff_takes (holds : gdt.Holds filters) (nodup : (keys filters).Nodup)
    (len : bf.len = lcBfDftLen) : UpdatesCorrectly alloc gdt bf ↔ TakesFilter alloc filters bf :=
  ⟨takes_of_updatesCorrectly holds, updatesCorrectly_of_takes holds nodup len⟩

theorem updateBoth_of_takes (holds : gdt.Holds filters) (nodup : (keys filters).Nodup)
    (len : bf.len = lcBfDftLen) (len' : bf'.len = lcBfDftLen) (differ : bf.bfId ≠ bf'.bfId)
    (takes : TakesFilter alloc filters bf) (takes' : TakesFilter alloc' filters bf')
    (room : lookup filters bf.bfId = none → lookup filters bf'.bfId = none →
      filters.length + 2 ≤ bfGdtMaxFilters) :
    ∃ gdtAfter after,
      updateBoth gdt alloc bf alloc' bf' =
        some (gdtAfter, updateCode filters bf, updateCode filters bf') ∧
      gdtAfter.gid = gdt.gid ∧ gdtAfter.Holds after ∧ (keys after).Nodup ∧
        ∀ other, lookup after other =
          if other = bf'.bfId then some (storedFilter filters bf')
          else if other = bf.bfId then some (storedFilter filters bf)
          else lookup filters other := by
  obtain ⟨gdtFirst, first, update, sameGid, firstHolds, updated⟩ :=
    bfGdtUpdateFilter_of_takes holds nodup len takes
  obtain ⟨takesNext, sameCode, sameStored⟩ := updated.takes_other differ takes' room
  obtain ⟨gdtAfter, after, update', sameGid', afterHolds, updated'⟩ :=
    bfGdtUpdateFilter_of_takes firstHolds updated.nodup len' takesNext
  rw [sameCode] at update'
  refine ⟨gdtAfter, after, ?_, sameGid'.trans sameGid, afterHolds, updated'.nodup, fun other => ?_⟩
  · simp [updateBoth, update, update']
  · rw [updated'.lookup_eq, updated.lookup_eq, sameStored]

theorem updatesCommute_of_takes (holds : gdt.Holds filters) (nodup : (keys filters).Nodup)
    (len : bf.len = lcBfDftLen) (len' : bf'.len = lcBfDftLen) (differ : bf.bfId ≠ bf'.bfId)
    (takes : TakesFilter alloc filters bf) (takes' : TakesFilter alloc' filters bf')
    (room : lookup filters bf.bfId = none → lookup filters bf'.bfId = none →
      filters.length + 2 ≤ bfGdtMaxFilters) :
    UpdatesCommute gdt alloc bf alloc' bf' := by
  obtain ⟨left, leftList, leftRun, leftGid, leftHolds, leftNodup, leftLookup⟩ :=
    updateBoth_of_takes holds nodup len len' differ takes takes' room
  obtain ⟨right, rightList, rightRun, rightGid, rightHolds, rightNodup, rightLookup⟩ :=
    updateBoth_of_takes holds nodup len' len differ.symm takes' takes
      fun missing' missing => room missing missing'
  have same : ∀ bfId, lookup leftList bfId = lookup rightList bfId := fun bfId => by
    rw [leftLookup, rightLookup]
    by_cases first : bfId = bf.bfId
    · subst first
      rw [if_neg differ, if_pos rfl, if_pos rfl]
    · rw [if_neg first, if_neg first]
  have perm := perm_of_lookup_eq leftNodup rightNodup same
  refine ⟨left, right, _, _, leftRun, rightRun, leftGid.trans rightGid.symm, ?_, ?_, fun bfId => ?_⟩
  · rw [leftHolds.nbf_eq, rightHolds.nbf_eq, perm.length_eq]
  · rw [leftHolds.slots_eq, rightHolds.slots_eq, perm.length_eq]
    exact (perm.map some).append_right _
  · rw [findFilter_of_holds leftHolds, findFilter_of_holds rightHolds, same]

theorem updateBoth_of_lastSlot (holds : gdt.Holds filters) (nodup : (keys filters).Nodup)
    (len : bf.len = lcBfDftLen) (differ : bf.bfId ≠ bf'.bfId)
    (takes : TakesFilter alloc filters bf) (missing : lookup filters bf.bfId = none)
    (missing' : lookup filters bf'.bfId = none)
    (lastSlot : ¬ filters.length + 2 ≤ bfGdtMaxFilters) (alloc' : Alloc) :
    ∃ gdtAfter ret ret',
      updateBoth gdt alloc bf alloc' bf' = some (gdtAfter, ret, ret') ∧
        findFilter (some gdtAfter) bf'.bfId = some none ∧
          findFilter (some gdtAfter) bf.bfId ≠ some none := by
  obtain ⟨gdtFirst, first, update, -, firstHolds, updated⟩ :=
    bfGdtUpdateFilter_of_takes holds nodup len takes
  have absent : lookup first bf'.bfId = none := by
    rw [updated.lookup_eq, if_neg differ.symm, missing']
  have full : ¬ (first.length < bfGdtMaxFilters ∧ alloc'.isSome) := by
    rintro ⟨room, -⟩
    have grown := updated.length_eq
    rw [missing] at grown
    simp only [Option.isSome_none, Bool.false_eq_true, if_false] at grown
    omega
  have refines := bfGdtUpdateFilter_refines firstHolds alloc' bf'
  rw [tableUpdate_of_full absent full] at refines
  obtain ⟨gdtAfter, update', -, afterHolds⟩ := refines
  refine ⟨gdtAfter, updateCode filters bf, 2, by simp [updateBoth, update, update'], ?_, ?_⟩
  · rw [findFilter_of_holds afterHolds, absent]
  · rw [findFilter_of_holds afterHolds, updated.lookup_eq, if_pos rfl]
    simp

theorem not_updatesCommute_of_lastSlot (holds : gdt.Holds filters) (nodup : (keys filters).Nodup)
    (len : bf.len = lcBfDftLen) (len' : bf'.len = lcBfDftLen) (differ : bf.bfId ≠ bf'.bfId)
    (takes : TakesFilter alloc filters bf) (takes' : TakesFilter alloc' filters bf')
    (missing : lookup filters bf.bfId = none) (missing' : lookup filters bf'.bfId = none)
    (lastSlot : ¬ filters.length + 2 ≤ bfGdtMaxFilters) :
    ¬ UpdatesCommute gdt alloc bf alloc' bf' := by
  rintro ⟨left, right, ret, ret', leftRun, rightRun, -, -, -, same⟩
  obtain ⟨one, _, _, oneRun, oneLacks, -⟩ :=
    updateBoth_of_lastSlot holds nodup len differ takes missing missing' lastSlot alloc'
  obtain ⟨other, _, _, otherRun, -, otherHas⟩ :=
    updateBoth_of_lastSlot holds nodup len' differ.symm takes' missing' missing lastSlot alloc
  obtain ⟨rfl, -⟩ := Prod.mk.inj (Option.some.inj (leftRun.symm.trans oneRun))
  obtain ⟨rfl, -⟩ := Prod.mk.inj (Option.some.inj (rightRun.symm.trans otherRun))
  exact otherHas ((same bf'.bfId).symm.trans oneLacks)

end ReturnValue

/-- The return values of two updates say what happened and the updates commute exactly when the
table can take both filters, and has two free slots if both are new. -/
theorem updatesCorrectly_and_commute_iff {gdt : BfGdt} (invariant : gdt.TableInvariant)
    (alloc alloc' : Alloc) {bf bf' : BloomFilter} (len : bf.len = lcBfDftLen)
    (len' : bf'.len = lcBfDftLen) (differ : bf.bfId ≠ bf'.bfId) :
    UpdatesCorrectly alloc gdt bf ∧ UpdatesCorrectly alloc' gdt bf' ∧
        UpdatesCommute gdt alloc bf alloc' bf' ↔
      gdt.Takes alloc bf ∧ gdt.Takes alloc' bf' ∧
        (gdt.Lacks bf bf' → gdt.nbf + 2 ≤ bfGdtMaxFilters) := by
  obtain ⟨filters, holds, nodup⟩ := invariant.exists_holds
  have lacks : gdt.Lacks bf bf' ↔
      lookup filters bf.bfId = none ∧ lookup filters bf'.bfId = none := by
    simp [BfGdt.Lacks, findFilter_of_holds holds]
  rw [updatesCorrectly_iff_takes holds nodup len, updatesCorrectly_iff_takes holds nodup len',
    holds.takes_iff, holds.takes_iff, lacks, holds.nbf_eq]
  refine and_congr_right fun takes => and_congr_right fun takes' => ⟨?_, fun room => ?_⟩
  · rintro commute ⟨missing, missing'⟩
    by_contra lastSlot
    exact not_updatesCommute_of_lastSlot holds nodup len len' differ takes takes' missing missing'
      lastSlot commute
  · exact updatesCommute_of_takes holds nodup len len' differ takes takes'
      fun missing missing' => room ⟨missing, missing'⟩

/-- Two switches announce themselves to an empty table. -/
theorem updatesCorrectly_and_commute_emptyTable :
    UpdatesCorrectly (some fun _ => 0) (bfGdtInit 0) (.empty 1 lcBfRemotePort) ∧
      UpdatesCorrectly (some fun _ => 0) (bfGdtInit 0) (.empty 2 lcBfRemotePort) ∧
        UpdatesCommute (bfGdtInit 0) (some fun _ => 0) (.empty 1 lcBfRemotePort)
          (some fun _ => 0) (.empty 2 lcBfRemotePort) :=
  (updatesCorrectly_and_commute_iff ((bfGdtInit_holds 0).tableInvariant (by simp [keys]))
    (some fun _ => 0) (some fun _ => 0) rfl rfl (by decide)).mpr
    ⟨⟨by decide, rfl⟩, ⟨by decide, rfl⟩, fun _ => by decide⟩

def manyFilters : List BloomFilter :=
  (List.range 64).map fun i => .empty (BitVec.ofNat 32 i) lcBfRemotePort

def fullTable : BfGdt := { gid := 0, nbf := 64, bfArray := manyFilters.map some }

theorem fullTable_holds : fullTable.Holds manyFilters := by
  refine ⟨by simp [fullTable, manyFilters], by simp [manyFilters, bfGdtMaxFilters], ?_⟩
  simp [fullTable, manyFilters, bfGdtMaxFilters]

/-- The filter of a further switch is not stored in a full table, and the update reports 2. -/
theorem not_updatesCorrectly_fullTable :
    fullTable.TableInvariant ∧
      bfGdtUpdateFilter (some fun _ => 0) fullTable (.empty 64 lcBfRemotePort) =
        some (fullTable, 2) ∧
        findFilter (some fullTable) 64 = some none ∧
          ¬ UpdatesCorrectly (some fun _ => 0) fullTable (.empty 64 lcBfRemotePort) := by
  have nodup : (keys manyFilters).Nodup := by decide
  have absent : lookup manyFilters 64 = none := by decide
  have full : ¬ (manyFilters.length < bfGdtMaxFilters ∧ (some fun _ => 0 : Alloc).isSome) := by
    simp [manyFilters, bfGdtMaxFilters]
  refine ⟨fullTable_holds.tableInvariant nodup, ?_, ?_, fun correct => ?_⟩
  · have refines := bfGdtUpdateFilter_refines fullTable_holds (some fun _ => 0)
      (.empty 64 lcBfRemotePort)
    rw [tableUpdate_of_full absent full] at refines
    obtain ⟨after, update, sameGid, holds⟩ := refines
    rw [update, fullTable_holds.eq_of_gid_eq holds sameGid]
  · rw [findFilter_of_holds fullTable_holds, absent]
  · have takes := takes_of_updatesCorrectly fullTable_holds correct
    have missing : lookup manyFilters (BloomFilter.empty 64 lcBfRemotePort).bfId = none := absent
    rw [TakesFilter, missing] at takes
    exact full takes

end LazyCtrl
