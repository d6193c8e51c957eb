import LazyCtrl.Datapath.UpdateFilter
import LazyCtrl.Mcast.Bridge

/-!
# The life of a table

Every function of `lib/bf-gdt.c` that inserts a filter leaves the search for a duplicate to its
caller, and deletion moves the last filter into the hole.  This file follows a table through the
calls that the daemon and the kernel module make on it.  Both add the local filter to the table that
they have just initialised and never later.
-/

namespace LazyCtrl

open Keyed

/-- A table as `bridge_lc_init` and `ovs_dp_cmd_new` set it up: fresh from `bf_gdt_init`, or with the
local filter that is added next. -/
def BfGdt.Created (gdt : BfGdt) : Prop :=
  ∃ gid, gdt = bfGdtInit gid ∨
    ∃ alloc localId portNo slot,
      bfGdtAddFilter alloc (bfGdtInit gid) localId portNo lcBfDftLen = some (gdt, slot)

inductive GdtCall where
  | updateLocalBf (alloc : Alloc) (br : Bridge) (srcMac : List Byte)
  | updateFilter (alloc : Alloc) (bf : BloomFilter)
  | delFilter (bfId : BitVec 32)
  | addItem (bfId : BitVec 32) (s : List Byte)

def GdtCall.run (gdt : BfGdt) : GdtCall → Option BfGdt
  | .updateLocalBf alloc br srcMac =>
    (bridgeUpdateLocalBf alloc { br with gdt } srcMac).map fun result => result.1.gdt
  | .updateFilter alloc bf => (bfGdtUpdateFilter alloc gdt bf).map Prod.fst
  | .delFilter bfId => (bfGdtDelFilter gdt bfId).map Prod.fst
  | .addItem bfId s => (bfGdtAddItem gdt bfId s).map Prod.fst

/-- The filters that the call hands over have a length that their array can hold. -/
def GdtCall.CarriesValid : GdtCall → Prop
  | .updateFilter _ bf => bf.Valid
  | _ => True

instance (call : GdtCall) : Decidable call.CarriesValid := by
  cases call <;> unfold GdtCall.CarriesValid <;> infer_instance

/-- A deletion that returns zero removes the filter of the id and no other. -/
def BfGdt.DeletesExactly (gdt : BfGdt) (bfId : BitVec 32) : Prop :=
  ∀ after, bfGdtDelFilter gdt bfId = some (after, 0) →
    findFilter (some after) bfId = some none ∧
      ∀ other, other ≠ bfId → findFilter (some after) other = findFilter (some gdt) other

structure CreatedAs (bfId len : BitVec 32) (portNo : BitVec 16) (bf : BloomFilter) : Prop where
  bfId_eq : bf.bfId = bfId
  len_eq : bf.len = len
  portNo_eq : bf.portNo = portNo
  funcs_eq : bf.funcs = hashFunctions

inductive TableStep (New : BloomFilter → Prop) (filters : List BloomFilter) :
    List BloomFilter → Prop
  | kept : TableStep New filters filters
  | overwritten {i : Nat} {bf : BloomFilter} (array : BitArray)
      (search : position filters bf.bfId = some i) (found : lookup filters bf.bfId = some bf) :
      TableStep New filters (filters.set i { bf with array })
  | appended (bf : BloomFilter) (absent : lookup filters bf.bfId = none) (new : New bf) :
      TableStep New filters (filters ++ [bf])
  | removed {bf : BloomFilter} {after : List BloomFilter} (perm : (bf :: after).Perm filters) :
      TableStep New filters after

section Lists

variable {filters after : List BloomFilter} {New : BloomFilter → Prop}

theorem TableStep.nodup (step : TableStep New filters after) (nodup : (keys filters).Nodup) :
    (keys after).Nodup := by
  cases step with
  | kept => exact nodup
  | @overwritten i bf array search found =>
    rw [keys_set search { bf with array } rfl]
    exact nodup
  | appended bf absent new => exact keys_append_nodup nodup absent
  | removed perm => exact ((perm.map key).nodup_iff.mpr nodup).of_cons

theorem TableStep.forall_mem {P : BloomFilter → Prop} (step : TableStep New filters after)
    (anyArray : ∀ bf array, P bf → P { bf with array }) (ofNew : ∀ bf, New bf → P bf)
    (all : ∀ bf ∈ filters, P bf) : ∀ bf ∈ after, P bf := by
  intro bf member
  cases step with
  | kept => exact all bf member
  | @overwritten i old array search found =>
    rcases List.mem_or_eq_of_mem_set member with before | rfl
    · exact all bf before
    · exact anyArray old array (all old (lookup_mem found))
  | appended created absent new =>
    rcases List.mem_append.mp member with before | here
    · exact all bf before
    · obtain rfl := List.mem_singleton.mp here
      exact ofNew bf new
  | removed perm => exact all bf (perm.subset (List.mem_cons_of_mem _ member))

theorem bfAdd_eq_some {bf changed : BloomFilter} {s : List Byte}
    (added : bfAdd bf s = some changed) : ∃ array, changed = { bf with array } := by
  have loop : ∀ funcs bf, BloomFilter.addFuncs s funcs bf = some changed →
      ∃ array, changed = { bf with array } := fun funcs => by
    induction funcs with
    | nil =>
      intro bf done
      exact ⟨bf.array, (Option.some.inj done).symm⟩
    | cons func funcs ih =>
      intro bf more
      simp only [BloomFilter.addFuncs, Option.bind_eq_bind, Option.bind_eq_some_iff] at more
      obtain ⟨i, -, array, -, rest⟩ := more
      obtain ⟨final, rfl⟩ := ih _ rest
      exact ⟨final, rfl⟩
  exact loop bf.funcs bf added

theorem tableUpdate_step {alloc : Alloc} {bf : BloomFilter} {ret : Int}
    (update : tableUpdate alloc filters bf = some (after, ret)) :
    TableStep (CreatedAs bf.bfId bf.len bf.portNo) filters after := by
  cases found : lookup filters bf.bfId with
  | some matched =>
    obtain ⟨i, search, inside, here⟩ := position_of_lookup found
    have sameId : matched.bfId = bf.bfId := lookup_key found
    simp only [tableUpdate, search, List.getElem?_eq_getElem inside, here, Option.bind_some] at update
    split at update
    · split at update
      · obtain ⟨rfl, -⟩ := Prod.mk.inj (Option.some.inj update)
        exact .kept
      · obtain ⟨rfl, -⟩ := Prod.mk.inj (Option.some.inj update)
        exact .overwritten _ (sameId ▸ search) (sameId ▸ found)
    · cases update
  | none =>
    by_cases room : filters.length < bfGdtMaxFilters ∧ alloc.isSome
    · obtain ⟨heap, rfl⟩ := Option.isSome_iff_exists.mp room.2
      have missing := position_eq_none.mpr (lookup_eq_none.mp found)
      simp only [tableUpdate, missing, Nat.not_le_of_lt room.1, if_false] at update
      split at update
      · obtain ⟨rfl, -⟩ := Prod.mk.inj (Option.some.inj update)
        exact .appended _ found ⟨rfl, rfl, rfl, rfl⟩
      · cases update
    · rw [tableUpdate_of_full found room] at update
      obtain ⟨rfl, -⟩ := Prod.mk.inj (Option.some.inj update)
      exact .kept

theorem tableAddItem_step {bfId : BitVec 32} {s : List Byte} {ret : Int}
    (added : tableAddItem filters bfId s = some (after, ret)) : TableStep New filters after := by
  cases found : lookup filters bfId with
  | some bf =>
    obtain ⟨i, search, inside, here⟩ := position_of_lookup found
    have sameId : bf.bfId = bfId := lookup_key found
    simp only [tableAddItem, search, List.getElem?_eq_getElem inside, here, Option.bind_some,
      Option.map_eq_some_iff] at added
    obtain ⟨changed, add, result⟩ := added
    obtain ⟨rfl, -⟩ := Prod.mk.inj result
    obtain ⟨array, rfl⟩ := bfAdd_eq_some add
    exact .overwritten array (sameId ▸ search) (sameId ▸ found)
  | none =>
    have missing := position_eq_none.mpr (lookup_eq_none.mp found)
    simp only [tableAddItem, missing] at added
    obtain ⟨rfl, -⟩ := Prod.mk.inj (Option.some.inj added)
    exact .kept

theorem tableDel_step (filters : List BloomFilter) (bfId : BitVec 32) :
    TableStep New filters (tableDel filters bfId).1 := by
  cases found : lookup filters bfId with
  | some bf => exact .removed (tableDel_perm found).1
  | none =>
    have missing := position_eq_none.mpr (lookup_eq_none.mp found)
    rw [tableDel, missing]
    exact .kept

theorem bfCreate_eq_some {alloc : Alloc} {bfId len : BitVec 32} {portNo : BitVec 16}
    {bf : BloomFilter} (create : bfCreate alloc bfId len portNo 2 = some (some bf)) :
    CreatedAs bfId len portNo bf := by
  cases alloc with
  | none => cases create
  | some heap =>
    simp only [bfCreate, Option.bind_eq_bind] at create
    split at create
    · obtain ⟨array, -, result⟩ := Option.bind_eq_some_iff.mp create
      obtain rfl := Option.some.inj (Option.some.inj result)
      exact ⟨rfl, rfl, rfl, rfl⟩
    · cases create

theorem tableAdd_step {alloc : Alloc} {bfId len : BitVec 32} {portNo : BitVec 16}
    {slot : Option Nat} (absent : lookup filters bfId = none)
    (added : tableAdd alloc filters bfId portNo len = some (after, slot)) :
    TableStep (CreatedAs bfId len portNo) filters after := by
  simp only [tableAdd] at added
  split at added
  · obtain ⟨rfl, -⟩ := Prod.mk.inj (Option.some.inj added)
    exact .kept
  · obtain ⟨created, create, result⟩ := Option.map_eq_some_iff.mp added
    cases created with
    | none =>
      obtain ⟨rfl, -⟩ := Prod.mk.inj result
      exact .kept
    | some bf =>
      obtain ⟨rfl, -⟩ := Prod.mk.inj result
      have created := bfCreate_eq_some create
      exact .appended bf (created.bfId_eq ▸ absent) created

end Lists

section Calls

variable {gdt gdtAfter : BfGdt} {filters : List BloomFilter}

theorem Refines.exists_holds {α : Type*} {gid : BitVec 32} {concrete : Option (BfGdt × α)}
    {abstract : Option (List BloomFilter × α)} {result : α} (refines : Refines gid concrete abstract)
    (returned : concrete = some (gdtAfter, result)) :
    ∃ after, abstract = some (after, result) ∧ gdtAfter.Holds after := by
  cases abstract with
  | none =>
    rw [returned] at refines
    cases refines
  | some pair =>
    obtain ⟨other, concreteEq, -, holds⟩ := refines
    obtain ⟨rfl, rfl⟩ := Prod.mk.inj (Option.some.inj (concreteEq.symm.trans returned))
    exact ⟨pair.1, rfl, holds⟩

theorem Refines.exists_eq_some {α : Type*} {gid : BitVec 32} {concrete : Option (BfGdt × α)}
    {abstract : Option (List BloomFilter × α)} (refines : Refines gid concrete abstract)
    (defined : abstract.isSome) : ∃ gdtAfter result, concrete = some (gdtAfter, result) := by
  obtain ⟨pair, rfl⟩ := Option.isSome_iff_exists.mp defined
  obtain ⟨other, concreteEq, -, -⟩ := refines
  exact ⟨other, pair.2, concreteEq⟩

def GdtCall.New : GdtCall → BloomFilter → Prop
  | .updateLocalBf _ br _ => CreatedAs br.localId lcBfDftLen lcBfRemotePort
  | .updateFilter _ bf => CreatedAs bf.bfId bf.len bf.portNo
  | .delFilter _ | .addItem _ _ => fun _ => False

theorem GdtCall.valid_of_new {call : GdtCall} (carries : call.CarriesValid) {bf : BloomFilter}
    (new : call.New bf) : bf.Valid := by
  cases call with
  | updateLocalBf alloc br srcMac => exact BloomFilter.valid_of_dftLen new.len_eq
  | updateFilter alloc carried =>
    rw [BloomFilter.Valid, new.len_eq]
    exact carries
  | delFilter | addItem => exact new.elim

private theorem updateLocalBf_cases (holds : gdt.Holds filters) {alloc : Alloc} {br : Bridge}
    {srcMac : List Byte}
    (run : (GdtCall.updateLocalBf alloc br srcMac).run gdt = some gdtAfter) :
    ∃ middle after, gdtAfter.Holds after ∧
      TableStep (CreatedAs br.localId lcBfDftLen lcBfRemotePort) filters middle ∧
        TableStep (CreatedAs br.localId lcBfDftLen lcBfRemotePort) middle after := by
  simp only [GdtCall.run, bridgeUpdateLocalBf, bfGdtFindFilter_of_holds holds,
    Option.bind_eq_bind, Option.bind_some, Option.map_eq_some_iff] at run
  obtain ⟨⟨brAfter, ret⟩, run, rfl⟩ := run
  cases search : position filters br.localId with
  | some i =>
    simp only [search, Option.bind_eq_some_iff, Option.some.injEq] at run
    obtain ⟨⟨added, code⟩, add, result⟩ := run
    obtain ⟨rfl, -⟩ := Prod.mk.inj result
    obtain ⟨after, list, afterHolds⟩ := (bfGdtAddItem_refines holds _ _).exists_holds add
    exact ⟨filters, after, afterHolds, .kept, tableAddItem_step list⟩
  | none =>
    have absent := lookup_eq_none.mpr (position_eq_none.mp search)
    simp only [search, Option.bind_eq_some_iff] at run
    obtain ⟨⟨gdtMiddle, slot⟩, add, rest⟩ := run
    obtain ⟨middle, list, middleHolds⟩ := (bfGdtAddFilter_refines holds _ _ _ _).exists_holds add
    have first := tableAdd_step absent list
    cases slot with
    | none =>
      obtain ⟨rfl, -⟩ := Prod.mk.inj (Option.some.inj rest)
      exact ⟨middle, middle, middleHolds, first, .kept⟩
    | some slot =>
      simp only [Option.bind_eq_some_iff, Option.some.injEq] at rest
      obtain ⟨⟨added, code⟩, addItem, result⟩ := rest
      obtain ⟨rfl, -⟩ := Prod.mk.inj result
      obtain ⟨after, itemList, afterHolds⟩ :=
        (bfGdtAddItem_refines middleHolds _ _).exists_holds addItem
      exact ⟨middle, after, afterHolds, first, tableAddItem_step itemList⟩

theorem GdtCall.run_cases (holds : gdt.Holds filters) {call : GdtCall}
    (run : call.run gdt = some gdtAfter) :
    ∃ middle after, gdtAfter.Holds after ∧
      TableStep call.New filters middle ∧ TableStep call.New middle after := by
  cases call with
  | updateLocalBf alloc br srcMac => exact updateLocalBf_cases holds run
  | updateFilter alloc bf =>
    obtain ⟨⟨_, ret⟩, update, rfl⟩ := Option.map_eq_some_iff.mp run
    obtain ⟨after, list, afterHolds⟩ := (bfGdtUpdateFilter_refines holds _ _).exists_holds update
    exact ⟨filters, after, afterHolds, .kept, tableUpdate_step list⟩
  | delFilter bfId =>
    obtain ⟨⟨_, ret⟩, delete, rfl⟩ := Option.map_eq_some_iff.mp run
    obtain ⟨after, list, afterHolds⟩ := (bfGdtDelFilter_refines holds _).exists_holds delete
    have moved : TableStep (fun _ => False) filters (tableDel filters bfId).1 :=
      tableDel_step filters bfId
    rw [Option.some.inj list] at moved
    exact ⟨filters, after, afterHolds, .kept, moved⟩
  | addItem bfId s =>
    obtain ⟨⟨_, ret⟩, add, rfl⟩ := Option.map_eq_some_iff.mp run
    obtain ⟨after, list, afterHolds⟩ := (bfGdtAddItem_refines holds _ _).exists_holds add
    exact ⟨filters, after, afterHolds, .kept, tableAddItem_step list⟩

theorem tableUpdate_isSome (valid : ∀ bf ∈ filters, bf.Valid) (alloc : Alloc) {bf : BloomFilter}
    (carried : bf.Valid) : (tableUpdate alloc filters bf).isSome := by
  cases found : lookup filters bf.bfId with
  | some matched =>
    obtain ⟨i, search, inside, here⟩ := position_of_lookup found
    have fits := (valid matched (lookup_mem found)).nbytes_le
    simp only [tableUpdate, search, List.getElem?_eq_getElem inside, here, Option.bind_some, fits,
      if_true]
    split <;> rfl
  | none =>
    by_cases room : filters.length < bfGdtMaxFilters ∧ alloc.isSome
    · obtain ⟨heap, rfl⟩ := Option.isSome_iff_exists.mp room.2
      have missing := position_eq_none.mpr (lookup_eq_none.mp found)
      simp [tableUpdate, missing, Nat.not_le_of_lt room.1, carried.nbytes_le]
    · rw [tableUpdate_of_full found room]
      rfl

theorem tableAddItem_isSome (valid : ∀ bf ∈ filters, bf.Valid) (bfId : BitVec 32)
    (s : List Byte) : (tableAddItem filters bfId s).isSome := by
  cases found : lookup filters bfId with
  | some bf =>
    obtain ⟨i, search, inside, here⟩ := position_of_lookup found
    obtain ⟨array, added, -⟩ := bfAdd_of_valid (valid bf (lookup_mem found)) s
    simp [tableAddItem, search, List.getElem?_eq_getElem inside, here, added]
  | none =>
    have missing := position_eq_none.mpr (lookup_eq_none.mp found)
    simp [tableAddItem, missing]

theorem tableAdd_isSome (alloc : Alloc) (filters : List BloomFilter) (bfId : BitVec 32)
    (portNo : BitVec 16) : (tableAdd alloc filters bfId portNo lcBfDftLen).isSome := by
  rw [tableAdd]
  split
  · rfl
  · cases alloc with
    | none => rfl
    | some heap =>
      rw [bfCreate_dftLen]
      rfl

private theorem updateLocalBf_defined (holds : gdt.Holds filters)
    (valid : ∀ bf ∈ filters, bf.Valid) (alloc : Alloc) (br : Bridge) (srcMac : List Byte) :
    ∃ gdtAfter, (GdtCall.updateLocalBf alloc br srcMac).run gdt = some gdtAfter := by
  simp only [GdtCall.run, bridgeUpdateLocalBf, bfGdtFindFilter_of_holds holds,
    Option.bind_eq_bind, Option.bind_some]
  cases search : position filters br.localId with
  | some i =>
    obtain ⟨added, ret, add⟩ := (bfGdtAddItem_refines holds br.localId srcMac).exists_eq_some
      (tableAddItem_isSome valid _ _)
    exact ⟨added, by simp [add]⟩
  | none =>
    have absent := lookup_eq_none.mpr (position_eq_none.mp search)
    have refines := bfGdtAddFilter_refines holds alloc br.localId lcBfRemotePort lcBfDftLen
    obtain ⟨gdtMiddle, slot, add⟩ := refines.exists_eq_some (tableAdd_isSome _ _ _ _)
    obtain ⟨middle, list, middleHolds⟩ := refines.exists_holds add
    have middleValid := (tableAdd_step absent list).forall_mem (fun _ _ => id)
      (fun _ new => BloomFilter.valid_of_dftLen new.len_eq) valid
    cases slot with
    | none => exact ⟨gdtMiddle, by simp [add]⟩
    | some slot =>
      obtain ⟨added, ret, item⟩ :=
        (bfGdtAddItem_refines middleHolds br.localId srcMac).exists_eq_some
          (tableAddItem_isSome middleValid _ _)
      exact ⟨added, by simp [add, item]⟩

theorem GdtCall.run_defined (holds : gdt.Holds filters) (valid : ∀ bf ∈ filters, bf.Valid)
    {call : GdtCall} (carries : call.CarriesValid) : ∃ gdtAfter, call.run gdt = some gdtAfter := by
  cases call with
  | updateLocalBf alloc br srcMac => exact updateLocalBf_defined holds valid alloc br srcMac
  | updateFilter alloc bf =>
    obtain ⟨after, ret, update⟩ := (bfGdtUpdateFilter_refines holds alloc bf).exists_eq_some
      (tableUpdate_isSome valid alloc carries)
    exact ⟨after, by simp [GdtCall.run, update]⟩
  | delFilter bfId =>
    obtain ⟨after, ret, delete⟩ := (bfGdtDelFilter_refines holds bfId).exists_eq_some rfl
    exact ⟨after, by simp [GdtCall.run, delete]⟩
  | addItem bfId s =>
    obtain ⟨after, ret, add⟩ := (bfGdtAddItem_refines holds bfId s).exists_eq_some
      (tableAddItem_isSome valid bfId s)
    exact ⟨after, by simp [GdtCall.run, add]⟩

end Calls

def BfGdt.Distinct (gdt : BfGdt) : Prop := ∃ filters, gdt.Holds filters ∧ (keys filters).Nodup

def BfGdt.DistinctValid (gdt : BfGdt) : Prop :=
  ∃ filters, gdt.Holds filters ∧ (keys filters).Nodup ∧ ∀ bf ∈ filters, bf.Valid

theorem BfGdt.Created.distinctValid {gdt : BfGdt} (created : gdt.Created) :
    gdt.DistinctValid := by
  obtain ⟨gid, rfl | ⟨alloc, localId, portNo, slot, added⟩⟩ := created
  · exact ⟨[], bfGdtInit_holds gid, by simp [keys], by simp⟩
  · obtain ⟨-, ⟨-, -, holds⟩ | ⟨-, holds⟩⟩ := bfGdtAddFilter_init added
    · exact ⟨[], holds, by simp [keys], by simp⟩
    · refine ⟨_, holds, (wideTable_empty localId portNo).nodup, fun bf member => ?_⟩
      obtain rfl := List.mem_singleton.mp member
      exact BloomFilter.valid_of_dftLen rfl

theorem BfGdt.DistinctValid.distinct {gdt : BfGdt} (table : gdt.DistinctValid) : gdt.Distinct := by
  obtain ⟨filters, holds, nodup, -⟩ := table
  exact ⟨filters, holds, nodup⟩

theorem distinct_step {gdt after : BfGdt} {call : GdtCall} (table : gdt.Distinct)
    (run : call.run gdt = some after) : after.Distinct := by
  obtain ⟨filters, holds, nodup⟩ := table
  obtain ⟨middle, last, afterHolds, first, second⟩ := call.run_cases holds run
  exact ⟨last, afterHolds, second.nodup (first.nodup nodup)⟩

theorem distinctValid_step {gdt : BfGdt} {call : GdtCall} (table : gdt.DistinctValid)
    (carries : call.CarriesValid) : ∃ after, call.run gdt = some after ∧ after.DistinctValid := by
  obtain ⟨filters, holds, nodup, valid⟩ := table
  obtain ⟨after, run⟩ := call.run_defined holds valid carries
  obtain ⟨middle, last, afterHolds, first, second⟩ := call.run_cases holds run
  have ofNew : ∀ bf, call.New bf → bf.Valid := fun _ new => call.valid_of_new carries new
  exact ⟨after, run, last, afterHolds, second.nodup (first.nodup nodup),
    second.forall_mem (fun _ _ => id) ofNew (first.forall_mem (fun _ _ => id) ofNew valid)⟩

theorem BfGdt.Distinct.deletesExactly {gdt : BfGdt} (table : gdt.Distinct) (bfId : BitVec 32) :
    gdt.DeletesExactly bfId := by
  obtain ⟨filters, holds, nodup⟩ := table
  intro after deleted
  obtain ⟨last, list, afterHolds⟩ := (bfGdtDelFilter_refines holds bfId).exists_holds deleted
  have listEq := Option.some.inj list
  cases found : lookup filters bfId with
  | none =>
    have missing := position_eq_none.mpr (lookup_eq_none.mp found)
    rw [tableDel, missing] at listEq
    cases (Prod.mk.inj listEq).2
  | some bf =>
    obtain ⟨perm, -⟩ := tableDel_perm found
    rw [listEq] at perm
    have sameId : key bf = bfId := lookup_key found
    have search := lookup_of_cons_perm nodup perm
    rw [sameId] at search
    refine ⟨?_, fun other differs => ?_⟩
    · rw [findFilter_of_holds afterHolds, search, if_pos rfl]
    · rw [findFilter_of_holds afterHolds, findFilter_of_holds holds, search, if_neg differs]

/-- Whatever calls are made on a table, its first `nbf` slots hold filters with different ids, and a
deletion removes exactly the filter that it names.  The calls return as long as the filters handed
over have lengths that their arrays can hold. -/
theorem tableInvariant_of_calls {start : BfGdt} (created : start.Created) (calls : List GdtCall) :
    (∀ final, Run.exec GdtCall.run start calls = some final →
      final.TableInvariant ∧ ∀ bfId, final.DeletesExactly bfId) ∧
    ((∀ call ∈ calls, call.CarriesValid) →
      ∃ final, Run.exec GdtCall.run start calls = some final) := by
  have initial := created.distinctValid
  constructor
  · intro final run
    have table : final.Distinct :=
      Run.exec_preserves BfGdt.Distinct (fun table taken => distinct_step table taken)
        initial.distinct run
    refine ⟨?_, table.deletesExactly⟩
    obtain ⟨filters, holds, nodup⟩ := table
    exact holds.tableInvariant nodup
  · intro carries
    have along : Run.Along GdtCall.run (fun _ call => call.CarriesValid) start calls :=
      Run.along_of_forall carries
    obtain ⟨final, run, -⟩ := Run.exec_progress BfGdt.DistinctValid
      (fun table admissible => distinctValid_step table admissible) initial along
    exact ⟨final, run⟩

/-- The filter of another switch arrives, its host is seen, and the filter is deleted again. -/
theorem tableInvariant_of_updateAndDelete :
    ∃ final, Run.exec GdtCall.run (bfGdtInit 3)
        [.updateFilter (some fun _ => 0) (.empty 1 lcBfRemotePort), .addItem 1 [49, 50],
          .delFilter 1] = some final ∧ final.TableInvariant := by
  have created : (bfGdtInit 3).Created := ⟨3, Or.inl rfl⟩
  have calls := tableInvariant_of_calls created
    [.updateFilter (some fun _ => 0) (.empty 1 lcBfRemotePort), .addItem 1 [49, 50], .delFilter 1]
  obtain ⟨final, run⟩ := calls.2 (by decide)
  exact ⟨final, run, (calls.1 final run).1⟩

end LazyCtrl
