import Mathlib.Data.Finset.Filter
import Mathlib.Data.Finset.Sort
import LazyCtrl.Sim.Hosts

/-!
# The accounts of the traffic

`testTraffic` sends the flows of a file through the data center and counts, for each flow between
two switches, whether source and destination are in one group and what the filters of the source
group say about the destination.  A filter never misses a host of its switch, so a destination in
the group is always found; a filter that reports a host of another group is a false positive.

The bytes of a flow are a floating-point number; their type, their addition and their conversion are
parameters, as is the order in which the switches of a group are visited.
-/

namespace LazyCtrl
namespace Sim

open Text Keyed

structure StatCollector (β : Type) where
  queryArp : Int
  queryControlOrigin : Int
  queryControlCurrent : Int
  flowLocal : Int
  flowWithinGroup : Int
  flowCrossGroup : Int
  byteLocal : β
  byteWithinGroup : β
  byteCrossGroup : β
  tp : Int
  tn : Int
  fp : Int

structure AffinityCell where
  gid : Int
  flow : Int
  deriving DecidableEq, Repr

instance : Keyed AffinityCell Int := ⟨AffinityCell.gid⟩

structure AffinityRow where
  gid : Int
  cells : List AffinityCell
  deriving DecidableEq, Repr

instance : Keyed AffinityRow Int := ⟨AffinityRow.gid⟩

structure TrafficState (β : Type) where
  affinityMatrix : List AffinityRow
  stat : StatCollector β

structure KeyOrder where
  visit : Finset Int → List Int
  nodup : ∀ keys, (visit keys).Nodup
  mem : ∀ keys key, key ∈ visit keys ↔ key ∈ keys

def KeyOrder.sorted : KeyOrder where
  visit keys := keys.sort (· ≤ ·)
  nodup keys := keys.sort_nodup (· ≤ ·)
  mem _ _ := Finset.mem_sort (· ≤ ·)

def AffinityRow.new (gid numGroup : Int) : AffinityRow :=
  ⟨gid, (List.range numGroup.toNat).map fun i => ⟨i, 0⟩⟩

def AffinityCell.add (gid flow : Int) (present : Option AffinityCell) : AffinityCell :=
  ⟨gid, (present.map AffinityCell.flow).getD 0 + flow⟩

def AffinityRow.add (numGroup srcGid dstGid flow : Int) (present : Option AffinityRow) :
    AffinityRow :=
  let row := present.getD (.new srcGid numGroup)
  { row with cells := upsert row.cells dstGid (AffinityCell.add dstGid flow) }

section Send

variable {β : Type} [Zero β] [Add β]

def StatCollector.new : StatCollector β :=
  { queryArp := 0, queryControlOrigin := 0, queryControlCurrent := 0, flowLocal := 0,
    flowWithinGroup := 0, flowCrossGroup := 0, byteLocal := 0, byteWithinGroup := 0,
    byteCrossGroup := 0, tp := 0, tn := 0, fp := 0 }

def TrafficState.new : TrafficState β := ⟨[], .new⟩

omit [Zero β] in
def StatCollector.addLocal (stat : StatCollector β) (flow : Int) (oct : β) : StatCollector β :=
  { stat with
    queryArp := stat.queryArp + flow
    flowLocal := stat.flowLocal + flow
    byteLocal := stat.byteLocal + oct }

omit [Zero β] in
def StatCollector.addFlow (stat : StatCollector β) (isInGroup : Bool) (flow : Int) (oct : β) :
    StatCollector β :=
  if isInGroup then
    { stat with
      flowWithinGroup := stat.flowWithinGroup + flow
      byteWithinGroup := stat.byteWithinGroup + oct }
  else
    { stat with
      flowCrossGroup := stat.flowCrossGroup + flow
      byteCrossGroup := stat.byteCrossGroup + oct }

omit [Zero β] [Add β] in
def StatCollector.addQueries (stat : StatCollector β) (hits : Nat) (found : Bool) (flow : Int) :
    StatCollector β :=
  let stat :=
    if hits = 0 then
      { stat with tn := stat.tn + flow, queryControlCurrent := stat.queryControlCurrent + flow }
    else if found then
      { stat with
        tp := stat.tp + flow
        queryControlCurrent := stat.queryControlCurrent + flow * (hits - 1) }
    else { stat with fp := stat.fp + flow }
  { stat with queryControlOrigin := stat.queryControlOrigin + flow }

def Dc.gidAt (dc : Dc) (swid : Int) : Except SimError Int :=
  match dc.gidOf swid with
  | none => .error .attr
  | some gid => .ok gid

def Dc.hitSw (sha1 : Chars → Nat) (dc : Dc) (srcSwid : Int) (dst : Vm) :
    List Int → Except SimError (List Int)
  | [] => .ok []
  | swid :: swids =>
    if swid = srcSwid then dc.hitSw sha1 srcSwid dst swids
    else
      match lookup dc.swDic swid with
      | none => .error .key
      | some (.core _) | some (.agg _) => .error .attr
      | some (.edge sw) => do
          let rest ← dc.hitSw sha1 srcSwid dst swids
          .ok (if sw.hasVMbyBF sha1 dst then swid :: rest else rest)

def Dc.foundAt (dc : Dc) (dst : Vm) (swids : List Int) : Bool :=
  swids.any fun swid =>
    match lookup dc.swDic swid with
    | some (.edge sw) => sw.hasVM dst
    | _ => false

omit [Zero β] in
def Dc.sendVMTraffic (sha1 : Chars → Nat) (order : KeyOrder) (dc : Dc) (state : TrafficState β)
    (src dst : Vm) (flow : Int) (oct : β) : TrafficState β × Except SimError (Option Bool) :=
  if src.swid = dst.swid then
    ({ state with stat := state.stat.addLocal flow oct }, .ok (some true))
  else
    match dc.gidAt src.swid, dc.gidAt dst.swid with
    | .error error, _ | _, .error error => (state, .error error)
    | .ok srcGid, .ok dstGid =>
      match lookup dc.groupDic srcGid with
      | none => (state, .ok none)
      | some srcGroup =>
        let isInGroup := decide (srcGid = dstGid)
        let state : TrafficState β :=
          { affinityMatrix := upsert state.affinityMatrix srcGid
              (AffinityRow.add dc.numGroup srcGid dstGid flow)
            stat := state.stat.addFlow isInGroup flow oct }
        match dc.hitSw sha1 src.swid dst (order.visit srcGroup.swDic) with
        | .error error => (state, .error error)
        | .ok hits =>
          ({ state with
              stat := state.stat.addQueries hits.length (dc.foundAt dst hits) flow },
            .ok (some isInGroup))

end Send

structure TrafficLine (β : Type) where
  src : Int
  dst : Int
  flow : Int
  oct : β

section Test

variable {β : Type} [Add β] (sha1 : Chars → Nat) (order : KeyOrder)
  (pyFloat : Chars → Option β)

omit [Add β] in
def readTrafficLine (line : Chars) : Option (TrafficLine β) :=
  match pySplit line with
  | [src, dst, flow, oct] => do
      let src ← pyIntOf src
      let dst ← pyIntOf dst
      let flow ← pyIntOf flow
      let oct ← pyFloat oct
      some { src, dst, flow, oct }
  | _ => none

def Dc.sendLine (dc : Dc) (state : TrafficState β) (line : TrafficLine β) :
    TrafficState β × Option SimError :=
  match lookup dc.vmDic line.src, lookup dc.vmDic line.dst with
  | some src, some dst =>
    match dc.sendVMTraffic sha1 order state src dst line.flow line.oct with
    | (state, .ok _) => (state, none)
    | (state, .error error) => (state, some error)
  | _, _ => (state, none)

def Dc.testTraffic (dc : Dc) : TrafficState β → List Chars → TrafficState β × Option SimError
  | state, [] => (state, none)
  | state, line :: lines =>
    match readTrafficLine pyFloat line with
    | none => (state, some .value)
    | some line =>
      match dc.sendLine sha1 order state line with
      | (state, none) => dc.testTraffic state lines
      | (state, some error) => (state, some error)

variable {sha1 order pyFloat}

theorem Dc.testTraffic_cons {dc : Dc} {state : TrafficState β} {line : Chars}
    {parsed : TrafficLine β} (read : readTrafficLine pyFloat line = some parsed)
    (noError : (dc.sendLine sha1 order state parsed).2 = none) (lines : List Chars) :
    dc.testTraffic sha1 order pyFloat state (line :: lines) =
      dc.testTraffic sha1 order pyFloat (dc.sendLine sha1 order state parsed).1 lines := by
  rw [Dc.testTraffic, read]
  dsimp only
  generalize dc.sendLine sha1 order state parsed = outcome at noError
  obtain ⟨after, error⟩ := outcome
  obtain rfl : error = none := noError
  rfl

end Test

def Dc.FiltersSound (sha1 : Chars → Nat) (dc : Dc) : Prop :=
  ∀ swid hosts, dc.attachedAt swid = some hosts →
    ∀ vmid ∈ keys hosts.vmDic, filterContains sha1 hosts.bf vmid = true

structure Dc.Ready (sha1 : Chars → Nat) (dc : Dc) : Prop where
  grouped : dc.Grouped
  right : dc.HostsRight
  listed : dc.Listed
  filters : dc.FiltersSound sha1

section Filter

variable (sha1 : Chars → Nat) (array : FilterBytes) (vmid : Int)

theorem filterContains_filterUpdate_self :
    filterContains sha1 (filterUpdate sha1 array vmid) vmid = true := by
  rw [filterContains_iff, binsOf_filterUpdate]
  exact Bloom.reports_add_self _ _ _

variable {sha1 array vmid}

theorem filterContains_filterUpdate (other : Int)
    (reported : filterContains sha1 array vmid = true) :
    filterContains sha1 (filterUpdate sha1 array other) vmid = true := by
  rw [filterContains_iff] at reported ⊢
  rw [binsOf_filterUpdate]
  exact reported.mono Set.subset_union_left

end Filter

namespace Dc

section Ready

variable {sha1 : Chars → Nat} {dc other : Dc}

theorem SameHosts.filtersSound (same : SameHosts dc other) (sound : dc.FiltersSound sha1) :
    other.FiltersSound sha1 := by
  rw [FiltersSound, same.attachedAt]
  exact sound

theorem FiltersSound.update (sound : dc.FiltersSound sha1) {swid : Int} {hosts : Attached}
    (attached : other.attachedAt = Function.update dc.attachedAt swid (some hosts))
    (reported : ∀ vmid ∈ keys hosts.vmDic, filterContains sha1 hosts.bf vmid = true) :
    other.FiltersSound sha1 := by
  intro switch others found
  rw [attached] at found
  by_cases here : switch = swid
  · rw [here, Function.update_self] at found
    exact Option.some.inj found ▸ reported
  · rw [Function.update_of_ne here] at found
    exact sound switch others found

theorem FiltersSound.readSwitches (sound : dc.FiltersSound sha1) (swid : Int)
    (lines : List Chars) : (dc.readSwitches sha1 swid lines).1.FiltersSound sha1 := by
  refine readSwitches_keeps (FiltersSound sha1) ?_ sound swid lines
  intro dc swid gid sound
  rw [placeSwitch]
  split
  · exact (sameHosts_updateEdgeSWInfo dc swid gid).filtersSound sound
  · exact sound.update (attachedAt_addSwitch dc (.new sha1 swid gid 0))
      (by simp [attached_new_zero, Attached.nothing, keys])

theorem FiltersSound.placeVm (sound : dc.FiltersSound sha1) (vm : Vm) :
    (dc.placeVm sha1 vm).1.FiltersSound sha1 := by
  cases found : dc.attachedAt vm.swid with
  | none =>
    obtain ⟨error, outcome⟩ := @placeVm_missing sha1 _ _ found
    rw [outcome]
    exact sound
  | some hosts =>
    obtain ⟨-, -, -, -, attached⟩ := @placeVm_attached sha1 _ _ _ found
    refine sound.update attached ?_
    intro vmid member
    rcases (mem_keys_upsert (keepsKey_vm vm)).mp member with rfl | old
    · exact filterContains_filterUpdate_self _ _ _
    · exact filterContains_filterUpdate _ (sound _ _ found vmid old)

theorem placeVm_groups (dc : Dc) (vm : Vm) :
    (dc.placeVm sha1 vm).1.gidOf = dc.gidOf ∧
      (dc.placeVm sha1 vm).1.groupDic = dc.groupDic ∧
      (dc.placeVm sha1 vm).1.numGroup = dc.numGroup := by
  rw [Dc.placeVm]
  simp only [addVM]
  rcases search : lookup dc.swDic vm.swid with - | - | - | sw
  · exact ⟨rfl, rfl, rfl⟩
  · exact ⟨rfl, rfl, rfl⟩
  · exact ⟨rfl, rfl, rfl⟩
  · refine ⟨?_, rfl, rfl⟩
    have swid : (sw.addVM sha1 vm).swid = vm.swid := lookup_key search
    have here : dc.gidOf vm.swid = some sw.gid := gidOf_eq_some.mpr ⟨sw, search, rfl⟩
    rw [gidOf_upsert (sw.addVM sha1 vm) (by rw [swid]), swid]
    exact Function.update_eq_self_iff.mpr here.symm

theorem Grouped.placeVm (grouped : dc.Grouped) (vm : Vm) : (dc.placeVm sha1 vm).1.Grouped := by
  obtain ⟨gids, groupDic, numGroup⟩ := @placeVm_groups sha1 dc vm
  constructor
  · rw [gids]
    exact grouped.groups.congr groupDic numGroup
  · rw [gids, edgeSWList_placeVm]
    exact grouped.edges

theorem Ready.readVms (ready : dc.Ready sha1) {lines : List Chars}
    (new : dc.NewHosts (readableVms lines)) : (dc.readVms sha1 lines).1.Ready sha1 := by
  constructor
  · exact readVms_keeps Dc.Grouped (fun _ vm grouped => grouped.placeVm vm) ready.grouped lines
  · exact (hostsRight_readVms_iff ready.right ready.listed).mpr new
  · exact ready.listed.readVms lines
  · exact readVms_keeps (FiltersSound sha1) (fun _ vm sound => sound.placeVm vm) ready.filters lines

theorem vmDic_readVms (listed : dc.Listed) {lines : List Chars}
    (new : dc.NewHosts (readableVms lines)) :
    (dc.readVms sha1 lines).1.vmDic = dc.vmDic ++ readableVms lines := by
  induction lines generalizing dc with
  | nil => exact (List.append_nil _).symm
  | cons line lines ih =>
    rw [Dc.readVms, readableVms] at *
    cases read : readVm line with
    | none => exact (List.append_nil _).symm
    | some vm =>
      rw [read] at new
      obtain ⟨⟨fresh, edge⟩, rest⟩ := (@newHosts_cons sha1 _ _ _).mp new
      obtain ⟨hosts, found⟩ := Option.isSome_iff_exists.mp ((listed.edges _).mp edge)
      have absent : lookup dc.vmDic vm.vmid = none := by
        rwa [← Option.not_isSome_iff_eq_none, lookup_isSome_iff]
      dsimp only
      rw [Outcome.andThen_of_none (placeVm_attached found).1, ih (listed.placeVm vm) rest,
        (numVm_placeVm dc vm).2, addVM, upsert_of_absent absent, List.append_assoc]
      rfl

theorem groups_readVms (dc : Dc) (lines : List Chars) :
    (dc.readVms sha1 lines).1.gidOf = dc.gidOf ∧
      (dc.readVms sha1 lines).1.groupDic = dc.groupDic := by
  refine readVms_keeps (fun after => after.gidOf = dc.gidOf ∧ after.groupDic = dc.groupDic) ?_
    ⟨rfl, rfl⟩ lines
  rintro after vm ⟨gids, groups⟩
  obtain ⟨sameGids, sameGroups, -⟩ := @placeVm_groups sha1 after vm
  exact ⟨sameGids.trans gids, sameGroups.trans groups⟩

end Ready

/-- The data center of the manual mode: switches and hosts are read from files. -/
def manual (sha1 : Chars → Nat) (switches hosts : List Chars) : Dc :=
  ((Dc.empty.readinEdgeSWInfo sha1 switches).1.readinVMInfo sha1 hosts).1

/-- The files of the manual mode: group ids are not negative, and every host is named once, at a
switch that exists. -/
structure ManualFiles (sha1 : Chars → Nat) (switches hosts : List Chars) : Prop where
  nonneg : ∀ line ∈ switches, ∀ gid, pyIntLine line = some gid → 0 ≤ gid
  once : (keys (readableVms hosts)).Nodup
  edge : ∀ vm ∈ readableVms hosts,
    vm.swid ∈ (Dc.empty.readinEdgeSWInfo sha1 switches).1.edgeSWList

theorem ready_readSwitches {sha1 : Chars → Nat} {switches : List Chars}
    (nonneg : ∀ line ∈ switches, ∀ gid, pyIntLine line = some gid → 0 ≤ gid) :
    (Dc.empty.readinEdgeSWInfo sha1 switches).1.Ready sha1 := by
  obtain ⟨right, listed⟩ := hostsRight_empty
  have hosts := @HostsRight.readSwitches sha1 _ right listed 1 switches
  have sound : Dc.empty.FiltersSound sha1 := by
    intro swid hosts found
    simp [Dc.empty, attachedAt, lookup] at found
  exact ⟨(grouped_empty.readSwitches 1 nonneg).2, hosts.1, hosts.2, sound.readSwitches 1 switches⟩

theorem vmDic_readSwitches {sha1 : Chars → Nat} (dc : Dc) (swid : Int) (lines : List Chars) :
    (dc.readSwitches sha1 swid lines).1.vmDic = dc.vmDic := by
  refine readSwitches_keeps (fun after => after.vmDic = dc.vmDic) ?_ rfl swid lines
  intro after swid gid same
  rw [← same, placeSwitch]
  split
  · exact (sameHosts_updateEdgeSWInfo after swid gid).vmDic
  · exact (vms_addSwitch after (attached_new_zero swid gid)).1

theorem ManualFiles.newHosts {sha1 : Chars → Nat} {switches hosts : List Chars}
    (files : ManualFiles sha1 switches hosts) :
    (Dc.empty.readinEdgeSWInfo sha1 switches).1.NewHosts (readableVms hosts) := by
  refine ⟨files.once, ?_, files.edge⟩
  rw [readinEdgeSWInfo, vmDic_readSwitches]
  simp [Dc.empty, keys]

theorem ManualFiles.ready {sha1 : Chars → Nat} {switches hosts : List Chars}
    (files : ManualFiles sha1 switches hosts) : (manual sha1 switches hosts).Ready sha1 :=
  (ready_readSwitches files.nonneg).readVms files.newHosts

def reports (sha1 : Chars → Nat) (dc : Dc) (swid : Int) (dst : Vm) : Bool :=
  match lookup dc.swDic swid with
  | some (.edge sw) => sw.hasVMbyBF sha1 dst
  | _ => false

def hits (sha1 : Chars → Nat) (dc : Dc) (group : Group) (src dst : Vm) : Finset Int :=
  group.swDic.filter fun swid => swid ≠ src.swid ∧ dc.reports sha1 swid dst = true

section Flow

variable {sha1 : Chars → Nat} {dc : Dc} {src dst : Vm} {group : Group} {srcGid dstGid : Int}

theorem hitSw_eq {swids : List Int}
    (edges : ∀ swid ∈ swids, ∃ sw, lookup dc.swDic swid = some (.edge sw)) :
    dc.hitSw sha1 src.swid dst swids =
      .ok (swids.filter fun swid => swid ≠ src.swid ∧ dc.reports sha1 swid dst = true) := by
  induction swids with
  | nil => rfl
  | cons swid swids ih =>
    obtain ⟨⟨sw, search⟩, rest⟩ := List.forall_mem_cons.mp edges
    rw [hitSw, ih rest]
    by_cases same : swid = src.swid
    · simp [same]
    · have reported : dc.reports sha1 swid dst = sw.hasVMbyBF sha1 dst := by
        rw [reports, search]
      rw [if_neg same, search, List.filter_cons, reported]
      simp only [bind, Except.bind]
      by_cases hit : sw.hasVMbyBF sha1 dst
      · simp [same, hit]
      · simp [hit]

theorem length_visit_filter (order : KeyOrder) (keys : Finset Int) (p : Int → Prop)
    [DecidablePred p] :
    ((order.visit keys).filter fun key => p key).length = (keys.filter p).card := by
  rw [← List.toFinset_card_of_nodup ((order.nodup keys).filter _)]
  congr 1
  ext key
  simp [order.mem]

theorem Ready.edge_of_mem (ready : dc.Ready sha1) {vm : Vm} (member : vm ∈ dc.vmDic) :
    ∃ sw, lookup dc.swDic vm.swid = some (.edge sw) ∧ vm.vmid ∈ keys sw.vmDic := by
  obtain ⟨hosts, found, inside⟩ := (ready.right.placed vm member vm.swid).mpr rfl
  rw [attachedAt] at found
  split at found
  · rename_i sw search
    exact ⟨sw, search, by rwa [← Option.some.inj found] at inside⟩
  · cases found

theorem Ready.swid_of_hasVM (ready : dc.Ready sha1) {vm : Vm} (member : vm ∈ dc.vmDic) {swid : Int}
    {sw : EdgeSwitch} (search : lookup dc.swDic swid = some (.edge sw))
    (has : sw.hasVM vm = true) : swid = vm.swid := by
  rw [← ready.right.placed vm member swid]
  refine ⟨sw.attached, by rw [attachedAt, search], ?_⟩
  exact lookup_isSome_iff.mp has

theorem Ready.foundAt_eq (ready : dc.Ready sha1) (dstMember : dst ∈ dc.vmDic)
    (differ : src.swid ≠ dst.swid) (dstIn : dc.gidOf dst.swid = some dstGid)
    (found : lookup dc.groupDic srcGid = some group) {swids : List Int}
    (visited : ∀ swid, swid ∈ swids ↔ swid ∈ dc.hits sha1 group src dst) :
    dc.foundAt dst swids = decide (srcGid = dstGid) ∧
      (srcGid = dstGid → 0 < (dc.hits sha1 group src dst).card) := by
  have memberOf : ∀ swid, swid ∈ group.swDic ↔ dc.gidOf swid = some srcGid :=
    ready.grouped.groups.member found
  obtain ⟨sw, search, attached⟩ := ready.edge_of_mem dstMember
  have has : sw.hasVM dst = true := lookup_isSome_iff.mpr attached
  have inHits : srcGid = dstGid → dst.swid ∈ dc.hits sha1 group src dst := by
    rintro rfl
    refine Finset.mem_filter.mpr ⟨(memberOf _).mpr dstIn, Ne.symm differ, ?_⟩
    rw [reports, search]
    exact ready.filters dst.swid sw.attached (by rw [attachedAt, search]) _ attached
  refine ⟨?_, fun same => Finset.card_pos.mpr ⟨_, inHits same⟩⟩
  rw [Bool.eq_iff_iff, decide_eq_true_eq, foundAt, List.any_eq_true]
  constructor
  · rintro ⟨swid, hit, here⟩
    split at here
    · rename_i other otherSearch
      obtain rfl := ready.swid_of_hasVM dstMember otherSearch here
      have inGroup := (Finset.mem_filter.mp ((visited _).mp hit)).1
      rw [memberOf, dstIn] at inGroup
      exact (Option.some.inj inGroup).symm
    · cases here
  · intro same
    exact ⟨dst.swid, (visited _).mpr (inHits same), by rw [search]; exact has⟩

variable {β : Type} [Add β] (order : KeyOrder) (state : TrafficState β) (flow : Int) (oct : β)

/-- What a flow between known hosts of different switches does: nothing if the source is in no
group, and otherwise it is counted once as a flow and once as a query. -/
theorem Ready.sendVMTraffic_eq (ready : dc.Ready sha1) (srcMember : src ∈ dc.vmDic)
    (dstMember : dst ∈ dc.vmDic) (differ : src.swid ≠ dst.swid) :
    ∃ srcGid dstGid, dc.gidOf src.swid = some srcGid ∧ dc.gidOf dst.swid = some dstGid ∧
      (lookup dc.groupDic srcGid = none ∧
          dc.sendVMTraffic sha1 order state src dst flow oct = (state, .ok none) ∨
        ∃ group, lookup dc.groupDic srcGid = some group ∧
          (srcGid = dstGid → 0 < (dc.hits sha1 group src dst).card) ∧
          dc.sendVMTraffic sha1 order state src dst flow oct =
            ({ affinityMatrix := upsert state.affinityMatrix srcGid
                (AffinityRow.add dc.numGroup srcGid dstGid flow)
               stat := (state.stat.addFlow (decide (srcGid = dstGid)) flow oct).addQueries
                (dc.hits sha1 group src dst).card (decide (srcGid = dstGid)) flow },
              .ok (some (decide (srcGid = dstGid))))) := by
  obtain ⟨srcSw, srcSearch, -⟩ := ready.edge_of_mem srcMember
  obtain ⟨dstSw, dstSearch, -⟩ := ready.edge_of_mem dstMember
  have srcIn : dc.gidOf src.swid = some srcSw.gid := gidOf_eq_some.mpr ⟨srcSw, srcSearch, rfl⟩
  have dstIn : dc.gidOf dst.swid = some dstSw.gid := gidOf_eq_some.mpr ⟨dstSw, dstSearch, rfl⟩
  refine ⟨srcSw.gid, dstSw.gid, srcIn, dstIn, ?_⟩
  simp only [sendVMTraffic, if_neg differ, gidAt, srcIn, dstIn]
  cases found : lookup dc.groupDic srcSw.gid with
  | none => exact .inl ⟨rfl, rfl⟩
  | some group =>
    right
    have edges : ∀ swid ∈ order.visit group.swDic,
        ∃ sw, lookup dc.swDic swid = some (.edge sw) := by
      intro swid visited
      rw [order.mem, ready.grouped.groups.member found] at visited
      obtain ⟨sw, search, -⟩ := gidOf_eq_some.mp visited
      exact ⟨sw, search⟩
    have hitsEq := @hitSw_eq sha1 dc src dst _ edges
    have visited : ∀ swid, swid ∈ (order.visit group.swDic).filter
        (fun swid => swid ≠ src.swid ∧ dc.reports sha1 swid dst = true) ↔
        swid ∈ dc.hits sha1 group src dst := by
      intro swid
      rw [List.mem_filter, hits, Finset.mem_filter, order.mem, decide_eq_true_eq]
    obtain ⟨foundEq, positive⟩ :=
      ready.foundAt_eq dstMember differ dstIn found visited
    refine ⟨group, rfl, positive, ?_⟩
    simp only [hitsEq, foundEq]
    rw [length_visit_filter]
    rfl

end Flow

end Dc

def affinityTotal (matrix : List AffinityRow) : Int :=
  (matrix.map fun row => (row.cells.map AffinityCell.flow).sum).sum

def affinityDiagonal (matrix : List AffinityRow) : Int :=
  (matrix.map fun row => ((lookup row.cells row.gid).map AffinityCell.flow).getD 0).sum

structure Accounted {β : Type} (state : TrafficState β) : Prop where
  queries : state.stat.tp + state.stat.tn + state.stat.fp = state.stat.queryControlOrigin
  flows : state.stat.queryControlOrigin = state.stat.flowWithinGroup + state.stat.flowCrossGroup
  found : state.stat.tp = state.stat.flowWithinGroup
  total : affinityTotal state.affinityMatrix =
    state.stat.flowWithinGroup + state.stat.flowCrossGroup
  diagonal : affinityDiagonal state.affinityMatrix = state.stat.flowWithinGroup

section Affinity

variable (matrix : List AffinityRow) (numGroup srcGid dstGid flow : Int)

theorem AffinityCell.keepsKey_add : KeepsKey dstGid (AffinityCell.add dstGid flow) :=
  fun _ _ => rfl

theorem AffinityRow.cells_new_zero :
    ((AffinityRow.new srcGid numGroup).cells.map AffinityCell.flow).sum = 0 ∧
      ∀ gid, ((lookup (AffinityRow.new srcGid numGroup).cells gid).map
        AffinityCell.flow).getD 0 = 0 := by
  have zero : ∀ cell ∈ (AffinityRow.new srcGid numGroup).cells, cell.flow = 0 := by
    intro cell member
    obtain ⟨i, -, rfl⟩ := List.mem_map.mp member
    rfl
  constructor
  · apply List.sum_eq_zero
    intro flow member
    obtain ⟨cell, inside, rfl⟩ := List.mem_map.mp member
    exact zero cell inside
  · intro gid
    cases found : lookup (AffinityRow.new srcGid numGroup).cells gid with
    | none => rfl
    | some cell => exact zero cell (lookup_mem found)

theorem affinityTotal_upsert :
    affinityTotal (upsert matrix srcGid (AffinityRow.add numGroup srcGid dstGid flow)) =
      affinityTotal matrix + flow := by
  apply sum_upsert
  intro present _
  have cells : ∀ row : AffinityRow,
      ((upsert row.cells dstGid (AffinityCell.add dstGid flow)).map AffinityCell.flow).sum =
        (row.cells.map AffinityCell.flow).sum + flow :=
    fun row => sum_upsert AffinityCell.flow (fun _ _ => rfl) row.cells
  cases present with
  | none => rw [AffinityRow.add, Option.getD_none, cells, (AffinityRow.cells_new_zero _ _).1]; rfl
  | some row => exact cells row

theorem affinityDiagonal_upsert :
    affinityDiagonal (upsert matrix srcGid (AffinityRow.add numGroup srcGid dstGid flow)) =
      affinityDiagonal matrix + if srcGid = dstGid then flow else 0 := by
  apply sum_upsert
  intro present sameKey
  have cells : ∀ row : AffinityRow, row.gid = srcGid →
      ((lookup (upsert row.cells dstGid (AffinityCell.add dstGid flow)) row.gid).map
        AffinityCell.flow).getD 0 =
        ((lookup row.cells row.gid).map AffinityCell.flow).getD 0 +
          if srcGid = dstGid then flow else 0 := by
    rintro row rfl
    rw [lookup_upsert (AffinityCell.keepsKey_add dstGid flow)]
    by_cases same : row.gid = dstGid
    · rw [if_pos same, if_pos same, same]
      rfl
    · rw [if_neg same, if_neg same, Int.add_zero]
  cases present with
  | none =>
    have new := cells (.new srcGid numGroup) rfl
    rw [(AffinityRow.cells_new_zero _ _).2] at new
    exact new
  | some row => exact cells row (sameKey row rfl)

end Affinity

section Accounts

variable {β : Type} [Add β] {sha1 : Chars → Nat} {order : KeyOrder} {dc : Dc}
  {state : TrafficState β}

theorem Accounted.add (accounted : Accounted state) (numGroup srcGid dstGid flow : Int) (oct : β)
    {hits : Nat} (inside : srcGid = dstGid → 0 < hits) :
    Accounted {
      affinityMatrix := upsert state.affinityMatrix srcGid
        (AffinityRow.add numGroup srcGid dstGid flow)
      stat := (state.stat.addFlow (decide (srcGid = dstGid)) flow oct).addQueries hits
        (decide (srcGid = dstGid)) flow } := by
  obtain ⟨queries, flows, found, total, diagonal⟩ := accounted
  have newTotal := affinityTotal_upsert state.affinityMatrix numGroup srcGid dstGid flow
  have newDiagonal := affinityDiagonal_upsert state.affinityMatrix numGroup srcGid dstGid flow
  by_cases same : srcGid = dstGid
  · have positive : hits ≠ 0 := Nat.ne_of_gt (inside same)
    rw [if_pos same] at newDiagonal
    constructor <;>
      simp only [StatCollector.addFlow, StatCollector.addQueries, same, decide_true, if_true,
        if_neg positive] at newTotal newDiagonal ⊢ <;>
      omega
  · rw [if_neg same] at newDiagonal
    by_cases none_ : hits = 0
    · constructor <;>
        simp only [StatCollector.addFlow, StatCollector.addQueries, same, decide_false,
          Bool.false_eq_true, if_false, if_pos none_] <;>
        omega
    · constructor <;>
        simp only [StatCollector.addFlow, StatCollector.addQueries, same, decide_false,
          Bool.false_eq_true, if_false, if_neg none_] <;>
        omega

theorem Accounted.sendLine (ready : dc.Ready sha1) (accounted : Accounted state)
    (line : TrafficLine β) :
    (dc.sendLine sha1 order state line).2 = none ∧
      Accounted (dc.sendLine sha1 order state line).1 := by
  rw [Dc.sendLine]
  split
  · rename_i src dst srcFound dstFound
    by_cases same : src.swid = dst.swid
    · simp only [Dc.sendVMTraffic, if_pos same, true_and]
      exact ⟨accounted.queries, accounted.flows, accounted.found, accounted.total,
        accounted.diagonal⟩
    · obtain ⟨srcGid, dstGid, -, -, unchanged | ⟨group, -, positive, sent⟩⟩ :=
        ready.sendVMTraffic_eq order state line.flow line.oct (lookup_mem srcFound)
          (lookup_mem dstFound) same
      · rw [unchanged.2]
        exact ⟨rfl, accounted⟩
      · rw [sent]
        exact ⟨rfl, accounted.add dc.numGroup srcGid dstGid line.flow line.oct positive⟩
  · exact ⟨rfl, accounted⟩

theorem Accounted.testTraffic (pyFloat : Chars → Option β) (ready : dc.Ready sha1)
    (accounted : Accounted state) (lines : List Chars) :
    Accounted (dc.testTraffic sha1 order pyFloat state lines).1 := by
  induction lines generalizing state with
  | nil => exact accounted
  | cons line lines ih =>
    cases read : readTrafficLine pyFloat line with
    | none =>
      rw [Dc.testTraffic, read]
      exact accounted
    | some parsed =>
      obtain ⟨noError, kept⟩ := accounted.sendLine ready parsed
      rw [Dc.testTraffic_cons read noError]
      exact ih kept

end Accounts

/-- The accounts of the manual mode are in order, whatever the filters report. -/
theorem accounted_manual {β : Type} [Zero β] [Add β] (sha1 : Chars → Nat) (order : KeyOrder)
    (pyFloat : Chars → Option β) {switches hosts : List Chars}
    (files : Dc.ManualFiles sha1 switches hosts) (traffic : List Chars) :
    Accounted ((Dc.manual sha1 switches hosts).testTraffic sha1 order pyFloat .new traffic).1 :=
  Accounted.testTraffic pyFloat files.ready ⟨rfl, rfl, rfl, rfl, rfl⟩ traffic

/-- Three flows between two hosts of one group. -/
theorem accounted_two :
    Accounted ((Dc.manual (fun _ => 0) ["0\n".toList, "0\n".toList]
      ["7 1\n".toList, "8 2\n".toList]).testTraffic (fun _ => 0) .sorted pyIntOf .new
      ["7 8 3 40\n".toList]).1 := by
  apply accounted_manual
  constructor
  · intro line member gid parsed
    obtain rfl : line = "0\n".toList := by simpa using member
    rw [(by decide : pyIntLine "0\n".toList = some 0)] at parsed
    obtain rfl := Option.some.inj parsed
    decide
  · decide
  · decide

end Sim
end LazyCtrl
