import Mathlib.Logic.Function.Basic
import LazyCtrl.Lib.Run
import LazyCtrl.Sim.DataCenter

/-!
# Groups of edge switches

A switch stores the id of its group and the group stores its switches.  What the two have to agree
on is an assignment of switches to group ids: `Dc.gidOf` reads it from the switches, and
`Dc.GroupsFor` says that the groups hold exactly what an assignment says.  A call that moves a
switch removes it from the assignment and assigns it again, so that the groups follow the assignment
at every point in between.
-/

namespace LazyCtrl
namespace Sim

open Text Keyed

namespace Dc

def gidOf (dc : Dc) (swid : Int) : Option Int :=
  match lookup dc.swDic swid with
  | some (.edge sw) => some sw.gid
  | _ => none

structure GroupsFor (dc : Dc) (assigned : Int → Option Int) : Prop where
  nodup : (keys dc.groupDic).Nodup
  member : ∀ {gid group}, lookup dc.groupDic gid = some group →
    ∀ swid, swid ∈ group.swDic ↔ assigned swid = some gid
  filters : ∀ {gid group}, lookup dc.groupDic gid = some group → group.bfDic = group.swDic
  count : ∀ {gid group}, lookup dc.groupDic gid = some group →
    group.numSwitch = group.swDic.card
  number : dc.numGroup = dc.groupDic.length
  known : ∀ {swid gid}, assigned swid = some gid → gid ≠ defaultGroupId →
    gid ∈ keys dc.groupDic
  ungrouped : defaultGroupId ∉ keys dc.groupDic

section Operations

variable {dc : Dc} {assigned next : Int → Option Int} {swid gid : Int}

theorem keepsKey_const (group : Group) : KeepsKey group.id fun _ : Option Group => group :=
  fun _ _ => rfl

theorem keepsKey_addSwitch (gid swid : Int) :
    KeepsKey gid fun present : Option Group => (present.getD (.new gid)).addSwitch swid := by
  intro present sameKey
  cases present with
  | none => rfl
  | some group => exact sameKey group rfl

theorem GroupsFor.replace (groups : dc.GroupsFor assigned) {record : Option Group → Group}
    (sameKey : KeepsKey gid record) (grouped : gid ≠ defaultGroupId) {group : Group}
    (recorded : record (lookup dc.groupDic gid) = group)
    (member : ∀ swid, swid ∈ group.swDic ↔ next swid = some gid)
    (filters : group.bfDic = group.swDic) (count : group.numSwitch = group.swDic.card)
    (others : ∀ swid other, other ≠ gid → (next swid = some other ↔ assigned swid = some other))
    {numGroup : Int}
    (number : numGroup =
      if (lookup dc.groupDic gid).isSome then dc.numGroup else dc.numGroup + 1) :
    Dc.GroupsFor { dc with groupDic := upsert dc.groupDic gid record, numGroup } next := by
  have search : ∀ {other found}, lookup (upsert dc.groupDic gid record) other = some found →
      other = gid ∧ found = group ∨ other ≠ gid ∧ lookup dc.groupDic other = some found := by
    intro other found here
    rw [lookup_upsert sameKey, recorded] at here
    split at here
    · rename_i equal
      exact .inl ⟨equal, (Option.some.inj here).symm⟩
    · rename_i differs
      exact .inr ⟨differs, here⟩
  constructor
  · exact keys_upsert_nodup sameKey groups.nodup
  · intro other found here swid
    rcases search here with ⟨rfl, rfl⟩ | ⟨differs, old⟩
    · exact member swid
    · rw [groups.member old, others swid other differs]
  · intro other found here
    rcases search here with ⟨rfl, rfl⟩ | ⟨-, old⟩
    · exact filters
    · exact groups.filters old
  · intro other found here
    rcases search here with ⟨rfl, rfl⟩ | ⟨-, old⟩
    · exact count
    · exact groups.count old
  · have before := groups.number
    simp only [number, length_upsert]
    split <;> omega
  · intro swid other here notDefault
    rw [mem_keys_upsert sameKey]
    by_cases equal : other = gid
    · exact .inl equal
    · exact .inr (groups.known ((others swid other equal).mp here) notDefault)
  · intro inside
    rcases (mem_keys_upsert sameKey).mp inside with equal | inside
    · exact grouped equal.symm
    · exact groups.ungrouped inside

theorem GroupsFor.ne_default (groups : dc.GroupsFor assigned) (present : gid ∈ keys dc.groupDic) :
    gid ≠ defaultGroupId := by
  rintro rfl
  exact groups.ungrouped present

theorem GroupsFor.ensureGroup (groups : dc.GroupsFor assigned) (grouped : gid ≠ defaultGroupId) :
    (dc.ensureGroup gid).GroupsFor assigned := by
  rw [Dc.ensureGroup]
  split
  · exact groups
  · rename_i absent
    have unassigned : ∀ swid, assigned swid ≠ some gid := fun swid here =>
      absent (lookup_isSome_iff.mpr (groups.known here grouped))
    refine groups.replace (keepsKey_const (.new gid)) grouped rfl ?_ rfl rfl
      (fun _ _ _ => Iff.rfl) (if_neg absent).symm
    intro swid
    simp [Group.new, unassigned]

theorem mem_keys_ensureGroup {other : Int} :
    other ∈ keys (dc.ensureGroup gid).groupDic ↔ other = gid ∨ other ∈ keys dc.groupDic := by
  rw [Dc.ensureGroup]
  split
  · rename_i present
    rw [lookup_isSome_iff] at present
    constructor
    · exact .inr
    · rintro (rfl | inside)
      · exact present
      · exact inside
  · exact mem_keys_upsert (keepsKey_const (.new gid))

theorem GroupsFor.joinGroup (groups : dc.GroupsFor assigned) (present : gid ∈ keys dc.groupDic)
    (free : assigned swid = none) :
    (dc.joinGroup gid swid).GroupsFor (Function.update assigned swid (some gid)) := by
  obtain ⟨old, found⟩ := Option.isSome_iff_exists.mp (lookup_isSome_iff.mpr present)
  have outside : swid ∉ old.swDic := by
    rw [groups.member found, free]
    simp
  refine groups.replace (keepsKey_addSwitch gid swid) (groups.ne_default present)
    (show _ = old.addSwitch swid by rw [found, Option.getD_some]) ?_ ?_ ?_ ?_ (by simp [found])
  · intro switch
    simp only [Group.addSwitch, Finset.mem_insert, groups.member found]
    by_cases moved : switch = swid
    · simp [moved]
    · simp [moved]
  · simp only [Group.addSwitch, groups.filters found]
  · simp [Group.addSwitch, Finset.card_insert_of_notMem outside, groups.count found]
  · intro switch other differs
    by_cases moved : switch = swid
    · simp [moved, free, Ne.symm differs]
    · rw [Function.update_of_ne moved]

theorem GroupsFor.leaveGroup (groups : dc.GroupsFor assigned) (here : assigned swid = some gid) :
    ∃ groupDic, dc.leaveGroup gid swid = ({ dc with groupDic }, none) ∧
      Dc.GroupsFor { dc with groupDic } (Function.update assigned swid none) := by
  have others : ∀ switch other, other ≠ gid →
      (Function.update assigned swid none switch = some other ↔ assigned switch = some other) := by
    intro switch other differs
    by_cases moved : switch = swid
    · simp [moved, here, Ne.symm differs]
    · rw [Function.update_of_ne moved]
  cases search : lookup dc.groupDic gid with
  | none =>
    have absent : ∀ {other group}, lookup dc.groupDic other = some group → other ≠ gid := by
      rintro other group found rfl
      rw [search] at found
      cases found
    refine ⟨dc.groupDic, by rw [Dc.leaveGroup, search], groups.nodup, ?_, groups.filters,
      groups.count, groups.number, ?_, groups.ungrouped⟩
    · intro other group found switch
      rw [groups.member found, others switch other (absent found)]
    · intro switch other assignedTo notDefault
      by_cases moved : switch = swid
      · simp [moved] at assignedTo
      · rw [Function.update_of_ne moved] at assignedTo
        exact groups.known assignedTo notDefault
  | some old =>
    have present : gid ∈ keys dc.groupDic := by
      rw [← lookup_isSome_iff, search]
      rfl
    have inside : swid ∈ old.swDic := (groups.member search swid).mpr here
    have filtered : swid ∈ old.bfDic := (groups.filters search).symm ▸ inside
    let left : Group :=
      { old with
        swDic := old.swDic.erase swid
        bfDic := old.bfDic.erase swid
        numSwitch := old.numSwitch - 1 }
    have leftId : left.id = gid := lookup_key search
    refine ⟨upsert dc.groupDic gid fun _ => left, ?_, ?_⟩
    · rw [Dc.leaveGroup, search]
      simp only [Group.removeSwitch, inside, filtered, if_true]
      rfl
    have sameKey : KeepsKey gid fun _ : Option Group => left := fun _ _ => leftId
    refine groups.replace sameKey (groups.ne_default present) rfl ?_ ?_ ?_ others
      (by simp [search])
    · intro switch
      change switch ∈ old.swDic.erase swid ↔ _
      rw [Finset.mem_erase, groups.member search]
      by_cases moved : switch = swid
      · simp [moved]
      · simp [moved]
    · exact congrArg (Finset.erase · swid) (groups.filters search)
    · have positive : 0 < old.swDic.card := Finset.card_pos.mpr ⟨swid, inside⟩
      have total := groups.count search
      change old.numSwitch - 1 = ((old.swDic.erase swid).card : Int)
      rw [Finset.card_erase_of_mem inside]
      omega

end Operations

structure Grouped (dc : Dc) : Prop where
  groups : dc.GroupsFor dc.gidOf
  edges : ∀ swid, swid ∈ dc.edgeSWList ↔ (dc.gidOf swid).isSome

section Frame

variable (dc : Dc) (gid swid : Int)

@[simp] theorem swDic_ensureGroup : (dc.ensureGroup gid).swDic = dc.swDic := by
  rw [ensureGroup]
  split <;> rfl

@[simp] theorem edgeSWList_ensureGroup : (dc.ensureGroup gid).edgeSWList = dc.edgeSWList := by
  rw [ensureGroup]
  split <;> rfl

@[simp] theorem swDic_joinGroup : (dc.joinGroup gid swid).swDic = dc.swDic := rfl

@[simp] theorem edgeSWList_joinGroup : (dc.joinGroup gid swid).edgeSWList = dc.edgeSWList := rfl

@[simp] theorem swDic_mergeVms (sw : EdgeSwitch) : (dc.mergeVms sw).swDic = dc.swDic := by
  rw [mergeVms]
  split <;> rfl

@[simp] theorem edgeSWList_mergeVms (sw : EdgeSwitch) :
    (dc.mergeVms sw).edgeSWList = dc.edgeSWList := by
  rw [mergeVms]
  split <;> rfl

@[simp] theorem groupDic_mergeVms (sw : EdgeSwitch) :
    (dc.mergeVms sw).groupDic = dc.groupDic := by
  rw [mergeVms]
  split <;> rfl

@[simp] theorem numGroup_mergeVms (sw : EdgeSwitch) :
    (dc.mergeVms sw).numGroup = dc.numGroup := by
  rw [mergeVms]
  split <;> rfl

theorem edgeSWList_addSwitch (sw : EdgeSwitch) :
    (dc.addSwitch (.edge sw)).edgeSWList = dc.edgeSWList ++ [sw.swid] := by
  simp only [Dc.addSwitch, edgeSWList_mergeVms]
  split <;> simp

end Frame

section Steps

variable {dc other : Dc} {assigned : Int → Option Int} {swid gid : Int}

theorem GroupsFor.congr (groups : dc.GroupsFor assigned) (sameDic : other.groupDic = dc.groupDic)
    (sameNumber : other.numGroup = dc.numGroup) : other.GroupsFor assigned := by
  constructor
  · exact sameDic ▸ groups.nodup
  · exact sameDic ▸ groups.member
  · exact sameDic ▸ groups.filters
  · exact sameDic ▸ groups.count
  · rw [sameNumber, sameDic, groups.number]
  · exact sameDic ▸ groups.known
  · exact sameDic ▸ groups.ungrouped

theorem keepsKey_edge (sw : EdgeSwitch) : KeepsKey sw.swid fun _ : Option Switch => .edge sw :=
  fun _ _ => rfl

theorem gidOf_upsert (sw : EdgeSwitch)
    (stored : other.swDic = upsert dc.swDic sw.swid fun _ => .edge sw) :
    other.gidOf = Function.update dc.gidOf sw.swid (some sw.gid) := by
  funext swid
  rw [gidOf, stored, lookup_upsert (keepsKey_edge sw)]
  by_cases here : swid = sw.swid
  · simp [here]
  · simp [here, gidOf]

theorem gidOf_eq_some :
    dc.gidOf swid = some gid ↔ ∃ sw, lookup dc.swDic swid = some (.edge sw) ∧ sw.gid = gid := by
  rw [gidOf]
  rcases lookup dc.swDic swid with - | - | - | sw
  · simp
  · simp
  · simp
  · simp

theorem Grouped.addSwitch (grouped : dc.Grouped) (sw : EdgeSwitch)
    (fresh : sw.swid ∉ dc.edgeSWList) : (dc.addSwitch (.edge sw)).Grouped := by
  have free : dc.gidOf sw.swid = none := by
    rwa [grouped.edges, Option.not_isSome_iff_eq_none] at fresh
  have gids : (dc.addSwitch (.edge sw)).gidOf =
      Function.update dc.gidOf sw.swid (some sw.gid) := by
    apply gidOf_upsert sw
    simp only [Dc.addSwitch, swDic_mergeVms]
    split <;> simp [Switch.getid]
  constructor
  · rw [gids]
    by_cases hasGroup : sw.gid = defaultGroupId
    · -- The assignment names no group, so the groups need not change.
      have unchanged : dc.GroupsFor (Function.update dc.gidOf sw.swid (some sw.gid)) := by
        have old := grouped.groups
        refine ⟨old.nodup, ?_, old.filters, old.count, old.number, ?_, old.ungrouped⟩
        · intro other group found swid
          have notDefault : other ≠ defaultGroupId := by
            apply old.ne_default
            rw [← lookup_isSome_iff, found]
            rfl
          rw [old.member found]
          by_cases here : swid = sw.swid
          · simp [here, free, hasGroup, Ne.symm notDefault]
          · rw [Function.update_of_ne here]
        · intro swid other here notDefault
          by_cases new : swid = sw.swid
          · rw [new, Function.update_self, hasGroup] at here
            exact absurd (Option.some.inj here).symm notDefault
          · rw [Function.update_of_ne new] at here
            exact old.known here notDefault
      exact unchanged.congr (by simp [Dc.addSwitch, hasGroup]) (by simp [Dc.addSwitch, hasGroup])
    · have start : Dc.GroupsFor
          { dc with
            swDic := upsert dc.swDic sw.swid fun _ => .edge sw
            numSwitch := dc.numSwitch + 1
            edgeSWList := dc.edgeSWList ++ [sw.swid] } dc.gidOf := grouped.groups.congr rfl rfl
      have joined := (start.ensureGroup hasGroup).joinGroup
        (mem_keys_ensureGroup.mpr (.inl rfl)) free
      exact joined.congr (by simp [Dc.addSwitch, hasGroup, Switch.getid])
        (by simp [Dc.addSwitch, hasGroup, Switch.getid])
  · intro swid
    rw [edgeSWList_addSwitch, gids, List.mem_append, List.mem_singleton, grouped.edges]
    by_cases here : swid = sw.swid
    · simp [here]
    · rw [Function.update_of_ne here]
      simp [here]

theorem Grouped.updateEdgeSWInfo (grouped : dc.Grouped) (swid : Int)
    (hasGroup : gid ≠ defaultGroupId) :
    (dc.updateEdgeSWInfo swid gid).2 = none ∧ (dc.updateEdgeSWInfo swid gid).1.Grouped := by
  cases search : lookup dc.swDic swid with
  | none => simpa only [Dc.updateEdgeSWInfo, search, true_and] using grouped
  | some found =>
    cases found with
    | core | agg => simpa only [Dc.updateEdgeSWInfo, search, true_and] using grouped
    | edge sw =>
      obtain rfl : sw.swid = swid := lookup_key search
      have here : dc.gidOf sw.swid = some sw.gid := gidOf_eq_some.mpr ⟨sw, search, rfl⟩
      obtain ⟨groupDic, left, without⟩ := grouped.groups.leaveGroup here
      have joined := (without.ensureGroup hasGroup).joinGroup
        (mem_keys_ensureGroup.mpr (.inl rfl)) (Function.update_self sw.swid none dc.gidOf)
      rw [Function.update_idem] at joined
      simp only [Dc.updateEdgeSWInfo, search, left, Outcome.andThen, true_and]
      simp only [swDic_joinGroup, swDic_ensureGroup]
      have gids := @gidOf_upsert dc
        { ((({ dc with groupDic } : Dc).ensureGroup gid).joinGroup gid sw.swid) with
          swDic := upsert dc.swDic sw.swid fun _ => .edge { sw with gid } }
        { sw with gid } rfl
      constructor
      · rw [gids]
        exact joined.congr rfl rfl
      · intro other
        rw [gids]
        simp only [edgeSWList_joinGroup, edgeSWList_ensureGroup]
        rw [grouped.edges]
        by_cases moved : other = sw.swid
        · simp [moved, here]
        · rw [Function.update_of_ne moved]

end Steps

section Calls

variable (sha1 : Chars → Nat)

inductive GroupCall where
  | readinEdgeSWInfo (lines : List Chars)
  | updateEdgeSWInfo (swid gid : Int)
  | genGroupRandom (order : DictOrder Switch) (numGroup : Int) (draws : Int → Nat)

def GroupCall.run (dc : Dc) : GroupCall → Outcome
  | .readinEdgeSWInfo lines => dc.readinEdgeSWInfo sha1 lines
  | .updateEdgeSWInfo swid gid => dc.updateEdgeSWInfo swid gid
  | .genGroupRandom order numGroup draws => dc.genGroupRandom order numGroup draws

def GroupCall.Nonneg : GroupCall → Prop
  | .readinEdgeSWInfo lines => ∀ line ∈ lines, ∀ gid, pyIntLine line = some gid → 0 ≤ gid
  | .updateEdgeSWInfo _ gid => 0 ≤ gid
  | .genGroupRandom .. => True

def groupStep (dc : Dc) (call : GroupCall) : Option Dc :=
  if (call.run sha1 dc).2 = some .key then none else some (call.run sha1 dc).1

inductive Start where
  | empty
  | flat (numSw numPort : Int)

def Start.dc : Start → Dc
  | .empty => Dc.empty
  | .flat numSw numPort => ofTopo sha1 (.flat numSw numPort)

variable {sha1} {dc : Dc}

theorem ne_default_of_nonneg {gid : Int} (nonneg : 0 ≤ gid) : gid ≠ defaultGroupId := by
  rw [defaultGroupId]
  omega

theorem grouped_empty : Dc.empty.Grouped := by
  constructor
  · constructor <;> simp [Dc.empty, keys, lookup, gidOf]
  · simp [Dc.empty, gidOf, lookup]

@[simp] theorem swid_foldl_addVM (vms : List Vm) (sw : EdgeSwitch) :
    (vms.foldl (EdgeSwitch.addVM sha1) sw).swid = sw.swid := by
  induction vms generalizing sw with
  | nil => rfl
  | cons vm vms ih => exact ih _

@[simp] theorem swid_new (swid gid numPort : Int) :
    (EdgeSwitch.new sha1 swid gid numPort).swid = swid :=
  swid_foldl_addVM _ _

theorem Grouped.foldl_addSwitch (grouped : dc.Grouped) {switches : List EdgeSwitch}
    (nodup : (switches.map EdgeSwitch.swid).Nodup)
    (fresh : ∀ sw ∈ switches, sw.swid ∉ dc.edgeSWList) :
    (switches.foldl (fun dc sw => dc.addSwitch (.edge sw)) dc).Grouped := by
  induction switches generalizing dc with
  | nil => exact grouped
  | cons sw switches ih =>
    rw [List.map_cons, List.nodup_cons] at nodup
    refine ih (grouped.addSwitch sw (fresh sw (by simp))) nodup.2 ?_
    intro later member inside
    rw [edgeSWList_addSwitch, List.mem_append, List.mem_singleton] at inside
    rcases inside with inside | same
    · exact fresh later (by simp [member]) inside
    · exact nodup.1 (same ▸ List.mem_map_of_mem member)

theorem ofTopo_flat (numSw numPort : Int) :
    ofTopo sha1 (.flat numSw numPort) =
      ((List.range numSw.toNat).map fun swid : Nat =>
        EdgeSwitch.new sha1 swid defaultGroupId numPort).foldl
        (fun dc sw => dc.addSwitch (.edge sw)) Dc.empty := by
  simp [ofTopo, Topo.flat, List.foldl_map]

theorem Start.grouped (start : Start) : (start.dc sha1).Grouped := by
  cases start with
  | empty => exact grouped_empty
  | flat numSw numPort =>
    rw [Start.dc, ofTopo_flat]
    apply grouped_empty.foldl_addSwitch
    · rw [List.map_map]
      refine List.Nodup.map ?_ List.nodup_range
      intro i j same
      simpa using same
    · simp [Dc.empty]

theorem Grouped.readSwitches {lines : List Chars} (grouped : dc.Grouped) (swid : Int)
    (nonneg : ∀ line ∈ lines, ∀ gid, pyIntLine line = some gid → 0 ≤ gid) :
    (dc.readSwitches sha1 swid lines).2 ≠ some .key ∧
      (dc.readSwitches sha1 swid lines).1.Grouped := by
  induction lines generalizing dc swid with
  | nil => exact ⟨by simp [Dc.readSwitches], grouped⟩
  | cons line lines ih =>
    rw [List.forall_mem_cons] at nonneg
    rw [Dc.readSwitches]
    cases parsed : pyIntLine line with
    | none => exact ⟨by simp, grouped⟩
    | some gid =>
      have hasGroup : gid ≠ defaultGroupId := ne_default_of_nonneg (nonneg.1 gid parsed)
      have placed : (dc.placeSwitch sha1 swid gid).2 = none ∧
          (dc.placeSwitch sha1 swid gid).1.Grouped := by
        rw [placeSwitch]
        split
        · exact grouped.updateEdgeSWInfo swid hasGroup
        · rename_i absent
          exact ⟨rfl, grouped.addSwitch (.new sha1 swid gid 0) (by simpa using absent)⟩
      simp only [Outcome.andThen_of_none placed.1]
      exact ih placed.2 (swid + 1) nonneg.2

theorem Grouped.genGroups (grouped : dc.Grouped) (numGroup : Int) (draws : Int → Nat)
    (swids : List Int) :
    (dc.genGroups numGroup draws swids).2 ≠ some .key ∧
      (dc.genGroups numGroup draws swids).1.Grouped := by
  induction swids generalizing dc with
  | nil => exact ⟨by simp [Dc.genGroups], grouped⟩
  | cons swid swids ih =>
    rw [Dc.genGroups]
    split
    · cases drawn : randint numGroup (draws swid) with
      | none => exact ⟨by simp, grouped⟩
      | some gid =>
        have hasGroup : gid ≠ defaultGroupId := by
          rw [randint] at drawn
          split at drawn
          · cases drawn
          · rename_i positive
            obtain rfl := Option.some.inj drawn
            have low := Int.emod_nonneg (draws swid : Int) (b := numGroup) (by omega)
            rw [defaultGroupId]
            omega
        have moved := grouped.updateEdgeSWInfo swid hasGroup
        simp only [Outcome.andThen_of_none moved.1]
        exact ih moved.2
    · exact ih grouped

theorem Grouped.run (grouped : dc.Grouped) {call : GroupCall} (nonneg : call.Nonneg) :
    (call.run sha1 dc).2 ≠ some .key ∧ (call.run sha1 dc).1.Grouped := by
  cases call with
  | readinEdgeSWInfo lines => exact grouped.readSwitches 1 nonneg
  | updateEdgeSWInfo swid gid =>
    obtain ⟨noError, kept⟩ := grouped.updateEdgeSWInfo swid (ne_default_of_nonneg nonneg)
    exact ⟨by simp [GroupCall.run, noError], kept⟩
  | genGroupRandom order numGroup draws => exact grouped.genGroups numGroup draws _

structure Partitioned (dc : Dc) : Prop where
  nodup : (keys dc.groupDic).Nodup
  inside : ∀ {swid sw}, lookup dc.swDic swid = some (.edge sw) → 0 ≤ sw.gid →
    ∃ group, lookup dc.groupDic sw.gid = some group ∧ swid ∈ group.swDic ∧
      ∀ other ∈ dc.groupDic, swid ∈ other.swDic → other = group
  named : ∀ {group swid}, group ∈ dc.groupDic → swid ∈ group.swDic →
    ∃ sw, lookup dc.swDic swid = some (.edge sw) ∧ sw.gid = group.id
  count : ∀ {group}, group ∈ dc.groupDic → group.numSwitch = group.swDic.card
  number : dc.numGroup = dc.groupDic.length

theorem Grouped.partitioned (grouped : dc.Grouped) : dc.Partitioned := by
  have groups := grouped.groups
  have found : ∀ {group}, group ∈ dc.groupDic → lookup dc.groupDic group.id = some group :=
    fun member => (lookup_eq_some_iff groups.nodup).mpr ⟨member, rfl⟩
  refine ⟨groups.nodup, ?_, ?_, fun member => groups.count (found member), groups.number⟩
  · intro swid sw search nonneg
    have here : dc.gidOf swid = some sw.gid := gidOf_eq_some.mpr ⟨sw, search, rfl⟩
    have present := groups.known here (ne_default_of_nonneg nonneg)
    obtain ⟨group, lookedUp⟩ := Option.isSome_iff_exists.mp (lookup_isSome_iff.mpr present)
    refine ⟨group, lookedUp, (groups.member lookedUp swid).mpr here, ?_⟩
    intro other member inOther
    have otherGid := (groups.member (found member) swid).mp inOther
    rw [here, Option.some.injEq] at otherGid
    have same := found member
    rw [← otherGid, lookedUp] at same
    exact (Option.some.inj same).symm
  · intro group swid member inGroup
    exact gidOf_eq_some.mp ((groups.member (found member) swid).mp inGroup)

/-- However the calls follow one another, there is no `KeyError` and the groups partition the
grouped edge switches. -/
theorem partitioned_of_calls (sha1 : Chars → Nat) (start : Start) (calls : List GroupCall)
    (nonneg : ∀ call ∈ calls, call.Nonneg) :
    ∃ final, Run.exec (groupStep sha1) (start.dc sha1) calls = some final ∧
      final.Partitioned := by
  have along : Run.Along (groupStep sha1) (fun _ call => call.Nonneg) (start.dc sha1) calls :=
    Run.along_of_forall nonneg
  have progress : ∀ {dc call}, Dc.Grouped dc → GroupCall.Nonneg call →
      ∃ next, groupStep sha1 dc call = some next ∧ next.Grouped := by
    intro dc call grouped nonneg
    obtain ⟨noKeyError, kept⟩ := @Grouped.run sha1 dc grouped call nonneg
    exact ⟨_, if_neg noKeyError, kept⟩
  obtain ⟨final, run, grouped⟩ := Run.exec_progress Dc.Grouped progress start.grouped along
  exact ⟨final, run, grouped.partitioned⟩

/-- Switch 1 of a flat data center moves from group 2 to group 0. -/
theorem partitioned_moved :
    ∃ final, Run.exec (groupStep fun _ => 0) ((Start.flat 2 1).dc fun _ => 0)
        [.readinEdgeSWInfo ["2\n".toList], .updateEdgeSWInfo 1 0] = some final ∧
      final.Partitioned := by
  apply partitioned_of_calls
  intro call member
  rcases List.mem_cons.mp member with rfl | member
  · intro line inside gid parsed
    rw [List.mem_singleton] at inside
    rw [inside, (by decide : pyIntLine "2\n".toList = some 2)] at parsed
    obtain rfl := Option.some.inj parsed
    decide
  · rw [List.mem_singleton.mp member]
    exact Int.le_refl 0

end Calls

end Dc

end Sim
end LazyCtrl
