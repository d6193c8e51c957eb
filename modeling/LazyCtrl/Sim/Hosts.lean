import LazyCtrl.Sim.Groups

/-!
# Host counters

A host stands in the dictionary of the data center and in that of its switch, and both count their
hosts in a variable of their own.  A data center that is created with a topology starts the counter
of a switch at the number of its ports and counts the hosts of the ports again; a host that is
listed a second time is counted again and stays at its old switch.  These, and a host at an unknown
switch, are the only ways in which counters and dictionaries come apart.
-/

namespace LazyCtrl
namespace Sim

open Text Keyed

structure Attached where
  numVm : Int
  vmDic : List Vm
  bf : FilterBytes

def EdgeSwitch.attached (sw : EdgeSwitch) : Attached := ⟨sw.numVm, sw.vmDic, sw.bf⟩

def Attached.nothing : Attached := ⟨0, [], fun _ => 0⟩

def Attached.add (sha1 : Chars → Nat) (hosts : Attached) (vm : Vm) : Attached :=
  { numVm := hosts.numVm + 1
    vmDic := upsert hosts.vmDic vm.vmid fun _ => vm
    bf := filterUpdate sha1 hosts.bf vm.vmid }

theorem keepsKey_vm (vm : Vm) : KeepsKey vm.vmid fun _ : Option Vm => vm := fun _ _ => rfl

namespace Dc

def attachedAt (dc : Dc) (swid : Int) : Option Attached :=
  match lookup dc.swDic swid with
  | some (.edge sw) => some sw.attached
  | _ => none

structure HostsRight (dc : Dc) : Prop where
  nodup : (keys dc.vmDic).Nodup
  nodupAt : ∀ {swid hosts}, dc.attachedAt swid = some hosts → (keys hosts.vmDic).Nodup
  number : dc.numVm = dc.vmDic.length
  numberAt : ∀ {swid hosts}, dc.attachedAt swid = some hosts → hosts.numVm = hosts.vmDic.length
  placed : ∀ vm ∈ dc.vmDic, ∀ swid,
    (∃ hosts, dc.attachedAt swid = some hosts ∧ vm.vmid ∈ keys hosts.vmDic) ↔ swid = vm.swid

structure Listed (dc : Dc) : Prop where
  edges : ∀ swid, swid ∈ dc.edgeSWList ↔ (dc.attachedAt swid).isSome
  known : ∀ {swid hosts}, dc.attachedAt swid = some hosts →
    ∀ vmid ∈ keys hosts.vmDic, vmid ∈ keys dc.vmDic

structure SameHosts (dc other : Dc) : Prop where
  vmDic : other.vmDic = dc.vmDic
  numVm : other.numVm = dc.numVm
  edgeSWList : other.edgeSWList = dc.edgeSWList
  attachedAt : other.attachedAt = dc.attachedAt

section Basic

variable {dc other third : Dc} {swid gid : Int}

theorem attachedAt_upsert (sw : EdgeSwitch)
    (stored : other.swDic = upsert dc.swDic sw.swid fun _ => .edge sw) :
    other.attachedAt = Function.update dc.attachedAt sw.swid (some sw.attached) := by
  funext swid
  rw [attachedAt, stored, lookup_upsert (keepsKey_edge sw)]
  by_cases here : swid = sw.swid
  · simp [here]
  · simp [here, attachedAt]

theorem SameHosts.of_swDic (vmDic : other.vmDic = dc.vmDic) (numVm : other.numVm = dc.numVm)
    (edgeSWList : other.edgeSWList = dc.edgeSWList) (swDic : other.swDic = dc.swDic) :
    SameHosts dc other :=
  ⟨vmDic, numVm, edgeSWList, funext fun swid => by simp only [Dc.attachedAt, swDic]⟩

theorem SameHosts.trans (first : SameHosts dc other) (second : SameHosts other third) :
    SameHosts dc third :=
  ⟨second.vmDic.trans first.vmDic, second.numVm.trans first.numVm,
    second.edgeSWList.trans first.edgeSWList, second.attachedAt.trans first.attachedAt⟩

theorem SameHosts.hostsRight (same : SameHosts dc other) (right : dc.HostsRight) :
    other.HostsRight := by
  constructor
  · exact same.vmDic ▸ right.nodup
  · exact same.attachedAt ▸ right.nodupAt
  · rw [same.numVm, same.vmDic, right.number]
  · exact same.attachedAt ▸ right.numberAt
  · rw [same.vmDic, same.attachedAt]
    exact right.placed

theorem SameHosts.listed (same : SameHosts dc other) (listed : dc.Listed) : other.Listed := by
  constructor
  · rw [same.edgeSWList, same.attachedAt]
    exact listed.edges
  · rw [same.attachedAt, same.vmDic]
    exact listed.known

theorem sameHosts_leaveGroup (dc : Dc) (gid swid : Int) :
    SameHosts dc (dc.leaveGroup gid swid).1 ∧ (dc.leaveGroup gid swid).1.swDic = dc.swDic := by
  rw [leaveGroup]
  split
  · exact ⟨.of_swDic rfl rfl rfl rfl, rfl⟩
  · exact ⟨.of_swDic rfl rfl rfl rfl, rfl⟩

theorem sameHosts_ensureGroup (dc : Dc) (gid : Int) : SameHosts dc (dc.ensureGroup gid) := by
  rw [ensureGroup]
  split
  · exact .of_swDic rfl rfl rfl rfl
  · exact .of_swDic rfl rfl rfl rfl

theorem sameHosts_updateEdgeSWInfo (dc : Dc) (swid gid : Int) :
    SameHosts dc (dc.updateEdgeSWInfo swid gid).1 := by
  rw [updateEdgeSWInfo]
  split
  · exact .of_swDic rfl rfl rfl rfl
  · exact .of_swDic rfl rfl rfl rfl
  · exact .of_swDic rfl rfl rfl rfl
  · rename_i sw search
    obtain ⟨left, leftSwDic⟩ := sameHosts_leaveGroup dc sw.gid swid
    generalize dc.leaveGroup sw.gid swid = outcome at left leftSwDic
    obtain ⟨middle, error⟩ := outcome
    cases error with
    | some error => exact left
    | none =>
      obtain rfl : sw.swid = swid := lookup_key search
      have joined : SameHosts middle ((middle.ensureGroup gid).joinGroup gid sw.swid) :=
        (sameHosts_ensureGroup middle gid).trans (.of_swDic rfl rfl rfl rfl)
      have stored := @attachedAt_upsert middle
        { (middle.ensureGroup gid).joinGroup gid sw.swid with
          swDic := upsert ((middle.ensureGroup gid).joinGroup gid sw.swid).swDic sw.swid
            fun _ => .edge { sw with gid } }
        { sw with gid } (by simp)
      have here : middle.attachedAt sw.swid = some sw.attached := by
        rw [attachedAt, show middle.swDic = dc.swDic from leftSwDic, search]
      refine left.trans ⟨joined.vmDic, joined.numVm, joined.edgeSWList, stored.trans ?_⟩
      exact Function.update_eq_self_iff.mpr here.symm

end Basic

section Switches

variable {sha1 : Chars → Nat} {dc : Dc}

theorem attachedAt_addSwitch (dc : Dc) (sw : EdgeSwitch) :
    (dc.addSwitch (.edge sw)).attachedAt =
      Function.update dc.attachedAt sw.swid (some sw.attached) := by
  apply attachedAt_upsert sw
  simp only [Dc.addSwitch, swDic_mergeVms]
  split <;> simp [Switch.getid]

theorem vms_addSwitch (dc : Dc) {sw : EdgeSwitch} (nothing : sw.attached = .nothing) :
    (dc.addSwitch (.edge sw)).vmDic = dc.vmDic ∧ (dc.addSwitch (.edge sw)).numVm = dc.numVm := by
  have zero : sw.numVm = 0 := congrArg Attached.numVm nothing
  have ensured : ∀ dc : Dc, (dc.ensureGroup sw.gid).vmDic = dc.vmDic ∧
      (dc.ensureGroup sw.gid).numVm = dc.numVm :=
    fun dc => ⟨(sameHosts_ensureGroup dc sw.gid).vmDic, (sameHosts_ensureGroup dc sw.gid).numVm⟩
  simp only [Dc.addSwitch, mergeVms, zero, Int.lt_irrefl, if_false]
  split
  · exact ensured _
  · exact ⟨rfl, rfl⟩

theorem Listed.addSwitch (listed : dc.Listed) {sw : EdgeSwitch}
    (nothing : sw.attached = .nothing) : (dc.addSwitch (.edge sw)).Listed := by
  constructor
  · intro swid
    rw [edgeSWList_addSwitch, attachedAt_addSwitch, List.mem_append, List.mem_singleton,
      listed.edges]
    by_cases here : swid = sw.swid
    · simp [here]
    · rw [Function.update_of_ne here]
      simp [here]
  · intro swid hosts found vmid member
    rw [attachedAt_addSwitch] at found
    rw [(vms_addSwitch dc nothing).1]
    by_cases here : swid = sw.swid
    · rw [here, Function.update_self, nothing] at found
      rw [← Option.some.inj found] at member
      simp [Attached.nothing, keys] at member
    · rw [Function.update_of_ne here] at found
      exact listed.known found vmid member

theorem HostsRight.addSwitch (right : dc.HostsRight) (listed : dc.Listed) {sw : EdgeSwitch}
    (nothing : sw.attached = .nothing) (fresh : sw.swid ∉ dc.edgeSWList) :
    (dc.addSwitch (.edge sw)).HostsRight := by
  obtain ⟨sameDic, sameNumber⟩ := vms_addSwitch dc nothing
  have free : dc.attachedAt sw.swid = none := by
    rwa [listed.edges, Option.not_isSome_iff_eq_none] at fresh
  have search : ∀ {swid hosts}, (dc.addSwitch (.edge sw)).attachedAt swid = some hosts →
      hosts = .nothing ∨ dc.attachedAt swid = some hosts := by
    intro swid hosts found
    rw [attachedAt_addSwitch] at found
    by_cases here : swid = sw.swid
    · rw [here, Function.update_self, nothing] at found
      exact .inl (Option.some.inj found).symm
    · rw [Function.update_of_ne here] at found
      exact .inr found
  constructor
  · rw [sameDic]
    exact right.nodup
  · intro swid hosts found
    rcases search found with rfl | old
    · exact List.nodup_nil
    · exact right.nodupAt old
  · rw [sameDic, sameNumber, right.number]
  · intro swid hosts found
    rcases search found with rfl | old
    · rfl
    · exact right.numberAt old
  · intro vm member swid
    rw [sameDic] at member
    rw [← right.placed vm member swid, attachedAt_addSwitch]
    by_cases here : swid = sw.swid
    · rw [here, Function.update_self, free, nothing]
      simp [Attached.nothing, keys]
    · rw [Function.update_of_ne here]

theorem attached_new_zero (swid gid : Int) :
    (EdgeSwitch.new sha1 swid gid 0).attached = .nothing := rfl

theorem HostsRight.readSwitches (right : dc.HostsRight) (listed : dc.Listed) (swid : Int)
    (lines : List Chars) :
    (dc.readSwitches sha1 swid lines).1.HostsRight ∧
      (dc.readSwitches sha1 swid lines).1.Listed := by
  refine readSwitches_keeps (fun dc => dc.HostsRight ∧ dc.Listed) ?_ ⟨right, listed⟩ swid lines
  rintro dc swid gid ⟨right, listed⟩
  rw [placeSwitch]
  split
  · have same := sameHosts_updateEdgeSWInfo dc swid gid
    exact ⟨same.hostsRight right, same.listed listed⟩
  · rename_i absent
    have nothing := @attached_new_zero sha1 swid gid
    exact ⟨right.addSwitch listed nothing (by simpa using absent), listed.addSwitch nothing⟩

end Switches

section Vms

variable {sha1 : Chars → Nat} {dc : Dc} {vm : Vm}

theorem placeVm_attached {hosts : Attached} (found : dc.attachedAt vm.swid = some hosts) :
    (dc.placeVm sha1 vm).2 = none ∧
      (dc.placeVm sha1 vm).1.vmDic = (dc.addVM vm).vmDic ∧
      (dc.placeVm sha1 vm).1.numVm = dc.numVm + 1 ∧
      (dc.placeVm sha1 vm).1.edgeSWList = dc.edgeSWList ∧
      (dc.placeVm sha1 vm).1.attachedAt =
        Function.update dc.attachedAt vm.swid (some (hosts.add sha1 vm)) := by
  obtain ⟨sw, search, rfl⟩ : ∃ sw, lookup dc.swDic vm.swid = some (.edge sw) ∧
      sw.attached = hosts := by
    rw [attachedAt] at found
    split at found
    · rename_i sw search
      exact ⟨sw, search, Option.some.inj found⟩
    · cases found
  have swid : (sw.addVM sha1 vm).swid = vm.swid := lookup_key search
  have outcome : dc.placeVm sha1 vm =
      ({ dc.addVM vm with
        swDic := upsert dc.swDic vm.swid fun _ => .edge (sw.addVM sha1 vm) }, none) := by
    rw [placeVm]
    simp only [addVM, search]
  rw [outcome]
  refine ⟨rfl, rfl, rfl, rfl, ?_⟩
  rw [← swid]
  exact attachedAt_upsert (sw.addVM sha1 vm) (by rw [swid])

theorem placeVm_missing (missing : dc.attachedAt vm.swid = none) :
    ∃ error, dc.placeVm sha1 vm = (dc.addVM vm, some error) := by
  rw [placeVm]
  rw [attachedAt] at missing
  simp only [addVM]
  rcases search : lookup dc.swDic vm.swid with - | - | - | sw
  · exact ⟨_, rfl⟩
  · exact ⟨_, rfl⟩
  · exact ⟨_, rfl⟩
  · rw [search] at missing
    cases missing

theorem mem_keys_addVM {vmid : Int} :
    vmid ∈ keys (dc.addVM vm).vmDic ↔ vmid = vm.vmid ∨ vmid ∈ keys dc.vmDic :=
  mem_keys_upsert (keepsKey_vm vm)

theorem Listed.placeVm (listed : dc.Listed) (vm : Vm) : (dc.placeVm sha1 vm).1.Listed := by
  cases found : dc.attachedAt vm.swid with
  | none =>
    obtain ⟨error, outcome⟩ := @placeVm_missing sha1 _ _ found
    rw [outcome]
    exact ⟨listed.edges, fun here vmid member =>
      mem_keys_addVM.mpr (.inr (listed.known here vmid member))⟩
  | some hosts =>
    obtain ⟨-, vmDic, -, edges, attached⟩ := @placeVm_attached sha1 _ _ _ found
    constructor
    · intro swid
      rw [edges, attached, listed.edges]
      by_cases here : swid = vm.swid
      · simp [here, found]
      · rw [Function.update_of_ne here]
    · intro swid other search vmid member
      rw [attached] at search
      rw [vmDic, mem_keys_addVM]
      by_cases here : swid = vm.swid
      · rw [here, Function.update_self] at search
        rw [← Option.some.inj search, Attached.add, mem_keys_upsert (keepsKey_vm vm)] at member
        exact member.imp_right (listed.known found vmid)
      · rw [Function.update_of_ne here] at search
        exact .inr (listed.known search vmid member)

theorem length_upsert_new {vms : List Vm} (fresh : vm.vmid ∉ keys vms) :
    ((upsert vms vm.vmid fun _ => vm).length : Int) = vms.length + 1 := by
  rw [← lookup_isSome_iff] at fresh
  rw [length_upsert, if_neg fresh]
  rfl

theorem HostsRight.placeVm (right : dc.HostsRight) (listed : dc.Listed)
    (fresh : vm.vmid ∉ keys dc.vmDic) (edge : vm.swid ∈ dc.edgeSWList) :
    (dc.placeVm sha1 vm).1.HostsRight := by
  obtain ⟨hosts, found⟩ := Option.isSome_iff_exists.mp ((listed.edges _).mp edge)
  obtain ⟨-, vmDic, numVm, -, attached⟩ := @placeVm_attached sha1 _ _ _ found
  have freshAt : ∀ {swid others}, dc.attachedAt swid = some others →
      vm.vmid ∉ keys others.vmDic :=
    fun here member => fresh (listed.known here _ member)
  have search : ∀ {swid others}, (dc.placeVm sha1 vm).1.attachedAt swid = some others →
      others = hosts.add sha1 vm ∨ dc.attachedAt swid = some others := by
    intro swid others here
    rw [attached] at here
    by_cases same : swid = vm.swid
    · rw [same, Function.update_self] at here
      exact .inl (Option.some.inj here).symm
    · rw [Function.update_of_ne same] at here
      exact .inr here
  constructor
  · rw [vmDic]
    exact keys_upsert_nodup (keepsKey_vm vm) right.nodup
  · intro swid others here
    rcases search here with rfl | old
    · exact keys_upsert_nodup (keepsKey_vm vm) (right.nodupAt found)
    · exact right.nodupAt old
  · rw [vmDic, numVm, right.number]
    exact (length_upsert_new fresh).symm
  · intro swid others here
    rcases search here with rfl | old
    · change hosts.numVm + 1 = _
      rw [right.numberAt found]
      exact (length_upsert_new (freshAt found)).symm
    · exact right.numberAt old
  · intro other member swid
    have absent : lookup dc.vmDic vm.vmid = none := by
      rwa [← Option.not_isSome_iff_eq_none, lookup_isSome_iff]
    rw [vmDic, addVM, upsert_of_absent absent, List.mem_append, List.mem_singleton] at member
    rw [attached]
    rcases member with old | rfl
    · have differs : other.vmid ≠ vm.vmid := fun same =>
        fresh (same ▸ List.mem_map_of_mem old)
      rw [← right.placed other old swid]
      by_cases here : swid = vm.swid
      · rw [here, Function.update_self, found]
        simp [Attached.add, mem_keys_upsert (keepsKey_vm vm), differs]
      · rw [Function.update_of_ne here]
    · by_cases here : swid = other.swid
      · rw [here, Function.update_self]
        simp [Attached.add, mem_keys_upsert (keepsKey_vm other)]
      · rw [Function.update_of_ne here]
        simp only [here, iff_false]
        rintro ⟨others, old, member⟩
        exact freshAt old member

theorem numVm_placeVm (dc : Dc) (vm : Vm) :
    (dc.placeVm sha1 vm).1.numVm = dc.numVm + 1 ∧
      (dc.placeVm sha1 vm).1.vmDic = (dc.addVM vm).vmDic := by
  cases found : dc.attachedAt vm.swid with
  | none =>
    obtain ⟨error, outcome⟩ := @placeVm_missing sha1 _ _ found
    rw [outcome]
    exact ⟨rfl, rfl⟩
  | some hosts =>
    obtain ⟨-, vmDic, numVm, -, -⟩ := @placeVm_attached sha1 _ _ _ found
    exact ⟨numVm, vmDic⟩

theorem length_addVM_le (dc : Dc) (vm : Vm) :
    ((dc.addVM vm).vmDic.length : Int) ≤ dc.vmDic.length + 1 := by
  rw [addVM, length_upsert]
  split <;> omega

theorem hostsRight_placeVm_iff (right : dc.HostsRight) (listed : dc.Listed) :
    (dc.placeVm sha1 vm).1.HostsRight ↔
      vm.vmid ∉ keys dc.vmDic ∧ vm.swid ∈ dc.edgeSWList := by
  constructor
  · intro after
    obtain ⟨numVm, vmDic⟩ := @numVm_placeVm sha1 dc vm
    refine ⟨fun known => ?_, ?_⟩
    · have number := after.number
      rw [numVm, vmDic, right.number, addVM, length_upsert,
        if_pos (lookup_isSome_iff.mpr known)] at number
      omega
    · have here : vm ∈ (dc.placeVm sha1 vm).1.vmDic := by
        have found : lookup (dc.addVM vm).vmDic vm.vmid = some vm := by
          rw [addVM, lookup_upsert (keepsKey_vm vm), if_pos rfl]
        rw [vmDic]
        exact lookup_mem found
      obtain ⟨hosts, attached, -⟩ := (after.placed vm here vm.swid).mpr rfl
      rw [listed.edges]
      by_contra missing
      rw [Option.not_isSome_iff_eq_none] at missing
      obtain ⟨error, outcome⟩ := @placeVm_missing sha1 _ _ missing
      rw [outcome] at attached
      exact absurd (attached.symm.trans missing) (Option.some_ne_none hosts)
  · rintro ⟨fresh, edge⟩
    exact right.placeVm listed fresh edge

def readableVms : List Chars → List Vm
  | [] => []
  | line :: lines =>
    match readVm line with
    | none => []
    | some vm => vm :: readableVms lines

structure NewHosts (dc : Dc) (vms : List Vm) : Prop where
  nodup : (keys vms).Nodup
  fresh : ∀ vm ∈ vms, vm.vmid ∉ keys dc.vmDic
  edge : ∀ vm ∈ vms, vm.swid ∈ dc.edgeSWList

theorem edgeSWList_placeVm (dc : Dc) (vm : Vm) :
    (dc.placeVm sha1 vm).1.edgeSWList = dc.edgeSWList := by
  cases found : dc.attachedAt vm.swid with
  | none =>
    obtain ⟨error, outcome⟩ := @placeVm_missing sha1 _ _ found
    rw [outcome]
    rfl
  | some hosts =>
    obtain ⟨-, -, -, edges, -⟩ := @placeVm_attached sha1 _ _ _ found
    exact edges

theorem newHosts_cons {vms : List Vm} :
    dc.NewHosts (vm :: vms) ↔
      (vm.vmid ∉ keys dc.vmDic ∧ vm.swid ∈ dc.edgeSWList) ∧
        (dc.placeVm sha1 vm).1.NewHosts vms := by
  have keysAfter : ∀ vmid, vmid ∈ keys (dc.placeVm sha1 vm).1.vmDic ↔
      vmid = vm.vmid ∨ vmid ∈ keys dc.vmDic := by
    intro vmid
    rw [(numVm_placeVm dc vm).2, mem_keys_addVM]
  constructor
  · rintro ⟨nodup, fresh, edge⟩
    rw [List.forall_mem_cons] at fresh edge
    obtain ⟨different, nodup⟩ := List.nodup_cons.mp nodup
    refine ⟨⟨fresh.1, edge.1⟩, nodup, ?_, ?_⟩
    · intro other member inside
      rcases (keysAfter _).mp inside with same | old
      · refine different ?_
        change vm.vmid ∈ keys vms
        rw [← same]
        exact List.mem_map_of_mem member
      · exact fresh.2 other member old
    · rw [edgeSWList_placeVm]
      exact edge.2
  · rintro ⟨⟨freshHere, edgeHere⟩, nodup, fresh, edge⟩
    rw [edgeSWList_placeVm] at edge
    refine ⟨List.nodup_cons.mpr ⟨?_, nodup⟩, ?_, ?_⟩
    · intro member
      obtain ⟨other, inside, same⟩ := List.mem_map.mp member
      exact fresh other inside ((keysAfter _).mpr (.inl same))
    · exact List.forall_mem_cons.mpr ⟨freshHere, fun other member old =>
        fresh other member ((keysAfter _).mpr (.inr old))⟩
    · exact List.forall_mem_cons.mpr ⟨edgeHere, edge⟩

theorem readVms_excess (excess : (dc.vmDic.length : Int) < dc.numVm) (lines : List Chars) :
    ((dc.readVms sha1 lines).1.vmDic.length : Int) < (dc.readVms sha1 lines).1.numVm := by
  refine readVms_keeps (fun dc => (dc.vmDic.length : Int) < dc.numVm) ?_ excess lines
  intro dc vm excess
  have grown := length_addVM_le dc vm
  rw [(numVm_placeVm dc vm).1, (numVm_placeVm dc vm).2]
  omega

theorem Listed.readVms (listed : dc.Listed) (lines : List Chars) :
    (dc.readVms sha1 lines).1.Listed :=
  readVms_keeps Dc.Listed (fun _ vm listed => listed.placeVm vm) listed lines

theorem hostsRight_readVms_iff {lines : List Chars} (right : dc.HostsRight) (listed : dc.Listed) :
    (dc.readVms sha1 lines).1.HostsRight ↔ dc.NewHosts (readableVms lines) := by
  induction lines generalizing dc with
  | nil => exact ⟨fun _ => ⟨List.nodup_nil, by simp [readableVms], by simp [readableVms]⟩,
      fun _ => right⟩
  | cons line lines ih =>
    rw [readVms, readableVms]
    cases readVm line with
    | none => exact ⟨fun _ => ⟨List.nodup_nil, by simp, by simp⟩, fun _ => right⟩
    | some vm =>
      dsimp only
      rw [@newHosts_cons sha1, ← @hostsRight_placeVm_iff sha1 _ _ right listed]
      by_cases good : (dc.placeVm sha1 vm).1.HostsRight
      · -- The host is taken, and the rest of the file decides.
        obtain ⟨-, edge⟩ := (hostsRight_placeVm_iff right listed).mp good
        obtain ⟨hosts, found⟩ := Option.isSome_iff_exists.mp ((listed.edges _).mp edge)
        rw [Outcome.andThen_of_none (placeVm_attached found).1,
          ih good (listed.placeVm vm)]
        exact (and_iff_right good).symm
      · -- Nothing that follows can mend the counters.
        simp only [good, false_and, iff_false]
        intro final
        cases found : dc.attachedAt vm.swid with
        | none =>
          obtain ⟨error, outcome⟩ := @placeVm_missing sha1 _ _ found
          rw [outcome] at final good
          exact good final
        | some hosts =>
          have noError := (@placeVm_attached sha1 _ _ _ found).1
          rw [Outcome.andThen_of_none noError] at final
          have known : vm.vmid ∈ keys dc.vmDic := by
            by_contra fresh
            refine good (right.placeVm listed fresh ?_)
            rw [listed.edges, found]
            rfl
          have excess : ((dc.placeVm sha1 vm).1.vmDic.length : Int) <
              (dc.placeVm sha1 vm).1.numVm := by
            rw [(numVm_placeVm dc vm).1, (numVm_placeVm dc vm).2, right.number, addVM,
              length_upsert, if_pos (lookup_isSome_iff.mpr known)]
            omega
          have finalExcess := @readVms_excess sha1 _ excess lines
          have number := final.number
          omega

end Vms

section Runs

variable {sha1 : Chars → Nat} {dc : Dc}

def Start.NoHosts : Start → Prop
  | .empty => True
  | .flat numSw numPort => numSw ≤ 0 ∨ numPort = 0

theorem hostsRight_empty : Dc.empty.HostsRight ∧ Dc.empty.Listed := by
  constructor
  · constructor <;> simp [Dc.empty, keys, attachedAt, lookup]
  · constructor <;> simp [Dc.empty, attachedAt, lookup]

theorem HostsRight.foldl_addSwitch (right : dc.HostsRight) (listed : dc.Listed)
    {switches : List EdgeSwitch} (nodup : (switches.map EdgeSwitch.swid).Nodup)
    (fresh : ∀ sw ∈ switches, sw.swid ∉ dc.edgeSWList)
    (nothing : ∀ sw ∈ switches, sw.attached = .nothing) :
    (switches.foldl (fun dc sw => dc.addSwitch (.edge sw)) dc).HostsRight ∧
      (switches.foldl (fun dc sw => dc.addSwitch (.edge sw)) dc).Listed := by
  induction switches generalizing dc with
  | nil => exact ⟨right, listed⟩
  | cons sw switches ih =>
    rw [List.map_cons, List.nodup_cons] at nodup
    rw [List.forall_mem_cons] at fresh nothing
    refine ih (right.addSwitch listed nothing.1 fresh.1) (listed.addSwitch nothing.1) nodup.2 ?_
      nothing.2
    intro later member inside
    rw [edgeSWList_addSwitch, List.mem_append, List.mem_singleton] at inside
    rcases inside with inside | same
    · exact fresh.2 later member inside
    · exact nodup.1 (same ▸ List.mem_map_of_mem member)

theorem foldl_addVM_counts (vms : List Vm) (sw : EdgeSwitch) :
    (vms.foldl (EdgeSwitch.addVM sha1) sw).numVm = sw.numVm + vms.length ∧
      (vms.foldl (EdgeSwitch.addVM sha1) sw).vmDic.length ≤ sw.vmDic.length + vms.length := by
  induction vms generalizing sw with
  | nil => simp
  | cons vm vms ih =>
    obtain ⟨number, size⟩ := ih (sw.addVM sha1 vm)
    have grown : (sw.addVM sha1 vm).vmDic.length ≤ sw.vmDic.length + 1 := by
      rw [EdgeSwitch.addVM, length_upsert]
      split <;> omega
    have counted : (sw.addVM sha1 vm).numVm = sw.numVm + 1 := rfl
    rw [List.foldl_cons, List.length_cons]
    omega

theorem numVm_new_ne (swid gid : Int) {numPort : Int} (ports : numPort ≠ 0) :
    (EdgeSwitch.new sha1 swid gid numPort).numVm ≠
      (EdgeSwitch.new sha1 swid gid numPort).vmDic.length := by
  obtain ⟨number, size⟩ := @foldl_addVM_counts sha1 (portVms swid numPort)
    { swid, gid, numVm := numPort, vmDic := [], bf := fun _ => 0 }
  have length : (portVms swid numPort).length = numPort.toNat := by simp [portVms]
  rw [length] at number size
  simp only [List.length_nil] at size
  rw [EdgeSwitch.new, number]
  change numPort + (numPort.toNat : Int) ≠ _
  omega

theorem Start.hostsRight_iff (start : Start) :
    ((start.dc sha1).HostsRight ↔ start.NoHosts) ∧ (start.NoHosts → (start.dc sha1).Listed) := by
  cases start with
  | empty => exact ⟨⟨fun _ => trivial, fun _ => hostsRight_empty.1⟩, fun _ => hostsRight_empty.2⟩
  | flat numSw numPort =>
    have good : numSw ≤ 0 ∨ numPort = 0 →
        ((Start.flat numSw numPort).dc sha1).HostsRight ∧
          ((Start.flat numSw numPort).dc sha1).Listed := by
      intro noHosts
      rw [Start.dc, ofTopo_flat]
      apply hostsRight_empty.1.foldl_addSwitch hostsRight_empty.2
      · rw [List.map_map]
        refine List.Nodup.map ?_ List.nodup_range
        intro i j same
        simpa using same
      · simp [Dc.empty]
      · intro sw member
        obtain ⟨i, inside, rfl⟩ := List.mem_map.mp member
        rw [List.mem_range] at inside
        have zero : numPort = 0 := by omega
        rw [zero]
        exact attached_new_zero _ _
    refine ⟨⟨fun right => ?_, fun noHosts => (good noHosts).1⟩, fun noHosts => (good noHosts).2⟩
    by_contra hosts
    obtain ⟨some_, ports⟩ := not_or.mp hosts
    obtain ⟨last, count⟩ : ∃ last, numSw.toNat = last + 1 := ⟨numSw.toNat - 1, by omega⟩
    rw [Start.dc, ofTopo_flat, count, List.range_succ, List.map_append, List.foldl_append,
      List.map_singleton, List.foldl_cons, List.foldl_nil] at right
    have here := right.numberAt (by rw [attachedAt_addSwitch, Function.update_self])
    exact numVm_new_ne last defaultGroupId ports here

inductive ReadCall where
  | readinEdgeSWInfo (lines : List Chars)
  | readinVMInfo (lines : List Chars)

def readStep (sha1 : Chars → Nat) (dc : Dc) : ReadCall → Option Dc
  | .readinEdgeSWInfo lines => some (dc.readinEdgeSWInfo sha1 lines).1
  | .readinVMInfo lines => some (dc.readinVMInfo sha1 lines).1

/-- A host file lists different hosts that the data center does not have yet, at switches that it
has. -/
def ListsNewHosts (dc : Dc) : ReadCall → Prop
  | .readinEdgeSWInfo _ => True
  | .readinVMInfo lines => dc.NewHosts (readableVms lines)

theorem hostsRight_readStep_iff {call : ReadCall} (right : dc.HostsRight) (listed : dc.Listed) :
    (∃ next, readStep sha1 dc call = some next ∧ next.HostsRight) ↔ dc.ListsNewHosts call := by
  cases call with
  | readinEdgeSWInfo lines =>
    exact iff_of_true ⟨_, rfl, (right.readSwitches listed 1 lines).1⟩ trivial
  | readinVMInfo lines =>
    rw [ListsNewHosts, ← @hostsRight_readVms_iff sha1 _ _ right listed]
    exact ⟨fun ⟨_, taken, after⟩ => Option.some.inj taken ▸ after, fun after => ⟨_, rfl, after⟩⟩

theorem Listed.readStep {call : ReadCall} {next : Dc} (right : dc.HostsRight)
    (listed : dc.Listed) (taken : readStep sha1 dc call = some next) : next.Listed := by
  cases call with
  | readinEdgeSWInfo lines =>
    exact Option.some.inj taken ▸ (right.readSwitches listed 1 lines).2
  | readinVMInfo lines => exact Option.some.inj taken ▸ listed.readVms lines

/-- Counters and dictionaries agree in every state of a run exactly if no host comes with the
topology and every host file lists new hosts only, at switches that exist. -/
theorem hostsRight_everyStep_iff (sha1 : Chars → Nat) (start : Start) (calls : List ReadCall) :
    ((start.dc sha1).HostsRight ∧
        Run.EveryStep (readStep sha1) Dc.HostsRight (start.dc sha1) calls) ↔
      start.NoHosts ∧ Run.Along (readStep sha1) Dc.ListsNewHosts (start.dc sha1) calls := by
  obtain ⟨startIff, startListed⟩ := @Start.hostsRight_iff sha1 start
  rw [startIff]
  refine and_congr_right fun noHosts => ?_
  have exactly : ∀ {dc call}, Dc.HostsRight dc ∧ Dc.Listed dc →
      ((∃ next, readStep sha1 dc call = some next ∧ next.HostsRight) ↔ dc.ListsNewHosts call) :=
    fun inv => hostsRight_readStep_iff inv.1 inv.2
  refine Run.everyStep_iff_along exactly ?_ ⟨startIff.mpr noHosts, startListed noHosts⟩
  exact fun inv taken after => ⟨after, inv.2.readStep inv.1 taken⟩

/-- Host 7 is listed at switch 1 and again at switch 2: the data center counts two hosts and has
one, and both switches have it.  With a topology the counter of a switch is wrong from the start. -/
theorem not_hostsRight_again :
    ¬((Start.empty.dc fun _ => 0).HostsRight ∧
      Run.EveryStep (readStep fun _ => 0) Dc.HostsRight (Start.empty.dc fun _ => 0)
        [.readinEdgeSWInfo ["0\n".toList, "0\n".toList],
          .readinVMInfo ["7 1\n".toList, "7 2\n".toList]]) ∧
      ¬((Start.flat 1 1).dc fun _ => 0).HostsRight := by
  constructor
  · rintro ⟨-, every⟩
    obtain ⟨before, after, run, taken, right⟩ :=
      every [.readinEdgeSWInfo ["0\n".toList, "0\n".toList]]
        (.readinVMInfo ["7 1\n".toList, "7 2\n".toList]) [] rfl
    obtain rfl := Option.some.inj run
    obtain rfl := Option.some.inj taken
    exact absurd right.number (by decide)
  · rw [(Start.hostsRight_iff _).1]
    exact (by decide : ¬((1 : Int) ≤ 0 ∨ (1 : Int) = 0))

end Runs

end Dc

end Sim
end LazyCtrl
