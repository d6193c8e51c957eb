import Mathlib.Data.Fintype.Powerset
import Mathlib.Data.Fintype.Pigeonhole
import LazyCtrl.Sim.MetisPartition
import LazyCtrl.Sim.Traffic

/-!
# The load of the controller

A flow to another group is a query to the controller if no filter of the source group reports its
destination; if one does, `sendVMTraffic` counts a false positive and no query.  A flow within a
group is a query for each filter beyond the first that reports its destination.  So the queries fall
short of the flows between groups by the flows that are falsely reported, less the superfluous
queries of other flows.
-/

namespace LazyCtrl
namespace Sim

open Text Keyed

section Lines

variable {β : Type}

def readableTraffic (pyFloat : Chars → Option β) : List Chars → List (TrafficLine β)
  | [] => []
  | line :: lines =>
    match readTrafficLine pyFloat line with
    | none => []
    | some line => line :: readableTraffic pyFloat lines

namespace Dc

/-- A value for the flows between known hosts of different switches, whose source is in a group: it
is computed from whether the destination is in the group too and from the number of filters of the
group that report it. -/
def perFlow (sha1 : Chars → Nat) (dc : Dc) (value : Bool → Nat → Int) (line : TrafficLine β) :
    Int :=
  match lookup dc.vmDic line.src, lookup dc.vmDic line.dst with
  | some src, some dst =>
    if src.swid = dst.swid then 0
    else
      match (dc.gidOf src.swid).bind (lookup dc.groupDic) with
      | none => 0
      | some group =>
        value (decide (dc.gidOf src.swid = dc.gidOf dst.swid))
          (dc.hits sha1 group src dst).card
  | _, _ => 0

/-- The flows of a line to another group whose destination is reported in the group of the
source. -/
def falselyReported (sha1 : Chars → Nat) (dc : Dc) (line : TrafficLine β) : Int :=
  dc.perFlow sha1 (fun isInGroup hits => if isInGroup ∨ hits = 0 then 0 else line.flow) line

def superfluous (sha1 : Chars → Nat) (dc : Dc) (line : TrafficLine β) : Int :=
  dc.perFlow sha1 (fun isInGroup hits => if isInGroup then line.flow * (hits - 1) else 0) line

end Dc

end Lines

section Load

variable {β : Type} [Add β] {sha1 : Chars → Nat} {order : KeyOrder} {dc : Dc}
  {state : TrafficState β}

omit [Add β] in
def TrafficState.margin (state : TrafficState β) : Int :=
  state.stat.queryControlCurrent - state.stat.flowCrossGroup

theorem TrafficState.margin_add (state : TrafficState β) (srcGid dstGid flow : Int) (oct : β)
    (hits : Nat) (positive : srcGid = dstGid → 0 < hits) {matrix : List AffinityRow} :
    TrafficState.margin {
      affinityMatrix := matrix
      stat := (state.stat.addFlow (decide (srcGid = dstGid)) flow oct).addQueries hits
        (decide (srcGid = dstGid)) flow } =
      state.margin + (if decide (srcGid = dstGid) = true then flow * (hits - 1) else 0) -
        (if decide (srcGid = dstGid) = true ∨ hits = 0 then 0 else flow) := by
  simp only [TrafficState.margin, StatCollector.addFlow, StatCollector.addQueries]
  by_cases inside : srcGid = dstGid
  · have some_ : hits ≠ 0 := Nat.ne_of_gt (positive inside)
    simp only [inside, decide_true, if_true, if_neg some_, true_or]
    omega
  · by_cases none_ : hits = 0
    · simp only [inside, none_, decide_false, Bool.false_eq_true, if_false, if_true, or_true]
      omega
    · simp only [inside, none_, decide_false, Bool.false_eq_true, if_false, or_self]
      omega

theorem Dc.Ready.margin_sendLine (ready : dc.Ready sha1) (line : TrafficLine β) :
    (dc.sendLine sha1 order state line).2 = none ∧
      (dc.sendLine sha1 order state line).1.margin =
        state.margin + dc.superfluous sha1 line - dc.falselyReported sha1 line := by
  simp only [Dc.sendLine, Dc.superfluous, Dc.falselyReported, Dc.perFlow]
  cases srcFound : lookup dc.vmDic line.src with
  | none => simp
  | some src =>
    cases dstFound : lookup dc.vmDic line.dst with
    | none => simp
    | some dst =>
      by_cases same : src.swid = dst.swid
      · simp only [Dc.sendVMTraffic, if_pos same, true_and, Int.add_zero, Int.sub_zero]
        rfl
      · simp only [if_neg same]
        obtain ⟨srcGid, dstGid, srcIn, dstIn,
            ⟨noGroup, unchanged⟩ | ⟨group, found, positive, sent⟩⟩ :=
          ready.sendVMTraffic_eq order state line.flow line.oct (lookup_mem srcFound)
            (lookup_mem dstFound) same
        · simp [unchanged, srcIn, noGroup]
        · simp only [sent, srcIn, dstIn, Option.bind_some, found, Option.some.injEq, true_and]
          exact state.margin_add srcGid dstGid line.flow line.oct _ positive

theorem Dc.Ready.margin_testTraffic (pyFloat : Chars → Option β) (ready : dc.Ready sha1)
    (lines : List Chars) :
    (dc.testTraffic sha1 order pyFloat state lines).1.margin =
      state.margin + ((readableTraffic pyFloat lines).map (dc.superfluous sha1)).sum -
        ((readableTraffic pyFloat lines).map (dc.falselyReported sha1)).sum := by
  induction lines generalizing state with
  | nil => simp [Dc.testTraffic, readableTraffic]
  | cons line lines ih =>
    cases read : readTrafficLine pyFloat line with
    | none => simp [Dc.testTraffic, readableTraffic, read]
    | some parsed =>
      obtain ⟨noError, margin⟩ := @Dc.Ready.margin_sendLine β _ sha1 order dc state ready parsed
      have lines_ : readableTraffic pyFloat (line :: lines) =
          parsed :: readableTraffic pyFloat lines := by
        rw [readableTraffic, read]
      rw [Dc.testTraffic_cons read noError, ih, margin, lines_, List.map_cons, List.map_cons,
        List.sum_cons, List.sum_cons]
      omega

omit [Add β] in
theorem TrafficState.margin_nonneg_iff (state : TrafficState β) :
    0 ≤ state.margin ↔ state.stat.flowCrossGroup ≤ state.stat.queryControlCurrent :=
  Int.sub_nonneg

theorem Dc.Ready.covers_iff [Zero β] (pyFloat : Chars → Option β) (ready : dc.Ready sha1)
    (lines : List Chars) :
    (dc.testTraffic sha1 order pyFloat .new lines).1.stat.flowCrossGroup ≤
        (dc.testTraffic sha1 order pyFloat .new lines).1.stat.queryControlCurrent ↔
      ((readableTraffic pyFloat lines).map (dc.falselyReported sha1)).sum ≤
        ((readableTraffic pyFloat lines).map (dc.superfluous sha1)).sum := by
  have start : (TrafficState.new : TrafficState β).margin = 0 := rfl
  rw [← TrafficState.margin_nonneg_iff, ready.margin_testTraffic, start]
  omega

end Load

/-- The queries to the controller cover the flows between groups exactly if the flows that are
falsely reported do not exceed the superfluous queries. -/
theorem flowCrossGroup_le_queries_iff {β : Type} [Zero β] [Add β] (sha1 : Chars → Nat)
    (order : KeyOrder) (pyFloat : Chars → Option β) {switches hosts : List Chars}
    (files : Dc.ManualFiles sha1 switches hosts) (traffic : List Chars) :
    let dc := Dc.manual sha1 switches hosts
    let stat := (dc.testTraffic sha1 order pyFloat .new traffic).1.stat
    stat.flowCrossGroup ≤ stat.queryControlCurrent ↔
      ((readableTraffic pyFloat traffic).map (dc.falselyReported sha1)).sum ≤
        ((readableTraffic pyFloat traffic).map (dc.superfluous sha1)).sum := by
  exact files.ready.covers_iff pyFloat traffic

/-- Three flows between two hosts of one group. -/
theorem flowCrossGroup_le_queries_two :
    let dc := Dc.manual (fun _ => 0) ["0\n".toList, "0\n".toList] ["7 1\n".toList, "8 2\n".toList]
    let stat := (dc.testTraffic (fun _ => 0) .sorted pyIntOf .new ["7 8 3 40\n".toList]).1.stat
    stat.flowCrossGroup ≤ stat.queryControlCurrent := by
  have files : Dc.ManualFiles (fun _ => 0) ["0\n".toList, "0\n".toList]
      ["7 1\n".toList, "8 2\n".toList] := by
    refine ⟨?_, by decide, by decide⟩
    intro line member gid parsed
    obtain rfl : line = "0\n".toList := by simpa using member
    rw [(by decide : pyIntLine "0\n".toList = some 0)] at parsed
    exact Option.some.inj parsed ▸ Int.le_refl 0
  refine (flowCrossGroup_le_queries_iff _ _ _ files _).mpr ?_
  decide

section FalseReport

def vmLine (vmid swid : Nat) : Chars :=
  Nat.toDigits 10 vmid ++ ' ' :: (Nat.toDigits 10 swid ++ ['\n'])

def flowLine (src dst : Nat) : Chars :=
  Nat.toDigits 10 src ++ ' ' :: (Nat.toDigits 10 dst ++ " 1 0\n".toList)

def NonnegFlows (traffic : List Chars) : Prop :=
  ∀ line ∈ traffic, ∃ parsed, readTrafficLine pyIntOf line = some parsed ∧ 0 ≤ parsed.flow

def QueriesCover (sha1 : Chars → Nat) (order : KeyOrder) (switches hosts traffic : List Chars) :
    Prop :=
  let stat := ((Dc.manual sha1 switches hosts).testTraffic sha1 order pyIntOf .new traffic).1.stat
  stat.flowCrossGroup ≤ stat.queryControlCurrent

theorem readVm_vmLine (vmid swid : Nat) : Dc.readVm (vmLine vmid swid) = some ⟨vmid, swid⟩ := by
  have words : pySplit (vmLine vmid swid) = [Nat.toDigits 10 vmid, Nat.toDigits 10 swid] := by
    rw [vmLine, pySplit_toDigits_append _ rfl, pySplit_toDigits_append _ rfl, pySplit_spaces rfl]
  simp [Dc.readVm, words, pyIntOf_toDigits]

theorem readTrafficLine_flowLine (src dst : Nat) :
    readTrafficLine pyIntOf (flowLine src dst) = some ⟨src, dst, 1, 0⟩ := by
  have words : pySplit (flowLine src dst) =
      [Nat.toDigits 10 src, Nat.toDigits 10 dst, ['1'], ['0']] := by
    rw [flowLine, pySplit_toDigits_append _ rfl]
    exact congrArg _ (pySplit_toDigits_append _ rfl _)
  have one : pyIntOf ['1'] = some 1 := by decide
  have zero : pyIntOf ['0'] = some 0 := by decide
  simp [readTrafficLine, words, pyIntOf_toDigits, one, zero]

theorem exists_same_probes (sha1 : Chars → Nat) :
    ∃ a b : Nat, a ≠ b ∧ probeSet sha1 a = probeSet sha1 b :=
  Finite.exists_ne_map_eq_of_infinite fun n : Nat => probeSet sha1 n

theorem Dc.Ready.falselyReported_eq {β : Type} {sha1 : Chars → Nat} {dc : Dc}
    {line : TrafficLine β} {src dst : Vm} {srcGid dstGid swid : Int} (ready : dc.Ready sha1)
    (srcFound : lookup dc.vmDic line.src = some src)
    (dstFound : lookup dc.vmDic line.dst = some dst) (srcIn : dc.gidOf src.swid = some srcGid)
    (dstIn : dc.gidOf dst.swid = some dstGid) (differ : srcGid ≠ dstGid)
    (hasGroup : srcGid ≠ defaultGroupId) (inGroup : dc.gidOf swid = some srcGid)
    (notSource : swid ≠ src.swid) (reported : dc.reports sha1 swid dst = true) :
    dc.falselyReported sha1 line = line.flow ∧ dc.superfluous sha1 line = 0 := by
  have apart : src.swid ≠ dst.swid := by
    intro same
    rw [same, dstIn] at srcIn
    exact differ (Option.some.inj srcIn).symm
  have present := ready.grouped.groups.known srcIn hasGroup
  obtain ⟨group, found⟩ := Option.isSome_iff_exists.mp (lookup_isSome_iff.mpr present)
  have hit : swid ∈ dc.hits sha1 group src dst :=
    Finset.mem_filter.mpr
      ⟨(ready.grouped.groups.member found swid).mpr inGroup, notSource, reported⟩
  have positive : (dc.hits sha1 group src dst).card ≠ 0 := Finset.card_ne_zero_of_mem hit
  simp only [falselyReported, superfluous, perFlow, srcFound, dstFound, if_neg apart, srcIn, dstIn,
    Option.bind_some, found, Option.some.injEq, differ, decide_false, Bool.false_eq_true,
    false_or, if_neg positive, if_false, and_self]

/-- Hosts `a` and `b` probe the same bins.  Switches 1 and 2 are in group 0 and have hosts `s` and
`a`, switch 3 is in group 1 and has host `b`: the flow from `s` to `b` is not counted. -/
theorem exists_uncounted (sha1 : Chars → Nat) (order : KeyOrder) :
    ∃ switches hosts traffic : List Chars, Dc.ManualFiles sha1 switches hosts ∧
      NonnegFlows traffic ∧ ¬QueriesCover sha1 order switches hosts traffic := by
  obtain ⟨a, b, differ, sameProbes⟩ := exists_same_probes sha1
  let s := a + b + 1
  let switches := ["0\n".toList, "0\n".toList, "1\n".toList]
  let hosts := [vmLine s 1, vmLine a 2, vmLine b 3]
  have vms : Dc.readableVms hosts = [⟨s, 1⟩, ⟨a, 2⟩, ⟨b, 3⟩] := by
    simp only [hosts, Dc.readableVms, readVm_vmLine]
    rfl
  have edges : (Dc.empty.readinEdgeSWInfo sha1 switches).1.edgeSWList = [1, 2, 3] := rfl
  have files : Dc.ManualFiles sha1 switches hosts := by
    refine ⟨?_, ?_, ?_⟩
    · have holds : List.Forall₂ HoldsGid switches [0, 0, 1] :=
        .cons ⟨['\n'], rfl, rfl⟩ (.cons ⟨['\n'], rfl, rfl⟩ (.cons ⟨['\n'], rfl, rfl⟩ .nil))
      exact nonneg_of_holdsGid holds
    · rw [vms]
      simp only [keys, List.map_cons, List.map_nil, key, s]
      simp only [List.nodup_cons, List.nodup_nil, List.mem_cons, List.not_mem_nil, or_false,
        not_false_eq_true, and_true]
      omega
    · rw [vms, edges]
      simp
  refine ⟨switches, hosts, [flowLine s b], files, ?_, ?_⟩
  · intro line member
    rw [List.mem_singleton.mp member]
    exact ⟨_, readTrafficLine_flowLine s b, (by decide : (0 : Int) ≤ 1)⟩
  let dc := Dc.manual sha1 switches hosts
  have ready : dc.Ready sha1 := files.ready
  have vmDic : dc.vmDic = [⟨s, 1⟩, ⟨a, 2⟩, ⟨b, 3⟩] := by
    rw [← vms]
    exact Dc.vmDic_readVms (Dc.ready_readSwitches files.nonneg).listed files.newHosts
  have gids : dc.gidOf 1 = some 0 ∧ dc.gidOf 2 = some 0 ∧ dc.gidOf 3 = some 1 := by
    have same : dc.gidOf = (Dc.empty.readinEdgeSWInfo sha1 switches).1.gidOf :=
      (Dc.groups_readVms _ hosts).1
    rw [same]
    exact ⟨rfl, rfl, rfl⟩
  have reported : dc.reports sha1 2 ⟨b, 3⟩ = true := by
    obtain ⟨sw, search, attached⟩ :=
      ready.edge_of_mem (show (⟨a, 2⟩ : Vm) ∈ dc.vmDic by simp [vmDic])
    have contains := ready.filters 2 sw.attached (by rw [Dc.attachedAt, search]) a attached
    rw [filterContains_iff, Bloom.Reports, sameProbes] at contains
    rw [Dc.reports, search]
    exact (filterContains_iff _ _ _).mpr contains
  have found : ∀ vm ∈ dc.vmDic, lookup dc.vmDic vm.vmid = some vm :=
    fun vm member => (lookup_eq_some_iff ready.right.nodup).mpr ⟨member, rfl⟩
  have srcFound : lookup dc.vmDic (s : Int) = some ⟨s, 1⟩ := found ⟨s, 1⟩ (by simp [vmDic])
  have dstFound : lookup dc.vmDic (b : Int) = some ⟨b, 3⟩ := found ⟨b, 3⟩ (by simp [vmDic])
  obtain ⟨missed, none_⟩ := @Dc.Ready.falselyReported_eq Int sha1 dc ⟨s, b, 1, 0⟩ _ _ _ _ _ ready
    srcFound dstFound gids.1 gids.2.2 (by decide) (by decide) gids.2.1 (by decide : (2 : Int) ≠ 1)
    reported
  have lines : readableTraffic pyIntOf [flowLine s b] = [⟨s, b, 1, 0⟩] := by
    simp only [readableTraffic, readTrafficLine_flowLine]
  rw [QueriesCover, ready.covers_iff, lines, List.map_singleton, List.map_singleton,
    List.sum_singleton, List.sum_singleton, missed, none_]
  exact (by decide : ¬(1 : Int) ≤ 0)

/-- With a hash function that sends all hosts to one bin, a single flow between the groups is not
counted; and no hash function counts the flows of all files. -/
theorem not_queriesCover :
    ¬QueriesCover (fun _ => 0) .sorted ["0\n".toList, "0\n".toList, "1\n".toList]
        ["7 1\n".toList, "8 2\n".toList, "9 3\n".toList] ["7 9 1 0\n".toList] ∧
      ¬∃ (sha1 : Chars → Nat) (order : KeyOrder), ∀ switches hosts traffic : List Chars,
        Dc.ManualFiles sha1 switches hosts → NonnegFlows traffic →
          QueriesCover sha1 order switches hosts traffic := by
  constructor
  · have holds : List.Forall₂ HoldsGid ["0\n".toList, "0\n".toList, "1\n".toList] [0, 0, 1] :=
      .cons ⟨['\n'], rfl, rfl⟩ (.cons ⟨['\n'], rfl, rfl⟩ (.cons ⟨['\n'], rfl, rfl⟩ .nil))
    have files : Dc.ManualFiles (fun _ => 0) ["0\n".toList, "0\n".toList, "1\n".toList]
        ["7 1\n".toList, "8 2\n".toList, "9 3\n".toList] :=
      ⟨nonneg_of_holdsGid holds, by decide, by decide⟩
    rw [QueriesCover, files.ready.covers_iff]
    decide
  · rintro ⟨sha1, order, covers⟩
    obtain ⟨switches, hosts, traffic, files, nonneg, uncovered⟩ := exists_uncounted sha1 order
    exact uncovered (covers switches hosts traffic files nonneg)

end FalseReport

end Sim
end LazyCtrl
