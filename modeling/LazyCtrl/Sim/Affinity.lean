import Mathlib.Data.List.Forall2
import LazyCtrl.Daemons.DoGroup

/-!
# The affinity of switches

`genSWAffinity` reads the aggregated records of pairs of hosts, assigns every host to a switch by its
number, and adds up the flows of each pair of different switches.  Together with `aggregateRecord`
this is a count over the original records: the first stage counts the records of each pair of hosts,
the second one adds these counts, records of a host with itself and flows within a switch are left
out on the way.

The division that gives the number of switches is exact.
-/

namespace LazyCtrl
namespace Sim

open Text Keyed

def numSwPort : Int := 24

def numSw (numHost : Int) : Int := ⌈(numHost : ℚ) / numSwPort⌉

structure Aggregated where
  src : Int
  dst : Int
  flow : Int
  deriving DecidableEq, Repr

/-- `src, dst, flow, oct = line.split()` and three conversions. -/
def readAggregated (line : Chars) : Option Aggregated :=
  match pySplit line with
  | [src, dst, flow, _] => do
      let src ← pyIntOf src
      let dst ← pyIntOf dst
      let flow ← pyIntOf flow
      some { src, dst, flow }
  | _ => none

@[ext] structure HostSw where
  host : Int
  sw : Int
  deriving DecidableEq, Repr

instance : Keyed HostSw Int := ⟨HostSw.host⟩

@[ext] structure SwFlow where
  pair : Int × Int
  flow : Int
  deriving DecidableEq, Repr

instance : Keyed SwFlow (Int × Int) := ⟨SwFlow.pair⟩

def sortedPair (a b : Int) : Int × Int := if a ≤ b then (a, b) else (b, a)

structure AffinityTables where
  hostDic : List HostSw
  swDic : List SwFlow

section Program

variable (n : Int)

def swOf (host : Int) : Int := Int.fmod host n + 1

def HostSw.assign (host : Int) (present : Option HostSw) : HostSw :=
  present.getD ⟨host, swOf n host⟩

def SwFlow.add (pair : Int × Int) (flow : Int) (present : Option SwFlow) : SwFlow :=
  ⟨pair, (present.map SwFlow.flow).getD 0 + flow⟩

/-- One turn of the loop.  With no switches there is never an entry in `hostDic`, so that the first
host is divided by zero. -/
def AffinityTables.read (tables : AffinityTables) (line : Chars) : Except PyError AffinityTables :=
  match readAggregated line with
  | none => .error .value
  | some record =>
    if record.src = record.dst then .ok tables
    else if n = 0 then .error .zeroDivision
    else
      let srcSw := (HostSw.assign n record.src (lookup tables.hostDic record.src)).sw
      let hostDic := upsert tables.hostDic record.src (HostSw.assign n record.src)
      let dstSw := (HostSw.assign n record.dst (lookup hostDic record.dst)).sw
      let hostDic := upsert hostDic record.dst (HostSw.assign n record.dst)
      if srcSw = dstSw then .ok { tables with hostDic }
      else
        let pair := sortedPair srcSw dstSw
        .ok { hostDic, swDic := upsert tables.swDic pair (SwFlow.add pair record.flow) }

end Program

def numberLine (number : Nat) : Chars := pyDecimal number ++ ['\n']

def hostLine (entry : HostSw) : Chars :=
  pyDecimal entry.host ++ ' ' :: (pyDecimal entry.sw ++ ['\n'])

def swFlowLine (entry : SwFlow) : Chars :=
  pyDecimal entry.pair.1 ++ ' ' :: (pyDecimal entry.pair.2 ++ ' ' ::
    (pyDecimal entry.flow ++ ['\n']))

structure AffinityFiles where
  affinity : List Chars
  map : List Chars

def switchCount (hosts : List HostSw) : Nat := (hosts.map HostSw.sw).toFinset.card

/-- An exception leaves both files empty. -/
def genSWAffinity (hostOrder : DictOrder HostSw) (swOrder : DictOrder SwFlow) (lines : List Chars)
    (numHost : Int) : AffinityFiles × Option PyError :=
  match lines.foldlM (AffinityTables.read (numSw numHost)) ⟨[], []⟩ with
  | .error error => (⟨[], []⟩, some error)
  | .ok tables =>
    ({ affinity := numberLine (switchCount tables.hostDic) ::
        numberLine tables.swDic.length :: (swOrder.visit tables.swDic).map swFlowLine
       map := (hostOrder.visit tables.hostDic).map hostLine }, none)

theorem switchCount_perm {hosts others : List HostSw} (perm : hosts.Perm others) :
    switchCount hosts = switchCount others := by
  rw [switchCount, switchCount, List.toFinset_eq_of_perm _ _ (perm.map HostSw.sw)]

section Collect

variable {n : Int}

def hostsOf (records : List Aggregated) : List Int :=
  (records.filter fun record => record.src ≠ record.dst).flatMap fun record =>
    [record.src, record.dst]

def Aggregated.swPair (n : Int) (record : Aggregated) : Int × Int :=
  sortedPair (swOf n record.src) (swOf n record.dst)

def crossing (n : Int) (records : List Aggregated) : List Aggregated :=
  records.filter fun record => swOf n record.src ≠ swOf n record.dst

def tablesOf (n : Int) (tables : AffinityTables) (records : List Aggregated) : AffinityTables :=
  { hostDic := collect id (HostSw.assign n) tables.hostDic (hostsOf records)
    swDic := collect (Aggregated.swPair n)
      (fun record => SwFlow.add (record.swPair n) record.flow) tables.swDic (crossing n records) }

theorem HostSw.keepsKey_assign (host : Int) : KeepsKey (id host) (HostSw.assign n host) := by
  intro present sameKey
  cases present with
  | none => rfl
  | some entry => exact sameKey entry rfl

theorem SwFlow.keepsKey_add (record : Aggregated) :
    KeepsKey (record.swPair n) (SwFlow.add (record.swPair n) record.flow) := fun _ _ => rfl

def Assigned (n : Int) (hosts : List HostSw) : Prop := ∀ entry ∈ hosts, entry.sw = swOf n entry.host

theorem Assigned.assign {hosts : List HostSw} (assigned : Assigned n hosts) (host : Int) :
    (HostSw.assign n host (lookup hosts host)).sw = swOf n host := by
  cases found : lookup hosts host with
  | none => rfl
  | some entry =>
    have here : entry.host = host := lookup_key found
    exact here ▸ assigned entry (lookup_mem found)

theorem Assigned.upsert {hosts : List HostSw} (assigned : Assigned n hosts) (host : Int) :
    Assigned n (Keyed.upsert hosts host (HostSw.assign n host)) := by
  intro entry member
  cases search : position hosts host with
  | none =>
    rw [Keyed.upsert, search, List.mem_append, List.mem_singleton] at member
    rcases member with old | rfl
    · exact assigned entry old
    · rfl
  | some i =>
    obtain ⟨inside, -, -⟩ := position_eq_some search
    rw [Keyed.upsert, search] at member
    simp only [List.getElem?_eq_getElem inside, HostSw.assign, Option.getD_some,
      List.set_getElem_self] at member
    exact assigned entry member

theorem Assigned.collect {hosts : List HostSw} (assigned : Assigned n hosts) (added : List Int) :
    Assigned n (Keyed.collect id (HostSw.assign n) hosts added) := by
  induction added generalizing hosts with
  | nil => exact assigned
  | cons host added ih => exact ih (assigned.upsert host)

theorem foldlM_readAggregated (switches : n ≠ 0) {lines : List Chars} {records : List Aggregated}
    (read : List.Forall₂ (fun line record => readAggregated line = some record) lines records)
    {tables : AffinityTables} (assigned : Assigned n tables.hostDic) :
    lines.foldlM (AffinityTables.read n) tables = .ok (tablesOf n tables records) := by
  induction read generalizing tables with
  | nil => rfl
  | @cons line record lines records first _ ih =>
    rw [List.foldlM_cons]
    by_cases self : record.src = record.dst
    · have taken : tables.read n line = .ok tables := by
        simp only [AffinityTables.read, first, if_pos self]
      have same : tablesOf n tables (record :: records) = tablesOf n tables records := by
        simp [tablesOf, hostsOf, crossing, self]
      rw [taken, same]
      exact ih assigned
    · have srcAssigned := assigned.upsert record.src
      have hosts : hostsOf (record :: records) = record.src :: record.dst :: hostsOf records := by
        simp [hostsOf, self]
      by_cases inside : swOf n record.src = swOf n record.dst
      · have taken : tables.read n line = .ok
            { tables with hostDic := upsert (upsert tables.hostDic record.src
              (HostSw.assign n record.src)) record.dst (HostSw.assign n record.dst) } := by
          simp only [AffinityTables.read, first, if_neg self, if_neg switches,
            assigned.assign, srcAssigned.assign, if_pos inside]
        rw [taken]
        refine (ih (srcAssigned.upsert record.dst)).trans ?_
        simp [tablesOf, hosts, crossing, inside, collect]
      · have taken : tables.read n line = .ok
            { hostDic := upsert (upsert tables.hostDic record.src
                (HostSw.assign n record.src)) record.dst (HostSw.assign n record.dst)
              swDic := upsert tables.swDic (record.swPair n)
                (SwFlow.add (record.swPair n) record.flow) } := by
          simp only [AffinityTables.read, first, if_neg self, if_neg switches,
            assigned.assign, srcAssigned.assign, if_neg inside]
          rfl
        rw [taken]
        refine (ih (srcAssigned.upsert record.dst)).trans ?_
        simp [tablesOf, hosts, crossing, inside, collect]

end Collect

def switchPair (n : Int) (record : TrafficRecord) : Int × Int :=
  sortedPair (record.src % n + 1) (record.dst % n + 1)

def pairCount (n : Int) (records : List TrafficRecord) (pair : Int × Int) : Nat :=
  records.countP fun record => switchPair n record = pair

def IsHostOf (records : List TrafficRecord) (host : Int) : Prop :=
  ∃ record ∈ records, record.src ≠ record.dst ∧ (host = record.src ∨ host = record.dst)

structure IsAffinity (n : Int) (records : List TrafficRecord) (files : AffinityFiles)
    (entries : List SwFlow) (hosts : List HostSw) : Prop where
  affinity : files.affinity = numberLine (switchCount hosts) :: numberLine entries.length ::
    entries.map swFlowLine
  map : files.map = hosts.map hostLine
  once : (keys entries).Nodup
  pairs : ∀ pair, pair ∈ keys entries ↔ pair.1 < pair.2 ∧ 0 < pairCount n records pair
  count : ∀ entry ∈ entries, entry.flow = pairCount n records entry.pair
  hostOnce : (keys hosts).Nodup
  listed : ∀ host, host ∈ keys hosts ↔ IsHostOf records host
  switch : ∀ entry ∈ hosts, entry.sw = entry.host % n + 1 ∧ 1 ≤ entry.sw ∧ entry.sw ≤ n

section Stages

variable {n : Int} {records : List TrafficRecord}

theorem sortedPair_comm (a b : Int) : sortedPair a b = sortedPair b a := by
  simp only [sortedPair]
  split <;> split
  · have equal : a = b := by omega
    rw [equal]
  · rfl
  · rfl
  · omega

theorem sortedPair_lt_iff (a b : Int) : (sortedPair a b).1 < (sortedPair a b).2 ↔ a ≠ b := by
  rw [sortedPair]
  split
  · exact ⟨fun less => by omega, fun differ => by simp only; omega⟩
  · exact ⟨fun less => by simp only at less; omega, fun differ => by simp only; omega⟩

def Traffic.aggregated (traffic : Traffic) : Aggregated :=
  ⟨traffic.pair.1, traffic.pair.2, traffic.flows⟩

theorem readAggregated_trafficLine (traffic : Traffic) :
    readAggregated (trafficLine traffic) = some (Traffic.aggregated traffic) := by
  have words : pySplit (trafficLine traffic) = [pyDecimal traffic.pair.1, pyDecimal traffic.pair.2,
      pyDecimal traffic.flows, pyDecimal traffic.octs] := by
    rw [trafficLine, pySplit_pyDecimal_append _ rfl, pySplit_pyDecimal_append _ rfl,
      pySplit_pyDecimal_append _ rfl, pySplit_pyDecimal_append _ rfl, pySplit_spaces rfl]
  simp [readAggregated, words, pyIntOf_pyDecimal, Traffic.aggregated]

theorem swOf_eq (positive : 1 ≤ n) (host : Int) : swOf n host = host % n + 1 := by
  rw [swOf, Int.fmod_eq_emod_of_nonneg _ (by omega)]

theorem swPair_of_pair (positive : 1 ≤ n) {record : TrafficRecord} {traffic : Traffic}
    (same : traffic.pair = record.pair) :
    (Traffic.aggregated traffic).swPair n = switchPair n record := by
  simp only [Aggregated.swPair, Traffic.aggregated, same, TrafficRecord.pair, switchPair,
    swOf_eq positive]
  split
  · rfl
  · exact sortedPair_comm _ _

theorem mem_trafficOf_pair {pair : Int × Int} :
    pair ∈ keys (trafficOf records) ↔ ∃ record ∈ records, record.pair = pair := by
  rw [trafficOf, mem_keys_collect keepsKey_traffic, List.mem_map]

variable {entries : List Traffic} (perm : entries.Perm (trafficOf records))

include perm

theorem sum_flows (positive : 1 ≤ n) (pair : Int × Int) :
    (entries.map fun traffic =>
      if (Traffic.aggregated traffic).swPair n = pair then (traffic.flows : Int) else 0).sum =
      pairCount n records pair := by
  have amounts : (records.map fun record =>
      if switchPair n record = pair then (1 : Int) else 0).sum = pairCount n records pair := by
    rw [pairCount]
    clear perm
    induction records with
    | nil => rfl
    | cons record records ih =>
      rw [List.map_cons, List.sum_cons, ih, List.countP_cons]
      by_cases here : switchPair n record = pair
      · simp [here, Int.add_comm]
      · simp [here]
  rw [(perm.map _).sum_eq, trafficOf, ← amounts]
  refine (sum_collect _ ?_ records []).trans (Int.zero_add _)
  intro record present sameKey
  have here : ∀ present : Option Traffic,
      (Traffic.aggregated (record.traffic present)).swPair n = switchPair n record :=
    fun present => swPair_of_pair positive (pair_traffic record present)
  rw [here]
  cases present with
  | none => by_cases of : switchPair n record = pair <;> simp [of, TrafficRecord.traffic]
  | some old =>
    have old_ : (Traffic.aggregated old).swPair n = switchPair n record :=
      swPair_of_pair positive (sameKey old rfl)
    by_cases of : switchPair n record = pair <;> simp [of, old_, TrafficRecord.traffic]

theorem exists_entry {record : TrafficRecord} (member : record ∈ records) :
    ∃ traffic ∈ entries, traffic.pair = record.pair := by
  have inside : record.pair ∈ keys (trafficOf records) :=
    mem_trafficOf_pair.mpr ⟨record, member, rfl⟩
  obtain ⟨traffic, found, same⟩ := List.mem_map.mp inside
  exact ⟨traffic, perm.mem_iff.mpr found, same⟩

theorem exists_record {traffic : Traffic} (member : traffic ∈ entries) :
    ∃ record ∈ records, traffic.pair = record.pair := by
  have inside : traffic.pair ∈ keys (trafficOf records) :=
    List.mem_map_of_mem (perm.mem_iff.mp member)
  obtain ⟨record, found, same⟩ := mem_trafficOf_pair.mp inside
  exact ⟨record, found, same.symm⟩

theorem mem_hostsOf_iff (host : Int) :
    host ∈ hostsOf (entries.map Traffic.aggregated) ↔ IsHostOf records host := by
  have ends : ∀ {traffic : Traffic} {record : TrafficRecord}, traffic.pair = record.pair →
      (traffic.pair.1 ≠ traffic.pair.2 ∧ (host = traffic.pair.1 ∨ host = traffic.pair.2) ↔
        record.src ≠ record.dst ∧ (host = record.src ∨ host = record.dst)) := by
    intro traffic record same
    rw [same, TrafficRecord.pair]
    split
    · rfl
    · simp only [ne_comm, or_comm]
  simp only [hostsOf, List.mem_flatMap, List.mem_filter, List.mem_map, decide_eq_true_eq,
    List.mem_cons, List.not_mem_nil, or_false, IsHostOf]
  constructor
  · rintro ⟨_, ⟨⟨traffic, member, rfl⟩, differ⟩, host_⟩
    obtain ⟨record, found, same⟩ := exists_record perm member
    exact ⟨record, found, (ends same).mp ⟨differ, host_⟩⟩
  · rintro ⟨record, member, host_⟩
    obtain ⟨traffic, found, same⟩ := exists_entry perm member
    obtain ⟨differ, host_⟩ := (ends same).mpr host_
    exact ⟨_, ⟨⟨traffic, found, rfl⟩, differ⟩, host_⟩

theorem mem_crossing_iff (positive : 1 ≤ n) (pair : Int × Int) :
    pair ∈ (crossing n (entries.map Traffic.aggregated)).map (Aggregated.swPair n) ↔
      pair.1 < pair.2 ∧ 0 < pairCount n records pair := by
  rw [List.mem_map, pairCount, List.countP_pos_iff]
  simp only [crossing, List.mem_filter, List.mem_map, decide_eq_true_eq]
  constructor
  · rintro ⟨_, ⟨⟨traffic, member, rfl⟩, differ⟩, rfl⟩
    obtain ⟨record, found, same⟩ := exists_record perm member
    exact ⟨(sortedPair_lt_iff _ _).mpr differ, record, found,
      (swPair_of_pair positive same).symm⟩
  · rintro ⟨less, record, member, rfl⟩
    obtain ⟨traffic, found, same⟩ := exists_entry perm member
    have here := swPair_of_pair positive same
    refine ⟨_, ⟨⟨traffic, found, rfl⟩, ?_⟩, here⟩
    rw [← here] at less
    exact (sortedPair_lt_iff _ _).mp less

omit perm in
theorem sum_crossing {pair : Int × Int} (differ : pair.1 < pair.2) (records : List Aggregated) :
    ((crossing n records).map fun record =>
      if record.swPair n = pair then record.flow else 0).sum =
      (records.map fun record => if record.swPair n = pair then record.flow else 0).sum := by
  induction records with
  | nil => rfl
  | cons record records ih =>
    rw [List.map_cons, List.sum_cons, ← ih]
    by_cases same : swOf n record.src = swOf n record.dst
    · have other : record.swPair n ≠ pair := by
        rintro rfl
        exact (sortedPair_lt_iff _ _).mp differ same
      simp [crossing, same, other]
    · simp [crossing, same]

theorem flow_of_mem (positive : 1 ≤ n) {entry : SwFlow}
    (member : entry ∈ (tablesOf n ⟨[], []⟩ (entries.map Traffic.aggregated)).swDic) :
    entry.flow = pairCount n records entry.pair := by
  have nodup : (keys (tablesOf n ⟨[], []⟩ (entries.map Traffic.aggregated)).swDic).Nodup :=
    keys_collect_nodup SwFlow.keepsKey_add _ List.nodup_nil
  have inside : entry.pair ∈ keys (tablesOf n ⟨[], []⟩ (entries.map Traffic.aggregated)).swDic :=
    List.mem_map_of_mem member
  rw [tablesOf, mem_keys_collect SwFlow.keepsKey_add, mem_crossing_iff perm positive] at inside
  have found : lookup (tablesOf n ⟨[], []⟩ (entries.map Traffic.aggregated)).swDic entry.pair =
      some entry := (lookup_eq_some_iff nodup).mpr ⟨member, rfl⟩
  have collected : ((tablesOf n ⟨[], []⟩ (entries.map Traffic.aggregated)).swDic.map fun item =>
      if key item = entry.pair then item.flow else 0).sum =
      ((crossing n (entries.map Traffic.aggregated)).map fun record =>
        if record.swPair n = entry.pair then record.flow else 0).sum := by
    refine (sum_collect _ ?_ _ []).trans (Int.zero_add _)
    intro record present sameKey
    have here : ∀ present, key (SwFlow.add (record.swPair n) record.flow present) =
        record.swPair n := fun _ => rfl
    rw [here]
    cases present with
    | none => by_cases of : record.swPair n = entry.pair <;> simp [of, SwFlow.add]
    | some old =>
      have old_ : key old = record.swPair n := sameKey old rfl
      by_cases of : record.swPair n = entry.pair <;> simp [of, old_, SwFlow.add]
  calc
    entry.flow = ((lookup (tablesOf n ⟨[], []⟩ (entries.map Traffic.aggregated)).swDic
        entry.pair).map SwFlow.flow).getD 0 := by rw [found]; rfl
    _ = ((entries.map Traffic.aggregated).map fun record =>
        if record.swPair n = entry.pair then record.flow else 0).sum := by
      rw [← sum_of_key SwFlow.flow nodup, collected, sum_crossing inside.1]
    _ = pairCount n records entry.pair := by
      rw [← sum_flows perm positive, List.map_map]
      rfl

end Stages

section Independence

variable {n : Int} {records others : List TrafficRecord} {files otherFiles : AffinityFiles}
  {entries otherEntries : List SwFlow} {hosts otherHosts : List HostSw}

theorem IsAffinity.mem_entries_iff (isAffinity : IsAffinity n records files entries hosts)
    (entry : SwFlow) :
    entry ∈ entries ↔ (entry.pair.1 < entry.pair.2 ∧ 0 < pairCount n records entry.pair) ∧
      entry.flow = pairCount n records entry.pair := by
  rw [← isAffinity.pairs]
  constructor
  · exact fun member => ⟨List.mem_map_of_mem member, isAffinity.count entry member⟩
  · rintro ⟨inside, flow⟩
    obtain ⟨other, member, same⟩ := List.mem_map.mp inside
    have samePair : other.pair = entry.pair := same
    have equal : other = entry :=
      SwFlow.ext samePair (by rw [isAffinity.count other member, samePair, flow])
    exact equal ▸ member

theorem IsAffinity.mem_hosts_iff (isAffinity : IsAffinity n records files entries hosts)
    (entry : HostSw) :
    entry ∈ hosts ↔ IsHostOf records entry.host ∧ entry.sw = entry.host % n + 1 := by
  rw [← isAffinity.listed]
  constructor
  · exact fun member => ⟨List.mem_map_of_mem member, (isAffinity.switch entry member).1⟩
  · rintro ⟨inside, switch⟩
    obtain ⟨other, member, same⟩ := List.mem_map.mp inside
    have sameHost : other.host = entry.host := same
    have equal : other = entry :=
      HostSw.ext sameHost (by rw [(isAffinity.switch other member).1, sameHost, switch])
    exact equal ▸ member

theorem IsAffinity.perm (isAffinity : IsAffinity n records files entries hosts)
    (other : IsAffinity n others otherFiles otherEntries otherHosts)
    (sameCount : ∀ pair, pairCount n others pair = pairCount n records pair)
    (sameHosts : ∀ host, IsHostOf others host ↔ IsHostOf records host) :
    otherFiles.affinity.Perm files.affinity ∧ otherFiles.map.Perm files.map := by
  have entriesPerm : otherEntries.Perm entries := by
    rw [List.perm_ext_iff_of_nodup other.once.of_map isAffinity.once.of_map]
    intro entry
    rw [other.mem_entries_iff, isAffinity.mem_entries_iff, sameCount]
  have hostsPerm : otherHosts.Perm hosts := by
    rw [List.perm_ext_iff_of_nodup other.hostOnce.of_map isAffinity.hostOnce.of_map]
    intro entry
    rw [other.mem_hosts_iff, isAffinity.mem_hosts_iff, sameHosts]
  rw [other.affinity, isAffinity.affinity, other.map, isAffinity.map,
    switchCount_perm hostsPerm, entriesPerm.length_eq]
  exact ⟨((entriesPerm.map _).cons _).cons _, hostsPerm.map _⟩

def SameHostPair (record other : TrafficRecord) : Prop :=
  other.src = record.src ∧ other.dst = record.dst ∨ other.src = record.dst ∧ other.dst = record.src

def Rearranged (records others : List TrafficRecord) : Prop :=
  ∃ ordered, List.Perm ordered records ∧ List.Forall₂ SameHostPair ordered others

theorem Rearranged.pairCount_eq (rearranged : Rearranged records others) (pair : Int × Int) :
    pairCount n others pair = pairCount n records pair := by
  obtain ⟨ordered, perm, turned⟩ := rearranged
  have counted : pairCount n others pair = pairCount n ordered pair := by
    induction turned generalizing records with
    | nil => rfl
    | @cons record other _ _ same _ ih =>
      have switches : switchPair n other = switchPair n record := by
        rcases same with ⟨src, dst⟩ | ⟨src, dst⟩
        · rw [switchPair, src, dst, switchPair]
        · rw [switchPair, src, dst, sortedPair_comm, switchPair]
      have rest := ih (.refl _)
      rw [pairCount, pairCount] at rest ⊢
      rw [List.countP_cons, List.countP_cons, switches, rest]
  rw [counted, pairCount, pairCount, perm.countP_eq]

theorem Rearranged.isHostOf_iff (rearranged : Rearranged records others) (host : Int) :
    IsHostOf others host ↔ IsHostOf records host := by
  obtain ⟨ordered, perm, turned⟩ := rearranged
  have same : IsHostOf others host ↔ IsHostOf ordered host := by
    simp only [IsHostOf]
    clear perm
    induction turned with
    | nil => rfl
    | @cons record other _ _ same _ ih =>
      simp only [List.exists_mem_cons_iff, ih]
      have ends : other.src ≠ other.dst ∧ (host = other.src ∨ host = other.dst) ↔
          record.src ≠ record.dst ∧ (host = record.src ∨ host = record.dst) := by
        rcases same with ⟨src, dst⟩ | ⟨src, dst⟩
        · rw [src, dst]
        · rw [src, dst, ne_comm, or_comm]
      rw [ends]
  rw [same]
  simp only [IsHostOf, perm.mem_iff]

end Independence

theorem numSw_pos {numHost : Int} (positive : 1 ≤ numHost) : 1 ≤ numSw numHost := by
  have hosts : (0 : ℚ) < numHost := by exact_mod_cast positive
  rw [numSw, numSwPort, Int.one_le_ceil_iff]
  positivity

theorem genSWAffinity_eq {numHost : Int} (positive : 1 ≤ numHost) {lines : List Chars}
    {records : List Aggregated}
    (read : List.Forall₂ (fun line record => readAggregated line = some record) lines records)
    (hostOrder : DictOrder HostSw) (swOrder : DictOrder SwFlow) :
    genSWAffinity hostOrder swOrder lines numHost =
      ({ affinity := numberLine (switchCount (tablesOf (numSw numHost) ⟨[], []⟩ records).hostDic) ::
          numberLine (tablesOf (numSw numHost) ⟨[], []⟩ records).swDic.length ::
          (swOrder.visit (tablesOf (numSw numHost) ⟨[], []⟩ records).swDic).map swFlowLine
         map := (hostOrder.visit (tablesOf (numSw numHost) ⟨[], []⟩ records).hostDic).map
          hostLine }, none) := by
  have switches := numSw_pos positive
  have tables := @foldlM_readAggregated (numSw numHost) (by omega) _ _ read ⟨[], []⟩
    fun entry member => by cases member
  rw [genSWAffinity, tables]

theorem exists_isAffinity {numHost : Int} (positive : 1 ≤ numHost) {lines : List Chars}
    (formed : WellFormed lines) (order : DictOrder Traffic) (hostOrder : DictOrder HostSw)
    (swOrder : DictOrder SwFlow) :
    (genSWAffinity hostOrder swOrder (aggregateRecord order lines) numHost).2 = none ∧
      ∃ entries hosts, IsAffinity (numSw numHost) (recordsOf lines)
        (genSWAffinity hostOrder swOrder (aggregateRecord order lines) numHost).1
        entries hosts := by
  have switches := numSw_pos positive
  have perm := order.perm (trafficOf (recordsOf lines))
  have stage : aggregateRecord order lines =
      (order.visit (trafficOf (recordsOf lines))).map trafficLine := by
    rw [aggregateRecord, foldlM_readTraffic formed]
    rfl
  generalize order.visit (trafficOf (recordsOf lines)) = entries at perm stage
  have read : List.Forall₂ (fun line record => readAggregated line = some record)
      (entries.map trafficLine) (entries.map Traffic.aggregated) := by
    rw [List.forall₂_map_left_iff, List.forall₂_map_right_iff, List.forall₂_same]
    exact fun traffic _ => readAggregated_trafficLine traffic
  rw [stage, genSWAffinity_eq positive read]
  refine ⟨rfl, swOrder.visit (tablesOf (numSw numHost) ⟨[], []⟩
    (entries.map Traffic.aggregated)).swDic, hostOrder.visit (tablesOf (numSw numHost) ⟨[], []⟩
    (entries.map Traffic.aggregated)).hostDic, ?_⟩
  have swPerm := swOrder.perm (tablesOf (numSw numHost) ⟨[], []⟩
    (entries.map Traffic.aggregated)).swDic
  have hostPerm := hostOrder.perm (tablesOf (numSw numHost) ⟨[], []⟩
    (entries.map Traffic.aggregated)).hostDic
  constructor
  · rw [switchCount_perm hostPerm, swPerm.length_eq]
  · rfl
  · exact (swPerm.map key).nodup_iff.mpr
      (keys_collect_nodup SwFlow.keepsKey_add _ List.nodup_nil)
  · intro pair
    rw [keys, (swPerm.map key).mem_iff]
    exact (mem_keys_collect SwFlow.keepsKey_add _ pair).trans (mem_crossing_iff perm switches pair)
  · exact fun entry member => flow_of_mem perm switches (swPerm.mem_iff.mp member)
  · exact (hostPerm.map key).nodup_iff.mpr
      (keys_collect_nodup HostSw.keepsKey_assign _ List.nodup_nil)
  · intro host
    rw [keys, (hostPerm.map key).mem_iff]
    refine (mem_keys_collect HostSw.keepsKey_assign _ host).trans ?_
    rw [List.map_id]
    exact mem_hostsOf_iff perm host
  · intro entry member
    have assigned : Assigned (numSw numHost)
        (tablesOf (numSw numHost) ⟨[], []⟩ (entries.map Traffic.aggregated)).hostDic :=
      Assigned.collect (fun entry member => by cases member) _
    have switch := assigned entry (hostPerm.mem_iff.mp member)
    rw [swOf_eq switches] at switch
    have low := Int.emod_nonneg entry.host (show numSw numHost ≠ 0 by omega)
    have high := Int.emod_lt_of_pos entry.host (show 0 < numSw numHost by omega)
    exact ⟨switch, by omega, by omega⟩

/-- The two stages count the original records for each pair of switches, whatever the order of the
records and their direction. -/
theorem affinity_counts_records {numHost : Int} (positive : 1 ≤ numHost) {lines : List Chars}
    (formed : WellFormed lines) (order : DictOrder Traffic) (hostOrder : DictOrder HostSw)
    (swOrder : DictOrder SwFlow) :
    ((genSWAffinity hostOrder swOrder (aggregateRecord order lines) numHost).2 = none ∧
      ∃ entries hosts, IsAffinity (numSw numHost) (recordsOf lines)
        (genSWAffinity hostOrder swOrder (aggregateRecord order lines) numHost).1
        entries hosts) ∧
      ∀ others : List Chars, WellFormed others → Rearranged (recordsOf lines) (recordsOf others) →
        ∀ (order' : DictOrder Traffic) (hostOrder' : DictOrder HostSw)
          (swOrder' : DictOrder SwFlow),
          (genSWAffinity hostOrder' swOrder' (aggregateRecord order' others)
              numHost).1.affinity.Perm
            (genSWAffinity hostOrder swOrder (aggregateRecord order lines) numHost).1.affinity ∧
          (genSWAffinity hostOrder' swOrder' (aggregateRecord order' others) numHost).1.map.Perm
            (genSWAffinity hostOrder swOrder (aggregateRecord order lines) numHost).1.map := by
  have first := exists_isAffinity positive formed order hostOrder swOrder
  refine ⟨first, ?_⟩
  intro others otherFormed rearranged order' hostOrder' swOrder'
  obtain ⟨-, entries, hosts, isAffinity⟩ := first
  obtain ⟨-, otherEntries, otherHosts, other⟩ :=
    exists_isAffinity positive otherFormed order' hostOrder' swOrder'
  exact isAffinity.perm other rearranged.pairCount_eq rearranged.isHostOf_iff

/-- Three records of two pairs of hosts and one of a host with itself. -/
theorem affinity_counts_four :
    (genSWAffinity (.inserted _) (.inserted _) (aggregateRecord (.inserted _)
      ["1 2 10\n".toList, "2 1 5\n".toList, "3 2 1\n".toList, "4 4 9\n".toList]) 48).2 = none :=
  (affinity_counts_records (by decide) (by decide) _ _ _).1.1

end Sim
end LazyCtrl
