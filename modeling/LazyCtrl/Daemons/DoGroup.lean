import Mathlib.Algebra.Order.Field.Rat
import Mathlib.Algebra.BigOperators.Group.List.Basic
import Mathlib.Data.Finset.Insert
import Mathlib.Data.Finset.Card
import Mathlib.Data.Rat.Floor
import Mathlib.Tactic.FieldSimp
import Mathlib.Tactic.Linarith
import LazyCtrl.Lib.Text
import LazyCtrl.Lib.Keyed

/-!
# The traffic graph and the number of groups

`doGroup` of `groupManager.py` reads one record of traffic in each line of the statistics, writes
the graph that is handed to the partitioner, and adapts the number of groups to the number of
complaints.  `aggregateRecord` of the simulator's `preprocess.py` reads the same kind of records.
Both collect them in a dictionary under the sorted pair of switches; the simulator adds up what
belongs to one pair, the daemon keeps the last record.

A dictionary is the list of its entries in the order of their insertion.  The order in which a loop
visits them is a parameter.
-/

namespace LazyCtrl

open Text Keyed

inductive PyError where
  | value
  | zeroDivision
  deriving DecidableEq, Repr

def pySplit (line : Chars) : List Chars := (line.splitOnP isSpace).filter (· ≠ [])

def pyIntOf (word : Chars) : Option Int :=
  match readInteger 10 word with
  | some (value, []) => some value
  | _ => none

section Words

variable {word rest : Chars} {c : Char}

theorem pySplit_space (space : isSpace c) (rest : Chars) : pySplit (c :: rest) = pySplit rest := by
  have split := @List.splitOnP_append_cons_of_forall_mem _ isSpace [] (by simp) c space rest
  rw [List.nil_append] at split
  simp [pySplit, split]

theorem pySplit_spaces (spaces : rest.all isSpace) : pySplit rest = [] := by
  induction rest with
  | nil => simp [pySplit]
  | cons c rest ih =>
    rw [List.all_cons, Bool.and_eq_true] at spaces
    rw [pySplit_space spaces.1, ih spaces.2]

theorem pySplit_word (nonempty : word ≠ []) (plain : ∀ c ∈ word, isSpace c = false) :
    pySplit word = [word] := by
  rw [pySplit, List.splitOnP_eq_singleton plain]
  simp [nonempty]

theorem pySplit_word_append (nonempty : word ≠ []) (plain : ∀ c ∈ word, isSpace c = false)
    (space : isSpace c) (rest : Chars) : pySplit (word ++ c :: rest) = word :: pySplit rest := by
  rw [pySplit, List.splitOnP_append_cons_of_forall_mem plain c space]
  simp [pySplit, nonempty]

end Words

def pyDecimal (n : Int) : Chars :=
  if n < 0 then '-' :: Nat.toDigits 10 n.natAbs else Nat.toDigits 10 n.natAbs

theorem pyDecimal_natCast (n : Nat) : pyDecimal n = Nat.toDigits 10 n := by
  rw [pyDecimal, if_neg (by omega), Int.natAbs_natCast]

theorem pyIntOf_toDigits (n : Nat) : pyIntOf (Nat.toDigits 10 n) = some (n : Int) := by
  have read := readInteger_toDigits (by decide : 1 < 10) (by decide) n (show NoDigit 10 [] from rfl)
  rw [List.append_nil] at read
  rw [pyIntOf, read]

theorem pySplit_toDigits_append (n : Nat) {c : Char} (space : isSpace c) (rest : Chars) :
    pySplit (Nat.toDigits 10 n ++ c :: rest) = Nat.toDigits 10 n :: pySplit rest :=
  pySplit_word_append Nat.toDigits_ne_nil
    (isSpace_of_mem_toDigits (by decide) (by decide) n) space rest

theorem pyIntOf_pyDecimal (n : Int) : pyIntOf (pyDecimal n) = some n := by
  rcases Int.lt_or_le n 0 with negative | nonneg
  · have magnitude := readDigits_toDigits (by decide : 1 < 10) (by decide) n.natAbs
      (show NoDigit 10 [] from rfl)
    rw [List.append_nil] at magnitude
    have read : readInteger 10 ('-' :: Nat.toDigits 10 n.natAbs) = some (-(n.natAbs : Int), []) := by
      have minus : readInteger 10 ('-' :: Nat.toDigits 10 n.natAbs) =
          (readMagnitude 10 (Nat.toDigits 10 n.natAbs)).map fun read => (-(read.1 : Int), read.2) :=
        rfl
      rw [minus, readMagnitude_of_ne_zero (by decide), magnitude, Option.map_some]
    rw [pyDecimal, if_pos negative, pyIntOf, read]
    exact congrArg some (by omega)
  · obtain ⟨m, rfl⟩ := Int.eq_ofNat_of_zero_le nonneg
    rw [pyDecimal_natCast]
    exact pyIntOf_toDigits m

theorem pyDecimal_plain (n : Int) : pyDecimal n ≠ [] ∧ ∀ c ∈ pyDecimal n, isSpace c = false := by
  have digits := isSpace_of_mem_toDigits (by decide : 1 < 10) (by decide) n.natAbs
  rw [pyDecimal]
  split
  · exact ⟨List.cons_ne_nil _ _, List.forall_mem_cons.mpr ⟨rfl, digits⟩⟩
  · exact ⟨Nat.toDigits_ne_nil, digits⟩

theorem pySplit_pyDecimal_append (n : Int) {c : Char} (space : isSpace c) (rest : Chars) :
    pySplit (pyDecimal n ++ c :: rest) = pyDecimal n :: pySplit rest :=
  pySplit_word_append (pyDecimal_plain n).1 (pyDecimal_plain n).2 space rest

def pyReprInt (n : Int) : Chars := pyDecimal n ++ if -2 ^ 63 ≤ n ∧ n < 2 ^ 63 then [] else ['L']

def truncate (q : ℚ) : Int := q.num.tdiv q.den

structure DictOrder (α : Type*) where
  visit : List α → List α
  perm : ∀ entries, (visit entries).Perm entries

def DictOrder.inserted (α : Type*) : DictOrder α := ⟨id, fun _ => .refl _⟩

structure TrafficRecord where
  src : Int
  dst : Int
  weight : Int
  deriving DecidableEq, Repr

def TrafficRecord.pair (record : TrafficRecord) : Int × Int :=
  if record.src ≤ record.dst then (record.src, record.dst) else (record.dst, record.src)

def readRecord (line : Chars) : Option TrafficRecord :=
  match pySplit line with
  | [src, dst, weight] => do
      let src ← pyIntOf src
      let dst ← pyIntOf dst
      let weight ← pyIntOf weight
      some { src, dst, weight }
  | _ => none

def recordsOf (lines : List Chars) : List TrafficRecord := lines.filterMap readRecord

def switchesOf (records : List TrafficRecord) : Finset Int :=
  (records.flatMap fun record => [record.src, record.dst]).toFinset

structure Edge where
  pair : Int × Int
  weight : Int
  deriving DecidableEq, Repr

instance : Keyed Edge (Int × Int) := ⟨Edge.pair⟩

def TrafficRecord.edge (record : TrafficRecord) (_ : Option Edge) : Edge :=
  ⟨record.pair, record.weight⟩

structure Statistics where
  numFlow : Nat
  swSet : Finset Int
  flowDic : List Edge

def Statistics.start : Statistics := ⟨0, ∅, []⟩

def Statistics.read (stats : Statistics) (line : Chars) : Option Statistics := do
  let record ← readRecord line
  some {
    numFlow := stats.numFlow + 1
    swSet := insert record.dst (insert record.src stats.swSet)
    flowDic := upsert stats.flowDic record.pair record.edge }

def headLine (numSw numFlow : Nat) : Chars :=
  pyDecimal numSw ++ ' ' :: (pyDecimal numFlow ++ " 001\n".toList)

def edgeLine (edge : Edge) : Chars :=
  pyDecimal edge.pair.1 ++ ' ' :: (pyDecimal edge.pair.2 ++ ' ' :: (pyDecimal edge.weight ++ ['\n']))

def Statistics.graph (order : DictOrder Edge) (stats : Statistics) : List Chars :=
  headLine stats.swSet.card stats.numFlow :: (order.visit stats.flowDic).map edgeLine

def countCpu : List Chars → Option Nat
  | [] => some 0
  | line :: lines => do
      let [_, _] := pySplit line | none
      (countCpu lines).map (· + 1)

def newNumGroup (numGroup : Int) (numCpu numSw : Nat) : Int :=
  truncate (numGroup / (1 + numCpu / numSw))

def regroupCommands (fnToGroup : Chars) (newNumGroup : Int) : List Chars :=
  ["./gpmetis -ncuts=4 -ufactor=1.1 -niter=20 ".toList ++ (fnToGroup ++
      ' ' :: (pyDecimal newNumGroup ++ " >> group_result.summary".toList)),
    "cp ".toList ++ (fnToGroup ++ (".part.".toList ++ (pyReprInt newNumGroup ++
      " /tmp/group_result.dat".toList)))]

structure GroupRun where
  toGroup : Option (List Chars)
  commands : List Chars
  outcome : Except PyError (Option Int)

def doGroup (order : DictOrder Edge) (fnStat fnToGroup : Chars) (cpu stat : List Chars)
    (numGroup : Int) : GroupRun :=
  if fnStat = [] ∨ fnToGroup = [] then ⟨none, [], .ok none⟩
  else
    match stat.foldlM Statistics.read .start with
    | none => ⟨some [], [], .error .value⟩
    | some stats =>
      let graph := some (stats.graph order)
      -- The message that is printed has the least and the greatest switch in it.
      if stats.swSet = ∅ then ⟨graph, [], .error .value⟩
      else
        match countCpu cpu with
        | none => ⟨graph, [], .error .value⟩
        | some numCpu =>
          if stats.swSet.card = 0 then ⟨graph, [], .error .zeroDivision⟩
          else
            let newNum := newNumGroup numGroup numCpu stats.swSet.card
            ⟨graph, if newNum ≠ numGroup then regroupCommands fnToGroup newNum else [],
              .ok (some newNum)⟩

structure Traffic where
  pair : Int × Int
  flows : Nat
  octs : Int
  deriving DecidableEq, Repr

instance : Keyed Traffic (Int × Int) := ⟨Traffic.pair⟩

def TrafficRecord.traffic (record : TrafficRecord) : Option Traffic → Traffic
  | none => ⟨record.pair, 1, record.weight⟩
  | some present => ⟨record.pair, present.flows + 1, present.octs + record.weight⟩

def trafficLine (traffic : Traffic) : Chars :=
  pyDecimal traffic.pair.1 ++ ' ' :: (pyDecimal traffic.pair.2 ++ ' ' ::
    (pyDecimal traffic.flows ++ ' ' :: (pyDecimal traffic.octs ++ ['\n'])))

def readTraffic (trafficDic : List Traffic) (line : Chars) : Option (List Traffic) := do
  let record ← readRecord line
  some (upsert trafficDic record.pair record.traffic)

/-- The lines that `aggregateRecord` writes; an exception leaves the file empty. -/
def aggregateRecord (order : DictOrder Traffic) (lines : List Chars) : List Chars :=
  match lines.foldlM readTraffic [] with
  | none => []
  | some trafficDic => (order.visit trafficDic).map trafficLine

def WellFormed (lines : List Chars) : Prop := ∀ line ∈ lines, (readRecord line).isSome

instance (lines : List Chars) : Decidable (WellFormed lines) := List.decidableBAll _ _

theorem WellFormed.exists_cons {line : Chars} {lines : List Chars}
    (formed : WellFormed (line :: lines)) :
    ∃ record, readRecord line = some record ∧ WellFormed lines ∧
      recordsOf (line :: lines) = record :: recordsOf lines := by
  obtain ⟨record, read⟩ := Option.isSome_iff_exists.mp (formed line (by simp))
  refine ⟨record, read, fun other member => formed other (by simp [member]), ?_⟩
  rw [recordsOf, List.filterMap_cons_some read]
  rfl

theorem WellFormed.perm {lines others : List Chars} (formed : WellFormed lines)
    (perm : others.Perm lines) : WellFormed others :=
  fun line member => formed line (perm.mem_iff.mp member)

theorem recordsOf_perm {lines others : List Chars} (perm : others.Perm lines) :
    (recordsOf others).Perm (recordsOf lines) :=
  perm.filterMap readRecord

theorem WellFormed.length_recordsOf {lines : List Chars} (formed : WellFormed lines) :
    (recordsOf lines).length = lines.length := by
  induction lines with
  | nil => rfl
  | cons line lines ih =>
    obtain ⟨record, -, rest, records⟩ := formed.exists_cons
    rw [records, List.length_cons, List.length_cons, ih rest]

theorem mem_switchesOf {records : List TrafficRecord} {sw : Int} :
    sw ∈ switchesOf records ↔ ∃ record ∈ records, sw = record.src ∨ sw = record.dst := by
  simp [switchesOf]

theorem switchesOf_cons (record : TrafficRecord) (records : List TrafficRecord) :
    switchesOf (record :: records) = insert record.dst (insert record.src (switchesOf records)) := by
  simp [switchesOf, Finset.insert_comm record.src]

theorem switchesOf_perm {records others : List TrafficRecord} (perm : others.Perm records) :
    switchesOf others = switchesOf records := by
  ext sw
  simp only [mem_switchesOf, perm.mem_iff]

def edgesOf (records : List TrafficRecord) : List Edge :=
  collect TrafficRecord.pair TrafficRecord.edge [] records

theorem foldlM_read {lines : List Chars} (formed : WellFormed lines) (stats : Statistics) :
    lines.foldlM Statistics.read stats = some {
      numFlow := stats.numFlow + lines.length
      swSet := stats.swSet ∪ switchesOf (recordsOf lines)
      flowDic := collect TrafficRecord.pair TrafficRecord.edge stats.flowDic (recordsOf lines) } := by
  induction lines generalizing stats with
  | nil => simp [recordsOf, switchesOf, collect]
  | cons line lines ih =>
    obtain ⟨record, read, rest, records⟩ := formed.exists_cons
    have first : stats.read line = some {
        numFlow := stats.numFlow + 1
        swSet := insert record.dst (insert record.src stats.swSet)
        flowDic := upsert stats.flowDic record.pair record.edge } := by
      rw [Statistics.read, read]
      rfl
    rw [List.foldlM_cons, first]
    refine (ih rest _).trans ?_
    rw [records]
    congr 2
    · simp only [List.length_cons]
      omega
    · rw [switchesOf_cons, Finset.insert_union, Finset.insert_union, Finset.union_insert,
        Finset.union_insert]

theorem foldlM_read_start {lines : List Chars} (formed : WellFormed lines) :
    lines.foldlM Statistics.read .start =
      some ⟨lines.length, switchesOf (recordsOf lines), edgesOf (recordsOf lines)⟩ := by
  rw [foldlM_read formed]
  simp [Statistics.start, edgesOf]

theorem toGroup_doGroup {lines : List Chars} (formed : WellFormed lines) {fnStat fnToGroup : Chars}
    (named : fnStat ≠ [] ∧ fnToGroup ≠ []) (order : DictOrder Edge) (cpu : List Chars)
    (numGroup : Int) :
    (doGroup order fnStat fnToGroup cpu lines numGroup).toGroup =
      some (headLine (switchesOf (recordsOf lines)).card lines.length ::
        (order.visit (edgesOf (recordsOf lines))).map edgeLine) := by
  simp only [doGroup, named, or_self, if_false, foldlM_read_start formed]
  split
  · rfl
  · split
    · rfl
    · split <;> rfl

theorem pyDecimal_natCast_inj {n m : Nat} (same : pyDecimal n = pyDecimal m) : n = m := by
  rw [pyDecimal_natCast, pyDecimal_natCast] at same
  have values := congrArg (digitsValue 10) same
  rwa [digitsValue_toDigits (by decide) (by decide), digitsValue_toDigits (by decide) (by decide)]
    at values

theorem headLine_inj {numSw numFlow other : Nat}
    (same : headLine numSw numFlow = headLine numSw other) : numFlow = other := by
  have numbers := (List.cons.inj (List.append_cancel_left same)).2
  exact pyDecimal_natCast_inj (List.append_cancel_right numbers)

/-- A file is the graph of some records: the head line has the number of edge lines, there is one
line for each pair of switches, and it has the sum of the weights of the pair. -/
def IsGraphOf (records : List TrafficRecord) (file : List Chars) : Prop :=
  ∃ edges : List Edge,
    file = headLine (switchesOf records).card edges.length :: edges.map edgeLine ∧
    (keys edges).Nodup ∧ (∀ pair, pair ∈ keys edges ↔ pair ∈ records.map TrafficRecord.pair) ∧
    ∀ edge ∈ edges, edge.weight =
      ((records.filter fun record => record.pair = edge.pair).map TrafficRecord.weight).sum

/-- Two files with the same head line and the same other lines, in any order. -/
def SameGraph (file other : List Chars) : Prop :=
  file.head? = other.head? ∧ file.tail.Perm other.tail

theorem keepsKey_edge (record : TrafficRecord) : KeepsKey record.pair record.edge :=
  fun _ _ => rfl

theorem keys_edgesOf_nodup (records : List TrafficRecord) : (keys (edgesOf records)).Nodup :=
  keys_collect_nodup keepsKey_edge records List.nodup_nil

theorem length_edgesOf (records : List TrafficRecord) :
    (edgesOf records).length = (records.map TrafficRecord.pair).dedup.length := by
  rw [← (keys_collect_perm keepsKey_edge records).length_eq, keys, List.length_map]
  rfl

theorem filter_pair_eq {records : List TrafficRecord}
    (nodup : (records.map TrafficRecord.pair).Nodup) {record : TrafficRecord}
    (member : record ∈ records) :
    (records.filter fun other => other.pair = record.pair) = [record] := by
  induction records with
  | nil => cases member
  | cons first records ih =>
    rw [List.map_cons, List.nodup_cons] at nodup
    obtain ⟨fresh, nodup⟩ := nodup
    obtain rfl | later := List.mem_cons.mp member
    · have others : (records.filter fun other => other.pair = record.pair) = [] := by
        refine List.filter_eq_nil_iff.mpr fun other inside same => fresh ?_
        exact of_decide_eq_true same ▸ List.mem_map_of_mem inside
      simp [others]
    · have differ : first.pair ≠ record.pair :=
        fun same => fresh (same ▸ List.mem_map_of_mem later)
      rw [List.filter_cons_of_neg (by simpa using differ), ih nodup later]

theorem lookup_edgesOf {records : List TrafficRecord}
    (nodup : (records.map TrafficRecord.pair).Nodup) {record : TrafficRecord}
    (member : record ∈ records) :
    lookup (edgesOf records) record.pair = some (record.edge none) := by
  rw [edgesOf, lookup_collect keepsKey_edge, filter_pair_eq nodup member]
  rfl

theorem isGraphOf_edgesOf {records : List TrafficRecord}
    (nodup : (records.map TrafficRecord.pair).Nodup) (order : DictOrder Edge) :
    IsGraphOf records (headLine (switchesOf records).card records.length ::
      (order.visit (edgesOf records)).map edgeLine) := by
  have visited := order.perm (edgesOf records)
  refine ⟨order.visit (edgesOf records), ?_, (visited.map key).nodup_iff.mpr
    (keys_edgesOf_nodup records), fun pair => ?_, fun edge member => ?_⟩
  · rw [visited.length_eq, length_edgesOf, nodup.dedup, List.length_map]
  · rw [keys, (visited.map key).mem_iff]
    exact mem_keys_collect keepsKey_edge records pair
  · have stored : edge ∈ edgesOf records := visited.mem_iff.mp member
    obtain ⟨record, inside, same⟩ := List.mem_map.mp
      ((mem_keys_collect keepsKey_edge records edge.pair).mp (List.mem_map_of_mem stored))
    have found : lookup (edgesOf records) record.pair = some edge :=
      (lookup_eq_some_iff (keys_edgesOf_nodup records)).mpr ⟨stored, same.symm⟩
    have weight : edge.weight = record.weight := by
      rw [lookup_edgesOf nodup inside] at found
      rw [← Option.some.inj found]
      rfl
    rw [← same, filter_pair_eq nodup inside, weight]
    simp

theorem edgesOf_perm {records others : List TrafficRecord} (perm : others.Perm records)
    (nodup : (records.map TrafficRecord.pair).Nodup) :
    (edgesOf others).Perm (edgesOf records) := by
  have othersNodup := (perm.map TrafficRecord.pair).nodup_iff.mpr nodup
  refine perm_of_lookup_eq (keys_edgesOf_nodup others) (keys_edgesOf_nodup records) fun pair => ?_
  by_cases present : pair ∈ records.map TrafficRecord.pair
  · obtain ⟨record, inside, rfl⟩ := List.mem_map.mp present
    rw [lookup_edgesOf nodup inside, lookup_edgesOf othersNodup (perm.mem_iff.mpr inside)]
  · have absent := (mem_keys_collect keepsKey_edge records pair).not.mpr present
    have othersAbsent := (mem_keys_collect keepsKey_edge others pair).not.mpr
      ((perm.map TrafficRecord.pair).mem_iff.not.mpr present)
    rw [← lookup_isSome_iff, Option.not_isSome_iff_eq_none] at absent othersAbsent
    exact othersAbsent.trans absent.symm

/-- The graph is that of the records, for every order of the lines, exactly if no pair of switches
has two records. -/
theorem doGroup_isGraphOf_iff {lines : List Chars} (formed : WellFormed lines)
    {fnStat fnToGroup : Chars} (named : fnStat ≠ [] ∧ fnToGroup ≠ []) (order : DictOrder Edge)
    (cpu : List Chars) (numGroup : Int) :
    (∃ file, (doGroup order fnStat fnToGroup cpu lines numGroup).toGroup = some file ∧
        IsGraphOf (recordsOf lines) file ∧
        ∀ others, others.Perm lines →
          ∃ other, (doGroup order fnStat fnToGroup cpu others numGroup).toGroup = some other ∧
            SameGraph other file) ↔
      ((recordsOf lines).map TrafficRecord.pair).Nodup := by
  have written := toGroup_doGroup formed named order cpu numGroup
  constructor
  · rintro ⟨file, same, ⟨edges, graph, -⟩, -⟩
    rw [written, graph] at same
    obtain ⟨head, tail⟩ := List.cons.inj (Option.some.inj same)
    have edgeCount := congrArg List.length tail
    rw [List.length_map, List.length_map, (order.perm _).length_eq, length_edgesOf,
      ← headLine_inj head, ← formed.length_recordsOf, ← List.length_map TrafficRecord.pair]
      at edgeCount
    rw [← List.dedup_eq_self]
    exact (List.dedup_sublist _).eq_of_length edgeCount
  · intro nodup
    refine ⟨_, written, ?_, fun others perm => ⟨_, toGroup_doGroup (formed.perm perm) named order
      cpu numGroup, ?_, ?_⟩⟩
    · rw [← formed.length_recordsOf]
      exact isGraphOf_edgesOf nodup order
    · rw [switchesOf_perm (recordsOf_perm perm), perm.length_eq]
      rfl
    · exact (((order.perm _).trans (edgesOf_perm (recordsOf_perm perm) nodup)).trans
        (order.perm _).symm).map edgeLine

theorem doGroup_isGraphOf_triangle :
    ∃ file, (doGroup (.inserted Edge) "s".toList "g".toList []
        ["1 2 5\n".toList, "3 1 7\n".toList] 5).toGroup = some file ∧
      IsGraphOf (recordsOf ["1 2 5\n".toList, "3 1 7\n".toList]) file := by
  obtain ⟨file, written, graph, -⟩ := (doGroup_isGraphOf_iff (by decide)
    (by decide : "s".toList ≠ [] ∧ "g".toList ≠ []) (.inserted Edge) [] 5).mpr
      (by decide :
        ((recordsOf ["1 2 5\n".toList, "3 1 7\n".toList]).map TrafficRecord.pair).Nodup)
  exact ⟨file, written, graph⟩

/-- Two records of one pair, one in each direction: the head line announces two edges, one line
follows, and it has the weight of the last record. -/
theorem not_doGroup_isGraphOf_reversed :
    (doGroup (.inserted Edge) "s".toList "g".toList [] ["1 2 5\n".toList, "2 1 7\n".toList]
        5).toGroup = some ["2 2 001\n".toList, "1 2 7\n".toList] ∧
      ¬ IsGraphOf (recordsOf ["1 2 5\n".toList, "2 1 7\n".toList])
        ["2 2 001\n".toList, "1 2 7\n".toList] := by
  refine ⟨by decide, ?_⟩
  rintro ⟨edges, graph, -⟩
  obtain ⟨head, tail⟩ := List.cons.inj graph
  have one : edges.length = 1 := by simpa using (congrArg List.length tail).symm
  rw [one] at head
  exact absurd head (by decide)

theorem pair_traffic (record : TrafficRecord) (present : Option Traffic) :
    (record.traffic present).pair = record.pair := by
  cases present <;> rfl

theorem keepsKey_traffic (record : TrafficRecord) : KeepsKey record.pair record.traffic :=
  fun present _ => pair_traffic record present

def trafficOf (records : List TrafficRecord) : List Traffic :=
  collect TrafficRecord.pair TrafficRecord.traffic [] records

theorem foldl_traffic {records : List TrafficRecord} {pair : Int × Int}
    (same : ∀ record ∈ records, record.pair = pair) (flows : Nat) (octs : Int) :
    records.foldl (fun present record => some (record.traffic present)) (some ⟨pair, flows, octs⟩) =
      some ⟨pair, flows + records.length, octs + (records.map TrafficRecord.weight).sum⟩ := by
  induction records generalizing flows octs with
  | nil => simp
  | cons record records ih =>
    have here := same record (by simp)
    rw [List.foldl_cons, TrafficRecord.traffic, here,
      ih fun other member => same other (by simp [member])]
    simp only [List.length_cons, List.map_cons, List.sum_cons, Option.some.injEq,
      Traffic.mk.injEq, true_and]
    constructor <;> omega

theorem lookup_trafficOf {records : List TrafficRecord} {pair : Int × Int} {traffic : Traffic}
    (found : lookup (trafficOf records) pair = some traffic) :
    traffic = ⟨pair, (records.filter fun record => record.pair = pair).length,
      ((records.filter fun record => record.pair = pair).map TrafficRecord.weight).sum⟩ := by
  rw [trafficOf, lookup_collect keepsKey_traffic] at found
  have same : ∀ record ∈ records.filter (fun record => record.pair = pair), record.pair = pair :=
    fun record member => of_decide_eq_true (List.mem_filter.mp member).2
  cases ofPair : records.filter (fun record => record.pair = pair) with
  | nil =>
    rw [ofPair] at found
    cases found
  | cons first rest =>
    rw [ofPair] at found same
    rw [List.foldl_cons] at found
    have started : first.traffic (lookup [] pair) = ⟨pair, 1, first.weight⟩ := by
      rw [← same first (by simp)]
      rfl
    rw [started, foldl_traffic fun other member => same other (by simp [member])] at found
    rw [← Option.some.inj found, List.length_cons, List.map_cons, List.sum_cons, Nat.add_comm]

theorem foldlM_readTraffic {lines : List Chars} (formed : WellFormed lines)
    (trafficDic : List Traffic) :
    lines.foldlM readTraffic trafficDic =
      some (collect TrafficRecord.pair TrafficRecord.traffic trafficDic (recordsOf lines)) := by
  induction lines generalizing trafficDic with
  | nil => rfl
  | cons line lines ih =>
    obtain ⟨record, read, rest, records⟩ := formed.exists_cons
    have first : readTraffic trafficDic line =
        some (upsert trafficDic record.pair record.traffic) := by
      rw [readTraffic, read]
      rfl
    rw [List.foldlM_cons, first, records]
    exact ih rest _

/-- The simulator's aggregation loses nothing: one line for each pair, with the number of its
records and the sum of their weights. -/
theorem aggregateRecord_eq {lines : List Chars} (formed : WellFormed lines)
    (order : DictOrder Traffic) :
    ∃ entries : List Traffic, aggregateRecord order lines = entries.map trafficLine ∧
      (keys entries).Nodup ∧
      (∀ pair, pair ∈ keys entries ↔ pair ∈ (recordsOf lines).map TrafficRecord.pair) ∧
      ∀ entry ∈ entries,
        entry.flows = ((recordsOf lines).filter fun record => record.pair = entry.pair).length ∧
        entry.octs = (((recordsOf lines).filter fun record => record.pair = entry.pair).map
          TrafficRecord.weight).sum := by
  have visited := order.perm (trafficOf (recordsOf lines))
  have nodup : (keys (trafficOf (recordsOf lines))).Nodup :=
    keys_collect_nodup keepsKey_traffic _ List.nodup_nil
  refine ⟨order.visit (trafficOf (recordsOf lines)), ?_, (visited.map key).nodup_iff.mpr nodup,
    fun pair => ?_, fun entry member => ?_⟩
  · rw [aggregateRecord, foldlM_readTraffic formed]
    rfl
  · rw [keys, (visited.map key).mem_iff]
    exact mem_keys_collect keepsKey_traffic _ pair
  · have found := (lookup_eq_some_iff nodup).mpr ⟨visited.mem_iff.mp member, rfl⟩
    have value := lookup_trafficOf found
    exact ⟨congrArg Traffic.flows value, congrArg Traffic.octs value⟩

theorem aggregateRecord_eq_twoFlows : WellFormed ["1 2 5\n".toList, "2 1 7\n".toList] ∧
    ∃ entries : List Traffic, aggregateRecord (.inserted Traffic)
        ["1 2 5\n".toList, "2 1 7\n".toList] = entries.map trafficLine ∧
      ∀ entry ∈ entries, entry.flows = 2 ∧ entry.octs = 12 := by
  have formed : WellFormed ["1 2 5\n".toList, "2 1 7\n".toList] := by decide
  obtain ⟨entries, written, -, listed, sums⟩ := aggregateRecord_eq formed (.inserted Traffic)
  refine ⟨formed, entries, written, fun entry member => ?_⟩
  have pair : entry.pair = (1, 2) := by
    have known := (listed entry.pair).mp (List.mem_map_of_mem member)
    revert known
    generalize entry.pair = pair
    rw [show (recordsOf ["1 2 5\n".toList, "2 1 7\n".toList]).map TrafficRecord.pair =
      [(1, 2), (1, 2)] by decide]
    simp
  obtain ⟨flows, octs⟩ := sums entry member
  rw [flows, octs, pair]
  decide

theorem truncate_of_nonneg {q : ℚ} (nonneg : 0 ≤ q) : truncate q = ⌊q⌋ := by
  rw [truncate, Int.tdiv_eq_ediv_of_nonneg (Rat.num_nonneg.mpr nonneg),
    Rat.floor_def']

theorem newNumGroup_bounds {numGroup : Int} (positive : 1 ≤ numGroup) (numCpu : Nat) {numSw : Nat}
    (some_ : 0 < numSw) :
    newNumGroup numGroup numCpu numSw ≤ numGroup ∧
      (1 ≤ newNumGroup numGroup numCpu numSw ↔ (numCpu : Int) ≤ (numGroup - 1) * numSw) := by
  have groups : (1 : ℚ) ≤ numGroup := by exact_mod_cast positive
  have switches : (0 : ℚ) < numSw := by exact_mod_cast some_
  have complaints : (0 : ℚ) ≤ numCpu / numSw := by positivity
  have divisor : (0 : ℚ) < 1 + numCpu / numSw := by linarith
  have nonneg : (0 : ℚ) ≤ numGroup / (1 + numCpu / numSw) := by positivity
  rw [newNumGroup, truncate_of_nonneg nonneg]
  constructor
  · have atMost : (numGroup : ℚ) / (1 + numCpu / numSw) ≤ numGroup :=
      div_le_self (by linarith) (by linarith)
    exact_mod_cast (Int.floor_le _).trans atMost
  · rw [Int.le_floor, Int.cast_one, one_le_div divisor]
    have scaled : (1 + (numCpu : ℚ) / numSw ≤ numGroup) ↔
        (numCpu : ℚ) ≤ (numGroup - 1) * numSw := by
      rw [← le_sub_iff_add_le', div_le_iff₀ switches]
    rw [scaled]
    exact_mod_cast Iff.rfl

theorem countCpu_of_words {lines : List Chars} (words : ∀ line ∈ lines, (pySplit line).length = 2) :
    countCpu lines = some lines.length := by
  induction lines with
  | nil => rfl
  | cons line lines ih =>
    obtain ⟨cpu, sw, two⟩ := List.length_eq_two.mp (words line (by simp))
    rw [countCpu, two]
    simp only [ih fun other member => words other (by simp [member]), Option.map_some,
      List.length_cons]

theorem switchesOf_card_pos {lines : List Chars} (formed : WellFormed lines) (some_ : lines ≠ []) :
    0 < (switchesOf (recordsOf lines)).card := by
  obtain ⟨line, rest, rfl⟩ := List.exists_cons_of_ne_nil some_
  obtain ⟨record, -, -, records⟩ := formed.exists_cons
  rw [records, switchesOf_cons]
  exact Finset.card_pos.mpr (Finset.insert_nonempty _ _)

theorem outcome_doGroup {lines cpu : List Chars} (formed : WellFormed lines) (some_ : lines ≠ [])
    (words : ∀ line ∈ cpu, (pySplit line).length = 2) {fnStat fnToGroup : Chars}
    (named : fnStat ≠ [] ∧ fnToGroup ≠ []) (order : DictOrder Edge) (numGroup : Int) :
    (doGroup order fnStat fnToGroup cpu lines numGroup).outcome =
      .ok (some (newNumGroup numGroup cpu.length (switchesOf (recordsOf lines)).card)) := by
  have card := switchesOf_card_pos formed some_
  have nonempty : switchesOf (recordsOf lines) ≠ ∅ := Finset.card_pos.mp card |>.ne_empty
  simp only [doGroup, named, or_self, if_false, foldlM_read_start formed, nonempty,
    countCpu_of_words words, Nat.ne_of_gt card]

/-- The returned number of groups is a number of groups exactly as long as there are at most
`num_group - 1` complaints for each switch. -/
theorem doGroup_numGroup_iff {lines cpu : List Chars} (formed : WellFormed lines)
    (some_ : lines ≠ []) (words : ∀ line ∈ cpu, (pySplit line).length = 2)
    {fnStat fnToGroup : Chars} (named : fnStat ≠ [] ∧ fnToGroup ≠ []) (order : DictOrder Edge)
    {numGroup : Int} (positive : 1 ≤ numGroup) :
    (∃ newNum, (doGroup order fnStat fnToGroup cpu lines numGroup).outcome = .ok (some newNum) ∧
        1 ≤ newNum ∧ newNum ≤ numGroup) ↔
      (cpu.length : Int) ≤ (numGroup - 1) * (switchesOf (recordsOf lines)).card := by
  have returned := outcome_doGroup formed some_ words named order numGroup
  obtain ⟨atMost, atLeast⟩ :=
    newNumGroup_bounds positive cpu.length (switchesOf_card_pos formed some_)
  rw [← atLeast]
  constructor
  · rintro ⟨newNum, same, least, -⟩
    rw [returned] at same
    obtain rfl := Option.some.inj (Except.ok.inj same)
    exact least
  · exact fun least => ⟨_, returned, least, atMost⟩

/-- Two switches with three complaints, and five groups. -/
theorem doGroup_numGroup_three :
    ∃ newNum, (doGroup (.inserted Edge) "s".toList "g".toList
        ["90 10.0.0.1\n".toList, "95 10.0.0.2\n".toList, "99 10.0.0.1\n".toList]
        ["1 2 5\n".toList] 5).outcome = .ok (some newNum) ∧ 1 ≤ newNum ∧ newNum ≤ 5 :=
  (doGroup_numGroup_iff (by decide) (by decide) (by decide) (by decide) (.inserted Edge)
    (by decide)).mpr (by decide)

/-- One group and one complaint: the partitioner is asked for no group at all. -/
theorem not_doGroup_numGroup_one :
    (doGroup (.inserted Edge) "s".toList "g".toList ["99 10.0.0.1\n".toList]
        ["1 2 5\n".toList] 1).outcome = .ok (some 0) := by
  rw [outcome_doGroup (by decide) (by decide) (by decide) (by decide)]
  have switches : (switchesOf (recordsOf ["1 2 5\n".toList])).card = 2 := by decide
  rw [switches]
  have value : newNumGroup 1 1 2 = 0 := by decide +kernel
  exact congrArg (fun n => Except.ok (some n)) value

end LazyCtrl
