import LazyCtrl.Sim.DataCenter
import LazyCtrl.Sim.Affinity

/-!
# The graph for METIS

`Cut.kcut` reads the affinity file into a graph of `networkx` and writes the adjacency list of each
node in a line.  METIS takes line `i` for node `i`, but the lines come in the order in which the
library hands out the nodes, and there is a line only for switches with flows to other switches,
while the number of nodes in the first line counts every switch that has a host.

The orders of the library's dictionaries are parameters.
-/

namespace LazyCtrl
namespace Sim

open Text Keyed

structure Neighbour where
  node : Int
  weight : Int
  deriving DecidableEq, Repr

instance : Keyed Neighbour Int := ⟨Neighbour.node⟩

structure NodeAdj where
  node : Int
  neighbours : List Neighbour
  deriving DecidableEq, Repr

instance : Keyed NodeAdj Int := ⟨NodeAdj.node⟩

def NodeAdj.link (u v w : Int) (present : Option NodeAdj) : NodeAdj :=
  ⟨u, upsert ((present.map NodeAdj.neighbours).getD []) v fun _ => ⟨v, w⟩⟩

def addEdge (graph : List NodeAdj) (edge : TrafficRecord) : List NodeAdj :=
  upsert (upsert graph edge.src (NodeAdj.link edge.src edge.dst edge.weight)) edge.dst
    (NodeAdj.link edge.dst edge.src edge.weight)

structure CutInput where
  numNode : Int
  numEdge : Int
  edges : List TrafficRecord

def readEdges : List Chars → List TrafficRecord → List TrafficRecord × Option PyError
  | [], edges => (edges, none)
  | line :: lines, edges =>
    match readRecord line with
    | none => (edges, some .value)
    | some edge => readEdges lines (edges ++ [edge])

def readCut (lines : List Chars) : CutInput × Option PyError :=
  match pyIntLine (lines.headD []) with
  | none => (⟨0, 0, []⟩, some .value)
  | some numNode =>
    match pyIntLine (lines.tail.headD []) with
    | none => (⟨numNode, 0, []⟩, some .value)
    | some numEdge =>
      let (edges, error) := readEdges lines.tail.tail []
      (⟨numNode, numEdge, edges⟩, error)

def metisHead (numNode numEdge : Int) : Chars :=
  pyDecimal numNode ++ ' ' :: (pyDecimal numEdge ++ " 001\n".toList)

def metisRow (row : List (Int × Int)) : Chars :=
  row.flatMap (fun cell => pyDecimal cell.1 ++ ' ' :: (pyDecimal cell.2 ++ [' '])) ++ ['\n']

section Cut

variable (nodeOrder : DictOrder NodeAdj) (nbrOrder : DictOrder Neighbour)

def NodeAdj.row (adj : NodeAdj) : List (Int × Int) :=
  (nbrOrder.visit adj.neighbours).map fun neighbour => (neighbour.node, neighbour.weight)

/-- `Cut().kcut`: the METIS file is written also if there is an exception. -/
def kcut (lines : List Chars) : List Chars × Option PyError :=
  let (input, error) := readCut lines
  (metisHead input.numNode input.numEdge ::
    (nodeOrder.visit (input.edges.foldl addEdge [])).map fun adj => metisRow (adj.row nbrOrder),
    error)

end Cut

structure MetisFile where
  numNode : Int
  numEdge : Int
  rows : List (List (Int × Int))

def readPairs : List Chars → Option (List (Int × Int))
  | [] => some []
  | [_] => none
  | node :: weight :: words => do
      let node ← pyIntOf node
      let weight ← pyIntOf weight
      let rest ← readPairs words
      some ((node, weight) :: rest)

def readMetis : List Chars → Option MetisFile
  | [] => none
  | head :: lines =>
    match pySplit head with
    | [numNode, numEdge, _] => do
        let numNode ← pyIntOf numNode
        let numEdge ← pyIntOf numEdge
        let rows ← lines.mapM fun line => readPairs (pySplit line)
        some { numNode, numEdge, rows }
    | _ => none

structure MetisFile.IsGraph (file : MetisFile) (weight : Int → Int → Option Int) : Prop where
  nodes : file.numNode = file.rows.length
  edges : 2 * file.numEdge = file.rows.flatten.length
  lists : ∀ {i : Nat} {row}, file.rows[i]? = some row →
    row.Nodup ∧ ∀ m w, (m, w) ∈ row ↔ weight (i + 1) m = some w
  both : ∀ {i : Nat} {row} {m w : Int}, file.rows[i]? = some row → (m, w) ∈ row →
    ∃ other, file.rows[(m - 1).toNat]? = some other ∧ ((i : Int) + 1, w) ∈ other
  bounds : ∀ row ∈ file.rows, ∀ cell ∈ row, 1 ≤ cell.1 ∧ cell.1 ≤ file.numNode

def IsMetisGraph (weight : Int → Int → Option Int) (lines : List Chars) : Prop :=
  ∃ file, readMetis lines = some file ∧ file.IsGraph weight

theorem readPairs_row (row : List (Int × Int)) :
    readPairs (pySplit (metisRow row)) = some row := by
  induction row with
  | nil => rfl
  | cons cell row ih =>
    have words : pySplit (metisRow (cell :: row)) =
        pyDecimal cell.1 :: pyDecimal cell.2 :: pySplit (metisRow row) := by
      rw [metisRow, List.flatMap_cons, List.append_assoc, List.append_assoc, List.cons_append,
        pySplit_pyDecimal_append _ rfl, List.append_assoc, List.singleton_append,
        pySplit_pyDecimal_append _ rfl]
      rfl
    simp [words, readPairs, pyIntOf_pyDecimal, ih]

theorem readMetis_file (numNode numEdge : Int) (rows : List (List (Int × Int))) :
    readMetis (metisHead numNode numEdge :: rows.map metisRow) = some ⟨numNode, numEdge, rows⟩ := by
  have words : pySplit (metisHead numNode numEdge) =
      [pyDecimal numNode, pyDecimal numEdge, "001".toList] := by
    rw [metisHead, pySplit_pyDecimal_append _ rfl]
    exact congrArg _ (pySplit_pyDecimal_append _ rfl _)
  have lines : (rows.map metisRow).mapM (fun line => readPairs (pySplit line)) = some rows := by
    induction rows with
    | nil => rfl
    | cons row rows ih => simp [readPairs_row, ih]
  simp [readMetis, words, pyIntOf_pyDecimal, lines]

section Graph

variable {graph : List NodeAdj}

def weightAt (graph : List NodeAdj) (a b : Int) : Option Int :=
  (lookup graph a).bind fun adj => (lookup adj.neighbours b).map Neighbour.weight

structure GraphWf (graph : List NodeAdj) : Prop where
  nodup : (keys graph).Nodup
  neighbours : ∀ {a adj}, lookup graph a = some adj → (keys adj.neighbours).Nodup

theorem NodeAdj.keepsKey_link (u v w : Int) : KeepsKey u (NodeAdj.link u v w) := fun _ _ => rfl

theorem Neighbour.keepsKey (v w : Int) :
    KeepsKey v fun _ : Option Neighbour => (⟨v, w⟩ : Neighbour) := fun _ _ => rfl

theorem weightAt_link (graph : List NodeAdj) (u v w a b : Int) :
    weightAt (upsert graph u (NodeAdj.link u v w)) a b =
      if a = u ∧ b = v then some w else weightAt graph a b := by
  rw [weightAt, lookup_upsert (NodeAdj.keepsKey_link u v w)]
  by_cases source : a = u
  · rw [if_pos source, Option.bind_some, NodeAdj.link, lookup_upsert (Neighbour.keepsKey v w)]
    by_cases target : b = v
    · simp [source, target]
    · simp only [target, if_false, and_false, weightAt, source]
      cases lookup graph u with
      | none => rfl
      | some adj => rfl
  · simp [source, weightAt]

theorem GraphWf.link (wf : GraphWf graph) (u v w : Int) :
    GraphWf (upsert graph u (NodeAdj.link u v w)) := by
  refine ⟨keys_upsert_nodup (NodeAdj.keepsKey_link u v w) wf.nodup, ?_⟩
  intro a adj found
  rw [lookup_upsert (NodeAdj.keepsKey_link u v w)] at found
  split at found
  · rw [← Option.some.inj found, NodeAdj.link]
    apply keys_upsert_nodup (Neighbour.keepsKey v w)
    cases present : lookup graph u with
    | none => exact List.nodup_nil
    | some old => exact wf.neighbours present
  · exact wf.neighbours found

theorem GraphWf.foldl_addEdge (wf : GraphWf graph) (edges : List TrafficRecord) :
    GraphWf (edges.foldl addEdge graph) := by
  induction edges generalizing graph with
  | nil => exact wf
  | cons edge edges ih => exact ih ((wf.link _ _ _).link _ _ _)

theorem weightAt_addEdge (graph : List NodeAdj) (edge : TrafficRecord) (a b : Int) :
    weightAt (addEdge graph edge) a b =
      if a = edge.src ∧ b = edge.dst ∨ a = edge.dst ∧ b = edge.src then some edge.weight
      else weightAt graph a b := by
  rw [addEdge, weightAt_link, weightAt_link]
  by_cases forth : a = edge.src ∧ b = edge.dst
  · simp [forth]
  · by_cases back : a = edge.dst ∧ b = edge.src
    · simp [back]
    · simp [forth, back]

theorem mem_keys_foldl_addEdge (edges : List TrafficRecord) (graph : List NodeAdj) (v : Int) :
    v ∈ keys (edges.foldl addEdge graph) ↔
      v ∈ keys graph ∨ ∃ edge ∈ edges, v = edge.src ∨ v = edge.dst := by
  induction edges generalizing graph with
  | nil => simp
  | cons edge edges ih =>
    rw [List.foldl_cons, ih, addEdge, mem_keys_upsert (NodeAdj.keepsKey_link _ _ _),
      mem_keys_upsert (NodeAdj.keepsKey_link _ _ _), List.exists_mem_cons_iff]
    simp only [or_assoc, or_left_comm]

theorem mem_row_iff (nbrOrder : DictOrder Neighbour) (wf : GraphWf graph) {adj : NodeAdj}
    (member : adj ∈ graph) (m w : Int) :
    (m, w) ∈ adj.row nbrOrder ↔ weightAt graph adj.node m = some w := by
  have found : lookup graph adj.node = some adj :=
    (lookup_eq_some_iff wf.nodup).mpr ⟨member, rfl⟩
  have cell : (m, w) ∈ adj.row nbrOrder ↔ (⟨m, w⟩ : Neighbour) ∈ adj.neighbours := by
    rw [NodeAdj.row, List.mem_map]
    constructor
    · rintro ⟨neighbour, inside, equal⟩
      obtain ⟨rfl, rfl⟩ := Prod.mk.inj equal
      exact (nbrOrder.perm _).mem_iff.mp inside
    · exact fun inside => ⟨⟨m, w⟩, (nbrOrder.perm _).mem_iff.mpr inside, rfl⟩
  rw [cell, weightAt, found, Option.bind_some, Option.map_eq_some_iff]
  constructor
  · exact fun inside =>
      ⟨⟨m, w⟩, (lookup_eq_some_iff (wf.neighbours found)).mpr ⟨inside, rfl⟩, rfl⟩
  · rintro ⟨neighbour, search, rfl⟩
    obtain rfl : neighbour.node = m := lookup_key search
    exact lookup_mem search

theorem nodup_row (nbrOrder : DictOrder Neighbour) (wf : GraphWf graph) {adj : NodeAdj}
    (member : adj ∈ graph) : (adj.row nbrOrder).Nodup := by
  have found : lookup graph adj.node = some adj :=
    (lookup_eq_some_iff wf.nodup).mpr ⟨member, rfl⟩
  have nodup : ((nbrOrder.visit adj.neighbours).map key).Nodup :=
    ((nbrOrder.perm adj.neighbours).map key).nodup_iff.mpr (wf.neighbours found)
  have firsts : (adj.row nbrOrder).map Prod.fst = (nbrOrder.visit adj.neighbours).map key := by
    rw [NodeAdj.row, List.map_map]
    rfl
  exact List.Nodup.of_map Prod.fst (firsts ▸ nodup)

end Graph

section Affinities

variable {entries : List SwFlow}

def SwFlow.edge (entry : SwFlow) : TrafficRecord := ⟨entry.pair.1, entry.pair.2, entry.flow⟩

def affinityAt (entries : List SwFlow) (a b : Int) : Option Int :=
  (lookup entries (sortedPair a b)).map SwFlow.flow

theorem affinityAt_comm (entries : List SwFlow) (a b : Int) :
    affinityAt entries a b = affinityAt entries b a := by
  rw [affinityAt, sortedPair_comm, affinityAt]

structure IsPairTable (entries : List SwFlow) : Prop where
  nodup : (keys entries).Nodup
  sorted : ∀ entry ∈ entries, entry.pair.1 < entry.pair.2

theorem sortedPair_eq_iff {a b : Int} {pair : Int × Int} (sorted : pair.1 < pair.2) :
    sortedPair a b = pair ↔ a = pair.1 ∧ b = pair.2 ∨ a = pair.2 ∧ b = pair.1 := by
  obtain ⟨x, y⟩ := pair
  simp only at sorted
  rw [sortedPair]
  split
  · rw [Prod.mk.injEq]
    omega
  · rw [Prod.mk.injEq]
    omega

theorem weightAt_graph (table : IsPairTable entries) (graph : List NodeAdj) (a b : Int) :
    weightAt ((entries.map SwFlow.edge).foldl addEdge graph) a b =
      (affinityAt entries a b).or (weightAt graph a b) := by
  induction entries generalizing graph with
  | nil => rfl
  | cons entry entries ih =>
    obtain ⟨absent, nodup⟩ := List.nodup_cons.mp table.nodup
    obtain ⟨here, later⟩ := List.forall_mem_cons.mp table.sorted
    rw [List.map_cons, List.foldl_cons, ih ⟨nodup, later⟩, weightAt_addEdge]
    have ends : sortedPair a b = entry.pair ↔ a = entry.edge.src ∧ b = entry.edge.dst ∨
        a = entry.edge.dst ∧ b = entry.edge.src := sortedPair_eq_iff here
    by_cases same : sortedPair a b = entry.pair
    · have none_ : lookup entries (sortedPair a b) = none := by
        rw [← Option.not_isSome_iff_eq_none, lookup_isSome_iff, same]
        exact absent
      have first : lookup (entry :: entries) (sortedPair a b) = some entry := by
        simp [lookup, key, same]
      rw [affinityAt, affinityAt, none_, first, if_pos (ends.mp same)]
      rfl
    · have next : lookup (entry :: entries) (sortedPair a b) = lookup entries (sortedPair a b) := by
        have differ : ¬entry.pair = sortedPair a b := fun equal => same equal.symm
        simp [lookup, key, differ]
      rw [affinityAt, affinityAt, next, if_neg (mt ends.mpr same)]

theorem mem_nodes_iff (table : IsPairTable entries) (v : Int) :
    v ∈ keys ((entries.map SwFlow.edge).foldl addEdge []) ↔
      ∃ m, (affinityAt entries v m).isSome := by
  rw [mem_keys_foldl_addEdge]
  simp only [affinityAt, Option.isSome_map, lookup_isSome_iff, List.mem_map, keys, List.map_nil,
    List.not_mem_nil, false_or]
  constructor
  · rintro ⟨_, ⟨entry, member, rfl⟩, rfl | rfl⟩
    · exact ⟨entry.pair.2, entry, member,
        ((sortedPair_eq_iff (table.sorted entry member)).mpr (.inl ⟨rfl, rfl⟩)).symm⟩
    · exact ⟨entry.pair.1, entry, member,
        ((sortedPair_eq_iff (table.sorted entry member)).mpr (.inr ⟨rfl, rfl⟩)).symm⟩
  · rintro ⟨m, entry, member, same⟩
    refine ⟨entry.edge, ⟨entry, member, rfl⟩, ?_⟩
    have ends := (sortedPair_eq_iff (table.sorted entry member)).mp
      (show sortedPair v m = entry.pair from same.symm)
    rcases ends with ⟨first, -⟩ | ⟨second, -⟩
    · exact .inl first
    · exact .inr second

def degreeSum (graph : List NodeAdj) : Int :=
  (graph.map fun adj => (adj.neighbours.length : Int)).sum

theorem degreeSum_link {graph : List NodeAdj} {u v : Int} (new : weightAt graph u v = none)
    (w : Int) : degreeSum (upsert graph u (NodeAdj.link u v w)) = degreeSum graph + 1 := by
  have assigned := sum_upsert_eq (fun adj : NodeAdj => (adj.neighbours.length : Int)) graph u
    (NodeAdj.link u v w)
  have grown : ((NodeAdj.link u v w (lookup graph u)).neighbours.length : Int) =
      ((lookup graph u).map fun adj => (adj.neighbours.length : Int)).getD 0 + 1 := by
    rw [NodeAdj.link, length_upsert]
    rw [weightAt] at new
    cases found : lookup graph u with
    | none => rfl
    | some adj =>
      rw [found, Option.bind_some, Option.map_eq_none_iff] at new
      simp [new]
  rw [grown] at assigned
  rw [degreeSum, degreeSum]
  omega

theorem degreeSum_graph (table : IsPairTable entries) :
    degreeSum ((entries.map SwFlow.edge).foldl addEdge []) = 2 * entries.length := by
  induction entries using List.reverseRecOn with
  | nil => rfl
  | append_singleton entries entry ih =>
    have nodup := table.nodup
    rw [keys, List.map_append, List.nodup_append] at nodup
    have front : IsPairTable entries :=
      ⟨nodup.1, fun other member => table.sorted other (List.mem_append_left _ member)⟩
    have sorted := table.sorted entry (List.mem_append_right _ (List.mem_singleton_self _))
    have absent : ∀ a b, sortedPair a b = entry.pair → affinityAt entries a b = none := by
      intro a b same
      rw [affinityAt, same, Option.map_eq_none_iff, ← Option.not_isSome_iff_eq_none,
        lookup_isSome_iff]
      intro inside
      exact nodup.2.2 _ inside entry.pair (List.mem_singleton_self _) rfl
    have new : ∀ a b, sortedPair a b = entry.pair →
        weightAt ((entries.map SwFlow.edge).foldl addEdge []) a b = none := by
      intro a b same
      rw [weightAt_graph front, absent a b same]
      rfl
    have forth := new entry.edge.src entry.edge.dst
      ((sortedPair_eq_iff sorted).mpr (.inl ⟨rfl, rfl⟩))
    have back := new entry.edge.dst entry.edge.src
      ((sortedPair_eq_iff sorted).mpr (.inr ⟨rfl, rfl⟩))
    rw [List.map_append, List.foldl_append, List.map_singleton, List.foldl_cons, List.foldl_nil,
      addEdge, degreeSum_link, degreeSum_link forth, ih front, List.length_append,
      List.length_singleton]
    · push_cast
      omega
    · rw [weightAt_link, if_neg, back]
      intro same
      exact Int.ne_of_gt sorted same.1

end Affinities

section Alignment

variable {entries : List SwFlow} (nodeOrder : DictOrder NodeAdj) (nbrOrder : DictOrder Neighbour)

def visited (entries : List SwFlow) : List NodeAdj :=
  nodeOrder.visit ((entries.map SwFlow.edge).foldl addEdge [])

def metisRows (entries : List SwFlow) : List (List (Int × Int)) :=
  (visited nodeOrder entries).map (NodeAdj.row nbrOrder)

theorem graphWf_entries (entries : List SwFlow) :
    GraphWf ((entries.map SwFlow.edge).foldl addEdge []) :=
  GraphWf.foldl_addEdge (⟨List.nodup_nil, fun found => by cases found⟩ : GraphWf []) _

theorem mem_visited {adj : NodeAdj} : adj ∈ visited nodeOrder entries ↔
    adj ∈ (entries.map SwFlow.edge).foldl addEdge [] :=
  (nodeOrder.perm _).mem_iff

theorem mem_metisRow_iff (table : IsPairTable entries) {adj : NodeAdj}
    (member : adj ∈ visited nodeOrder entries) (m w : Int) :
    (m, w) ∈ adj.row nbrOrder ↔ affinityAt entries adj.node m = some w := by
  rw [mem_row_iff nbrOrder (graphWf_entries entries) ((mem_visited nodeOrder).mp member),
    weightAt_graph table, show weightAt [] adj.node m = none from rfl, Option.or_none]

theorem mem_visited_nodes_iff (table : IsPairTable entries) (v : Int) :
    v ∈ keys (visited nodeOrder entries) ↔ ∃ m, (affinityAt entries v m).isSome := by
  rw [keys, visited, ((nodeOrder.perm _).map key).mem_iff]
  exact mem_nodes_iff table v

theorem nodup_visited (entries : List SwFlow) : (keys (visited nodeOrder entries)).Nodup :=
  ((nodeOrder.perm _).map key).nodup_iff.mpr (graphWf_entries entries).nodup

theorem length_flatten_metisRows (table : IsPairTable entries) :
    ((metisRows nodeOrder nbrOrder entries).flatten.length : Int) = 2 * entries.length := by
  have lengths : ∀ nodes : List NodeAdj,
      ((nodes.map (NodeAdj.row nbrOrder)).flatten.length : Int) = degreeSum nodes := by
    intro nodes
    induction nodes with
    | nil => rfl
    | cons adj nodes ih =>
      have row : (adj.row nbrOrder).length = adj.neighbours.length := by
        rw [NodeAdj.row, List.length_map, (nbrOrder.perm _).length_eq]
      rw [List.map_cons, List.flatten_cons, List.length_append, row, Nat.cast_add, ih]
      rfl
  rw [metisRows, lengths, ← degreeSum_graph table, degreeSum, degreeSum]
  exact ((nodeOrder.perm _).map _).sum_eq

/-- The lines of the nodes belong to the switches of the same numbers. -/
structure Aligned (nodes : List Int) (entries : List SwFlow) (switches : Finset Int) : Prop where
  linked : ∀ v ∈ switches, ∃ m, (affinityAt entries v m).isSome
  bounded : ∀ v ∈ switches, v ≤ switches.card
  order : ∀ (i : Nat) (v : Int), nodes[i]? = some v →
    ∀ m, affinityAt entries v m = affinityAt entries (i + 1) m

variable {nodeOrder nbrOrder} {switches : Finset Int} (table : IsPairTable entries)
  (inside : ∀ v m, (affinityAt entries v m).isSome → v ∈ switches)
  (positive : ∀ v ∈ switches, 1 ≤ v)

include table inside

theorem length_visited_iff :
    (visited nodeOrder entries).length = switches.card ↔
      ∀ v ∈ switches, ∃ m, (affinityAt entries v m).isSome := by
  have card : (visited nodeOrder entries).length =
      (keys (visited nodeOrder entries)).toFinset.card := by
    rw [List.toFinset_card_of_nodup (nodup_visited nodeOrder entries), keys, List.length_map]
  have nodes : ∀ v, v ∈ (keys (visited nodeOrder entries)).toFinset ↔
      ∃ m, (affinityAt entries v m).isSome := by
    intro v
    rw [List.mem_toFinset, mem_visited_nodes_iff nodeOrder table]
  have subset : (keys (visited nodeOrder entries)).toFinset ⊆ switches := by
    intro v member
    obtain ⟨m, some_⟩ := (nodes v).mp member
    exact inside v m some_
  rw [card]
  constructor
  · intro same v member
    rw [← nodes, Finset.eq_of_subset_of_card_le subset (by omega)]
    exact member
  · intro linked
    congr 1
    exact Finset.Subset.antisymm subset fun v member => (nodes v).mpr (linked v member)

include positive

theorem isGraph_iff :
    MetisFile.IsGraph ⟨switches.card, entries.length, metisRows nodeOrder nbrOrder entries⟩
        (affinityAt entries) ↔
      Aligned (keys (visited nodeOrder entries)) entries switches := by
  have rowAt : ∀ {i : Nat} {row}, (metisRows nodeOrder nbrOrder entries)[i]? = some row ↔
      ∃ adj, (visited nodeOrder entries)[i]? = some adj ∧ adj.row nbrOrder = row := by
    intro i row
    rw [metisRows, List.getElem?_map, Option.map_eq_some_iff]
  have nodeAt : ∀ {i : Nat} {v}, (keys (visited nodeOrder entries))[i]? = some v ↔
      ∃ adj, (visited nodeOrder entries)[i]? = some adj ∧ adj.node = v := by
    intro i v
    rw [keys, List.getElem?_map, Option.map_eq_some_iff]
    rfl
  have member : ∀ {i : Nat} {adj}, (visited nodeOrder entries)[i]? = some adj →
      adj ∈ visited nodeOrder entries := List.mem_of_getElem?
  have lengths : (metisRows nodeOrder nbrOrder entries).length =
      (visited nodeOrder entries).length := by rw [metisRows, List.length_map]
  constructor
  · rintro ⟨nodes, -, lists, -, bounds⟩
    have linked : ∀ v ∈ switches, ∃ m, (affinityAt entries v m).isSome := by
      rw [← @length_visited_iff _ nodeOrder _ table inside, ← lengths]
      exact Int.ofNat_inj.mp nodes.symm
    refine ⟨linked, ?_, ?_⟩
    · intro v inSwitches
      -- A switch is listed as a neighbour in the line of any of its neighbours.
      obtain ⟨m, some_⟩ := linked v inSwitches
      obtain ⟨w, weight⟩ := Option.isSome_iff_exists.mp some_
      rw [affinityAt_comm] at weight
      have node : m ∈ keys (visited nodeOrder entries) :=
        (mem_visited_nodes_iff nodeOrder table m).mpr ⟨v, by rw [weight]; rfl⟩
      obtain ⟨adj, here, rfl⟩ := List.mem_map.mp node
      have cell := (mem_metisRow_iff nodeOrder nbrOrder table here v w).mpr weight
      exact (bounds _ (List.mem_map_of_mem here) _ cell).2
    · intro i v atPosition m
      obtain ⟨adj, here, rfl⟩ := nodeAt.mp atPosition
      have line := (lists (rowAt.mpr ⟨adj, here, rfl⟩)).2 m
      ext w
      rw [← line w, mem_metisRow_iff nodeOrder nbrOrder table (member here)]
  · rintro ⟨linked, bounded, order⟩
    have count : (visited nodeOrder entries).length = switches.card :=
      (length_visited_iff table inside).mpr linked
    have lists : ∀ {i : Nat} {row}, (metisRows nodeOrder nbrOrder entries)[i]? = some row →
        row.Nodup ∧ ∀ m w, (m, w) ∈ row ↔ affinityAt entries (i + 1) m = some w := by
      intro i row atPosition
      obtain ⟨adj, here, rfl⟩ := rowAt.mp atPosition
      refine ⟨nodup_row nbrOrder (graphWf_entries entries)
        ((mem_visited nodeOrder).mp (member here)), fun m w => ?_⟩
      rw [mem_metisRow_iff nodeOrder nbrOrder table (member here),
        order i adj.node (nodeAt.mpr ⟨adj, here, rfl⟩)]
    have within : ∀ {v m w}, affinityAt entries v m = some w →
        1 ≤ m ∧ m ≤ switches.card := by
      intro v m w weight
      rw [affinityAt_comm] at weight
      have inSwitches := inside m v (by rw [weight]; rfl)
      exact ⟨positive m inSwitches, bounded m inSwitches⟩
    refine ⟨by rw [lengths, count], ?_, lists, ?_, ?_⟩
    · exact (length_flatten_metisRows nodeOrder nbrOrder table).symm
    · intro i row m w atPosition cell
      have weight := ((lists atPosition).2 m w).mp cell
      obtain ⟨low, high⟩ := within weight
      obtain ⟨other, otherAt⟩ : ∃ other,
          (metisRows nodeOrder nbrOrder entries)[(m - 1).toNat]? = some other := by
        rw [← Option.isSome_iff_exists, isSome_getElem?, lengths, count]
        omega
      refine ⟨other, otherAt, ((lists otherAt).2 _ w).mpr ?_⟩
      have same : (((m - 1).toNat : Nat) : Int) + 1 = m := by omega
      rw [same, affinityAt_comm, weight]
    · intro row rowMember cell cellMember
      obtain ⟨adj, here, rfl⟩ := List.mem_map.mp rowMember
      exact within ((mem_metisRow_iff nodeOrder nbrOrder table here cell.1 cell.2).mp cellMember)

end Alignment

theorem pyIntLine_numberLine (number : Nat) : pyIntLine (numberLine number) = some (number : Int) := by
  have words : pySplit (numberLine number) = [pyDecimal number] := by
    rw [numberLine, pySplit_pyDecimal_append _ rfl, pySplit_spaces rfl]
  simp only [pyIntLine, words, pyIntOf_pyDecimal]

theorem readRecord_swFlowLine (entry : SwFlow) :
    readRecord (swFlowLine entry) = some entry.edge := by
  have words : pySplit (swFlowLine entry) =
      [pyDecimal entry.pair.1, pyDecimal entry.pair.2, pyDecimal entry.flow] := by
    rw [swFlowLine, pySplit_pyDecimal_append _ rfl, pySplit_pyDecimal_append _ rfl,
      pySplit_pyDecimal_append _ rfl, pySplit_spaces rfl]
  simp [readRecord, words, pyIntOf_pyDecimal, SwFlow.edge]

theorem readEdges_swFlowLines (entries : List SwFlow) (edges : List TrafficRecord) :
    readEdges (entries.map swFlowLine) edges = (edges ++ entries.map SwFlow.edge, none) := by
  induction entries generalizing edges with
  | nil => rw [List.map_nil, List.map_nil, List.append_nil, readEdges]
  | cons entry entries ih =>
    rw [List.map_cons, readEdges, readRecord_swFlowLine]
    refine (ih _).trans ?_
    rw [List.append_assoc, List.singleton_append, List.map_cons]

theorem kcut_affinity (nodeOrder : DictOrder NodeAdj) (nbrOrder : DictOrder Neighbour)
    (numNode numEdge : Nat) (entries : List SwFlow) :
    kcut nodeOrder nbrOrder
        (numberLine numNode :: numberLine numEdge :: entries.map swFlowLine) =
      (metisHead numNode numEdge :: (metisRows nodeOrder nbrOrder entries).map metisRow, none) := by
  have input : readCut (numberLine numNode :: numberLine numEdge :: entries.map swFlowLine) =
      (⟨numNode, numEdge, entries.map SwFlow.edge⟩, none) := by
    simp only [readCut, List.headD_cons, List.tail_cons, pyIntLine_numberLine,
      readEdges_swFlowLines, List.nil_append]
  rw [kcut, input, metisRows, List.map_map]
  rfl

section Written

variable {n : Int} {records : List Aggregated}

theorem isPairTable_swDic (n : Int) (records : List Aggregated) :
    IsPairTable (tablesOf n ⟨[], []⟩ records).swDic := by
  refine ⟨keys_collect_nodup SwFlow.keepsKey_add _ List.nodup_nil, ?_⟩
  intro entry member
  have inside : entry.pair ∈ keys (tablesOf n ⟨[], []⟩ records).swDic := List.mem_map_of_mem member
  rw [tablesOf, mem_keys_collect SwFlow.keepsKey_add, List.mem_map] at inside
  obtain ⟨record, crosses, same⟩ := inside
  rw [crossing, List.mem_filter, decide_eq_true_eq] at crosses
  rw [← same]
  exact (sortedPair_lt_iff _ _).mpr crosses.2

theorem IsPairTable.perm {entries others : List SwFlow} (table : IsPairTable entries)
    (perm : others.Perm entries) : IsPairTable others :=
  ⟨(perm.map key).nodup_iff.mpr table.nodup,
    fun entry member => table.sorted entry (perm.mem_iff.mp member)⟩

theorem affinityAt_perm {entries others : List SwFlow} (table : IsPairTable entries)
    (perm : others.Perm entries) : affinityAt others = affinityAt entries := by
  funext a b
  rw [affinityAt, lookup_perm (table.perm perm).nodup perm, affinityAt]

def hostSwitches (hosts : List HostSw) : Finset Int := (hosts.map HostSw.sw).toFinset

theorem mem_hostSwitches {v : Int} :
    v ∈ hostSwitches (tablesOf n ⟨[], []⟩ records).hostDic ↔
      ∃ host ∈ hostsOf records, v = swOf n host := by
  have assigned : Assigned n (tablesOf n ⟨[], []⟩ records).hostDic :=
    Assigned.collect (fun entry member => by cases member) _
  have listed : ∀ host, host ∈ keys (tablesOf n ⟨[], []⟩ records).hostDic ↔
      host ∈ hostsOf records := by
    intro host
    refine (mem_keys_collect HostSw.keepsKey_assign _ host).trans ?_
    rw [List.map_id]
  rw [hostSwitches, List.mem_toFinset, List.mem_map]
  constructor
  · rintro ⟨entry, member, rfl⟩
    exact ⟨entry.host, (listed _).mp (List.mem_map_of_mem member), assigned entry member⟩
  · rintro ⟨host, member, rfl⟩
    obtain ⟨entry, found, rfl⟩ := List.mem_map.mp ((listed host).mpr member)
    exact ⟨entry, found, assigned entry found⟩

theorem mem_hostSwitches_of_affinity {v m : Int}
    (some_ : (affinityAt (tablesOf n ⟨[], []⟩ records).swDic v m).isSome) :
    v ∈ hostSwitches (tablesOf n ⟨[], []⟩ records).hostDic := by
  rw [affinityAt, Option.isSome_map, lookup_isSome_iff, tablesOf,
    mem_keys_collect SwFlow.keepsKey_add, List.mem_map] at some_
  obtain ⟨record, crosses, same⟩ := some_
  rw [crossing, List.mem_filter, decide_eq_true_eq] at crosses
  obtain ⟨member, differ⟩ := crosses
  have hosts : ∀ host, host = record.src ∨ host = record.dst → host ∈ hostsOf records := by
    intro host isEnd
    have other : record.src ≠ record.dst := fun equal => differ (by rw [equal])
    simp only [hostsOf, List.mem_flatMap, List.mem_filter, decide_eq_true_eq, List.mem_cons,
      List.not_mem_nil, or_false]
    exact ⟨record, ⟨member, other⟩, isEnd⟩
  have sorted := (sortedPair_lt_iff _ _).mpr differ
  have ends := (sortedPair_eq_iff sorted).mp same.symm
  have isEnd : v = swOf n record.src ∨ v = swOf n record.dst := by
    have pair : record.swPair n = (swOf n record.src, swOf n record.dst) ∨
        record.swPair n = (swOf n record.dst, swOf n record.src) := by
      rw [Aggregated.swPair, sortedPair]
      split
      · exact .inl rfl
      · exact .inr rfl
    rw [show sortedPair (swOf n record.src) (swOf n record.dst) = record.swPair n from rfl] at ends
    rcases pair with pair | pair
    · rw [pair] at ends
      rcases ends with ⟨first, -⟩ | ⟨second, -⟩
      · exact .inl first
      · exact .inr second
    · rw [pair] at ends
      rcases ends with ⟨first, -⟩ | ⟨second, -⟩
      · exact .inr first
      · exact .inl second
  rw [mem_hostSwitches]
  rcases isEnd with src | dst
  · exact ⟨record.src, hosts _ (.inl rfl), src⟩
  · exact ⟨record.dst, hosts _ (.inr rfl), dst⟩

theorem one_le_of_mem_hostSwitches (positive : 1 ≤ n) {v : Int}
    (member : v ∈ hostSwitches (tablesOf n ⟨[], []⟩ records).hostDic) : 1 ≤ v := by
  obtain ⟨host, -, rfl⟩ := mem_hostSwitches.mp member
  have low := Int.emod_nonneg host (show n ≠ 0 by omega)
  rw [swOf_eq positive]
  omega

end Written

/-- METIS reads the affinity graph of the records exactly if every switch with a host has flows to
another switch, these switches are numbered from 1 without gaps, and the graph library hands out the
nodes in an order in which the node at each position has the neighbours of the switch with this
number. -/
theorem isMetisGraph_kcut_iff {numHost : Int} (positive : 1 ≤ numHost) {lines : List Chars}
    {records : List Aggregated}
    (read : List.Forall₂ (fun line record => readAggregated line = some record) lines records)
    (hostOrder : DictOrder HostSw) (swOrder : DictOrder SwFlow) (nodeOrder : DictOrder NodeAdj)
    (nbrOrder : DictOrder Neighbour) :
    IsMetisGraph (affinityAt (tablesOf (numSw numHost) ⟨[], []⟩ records).swDic)
        (kcut nodeOrder nbrOrder
          (genSWAffinity hostOrder swOrder lines numHost).1.affinity).1 ↔
      Aligned (keys (visited nodeOrder
          (swOrder.visit (tablesOf (numSw numHost) ⟨[], []⟩ records).swDic)))
        (tablesOf (numSw numHost) ⟨[], []⟩ records).swDic
        (hostSwitches (tablesOf (numSw numHost) ⟨[], []⟩ records).hostDic) := by
  have inTable := isPairTable_swDic (numSw numHost) records
  have inside := fun v m => @mem_hostSwitches_of_affinity (numSw numHost) records v m
  have low := fun v => @one_le_of_mem_hostSwitches _ records (numSw_pos positive) v
  have perm := swOrder.perm (tablesOf (numSw numHost) ⟨[], []⟩ records).swDic
  have nodes : switchCount (tablesOf (numSw numHost) ⟨[], []⟩ records).hostDic =
      (hostSwitches (tablesOf (numSw numHost) ⟨[], []⟩ records).hostDic).card := rfl
  rw [genSWAffinity_eq positive read, kcut_affinity, nodes, ← perm.length_eq]
  generalize hostSwitches (tablesOf (numSw numHost) ⟨[], []⟩ records).hostDic = switches at *
  generalize (tablesOf (numSw numHost) ⟨[], []⟩ records).swDic = dic at *
  have same := affinityAt_perm inTable perm
  rw [← same] at inside ⊢
  have graph := @isGraph_iff _ nodeOrder nbrOrder _ (inTable.perm perm) inside low
  constructor
  · rintro ⟨file, reads, isGraph⟩
    rw [readMetis_file] at reads
    obtain rfl := Option.some.inj reads
    obtain ⟨linked, bounded, order⟩ := graph.mp isGraph
    exact ⟨by rwa [← same], bounded, by rwa [← same]⟩
  · rintro ⟨linked, bounded, order⟩
    refine ⟨_, readMetis_file _ _ _, graph.mpr ⟨?_, bounded, ?_⟩⟩
    · rwa [same]
    · rwa [same]

/-- Two switches with flows between them. -/
theorem isMetisGraph_kcut_two :
    IsMetisGraph (affinityAt (tablesOf (numSw 48) ⟨[], []⟩ [⟨1, 2, 5⟩]).swDic)
      (kcut (.inserted _) (.inserted _) (genSWAffinity (.inserted _) (.inserted _)
        ["1 2 5 0\n".toList] 48).1.affinity).1 := by
  have swDic : (tablesOf (numSw 48) ⟨[], []⟩ [⟨1, 2, 5⟩]).swDic = [⟨(1, 2), 5⟩] := by
    decide +kernel
  have switches : hostSwitches (tablesOf (numSw 48) ⟨[], []⟩ [⟨1, 2, 5⟩]).hostDic = {1, 2} := by
    decide +kernel
  refine (isMetisGraph_kcut_iff (by decide) (.cons (by decide) .nil) _ _ _ _).mpr ?_
  rw [swDic, switches]
  refine ⟨?_, by decide, ?_⟩
  · rintro v member
    rcases Finset.mem_insert.mp member with rfl | member
    · exact ⟨2, by decide⟩
    · rw [Finset.mem_singleton.mp member]
      exact ⟨1, by decide⟩
  · intro i v found m
    match i with
    | 0 => rw [← Option.some.inj (show some 1 = some v from found)]; rfl
    | 1 => rw [← Option.some.inj (show some 2 = some v from found)]; rfl
    | i + 2 => cases found

/-- Switch 1 has only hosts that talk to each other: the first line counts it, but there is no line
for it, and the two lines that are there are those of the switches 2 and 3. -/
theorem not_isMetisGraph_kcut_silent :
    ¬IsMetisGraph (affinityAt (tablesOf (numSw 72) ⟨[], []⟩ [⟨1, 2, 5⟩, ⟨3, 6, 1⟩]).swDic)
      (kcut (.inserted _) (.inserted _) (genSWAffinity (.inserted _) (.inserted _)
        ["1 2 5 0\n".toList, "3 6 1 0\n".toList] 72).1.affinity).1 := by
  have written : (kcut (.inserted _) (.inserted _) (genSWAffinity (.inserted _) (.inserted _)
      ["1 2 5 0\n".toList, "3 6 1 0\n".toList] 72).1.affinity).1 =
      metisHead 3 1 :: [[(3, 5)], [(2, 5)]].map metisRow := by decide +kernel
  rintro ⟨file, reads, isGraph⟩
  rw [written, readMetis_file] at reads
  obtain rfl := Option.some.inj reads
  exact absurd isGraph.nodes (by decide)

end Sim
end LazyCtrl
