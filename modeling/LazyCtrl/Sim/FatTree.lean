import LazyCtrl.Lib.Adjacency
import LazyCtrl.Sim.DataCenter

/-!
# Fat trees

`FatTree(k)` builds a topology of three layers.  The switches of a layer are numbered one after the
other, and the loops over pods, switches and ports compute positions in the lists of the layers: the
aggregation switch `i` of pod `p` is at position `i + p * (k / 2)`, and so are its edge switches,
while the core switches are shared by the pods.  For even `k` the positions are the digits of a
number in base `k / 2`, which is why no edge is added twice and none is missing.
-/

namespace LazyCtrl
namespace Sim

open Adjacency

inductive SwitchType where
  | core
  | agg
  | edge
  deriving DecidableEq, Repr

structure Network extends Topo where
  graph : Adjacency.Graph Int SwitchType

namespace FatTree

variable (k : Nat)

def coreSWList : List Int := (List.range (k ^ 2 / 4)).map Int.ofNat

def aggSWList : List Int :=
  (List.range (k ^ 2 / 2)).map fun i : Nat => (i : Int) + (coreSWList k).length

def edgeSWList : List Int :=
  (List.range (k ^ 2 / 2)).map fun i : Nat =>
    (i : Int) + (coreSWList k).length + (aggSWList k).length

def nodes : Adjacency.Graph Int SwitchType :=
  ((Graph.empty.addNodes (coreSWList k) .core).addNodes (aggSWList k) .agg).addNodes
    (edgeSWList k) .edge

def linkCore (p i : Nat) (graph : Adjacency.Graph Int SwitchType) (j : Nat) :
    Option (Adjacency.Graph Int SwitchType) := do
  let agg ← (aggSWList k)[i + p * (k / 2)]?
  let core ← (coreSWList k)[j + i * (k / 2)]?
  some (graph.addEdge (agg, core))

def linkEdge (p i : Nat) (graph : Adjacency.Graph Int SwitchType) (j : Nat) :
    Option (Adjacency.Graph Int SwitchType) := do
  let agg ← (aggSWList k)[i + p * (k / 2)]?
  let edge ← (edgeSWList k)[j + p * (k / 2)]?
  some (graph.addEdge (agg, edge))

def linkAgg (p : Nat) (graph : Adjacency.Graph Int SwitchType) (i : Nat) :
    Option (Adjacency.Graph Int SwitchType) := do
  let graph ← (List.range (k / 2)).foldlM (linkCore k p i) graph
  (List.range (k / 2)).foldlM (linkEdge k p i) graph

def linkPod (graph : Adjacency.Graph Int SwitchType) (p : Nat) :
    Option (Adjacency.Graph Int SwitchType) :=
  (List.range (k / 2)).foldlM (linkAgg k p) graph

end FatTree

open FatTree in
/-- `FatTree(k)`; there is no result if an index is out of range. -/
def fatTree (k : Nat) : Option Network := do
  let graph ← (List.range k).foldlM (linkPod k) (nodes k)
  some
    { coreSWList := coreSWList k
      aggSWList := aggSWList k
      edgeSWList := edgeSWList k
      numPort := k
      graph }

def pod (switches : List Int) (half p : Nat) : List Int :=
  (List.range half).filterMap fun i => switches[i + p * half]?

structure IsFatTree (k : Nat) (net : Network) : Prop where
  core : net.coreSWList.length = k ^ 2 / 4
  agg : net.aggSWList.length = k ^ 2 / 2
  edge : net.edgeSWList.length = k ^ 2 / 2
  nodup : (net.coreSWList ++ net.aggSWList ++ net.edgeSWList).Nodup
  names : ∀ v, v ∈ net.graph.names ↔ v ∈ net.coreSWList ++ net.aggSWList ++ net.edgeSWList
  types : (∀ v ∈ net.coreSWList, net.graph.attrAt v = some .core) ∧
    (∀ v ∈ net.aggSWList, net.graph.attrAt v = some .agg) ∧
    ∀ v ∈ net.edgeSWList, net.graph.attrAt v = some .edge
  loopless : ∀ v, v ∉ net.graph.neighbours v
  edges : net.graph.simple.edgeSet.ncard = k ^ 3 / 2
  aggPod : ∀ a ∈ net.aggSWList, ∃! p, p < k ∧ a ∈ pod net.aggSWList (k / 2) p
  edgePod : ∀ e ∈ net.edgeSWList, ∃! p, p < k ∧ e ∈ pod net.edgeSWList (k / 2) p
  coreLinks : ∀ c ∈ net.coreSWList,
    (∀ v, net.graph.simple.Adj c v → v ∈ net.aggSWList) ∧
      ∀ p < k, ∃! a, a ∈ pod net.aggSWList (k / 2) p ∧ net.graph.simple.Adj c a
  /-- An aggregation switch has `k / 2` core and `k / 2` edge neighbours, and no others. -/
  aggLinks : ∀ a ∈ net.aggSWList,
    {v | v ∈ net.coreSWList ∧ net.graph.simple.Adj a v}.ncard = k / 2 ∧
      {v | v ∈ net.edgeSWList ∧ net.graph.simple.Adj a v}.ncard = k / 2 ∧
      ∀ v, net.graph.simple.Adj a v → v ∈ net.coreSWList ∨ v ∈ net.edgeSWList
  edgeLinks : ∀ p < k, ∀ e ∈ pod net.edgeSWList (k / 2) p,
    {v | net.graph.simple.Adj e v}.ncard = k / 2 ∧
      ∀ v, net.graph.simple.Adj e v → v ∈ pod net.aggSWList (k / 2) p
  paths : ∀ a ∈ net.edgeSWList, ∀ b ∈ net.edgeSWList,
    ∃ path : net.graph.simple.Path a b, path.1.length ≤ 4

namespace FatTree

section Positions

variable {h i i' p p' n : Nat}

theorem position_lt (low : i < h) (high : p < n) : i + p * h < n * h := by
  have next : (p + 1) * h ≤ n * h := Nat.mul_le_mul_right h high
  rw [Nat.add_mul, Nat.one_mul] at next
  omega

theorem position_inj (low : i < h) (low' : i' < h) (same : i + p * h = i' + p' * h) :
    i = i' ∧ p = p' := by
  have digit : i = i' := by
    rw [← Nat.mod_eq_of_lt low, ← Nat.mod_eq_of_lt low', ← Nat.add_mul_mod_self_right i p,
      ← Nat.add_mul_mod_self_right i' p', same]
  refine ⟨digit, Nat.eq_of_mul_eq_mul_right (show 0 < h by omega) ?_⟩
  omega

theorem exists_position (positive : 0 < h) {x : Nat} (inside : x < n * h) :
    ∃ i p, i < h ∧ p < n ∧ x = i + p * h :=
  ⟨x % h, x / h, Nat.mod_lt x positive, Nat.div_lt_of_lt_mul (by rwa [Nat.mul_comm]),
    (by rw [Nat.mul_comm, Nat.mod_add_div])⟩

end Positions

section Switches

variable (h : Nat)

def coreAt (i j : Nat) : Int := ((j + i * h : Nat) : Int)

def aggAt (p i : Nat) : Int := ((i + p * h + h * h : Nat) : Int)

def edgeAt (p j : Nat) : Int := ((j + p * h + 3 * (h * h) : Nat) : Int)

theorem quarter : (2 * h) ^ 2 / 4 = h * h := by
  rw [show (2 * h) ^ 2 = 4 * (h * h) by ring, Nat.mul_div_cancel_left _ (by decide)]

theorem half_square : (2 * h) ^ 2 / 2 = 2 * h * h := by
  rw [show (2 * h) ^ 2 = 2 * (2 * h * h) by ring, Nat.mul_div_cancel_left _ (by decide)]

theorem half_cube : (2 * h) ^ 3 / 2 = 2 * h * (h * (h + h)) := by
  rw [show (2 * h) ^ 3 = 2 * (2 * h * (h * (h + h))) by ring,
    Nat.mul_div_cancel_left _ (by decide)]

theorem half : 2 * h / 2 = h := Nat.mul_div_cancel_left h (by decide)

theorem coreSWList_eq : coreSWList (2 * h) = (List.range (h * h)).map fun x : Nat => (x : Int) := by
  rw [coreSWList, quarter]
  rfl

theorem aggSWList_eq :
    aggSWList (2 * h) = (List.range (2 * h * h)).map fun x : Nat => ((x + h * h : Nat) : Int) := by
  rw [aggSWList, half_square, coreSWList_eq, List.length_map, List.length_range]
  rfl

theorem edgeSWList_eq :
    edgeSWList (2 * h) = (List.range (2 * h * h)).map fun x : Nat => ((x + 3 * (h * h) : Nat) : Int) := by
  rw [edgeSWList, half_square, aggSWList_eq, coreSWList_eq, List.length_map, List.length_map,
    List.length_range, List.length_range]
  refine List.map_congr_left fun x _ => ?_
  push_cast
  ring

end Switches

structure Layer (h n ofs : Nat) (switches : List Int) (switchAt : Nat → Nat → Int) : Prop where
  switches_eq : switches = (List.range (n * h)).map fun x : Nat => ((x + ofs : Nat) : Int)
  switchAt_eq : ∀ p i, switchAt p i = ((i + p * h + ofs : Nat) : Int)

theorem coreLayer {h : Nat} : Layer h h 0 (coreSWList (2 * h)) (coreAt h) :=
  ⟨coreSWList_eq h, fun _ _ => rfl⟩

theorem aggLayer {h : Nat} : Layer h (2 * h) (h * h) (aggSWList (2 * h)) (aggAt h) :=
  ⟨aggSWList_eq h, fun _ _ => rfl⟩

theorem edgeLayer {h : Nat} : Layer h (2 * h) (3 * (h * h)) (edgeSWList (2 * h)) (edgeAt h) :=
  ⟨edgeSWList_eq h, fun _ _ => rfl⟩

namespace Layer

variable {h n ofs i i' p p' : Nat} {switches : List Int} {switchAt : Nat → Nat → Int}
  (layer : Layer h n ofs switches switchAt)

include layer

theorem getElem (inTree : p < n) (inside : i < h) :
    switches[i + p * h]? = some (switchAt p i) := by
  rw [layer.switches_eq, List.getElem?_map, List.getElem?_range (position_lt inside inTree),
    layer.switchAt_eq]
  rfl

theorem mem_iff (positive : 0 < h) (v : Int) :
    v ∈ switches ↔ ∃ p < n, ∃ i < h, v = switchAt p i := by
  simp only [layer.switches_eq, layer.switchAt_eq, List.mem_map]
  constructor
  · rintro ⟨x, inside, rfl⟩
    obtain ⟨i, p, second, first, rfl⟩ := exists_position positive (List.mem_range.mp inside)
    exact ⟨p, first, i, second, rfl⟩
  · rintro ⟨p, first, i, second, rfl⟩
    exact ⟨_, List.mem_range.mpr (position_lt second first), rfl⟩

theorem inj (inside : i < h) (inside' : i' < h) (same : switchAt p i = switchAt p' i') :
    p = p' ∧ i = i' := by
  rw [layer.switchAt_eq, layer.switchAt_eq] at same
  exact (position_inj inside inside' (Nat.add_right_cancel (Int.ofNat_inj.mp same))).symm

theorem mem_pod_iff (inTree : p < n) (v : Int) :
    v ∈ pod switches h p ↔ ∃ i < h, v = switchAt p i := by
  rw [pod, List.mem_filterMap]
  constructor
  · rintro ⟨i, inside, found⟩
    rw [layer.getElem inTree (List.mem_range.mp inside)] at found
    exact ⟨i, List.mem_range.mp inside, (Option.some.inj found).symm⟩
  · rintro ⟨i, inside, rfl⟩
    exact ⟨i, List.mem_range.mpr inside, layer.getElem inTree inside⟩

theorem existsUnique_pod (positive : 0 < h) {v : Int} (member : v ∈ switches) :
    ∃! p, p < n ∧ v ∈ pod switches h p := by
  obtain ⟨p, inTree, i, inside, rfl⟩ := (layer.mem_iff positive v).mp member
  refine ⟨p, ⟨inTree, (layer.mem_pod_iff inTree _).mpr ⟨i, inside, rfl⟩⟩, ?_⟩
  rintro p' ⟨inTree', there⟩
  obtain ⟨i', inside', same⟩ := (layer.mem_pod_iff inTree' _).mp there
  exact (layer.inj inside inside' same).1.symm

end Layer

section Edges

variable (h : Nat)

def aggEdges (p i : Nat) : List (Int × Int) :=
  (List.range h).map (fun j => (aggAt h p i, coreAt h i j)) ++
    (List.range h).map fun j => (aggAt h p i, edgeAt h p j)

def podEdges (p : Nat) : List (Int × Int) := (List.range h).flatMap (aggEdges h p)

def treeEdges : List (Int × Int) := (List.range (2 * h)).flatMap (podEdges h)

theorem foldlM_addEdges {elements : List Nat} {edges : Nat → List (Int × Int)}
    {step : Adjacency.Graph Int SwitchType → Nat → Option (Adjacency.Graph Int SwitchType)}
    (steps : ∀ x ∈ elements, ∀ graph, step graph x = some (graph.addEdges (edges x)))
    (graph : Adjacency.Graph Int SwitchType) :
    elements.foldlM step graph = some (graph.addEdges (elements.flatMap edges)) := by
  induction elements generalizing graph with
  | nil => rfl
  | cons x elements ih =>
    obtain ⟨first, later⟩ := List.forall_mem_cons.mp steps
    rw [List.foldlM_cons, first, Option.bind_eq_bind, Option.bind_some, ih later,
      List.flatMap_cons, Graph.addEdges, Graph.addEdges, Graph.addEdges, List.foldl_append]

variable {h}

theorem linkAgg_eq {p i : Nat} (pod : p < 2 * h) (inside : i < h)
    (graph : Adjacency.Graph Int SwitchType) :
    linkAgg (2 * h) p graph i = some (graph.addEdges (aggEdges h p i)) := by
  have core : ∀ j ∈ List.range h, ∀ graph, linkCore (2 * h) p i graph j =
      some (graph.addEdges [(aggAt h p i, coreAt h i j)]) := by
    intro j member graph
    rw [linkCore, half, aggLayer.getElem pod inside, coreLayer.getElem inside (List.mem_range.mp member)]
    rfl
  have edge : ∀ j ∈ List.range h, ∀ graph, linkEdge (2 * h) p i graph j =
      some (graph.addEdges [(aggAt h p i, edgeAt h p j)]) := by
    intro j member graph
    rw [linkEdge, half, aggLayer.getElem pod inside, edgeLayer.getElem pod (List.mem_range.mp member)]
    rfl
  rw [linkAgg, half, foldlM_addEdges core, Option.bind_eq_bind, Option.bind_some,
    foldlM_addEdges edge, aggEdges, Graph.addEdges, Graph.addEdges, Graph.addEdges,
    List.foldl_append, List.map_eq_flatMap, List.map_eq_flatMap]

theorem linkPod_eq {p : Nat} (pod : p < 2 * h) (graph : Adjacency.Graph Int SwitchType) :
    linkPod (2 * h) graph p = some (graph.addEdges (podEdges h p)) := by
  rw [linkPod, half]
  exact foldlM_addEdges (fun i member => linkAgg_eq pod (List.mem_range.mp member)) graph

theorem fatTree_eq : fatTree (2 * h) = some
    { coreSWList := coreSWList (2 * h)
      aggSWList := aggSWList (2 * h)
      edgeSWList := edgeSWList (2 * h)
      numPort := (2 * h : Nat)
      graph := (nodes (2 * h)).addEdges (treeEdges h) } := by
  have loops := foldlM_addEdges (fun p member => @linkPod_eq h p (List.mem_range.mp member))
    (nodes (2 * h))
  rw [fatTree, loops]
  rfl

theorem mem_treeEdges_iff (v w : Int) :
    (v, w) ∈ treeEdges h ↔ ∃ p < 2 * h, ∃ i < h, ∃ j < h,
      v = aggAt h p i ∧ (w = coreAt h i j ∨ w = edgeAt h p j) := by
  simp only [treeEdges, podEdges, aggEdges, List.mem_flatMap, List.mem_append, List.mem_map,
    List.mem_range, Prod.mk.injEq]
  constructor
  · rintro ⟨p, pod, i, inside, ⟨j, port, rfl, rfl⟩ | ⟨j, port, rfl, rfl⟩⟩
    · exact ⟨p, pod, i, inside, j, port, rfl, .inl rfl⟩
    · exact ⟨p, pod, i, inside, j, port, rfl, .inr rfl⟩
  · rintro ⟨p, pod, i, inside, j, port, rfl, rfl | rfl⟩
    · exact ⟨p, pod, i, inside, .inl ⟨j, port, rfl, rfl⟩⟩
    · exact ⟨p, pod, i, inside, .inr ⟨j, port, rfl, rfl⟩⟩

end Edges

section Layers

variable {h i i' j j' p p' : Nat}

theorem coreAt_lt (inside : i < h) (port : j < h) : coreAt h i j < (h * h : Nat) :=
  Int.ofNat_lt.mpr (position_lt port inside)

theorem le_aggAt (h p i : Nat) : ((h * h : Nat) : Int) ≤ aggAt h p i :=
  Int.ofNat_le.mpr (Nat.le_add_left _ _)

theorem aggAt_lt (pod : p < 2 * h) (inside : i < h) : aggAt h p i < (3 * (h * h) : Nat) := by
  have bound := position_lt inside pod
  rw [Nat.mul_assoc] at bound
  refine Int.ofNat_lt.mpr ?_
  omega

theorem le_edgeAt (h p j : Nat) : ((3 * (h * h) : Nat) : Int) ≤ edgeAt h p j :=
  Int.ofNat_le.mpr (Nat.le_add_left _ _)

theorem coreAt_ne_aggAt (inside : i < h) (port : j < h) (p i' : Nat) :
    coreAt h i j ≠ aggAt h p i' :=
  ((coreAt_lt inside port).trans_le (le_aggAt h p i')).ne

theorem aggAt_ne_edgeAt (pod : p < 2 * h) (inside : i < h) (p' j : Nat) :
    aggAt h p i ≠ edgeAt h p' j :=
  ((aggAt_lt pod inside).trans_le (le_edgeAt h p' j)).ne

theorem coreAt_ne_edgeAt (inside : i < h) (port : j < h) (p j' : Nat) :
    coreAt h i j ≠ edgeAt h p j' := by
  have low := coreAt_lt inside port
  have high := le_edgeAt h p j'
  omega

theorem nodup_aggEdges (inside : i < h) (p : Nat) : (aggEdges h p i).Nodup := by
  rw [aggEdges, List.nodup_append]
  refine ⟨List.Nodup.map_on ?_ List.nodup_range, List.Nodup.map_on ?_ List.nodup_range, ?_⟩
  · intro j port j' port' same
    exact (coreLayer.inj (List.mem_range.mp port) (List.mem_range.mp port') (Prod.mk.inj same).2).2
  · intro j port j' port' same
    exact (edgeLayer.inj (List.mem_range.mp port) (List.mem_range.mp port') (Prod.mk.inj same).2).2
  · intro first firstMember second secondMember same
    obtain ⟨j, port, rfl⟩ := List.mem_map.mp firstMember
    obtain ⟨j', -, rfl⟩ := List.mem_map.mp secondMember
    exact coreAt_ne_edgeAt inside (List.mem_range.mp port) p j' (Prod.mk.inj same).2

theorem fst_of_mem_aggEdges {edge : Int × Int} (member : edge ∈ aggEdges h p i) :
    edge.1 = aggAt h p i := by
  rw [aggEdges, List.mem_append, List.mem_map, List.mem_map] at member
  rcases member with ⟨j, -, rfl⟩ | ⟨j, -, rfl⟩
  · rfl
  · rfl

theorem nodup_podEdges (p : Nat) : (podEdges h p).Nodup := by
  rw [podEdges, List.nodup_flatMap]
  refine ⟨fun i inside => nodup_aggEdges (List.mem_range.mp inside) p,
    List.nodup_range.imp_of_mem fun first second differ edge here there => differ ?_⟩
  have same := (fst_of_mem_aggEdges here).symm.trans (fst_of_mem_aggEdges there)
  exact (aggLayer.inj (List.mem_range.mp first) (List.mem_range.mp second) same).2

theorem nodup_treeEdges (h : Nat) : (treeEdges h).Nodup := by
  rw [treeEdges, List.nodup_flatMap]
  refine ⟨fun p _ => nodup_podEdges p,
    List.nodup_range.imp fun differ edge here there => differ ?_⟩
  obtain ⟨i, inside, first⟩ := List.mem_flatMap.mp here
  obtain ⟨i', inside', second⟩ := List.mem_flatMap.mp there
  have same := (fst_of_mem_aggEdges first).symm.trans (fst_of_mem_aggEdges second)
  exact (aggLayer.inj (List.mem_range.mp inside) (List.mem_range.mp inside') same).1

theorem length_flatMap_range {n m : Nat} {parts : Nat → List (Int × Int)}
    (lengths : ∀ x, (parts x).length = m) : ((List.range n).flatMap parts).length = n * m := by
  induction n with
  | zero => simp
  | succ n ih =>
    rw [List.range_succ, List.flatMap_append, List.length_append, ih, List.flatMap_singleton,
      lengths, Nat.succ_mul]

theorem length_treeEdges (h : Nat) : (treeEdges h).length = 2 * h * (h * (h + h)) := by
  have agg : ∀ p i, (aggEdges h p i).length = h + h := by
    intro p i
    rw [aggEdges, List.length_append, List.length_map, List.length_map, List.length_range]
  exact length_flatMap_range fun p => length_flatMap_range (agg p)

end Layers

section Neighbours

variable {h i j p : Nat}

abbrev tree (h : Nat) : Adjacency.Graph Int SwitchType := (nodes (2 * h)).addEdges (treeEdges h)

theorem mem_neighbours_iff (v w : Int) :
    w ∈ (tree h).neighbours v ↔ (v, w) ∈ treeEdges h ∨ (w, v) ∈ treeEdges h := by
  rw [Graph.mem_neighbours_addEdges, nodes, Graph.neighbours_addNodes, Graph.neighbours_addNodes,
    Graph.neighbours_addNodes]
  exact or_iff_right (List.not_mem_nil)

theorem ne_of_mem_treeEdges {v w : Int} (member : (v, w) ∈ treeEdges h) : v ≠ w := by
  obtain ⟨p, pod, i, inside, j, port, rfl, rfl | rfl⟩ := (mem_treeEdges_iff v w).mp member
  · exact (coreAt_ne_aggAt inside port p i).symm
  · exact aggAt_ne_edgeAt pod inside p j

theorem adj_iff (v w : Int) :
    (tree h).simple.Adj v w ↔ (v, w) ∈ treeEdges h ∨ (w, v) ∈ treeEdges h := by
  rw [← mem_neighbours_iff]
  refine ⟨fun adj => adj.2, fun member => ⟨?_, member⟩⟩
  rcases (mem_neighbours_iff v w).mp member with forth | back
  · exact ne_of_mem_treeEdges forth
  · exact (ne_of_mem_treeEdges back).symm

theorem adj_coreAt_iff (inside : i < h) (port : j < h) (v : Int) :
    (tree h).simple.Adj (coreAt h i j) v ↔ ∃ p < 2 * h, v = aggAt h p i := by
  rw [adj_iff, mem_treeEdges_iff, mem_treeEdges_iff]
  constructor
  · rintro (⟨p, -, i', -, j', -, core, -⟩ | ⟨p, pod, i', -, j', port', rfl, core | edge⟩)
    · exact absurd core (coreAt_ne_aggAt inside port p i')
    · obtain ⟨rfl, -⟩ := coreLayer.inj port port' core
      exact ⟨p, pod, rfl⟩
    · exact absurd edge (coreAt_ne_edgeAt inside port p j')
  · rintro ⟨p, pod, rfl⟩
    exact .inr ⟨p, pod, i, inside, j, port, rfl, .inl rfl⟩

theorem adj_aggAt_iff (pod : p < 2 * h) (inside : i < h) (v : Int) :
    (tree h).simple.Adj (aggAt h p i) v ↔
      (∃ j < h, v = coreAt h i j) ∨ ∃ j < h, v = edgeAt h p j := by
  rw [adj_iff, mem_treeEdges_iff, mem_treeEdges_iff]
  constructor
  · rintro (⟨p', -, i', inside', j, port, agg, target⟩ |
      ⟨p', -, i', inside', j, port, rfl, core | edge⟩)
    · obtain ⟨rfl, rfl⟩ := aggLayer.inj inside inside' agg
      exact target.imp (fun core => ⟨j, port, core⟩) fun edge => ⟨j, port, edge⟩
    · exact absurd core.symm (coreAt_ne_aggAt inside' port p i)
    · exact absurd edge (aggAt_ne_edgeAt pod inside p' j)
  · rintro (⟨j, port, rfl⟩ | ⟨j, port, rfl⟩)
    · exact .inl ⟨p, pod, i, inside, j, port, rfl, .inl rfl⟩
    · exact .inl ⟨p, pod, i, inside, j, port, rfl, .inr rfl⟩

theorem adj_edgeAt_iff (pod : p < 2 * h) (port : j < h) (v : Int) :
    (tree h).simple.Adj (edgeAt h p j) v ↔ ∃ i < h, v = aggAt h p i := by
  rw [adj_iff, mem_treeEdges_iff, mem_treeEdges_iff]
  constructor
  · rintro (⟨p', pod', i', inside', j', -, agg, -⟩ |
      ⟨p', -, i', inside', j', port', rfl, core | edge⟩)
    · exact absurd agg.symm (aggAt_ne_edgeAt pod' inside' p j)
    · exact absurd core.symm (coreAt_ne_edgeAt inside' port' p j)
    · obtain ⟨rfl, -⟩ := edgeLayer.inj port port' edge
      exact ⟨i', inside', rfl⟩
  · rintro ⟨i, inside, rfl⟩
    exact .inr ⟨p, pod, i, inside, j, port, rfl, .inr rfl⟩

theorem ncard_positions {switches : Set Int} {switchAt : Nat → Int}
    (mem : ∀ v, v ∈ switches ↔ ∃ i < h, v = switchAt i)
    (inj : ∀ {i i'}, i < h → i' < h → switchAt i = switchAt i' → i = i') :
    switches.ncard = h := by
  have image : switches = ((Finset.range h).image switchAt : Finset Int) := by
    ext v
    rw [mem, Finset.mem_coe, Finset.mem_image]
    simp only [Finset.mem_range, eq_comm]
  rw [image, Set.ncard_coe_finset, Finset.card_image_of_injOn, Finset.card_range]
  intro i inside i' inside' same
  exact inj (Finset.mem_range.mp inside) (Finset.mem_range.mp inside') same

end Neighbours

section Topology

variable {h p : Nat}

theorem layers_eq (h : Nat) : coreSWList (2 * h) ++ aggSWList (2 * h) ++ edgeSWList (2 * h) =
    (List.range (h * h + 2 * h * h + 2 * h * h)).map fun x : Nat => (x : Int) := by
  rw [coreSWList_eq, aggSWList_eq, edgeSWList_eq, List.range_add, List.range_add, List.map_append,
    List.map_append, List.map_map, List.map_map]
  congr 1
  · congr 1
    refine List.map_congr_left fun x _ => ?_
    simp [Int.add_comm]
  · refine List.map_congr_left fun x _ => ?_
    simp only [Function.comp_apply]
    push_cast
    ring

variable (positive : 0 < h)

include positive

theorem mem_names_tree (v : Int) : v ∈ (tree h).names ↔
    v ∈ coreSWList (2 * h) ++ aggSWList (2 * h) ++ edgeSWList (2 * h) := by
  have named : ∀ v, v ∈ (nodes (2 * h)).names ↔
      v ∈ coreSWList (2 * h) ++ aggSWList (2 * h) ++ edgeSWList (2 * h) := by
    intro v
    rw [nodes, Graph.mem_names_addNodes, Graph.mem_names_addNodes, Graph.mem_names_addNodes,
      List.mem_append, List.mem_append]
    exact or_congr_left (or_congr_left (or_iff_right List.not_mem_nil))
  rw [← named]
  refine Graph.mem_names_addEdges ?_ v
  rintro ⟨v, w⟩ member
  obtain ⟨p, inTree, i, inside, j, port, rfl, target⟩ := (mem_treeEdges_iff v w).mp member
  rw [named, named]
  simp only [List.mem_append]
  refine ⟨.inl (.inr ((aggLayer.mem_iff positive _).mpr ⟨p, inTree, i, inside, rfl⟩)), ?_⟩
  rcases target with rfl | rfl
  · exact .inl (.inl ((coreLayer.mem_iff positive _).mpr ⟨i, inside, j, port, rfl⟩))
  · exact .inr ((edgeLayer.mem_iff positive _).mpr ⟨p, inTree, j, port, rfl⟩)

theorem attrAt_tree :
    (∀ v ∈ coreSWList (2 * h), (tree h).attrAt v = some .core) ∧
      (∀ v ∈ aggSWList (2 * h), (tree h).attrAt v = some .agg) ∧
      ∀ v ∈ edgeSWList (2 * h), (tree h).attrAt v = some .edge := by
  have layers : ∀ v, (tree h).attrAt v = if v ∈ edgeSWList (2 * h) then some .edge
      else if v ∈ aggSWList (2 * h) then some .agg
      else if v ∈ coreSWList (2 * h) then some .core else none := by
    intro v
    rw [Graph.attrAt_addEdges, nodes, Graph.attrAt_addNodes, Graph.attrAt_addNodes,
      Graph.attrAt_addNodes]
    rfl
  -- A later layer would overwrite the type of an earlier one.
  refine ⟨?_, ?_, fun v edge => by rw [layers, if_pos edge]⟩
  · intro v core
    have notAgg : v ∉ aggSWList (2 * h) := by
      obtain ⟨i, inside, j, port, rfl⟩ := (coreLayer.mem_iff positive v).mp core
      rw [aggLayer.mem_iff positive]
      rintro ⟨p, -, i', -, same⟩
      exact coreAt_ne_aggAt inside port p i' same
    have notEdge : v ∉ edgeSWList (2 * h) := by
      obtain ⟨i, inside, j, port, rfl⟩ := (coreLayer.mem_iff positive v).mp core
      rw [edgeLayer.mem_iff positive]
      rintro ⟨p, -, j', -, same⟩
      exact coreAt_ne_edgeAt inside port p j' same
    rw [layers, if_neg notEdge, if_neg notAgg, if_pos core]
  · intro v agg
    have notEdge : v ∉ edgeSWList (2 * h) := by
      obtain ⟨p, inTree, i, inside, rfl⟩ := (aggLayer.mem_iff positive v).mp agg
      rw [edgeLayer.mem_iff positive]
      rintro ⟨p', -, j', -, same⟩
      exact aggAt_ne_edgeAt inTree inside p' j' same
    rw [layers, if_neg notEdge, if_pos agg]

omit positive in
theorem ncard_edgeSet_tree (h : Nat) : (tree h).simple.edgeSet.ncard = 2 * h * (h * (h + h)) := by
  rw [← length_treeEdges]
  refine Graph.ncard_edgeSet (nodup_treeEdges h) ?_ adj_iff
  rintro ⟨v, w⟩ forth back
  -- The first end of an edge is an aggregation switch and the second one is not.
  obtain ⟨p, inTree, i, inside, j, port, rfl, target⟩ := (mem_treeEdges_iff v w).mp forth
  obtain ⟨p', inTree', i', inside', -, -, agg, -⟩ := (mem_treeEdges_iff w _).mp back
  rcases target with rfl | rfl
  · exact coreAt_ne_aggAt inside port p' i' agg
  · exact aggAt_ne_edgeAt inTree' inside' p j agg.symm

theorem core_links {c : Int} (member : c ∈ coreSWList (2 * h)) :
    (∀ v, (tree h).simple.Adj c v → v ∈ aggSWList (2 * h)) ∧
      ∀ p < 2 * h, ∃! a, a ∈ pod (aggSWList (2 * h)) h p ∧ (tree h).simple.Adj c a := by
  obtain ⟨i, inside, j, port, rfl⟩ := (coreLayer.mem_iff positive c).mp member
  refine ⟨?_, ?_⟩
  · intro v adj
    obtain ⟨p, inTree, rfl⟩ := (adj_coreAt_iff inside port v).mp adj
    exact (aggLayer.mem_iff positive _).mpr ⟨p, inTree, i, inside, rfl⟩
  · intro p inTree
    refine ⟨aggAt h p i, ⟨(aggLayer.mem_pod_iff inTree _).mpr ⟨i, inside, rfl⟩,
      (adj_coreAt_iff inside port _).mpr ⟨p, inTree, rfl⟩⟩, ?_⟩
    rintro a ⟨inPod, adj⟩
    obtain ⟨i', inside', rfl⟩ := (aggLayer.mem_pod_iff inTree a).mp inPod
    obtain ⟨p', -, same⟩ := (adj_coreAt_iff inside port _).mp adj
    rw [(aggLayer.inj inside' inside same).2]

theorem agg_links {a : Int} (member : a ∈ aggSWList (2 * h)) :
    {v | v ∈ coreSWList (2 * h) ∧ (tree h).simple.Adj a v}.ncard = h ∧
      {v | v ∈ edgeSWList (2 * h) ∧ (tree h).simple.Adj a v}.ncard = h ∧
      ∀ v, (tree h).simple.Adj a v → v ∈ coreSWList (2 * h) ∨ v ∈ edgeSWList (2 * h) := by
  obtain ⟨p, inTree, i, inside, rfl⟩ := (aggLayer.mem_iff positive a).mp member
  have core : ∀ {j}, j < h → coreAt h i j ∈ coreSWList (2 * h) :=
    fun {j} port => (coreLayer.mem_iff positive _).mpr ⟨i, inside, j, port, rfl⟩
  have edge : ∀ {j}, j < h → edgeAt h p j ∈ edgeSWList (2 * h) :=
    fun {j} port => (edgeLayer.mem_iff positive _).mpr ⟨p, inTree, j, port, rfl⟩
  have up : ∀ v, v ∈ coreSWList (2 * h) ∧ (tree h).simple.Adj (aggAt h p i) v ↔
      ∃ j < h, v = coreAt h i j := by
    intro v
    rw [adj_aggAt_iff inTree inside]
    constructor
    · rintro ⟨inCore, up | ⟨j, port, rfl⟩⟩
      · exact up
      · obtain ⟨i', inside', j', port', same⟩ := (coreLayer.mem_iff positive _).mp inCore
        exact absurd same.symm (coreAt_ne_edgeAt inside' port' p j)
    · rintro ⟨j, port, rfl⟩
      exact ⟨core port, .inl ⟨j, port, rfl⟩⟩
  have down : ∀ v, v ∈ edgeSWList (2 * h) ∧ (tree h).simple.Adj (aggAt h p i) v ↔
      ∃ j < h, v = edgeAt h p j := by
    intro v
    rw [adj_aggAt_iff inTree inside]
    constructor
    · rintro ⟨inEdge, ⟨j, port, rfl⟩ | down⟩
      · obtain ⟨p', -, j', -, same⟩ := (edgeLayer.mem_iff positive _).mp inEdge
        exact absurd same (coreAt_ne_edgeAt inside port p' j')
      · exact down
    · rintro ⟨j, port, rfl⟩
      exact ⟨edge port, .inr ⟨j, port, rfl⟩⟩
  refine ⟨ncard_positions up fun port port' same => (coreLayer.inj port port' same).2,
    ncard_positions down fun port port' same => (edgeLayer.inj port port' same).2, ?_⟩
  intro v adj
  rcases (adj_aggAt_iff inTree inside v).mp adj with ⟨j, port, rfl⟩ | ⟨j, port, rfl⟩
  · exact .inl (core port)
  · exact .inr (edge port)

omit positive in
theorem edge_links (inTree : p < 2 * h) {e : Int} (member : e ∈ pod (edgeSWList (2 * h)) h p) :
    {v | (tree h).simple.Adj e v}.ncard = h ∧
      ∀ v, (tree h).simple.Adj e v → v ∈ pod (aggSWList (2 * h)) h p := by
  obtain ⟨j, port, rfl⟩ := (edgeLayer.mem_pod_iff inTree e).mp member
  refine ⟨ncard_positions (adj_edgeAt_iff inTree port)
    fun inside inside' same => (aggLayer.inj inside inside' same).2, ?_⟩
  intro v adj
  exact (aggLayer.mem_pod_iff inTree v).mpr ((adj_edgeAt_iff inTree port v).mp adj)

theorem exists_path {a b : Int} (first : a ∈ edgeSWList (2 * h)) (second : b ∈ edgeSWList (2 * h)) :
    ∃ path : (tree h).simple.Path a b, path.1.length ≤ 4 := by
  obtain ⟨p, inTree, j, port, rfl⟩ := (edgeLayer.mem_iff positive a).mp first
  obtain ⟨p', inTree', j', port', rfl⟩ := (edgeLayer.mem_iff positive b).mp second
  have up := (adj_edgeAt_iff inTree port _).mpr ⟨0, positive, rfl⟩
  have across := (adj_aggAt_iff inTree positive _).mpr (.inl ⟨0, positive, rfl⟩)
  have back := (adj_coreAt_iff positive positive _).mpr ⟨p', inTree', rfl⟩
  have down := (adj_aggAt_iff inTree' positive _).mpr (.inr ⟨j', port', rfl⟩)
  exact Graph.exists_path_of_walk (.cons up (.cons across (.cons back (.cons down .nil)))) le_rfl

end Topology

end FatTree

open FatTree

/-- For every even number of ports the topology can be built and is a fat tree. -/
theorem isFatTree_fatTree {k : Nat} (even : Even k) (ports : 2 ≤ k) :
    ∃ net, fatTree k = some net ∧ IsFatTree k net := by
  obtain ⟨h, rfl⟩ : ∃ h, k = 2 * h := even.two_dvd
  have positive : 0 < h := by omega
  refine ⟨_, fatTree_eq, ?_⟩
  constructor
  case core => rw [coreSWList_eq, List.length_map, List.length_range, quarter]
  case agg => rw [aggSWList_eq, List.length_map, List.length_range, half_square]
  case edge => rw [edgeSWList_eq, List.length_map, List.length_range, half_square]
  case nodup =>
    rw [layers_eq]
    exact List.nodup_range.map fun _ _ same => Int.ofNat_inj.mp same
  case names => exact mem_names_tree positive
  case types => exact attrAt_tree positive
  case loopless =>
    intro v member
    rcases (mem_neighbours_iff v v).mp member with forth | back
    · exact ne_of_mem_treeEdges forth rfl
    · exact ne_of_mem_treeEdges back rfl
  case edges => rw [half_cube, ncard_edgeSet_tree]
  case aggPod =>
    rw [half]
    exact fun a member => aggLayer.existsUnique_pod positive member
  case edgePod =>
    rw [half]
    exact fun e member => edgeLayer.existsUnique_pod positive member
  case coreLinks =>
    rw [half]
    exact fun c member => core_links positive member
  case aggLinks =>
    rw [half]
    exact fun a member => agg_links positive member
  case edgeLinks =>
    rw [half]
    exact fun p inTree e member => edge_links inTree member
  case paths => exact fun a first b second => exists_path positive first second

theorem isFatTree_four : ∃ net, fatTree 4 = some net ∧ IsFatTree 4 net :=
  isFatTree_fatTree ⟨2, rfl⟩ (by decide)

end Sim
end LazyCtrl
