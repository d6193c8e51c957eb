import Mathlib.Combinatorics.SimpleGraph.Paths
import Mathlib.Data.Set.Card
import LazyCtrl.Lib.Keyed

/-!
# Graphs as adjacency dictionaries

A graph is a dictionary of nodes; a node has an attribute and the names of its neighbours.  Edges
have no direction: an edge is stored at both of its ends.
-/

namespace Adjacency

open Keyed

structure Node (α β : Type*) where
  name : α
  attr : Option β
  neighbours : List α
  deriving DecidableEq, Repr

variable {α β : Type*}

instance : Keyed (Node α β) α := ⟨Node.name⟩

variable [DecidableEq α]

def neighboursIn (nodes : List (Node α β)) (a : α) : List α :=
  ((lookup nodes a).map Node.neighbours).getD []

def Node.mark (a : α) (attr : β) (present : Option (Node α β)) : Node α β :=
  ⟨a, some attr, (present.map Node.neighbours).getD []⟩

def Node.link (a b : α) (present : Option (Node α β)) : Node α β :=
  ⟨a, present.bind Node.attr, ((present.map Node.neighbours).getD []).insert b⟩

omit [DecidableEq α] in
theorem Node.keepsKey_mark (a : α) (attr : β) : KeepsKey a (Node.mark a attr) := fun _ _ => rfl

theorem Node.keepsKey_link (a b : α) : KeepsKey a (Node.link a b : Option (Node α β) → Node α β) := fun _ _ => rfl

theorem neighboursIn_mark (nodes : List (Node α β)) (a : α) (attr : β) (v : α) :
    neighboursIn (upsert nodes a (Node.mark a attr)) v = neighboursIn nodes v := by
  rw [neighboursIn, lookup_upsert (Node.keepsKey_mark a attr), neighboursIn]
  split
  · next same =>
      rw [same]
      rfl
  · rfl

theorem neighboursIn_link (nodes : List (Node α β)) (a b v : α) :
    neighboursIn (upsert nodes a (Node.link a b)) v =
      if v = a then (neighboursIn nodes a).insert b else neighboursIn nodes v := by
  rw [neighboursIn, lookup_upsert (Node.keepsKey_link a b), neighboursIn, neighboursIn]
  split
  · rfl
  · rfl

theorem mem_neighboursIn_link (nodes : List (Node α β)) (a b v w : α) :
    w ∈ neighboursIn (upsert nodes a (Node.link a b)) v ↔
      v = a ∧ w = b ∨ w ∈ neighboursIn nodes v := by
  rw [neighboursIn_link]
  by_cases same : v = a
  · rw [if_pos same, List.mem_insert_iff, same]
    simp
  · rw [if_neg same]
    simp [same]

theorem nodup_neighboursIn_link {nodes : List (Node α β)} (once : ∀ v, (neighboursIn nodes v).Nodup)
    (a b v : α) : (neighboursIn (upsert nodes a (Node.link a b)) v).Nodup := by
  rw [neighboursIn_link]
  split
  · exact (once a).insert
  · exact once v

structure Graph (α β : Type*) [DecidableEq α] where
  nodes : List (Node α β)
  nodup : (keys nodes).Nodup
  once : ∀ a, (neighboursIn nodes a).Nodup
  symm : ∀ {a b}, b ∈ neighboursIn nodes a → a ∈ neighboursIn nodes b

namespace Graph

def empty : Graph α β where
  nodes := []
  nodup := List.nodup_nil
  once := fun _ => List.nodup_nil
  symm := fun member => by cases member

def names (graph : Graph α β) : List α := keys graph.nodes

def neighbours (graph : Graph α β) (a : α) : List α := neighboursIn graph.nodes a

def attrAt (graph : Graph α β) (a : α) : Option β := (lookup graph.nodes a).bind Node.attr

def addNode (graph : Graph α β) (a : α) (attr : β) : Graph α β where
  nodes := upsert graph.nodes a (Node.mark a attr)
  nodup := keys_upsert_nodup (Node.keepsKey_mark a attr) graph.nodup
  once v := by
    rw [neighboursIn_mark]
    exact graph.once v
  symm member := by
    rw [neighboursIn_mark] at member ⊢
    exact graph.symm member

def addNodes (graph : Graph α β) (added : List α) (attr : β) : Graph α β :=
  added.foldl (fun graph a => graph.addNode a attr) graph

def addEdge (graph : Graph α β) (edge : α × α) : Graph α β where
  nodes := upsert (upsert graph.nodes edge.1 (Node.link edge.1 edge.2)) edge.2
    (Node.link edge.2 edge.1)
  nodup := keys_upsert_nodup (Node.keepsKey_link _ _)
    (keys_upsert_nodup (Node.keepsKey_link _ _) graph.nodup)
  once := nodup_neighboursIn_link (nodup_neighboursIn_link graph.once _ _) _ _
  symm member := by
    rw [mem_neighboursIn_link, mem_neighboursIn_link] at member ⊢
    rcases member with ends | ends | old
    · exact .inr (.inl ends.symm)
    · exact .inl ends.symm
    · exact .inr (.inr (graph.symm old))

def addEdges (graph : Graph α β) (edges : List (α × α)) : Graph α β := edges.foldl addEdge graph

def simple (graph : Graph α β) : SimpleGraph α where
  Adj a b := a ≠ b ∧ b ∈ graph.neighbours a
  symm := ⟨fun _ _ adj => ⟨adj.1.symm, graph.symm adj.2⟩⟩
  loopless := ⟨fun _ adj => adj.1 rfl⟩

variable (graph : Graph α β)

theorem neighbours_addNode (a : α) (attr : β) (v : α) :
    (graph.addNode a attr).neighbours v = graph.neighbours v :=
  neighboursIn_mark graph.nodes a attr v

theorem attrAt_addNode (a : α) (attr : β) (v : α) :
    (graph.addNode a attr).attrAt v = if v = a then some attr else graph.attrAt v := by
  rw [attrAt, addNode, lookup_upsert (Node.keepsKey_mark a attr)]
  split
  · rfl
  · rfl

theorem mem_names_addNode (a : α) (attr : β) (v : α) :
    v ∈ (graph.addNode a attr).names ↔ v = a ∨ v ∈ graph.names :=
  mem_keys_upsert (Node.keepsKey_mark a attr)

variable {graph}

theorem neighbours_addNodes (added : List α) (attr : β) (v : α) :
    (graph.addNodes added attr).neighbours v = graph.neighbours v := by
  induction added generalizing graph with
  | nil => rfl
  | cons a added ih => exact ih.trans (neighbours_addNode graph a attr v)

theorem attrAt_addNodes (added : List α) (attr : β) (v : α) :
    (graph.addNodes added attr).attrAt v = if v ∈ added then some attr else graph.attrAt v := by
  induction added generalizing graph with
  | nil => rfl
  | cons a added ih =>
    refine ih.trans ?_
    rw [attrAt_addNode]
    by_cases later : v ∈ added
    · simp [later]
    · simp [later]

theorem mem_names_addNodes (added : List α) (attr : β) (v : α) :
    v ∈ (graph.addNodes added attr).names ↔ v ∈ graph.names ∨ v ∈ added := by
  induction added generalizing graph with
  | nil => simp [addNodes]
  | cons a added ih =>
    refine ih.trans ?_
    rw [mem_names_addNode, List.mem_cons, or_assoc, or_left_comm]

theorem mem_neighbours_addEdge (edge : α × α) (v w : α) :
    w ∈ (graph.addEdge edge).neighbours v ↔
      (v, w) = edge ∨ (w, v) = edge ∨ w ∈ graph.neighbours v := by
  rw [neighbours, addEdge, mem_neighboursIn_link, mem_neighboursIn_link, neighbours, Prod.ext_iff,
    Prod.ext_iff]
  simp only [or_left_comm, and_comm]

theorem attrAt_addEdge (edge : α × α) (v : α) : (graph.addEdge edge).attrAt v = graph.attrAt v := by
  rw [attrAt, addEdge, lookup_upsert (Node.keepsKey_link _ _)]
  split
  · next same =>
      subst same
      rw [lookup_upsert (Node.keepsKey_link _ _)]
      split
      · next same =>
          rw [same]
          rfl
      · rfl
  · rw [lookup_upsert (Node.keepsKey_link _ _)]
    split
    · next same =>
        rw [same]
        rfl
    · rfl

theorem mem_names_addEdge {edge : α × α} (first : edge.1 ∈ graph.names)
    (second : edge.2 ∈ graph.names) (v : α) :
    v ∈ (graph.addEdge edge).names ↔ v ∈ graph.names := by
  rw [names, addEdge, mem_keys_upsert (Node.keepsKey_link _ _),
    mem_keys_upsert (Node.keepsKey_link _ _)]
  constructor
  · rintro (rfl | rfl | old)
    · exact second
    · exact first
    · exact old
  · exact fun old => .inr (.inr old)

theorem mem_neighbours_addEdges (edges : List (α × α)) (v w : α) :
    w ∈ (graph.addEdges edges).neighbours v ↔
      w ∈ graph.neighbours v ∨ (v, w) ∈ edges ∨ (w, v) ∈ edges := by
  induction edges generalizing graph with
  | nil => simp [addEdges]
  | cons edge edges ih =>
    refine ih.trans ?_
    rw [mem_neighbours_addEdge, List.mem_cons, List.mem_cons]
    simp only [or_assoc, or_left_comm]

theorem attrAt_addEdges (edges : List (α × α)) (v : α) :
    (graph.addEdges edges).attrAt v = graph.attrAt v := by
  induction edges generalizing graph with
  | nil => rfl
  | cons edge edges ih => exact ih.trans (attrAt_addEdge edge v)

theorem mem_names_addEdges {edges : List (α × α)}
    (known : ∀ edge ∈ edges, edge.1 ∈ graph.names ∧ edge.2 ∈ graph.names) (v : α) :
    v ∈ (graph.addEdges edges).names ↔ v ∈ graph.names := by
  induction edges generalizing graph with
  | nil => rfl
  | cons edge edges ih =>
    obtain ⟨⟨first, second⟩, later⟩ := List.forall_mem_cons.mp known
    have same := mem_names_addEdge first second
    refine (ih fun other member => ?_).trans (same v)
    rw [same, same]
    exact later other member

theorem ncard_edgeSet {edges : List (α × α)} (nodup : edges.Nodup)
    (oneWay : ∀ edge ∈ edges, edge.swap ∉ edges)
    (adj : ∀ v w, graph.simple.Adj v w ↔ (v, w) ∈ edges ∨ (w, v) ∈ edges) :
    graph.simple.edgeSet.ncard = edges.length := by
  have ends : graph.simple.edgeSet =
      ((edges.map fun edge => s(edge.1, edge.2)).toFinset : Set (Sym2 α)) := by
    ext edge
    induction edge with | h v w
    rw [SimpleGraph.mem_edgeSet, adj, Finset.mem_coe, List.mem_toFinset, List.mem_map]
    constructor
    · rintro (forth | back)
      · exact ⟨(v, w), forth, rfl⟩
      · exact ⟨(w, v), back, Sym2.eq_swap⟩
    · rintro ⟨⟨a, b⟩, member, same⟩
      rcases Sym2.eq_iff.mp same with ⟨rfl, rfl⟩ | ⟨rfl, rfl⟩
      · exact .inl member
      · exact .inr member
  have distinct : (edges.map fun edge => s(edge.1, edge.2)).Nodup := by
    refine List.Nodup.map_on ?_ nodup
    rintro ⟨a, b⟩ first ⟨c, d⟩ second same
    rcases Sym2.eq_iff.mp same with ⟨left, right⟩ | ⟨left, right⟩
    · exact Prod.ext left right
    · obtain rfl : a = d := left
      obtain rfl : b = c := right
      exact absurd second (oneWay _ first)
  rw [ends, Set.ncard_coe_finset, List.toFinset_card_of_nodup distinct, List.length_map]

theorem exists_path_of_walk {u v : α} (walk : graph.simple.Walk u v) {n : Nat}
    (short : walk.length ≤ n) : ∃ path : graph.simple.Path u v, path.1.length ≤ n :=
  ⟨walk.toPath, (SimpleGraph.Walk.length_bypass_le_length walk).trans short⟩

end Graph

end Adjacency
