import LazyCtrl.Datapath.Netdev
import LazyCtrl.Mcast.Switch
import LazyCtrl.Packet.OdpKey
import LazyCtrl.Packet.Received

/-!
# Batches of packets without a flow

`handle_miss_upcalls` of `ofproto/ofproto-dpif.c`.  A first loop collects the packets of a batch by
their flows and learns the sources of local ones; a second loop over the flows, in the order of a
hash map, makes the operations for the datapath.  The functions that look up rules, translate
actions and keep facets are parameters over a state of any type.  The arrays of the function have a
fixed size: an access outside one has no defined outcome.

Equal flows have equal hashes, so hashes are left out.
-/

namespace LazyCtrl
namespace Ofproto

open Bytes Keyed Netdev Packet

def flowMissMaxBatch : Nat := 50

inductive DpifUpcallType where
  | miss
  | action
  deriving DecidableEq, Repr

structure DpifUpcall where
  type : DpifUpcallType
  packet : List Byte
  key : List Byte

structure MissPacket where
  upcall : Nat
  data : List Byte
  deriving DecidableEq

structure FlowMiss where
  flow : Packet.Flow
  keyFitness : OdpKeyFitness
  key : List Byte
  initialTci : BitVec 16
  packets : List MissPacket
  upcallType : DpifUpcallType

instance : Keyed FlowMiss Packet.Flow := ⟨FlowMiss.flow⟩

inductive DpifOp where
  | execute (packet : MissPacket) (key actions : List Byte)
  | flowPut (key actions : List Byte)

structure FlowMissOp (Subfacet : Type) where
  dpifOp : DpifOp
  subfacet : Option Subfacet

inductive SubfacetPath where
  | notInstalled
  | fastPath
  | slowPath
  deriving DecidableEq, Repr

structure OfprotoDpif (σ Rule Facet Subfacet : Type) where
  vspVlandevToRealdev : BitVec 16 → BitVec 16 × BitVec 16
  facetLookupValid : Packet.Flow → σ → Option Facet × σ
  ruleDpifLookup : Packet.Flow → σ → Rule × σ
  flowMissShouldMakeFacet : FlowMiss → σ → Bool × σ
  facetCreate : Rule → Packet.Flow → σ → Facet × σ
  facetRule : Facet → σ → Rule
  xlateActions : FlowMiss → Rule → List Byte → σ → List Byte × σ
  handleFlowMissCommon : Rule → List Byte → Packet.Flow → σ → σ
  subfacetCreate : Facet → FlowMiss → σ → Subfacet × σ
  subfacetMakeActions : Subfacet → List Byte → σ → List Byte × σ
  subfacetUpdateStats : Subfacet → List Byte → σ → σ
  subfacetActions : Subfacet → σ → Option (List Byte)
  subfacetSlow : Subfacet → σ → Bool
  subfacetPath : Subfacet → σ → SubfacetPath
  setSubfacetPath : Subfacet → SubfacetPath → σ → σ
  composeSlowPath : Facet → Subfacet → σ → List Byte
  dpifOperate : List DpifOp → σ → List Bool × σ

def vspAdjustFlow (vlandev : BitVec 16 → BitVec 16 × BitVec 16) (flow : Packet.Flow) : Option Packet.Flow :=
  let (realdev, vid) := vlandev flow.inPort
  if realdev = 0 then none
  else some { flow with inPort := realdev, vlanTci := (vid &&& 0xfff) ||| vlanCfi }

def ofprotoDpifExtractFlowKey (vlandev : BitVec 16 → BitVec 16 × BitVec 16)
    (key packet : List Byte) : Option (OdpKeyFitness × Packet.Flow × BitVec 16 × List Byte) :=
  (odpFlowKeyToFlow key).map fun (fitness, flow) =>
    if fitness = .error then (fitness, flow, 0, packet)
    else
      match vspAdjustFlow vlandev flow with
      | none => (fitness, flow, flow.vlanTci, packet)
      | some adjusted =>
        (if fitness = .perfect then .tooMuch else fitness, adjusted, flow.vlanTci,
          (ethPushVlan (.received packet) adjusted.vlanTci).data)

def startMiss (vlandev : BitVec 16 → BitVec 16 × BitVec 16) (upcall : DpifUpcall) :
    Option (Option (FlowMiss × List Byte)) :=
  (ofprotoDpifExtractFlowKey vlandev upcall.key upcall.packet).map
    fun (keyFitness, flow, initialTci, data) =>
      if keyFitness = .error then none
      else
        let flow := (flowExtract data flow.skbPriority flow.tunId flow.inPort).flow
        let miss : FlowMiss :=
          { flow, keyFitness, key := upcall.key, initialTci, upcallType := upcall.type,
            packets := [] }
        some (miss, data)

def FlowMiss.push (miss : FlowMiss) (packet : MissPacket) : FlowMiss :=
  { miss with packets := miss.packets ++ [packet] }

def IsLocalIpv4 (flow : Packet.Flow) : Prop := flow.inPort = ofppLocal ∧ flow.dlType = 0x0800

instance (flow : Packet.Flow) : Decidable (IsLocalIpv4 flow) :=
  inferInstanceAs (Decidable (_ ∧ _))

def sourceString (flow : Packet.Flow) : List Byte := macString (macBytes flow.dlSrc)

def learnSource (alloc : Alloc) (br : Bridge) (flow : Packet.Flow) : Option Bridge :=
  if IsLocalIpv4 flow then (bridgeUpdateLocalBf alloc br (sourceString flow)).map Prod.fst
  else some br

def joinMiss (arrival : FlowMiss × MissPacket) (existing : Option FlowMiss) : FlowMiss :=
  (existing.getD arrival.1).push arrival.2

section Loops

variable {σ Rule Facet Subfacet : Type}

def addUpcall (vlandev : BitVec 16 → BitVec 16 × BitVec 16) (alloc : Nat → Alloc)
    (todo : List FlowMiss) (br : Bridge) (i : Nat) (upcall : DpifUpcall) :
    Option (List FlowMiss × Bridge) :=
  if todo.length < flowMissMaxBatch then do
    match ← startMiss vlandev upcall with
    | none => some (todo, br)
    | some (miss, data) =>
      let br ← if (lookup todo miss.flow).isSome then some br
        else learnSource (alloc todo.length) br miss.flow
      some (upsert todo miss.flow (joinMiss (miss, ⟨i, data⟩)), br)
  else none

def addUpcalls (vlandev : BitVec 16 → BitVec 16 × BitVec 16) (alloc : Nat → Alloc) :
    Nat → List DpifUpcall → List FlowMiss → Bridge → Option (List FlowMiss × Bridge)
  | _, [], todo, br => some (todo, br)
  | i, upcall :: upcalls, todo, br => do
      let (todo, br) ← addUpcall vlandev alloc todo br i upcall
      addUpcalls vlandev alloc (i + 1) upcalls todo br

def FlowMiss.executed (miss : FlowMiss) (packet : MissPacket) : MissPacket :=
  if miss.flow.vlanTci ≠ miss.initialTci then
    { packet with data := (ethPopVlan (.received packet.data)).data }
  else packet

/-- The loop over the packets of a miss.  Every turn uses the next free slot of the operations, also
if it makes none; `actionsOf` are the actions of a packet. -/
def executePackets (miss : FlowMiss) (subfacet : Option Subfacet)
    (actionsOf : List Byte → σ → Option (List Byte) × σ) :
    List MissPacket → List (FlowMissOp Subfacet) → σ → Option (List (FlowMissOp Subfacet) × σ)
  | [], ops, s => some (ops, s)
  | packet :: packets, ops, s =>
    if ops.length < 2 * flowMissMaxBatch then
      match actionsOf packet.data s with
      | (some actions, s) =>
        let op := { dpifOp := .execute (miss.executed packet) miss.key actions, subfacet }
        executePackets miss subfacet actionsOf packets (ops ++ [op]) s
      | (none, s) => executePackets miss subfacet actionsOf packets ops s
    else none

variable (ofproto : OfprotoDpif σ Rule Facet Subfacet)

def handleFlowMissWithoutFacet (miss : FlowMiss) (rule : Rule)
    (ops : List (FlowMissOp Subfacet)) (s : σ) : Option (List (FlowMissOp Subfacet) × σ) :=
  let actionsOf data s :=
    let (odpActions, s) := ofproto.xlateActions miss rule data s
    (if odpActions ≠ [] then some odpActions else none, s)
  executePackets miss none actionsOf miss.packets ops s

def facetActions (miss : FlowMiss) (facet : Facet) (subfacet : Subfacet) (data : List Byte)
    (s : σ) : Option (List Byte) × σ :=
  let s := ofproto.handleFlowMissCommon (ofproto.facetRule facet s) data miss.flow s
  let (odpActions, s) :=
    if (ofproto.subfacetActions subfacet s).isNone ∨ ofproto.subfacetSlow subfacet s then
      ofproto.subfacetMakeActions subfacet data s
    else ([], s)
  let s := ofproto.subfacetUpdateStats subfacet data s
  let actions := (ofproto.subfacetActions subfacet s).getD []
  if actions ≠ [] then
    (some (if ofproto.subfacetSlow subfacet s then odpActions else actions), s)
  else (none, s)

def subfacetWantPath (slow : Bool) : SubfacetPath := if slow then .slowPath else .fastPath

def handleFlowMissWithFacet (miss : FlowMiss) (facet : Facet) (ops : List (FlowMissOp Subfacet))
    (s : σ) : Option (List (FlowMissOp Subfacet) × σ) := do
  let (subfacet, s) := ofproto.subfacetCreate facet miss s
  let (ops, s) ← executePackets miss (some subfacet) (facetActions ofproto miss facet subfacet)
    miss.packets ops s
  let wantPath := subfacetWantPath (ofproto.subfacetSlow subfacet s)
  if miss.upcallType = .miss ∨ ofproto.subfacetPath subfacet s ≠ wantPath then
    if ops.length < 2 * flowMissMaxBatch then
      let actions :=
        if wantPath = .fastPath then (ofproto.subfacetActions subfacet s).getD []
        else ofproto.composeSlowPath facet subfacet s
      some (ops ++ [{ dpifOp := .flowPut miss.key actions, subfacet := some subfacet }], s)
    else none
  else some (ops, s)

def handleFlowMiss (miss : FlowMiss) (ops : List (FlowMissOp Subfacet)) (s : σ) :
    Option (List (FlowMissOp Subfacet) × σ) :=
  match ofproto.facetLookupValid miss.flow s with
  | (some facet, s) => handleFlowMissWithFacet ofproto miss facet ops s
  | (none, s) =>
    let (rule, s) := ofproto.ruleDpifLookup miss.flow s
    match ofproto.flowMissShouldMakeFacet miss s with
    | (false, s) => handleFlowMissWithoutFacet ofproto miss rule ops s
    | (true, s) =>
      let (facet, s) := ofproto.facetCreate rule miss.flow s
      handleFlowMissWithFacet ofproto miss facet ops s

def handleFlowMisses : List FlowMiss → List (FlowMissOp Subfacet) → σ →
    Option (List (FlowMissOp Subfacet) × σ)
  | [], ops, s => some (ops, s)
  | miss :: todo, ops, s => do
      let (ops, s) ← handleFlowMiss ofproto miss ops s
      handleFlowMisses todo ops s

def updateFacets : List (FlowMissOp Subfacet × Bool) → σ → σ
  | [], s => s
  | ({ dpifOp := .flowPut _ _, subfacet := some subfacet }, false) :: ops, s =>
    updateFacets ops
      (ofproto.setSubfacetPath subfacet
        (subfacetWantPath (ofproto.subfacetSlow subfacet s)) s)
  | _ :: ops, s => updateFacets ops s

/-- The operations, the bridge and the state.  The hash map hands out the misses in the given
order. -/
def handleMissUpcalls (order : List FlowMiss → List FlowMiss) (alloc : Nat → Alloc)
    (upcalls : List DpifUpcall) (br : Bridge) (s : σ) :
    Option (List (FlowMissOp Subfacet) × Bridge × σ) :=
  if upcalls = [] then some ([], br, s)
  else do
    let (todo, br) ← addUpcalls ofproto.vspVlandevToRealdev alloc 0 upcalls [] br
    let (ops, s) ← handleFlowMisses ofproto (order todo) [] s
    let (errors, s) := ofproto.dpifOperate (ops.map FlowMissOp.dpifOp) s
    some (ops, br, updateFacets ofproto (ops.zip errors) s)

end Loops

section Collect

variable {vlandev : BitVec 16 → BitVec 16 × BitVec 16}

def arrivals (vlandev : BitVec 16 → BitVec 16 × BitVec 16) :
    Nat → List DpifUpcall → List (FlowMiss × MissPacket)
  | _, [] => []
  | i, upcall :: upcalls =>
    ((startMiss vlandev upcall).join.map fun start => (start.1, ⟨i, start.2⟩)).toList ++
      arrivals vlandev (i + 1) upcalls

def missesOf (todo : List FlowMiss) (arrived : List (FlowMiss × MissPacket)) : List FlowMiss :=
  collect (fun arrival => arrival.1.flow) joinMiss todo arrived

theorem keepsKey_joinMiss (arrival : FlowMiss × MissPacket) :
    KeepsKey arrival.1.flow (joinMiss arrival) := by
  intro present same
  cases present with
  | none => rfl
  | some miss => exact same miss rfl

theorem keys_missesOf_nodup (arrived : List (FlowMiss × MissPacket)) :
    (keys (missesOf [] arrived)).Nodup :=
  keys_collect_nodup keepsKey_joinMiss arrived List.nodup_nil

theorem foldl_joinMiss (miss : FlowMiss) (arrived : List (FlowMiss × MissPacket)) :
    arrived.foldl (fun present arrival => some (joinMiss arrival present)) (some miss) =
      some { miss with packets := miss.packets ++ arrived.map Prod.snd } := by
  induction arrived generalizing miss with
  | nil => simp
  | cons arrival arrived ih =>
    rw [List.foldl_cons, joinMiss, Option.getD_some, ih]
    simp [FlowMiss.push]

theorem mem_missesOf {arrived : List (FlowMiss × MissPacket)} {miss : FlowMiss}
    (member : miss ∈ missesOf [] arrived) :
    ∃ arrival rest, arrived.filter (fun arrival => arrival.1.flow = miss.flow) = arrival :: rest ∧
      miss = { arrival.1 with
        packets := arrival.1.packets ++ arrival.2 :: rest.map Prod.snd } := by
  have found : lookup (missesOf [] arrived) miss.flow = some miss :=
    (lookup_eq_some_iff (keys_missesOf_nodup arrived)).mpr ⟨member, rfl⟩
  rw [missesOf, lookup_collect keepsKey_joinMiss] at found
  cases filtered : arrived.filter (fun arrival => arrival.1.flow = miss.flow) with
  | nil =>
    rw [filtered] at found
    cases found
  | cons arrival rest =>
    rw [filtered, List.foldl_cons] at found
    have joined : joinMiss arrival (lookup [] miss.flow) = arrival.1.push arrival.2 := rfl
    rw [joined, foldl_joinMiss] at found
    refine ⟨arrival, rest, rfl, (Option.some.inj found).symm.trans ?_⟩
    simp [FlowMiss.push]

theorem packets_of_mem_missesOf {arrived : List (FlowMiss × MissPacket)}
    (fresh : ∀ arrival ∈ arrived, arrival.1.packets = []) {miss : FlowMiss}
    (member : miss ∈ missesOf [] arrived) :
    miss.packets =
      (arrived.filter fun arrival => arrival.1.flow = miss.flow).map Prod.snd := by
  obtain ⟨arrival, rest, filtered, same⟩ := mem_missesOf member
  have first := fresh arrival (List.mem_of_mem_filter (filtered ▸ List.mem_cons_self))
  rw [filtered, congrArg FlowMiss.packets same, first]
  rfl

theorem key_of_mem_missesOf {arrived : List (FlowMiss × MissPacket)} {miss : FlowMiss}
    (member : miss ∈ missesOf [] arrived) : ∃ arrival ∈ arrived, arrival.1.key = miss.key := by
  obtain ⟨arrival, rest, filtered, same⟩ := mem_missesOf member
  exact ⟨arrival, List.mem_of_mem_filter (filtered ▸ List.mem_cons_self),
    (congrArg FlowMiss.key same).symm⟩

theorem mem_arrivals {i : Nat} {upcalls : List DpifUpcall} {arrival : FlowMiss × MissPacket}
    (member : arrival ∈ arrivals vlandev i upcalls) :
    ∃ j upcall, arrival.2.upcall = i + j ∧ upcalls[j]? = some upcall ∧
      (startMiss vlandev upcall).join = some (arrival.1, arrival.2.data) := by
  induction upcalls generalizing i with
  | nil => cases member
  | cons upcall upcalls ih =>
    rcases List.mem_append.mp member with first | rest
    · rw [Option.mem_toList, Option.map_eq_some_iff] at first
      obtain ⟨start, started, rfl⟩ := first
      exact ⟨0, upcall, rfl, rfl, started⟩
    · obtain ⟨j, other, position, found, started⟩ := ih rest
      exact ⟨j + 1, other, by omega, by simpa using found, started⟩

theorem mem_arrivals_of_getElem? {i j : Nat} {upcalls : List DpifUpcall} {upcall : DpifUpcall}
    {start : FlowMiss × List Byte} (found : upcalls[j]? = some upcall)
    (started : (startMiss vlandev upcall).join = some start) :
    (start.1, ⟨i + j, start.2⟩) ∈ arrivals vlandev i upcalls := by
  induction upcalls generalizing i j with
  | nil => cases found
  | cons first upcalls ih =>
    rw [arrivals, List.mem_append]
    cases j with
    | zero =>
      obtain rfl : first = upcall := by simpa using found
      exact .inl (by simp [started])
    | succ j =>
      have later := @ih (i + 1) j (by simpa using found)
      rw [Nat.succ_add_eq_add_succ] at later
      exact .inr later

theorem pairwise_arrivals (i : Nat) (upcalls : List DpifUpcall) :
    (arrivals vlandev i upcalls).Pairwise fun one other => one.2.upcall < other.2.upcall := by
  induction upcalls generalizing i with
  | nil => exact .nil
  | cons upcall upcalls ih =>
    refine List.pairwise_append.mpr ⟨?_, ih (i + 1), ?_⟩
    · cases (startMiss vlandev upcall).join with
      | none => exact .nil
      | some start => exact List.pairwise_singleton _ _
    · intro one first other rest
      rw [Option.mem_toList, Option.map_eq_some_iff] at first
      obtain ⟨start, -, rfl⟩ := first
      obtain ⟨j, -, position, -⟩ := mem_arrivals rest
      change i < other.2.upcall
      omega

theorem length_arrivals_le (i : Nat) (upcalls : List DpifUpcall) :
    (arrivals vlandev i upcalls).length ≤ upcalls.length := by
  induction upcalls generalizing i with
  | nil => exact Nat.le_refl _
  | cons upcall upcalls ih =>
    have rest := ih (i + 1)
    have first : ((startMiss vlandev upcall).join.map fun start =>
        (start.1, (⟨i, start.2⟩ : MissPacket))).toList.length ≤ 1 := by
      cases (startMiss vlandev upcall).join <;> simp
    rw [arrivals, List.length_append, List.length_cons]
    omega

theorem of_startMiss {upcall : DpifUpcall} {start : FlowMiss × List Byte}
    (started : (startMiss vlandev upcall).join = some start) :
    start.1.packets = [] ∧ start.1.key = upcall.key := by
  obtain ⟨inner, mapped, found⟩ := Option.bind_eq_some_iff.mp started
  obtain ⟨extracted, -, rfl⟩ := Option.map_eq_some_iff.mp mapped
  obtain ⟨keyFitness, flow, initialTci, data⟩ := extracted
  obtain ⟨-, found⟩ := Option.ite_none_left_eq_some.mp found
  obtain rfl := Option.some.inj found
  exact ⟨rfl, rfl⟩

theorem missesOf_append (todo : List FlowMiss) (first rest : List (FlowMiss × MissPacket)) :
    missesOf todo (first ++ rest) = missesOf (missesOf todo first) rest :=
  List.foldl_append

theorem length_missesOf_le (todo : List FlowMiss) (arrived : List (FlowMiss × MissPacket)) :
    (missesOf todo arrived).length ≤ todo.length + arrived.length := by
  have grows : total (fun _ => 1) (missesOf todo arrived) ≤
      total (fun _ => 1) todo + 1 * arrived.length :=
    total_collect_le (fun _ => 1) (fun _ _ _ => Nat.le_add_left 1 _) todo
  rwa [total_one, total_one, Nat.one_mul] at grows

end Collect

section Learn

variable {vlandev : BitVec 16 → BitVec 16 × BitVec 16} {alloc : Nat → Alloc} {br : Bridge}

structure Learns (before after : Bridge) (todo : List FlowMiss)
    (arrived : List (FlowMiss × MissPacket)) : Prop where
  hasLocal : after.HasLocal
  keeps : ∀ s, before.LocalReports s → after.LocalReports s
  learns : ∀ arrival ∈ arrived, lookup todo arrival.1.flow = none → IsLocalIpv4 arrival.1.flow →
    after.LocalReports (sourceString arrival.1.flow)

theorem learnSource_spec (sound : br.Sound) (memory : Alloc) (flow : Packet.Flow) :
    ∃ after, learnSource memory br flow = some after ∧ after.Sound ∧
      (br.HasLocal → after.HasLocal ∧ (∀ s, br.LocalReports s → after.LocalReports s) ∧
        (IsLocalIpv4 flow → after.LocalReports (sourceString flow))) := by
  by_cases isLocal : IsLocalIpv4 flow
  · by_cases hasLocal : br.HasLocal
    · obtain ⟨gdt, updated, after, reports, keeps⟩ := hasLocal.update memory (sourceString flow)
      refine ⟨_, ?_, after.sound, fun _ => ⟨after, keeps, fun _ => reports⟩⟩
      rw [learnSource, if_pos isLocal, updated]
      rfl
    · obtain ⟨gdt, ret, updated, after⟩ := sound.update memory (sourceString flow)
      refine ⟨_, ?_, after, fun has => absurd has hasLocal⟩
      rw [learnSource, if_pos isLocal, updated]
      rfl
  · exact ⟨br, if_neg isLocal, sound, fun has => ⟨has, fun _ reported => reported,
      fun other => absurd other isLocal⟩⟩

theorem addUpcall_spec (sound : br.Sound) {todo : List FlowMiss}
    (room : todo.length < flowMissMaxBatch) {upcall : DpifUpcall} {i : Nat}
    {start : Option (FlowMiss × List Byte)} (started : startMiss vlandev upcall = some start) :
    ∃ after, addUpcall vlandev alloc todo br i upcall =
        some (missesOf todo (start.map fun start => (start.1, ⟨i, start.2⟩)).toList, after) ∧
      after.Sound ∧ (br.HasLocal → Learns br after todo
        (start.map fun start => (start.1, ⟨i, start.2⟩)).toList) := by
  rw [addUpcall, if_pos room, started]
  cases start with
  | none => exact ⟨br, rfl, sound, fun has => ⟨has, fun _ reported => reported, by simp⟩⟩
  | some start =>
    obtain ⟨miss, data⟩ := start
    cases found : lookup todo miss.flow with
    | some existing =>
      refine ⟨br, ?_, sound, fun has => ⟨has, fun _ reported => reported, ?_⟩⟩
      · simp [found, missesOf, collect]
      · simp [found]
    | none =>
      obtain ⟨after, learned, soundAfter, local_⟩ :=
        learnSource_spec sound (alloc todo.length) miss.flow
      refine ⟨after, ?_, soundAfter, fun has => ?_⟩
      · simp [found, learned, missesOf, collect]
      · obtain ⟨hasLocal, keeps, reports⟩ := local_ has
        refine ⟨hasLocal, keeps, ?_⟩
        simpa using fun _ => reports

theorem lookup_missesOf_of_ne {todo : List FlowMiss} {arrived : List (FlowMiss × MissPacket)}
    {flow : Packet.Flow} (other : ∀ arrival ∈ arrived, arrival.1.flow ≠ flow) :
    lookup (missesOf todo arrived) flow = lookup todo flow := by
  rw [missesOf, lookup_collect keepsKey_joinMiss,
    List.filter_eq_nil_iff.mpr fun arrival member => by simpa using other arrival member]
  rfl

theorem Learns.trans {middle after : Bridge} {todo : List FlowMiss}
    {first rest : List (FlowMiss × MissPacket)} (one : Learns br middle todo first)
    (other : Learns middle after (missesOf todo first) rest) :
    Learns br after todo (first ++ rest) := by
  refine ⟨other.hasLocal, fun s reported => other.keeps s (one.keeps s reported), ?_⟩
  have early : ∀ arrival ∈ first, lookup todo arrival.1.flow = none →
      IsLocalIpv4 arrival.1.flow → after.LocalReports (sourceString arrival.1.flow) :=
    fun arrival member absent isLocal => other.keeps _ (one.learns arrival member absent isLocal)
  intro arrival member absent isLocal
  by_cases brought : ∃ earlier ∈ first, earlier.1.flow = arrival.1.flow
  · obtain ⟨earlier, inFirst, same⟩ := brought
    rw [← same] at absent isLocal ⊢
    exact early earlier inFirst absent isLocal
  · rcases List.mem_append.mp member with inFirst | inRest
    · exact early arrival inFirst absent isLocal
    · refine other.learns arrival inRest ?_ isLocal
      rw [lookup_missesOf_of_ne fun earlier inFirst same => brought ⟨earlier, inFirst, same⟩]
      exact absent

theorem addUpcalls_spec (sound : br.Sound) {upcalls : List DpifUpcall}
    (readable : ∀ upcall ∈ upcalls, (startMiss vlandev upcall).isSome) {todo : List FlowMiss}
    (i : Nat) (room : todo.length + upcalls.length ≤ flowMissMaxBatch) :
    ∃ after, addUpcalls vlandev alloc i upcalls todo br =
        some (missesOf todo (arrivals vlandev i upcalls), after) ∧
      (br.HasLocal → Learns br after todo (arrivals vlandev i upcalls)) := by
  induction upcalls generalizing i todo br with
  | nil => exact ⟨br, rfl, fun has => ⟨has, fun _ reported => reported, by simp [arrivals]⟩⟩
  | cons upcall upcalls ih =>
    obtain ⟨start, started⟩ := Option.isSome_iff_exists.mp (readable upcall List.mem_cons_self)
    rw [List.length_cons] at room
    obtain ⟨middle, turn, soundMiddle, first⟩ :=
      @addUpcall_spec vlandev alloc br sound todo (by omega) upcall i start started
    have joined : (startMiss vlandev upcall).join = start := by rw [started]; rfl
    have longer := length_missesOf_le todo
      (start.map fun start => (start.1, (⟨i, start.2⟩ : MissPacket))).toList
    have one : (start.map fun start =>
        (start.1, (⟨i, start.2⟩ : MissPacket))).toList.length ≤ 1 := by
      cases start <;> simp
    have roomRest : (missesOf todo (start.map fun start =>
        (start.1, (⟨i, start.2⟩ : MissPacket))).toList).length + upcalls.length ≤
          flowMissMaxBatch := by omega
    obtain ⟨after, loop, rest⟩ := ih soundMiddle
      (fun other member => readable other (List.mem_cons_of_mem _ member)) (i + 1) roomRest
    refine ⟨after, ?_, fun has => ?_⟩
    · rw [addUpcalls, turn, arrivals, joined, missesOf_append]
      exact loop
    · rw [arrivals, joined]
      exact (first has).trans (rest (first has).hasLocal)

end Learn

section Operations

variable {σ Rule Facet Subfacet : Type}

def executedPackets (ops : List (FlowMissOp Subfacet)) : List MissPacket :=
  ops.filterMap fun op =>
    match op.dpifOp with
    | .execute packet _ _ => some packet
    | .flowPut _ _ => none

def FlowMiss.sent (miss : FlowMiss) : List MissPacket := miss.packets.map miss.executed

/-- A function returns and appends at most a number of operations, which execute some of the given
packets in their order. -/
def Appends (result : Option (List (FlowMissOp Subfacet) × σ)) (ops : List (FlowMissOp Subfacet))
    (n : Nat) (packets : List MissPacket) : Prop :=
  ∃ new s, result = some (ops ++ new, s) ∧ new.length ≤ n ∧ (executedPackets new).Sublist packets

theorem appends_executePackets (miss : FlowMiss) (subfacet : Option Subfacet)
    (actionsOf : List Byte → σ → Option (List Byte) × σ) {packets : List MissPacket}
    {ops : List (FlowMissOp Subfacet)} (s : σ)
    (room : ops.length + packets.length ≤ 2 * flowMissMaxBatch) :
    Appends (executePackets miss subfacet actionsOf packets ops s) ops packets.length
      (packets.map miss.executed) := by
  induction packets generalizing ops s with
  | nil => exact ⟨[], s, by simp [executePackets], Nat.le_refl _, .slnil⟩
  | cons packet packets ih =>
    rw [List.length_cons] at room
    rw [executePackets, if_pos (by omega)]
    cases actionsOf packet.data s with
    | mk made s =>
      cases made with
      | none =>
        obtain ⟨new, after, ran, short, sublist⟩ := @ih ops s (by omega)
        refine ⟨new, after, ran, ?_, sublist.cons _⟩
        rw [List.length_cons]
        omega
      | some actions =>
        let op : FlowMissOp Subfacet :=
          ⟨.execute (miss.executed packet) miss.key actions, subfacet⟩
        obtain ⟨new, after, ran, short, sublist⟩ := @ih (ops ++ [op]) s (by
          rw [List.length_append, List.length_singleton]
          omega)
        refine ⟨op :: new, after, ?_, ?_, ?_⟩
        · rw [List.append_cons]
          exact ran
        · rw [List.length_cons, List.length_cons]
          omega
        · exact sublist.cons_cons _

variable (ofproto : OfprotoDpif σ Rule Facet Subfacet)

theorem appends_withFacet (miss : FlowMiss) (facet : Facet) {ops : List (FlowMissOp Subfacet)}
    (s : σ) (room : ops.length + (miss.packets.length + 1) ≤ 2 * flowMissMaxBatch) :
    Appends (handleFlowMissWithFacet ofproto miss facet ops s) ops (miss.packets.length + 1)
      miss.sent := by
  rw [handleFlowMissWithFacet]
  rcases ofproto.subfacetCreate facet miss s with ⟨subfacet, s⟩
  obtain ⟨new, after, ran, short, sublist⟩ := appends_executePackets miss (some subfacet)
    (facetActions ofproto miss facet subfacet) s
    (show ops.length + miss.packets.length ≤ _ by omega)
  simp only [Option.bind_eq_bind, ran, Option.bind_some]
  split
  · have long : (ops ++ new).length < 2 * flowMissMaxBatch := by
      rw [List.length_append]
      omega
    rw [if_pos long]
    refine ⟨new ++ [_], after, by rw [List.append_assoc], ?_, ?_⟩
    · rw [List.length_append, List.length_singleton]
      omega
    · simpa [executedPackets, FlowMiss.sent] using sublist
  · exact ⟨new, after, rfl, by omega, sublist⟩

theorem appends_handleFlowMiss (miss : FlowMiss) {ops : List (FlowMissOp Subfacet)} (s : σ)
    (room : ops.length + (miss.packets.length + 1) ≤ 2 * flowMissMaxBatch) :
    Appends (handleFlowMiss ofproto miss ops s) ops (miss.packets.length + 1) miss.sent := by
  rw [handleFlowMiss]
  split
  · exact appends_withFacet ofproto miss _ _ room
  · dsimp only
    split
    · obtain ⟨new, after, ran, short, sublist⟩ := appends_executePackets miss none
        (fun data s => (if (ofproto.xlateActions miss _ data s).1 ≠ [] then
          some (ofproto.xlateActions miss _ data s).1 else none,
            (ofproto.xlateActions miss _ data s).2)) _
        (show ops.length + miss.packets.length ≤ _ by omega)
      exact ⟨new, after, ran, by omega, sublist⟩
    · exact appends_withFacet ofproto miss _ _ room

def opsNeeded (todo : List FlowMiss) : Nat := total (fun miss => miss.packets.length + 1) todo

theorem appends_handleFlowMisses (todo : List FlowMiss) {ops : List (FlowMissOp Subfacet)} (s : σ)
    (room : ops.length + opsNeeded todo ≤ 2 * flowMissMaxBatch) :
    Appends (handleFlowMisses ofproto todo ops s) ops (opsNeeded todo)
      (todo.flatMap FlowMiss.sent) := by
  induction todo generalizing ops s with
  | nil => exact ⟨[], s, by simp [handleFlowMisses], Nat.zero_le _, .slnil⟩
  | cons miss todo ih =>
    rw [opsNeeded, total, ← opsNeeded] at room ⊢
    obtain ⟨first, middle, ran, short, sublist⟩ :=
      @appends_handleFlowMiss _ _ _ _ ofproto miss ops s (by omega)
    obtain ⟨rest, after, loop, shortRest, sublistRest⟩ := @ih (ops ++ first) middle (by
      rw [List.length_append]
      omega)
    refine ⟨first ++ rest, after, ?_, ?_, ?_⟩
    · rw [handleFlowMisses, ran, ← List.append_assoc]
      exact loop
    · rw [List.length_append]
      omega
    · rw [executedPackets, List.filterMap_append, List.flatMap_cons]
      exact sublist.append sublistRest

def putKeys (ops : List (FlowMissOp Subfacet)) : List (List Byte) :=
  ops.filterMap fun op =>
    match op.dpifOp with
    | .execute _ _ _ => none
    | .flowPut key _ => some key

theorem putKeys_executePackets {miss : FlowMiss} {subfacet : Option Subfacet}
    {actionsOf : List Byte → σ → Option (List Byte) × σ} {packets : List MissPacket}
    {ops after : List (FlowMissOp Subfacet)} {s final : σ}
    (ran : executePackets miss subfacet actionsOf packets ops s = some (after, final)) :
    putKeys after = putKeys ops := by
  induction packets generalizing ops s with
  | nil => rw [(Prod.mk.inj (Option.some.inj ran)).1]
  | cons packet packets ih =>
    rw [executePackets] at ran
    split at ran
    · split at ran
      · rw [ih ran]
        simp [putKeys]
      · exact ih ran
    · cases ran

theorem putKeys_withFacet {miss : FlowMiss} {facet : Facet} {ops after : List (FlowMissOp Subfacet)}
    {s final : σ} (ran : handleFlowMissWithFacet ofproto miss facet ops s = some (after, final)) :
    putKeys after ⊆ putKeys ops ++ [miss.key] := by
  rw [handleFlowMissWithFacet] at ran
  obtain ⟨⟨executed, middle⟩, packets, rest⟩ := Option.bind_eq_some_iff.mp ran
  have same := putKeys_executePackets packets
  dsimp only at rest
  split at rest
  · split at rest
    · obtain ⟨rfl, -⟩ := Prod.mk.inj (Option.some.inj rest)
      rw [← same, putKeys, List.filterMap_append]
      exact List.Subset.refl _
    · cases rest
  · obtain ⟨rfl, -⟩ := Prod.mk.inj (Option.some.inj rest)
    rw [same]
    exact List.subset_append_left _ _

theorem putKeys_handleFlowMiss {miss : FlowMiss} {ops after : List (FlowMissOp Subfacet)}
    {s final : σ} (ran : handleFlowMiss ofproto miss ops s = some (after, final)) :
    putKeys after ⊆ putKeys ops ++ [miss.key] := by
  rw [handleFlowMiss] at ran
  split at ran
  · exact putKeys_withFacet ofproto ran
  · dsimp only at ran
    split at ran
    · rw [putKeys_executePackets ran]
      exact List.subset_append_left _ _
    · exact putKeys_withFacet ofproto ran

theorem putKeys_handleFlowMisses {todo : List FlowMiss} {ops after : List (FlowMissOp Subfacet)}
    {s final : σ} (ran : handleFlowMisses ofproto todo ops s = some (after, final)) :
    putKeys after ⊆ putKeys ops ++ todo.map FlowMiss.key := by
  induction todo generalizing ops s with
  | nil =>
    obtain ⟨rfl, -⟩ := Prod.mk.inj (Option.some.inj ran)
    exact List.subset_append_left _ _
  | cons miss todo ih =>
    obtain ⟨⟨middle, state⟩, first, rest⟩ := Option.bind_eq_some_iff.mp ran
    intro key member
    rcases List.mem_append.mp (ih rest member) with early | late
    · rcases List.mem_append.mp (putKeys_handleFlowMiss ofproto first early) with old | own
      · exact List.mem_append_left _ old
      · exact List.mem_append_right _ (List.mem_cons.mpr (.inl (List.mem_singleton.mp own)))
    · exact List.mem_append_right _ (List.mem_cons_of_mem _ late)

end Operations

section Batch

variable {σ Rule Facet Subfacet : Type} {ofproto : OfprotoDpif σ Rule Facet Subfacet}
  {vlandev : BitVec 16 → BitVec 16 × BitVec 16}

def flowAt (vlandev : BitVec 16 → BitVec 16 × BitVec 16) (upcalls : List DpifUpcall) (i : Nat) :
    Option Packet.Flow :=
  (upcalls[i]?).bind fun upcall => (startMiss vlandev upcall).join.map fun start => start.1.flow

structure HandlesBatch (vlandev : BitVec 16 → BitVec 16 × BitVec 16) (upcalls : List DpifUpcall)
    (before : Bridge) (ops : List (FlowMissOp Subfacet)) (after : Bridge) : Prop where
  bounded : ops.length ≤ 2 * flowMissMaxBatch
  own : ∀ packet ∈ executedPackets ops, ∃ upcall miss data,
    upcalls[packet.upcall]? = some upcall ∧ startMiss vlandev upcall = some (some (miss, data)) ∧
      (packet.data = data ∨ packet.data = (ethPopVlan (.received data)).data)
  once : ((executedPackets ops).map MissPacket.upcall).Nodup
  ordered : (executedPackets ops).Pairwise fun first second =>
    flowAt vlandev upcalls first.upcall = flowAt vlandev upcalls second.upcall →
      first.upcall < second.upcall
  learned : before.HasLocal → ∀ i flow, flowAt vlandev upcalls i = some flow → IsLocalIpv4 flow →
    after.LocalReports (sourceString flow)

theorem flowAt_of_mem_arrivals {upcalls : List DpifUpcall} {arrival : FlowMiss × MissPacket}
    (member : arrival ∈ arrivals vlandev 0 upcalls) :
    flowAt vlandev upcalls arrival.2.upcall = some arrival.1.flow := by
  obtain ⟨j, upcall, position, found, started⟩ := mem_arrivals member
  rw [flowAt, position, Nat.zero_add, found, Option.bind_some, started]
  rfl

theorem fresh_of_mem_arrivals {upcalls : List DpifUpcall} {arrival : FlowMiss × MissPacket}
    (member : arrival ∈ arrivals vlandev 0 upcalls) : arrival.1.packets = [] := by
  obtain ⟨j, upcall, -, -, started⟩ := mem_arrivals member
  exact (of_startMiss started).1

theorem opsNeeded_missesOf_le (upcalls : List DpifUpcall) :
    opsNeeded (missesOf [] (arrivals vlandev 0 upcalls)) ≤ 2 * upcalls.length := by
  have grows : opsNeeded (missesOf [] (arrivals vlandev 0 upcalls)) ≤
      0 + 2 * (arrivals vlandev 0 upcalls).length := by
    refine total_collect_le _ (fun arrival member present => ?_) []
    have fresh := fresh_of_mem_arrivals member
    cases present with
    | none => simp [joinMiss, FlowMiss.push, fresh]
    | some miss =>
      simp only [joinMiss, FlowMiss.push, Option.getD_some, Option.map_some, List.length_append,
        List.length_singleton]
      omega
  have short := @length_arrivals_le vlandev 0 upcalls
  omega

theorem upcall_executed (miss : FlowMiss) (packet : MissPacket) :
    (miss.executed packet).upcall = packet.upcall := by
  rw [FlowMiss.executed]
  split <;> rfl

theorem data_executed (miss : FlowMiss) (packet : MissPacket) :
    (miss.executed packet).data = packet.data ∨
      (miss.executed packet).data = (ethPopVlan (.received packet.data)).data := by
  by_cases differs : miss.flow.vlanTci ≠ miss.initialTci
  · rw [FlowMiss.executed, if_pos differs]
    exact .inr rfl
  · rw [FlowMiss.executed, if_neg differs]
    exact .inl rfl

theorem mem_sent {upcalls : List DpifUpcall} {miss : FlowMiss} {packet : MissPacket}
    (listed : miss ∈ missesOf [] (arrivals vlandev 0 upcalls)) (member : packet ∈ miss.sent) :
    ∃ arrival ∈ arrivals vlandev 0 upcalls, arrival.1.flow = miss.flow ∧
      packet = miss.executed arrival.2 := by
  obtain ⟨received, inMiss, rfl⟩ := List.mem_map.mp member
  rw [packets_of_mem_missesOf (fun _ => fresh_of_mem_arrivals) listed] at inMiss
  obtain ⟨arrival, filtered, rfl⟩ := List.mem_map.mp inMiss
  obtain ⟨arrived, sameFlow⟩ := List.mem_filter.mp filtered
  exact ⟨arrival, arrived, by simpa using sameFlow, rfl⟩

theorem flowAt_of_mem_sent {upcalls : List DpifUpcall} {miss : FlowMiss} {packet : MissPacket}
    (listed : miss ∈ missesOf [] (arrivals vlandev 0 upcalls)) (member : packet ∈ miss.sent) :
    flowAt vlandev upcalls packet.upcall = some miss.flow := by
  obtain ⟨arrival, arrived, sameFlow, rfl⟩ := mem_sent listed member
  rw [upcall_executed, flowAt_of_mem_arrivals arrived, sameFlow]

theorem pairwise_sent {upcalls : List DpifUpcall} {miss : FlowMiss}
    (listed : miss ∈ missesOf [] (arrivals vlandev 0 upcalls)) :
    miss.sent.Pairwise fun first second => first.upcall < second.upcall := by
  rw [FlowMiss.sent, packets_of_mem_missesOf (fun _ => fresh_of_mem_arrivals) listed, List.map_map]
  refine List.Pairwise.map _ ?_ ((pairwise_arrivals 0 upcalls).filter _)
  intro first second earlier
  simpa only [Function.comp_apply, upcall_executed] using earlier

theorem pairwise_flatMap_sent {upcalls : List DpifUpcall} {todo : List FlowMiss}
    (perm : todo.Perm (missesOf [] (arrivals vlandev 0 upcalls))) :
    (todo.flatMap FlowMiss.sent).Pairwise fun first second =>
      flowAt vlandev upcalls first.upcall = flowAt vlandev upcalls second.upcall →
        first.upcall < second.upcall := by
  have nodup : (keys todo).Nodup := (perm.map key).nodup_iff.mpr (keys_missesOf_nodup _)
  refine List.pairwise_flatMap.mpr ⟨fun miss member => ?_, ?_⟩
  · refine (pairwise_sent (perm.mem_iff.mp member)).imp ?_
    intro first second earlier _
    exact earlier
  · refine (List.pairwise_map.mp nodup).imp_of_mem fun {one other} inOne inOther differ => ?_
    intro first inFirst second inSecond same
    rw [flowAt_of_mem_sent (perm.mem_iff.mp inOne) inFirst,
      flowAt_of_mem_sent (perm.mem_iff.mp inOther) inSecond] at same
    exact absurd (Option.some.inj same) differ

theorem isSome_startMiss {upcall : DpifUpcall} (readable : (odpFlowKeyToFlow upcall.key).isSome) :
    (startMiss vlandev upcall).isSome := by
  rw [startMiss, ofprotoDpifExtractFlowKey, Option.isSome_map, Option.isSome_map]
  exact readable

theorem HandlesBatch.of_sublist {upcalls : List DpifUpcall} {todo : List FlowMiss}
    (perm : todo.Perm (missesOf [] (arrivals vlandev 0 upcalls)))
    {ops : List (FlowMissOp Subfacet)} (bounded : ops.length ≤ 2 * flowMissMaxBatch)
    (sublist : (executedPackets ops).Sublist (todo.flatMap FlowMiss.sent)) {br after : Bridge}
    (learns : br.HasLocal → Learns br after [] (arrivals vlandev 0 upcalls)) :
    HandlesBatch vlandev upcalls br ops after := by
  have ordered := (pairwise_flatMap_sent perm).sublist sublist
  refine ⟨bounded, fun packet member => ?_, ?_, ordered, fun hasLocal i flow found isLocal => ?_⟩
  · obtain ⟨miss, listed, inMiss⟩ := List.mem_flatMap.mp (sublist.subset member)
    obtain ⟨arrival, arrived, -, rfl⟩ := mem_sent (perm.mem_iff.mp listed) inMiss
    obtain ⟨j, upcall, position, found, started⟩ := mem_arrivals arrived
    rw [Nat.zero_add] at position
    refine ⟨upcall, arrival.1, arrival.2.data, ?_, Option.join_eq_some_iff.mp started, ?_⟩
    · rw [upcall_executed, position, found]
    · exact data_executed _ _
  · refine List.pairwise_map.mpr (ordered.imp fun {first second} earlier same => ?_)
    exact Nat.lt_irrefl _ (same ▸ earlier (congrArg _ same))
  · obtain ⟨upcall, present, mapped⟩ := Option.bind_eq_some_iff.mp found
    obtain ⟨start, started, rfl⟩ := Option.map_eq_some_iff.mp mapped
    have arrived : (start.1, ⟨0 + i, start.2⟩) ∈ arrivals vlandev 0 upcalls :=
      mem_arrivals_of_getElem? present started
    exact (learns hasLocal).learns (start.1, ⟨0 + i, start.2⟩) arrived rfl isLocal

/-- A batch is handled without leaving an array: the sources of its packets are learned, some of the
packets are executed, and flows are put with the keys of the batch. -/
theorem handleMissUpcalls_spec (ofproto : OfprotoDpif σ Rule Facet Subfacet)
    {order : List FlowMiss → List FlowMiss} (permutes : ∀ todo, (order todo).Perm todo)
    (alloc : Nat → Alloc) {upcalls : List DpifUpcall} (small : upcalls.length ≤ flowMissMaxBatch)
    (readable : ∀ upcall ∈ upcalls, (odpFlowKeyToFlow upcall.key).isSome) {br : Bridge}
    (sound : br.Sound) (s : σ) :
    ∃ (todo : List FlowMiss) (ops : List (FlowMissOp Subfacet)) (after : Bridge) (final : σ),
      handleMissUpcalls ofproto order alloc upcalls br s = some (ops, after, final) ∧
      todo.Perm (missesOf [] (arrivals ofproto.vspVlandevToRealdev 0 upcalls)) ∧
        ops.length ≤ 2 * flowMissMaxBatch ∧
        (executedPackets ops).Sublist (todo.flatMap FlowMiss.sent) ∧
        putKeys ops ⊆ todo.map FlowMiss.key ∧
        (br.HasLocal → Learns br after [] (arrivals ofproto.vspVlandevToRealdev 0 upcalls)) := by
  obtain ⟨after, collected, learns⟩ :=
    @addUpcalls_spec ofproto.vspVlandevToRealdev alloc br sound upcalls
      (fun upcall member => isSome_startMiss (readable upcall member)) [] 0 (by simpa using small)
  rw [handleMissUpcalls, collected]
  generalize todoDef : missesOf [] (arrivals ofproto.vspVlandevToRealdev 0 upcalls) = todo
  have perm := permutes todo
  have needed : opsNeeded (order todo) = opsNeeded todo := total_perm _ perm
  have bound : opsNeeded todo ≤ 2 * upcalls.length := todoDef ▸ opsNeeded_missesOf_le upcalls
  obtain ⟨ops, final, made, short, sublist⟩ := @appends_handleFlowMisses _ _ _ _ ofproto (order todo)
    [] s (by rw [List.length_nil]; omega)
  rw [List.nil_append] at made
  have keys := putKeys_handleFlowMisses ofproto made
  split
  · rename_i empty
    subst empty
    obtain rfl : todo = [] := todoDef.symm
    exact ⟨[], [], br, s, rfl, .refl [], Nat.zero_le _, .slnil, List.Subset.refl _,
      fun has => ⟨has, fun _ reported => reported, by simp [arrivals]⟩⟩
  · simp only [Option.bind_eq_bind, Option.bind_some, made]
    exact ⟨order todo, ops, after, _, rfl, perm, by omega, sublist, keys, learns⟩

/-- **Batches of misses.** Whatever rules, facets and translations there are and whatever order the
misses have: a batch is handled without leaving an array, every packet with a key that fits is
executed at most once, those of a flow in the order of their arrival, and the sources of the local
IPv4 packets get into the local filter. -/
theorem handleMissUpcalls_handlesBatch (ofproto : OfprotoDpif σ Rule Facet Subfacet)
    {order : List FlowMiss → List FlowMiss} (permutes : ∀ todo, (order todo).Perm todo)
    (alloc : Nat → Alloc) {upcalls : List DpifUpcall} (small : upcalls.length ≤ flowMissMaxBatch)
    (readable : ∀ upcall ∈ upcalls, (odpFlowKeyToFlow upcall.key).isSome) {br : Bridge}
    (sound : br.Sound) (s : σ) :
    ∃ ops after final, handleMissUpcalls ofproto order alloc upcalls br s =
        some (ops, after, final) ∧
      HandlesBatch ofproto.vspVlandevToRealdev upcalls br ops after := by
  obtain ⟨todo, ops, after, final, ran, perm, bounded, sublist, -, learns⟩ :=
    handleMissUpcalls_spec ofproto permutes alloc small readable sound s
  exact ⟨ops, after, final, ran, .of_sublist perm bounded sublist learns⟩

end Batch

def localUpcall : DpifUpcall where
  type := .miss
  packet := List.replicate 6 1 ++ List.replicate 6 2 ++ [0x08, 0x00, 0x45] ++ List.replicate 19 0
  key := [8, 0, 3, 0, 0, 0, 0, 0]

def plainOfproto : OfprotoDpif Unit Unit Unit Unit where
  vspVlandevToRealdev _ := (0, 0)
  facetLookupValid _ s := (none, s)
  ruleDpifLookup _ s := ((), s)
  flowMissShouldMakeFacet _ s := (true, s)
  facetCreate _ _ s := ((), s)
  facetRule _ _ := ()
  xlateActions _ _ _ s := ([1], s)
  handleFlowMissCommon _ _ _ s := s
  subfacetCreate _ _ s := ((), s)
  subfacetMakeActions _ _ s := ([1], s)
  subfacetUpdateStats _ _ s := s
  subfacetActions _ _ := some [1]
  subfacetSlow _ _ := false
  subfacetPath _ _ := .notInstalled
  setSubfacetPath _ _ s := s
  composeSlowPath _ _ _ := []
  dpifOperate ops s := (ops.map fun _ => false, s)

theorem hasLocal_freshSwitch (localId gid : BitVec 32) :
    (freshSwitch localId gid).br.HasLocal := by
  refine ⟨[.empty localId lcBfLocalPort], .empty localId lcBfLocalPort, ⟨rfl, ?_, rfl⟩, ?_,
    BloomFilter.valid_of_dftLen rfl⟩
  · exact (by decide : 1 ≤ bfGdtMaxFilters)
  · simp [lookup, freshSwitch, BloomFilter.empty]

/-- Two packets of a flow: both are executed and the sender is learned. -/
theorem handlesBatch_localUpcall :
    ∃ ops after final, handleMissUpcalls plainOfproto id (fun _ => none)
        [localUpcall, localUpcall] (freshSwitch 1 0).br () = some (ops, after, final) ∧
      HandlesBatch plainOfproto.vspVlandevToRealdev [localUpcall, localUpcall] (freshSwitch 1 0).br
        ops after :=
  handleMissUpcalls_handlesBatch plainOfproto (fun _ => .refl _) _ (by decide)
    (fun upcall member => by
      obtain rfl : upcall = localUpcall := by simpa using member
      decide)
    (hasLocal_freshSwitch 1 0).sound ()

end Ofproto
end LazyCtrl
