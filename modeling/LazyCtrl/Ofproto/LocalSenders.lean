import LazyCtrl.Bf.Standard
import LazyCtrl.Ofproto.MissUpcalls
import LazyCtrl.Packet.FlowKey

/-!
# How a switch learns its hosts

The source of a packet is learned by the daemon, from packets that the datapath sends up.  Frames
from the local port, updates of the datapath's table and the handling of upcalls follow each other in
any order.  A host is known when the local filter reports it or a waiting upcall is going to add it;
every step keeps what is known, and a flow in the datapath's table shows that its source has been
added.

What the datapath does not send up is not learned: a packet for a host of another switch goes there
by an action made on the spot.
-/

namespace LazyCtrl

open Bytes Keyed Packet

def Datapath.Standard (dp : Datapath) : Prop :=
  ∀ gdt, dp.gdt = some gdt → ∃ filters, gdt.Holds filters ∧ StdTable filters

theorem Datapath.Standard.update {dp : Datapath} (standard : dp.Standard) (alloc : Alloc)
    {bf : BloomFilter} (len : bf.len = lcBfDftLen) :
    ∃ after, dp.update alloc bf = some after ∧ after.Standard := by
  cases table : dp.gdt with
  | none => exact ⟨dp, by rw [Datapath.update, table], standard⟩
  | some gdt =>
    obtain ⟨filters, holds, std⟩ := standard gdt table
    obtain ⟨gdtAfter, after, ret, updated, holdsAfter, -, shape⟩ :=
      bfGdtUpdateFilter_updated holds std.wide alloc (BloomFilter.nbytes_of_dftLen len)
    refine ⟨{ dp with gdt := some gdtAfter }, ?_, fun other same => ?_⟩
    · simp [Datapath.update, table, updated]
    · obtain rfl := Option.some.inj same
      exact ⟨after, holdsAfter, shape.stdTable std len⟩

theorem Datapath.Standard.checkFilter {dp : Datapath} (standard : dp.Standard) (s : List Byte) :
    ∃ found, Packet.checkFilter dp.gdt s = some found := by
  cases table : dp.gdt with
  | none => exact ⟨none, rfl⟩
  | some gdt =>
    obtain ⟨filters, holds, std⟩ := standard gdt table
    obtain ⟨found, checked, -⟩ := checkFilter_of_holds holds std.valid s
    exact ⟨found, checked⟩

namespace Ofproto

/-- A switch with the flow table of its datapath, the upcalls that wait for the daemon and the state
of what `handle_miss_upcalls` calls. -/
structure EdgeSwitch (σ : Type) extends Switch where
  table : FlowTable (List DpAction)
  upcalls : List DpifUpcall
  ofproto : σ

/-- What a switch runs in: the functions of the daemon and of the kernel that are not modelled. -/
structure EdgeEnv (σ Rule Facet Subfacet : Type) extends OfprotoDpif σ Rule Facet Subfacet where
  jhash2 : List Byte → BitVec 32
  jhash1word : BitVec 32 → BitVec 32 → BitVec 32
  validateActions : Packet.SwFlowKey → List Byte → Option (List DpAction)
  order : List FlowMiss → List FlowMiss
  permutes : ∀ todo, (order todo).Perm todo

inductive EdgeEvent where
  | frame (skb : Skb)
  | update (bf : BloomFilter) (alloc : Alloc)
  | handle (n : Nat) (alloc : Nat → Alloc)

section Step

variable {σ Rule Facet Subfacet : Type} (env : EdgeEnv σ Rule Facet Subfacet)

def missUpcall (key : Packet.SwFlowKey) (skb : Skb) : DpifUpcall :=
  { type := .miss, packet := skb.data, key := ovsFlowToNlattrs key }

def EdgeSwitch.receive (switch : EdgeSwitch σ) (skb : Skb) : Option (EdgeSwitch σ) :=
  (ovsVportReceive env.jhash2 env.jhash1word switch.dp switch.table ovspLocal skb).map fun
    | .upcall key skb => { switch with upcalls := switch.upcalls ++ [missUpcall key skb] }
    | .dropped | .execute _ _ => switch

def EdgeEnv.operate (table : FlowTable (List DpAction)) : List DpifOp → FlowTable (List DpAction)
  | [] => table
  | .execute _ _ _ :: ops => EdgeEnv.operate table ops
  | .flowPut key actions :: ops =>
    EdgeEnv.operate
      (table.ovsFlowCmdNew env.jhash2 env.jhash1word env.validateActions key actions) ops

def EdgeSwitch.handle (switch : EdgeSwitch σ) (n : Nat) (alloc : Nat → Alloc) :
    Option (EdgeSwitch σ) :=
  let n := min n flowMissMaxBatch
  (handleMissUpcalls env.toOfprotoDpif env.order alloc (switch.upcalls.take n) switch.br
      switch.ofproto).map fun (ops, br, ofproto) =>
    { switch with
      br, ofproto
      upcalls := switch.upcalls.drop n
      table := env.operate switch.table (ops.map FlowMissOp.dpifOp) }

def EdgeSwitch.step (switch : EdgeSwitch σ) : EdgeEvent → Option (EdgeSwitch σ)
  | .frame skb => switch.receive env skb
  | .update bf alloc => (switch.dp.update alloc bf).map fun dp => { switch with dp }
  | .handle n alloc => switch.handle env n alloc

end Step

structure EdgeSwitch.Starts {σ : Type} (switch : EdgeSwitch σ) : Prop where
  localFilter : switch.br.gdt.Holds [.empty switch.br.localId lcBfLocalPort]
  standard : switch.dp.Standard
  noFlows : ∀ flow, ¬ switch.table.Has flow
  noUpcalls : switch.upcalls = []

def IsIpv4 (frame : List Byte) : Prop := 14 ≤ frame.length ∧ daemonType frame = ethPIp

instance (frame : List Byte) : Decidable (IsIpv4 frame) := inferInstanceAs (Decidable (_ ∧ _))

def frameSource (frame : List Byte) : List Byte := macString (macBytes (be48 frame 6))

def frameDestination (frame : List Byte) : List Byte := macString (macBytes (be48 frame 0))

section Senders

variable {σ Rule Facet Subfacet : Type} (env : EdgeEnv σ Rule Facet Subfacet)

/-- Whenever no upcall waits, the local filter reports the sources of all IPv4 frames that have
arrived from the local port, and it goes on reporting them. -/
def SendersKnown (start : EdgeSwitch σ) (events : List EdgeEvent) : Prop :=
  ∀ front back, events = front ++ back →
    ∃ middle final, Run.exec (EdgeSwitch.step env) start front = some middle ∧
      Run.exec (EdgeSwitch.step env) middle back = some final ∧
        (middle.upcalls = [] → ∀ skb, .frame skb ∈ front → IsIpv4 skb.data →
          final.br.LocalReports (frameSource skb.data))

def EdgeSwitch.HasFlow (switch : EdgeSwitch σ) (skb : Skb) : Prop :=
  ∃ extraction ∈ ovsFlowExtract skb.data skb.priority 0 ovspLocal,
    (switch.table.ovsFlowTblLookup env.jhash2 env.jhash1word extraction.key
      extraction.keyLen).isSome

/-- The steps that let the switch learn.  A frame must not look like one of another switch, nor hide
from the daemon that the datapath takes it for IPv4; no filter of the datapath may report its
destination unless its source is known or it has a flow.  Updates have filters of the default
length. -/
def EdgeSwitch.Teaches (switch : EdgeSwitch σ) : EdgeEvent → Prop
  | .frame skb =>
    ovsVportReceiveEncaped skb = some false ∧
      (frameType skb.data = ethPIp → IsIpv4 skb.data) ∧
      (IsIpv4 skb.data →
        switch.br.LocalReports (frameSource skb.data) ∨ switch.HasFlow env skb ∨
          checkFilter switch.dp.gdt (frameDestination skb.data) = some none)
  | .update bf _ => bf.len = lcBfDftLen
  | .handle _ _ => True

def DpifUpcall.Tells (upcall : DpifUpcall) (s : List Byte) : Prop :=
  ∃ miss data, startMiss env.vspVlandevToRealdev upcall = some (some (miss, data)) ∧
    IsLocalIpv4 miss.flow ∧ sourceString miss.flow = s

def EdgeSwitch.Knows (switch : EdgeSwitch σ) (s : List Byte) : Prop :=
  switch.br.LocalReports s ∨ ∃ upcall ∈ switch.upcalls, upcall.Tells env s

def DpifUpcall.IsLocal (upcall : DpifUpcall) : Prop :=
  ∃ key : Packet.SwFlowKey, upcall.key = ovsFlowToNlattrs key ∧ key.Clean ∧ key.inPort = ovspLocal ∧
    (key.type = ethPIp → upcall.Tells env (macString (macBytes key.ethSrc)))

structure EdgeSwitch.Inv (switch : EdgeSwitch σ) : Prop where
  hasLocal : switch.br.HasLocal
  standard : switch.dp.Standard
  upcalls : ∀ upcall ∈ switch.upcalls, upcall.IsLocal env
  flows : ∀ flow, switch.table.Has flow → flow.key.type = ethPIp →
    switch.br.LocalReports (macString (macBytes flow.key.ethSrc))

structure EdgeSwitch.Advances (switch : EdgeSwitch σ) (event : EdgeEvent) (next : EdgeSwitch σ) :
    Prop where
  inv : next.Inv env
  reports : ∀ s, switch.br.LocalReports s → next.br.LocalReports s
  knows : ∀ s, switch.Knows env s → next.Knows env s
  learns : ∀ skb, event = .frame skb → IsIpv4 skb.data → next.Knows env (frameSource skb.data)

variable {env}

theorem IsIpv4.frameType_eq {frame : List Byte} (isIpv4 : IsIpv4 frame) :
    frameType frame = ethPIp := by
  have type := isIpv4.2
  rw [daemonType] at type
  rw [frameType]
  split_ifs at type with regular long
  · rw [if_pos regular.1, type]
  · have plain : ¬ HasSnap frame := fun snap => absurd snap.1 (Nat.not_lt.mpr long)
    rw [if_neg plain, if_pos long, type]
  · exact absurd type (by decide)

theorem flow_of_isIpv4 {frame : List Byte} (isIpv4 : IsIpv4 frame) (priority : BitVec 32)
    (tunId : BitVec 64) :
    let flow := (flowExtract frame priority tunId ofppLocal).flow
    IsLocalIpv4 flow ∧ sourceString flow = frameSource frame := by
  rw [flowExtract_eq_daemon priority tunId ofppLocal isIpv4.1]
  simp only [if_pos isIpv4.2]
  rw [parseIpv4_flow frame (daemonOffset frame) rfl]
  exact ⟨⟨rfl, isIpv4.2⟩, rfl⟩

theorem link_of_extract {frame : List Byte} {priority : BitVec 32} {tunId : BitVec 64}
    {inPort : BitVec 16} {extraction : Extraction}
    (extract : ovsFlowExtract frame priority tunId inPort = some extraction) :
    extraction.key.ethSrc = be48 frame 6 ∧ extraction.key.ethDst = be48 frame 0 := by
  have link := (linkFlow_of_ovsFlowExtract extract).1
  exact ⟨congrArg Packet.Flow.dlSrc link, congrArg Packet.Flow.dlDst link⟩

theorem tells_of_isIpv4 (ordinary : (env.vspVlandevToRealdev ofppLocal).1 = 0) {skb : Skb}
    (isIpv4 : IsIpv4 skb.data) {priority : BitVec 32} {tunId : BitVec 64} {extraction : Extraction}
    (extract : ovsFlowExtract skb.data priority tunId ovspLocal = some extraction) :
    (missUpcall extraction.key skb).Tells env (frameSource skb.data) := by
  have extracted := extracted_of_ovsFlowExtract (by decide) extract
  have keyPort := (linkFlow_of_ovsFlowExtract extract).2
  have known : extraction.key.TypeOk := by
    rw [Packet.SwFlowKey.TypeOk, extracted.type, isIpv4.frameType_eq]
    decide
  have converted := odpFlowKeyToFlow_of_typeOk extracted.clean (keyPort ▸ by decide) known
  have inPort : extraction.key.flow.inPort = ofppLocal := by
    have link : extraction.key.linkFlow.inPort = ofppLocal :=
      congrArg Packet.Flow.inPort (linkFlow_of_ovsFlowExtract extract).1
    rw [Packet.SwFlowKey.flow]
    split_ifs <;> exact link
  have kept : vspAdjustFlow env.vspVlandevToRealdev extraction.key.flow = none := by
    rw [vspAdjustFlow, inPort]
    exact if_pos ordinary
  have started : startMiss env.vspVlandevToRealdev (missUpcall extraction.key skb) =
      some (some ({ flow := (flowExtract skb.data extraction.key.flow.skbPriority
                      extraction.key.flow.tunId ofppLocal).flow
                    keyFitness := .perfect
                    key := ovsFlowToNlattrs extraction.key
                    initialTci := extraction.key.flow.vlanTci
                    packets := []
                    upcallType := .miss }, skb.data)) := by
    rw [startMiss, missUpcall, ofprotoDpifExtractFlowKey, converted, ← inPort]
    simp [kept]
  exact ⟨_, _, started, flow_of_isIpv4 isIpv4 _ _⟩

theorem EdgeSwitch.Inv.reports_of_hasFlow {switch : EdgeSwitch σ} (inv : switch.Inv env) {skb : Skb}
    (isIpv4 : IsIpv4 skb.data) (hasFlow : switch.HasFlow env skb) :
    switch.br.LocalReports (frameSource skb.data) := by
  obtain ⟨extraction, extract, found⟩ := hasFlow
  obtain ⟨flow, matched⟩ := Option.isSome_iff_exists.mp found
  obtain ⟨has, same⟩ := FlowTable.has_of_lookup env.jhash2 env.jhash1word matched
  obtain ⟨src, type⟩ := Packet.SwFlowKey.link_of_bytesTo same
  have extracted := extracted_of_ovsFlowExtract (by decide) extract
  rw [frameSource, ← (link_of_extract extract).1, ← src]
  exact inv.flows flow has (type.trans (extracted.type.trans isIpv4.frameType_eq))

theorem EdgeSwitch.Inv.advances_same {switch : EdgeSwitch σ} (inv : switch.Inv env)
    {event : EdgeEvent} (learns : ∀ skb, event = .frame skb → IsIpv4 skb.data →
      switch.Knows env (frameSource skb.data)) : switch.Advances env event switch :=
  ⟨inv, fun _ reported => reported, fun _ known => known, learns⟩

theorem EdgeSwitch.Inv.advances_upcall (ordinary : (env.vspVlandevToRealdev ofppLocal).1 = 0)
    {switch : EdgeSwitch σ} (inv : switch.Inv env) {skb : Skb}
    (seen : frameType skb.data = ethPIp → IsIpv4 skb.data) {priority : BitVec 32}
    {tunId : BitVec 64} {extraction : Extraction}
    (extract : ovsFlowExtract skb.data priority tunId ovspLocal = some extraction) :
    switch.Advances env (.frame skb)
      { switch with upcalls := switch.upcalls ++ [missUpcall extraction.key skb] } := by
  have extracted := extracted_of_ovsFlowExtract (by decide) extract
  have own : (missUpcall extraction.key skb).IsLocal env := by
    refine ⟨extraction.key, rfl, extracted.clean, (linkFlow_of_ovsFlowExtract extract).2, ?_⟩
    intro isIpv4
    rw [(link_of_extract extract).1]
    exact tells_of_isIpv4 ordinary (seen (extracted.type.symm.trans isIpv4)) extract
  refine ⟨⟨inv.hasLocal, inv.standard, fun upcall member => ?_, inv.flows⟩,
    fun _ reported => reported, fun s known => ?_, fun other same isIpv4 => ?_⟩
  · rcases List.mem_append.mp member with old | new
    · exact inv.upcalls upcall old
    · rw [List.mem_singleton.mp new]
      exact own
  · refine known.imp id fun ⟨upcall, member, tells⟩ => ?_
    exact ⟨upcall, List.mem_append_left _ member, tells⟩
  · cases same
    exact .inr ⟨_, List.mem_append_right _ (List.mem_singleton.mpr rfl),
      tells_of_isIpv4 ordinary isIpv4 extract⟩

theorem EdgeSwitch.Inv.advances_frame (ordinary : (env.vspVlandevToRealdev ofppLocal).1 = 0)
    {switch : EdgeSwitch σ} (inv : switch.Inv env) {skb : Skb}
    (teaches : switch.Teaches env (.frame skb)) :
    ∃ next, switch.step env (.frame skb) = some next ∧ switch.Advances env (.frame skb) next := by
  obtain ⟨plain, seen, unreported⟩ := teaches
  rw [EdgeSwitch.step, EdgeSwitch.receive, ovsVportReceive_of_plain plain]
  cases extract : ovsFlowExtract skb.data skb.priority 0 ovspLocal with
  | none =>
    refine ⟨switch, rfl, inv.advances_same fun other same isIpv4 => ?_⟩
    cases same
    have zero := (ovsFlowExtract_eq_none_iff ..).mp extract
    exact absurd (isIpv4.frameType_eq.symm.trans zero) (by decide)
  | some extraction =>
    have dst : frameDestination skb.data = macString (macBytes extraction.key.ethDst) := by
      rw [(link_of_extract extract).2, frameDestination]
    dsimp only
    rw [processExtracted]
    cases matched : switch.table.ovsFlowTblLookup env.jhash2 env.jhash1word extraction.key
        extraction.keyLen with
    | some flow =>
      refine ⟨switch, rfl, inv.advances_same fun other same isIpv4 => ?_⟩
      cases same
      exact .inl (inv.reports_of_hasFlow isIpv4 ⟨extraction, extract, by simp [matched]⟩)
    | none =>
      obtain ⟨found, missed⟩ : ∃ found, missFilter switch.dp false extraction.key = some found := by
        rw [missFilter]
        split_ifs
        · exact inv.standard.checkFilter _
        · exact ⟨none, rfl⟩
      cases found with
      | none =>
        refine ⟨_, ?_, inv.advances_upcall ordinary seen extract⟩
        rw [missed]
        rfl
      | some bf =>
        refine ⟨switch, ?_, inv.advances_same fun other same isIpv4 => ?_⟩
        · rw [missed]
          rfl
        · cases same
          rcases unreported isIpv4 with known | hasFlow | silent
          · exact .inl known
          · exact .inl (inv.reports_of_hasFlow isIpv4 hasFlow)
          · rw [missFilter] at missed
            split_ifs at missed
            · rw [← dst, silent] at missed
              cases missed
            · cases missed

theorem DpifUpcall.IsLocal.readable {upcall : DpifUpcall} (isLocal : upcall.IsLocal env) :
    (odpFlowKeyToFlow upcall.key).isSome := by
  obtain ⟨key, keyEq, clean, port, -⟩ := isLocal
  have small : (key.inPort.toNat : Int) < ofppMax := port ▸ by decide
  rw [keyEq]
  by_cases known : key.TypeOk
  · rw [odpFlowKeyToFlow_of_typeOk clean small known]
    rfl
  · obtain ⟨flow, refused⟩ := odpFlowKeyToFlow_of_not_typeOk clean small known
    rw [refused]
    rfl

theorem DpifUpcall.IsLocal.tells_of_parsed {upcall : DpifUpcall} (isLocal : upcall.IsLocal env)
    {key : Packet.SwFlowKey} {keyLen : KeyMember}
    (parsed : ovsFlowFromNlattrs upcall.key = some (key, keyLen)) (isIpv4 : key.type = ethPIp) :
    upcall.Tells env (macString (macBytes key.ethSrc)) := by
  obtain ⟨own, keyEq, clean, -, tells⟩ := isLocal
  rw [keyEq, ovsFlowFromNlattrs_ovsFlowToNlattrs clean] at parsed
  split_ifs at parsed
  obtain rfl : own = key := (Prod.mk.inj (Option.some.inj parsed)).1
  exact tells isIpv4

theorem has_of_operate {table : FlowTable (List DpAction)} {ops : List (FlowMissOp Subfacet)}
    {flow : SwFlow (List DpAction)} (has : (env.operate table (ops.map FlowMissOp.dpifOp)).Has flow) :
    (∃ old, table.Has old ∧ old.key = flow.key) ∨
      ∃ key ∈ putKeys ops, ∃ keyLen, ovsFlowFromNlattrs key = some (flow.key, keyLen) := by
  induction ops generalizing table with
  | nil => exact .inl ⟨flow, has, rfl⟩
  | cons op ops ih =>
    obtain ⟨dpifOp, subfacet⟩ := op
    cases dpifOp with
    | execute packet key actions => exact ih has
    | flowPut key actions =>
      rcases ih has with ⟨old, hasOld, same⟩ | ⟨other, listed, parsed⟩
      · rcases FlowTable.has_of_ovsFlowCmdNew env.jhash2 env.jhash1word hasOld with
          ⟨older, hasOlder, sameOlder⟩ | parsed
        · exact .inl ⟨older, hasOlder, sameOlder.trans same⟩
        · exact .inr ⟨key, List.mem_cons_self, same ▸ parsed⟩
      · exact .inr ⟨other, List.mem_cons_of_mem _ listed, parsed⟩

theorem EdgeSwitch.Inv.advances_handle {switch : EdgeSwitch σ} (inv : switch.Inv env) (n : Nat)
    (alloc : Nat → Alloc) :
    ∃ next, switch.step env (.handle n alloc) = some next ∧
      switch.Advances env (.handle n alloc) next := by
  have listed {upcall} (member : upcall ∈ switch.upcalls.take (min n flowMissMaxBatch)) :=
    inv.upcalls upcall (List.mem_of_mem_take member)
  have small : (switch.upcalls.take (min n flowMissMaxBatch)).length ≤ flowMissMaxBatch := by
    rw [List.length_take]
    omega
  obtain ⟨todo, ops, after, final, ran, perm, -, -, keys, learns⟩ :=
    handleMissUpcalls_spec env.toOfprotoDpif env.permutes alloc small
      (fun upcall member => (listed member).readable) inv.hasLocal.sound switch.ofproto
  have learned := learns inv.hasLocal
  have told {upcall} (member : upcall ∈ switch.upcalls.take (min n flowMissMaxBatch))
      {s : List Byte} (tells : upcall.Tells env s) : after.LocalReports s := by
    obtain ⟨i, found⟩ := List.mem_iff_getElem?.mp member
    obtain ⟨miss, data, started, isLocal, rfl⟩ := tells
    have arrived : (miss, ⟨0 + i, data⟩) ∈ arrivals env.vspVlandevToRealdev 0
        (switch.upcalls.take (min n flowMissMaxBatch)) :=
      @mem_arrivals_of_getElem? _ _ _ _ _ (miss, data) found (by rw [started]; rfl)
    exact learned.learns (miss, ⟨0 + i, data⟩) arrived rfl isLocal
  have taken : switch.step env (.handle n alloc) = some
      { br := after, dp := switch.dp, ofproto := final
        upcalls := switch.upcalls.drop (min n flowMissMaxBatch)
        table := env.operate switch.table (ops.map FlowMissOp.dpifOp) } := by
    rw [EdgeSwitch.step, EdgeSwitch.handle, ran]
    rfl
  refine ⟨_, taken, ⟨learned.hasLocal, inv.standard, fun upcall member => ?_, fun flow has isIpv4 => ?_⟩,
    learned.keeps, fun s known => ?_, fun skb same => by cases same⟩
  · exact inv.upcalls upcall (List.mem_of_mem_drop member)
  · rcases has_of_operate has with ⟨old, hasOld, same⟩ | ⟨key, put, keyLen, parsed⟩
    · rw [← same] at isIpv4 ⊢
      exact learned.keeps _ (inv.flows old hasOld isIpv4)
    · obtain ⟨miss, inTodo, rfl⟩ := List.mem_map.mp (keys put)
      obtain ⟨arrival, arrived, sameKey⟩ := key_of_mem_missesOf (perm.mem_iff.mp inTodo)
      obtain ⟨j, upcall, -, found, started⟩ := mem_arrivals arrived
      have member := List.mem_of_getElem? found
      rw [← sameKey, (of_startMiss started).2] at parsed
      exact told member ((listed member).tells_of_parsed parsed isIpv4)
  · rcases known with reported | ⟨upcall, member, tells⟩
    · exact .inl (learned.keeps s reported)
    · rw [← List.take_append_drop (min n flowMissMaxBatch) switch.upcalls] at member
      rcases List.mem_append.mp member with now | later
      · exact .inl (told now tells)
      · exact .inr ⟨upcall, later, tells⟩

theorem EdgeSwitch.Inv.advances (ordinary : (env.vspVlandevToRealdev ofppLocal).1 = 0)
    {switch : EdgeSwitch σ} (inv : switch.Inv env) {event : EdgeEvent}
    (teaches : switch.Teaches env event) :
    ∃ next, switch.step env event = some next ∧ switch.Advances env event next := by
  cases event with
  | frame skb => exact inv.advances_frame ordinary teaches
  | update bf alloc =>
    obtain ⟨dp, updated, standard⟩ := inv.standard.update alloc teaches
    refine ⟨{ switch with dp }, by rw [EdgeSwitch.step, updated]; rfl,
      ⟨inv.hasLocal, standard, inv.upcalls, inv.flows⟩, fun _ reported => reported,
      fun _ known => known, fun skb same => by cases same⟩
  | handle n alloc => exact inv.advances_handle n alloc

theorem EdgeSwitch.Inv.exec (ordinary : (env.vspVlandevToRealdev ofppLocal).1 = 0)
    {switch : EdgeSwitch σ} (inv : switch.Inv env) {events : List EdgeEvent}
    (teaches : Run.Along (EdgeSwitch.step env) (EdgeSwitch.Teaches env) switch events) :
    ∃ final, Run.exec (EdgeSwitch.step env) switch events = some final ∧ final.Inv env ∧
      (∀ s, switch.br.LocalReports s → final.br.LocalReports s) ∧
        (∀ s, switch.Knows env s → final.Knows env s) ∧
        ∀ skb, .frame skb ∈ events → IsIpv4 skb.data →
          final.Knows env (frameSource skb.data) := by
  induction events generalizing switch with
  | nil =>
    exact ⟨switch, rfl, inv, fun _ reported => reported, fun _ known => known,
      fun _ member => absurd member List.not_mem_nil⟩
  | cons event events ih =>
    obtain ⟨next, taken, advances⟩ := inv.advances ordinary teaches.1
    obtain ⟨final, run, finalInv, reports, knows, learns⟩ :=
      ih advances.inv (teaches.2 next taken)
    refine ⟨final, Run.exec_cons_eq_some.mpr ⟨next, taken, run⟩, finalInv,
      fun s reported => reports s (advances.reports s reported),
      fun s known => knows s (advances.knows s known), fun skb member isIpv4 => ?_⟩
    rcases List.mem_cons.mp member with first | later
    · exact knows _ (advances.learns skb first.symm isIpv4)
    · exact learns skb later isIpv4

theorem EdgeSwitch.Starts.inv {switch : EdgeSwitch σ} (starts : switch.Starts) : switch.Inv env where
  hasLocal := by
    refine ⟨_, .empty switch.br.localId lcBfLocalPort, starts.localFilter, ?_,
      BloomFilter.valid_of_dftLen rfl⟩
    simp [lookup, BloomFilter.empty]
  standard := starts.standard
  upcalls upcall member := absurd (starts.noUpcalls ▸ member) List.not_mem_nil
  flows flow has := absurd has (starts.noFlows flow)

theorem EdgeSwitch.Starts.sendersKnown (ordinary : (env.vspVlandevToRealdev ofppLocal).1 = 0)
    {start : EdgeSwitch σ} (starts : start.Starts) {events : List EdgeEvent}
    (teaches : Run.Along (EdgeSwitch.step env) (EdgeSwitch.Teaches env) start events) :
    SendersKnown env start events := by
  rintro front back rfl
  obtain ⟨first, rest⟩ := Run.along_append.mp teaches
  obtain ⟨middle, run, inv, -, -, learned⟩ := starts.inv.exec ordinary first
  obtain ⟨final, later, -, reports, -⟩ := inv.exec ordinary (rest middle run)
  refine ⟨middle, final, run, later, fun handled skb member isIpv4 => ?_⟩
  rcases learned skb member isIpv4 with reported | ⟨upcall, waiting, -⟩
  · exact reports _ reported
  · rw [handled] at waiting
    exact absurd waiting List.not_mem_nil

theorem EdgeSwitch.Starts.not_localReports {start : EdgeSwitch σ} (starts : start.Starts)
    (s : List Byte) : ¬ start.br.LocalReports s := by
  have found : lookup [BloomFilter.empty start.br.localId lcBfLocalPort] start.br.localId =
      some (.empty start.br.localId lcBfLocalPort) := by simp [lookup, BloomFilter.empty]
  rw [Bridge.localReports_iff starts.localFilter found (BloomFilter.valid_of_dftLen rfl)]
  exact not_reports_of_empty ⟨rfl, rfl⟩ rfl s

theorem EdgeSwitch.Starts.receive_remote {start : EdgeSwitch σ} (starts : start.Starts) {skb : Skb}
    (isIpv4 : IsIpv4 skb.data) (plain : ovsVportReceiveEncaped skb = some false) {bf : BloomFilter}
    (reported : checkFilter start.dp.gdt (frameDestination skb.data) = some (some bf)) :
    start.step env (.frame skb) = some start := by
  rw [EdgeSwitch.step, EdgeSwitch.receive, ovsVportReceive_of_plain plain]
  cases extract : ovsFlowExtract skb.data skb.priority 0 ovspLocal with
  | none => rfl
  | some extraction =>
    have extracted := extracted_of_ovsFlowExtract (by decide) extract
    have other : extraction.key.type ≠ ethPArp :=
      (extracted.type.trans isIpv4.frameType_eq).trans_ne (by decide)
    have missed : missFilter start.dp false extraction.key = some (some bf) := by
      rw [missFilter, if_pos ⟨rfl, other⟩, (link_of_extract extract).2]
      exact reported
    have none : start.table.ovsFlowTblLookup env.jhash2 env.jhash1word extraction.key
        extraction.keyLen = none := by
      rw [Option.eq_none_iff_forall_ne_some]
      intro flow matched
      exact starts.noFlows flow (FlowTable.has_of_lookup _ _ matched).1
    dsimp only
    rw [processExtracted, none, missed]
    rfl

theorem EdgeSwitch.Starts.not_sendersKnown {start : EdgeSwitch σ} (starts : start.Starts) {skb : Skb}
    (isIpv4 : IsIpv4 skb.data) (plain : ovsVportReceiveEncaped skb = some false) {bf : BloomFilter}
    (reported : checkFilter start.dp.gdt (frameDestination skb.data) = some (some bf))
    (alloc : Nat → Alloc) : ¬ SendersKnown env start [.frame skb, .handle 1 alloc] := by
  intro known
  have stays : start.step env (.frame skb) = some start :=
    starts.receive_remote isIpv4 plain reported
  have idle : ∀ next, start.step env (.handle 1 alloc) = some next → next.br = start.br := by
    intro next taken
    rw [EdgeSwitch.step, EdgeSwitch.handle, starts.noUpcalls] at taken
    exact congrArg (·.br) (Option.some.inj taken).symm
  obtain ⟨middle, final, run, later, reports⟩ := known [.frame skb] [.handle 1 alloc] rfl
  obtain ⟨same, taken, rest⟩ := Run.exec_cons_eq_some.mp run
  obtain rfl := Option.some.inj (stays.symm.trans taken)
  obtain rfl := Option.some.inj rest
  obtain ⟨next, handled, ended⟩ := Run.exec_cons_eq_some.mp later
  obtain rfl := Option.some.inj ended
  have found := reports starts.noUpcalls skb List.mem_cons_self isIpv4
  rw [idle next handled] at found
  exact starts.not_localReports _ found

/-- **Local senders.** In every run from the start of a switch whose steps let it learn, in whatever
order frames, updates and batches come: when the upcalls have been handled, the sources of the IPv4
frames from the local port are in the local filter.  A first frame is learned exactly when no filter
of the datapath reports its destination. -/
theorem sendersKnown_of_teaches (env : EdgeEnv σ Rule Facet Subfacet)
    (ordinary : (env.vspVlandevToRealdev ofppLocal).1 = 0) {start : EdgeSwitch σ}
    (starts : start.Starts) :
    (∀ events, Run.Along (EdgeSwitch.step env) (EdgeSwitch.Teaches env) start events →
      SendersKnown env start events) ∧
    ∀ (skb : Skb) (alloc : Nat → Alloc), IsIpv4 skb.data →
      ovsVportReceiveEncaped skb = some false →
      (SendersKnown env start [.frame skb, .handle 1 alloc] ↔
        checkFilter start.dp.gdt (frameDestination skb.data) = some none) := by
  refine ⟨fun events teaches => starts.sendersKnown ordinary teaches, fun skb alloc isIpv4 plain =>
    ⟨fun known => ?_, fun silent => ?_⟩⟩
  · obtain ⟨found, checked⟩ := starts.standard.checkFilter (frameDestination skb.data)
    cases found with
    | none => exact checked
    | some bf => exact absurd known (starts.not_sendersKnown isIpv4 plain checked alloc)
  · refine starts.sendersKnown ordinary ⟨⟨plain, fun _ => isIpv4, fun _ => .inr (.inr silent)⟩, ?_⟩
    exact fun _ _ => ⟨trivial, fun _ _ => trivial⟩

theorem SendersKnown.tail {start next : EdgeSwitch σ} {event : EdgeEvent} {events : List EdgeEvent}
    (known : SendersKnown env start (event :: events)) (taken : start.step env event = some next) :
    SendersKnown env next events := by
  rintro front back rfl
  obtain ⟨middle, final, run, later, reports⟩ := known (event :: front) back rfl
  obtain ⟨other, otherTaken, rest⟩ := Run.exec_cons_eq_some.mp run
  obtain rfl := Option.some.inj (taken.symm.trans otherTaken)
  exact ⟨middle, final, rest, later, fun handled skb member =>
    reports handled skb (List.mem_cons_of_mem _ member)⟩

end Senders

def plainEnv : EdgeEnv Unit Unit Unit Unit where
  toOfprotoDpif := plainOfproto
  jhash2 _ := 0
  jhash1word _ _ := 0
  validateActions _ _ := some []
  order := id
  permutes _ := .refl _

def freshEdge : EdgeSwitch Unit where
  toSwitch := freshSwitch lcBfLocalId 0
  table := { buckets := [[]], hashSeed := 0, sized := ⟨0, rfl⟩ }
  upcalls := []
  ofproto := ()

/-- The filter of another switch that has learned very many hosts. -/
def crowdedFilter : BloomFilter :=
  { BloomFilter.empty 0x01010101 lcBfRemotePort with array := fun _ => 0xff }

theorem starts_freshEdge : freshEdge.Starts where
  localFilter := ⟨rfl, by decide, rfl⟩
  standard gdt same := by
    obtain rfl := Option.some.inj same
    exact ⟨_, ⟨rfl, by decide, rfl⟩, stdTable_empty lcBfLocalId lcBfLocalPort⟩
  noFlows flow has := by
    obtain ⟨bucket, listed, member⟩ := has
    rw [List.mem_singleton.mp listed] at member
    exact absurd member List.not_mem_nil
  noUpcalls := rfl

/-- A frame from the local port of a new switch is learned. -/
theorem sendersKnown_localFrame :
    SendersKnown plainEnv freshEdge
      [.frame (netdevReceive localUpcall.packet), .handle 1 fun _ => none] :=
  (sendersKnown_of_teaches plainEnv rfl starts_freshEdge).1 _
    ⟨⟨by decide, fun _ => by decide, fun _ => .inr (.inr rfl)⟩,
      fun _ _ => ⟨trivial, fun _ _ => trivial⟩⟩

theorem checkFilter_crowded :
    ((freshEdge.dp.update (some fun _ => 0) crowdedFilter).bind fun dp =>
      (checkFilter dp.gdt (frameDestination localUpcall.packet)).join).isSome = true := by
  decide +kernel

/-- After an update with the filter of a switch that seems to have the destination, the frame goes
there and its source is not learned. -/
theorem not_sendersKnown_remoteDestination :
    freshEdge.Starts ∧
      ¬ SendersKnown plainEnv freshEdge
        [.update crowdedFilter (some fun _ => 0), .frame (netdevReceive localUpcall.packet),
          .handle 1 fun _ => none] := by
  refine ⟨starts_freshEdge, fun known => ?_⟩
  obtain ⟨dp, updated, standard⟩ :=
    starts_freshEdge.standard.update (some fun _ => 0) (show crowdedFilter.len = _ from rfl)
  have next : freshEdge.step plainEnv (.update crowdedFilter (some fun _ => 0)) =
      some { freshEdge with dp } := by
    rw [EdgeSwitch.step, updated]
    rfl
  have starts : ({ freshEdge with dp } : EdgeSwitch Unit).Starts :=
    { starts_freshEdge with standard }
  have found := checkFilter_crowded
  rw [updated, Option.bind_some] at found
  obtain ⟨bf, reported⟩ := Option.isSome_iff_exists.mp found
  have isIpv4 : IsIpv4 (netdevReceive localUpcall.packet).data := by decide
  have plain : ovsVportReceiveEncaped (netdevReceive localUpcall.packet) = some false := by decide
  exact starts.not_sendersKnown isIpv4 plain (Option.join_eq_some_iff.mp reported) _
    (known.tail next)

end Ofproto
end LazyCtrl
