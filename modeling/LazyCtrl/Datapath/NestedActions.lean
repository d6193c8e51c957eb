import LazyCtrl.Lib.NlaWalk
import LazyCtrl.Packet.OvsNlattrs
import LazyCtrl.Datapath.Ownership

/-!
# Action lists in memory

`validate_actions` checks the bytes of an action list, and `do_execute_actions` walks over the same
bytes without checking them again.  Here both are functions of the memory that the list is in: the
first gives the attributes that it visits, the second these attributes and what it reads.

The loops of the two differ in their conditions.  That makes no difference for a list of actions or
for the attributes of `SAMPLE`, because bytes that are left over are rejected there.  The attributes
of `USERSPACE` are checked by `nla_parse_nested`, which does not mind bytes behind the last
attribute, while the loop of `output_userspace` takes them for another attribute.
-/

namespace LazyCtrl
namespace NestedActions

open Netlink (align le_align)
open Nla

inductive OvsActionAttr where
  | output
  | userspace
  | set
  | pushVlan
  | popVlan
  | sample
  | remote
  deriving DecidableEq, Repr

def OvsActionAttr.ofCode (type : BitVec 16) : Option OvsActionAttr :=
  match type.toNat with
  | 1 => some .output
  | 2 => some .userspace
  | 3 => some .set
  | 4 => some .pushVlan
  | 5 => some .popVlan
  | 6 => some .sample
  | 7 => some .remote
  | _ => none

/-- `action_lens`; any length is allowed for nested attributes. -/
def OvsActionAttr.len : OvsActionAttr → Option Nat
  | .output => some 4
  | .remote => some 8
  | .pushVlan => some 4
  | .popVlan => some 0
  | .userspace | .set | .sample => none

def userspaceAttrPid : BitVec 16 := 1

def userspaceAttrUserdata : BitVec 16 := 2

def sampleAttrProbability : BitVec 16 := 1

def sampleAttrActions : BitVec 16 := 2

inductive Visits where
  | nil
  | plain (pos : Nat) (action : OvsActionAttr) (rest : Visits)
  | userspace (pos : Nat) (attrs : List Nat) (rest : Visits)
  | sample (pos : Nat) (attrs : List Nat) (inner rest : Visits)
  | skipped (pos : Nat) (attrs : List Nat) (rest : Visits)
  | ignored (pos : Nat) (rest : Visits)
  deriving DecidableEq, Repr

variable (mem : Memory)

inductive Errno where
  | einval
  | eoverflow
  | erange
  deriving DecidableEq, Repr

def userspacePolicy (type : BitVec 16) : Int :=
  if type = userspaceAttrPid then 4 else if type = userspaceAttrUserdata then 8 else 0

def validateUserspace (pos : Nat) : Except Errno (List Nat) :=
  let found := attrs mem (data pos) (size mem pos)
  if found.all fun attr => userspacePolicy (type mem attr) ≤ size mem attr then
    match found.reverse.find? fun attr => type mem attr = userspaceAttrPid with
    | none => .error .einval
    | some pid => if le32 mem (data pid) = 0 then .error .einval else .ok found
  else .error .erange

def setKeyAt (pos : Nat) : Option SetKey :=
  match Packet.OvsKeyAttr.ofCode (type mem pos) with
  | some .priority => some (.priority (le32 mem (data pos)))
  | some .tunId => some (.tunId (be64 mem (data pos)))
  | some .ethernet => some (.ethernet (fun i => mem (data pos + i)) fun i => mem (data pos + 6 + i))
  | some .ipv4 => some (.ipv4
      { src := be32 mem (data pos)
        dst := be32 mem (data pos + 4)
        proto := mem (data pos + 8)
        tos := mem (data pos + 9)
        ttl := mem (data pos + 10)
        frag := mem (data pos + 11) })
  | some .tcp => some (.tcp (be16 mem (data pos)) (be16 mem (data pos + 2)))
  | some .udp => some (.udp (be16 mem (data pos)) (be16 mem (data pos + 2)))
  | _ => none

def keyLen (type : BitVec 16) : Int :=
  match Packet.ovsKeyLens type with
  | some size => size
  | none => -1

def validateSetAttr (key : SwFlowKey) (pos : Nat) : Except Errno Unit :=
  let ovsKey := data pos
  if (align (len mem ovsKey) : Int) ≠ size mem pos then .error .einval
  else if 63 < (type mem ovsKey).toNat ∨ size mem ovsKey ≠ keyLen (type mem ovsKey) then
    .error .einval
  else
    match setKeyAt mem ovsKey with
    | none => .error .einval
    | some setKey => if validateSet key setKey then .ok () else .error .einval

structure SampleAttrs where
  probability : Option Nat
  actions : Option Nat

def sampleAttrs : List Nat → SampleAttrs → Except Errno SampleAttrs
  | [], table => .ok table
  | attr :: found, table =>
    if type mem attr = sampleAttrProbability then
      if table.probability.isSome then .error .einval
      else sampleAttrs found { table with probability := some attr }
    else if type mem attr = sampleAttrActions then
      if table.actions.isSome then .error .einval
      else sampleAttrs found { table with actions := some attr }
    else .error .einval

section Validate

variable (key : SwFlowKey)

def validateSample (nested : Nat → Int → Except Errno Visits) (pos : Nat) :
    Except Errno (List Nat × Visits) := do
  let found := attrs mem (data pos) (size mem pos)
  let table ← sampleAttrs mem found ⟨none, none⟩
  if left mem (data pos) (size mem pos) ≠ 0 then .error .einval
  else
    match table.probability, table.actions with
    | some probability, some actions =>
      if size mem probability ≠ 4 then .error .einval
      else if size mem actions ≠ 0 ∧ size mem actions < 4 then .error .einval
      else do
        let inner ← nested (data actions) (size mem actions)
        .ok (found, inner)
    | _, _ => .error .einval

def validateAction (nested : Nat → Int → Except Errno Visits) (pos : Nat) :
    OvsActionAttr → Except Errno (Visits → Visits)
  | .userspace => do
      let found ← validateUserspace mem pos
      .ok (.userspace pos found)
  | .output =>
    if dpMaxPorts ≤ (le32 mem (data pos)).toNat then .error .einval
    else .ok (.plain pos .output)
  | .remote =>
    if dpMaxPorts ≤ (remotePort (le64 mem (data pos))).toNat then .error .einval
    else .ok (.plain pos .remote)
  | .popVlan => .ok (.plain pos .popVlan)
  | .pushVlan =>
    if be16 mem (data pos) ≠ ethP8021Q then .error .einval
    else if be16 mem (data pos + 2) &&& vlanTagPresent = 0 then .error .einval
    else .ok (.plain pos .pushVlan)
  | .set => do
      validateSetAttr mem key pos
      .ok (.plain pos .set)
  | .sample => do
      let (found, inner) ← validateSample mem nested pos
      .ok (.sample pos found inner)

def validateList (nested : Nat → Int → Except Errno Visits) : List Nat → Except Errno Visits
  | [] => .ok .nil
  | pos :: found =>
    match OvsActionAttr.ofCode (type mem pos) with
    | none => .error .einval
    | some action =>
      if action.len.any fun length : Nat => (length : Int) ≠ size mem pos then .error .einval
      else do
        let node ← validateAction mem key nested pos action
        let rest ← validateList nested found
        .ok (node rest)

def validateLevels : Nat → Nat → Int → Except Errno Visits
  | 0, _, _ => .error .eoverflow
  | levels + 1, pos, rem => do
      let visits ← validateList mem key (validateLevels levels) (attrs mem pos rem)
      if 0 < left mem pos rem then .error .einval else .ok visits

def validateActions (depth pos : Nat) (rem : Int) : Except Errno Visits :=
  validateLevels mem key (Ownership.sampleActionDepth - depth) pos rem

end Validate

structure Read where
  pos : Nat
  length : Nat
  limit : Int
  deriving DecidableEq, Repr

def Read.InBounds (n : Int) (read : Read) : Prop :=
  (read.pos : Int) + read.length ≤ read.limit ∧ read.limit ≤ n

def header (pos : Nat) (rem : Int) : Read := ⟨pos, 4, pos + rem⟩

def payload (pos : Nat) (rem : Int) (length : Nat) : Read :=
  ⟨data pos, length, min (pos + len mem pos) (pos + rem)⟩

structure Oracle where
  drawn : Nat → Bool
  fails : Nat → Bool

def Oracle.Undisturbed (oracle : Oracle) : Prop :=
  ∀ pos, oracle.drawn pos = true ∧ oracle.fails pos = false

def outputUserspace : Nat → Nat → Int → Option Read → Option (List Nat × List Read)
  | 0, _, _, _ => none
  | turns + 1, pos, rem, userdata =>
    if rem ≤ 0 then some ([], userdata.toList)
    else do
      let userdata := if type mem pos = userspaceAttrUserdata then some (payload mem pos rem 8)
        else userdata
      let pid := if type mem pos = userspaceAttrPid then [payload mem pos rem 4] else []
      let (attrs, reads) ← outputUserspace turns (next mem pos) (remaining mem pos rem) userdata
      some (pos :: attrs, header pos rem :: (pid ++ reads))

def valueLen (type : BitVec 16) : Option Nat :=
  match Packet.OvsKeyAttr.ofCode type with
  | some .priority => some 4
  | some .tunId => some 8
  | some .ethernet => some 12
  | some .ipv4 => some 12
  | some .tcp => some 4
  | some .udp => some 4
  | _ => none

def readSet (pos : Nat) (rem : Int) : List Read :=
  header pos rem :: ((valueLen (type mem pos)).map (payload mem pos rem)).toList

structure SampleWalk where
  attrs : List Nat
  reads : List Read
  taken : Bool
  actsList : Option Nat

def sampleLoop (oracle : Oracle) : Nat → Nat → Int → Option Nat → Option SampleWalk
  | 0, _, _, _ => none
  | turns + 1, pos, rem, actsList =>
    if rem ≤ 0 then some ⟨[], [], true, actsList⟩
    else if type mem pos = sampleAttrProbability ∧ oracle.drawn pos = false then
      some ⟨[pos], [header pos rem, payload mem pos rem 4], false, actsList⟩
    else do
      let actsList := if type mem pos = sampleAttrActions then some pos else actsList
      let probability :=
        if type mem pos = sampleAttrProbability then [payload mem pos rem 4] else []
      let rest ← sampleLoop oracle turns (next mem pos) (remaining mem pos rem) actsList
      some { rest with
        attrs := pos :: rest.attrs
        reads := header pos rem :: (probability ++ rest.reads) }

structure Walk where
  visits : Visits
  reads : List Read
  failed : Bool

def Walk.andThen (node : Visits → Visits) (reads : List Read) (failed : Bool)
    (rest : Option Walk) : Option Walk :=
  if failed then some ⟨node .nil, reads, true⟩
  else rest.map fun walk => ⟨node walk.visits, reads ++ walk.reads, walk.failed⟩

/-- `do_execute_actions`, for at most some number of turns of each loop; there is no result either
for a `SAMPLE` attribute without a list, where a null pointer would be dereferenced. -/
def doExecuteActions (oracle : Oracle) : Nat → Nat → Int → Option Walk
  | 0, _, _ => none
  | turns + 1, pos, rem =>
    if rem ≤ 0 then some ⟨.nil, [], false⟩
    else
      let rest := doExecuteActions oracle turns (next mem pos) (remaining mem pos rem)
      let plain (action : OvsActionAttr) (reads : List Read) (failed : Bool) :=
        Walk.andThen (.plain pos action) (header pos rem :: reads) failed rest
      match OvsActionAttr.ofCode (type mem pos) with
      | none => Walk.andThen (.ignored pos) [header pos rem] false rest
      | some .output => plain .output [payload mem pos rem 4] false
      | some .remote => plain .remote [payload mem pos rem 8] false
      | some .pushVlan => plain .pushVlan [payload mem pos rem 4] (oracle.fails pos)
      | some .popVlan => plain .popVlan [] (oracle.fails pos)
      | some .set => plain .set (readSet mem (data pos) (size mem pos)) (oracle.fails pos)
      | some .userspace => do
          let (attrs, reads) ← outputUserspace mem turns (data pos) (size mem pos) none
          Walk.andThen (.userspace pos attrs) (header pos rem :: reads) false rest
      | some .sample => do
          let loop ← sampleLoop mem oracle turns (data pos) (size mem pos) none
          if loop.taken then do
            let actsList ← loop.actsList
            let inner ← doExecuteActions oracle turns (data actsList) (size mem actsList)
            Walk.andThen (.sample pos loop.attrs inner.visits)
              (header pos rem :: (loop.reads ++ inner.reads)) inner.failed rest
          else Walk.andThen (.skipped pos loop.attrs) (header pos rem :: loop.reads) false rest

def Visits.depth : Visits → Nat
  | .nil => 1
  | .plain _ _ rest | .userspace _ _ rest | .skipped _ _ rest | .ignored _ rest => rest.depth
  | .sample _ _ inner rest => max (inner.depth + 1) rest.depth

def Visits.Handled : Visits → Prop
  | .nil => True
  | .plain _ _ rest | .userspace _ _ rest => rest.Handled
  | .sample _ attrs inner rest =>
    (∀ attr ∈ attrs, type mem attr = sampleAttrProbability ∨ type mem attr = sampleAttrActions) ∧
      inner.Handled ∧ rest.Handled
  | .skipped _ attrs rest =>
    (∀ attr ∈ attrs, type mem attr = sampleAttrProbability ∨ type mem attr = sampleAttrActions) ∧
      rest.Handled
  | .ignored _ _ => False

inductive Visits.Part : Visits → Visits → Prop
  | stop {visits} : Part .nil visits
  | plain {pos action rest visits} : Part rest visits →
      Part (.plain pos action rest) (.plain pos action visits)
  | userspace {pos attrs rest visits} : Part rest visits →
      Part (.userspace pos attrs rest) (.userspace pos attrs visits)
  | sample {pos attrs inner nested rest visits} : Part inner nested → Part rest visits →
      Part (.sample pos attrs inner rest) (.sample pos attrs nested visits)
  | skipped {pos front attrs nested rest visits} : front <+: attrs → Part rest visits →
      Part (.skipped pos front rest) (.sample pos attrs nested visits)

/-- The execution of `n` bytes in which the validator has visited some attributes: it comes to an
end, visits the same attributes unless it is stopped or draws a random number that skips a list,
reads nothing behind the end of a list or an attribute, meets only types that it knows, and calls
itself up to the depth that the validator allows. -/
def ExecutesWithin (n : Nat) (visits : Visits) : Prop :=
  ∀ oracle, ∃ turns walk, doExecuteActions mem oracle turns 0 n = some walk ∧
    walk.visits.Part visits ∧ (oracle.Undisturbed → walk.visits = visits) ∧
    (∀ read ∈ walk.reads, read.InBounds n) ∧ walk.visits.Handled mem ∧
    walk.visits.depth ≤ Ownership.sampleActionDepth

def AttrTiled (nested : Nat → Int → Prop) (pos : Nat) : Prop :=
  (OvsActionAttr.ofCode (type mem pos) = some .userspace →
    left mem (data pos) (size mem pos) ≤ 0) ∧
  (OvsActionAttr.ofCode (type mem pos) = some .sample →
    ∀ attr ∈ attrs mem (data pos) (size mem pos), type mem attr = sampleAttrActions →
      nested (data attr) (size mem attr))

/-- There are no bytes behind the attributes of `USERSPACE`, in a list and the lists in it. -/
def UserspaceTiled : Nat → Nat → Int → Prop
  | 0, _, _ => True
  | levels + 1, pos, rem => ∀ attr ∈ attrs mem pos rem, AttrTiled mem (UserspaceTiled levels) attr

instance (nested : Nat → Int → Prop) [∀ pos rem, Decidable (nested pos rem)] (pos : Nat) :
    Decidable (AttrTiled mem nested pos) :=
  inferInstanceAs (Decidable (_ ∧ _))

instance decidableUserspaceTiled :
    ∀ levels pos rem, Decidable (UserspaceTiled mem levels pos rem)
  | 0, _, _ => inferInstanceAs (Decidable True)
  | levels + 1, pos, rem =>
    have := decidableUserspaceTiled levels
    inferInstanceAs (Decidable (∀ attr ∈ attrs mem pos rem,
      AttrTiled mem (UserspaceTiled mem levels) attr))

variable {mem}

theorem Visits.one_le_depth (visits : Visits) : 1 ≤ visits.depth := by
  induction visits with
  | nil => exact le_rfl
  | plain _ _ _ ih => exact ih
  | userspace _ _ _ ih => exact ih
  | sample _ _ inner rest _ ih => exact ih.trans (le_max_right _ _)
  | skipped _ _ _ ih => exact ih
  | ignored _ _ ih => exact ih

theorem Visits.Part.depth_le {part visits : Visits} (isPart : part.Part visits) :
    part.depth ≤ visits.depth := by
  induction isPart with
  | stop => exact one_le_depth _
  | plain _ ih => exact ih
  | userspace _ ih => exact ih
  | sample _ _ inner rest => exact max_le_max (Nat.succ_le_succ inner) rest
  | skipped _ _ ih => exact ih.trans (le_max_right _ _)

theorem Visits.Part.handled {part visits : Visits} (isPart : part.Part visits)
    (handled : visits.Handled mem) : part.Handled mem := by
  induction isPart with
  | stop => trivial
  | plain _ ih => exact ih handled
  | userspace _ ih => exact ih handled
  | sample _ _ inner rest => exact ⟨handled.1, inner handled.2.1, rest handled.2.2⟩
  | skipped front _ ih =>
    exact ⟨fun attr member => handled.1 attr (front.subset member), ih handled.2.2⟩

section Reads

variable {pos : Nat} {rem n : Int}

theorem header_inBounds (long : 4 ≤ rem) (bound : pos + rem ≤ n) : (header pos rem).InBounds n := by
  simp only [Read.InBounds, header]
  omega

theorem payload_inBounds (complete : ok mem pos rem = true) (bound : pos + rem ≤ n) {length : Nat}
    (inside : (length : Int) ≤ size mem pos) : (payload mem pos rem length).InBounds n := by
  obtain ⟨-, -, whole⟩ := ok_iff.mp complete
  simp only [Read.InBounds, payload, data, size] at inside ⊢
  omega

end Reads

theorem exists_of_ok {α β : Type} {first : Except Errno α} {second : α → Except Errno β} {result : β}
    (accepted : first >>= second = .ok result) :
    ∃ value, first = .ok value ∧ second value = .ok result := by
  cases first with
  | error error => cases accepted
  | ok value => exact ⟨value, rfl, accepted⟩

section Checked

variable {key : SwFlowKey} {pos : Nat}

theorem validateUserspace_ok {found : List Nat} (accepted : validateUserspace mem pos = .ok found) :
    found = attrs mem (data pos) (size mem pos) ∧
      ∀ attr ∈ found, userspacePolicy (type mem attr) ≤ size mem attr := by
  simp only [validateUserspace] at accepted
  split at accepted
  · next long =>
      split at accepted
      · cases accepted
      · split at accepted
        · cases accepted
        · obtain rfl := Except.ok.inj accepted
          exact ⟨rfl, fun attr member => decide_eq_true_eq.mp (List.all_eq_true.mp long attr member)⟩
  · cases accepted

theorem validateSetAttr_ok (accepted : validateSetAttr mem key pos = .ok ()) :
    (align (len mem (data pos)) : Int) = size mem pos ∧
      size mem (data pos) = keyLen (type mem (data pos)) ∧
      ∃ setKey, setKeyAt mem (data pos) = some setKey := by
  simp only [validateSetAttr] at accepted
  split at accepted
  · cases accepted
  · next whole =>
      split at accepted
      · cases accepted
      · next sized =>
          split at accepted
          · cases accepted
          · next setKey found =>
              exact ⟨not_not.mp whole, not_not.mp (not_or.mp sized).2, setKey, found⟩

theorem exists_valueLen {setKey : SetKey} (found : setKeyAt mem pos = some setKey) :
    ∃ length : Nat, valueLen (type mem pos) = some length ∧ keyLen (type mem pos) = length := by
  simp only [setKeyAt] at found
  simp only [valueLen, keyLen, Packet.ovsKeyLens]
  split at found
  all_goals first
    | next code => rw [code]; exact ⟨_, rfl, rfl⟩
    | cases found

theorem readSet_inBounds {rem n : Int} (accepted : validateSetAttr mem key pos = .ok ())
    (complete : ok mem pos rem = true) (bound : pos + rem ≤ n) :
    ∀ read ∈ readSet mem (data pos) (size mem pos), read.InBounds n := by
  obtain ⟨tiles, sized, setKey, found⟩ := validateSetAttr_ok accepted
  obtain ⟨length, value, same⟩ := exists_valueLen found
  obtain ⟨-, -, whole⟩ := ok_iff.mp complete
  have inside : (data pos : Int) + size mem pos ≤ n := by
    rw [data_add_size]
    omega
  have padded := le_align (len mem (data pos))
  rw [same] at sized
  have keyOk : ok mem (data pos) (size mem pos) = true := by
    rw [size] at sized
    exact ok_iff.mpr ⟨by omega, by omega, by omega⟩
  intro read member
  rw [readSet, value, List.mem_cons] at member
  rcases member with rfl | member
  · exact header_inBounds (ok_iff.mp keyOk).1 inside
  · rw [List.mem_singleton.mp member]
    exact payload_inBounds keyOk inside sized.ge

theorem sampleAttrs_ok {found : List Nat} {table final : SampleAttrs}
    (accepted : sampleAttrs mem found table = .ok final) :
    (∀ attr ∈ found, type mem attr = sampleAttrProbability ∧ final.probability = some attr ∨
        type mem attr = sampleAttrActions ∧ final.actions = some attr) ∧
      (∀ attr, table.probability = some attr → final.probability = some attr) ∧
      (∀ attr, table.actions = some attr → final.actions = some attr) ∧
      ∀ attr, final.actions = some attr → table.actions = some attr ∨
        attr ∈ found ∧ type mem attr = sampleAttrActions := by
  induction found generalizing table with
  | nil =>
    obtain rfl := Except.ok.inj accepted
    exact ⟨fun attr member => (by cases member), fun _ same => same, fun _ same => same,
      fun _ same => .inl same⟩
  | cons attr found ih =>
    rw [sampleAttrs] at accepted
    split at accepted
    · next isProbability =>
        split at accepted
        · cases accepted
        · next absent =>
            obtain ⟨types, probability, actions, origin⟩ := ih accepted
            refine ⟨?_, fun other same => ?_, actions, fun other same => ?_⟩
            · rw [List.forall_mem_cons]
              exact ⟨.inl ⟨isProbability, probability attr rfl⟩, types⟩
            · rw [same] at absent
              exact absurd rfl absent
            · exact (origin other same).imp_right fun inside => ⟨.tail _ inside.1, inside.2⟩
    · split at accepted
      · next isActions =>
          split at accepted
          · cases accepted
          · next absent =>
              obtain ⟨types, probability, actions, origin⟩ := ih accepted
              refine ⟨?_, probability, fun other same => ?_, fun other same => ?_⟩
              · rw [List.forall_mem_cons]
                exact ⟨.inr ⟨isActions, actions attr rfl⟩, types⟩
              · rw [same] at absent
                exact absurd rfl absent
              · rcases origin other same with here | ⟨inside, isType⟩
                · obtain rfl := Option.some.inj here
                  exact .inr ⟨.head _, isActions⟩
                · exact .inr ⟨.tail _ inside, isType⟩
      · cases accepted

structure SampleChecked (pos : Nat) (nested : Nat → Int → Except Errno Visits)
    (found : List Nat) (inner : Visits) (actions : Nat) : Prop where
  attrs : found = attrs mem (data pos) (size mem pos)
  types : ∀ attr ∈ found, type mem attr = sampleAttrProbability ∧ size mem attr = 4 ∨
    type mem attr = sampleAttrActions ∧ attr = actions
  member : actions ∈ found ∧ type mem actions = sampleAttrActions
  left : left mem (data pos) (size mem pos) = 0
  inner : nested (data actions) (size mem actions) = .ok inner

theorem validateSample_ok {nested : Nat → Int → Except Errno Visits} {found : List Nat}
    {inner : Visits} (accepted : validateSample mem nested pos = .ok (found, inner)) :
    ∃ actions, @SampleChecked mem pos nested found inner actions := by
  simp only [validateSample] at accepted
  obtain ⟨table, parsed, accepted⟩ := exists_of_ok accepted
  split at accepted
  · cases accepted
  · next none_left =>
      split at accepted
      · next probability actions hasProbability hasActions =>
          split at accepted
          · cases accepted
          · next sized =>
              split at accepted
              · cases accepted
              · obtain ⟨list, valid, accepted⟩ := exists_of_ok accepted
                obtain ⟨rfl, rfl⟩ := Prod.mk.inj (Except.ok.inj accepted)
                obtain ⟨types, -, -, origin⟩ := sampleAttrs_ok parsed
                refine ⟨actions, rfl, fun attr member => ?_, ?_, not_not.mp none_left, valid⟩
                · rcases types attr member with ⟨isType, same⟩ | ⟨isType, same⟩
                  · rw [hasProbability] at same
                    obtain rfl := Option.some.inj same
                    exact .inl ⟨isType, not_not.mp sized⟩
                  · rw [hasActions] at same
                    exact .inr ⟨isType, (Option.some.inj same).symm⟩
                · exact (origin actions hasActions).resolve_left fun absent => by cases absent
      · cases accepted

theorem validateAction_ok {nested : Nat → Int → Except Errno Visits} {action : OvsActionAttr}
    {node : Visits → Visits} (accepted : validateAction mem key nested pos action = .ok node) :
    node = .plain pos action ∧ action ≠ .userspace ∧ action ≠ .sample ∨
      (∃ found, action = .userspace ∧ validateUserspace mem pos = .ok found ∧
        node = .userspace pos found) ∨
      ∃ found inner, action = .sample ∧ validateSample mem nested pos = .ok (found, inner) ∧
        node = .sample pos found inner := by
  cases action with
  | output =>
    rw [validateAction] at accepted
    split at accepted
    · cases accepted
    · exact .inl ⟨(Except.ok.inj accepted).symm, by decide, by decide⟩
  | remote =>
    rw [validateAction] at accepted
    split at accepted
    · cases accepted
    · exact .inl ⟨(Except.ok.inj accepted).symm, by decide, by decide⟩
  | pushVlan =>
    rw [validateAction] at accepted
    split at accepted
    · cases accepted
    · split at accepted
      · cases accepted
      · exact .inl ⟨(Except.ok.inj accepted).symm, by decide, by decide⟩
  | popVlan => exact .inl ⟨(Except.ok.inj accepted).symm, by decide, by decide⟩
  | set =>
    obtain ⟨⟨⟩, -, same⟩ := exists_of_ok accepted
    exact .inl ⟨(Except.ok.inj same).symm, by decide, by decide⟩
  | userspace =>
    obtain ⟨found, valid, same⟩ := exists_of_ok accepted
    exact .inr (.inl ⟨found, rfl, valid, (Except.ok.inj same).symm⟩)
  | sample =>
    obtain ⟨⟨found, inner⟩, valid, same⟩ := exists_of_ok accepted
    exact .inr (.inr ⟨found, inner, rfl, valid, (Except.ok.inj same).symm⟩)

end Checked

section Loops

variable {pos turns : Nat} {rem behind n : Int} {found : List Nat}

theorem outputUserspace_eq (visited : Visited mem pos rem found behind) (tiled : behind ≤ 0)
    (enough : rem.toNat < turns) (bound : pos + rem ≤ n)
    (sized : ∀ attr ∈ found, userspacePolicy (type mem attr) ≤ size mem attr)
    {userdata : Option Read} (before : ∀ read ∈ userdata, read.InBounds n) :
    ∃ reads, outputUserspace mem turns pos rem userdata = some (found, reads) ∧
      ∀ read ∈ reads, read.InBounds n := by
  induction visited generalizing turns userdata with
  | @stop pos rem _ =>
    obtain ⟨turns, rfl⟩ : ∃ more, turns = more + 1 := ⟨turns - 1, by omega⟩
    refine ⟨userdata.toList, ?_, fun read member => before read (Option.mem_toList.mp member)⟩
    rw [outputUserspace, if_pos tiled]
  | @step pos rem found behind complete _ ih =>
    obtain ⟨long, -, -⟩ := ok_iff.mp complete
    obtain ⟨turns, rfl⟩ : ∃ more, turns = more + 1 := ⟨turns - 1, by omega⟩
    obtain ⟨here, later⟩ := List.forall_mem_cons.mp sized
    have less := remaining_le complete
    have payloadOk : ∀ {length : Nat}, userspacePolicy (type mem pos) = length →
        (payload mem pos rem length).InBounds n :=
      fun same => payload_inBounds complete bound (same ▸ here)
    have next_ : ∀ read ∈ (if type mem pos = userspaceAttrUserdata
        then some (payload mem pos rem 8) else userdata), read.InBounds n := by
      split
      · next isType =>
          intro read member
          rw [← Option.mem_some.mp member]
          exact payloadOk (by rw [userspacePolicy, isType]; rfl)
      · exact before
    obtain ⟨reads, rest, inside⟩ := @ih turns tiled (by omega)
      (by rw [next_add_remaining]; exact bound) later _ next_
    refine ⟨header pos rem :: ((if type mem pos = userspaceAttrPid
      then [payload mem pos rem 4] else []) ++ reads), ?_, ?_⟩
    · rw [outputUserspace, if_neg (by omega)]
      simp only [rest, Option.bind_eq_bind, Option.bind_some]
    · intro read member
      rw [List.mem_cons, List.mem_append] at member
      rcases member with rfl | member | member
      · exact header_inBounds long bound
      · split at member
        · next isType =>
            rw [List.mem_singleton.mp member]
            exact payloadOk (by rw [userspacePolicy, isType]; rfl)
        · cases member
      · exact inside read member

theorem le_zero_of_outputUserspace (visited : Visited mem pos rem found behind)
    {userdata : Option Read} {reads : List Read}
    (ran : outputUserspace mem turns pos rem userdata = some (found, reads)) : behind ≤ 0 := by
  induction visited generalizing turns userdata reads with
  | @stop pos rem _ =>
    cases turns with
    | zero => cases ran
    | succ turns =>
      by_contra positive
      rw [outputUserspace, if_neg positive] at ran
      obtain ⟨⟨attrs, reads⟩, -, same⟩ := Option.bind_eq_some_iff.mp ran
      cases same
  | @step pos rem found behind complete _ ih =>
    obtain ⟨long, -, -⟩ := ok_iff.mp complete
    cases turns with
    | zero => cases ran
    | succ turns =>
      rw [outputUserspace, if_neg (by omega)] at ran
      obtain ⟨⟨attrs, reads⟩, rest, same⟩ := Option.bind_eq_some_iff.mp ran
      obtain ⟨⟨-, rfl⟩, -⟩ : (pos = pos ∧ attrs = found) ∧ True := by
        have both := Prod.mk.inj (Option.some.inj same)
        exact ⟨List.cons.inj both.1, trivial⟩
      exact ih rest

theorem exists_sampleLoop (oracle : Oracle) (visited : Visited mem pos rem found behind)
    (tiled : behind ≤ 0) (enough : rem.toNat < turns) (actsList : Option Nat) :
    ∃ loop, sampleLoop mem oracle turns pos rem actsList = some loop := by
  induction visited generalizing turns actsList with
  | @stop pos rem _ =>
    obtain ⟨turns, rfl⟩ : ∃ more, turns = more + 1 := ⟨turns - 1, by omega⟩
    exact ⟨_, by rw [sampleLoop, if_pos tiled]⟩
  | @step pos rem found behind complete _ ih =>
    obtain ⟨long, -, -⟩ := ok_iff.mp complete
    obtain ⟨turns, rfl⟩ : ∃ more, turns = more + 1 := ⟨turns - 1, by omega⟩
    have less := remaining_le complete
    rw [sampleLoop, if_neg (by omega)]
    split
    · exact ⟨_, rfl⟩
    · obtain ⟨rest, ran⟩ := @ih turns tiled (by omega)
        (if type mem pos = sampleAttrActions then some pos else actsList)
      simp only [ran]
      exact ⟨_, rfl⟩

structure SampleFollows (oracle : Oracle) (n : Int) (found : List Nat) (actions : Nat)
    (known : Prop) (loop : SampleWalk) : Prop where
  part : loop.attrs <+: found
  inBounds : ∀ read ∈ loop.reads, read.InBounds n
  whole : loop.taken = true → loop.attrs = found
  actsList : loop.taken = true → known → loop.actsList = some actions
  taken : oracle.Undisturbed → loop.taken = true

theorem sampleLoop_follows {oracle : Oracle} (visited : Visited mem pos rem found behind)
    (bound : pos + rem ≤ n) {actions : Nat} (isActions : type mem actions = sampleAttrActions)
    (types : ∀ attr ∈ found, type mem attr = sampleAttrProbability ∧ size mem attr = 4 ∨
      type mem attr = sampleAttrActions ∧ attr = actions)
    (tiled : behind ≤ 0) {actsList : Option Nat} {loop : SampleWalk}
    (ran : sampleLoop mem oracle turns pos rem actsList = some loop) :
    SampleFollows oracle n found actions (actsList = some actions ∨ actions ∈ found) loop := by
  induction visited generalizing turns actsList loop with
  | @stop pos rem _ =>
    cases turns with
    | zero => cases ran
    | succ turns =>
      rw [sampleLoop, if_pos tiled] at ran
      obtain rfl := Option.some.inj ran
      exact ⟨List.prefix_rfl, fun read member => (by cases member), fun _ => rfl,
        fun _ known => known.resolve_right List.not_mem_nil, fun _ => rfl⟩
  | @step pos rem found behind complete _ ih =>
    obtain ⟨long, -, -⟩ := ok_iff.mp complete
    obtain ⟨here, later⟩ := List.forall_mem_cons.mp types
    have headerOk := header_inBounds long bound
    have payloadOk : type mem pos = sampleAttrProbability →
        (payload mem pos rem 4).InBounds n := by
      intro isType
      rcases here with ⟨-, sized⟩ | ⟨isActions, -⟩
      · exact payload_inBounds complete bound sized.ge
      · rw [isType] at isActions
        cases isActions
    cases turns with
    | zero => cases ran
    | succ turns =>
      rw [sampleLoop, if_neg (by omega)] at ran
      split at ran
      · next lost =>
          obtain rfl := Option.some.inj ran
          refine ⟨List.prefix_append [pos] found, ?_, fun taken => (by cases taken),
            fun taken => (by cases taken), fun undisturbed => ?_⟩
          · intro read member
            rcases List.mem_cons.mp member with rfl | member
            · exact headerOk
            · rw [List.mem_singleton.mp member]
              exact payloadOk lost.1
          · rw [(undisturbed pos).1] at lost
            exact absurd lost.2 (by decide)
      · obtain ⟨rest, looped, same⟩ := Option.bind_eq_some_iff.mp ran
        obtain rfl := Option.some.inj same
        have follows := ih (by rw [next_add_remaining]; exact bound) later tiled looped
        refine ⟨(List.prefix_cons_inj pos).mpr follows.part, ?_,
          fun taken => congrArg _ (follows.whole taken), ?_, follows.taken⟩
        · intro read member
          rw [List.mem_cons, List.mem_append] at member
          rcases member with rfl | member | member
          · exact headerOk
          · split at member
            · next isType =>
                rw [List.mem_singleton.mp member]
                exact payloadOk isType
            · cases member
          · exact follows.inBounds read member
        · intro taken known
          refine follows.actsList taken ?_
          rcases here with ⟨isType, -⟩ | ⟨isType, rfl⟩
          · have other : ¬type mem pos = sampleAttrActions := by
              rw [isType]
              decide
            rw [if_neg other]
            refine known.imp_right fun member => ?_
            rcases List.mem_cons.mp member with rfl | member
            · exact absurd isActions other
            · exact member
          · rw [if_pos isType]
            exact .inl rfl

end Loops

section Lists

variable {oracle : Oracle} {n : Int} {key : SwFlowKey}

structure Follows (oracle : Oracle) (n : Int) (walk : Walk) (visits : Visits) : Prop where
  part : walk.visits.Part visits
  whole : oracle.Undisturbed → walk.visits = visits ∧ walk.failed = false
  inBounds : ∀ read ∈ walk.reads, read.InBounds n

theorem follows_andThen {node other : Visits → Visits} {reads : List Read} {failed : Bool}
    {rest : Option Walk} {visits : Visits}
    (nodes : ∀ {part visits : Visits}, part.Part visits → (node part).Part (other visits))
    (same : oracle.Undisturbed → node = other ∧ failed = false)
    (inBounds : ∀ read ∈ reads, read.InBounds n)
    (later : ∃ walk, rest = some walk ∧ Follows oracle n walk visits) :
    ∃ walk, Walk.andThen node reads failed rest = some walk ∧
      Follows oracle n walk (other visits) := by
  obtain ⟨walk, rfl, follows⟩ := later
  rw [Walk.andThen]
  split
  · next stopped =>
      refine ⟨_, rfl, nodes .stop, fun undisturbed => ?_, inBounds⟩
      rw [(same undisturbed).2] at stopped
      cases stopped
  · refine ⟨_, rfl, nodes follows.part, fun undisturbed => ?_, ?_⟩
    · obtain ⟨visited, unfailed⟩ := follows.whole undisturbed
      exact ⟨by simp only [(same undisturbed).1, visited], unfailed⟩
    · intro read member
      rcases List.mem_append.mp member with here | there
      · exact inBounds read here
      · exact follows.inBounds read there

theorem size_of_len {action : OvsActionAttr} {pos length : Nat} (fixed : action.len = some length)
    (sized : action.len.any (fun length : Nat => (length : Int) ≠ size mem pos) = false) :
    size mem pos = length := by
  rw [fixed, Option.any_some, decide_eq_false_iff_not, not_not] at sized
  exact sized.symm

theorem exists_follows_action {nested : Nat → Int → Except Errno Visits}
    {nestedTiled : Nat → Int → Prop} {pos turns : Nat} {rem : Int} {action : OvsActionAttr}
    {node : Visits → Visits} {visits : Visits}
    (lists : ∀ {pos : Nat} {rem : Int} {visits}, nested pos rem = .ok visits → nestedTiled pos rem →
      rem.toNat < turns → pos + rem ≤ n →
      ∃ walk, doExecuteActions mem oracle turns pos rem = some walk ∧ Follows oracle n walk visits)
    (complete : ok mem pos rem = true) (enough : rem.toNat ≤ turns) (bound : pos + rem ≤ n)
    (tiled : AttrTiled mem nestedTiled pos)
    (code : OvsActionAttr.ofCode (type mem pos) = some action)
    (sized : action.len.any (fun length : Nat => (length : Int) ≠ size mem pos) = false)
    (accepted : validateAction mem key nested pos action = .ok node)
    (later : ∃ walk, doExecuteActions mem oracle turns (next mem pos) (remaining mem pos rem) =
      some walk ∧ Follows oracle n walk visits) :
    ∃ walk, doExecuteActions mem oracle (turns + 1) pos rem = some walk ∧
      Follows oracle n walk (node visits) := by
  obtain ⟨long, headed, whole⟩ := ok_iff.mp complete
  have headerOk := header_inBounds long bound
  have inside : (data pos : Int) + size mem pos ≤ n := by
    rw [data_add_size]
    omega
  have shorter : (size mem pos).toNat < turns := by
    rw [size]
    omega
  rw [doExecuteActions, if_neg (by omega)]
  simp only [code]
  rcases validateAction_ok accepted with ⟨rfl, notUserspace, notSample⟩ |
    ⟨found, rfl, valid, rfl⟩ | ⟨found, inner, rfl, valid, rfl⟩
  · -- An action without attributes of its own.
    have plain : ∀ {reads : List Read} {failed : Bool}, (∀ read ∈ reads, read.InBounds n) →
        (oracle.Undisturbed → failed = false) →
        ∃ walk, Walk.andThen (.plain pos action) (header pos rem :: reads) failed
          (doExecuteActions mem oracle turns (next mem pos) (remaining mem pos rem)) = some walk ∧
          Follows oracle n walk (.plain pos action visits) :=
      fun inBounds unfailed => follows_andThen (fun part => .plain part)
        (fun undisturbed => ⟨rfl, unfailed undisturbed⟩)
        (List.forall_mem_cons.mpr ⟨headerOk, inBounds⟩) later
    have single : ∀ {length : Nat}, action.len = some length →
        ∀ read ∈ [payload mem pos rem length], read.InBounds n := by
      intro length fixed read member
      rw [List.mem_singleton.mp member]
      exact payload_inBounds complete bound (size_of_len fixed sized).ge
    have fails : oracle.Undisturbed → oracle.fails pos = false :=
      fun undisturbed => (undisturbed pos).2
    cases action with
    | output => exact plain (single rfl) fun _ => rfl
    | remote => exact plain (single rfl) fun _ => rfl
    | pushVlan => exact plain (single rfl) fails
    | popVlan => exact plain (fun read member => by cases member) fails
    | set =>
      obtain ⟨⟨⟩, valid, -⟩ := exists_of_ok accepted
      exact plain (readSet_inBounds valid complete bound) fails
    | userspace => exact absurd rfl notUserspace
    | sample => exact absurd rfl notSample
  · obtain ⟨rfl, policy⟩ := validateUserspace_ok valid
    obtain ⟨reads, ran, inBounds⟩ := @outputUserspace_eq mem _ turns _ _ n _
      (visited_attrs (data pos) (size mem pos)) (tiled.1 code) shorter inside policy none
      (fun read member => by cases member)
    rw [ran, Option.bind_eq_bind, Option.bind_some]
    exact follows_andThen (fun part => .userspace part) (fun _ => ⟨rfl, rfl⟩)
      (List.forall_mem_cons.mpr ⟨headerOk, inBounds⟩) later
  · obtain ⟨actions, checked⟩ := validateSample_ok valid
    have visited := @visited_attrs mem (data pos) (size mem pos)
    rw [← checked.attrs, checked.left] at visited
    obtain ⟨loop, ran⟩ := exists_sampleLoop oracle visited le_rfl shorter none
    have follows := sampleLoop_follows visited inside checked.member.2 checked.types le_rfl ran
    dsimp only
    rw [ran, Option.bind_eq_bind, Option.bind_some]
    split
    · next taken =>
        obtain ⟨-, after, before⟩ := visited.bounds checked.member.1
        rw [data_add_size] at before
        have actionsInside : (data actions : Int) + size mem actions ≤ n := by
          rw [data_add_size]
          omega
        obtain ⟨walk, executed, walked⟩ := lists checked.inner
          (tiled.2 code actions (checked.attrs ▸ checked.member.1) checked.member.2)
          (by rw [size] at shorter ⊢; rw [data] at after; omega) actionsInside
        rw [follows.actsList taken (.inr checked.member.1), Option.bind_eq_bind, Option.bind_some,
          executed, Option.bind_eq_bind, Option.bind_some, follows.whole taken]
        refine follows_andThen (fun part => .sample walked.part part) (fun undisturbed => ?_)
          ?_ later
        · obtain ⟨same, unfailed⟩ := walked.whole undisturbed
          exact ⟨by rw [same], unfailed⟩
        · intro read member
          rw [List.mem_cons, List.mem_append] at member
          rcases member with rfl | member | member
          · exact headerOk
          · exact follows.inBounds read member
          · exact walked.inBounds read member
    · next lost =>
        exact follows_andThen (fun part => .skipped follows.part part)
          (fun undisturbed => absurd (follows.taken undisturbed) lost)
          (List.forall_mem_cons.mpr ⟨headerOk, follows.inBounds⟩) later

theorem validateList_cons {nested : Nat → Int → Except Errno Visits} {pos : Nat} {found : List Nat}
    {visits : Visits} (accepted : validateList mem key nested (pos :: found) = .ok visits) :
    ∃ action node rest, OvsActionAttr.ofCode (type mem pos) = some action ∧
      action.len.any (fun length : Nat => (length : Int) ≠ size mem pos) = false ∧
      validateAction mem key nested pos action = .ok node ∧
      validateList mem key nested found = .ok rest ∧ visits = node rest := by
  rw [validateList] at accepted
  split at accepted
  · cases accepted
  · next action code =>
      split at accepted
      · cases accepted
      · next sized =>
          obtain ⟨node, valid, accepted⟩ := exists_of_ok accepted
          obtain ⟨rest, later, accepted⟩ := exists_of_ok accepted
          exact ⟨action, node, rest, code, Bool.eq_false_iff.mpr sized, valid, later,
            (Except.ok.inj accepted).symm⟩

theorem exists_follows_list {nested : Nat → Int → Except Errno Visits}
    {nestedTiled : Nat → Int → Prop}
    (lists : ∀ {turns pos : Nat} {rem : Int} {visits}, nested pos rem = .ok visits →
      nestedTiled pos rem → rem.toNat < turns → pos + rem ≤ n →
      ∃ walk, doExecuteActions mem oracle turns pos rem = some walk ∧ Follows oracle n walk visits)
    {pos turns : Nat} {rem behind : Int} {found : List Nat} {visits : Visits}
    (visited : Visited mem pos rem found behind) (none_left : behind ≤ 0)
    (tiled : ∀ attr ∈ found, AttrTiled mem nestedTiled attr)
    (accepted : validateList mem key nested found = .ok visits) (enough : rem.toNat < turns)
    (bound : pos + rem ≤ n) :
    ∃ walk, doExecuteActions mem oracle turns pos rem = some walk ∧
      Follows oracle n walk visits := by
  induction visited generalizing turns visits with
  | @stop pos rem _ =>
    obtain ⟨turns, rfl⟩ : ∃ more, turns = more + 1 := ⟨turns - 1, by omega⟩
    obtain rfl := Except.ok.inj accepted
    refine ⟨⟨.nil, [], false⟩, by rw [doExecuteActions, if_pos none_left], .stop,
      fun _ => ⟨rfl, rfl⟩, fun read member => by cases member⟩
  | @step pos rem found behind complete _ ih =>
    obtain ⟨turns, rfl⟩ : ∃ more, turns = more + 1 := ⟨turns - 1, by omega⟩
    obtain ⟨action, node, rest, code, sized, valid, later, rfl⟩ := validateList_cons accepted
    obtain ⟨here, there⟩ := List.forall_mem_cons.mp tiled
    have less := remaining_le complete
    obtain ⟨long, -, -⟩ := ok_iff.mp complete
    exact exists_follows_action lists complete (by omega) bound here code sized valid
      (ih none_left there later (by omega) (by rw [next_add_remaining]; exact bound))

theorem validateLevels_ok {levels pos : Nat} {rem : Int} {visits : Visits}
    (accepted : validateLevels mem key (levels + 1) pos rem = .ok visits) :
    validateList mem key (validateLevels mem key levels) (attrs mem pos rem) = .ok visits ∧
      left mem pos rem ≤ 0 := by
  obtain ⟨visits, valid, accepted⟩ := exists_of_ok accepted
  split at accepted
  · cases accepted
  · next none_left =>
      obtain rfl := Except.ok.inj accepted
      exact ⟨valid, not_lt.mp none_left⟩

theorem exists_follows {levels : Nat} : ∀ {turns pos : Nat} {rem : Int} {visits : Visits},
    validateLevels mem key levels pos rem = .ok visits → UserspaceTiled mem levels pos rem →
      rem.toNat < turns → pos + rem ≤ n →
      ∃ walk, doExecuteActions mem oracle turns pos rem = some walk ∧
        Follows oracle n walk visits := by
  induction levels with
  | zero =>
    intro turns pos rem visits accepted
    cases accepted
  | succ levels ih =>
    intro turns pos rem visits accepted tiled enough bound
    obtain ⟨valid, none_left⟩ := validateLevels_ok accepted
    exact exists_follows_list ih (visited_attrs pos rem) none_left tiled valid enough bound

def Bounded (mem : Memory) (levels : Nat) (visits : Visits) : Prop :=
  visits.Handled mem ∧ visits.depth ≤ levels

theorem bounded_action {nested : Nat → Int → Except Errno Visits} {levels pos : Nat}
    {action : OvsActionAttr} {node : Visits → Visits} {rest : Visits}
    (lists : ∀ {pos : Nat} {rem : Int} {visits}, nested pos rem = .ok visits →
      Bounded mem levels visits)
    (accepted : validateAction mem key nested pos action = .ok node)
    (later : Bounded mem (levels + 1) rest) : Bounded mem (levels + 1) (node rest) := by
  rcases validateAction_ok accepted with ⟨rfl, -, -⟩ | ⟨found, -, -, rfl⟩ |
    ⟨found, inner, -, valid, rfl⟩
  · exact later
  · exact later
  · obtain ⟨actions, checked⟩ := validateSample_ok valid
    obtain ⟨handled, deep⟩ := lists checked.inner
    refine ⟨⟨fun attr member => ?_, handled, later.1⟩, max_le (Nat.succ_le_succ deep) later.2⟩
    exact (checked.types attr member).imp And.left And.left

theorem bounded_of_ok {levels : Nat} : ∀ {pos : Nat} {rem : Int} {visits : Visits},
    validateLevels mem key levels pos rem = .ok visits → Bounded mem levels visits := by
  induction levels with
  | zero =>
    intro pos rem visits accepted
    cases accepted
  | succ levels ih =>
    intro pos rem visits accepted
    obtain ⟨valid, -⟩ := validateLevels_ok accepted
    generalize attrs mem pos rem = found at valid
    clear accepted
    induction found generalizing visits with
    | nil =>
      obtain rfl := Except.ok.inj valid
      exact ⟨trivial, Nat.le_add_left 1 levels⟩
    | cons attr found later =>
      obtain ⟨action, node, rest, -, -, checked, others, rfl⟩ := validateList_cons valid
      exact bounded_action ih checked (later others)

theorem andThen_unfailed {node : Visits → Visits} {reads : List Read} {failed : Bool}
    (unfailed : failed = false) {rest : Option Walk} {walk : Walk}
    (ran : Walk.andThen node reads failed rest = some walk) :
    ∃ later, rest = some later ∧ walk.visits = node later.visits ∧ walk.failed = later.failed := by
  rw [Walk.andThen, unfailed] at ran
  obtain ⟨later, same, rfl⟩ := Option.map_eq_some_iff.mp ran
  exact ⟨later, same, rfl, rfl⟩

theorem doExecuteActions_undisturbed (undisturbed : oracle.Undisturbed) {turns pos : Nat}
    {rem : Int} (positive : 0 < rem)
    {walk : Walk} (ran : doExecuteActions mem oracle (turns + 1) pos rem = some walk)
    (lists : ∀ {pos : Nat} {rem : Int} {walk : Walk},
      doExecuteActions mem oracle turns pos rem = some walk → walk.failed = false) :
    ∃ later, doExecuteActions mem oracle turns (next mem pos) (remaining mem pos rem) =
        some later ∧ walk.failed = later.failed ∧
      match OvsActionAttr.ofCode (type mem pos) with
      | none => walk.visits = .ignored pos later.visits
      | some .userspace => ∃ attrs reads,
          outputUserspace mem turns (data pos) (size mem pos) none = some (attrs, reads) ∧
            walk.visits = .userspace pos attrs later.visits
      | some .sample => ∃ loop,
          sampleLoop mem oracle turns (data pos) (size mem pos) none = some loop ∧
            (loop.taken = true → ∃ actsList inner, loop.actsList = some actsList ∧
              doExecuteActions mem oracle turns (data actsList) (size mem actsList) = some inner ∧
                walk.visits = .sample pos loop.attrs inner.visits later.visits)
      | some action => walk.visits = .plain pos action later.visits := by
  rw [doExecuteActions, if_neg (by omega)] at ran
  have fails := (undisturbed pos).2
  cases code : OvsActionAttr.ofCode (type mem pos) with
  | none =>
    simp only [code] at ran
    obtain ⟨later, rest, same, unfailed⟩ := andThen_unfailed rfl ran
    exact ⟨later, rest, unfailed, same⟩
  | some action =>
    simp only [code] at ran
    cases action with
    | output =>
      obtain ⟨later, rest, same, unfailed⟩ := andThen_unfailed rfl ran
      exact ⟨later, rest, unfailed, same⟩
    | remote =>
      obtain ⟨later, rest, same, unfailed⟩ := andThen_unfailed rfl ran
      exact ⟨later, rest, unfailed, same⟩
    | pushVlan =>
      obtain ⟨later, rest, same, unfailed⟩ := andThen_unfailed fails ran
      exact ⟨later, rest, unfailed, same⟩
    | popVlan =>
      obtain ⟨later, rest, same, unfailed⟩ := andThen_unfailed fails ran
      exact ⟨later, rest, unfailed, same⟩
    | set =>
      obtain ⟨later, rest, same, unfailed⟩ := andThen_unfailed fails ran
      exact ⟨later, rest, unfailed, same⟩
    | userspace =>
      obtain ⟨⟨attrs, reads⟩, looped, ran⟩ := Option.bind_eq_some_iff.mp ran
      obtain ⟨later, rest, same, unfailed⟩ := andThen_unfailed rfl ran
      exact ⟨later, rest, unfailed, attrs, reads, looped, same⟩
    | sample =>
      obtain ⟨loop, looped, ran⟩ := Option.bind_eq_some_iff.mp ran
      split at ran
      · obtain ⟨actsList, found, ran⟩ := Option.bind_eq_some_iff.mp ran
        obtain ⟨inner, executed, ran⟩ := Option.bind_eq_some_iff.mp ran
        obtain ⟨later, rest, same, unfailed⟩ := andThen_unfailed (lists executed) ran
        exact ⟨later, rest, unfailed, loop, looped,
          fun _ => ⟨actsList, inner, found, executed, same⟩⟩
      · next lost =>
          obtain ⟨later, rest, -, unfailed⟩ := andThen_unfailed rfl ran
          exact ⟨later, rest, unfailed, loop, looped, fun taken => absurd taken lost⟩

theorem unfailed_of_undisturbed (undisturbed : oracle.Undisturbed) {turns : Nat} :
    ∀ {pos : Nat} {rem : Int} {walk : Walk},
      doExecuteActions mem oracle turns pos rem = some walk → walk.failed = false := by
  induction turns with
  | zero =>
    intro pos rem walk ran
    cases ran
  | succ turns ih =>
    intro pos rem walk ran
    by_cases positive : 0 < rem
    · obtain ⟨later, rest, unfailed, -⟩ :=
        doExecuteActions_undisturbed undisturbed positive ran ih
      rw [unfailed, ih rest]
    · rw [doExecuteActions, if_pos (by omega)] at ran
      rw [← Option.some.inj ran]

theorem attrTiled_of_visits (undisturbed : oracle.Undisturbed)
    {nested : Nat → Int → Except Errno Visits} {nestedTiled : Nat → Int → Prop}
    (lists : ∀ {turns pos : Nat} {rem : Int} {visits : Visits} {walk : Walk},
      nested pos rem = .ok visits → doExecuteActions mem oracle turns pos rem = some walk →
        walk.visits = visits → nestedTiled pos rem)
    {turns pos : Nat} {rem : Int} {action : OvsActionAttr} {node : Visits → Visits} {rest : Visits}
    {walk : Walk} (positive : 0 < rem)
    (code : OvsActionAttr.ofCode (type mem pos) = some action)
    (accepted : validateAction mem key nested pos action = .ok node)
    (ran : doExecuteActions mem oracle (turns + 1) pos rem = some walk)
    (same : walk.visits = node rest) :
    AttrTiled mem nestedTiled pos ∧
      ∃ later, doExecuteActions mem oracle turns (next mem pos) (remaining mem pos rem) =
        some later ∧ later.visits = rest := by
  obtain ⟨later, followed, -, first⟩ := doExecuteActions_undisturbed undisturbed positive ran
    (unfailed_of_undisturbed undisturbed)
  rw [code] at first
  rw [AttrTiled, code]
  rcases validateAction_ok accepted with ⟨rfl, notUserspace, notSample⟩ |
    ⟨found, rfl, valid, rfl⟩ | ⟨found, inner, rfl, valid, rfl⟩
  · have plain : walk.visits = .plain pos action later.visits := by
      cases action
      case userspace => exact absurd rfl notUserspace
      case sample => exact absurd rfl notSample
      all_goals exact first
    obtain ⟨-, -, sameRest⟩ := Visits.plain.inj (plain.symm.trans same)
    exact ⟨⟨fun userspace => absurd (Option.some.inj userspace) notUserspace,
      fun sample => absurd (Option.some.inj sample) notSample⟩, later, followed, sameRest⟩
  · obtain ⟨attrs, reads, looped, visits⟩ := first
    obtain ⟨-, rfl, sameRest⟩ := Visits.userspace.inj (visits.symm.trans same)
    obtain ⟨rfl, -⟩ := validateUserspace_ok valid
    exact ⟨⟨fun _ => le_zero_of_outputUserspace (visited_attrs _ _) looped,
      fun sample => by cases sample⟩, later, followed, sameRest⟩
  · obtain ⟨loop, looped, executed⟩ := first
    obtain ⟨actions, checked⟩ := validateSample_ok valid
    have visited := @visited_attrs mem (data pos) (size mem pos)
    rw [← checked.attrs, checked.left] at visited
    have follows := sampleLoop_follows visited le_rfl checked.member.2 checked.types le_rfl looped
    have taken := follows.taken undisturbed
    obtain ⟨actsList, nestedWalk, known, nestedRan, visits⟩ := executed taken
    obtain ⟨-, -, sameInner, sameRest⟩ := Visits.sample.inj (visits.symm.trans same)
    rw [follows.actsList taken (.inr checked.member.1)] at known
    obtain rfl := Option.some.inj known
    refine ⟨⟨fun userspace => (by cases userspace), fun _ attr member isActions => ?_⟩,
      later, followed, sameRest⟩
    rcases checked.types attr (checked.attrs ▸ member) with ⟨isProbability, -⟩ | ⟨-, rfl⟩
    · rw [isActions] at isProbability
      cases isProbability
    · exact lists checked.inner nestedRan sameInner

theorem userspaceTiled_of_visits (undisturbed : oracle.Undisturbed) {levels : Nat} :
    ∀ {turns pos : Nat} {rem : Int} {visits : Visits} {walk : Walk},
      validateLevels mem key levels pos rem = .ok visits →
      doExecuteActions mem oracle turns pos rem = some walk → walk.visits = visits →
      UserspaceTiled mem levels pos rem := by
  induction levels with
  | zero =>
    intro turns pos rem visits walk accepted
    cases accepted
  | succ levels ih =>
    intro turns pos rem visits walk accepted ran same
    obtain ⟨listed, -⟩ := validateLevels_ok accepted
    have visited := @visited_attrs mem pos rem
    rw [UserspaceTiled]
    generalize attrs mem pos rem = found at visited listed ⊢
    generalize left mem pos rem = behind at visited
    clear accepted
    induction visited generalizing turns visits walk with
    | stop => exact fun attr member => by cases member
    | @step pos rem found behind complete _ others =>
      obtain ⟨action, node, rest, code, -, valid, listedRest, rfl⟩ := validateList_cons listed
      obtain ⟨long, -, -⟩ := ok_iff.mp complete
      cases turns with
      | zero => cases ran
      | succ turns =>
        obtain ⟨here, later, followed, sameRest⟩ := attrTiled_of_visits undisturbed ih
          (by omega) code valid ran same
        exact List.forall_mem_cons.mpr ⟨here, others followed sameRest listedRest⟩

end Lists

def calm : Oracle := ⟨fun _ => true, fun _ => false⟩

theorem calm_undisturbed : calm.Undisturbed := fun _ => ⟨rfl, rfl⟩

theorem userspaceTiled_of_within {key : SwFlowKey} {n : Nat} {visits : Visits}
    (accepted : validateActions mem key 0 0 n = .ok visits) (within : ExecutesWithin mem n visits) :
    UserspaceTiled mem Ownership.sampleActionDepth 0 n := by
  obtain ⟨turns, walk, ran, -, whole, -⟩ := within calm
  exact userspaceTiled_of_visits calm_undisturbed accepted ran (whole calm_undisturbed)

/-- A list that was accepted is executed within its bounds exactly if there are no bytes behind the
attributes of its `USERSPACE` actions, in the list and in the lists of `SAMPLE` in it. -/
theorem executesWithin_iff {key : SwFlowKey} {n : Nat} {visits : Visits}
    (accepted : validateActions mem key 0 0 n = .ok visits) :
    ExecutesWithin mem n visits ↔ UserspaceTiled mem Ownership.sampleActionDepth 0 n := by
  refine ⟨userspaceTiled_of_within accepted, fun tiled oracle => ?_⟩
  obtain ⟨walk, ran, follows⟩ := @exists_follows mem oracle n key _ (n + 1) 0 n visits accepted tiled
    (by omega) (by omega)
  obtain ⟨handled, deep⟩ := bounded_of_ok accepted
  exact ⟨n + 1, walk, ran, follows.part, fun undisturbed => (follows.whole undisturbed).1,
    follows.inBounds, follows.part.handled handled, follows.part.depth_le.trans deep⟩

def memoryOf (bytes : List (BitVec 8)) : Memory := fun pos => bytes.getD pos 0

def arpKey : SwFlowKey := ⟨0x0806, 0, 0, 0, 0⟩

def sampleBytes : List (BitVec 8) :=
  [24, 0, 6, 0, 8, 0, 1, 0, 0xff, 0xff, 0xff, 0xff, 12, 0, 2, 0, 8, 0, 1, 0, 1, 0, 0, 0,
    12, 0, 2, 0, 8, 0, 1, 0, 1, 0, 0, 0]

theorem executesWithin_sample :
    ExecutesWithin (memoryOf sampleBytes) 36
      (.sample 0 [4, 12] (.plain 16 .output .nil) (.userspace 24 [28] .nil)) := by
  have accepted : validateActions (memoryOf sampleBytes) arpKey 0 0 (36 : Nat) =
      .ok (.sample 0 [4, 12] (.plain 16 .output .nil) (.userspace 24 [28] .nil)) := by
    decide +kernel
  exact (executesWithin_iff accepted).mpr (by decide +kernel)

def trailingBytes : List (BitVec 8) := [13, 0, 2, 0, 8, 0, 1, 0, 1, 0, 0, 0, 4]

/-- The list is accepted, and its execution takes the byte for an attribute, whose header is not in
the list. -/
theorem not_executesWithin_trailing :
    validateActions (memoryOf trailingBytes) arpKey 0 0 (13 : Nat) =
        .ok (.userspace 0 [4] .nil) ∧
      ¬ExecutesWithin (memoryOf trailingBytes) 13 (.userspace 0 [4] .nil) := by
  have accepted : validateActions (memoryOf trailingBytes) arpKey 0 0 (13 : Nat) =
      .ok (.userspace 0 [4] .nil) := by decide +kernel
  refine ⟨accepted, fun within => ?_⟩
  have tiled := userspaceTiled_of_within accepted within
  have leftOver : left (memoryOf trailingBytes) 4 9 ≤ 0 :=
    (tiled 0 (by decide +kernel)).1 (by decide +kernel)
  exact absurd leftOver (by decide +kernel)

end NestedActions
end LazyCtrl
