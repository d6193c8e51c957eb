import LazyCtrl.Ofp.NoDrop
import LazyCtrl.Ofp.WireAction

/-!
# Encoding and decoding a list of actions

`ofpacts_put_openflow10` followed by `ofpacts_pull_openflow10`.  The theorem at the end says for
which lists that `ofpacts_check` accepts the decoder returns the list that was encoded.  Besides the
arguments that do not fit into a wire action, it is the two decoders that get in the way: a list
that contains a remote action comes back only if it contains nothing else, and any other list only
if its encoding does not happen to take 16 bytes.
-/

namespace LazyCtrl

open Bytes

theorem ofpactsPutOpenflow10_eq {ofpacts : List Ofpact}
    (encodes : ∀ ofpact ∈ ofpacts, ofpact.Encodes) :
    ∃ wires, ofpactsPutOpenflow10 ofpacts = some wires.flatten ∧
      wires.flatten.length = (ofpacts.map Ofpact.wireLen).sum ∧
      List.Forall₂ WireFrame wires (ofpacts.map Ofpact.reread) := by
  induction ofpacts with
  | nil => exact ⟨[], rfl, rfl, .nil⟩
  | cons ofpact ofpacts ih =>
    rw [List.forall_mem_cons] at encodes
    obtain ⟨wire, encoded, length, frame⟩ := encodes.1
    obtain ⟨wires, restEncoded, restLength, frames⟩ := ih encodes.2
    refine ⟨wire :: wires, ?_, ?_, .cons frame frames⟩
    · rw [ofpactsPutOpenflow10, encoded, restEncoded]
      rfl
    · rw [List.flatten_cons, List.length_append, length, restLength, List.map_cons,
        List.sum_cons]

section Framed

variable {decode : List (BitVec 8) → Except Fault (Option Ofpact)} {wires : List (List (BitVec 8))}
  {emitted : List (Option Ofpact)}

theorem length_flatten_aligned (frames : List.Forall₂ (Framed decode) wires emitted) :
    wires.flatten.length % 8 = 0 := by
  induction frames with
  | nil => rfl
  | cons frame _ ih =>
    have aligned := frame.aligned
    rw [List.flatten_cons, List.length_append]
    omega

theorem ofpactsFromOpenflow_frames (frames : List.Forall₂ (Framed decode) wires emitted)
    {turns : Nat} {left : Nat} (enough : left ≤ turns) (length : wires.flatten.length = 8 * left)
    (out : List Ofpact) :
    ofpactsFromOpenflow 8 decode turns left wires.flatten out =
      some ⟨none, out ++ emitted.reduceOption⟩ := by
  induction frames generalizing turns left out with
  | nil =>
    obtain rfl : left = 0 := by
      rw [List.flatten_nil, List.length_nil] at length
      omega
    cases turns <;> simp [ofpactsFromOpenflow, finishActions]
  | @cons wire first wires emitted frame _ ih =>
    have aligned := frame.aligned
    have long := frame.long
    rw [List.flatten_cons, List.length_append] at length
    obtain ⟨turns, rfl⟩ : ∃ more, turns = more + 1 := ⟨turns - 1, by omega⟩
    have ongoing : 0 < left ∧ actionIsValid 8 (wire ++ wires.flatten) left := by
      refine ⟨by omega, decide_eq_true ?_⟩
      rw [frame.stated]
      exact ⟨aligned, long, by omega⟩
    rw [List.flatten_cons, ofpactsFromOpenflow, if_pos ongoing, frame.decoded, frame.stated]
    simp only [List.drop_left]
    rw [ih (by omega) (by omega)]
    cases first <;> simp

end Framed

theorem ofpactsPullOpenflow10_frames {wires : List (List (BitVec 8))}
    {emitted : List (Option Ofpact)} (frames : List.Forall₂ WireFrame wires emitted)
    (general : wires.flatten.length ≠ 16) :
    ofpactsPullOpenflow10 wires.flatten wires.flatten.length =
      some ⟨none, emitted.reduceOption⟩ := by
  have framed := frames.imp fun _ _ frame => frame.framed
  have aligned := length_flatten_aligned framed
  have walked := ofpactsFromOpenflow_frames framed (Nat.le_refl (wires.flatten.length / 8))
    (by omega) []
  rw [ofpactsPullOpenflow10, if_neg (by omega), if_neg (by omega), translateActions,
    if_neg general, ofpactsFromOpenflow10, walked]
  rfl

def remoteWire (port : BitVec 16) (ip : BitVec 32) : List (BitVec 8) :=
  ofputilPut .remote (put16 port ++ (put48 0 ++ put32 ip))

theorem ofpactFromOpenflow10Remote_remoteWire {port : BitVec 16} (ip : BitVec 32)
    (portOk : ofputilCheckOutputPort port ofppMax = none) (rest : List (BitVec 8)) :
    ofpactFromOpenflow10Remote (remoteWire port ip ++ rest) = .ok (some (.remote port ip)) := by
  have code : decodeOpenflow10Action (remoteWire port ip ++ rest) = .ok .remote := by
    rw [remoteWire, ofputilPut, List.append_assoc]
    exact decodeOpenflow10Action_header (by decide) rfl _
  simp only [ofpactFromOpenflow10Remote, code, if_true]
  simp [remoteFromOpenflow10, remoteWire, ofputilPut, ActionCode.wireType, WireType.header, portOk,
    accept, Except.map]

theorem ofpactsPullOpenflow10_remoteWire {port : BitVec 16} (ip : BitVec 32)
    (portOk : ofputilCheckOutputPort port ofppMax = none) (rest : List (BitVec 8)) :
    ofpactsPullOpenflow10 (remoteWire port ip ++ rest) 16 = some ⟨none, [.remote port ip]⟩ := by
  have stated : actionLen (remoteWire port ip ++ rest) = 16 := by
    rw [remoteWire, ofputilPut, List.append_assoc]
    exact actionLen_header _ _ (by decide) _
  have decoded := ofpactFromOpenflow10Remote_remoteWire ip portOk rest
  have valid : actionIsValid 16 (remoteWire port ip ++ rest) 1 :=
    decide_eq_true (by rw [stated]; decide)
  have room : ¬ (remoteWire port ip ++ rest).length < 16 := by
    rw [List.length_append, show (remoteWire port ip).length = 16 from rfl]
    omega
  rw [ofpactsPullOpenflow10, if_neg (by decide), if_neg room, translateActions, if_pos rfl,
    ofpactsFromOpenflow10Remote]
  simp only [ofpactsFromOpenflow, valid, decoded, stated]
  rfl

def Ofpact.Same : Ofpact → Ofpact → Prop
  | .note data, .note back => ∃ n < 8, back = data ++ zeros n
  | .decTtl cntIds _, .decTtl back _ => back = cntIds
  | .setTunnel tunId _, .setTunnel back _ => back = tunId
  | .resubmit inPort tableId _, .resubmit backPort backTable _ =>
    backPort = inPort ∧ backTable = tableId
  | ofpact, back => back = ofpact

/-- The list is encoded and decoded without an error, and what comes back is the list. -/
def WireRoundTrips (ofpacts : List Ofpact) : Prop :=
  ∃ wire back, ofpactsPutOpenflow10 ofpacts = some wire ∧
    ofpactsPullOpenflow10 wire wire.length = some ⟨none, back⟩ ∧
    List.Forall₂ Ofpact.Same ofpacts back

/-- The wire action carries all arguments of the action: a plain bundle has no destination, and a
plain TTL action has the controller id 0. -/
def Ofpact.Kept : Ofpact → Prop
  | .bundle act => act.dst.field = none → act.dst = .zero
  | .decTtl cntIds compat => compat = some .decTtl → cntIds = [0]
  | _ => True

/-- The list is a single remote action, or it contains none and is not encoded in 16 bytes. -/
def SuitsDecoder (ofpacts : List Ofpact) : Prop :=
  (∃ port ip, ofpacts = [.remote port ip]) ∨
    ((∀ ofpact ∈ ofpacts, ofpact.type ≠ .remote) ∧ (ofpacts.map Ofpact.wireLen).sum ≠ 16)

theorem Ofpact.Same.type_eq {ofpact back : Ofpact} (same : ofpact.Same back) :
    back.type = ofpact.type := by
  cases ofpact
  case note | decTtl | setTunnel | resubmit => cases back <;> first | rfl | cases same
  all_goals
    obtain rfl := same
    rfl

theorem Ofpact.Same.carried {ofpact back : Ofpact} (same : ofpact.Same back)
    (carried : back.Carried) : ofpact.Carried := by
  cases ofpact
  case note data =>
    cases back with
    | note padded =>
      obtain ⟨n, -, rfl⟩ := same
      rw [Ofpact.Carried, List.length_append] at carried
      rw [Ofpact.Carried]
      omega
    | _ => cases same
  case decTtl =>
    cases back with
    | decTtl => obtain rfl := same; exact carried
    | _ => cases same
  case setTunnel => trivial
  case resubmit => trivial
  all_goals
    obtain rfl := same
    exact carried

theorem exists_same_iff {ofpact : Ofpact} :
    (∃ back, ofpact.reread = some back ∧ ofpact.Same back) ↔
      ofpact.type ≠ .remote ∧ ofpact.Kept := by
  cases ofpact
  case remote =>
    refine iff_of_false ?_ fun kept => kept.1 rfl
    rintro ⟨back, reread, -⟩
    cases reread
  case setTunnel => exact iff_of_true ⟨_, rfl, rfl⟩ ⟨by simp [Ofpact.type], trivial⟩
  case resubmit => exact iff_of_true ⟨_, rfl, rfl, rfl⟩ ⟨by simp [Ofpact.type], trivial⟩
  case note => exact iff_of_true ⟨_, rfl, _, padding_lt _, rfl⟩ ⟨by simp [Ofpact.type], trivial⟩
  case decTtl cntIds compat =>
    simp only [Ofpact.reread, Option.some.injEq, exists_eq_left', Ofpact.Kept]
    by_cases plain : compat = some .decTtl
    · simp [plain, Ofpact.Same, Ofpact.type, eq_comm]
    · simp [plain, Ofpact.Same, Ofpact.type]
  case bundle act =>
    simp only [Ofpact.reread, Option.some.injEq, exists_eq_left', Ofpact.Kept, Ofpact.Same,
      Ofpact.bundle.injEq]
    cases named : act.dst.field with
    | some id => simp [Ofpact.type]
    | none =>
      obtain ⟨algorithm, fields, basis, dst, slaves⟩ := act
      simp [Ofpact.type, eq_comm]
  all_goals exact iff_of_true ⟨_, rfl, rfl⟩ ⟨by simp [Ofpact.type], trivial⟩

theorem forall₂_same_iff {ofpacts : List Ofpact} :
    List.Forall₂ Ofpact.Same ofpacts (ofpacts.map Ofpact.reread).reduceOption ↔
      ∀ ofpact ∈ ofpacts, ofpact.type ≠ .remote ∧ ofpact.Kept := by
  induction ofpacts with
  | nil => simp
  | cons ofpact ofpacts ih =>
    rw [List.forall_mem_cons, ← exists_same_iff, ← ih, List.map_cons]
    cases reread : ofpact.reread with
    | none =>
      rw [List.reduceOption_cons_of_none]
      refine iff_of_false (fun same => ?_) (by simp)
      have equal := same.length_eq
      have shorter := List.reduceOption_length_le (ofpacts.map Ofpact.reread)
      rw [List.length_cons] at equal
      rw [List.length_map] at shorter
      omega
    | some back =>
      rw [List.reduceOption_cons_of_some, List.forall₂_cons]
      simp

theorem ofpactFromOpenflow10_carried {a : List (BitVec 8)} {emitted : Option Ofpact}
    (aligned : actionLen a % 8 = 0) (decoded : ofpactFromOpenflow10 a = .ok emitted) :
    ∀ ofpact ∈ emitted, ofpact.Carried := by
  rw [ofpactFromOpenflow10] at decoded
  split at decoded
  · cases decoded
  · rename_i code codeEq
    obtain ⟨-, lenOk, -⟩ := decodeOpenflow10Action_eq_ok codeEq
    obtain ⟨-, rfl⟩ | ⟨-, ofpact, rfl, suits⟩ := ofpactFromCode_suits aligned lenOk decoded
    · simp
    · simpa using suits.2

theorem forall_mem_reduceOption {holds : Ofpact → Prop} {frames : List (List (BitVec 8))}
    {emitted : List (Option Ofpact)}
    (added : List.Forall₂ (fun _ first => ∀ ofpact ∈ first, holds ofpact) frames emitted) :
    ∀ ofpact ∈ emitted.reduceOption, holds ofpact := by
  induction added with
  | nil => simp
  | @cons _ first _ _ appended _ ih =>
    cases first with
    | none => simpa using ih
    | some ofpact =>
      rw [List.reduceOption_cons_of_some, List.forall_mem_cons]
      exact ⟨appended ofpact rfl, ih⟩

theorem forall_mem_of_ofpactsPullOpenflow10 {holds : Ofpact → Prop}
    (remote : ∀ {ofpact}, ofpact.Suits .remote → holds ofpact)
    (general : ∀ {a emitted}, actionLen a % 8 = 0 → ofpactFromOpenflow10 a = .ok emitted →
      ∀ ofpact ∈ emitted, holds ofpact)
    {openflow : List (BitVec 8)} {actionsLen : Nat} {ofpacts : List Ofpact}
    (returned : ofpactsPullOpenflow10 openflow actionsLen = some ⟨none, ofpacts⟩) :
    ∀ ofpact ∈ ofpacts, holds ofpact := by
  obtain ⟨aligned, room, walked⟩ := translateActions_of_pull returned
  rw [translateActions] at walked
  split at walked
  · rename_i sixteen
    subst sixteen
    obtain ⟨emitted, decoded, rfl⟩ := ofpactsFromOpenflow10Remote_eq walked
    obtain ⟨-, -, ofpact, rfl, suits⟩ | ⟨-, rfl⟩ := ofpactFromOpenflow10Remote_eq_ok decoded
    · simpa using remote suits
    · simp
  · obtain ⟨frames, emitted, -, added, rfl⟩ :=
      ofpactsFromOpenflow_cuts (fun _ emitted => ∀ ofpact ∈ emitted, holds ofpact)
        (fun aligned _ decoded => general aligned decoded)
        (Nat.le_refl (actionsLen / 8)) (by omega) walked
    exact forall_mem_reduceOption added

theorem carried_of_ofpactsPullOpenflow10 {openflow : List (BitVec 8)} {actionsLen : Nat}
    {ofpacts : List Ofpact}
    (returned : ofpactsPullOpenflow10 openflow actionsLen = some ⟨none, ofpacts⟩) :
    ∀ ofpact ∈ ofpacts, ofpact.Carried :=
  forall_mem_of_ofpactsPullOpenflow10 (fun suits => suits.2) ofpactFromOpenflow10_carried returned

section RoundTrip

variable {ofpacts : List Ofpact}

theorem wireRoundTrips_iff_of_encodes (encodes : ∀ ofpact ∈ ofpacts, ofpact.Encodes)
    (general : (ofpacts.map Ofpact.wireLen).sum ≠ 16) :
    WireRoundTrips ofpacts ↔ ∀ ofpact ∈ ofpacts, ofpact.type ≠ .remote ∧ ofpact.Kept := by
  obtain ⟨wires, encoded, length, frames⟩ := ofpactsPutOpenflow10_eq encodes
  have returned := ofpactsPullOpenflow10_frames frames (by rw [length]; exact general)
  rw [← forall₂_same_iff]
  constructor
  · rintro ⟨wire, back, otherEncoded, otherReturned, same⟩
    obtain rfl := Option.some.inj (encoded.symm.trans otherEncoded)
    obtain ⟨-, rfl⟩ := Translation.mk.inj (Option.some.inj (returned.symm.trans otherReturned))
    exact same
  · exact fun same => ⟨_, _, encoded, returned, same⟩

theorem eq_remote_of_sixteen {back : List Ofpact} {wire : List (BitVec 8)}
    (length : wire.length = 16) (nonempty : ofpacts ≠ [])
    (returned : ofpactsPullOpenflow10 wire wire.length = some ⟨none, back⟩)
    (same : List.Forall₂ Ofpact.Same ofpacts back) : ∃ port ip, ofpacts = [.remote port ip] := by
  rw [length] at returned
  obtain ⟨-, -, walked⟩ := translateActions_of_pull returned
  obtain ⟨emitted, turn, rfl⟩ := ofpactsFromOpenflow10Remote_eq walked
  obtain ⟨-, -, last, rfl, suits⟩ | ⟨-, rfl⟩ := ofpactFromOpenflow10Remote_eq_ok turn
  · obtain ⟨ofpact, others, sameAction, rest, rfl⟩ := List.forall₂_cons_right_iff.mp same
    obtain rfl : others = [] := by simpa using rest
    have type := sameAction.type_eq.symm.trans suits.1
    cases ofpact
    case remote port ip => exact ⟨port, ip, rfl⟩
    all_goals cases type
  · exact absurd (by simpa using same) nonempty

theorem carried_of_forall₂_same {back : List Ofpact}
    (same : List.Forall₂ Ofpact.Same ofpacts back) (carried : ∀ ofpact ∈ back, ofpact.Carried) :
    ∀ ofpact ∈ ofpacts, ofpact.Carried := by
  induction same with
  | nil => simp
  | cons sameAction _ ih =>
    rw [List.forall_mem_cons] at carried ⊢
    exact ⟨sameAction.carried carried.1, ih carried.2⟩

theorem wireRoundTrips_remote {port : BitVec 16} (ip : BitVec 32)
    (carried : (Ofpact.remote port ip).Carried) : WireRoundTrips [.remote port ip] := by
  refine ⟨remoteWire port ip, [.remote port ip], ?_, ?_, .cons rfl .nil⟩
  · rfl
  · have pulled := ofpactsPullOpenflow10_remoteWire ip carried []
    rwa [List.append_nil] at pulled

/-- A list that `ofpacts_check` accepts survives encoding and decoding exactly when the arguments of
all its actions fit into their wire actions and the list suits the decoder that its length
selects. -/
theorem wireRoundTrips_iff_suitsDecoder {mfWriteSubfield : MfSubfield → MfSubvalue → Flow → Flow}
    {flow : Flow} {maxPorts : Int}
    (accepted : ofpactsCheck mfWriteSubfield flow maxPorts ofpacts = none) :
    WireRoundTrips ofpacts ↔
      (∀ ofpact ∈ ofpacts, ofpact.Carried ∧ ofpact.Kept) ∧ SuitsDecoder ofpacts := by
  have checked (ofpact : Ofpact) (listed : ofpact ∈ ofpacts) : ofpact.Checked :=
    checked_of_ofpactCheck (List.findSome?_eq_none_iff.mp accepted ofpact listed)
  constructor
  · intro roundTrips
    obtain ⟨wire, back, encoded, returned, same⟩ := roundTrips
    have carried := carried_of_forall₂_same same (carried_of_ofpactsPullOpenflow10 returned)
    have encodes (ofpact : Ofpact) (listed : ofpact ∈ ofpacts) : ofpact.Encodes :=
      Ofpact.encodes (checked ofpact listed) (carried ofpact listed)
    by_cases sixteen : (ofpacts.map Ofpact.wireLen).sum = 16
    · obtain ⟨wires, otherEncoded, length, -⟩ := ofpactsPutOpenflow10_eq encodes
      obtain rfl := Option.some.inj (encoded.symm.trans otherEncoded)
      have nonempty : ofpacts ≠ [] := by
        rintro rfl
        cases sixteen
      obtain ⟨port, ip, rfl⟩ :=
        eq_remote_of_sixteen (length.trans sixteen) nonempty returned same
      refine ⟨fun ofpact listed => ⟨carried ofpact listed, ?_⟩, .inl ⟨port, ip, rfl⟩⟩
      obtain rfl := List.mem_singleton.mp listed
      trivial
    · have kept := (wireRoundTrips_iff_of_encodes encodes sixteen).mp
        ⟨wire, back, encoded, returned, same⟩
      exact ⟨fun ofpact listed => ⟨carried ofpact listed, (kept ofpact listed).2⟩,
        .inr ⟨fun ofpact listed => (kept ofpact listed).1, sixteen⟩⟩
  · rintro ⟨fits, ⟨port, ip, rfl⟩ | ⟨noRemote, general⟩⟩
    · exact wireRoundTrips_remote ip (fits _ (List.mem_singleton.mpr rfl)).1
    · have encodes (ofpact : Ofpact) (listed : ofpact ∈ ofpacts) : ofpact.Encodes :=
        Ofpact.encodes (checked ofpact listed) (fits ofpact listed).1
      exact (wireRoundTrips_iff_of_encodes encodes general).mpr fun ofpact listed =>
        ⟨noRemote ofpact listed, (fits ofpact listed).2⟩

def sampleVlanList : List Ofpact := [.setVlanVid 5, .setVlanPcp 3, .output 1 0]

theorem wireRoundTrips_sampleVlanList :
    ofpactsCheck (fun _ _ flow => flow) ⟨0, 0, 0, 0, 0⟩ 255 sampleVlanList = none ∧
      (WireRoundTrips sampleVlanList ↔
        (∀ ofpact ∈ sampleVlanList, ofpact.Carried ∧ ofpact.Kept) ∧
          SuitsDecoder sampleVlanList) :=
  ⟨by decide, wireRoundTrips_iff_suitsDecoder
    (by decide : ofpactsCheck (fun _ _ flow => flow) ⟨0, 0, 0, 0, 0⟩ 255 sampleVlanList = none)⟩

/-- The encoding of two outputs takes 16 bytes and is refused, and a remote action in front of an
output is dropped. -/
theorem not_wireRoundTrips_samples :
    (ofpactsCheck (fun _ _ flow => flow) ⟨0, 0, 0, 0, 0⟩ 255 [.output 1 0, .output 2 0] = none ∧
      ¬ WireRoundTrips [.output 1 0, .output 2 0]) ∧
    (ofpactsCheck (fun _ _ flow => flow) ⟨0, 0, 0, 0, 0⟩ 255 [.remote 1 5, .output 2 0] = none ∧
      ¬ WireRoundTrips [.remote 1 5, .output 2 0]) := by
  refine ⟨⟨by decide, ?_⟩, by decide, ?_⟩
  · rintro ⟨wire, back, encoded, returned, same⟩
    have length : wire.length = 16 := by
      obtain rfl := Option.some.inj encoded
      rfl
    obtain ⟨port, ip, single⟩ := eq_remote_of_sixteen length (by simp) returned same
    cases single
  · rintro ⟨wire, back, encoded, returned, same⟩
    obtain rfl := Option.some.inj encoded
    have dropped : some (Translation.mk none [.output 2 0]) = some ⟨none, back⟩ :=
      Eq.trans (by decide) returned
    obtain ⟨-, rfl⟩ := Translation.mk.inj (Option.some.inj dropped)
    cases same.length_eq

end RoundTrip

end LazyCtrl
