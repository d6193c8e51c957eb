import LazyCtrl.Lib.Frames
import LazyCtrl.Ofp.Image
import Mathlib.Data.List.ReduceOption

/-!
# Which wire actions are dropped

A decoder that returns 0 should have turned every wire action into one action of the same type.
Both decoders accept wire actions for which they append nothing.  The theorem at the end says for
every message and every length when this happens: the general decoder drops the actions of type
`OFPAT10_REMOTE`, and the decoder for 16 bytes drops everything else.
-/

namespace LazyCtrl

open Bytes Frames

def NamesType (frame : List (BitVec 8)) (ofpact : Ofpact) : Prop :=
  (ActionCode.ofWireType (wireTypeOf frame)).map ActionCode.ofpactType = some ofpact.type

def IsRemote (frame : List (BitVec 8)) : Prop := wireTypeOf frame = ActionCode.remote.wireType

theorem ofWireType_eq_some {type : WireType} {code : ActionCode}
    (found : ActionCode.ofWireType type = some code) : code.wireType = type := by
  simpa using List.find?_some found

theorem decodeWireType_eq_ok {type : WireType} {len : Nat} {code : ActionCode}
    (decoded : decodeWireType type len = .ok code) :
    ActionCode.ofWireType type = some code ∧ code.lenOk len := by
  rw [decodeWireType] at decoded
  cases found : ActionCode.ofWireType type with
  | none =>
    rw [found] at decoded
    cases decoded
  | some other =>
    simp only [found] at decoded
    split at decoded
    · obtain rfl := Except.ok.inj decoded
      exact ⟨rfl, ‹_›⟩
    · cases decoded

theorem decodeOpenflow10Action_eq_ok {a : List (BitVec 8)} {code : ActionCode}
    (decoded : decodeOpenflow10Action a = .ok code) :
    ActionCode.ofWireType (wireTypeOf a) = some code ∧ code.lenOk (actionLen a) ∧
      (be16 a 0 = ofpat10Vendor → 16 ≤ actionLen a) := by
  rw [decodeOpenflow10Action] at decoded
  by_cases vendor : be16 a 0 = ofpat10Vendor
  · rw [if_pos vendor, decodeNxastAction, reject_eq_ok, reject_eq_ok] at decoded
    obtain ⟨long, -, searched⟩ := decoded
    obtain ⟨found, lenOk⟩ := decodeWireType_eq_ok searched
    rw [wireTypeOf, if_pos vendor]
    exact ⟨found, lenOk, fun _ => by omega⟩
  · rw [if_neg vendor] at decoded
    obtain ⟨found, lenOk⟩ := decodeWireType_eq_ok decoded
    rw [wireTypeOf, if_neg vendor]
    exact ⟨found, lenOk, fun isVendor => absurd isVendor vendor⟩

theorem wireTypeOf_take {a : List (BitVec 8)} {n : Nat} (long : 8 ≤ n)
    (vendorLong : be16 a 0 = ofpat10Vendor → 16 ≤ n) : wireTypeOf (a.take n) = wireTypeOf a := by
  rw [wireTypeOf, wireTypeOf, be16_take a (by omega)]
  by_cases vendor : be16 a 0 = ofpat10Vendor
  · have := vendorLong vendor
    rw [if_pos vendor, if_pos vendor, be16_take a (by omega)]
  · rw [if_neg vendor, if_neg vendor]

def Emits (frame : List (BitVec 8)) : Option Ofpact → Prop
  | some ofpact => ¬ IsRemote frame ∧ NamesType frame ofpact
  | none => IsRemote frame

theorem ofpactFromOpenflow10_emits {a : List (BitVec 8)} {emitted : Option Ofpact}
    (aligned : actionLen a % 8 = 0) (long : 8 ≤ actionLen a)
    (decoded : ofpactFromOpenflow10 a = .ok emitted) : Emits (a.take (actionLen a)) emitted := by
  rw [ofpactFromOpenflow10] at decoded
  split at decoded
  · cases decoded
  · rename_i code codeEq
    obtain ⟨found, lenOk, vendorLong⟩ := decodeOpenflow10Action_eq_ok codeEq
    have typeEq := wireTypeOf_take long vendorLong
    have wire := ofWireType_eq_some found
    obtain ⟨rfl, rfl⟩ | ⟨other, ofpact, rfl, suits⟩ := ofpactFromCode_suits aligned lenOk decoded
    · rw [Emits, IsRemote, typeEq, wire]
    · refine ⟨fun remote => other ?_, ?_⟩
      · rw [IsRemote, typeEq] at remote
        rw [remote, ActionCode.ofWireType_wireType] at found
        exact (Option.some.inj found).symm
      · rw [NamesType, typeEq, found, Option.map_some, suits.1]

theorem finishActions_eq {left : Nat} {out ofpacts : List Ofpact}
    (finished : finishActions left out = ⟨none, ofpacts⟩) : left = 0 ∧ ofpacts = out := by
  rw [finishActions] at finished
  split at finished
  · cases finished
  · obtain ⟨-, rfl⟩ := Translation.mk.inj finished
    exact ⟨not_not.mp ‹_›, rfl⟩

theorem actionLen_take {a : List (BitVec 8)} {n : Nat} (long : 4 ≤ n) :
    actionLen (a.take n) = actionLen a := by
  rw [actionLen, actionLen, be16_take a (by omega)]

theorem cuts_cons {a : List (BitVec 8)} {left : Nat} {frames : List (List (BitVec 8))}
    (valid : actionIsValid 8 a left) (room : 8 * left ≤ a.length)
    (rest : Cuts actionLen ((a.drop (actionLen a)).take (8 * (left - actionLen a / 8))) frames) :
    Cuts actionLen (a.take (8 * left)) (a.take (actionLen a) :: frames) := by
  obtain ⟨aligned, long, fits⟩ := of_decide_eq_true valid
  have split : 8 * left = actionLen a + 8 * (left - actionLen a / 8) := by omega
  have length : (a.take (actionLen a)).length = actionLen a := by
    rw [List.length_take]
    omega
  have stream : a.take (8 * left) =
      a.take (actionLen a) ++ (a.drop (actionLen a)).take (8 * (left - actionLen a / 8)) := by
    conv_lhs => rw [split, List.take_add]
  rw [stream]
  refine .cons (List.ne_nil_of_length_pos (by omega)) ?_ rest
  rw [← stream, actionLen_take (by omega), length]

theorem ofpactsFromOpenflow_cuts {decode : List (BitVec 8) → Except Fault (Option Ofpact)}
    (adds : List (BitVec 8) → Option Ofpact → Prop)
    (turn : ∀ {a emitted}, actionLen a % 8 = 0 → 8 ≤ actionLen a → decode a = .ok emitted →
      adds (a.take (actionLen a)) emitted)
    {turns left : Nat} {a : List (BitVec 8)} {out ofpacts : List Ofpact} (enough : left ≤ turns)
    (room : 8 * left ≤ a.length)
    (walked : ofpactsFromOpenflow 8 decode turns left a out = some ⟨none, ofpacts⟩) :
    ∃ frames emitted, Cuts actionLen (a.take (8 * left)) frames ∧
      List.Forall₂ adds frames emitted ∧ ofpacts = out ++ emitted.reduceOption := by
  induction turns generalizing left a out with
  | zero =>
    obtain ⟨rfl, rfl⟩ := finishActions_eq (Option.some.inj walked)
    exact ⟨[], [], .nil, .nil, (List.append_nil _).symm⟩
  | succ turns ih =>
    rw [ofpactsFromOpenflow] at walked
    split at walked
    · rename_i ongoing
      obtain ⟨aligned, long, fits⟩ := of_decide_eq_true ongoing.2
      split at walked
      · cases walked
      · cases Option.some.inj walked
      · rename_i first decoded
        obtain ⟨frames, emitted, cuts, added, rfl⟩ :=
          ih (by omega) (by rw [List.length_drop]; omega) walked
        refine ⟨_, first :: emitted, cuts_cons ongoing.2 room cuts,
          .cons (turn aligned long decoded) added, ?_⟩
        cases first <;> simp
    · obtain ⟨rfl, rfl⟩ := finishActions_eq (Option.some.inj walked)
      exact ⟨[], [], .nil, .nil, (List.append_nil _).symm⟩

theorem ofpactFromOpenflow10Remote_eq_ok {a : List (BitVec 8)} {emitted : Option Ofpact}
    (decoded : ofpactFromOpenflow10Remote a = .ok emitted) :
    (IsRemote a ∧ actionLen a = 16 ∧ ∃ ofpact, emitted = some ofpact ∧ ofpact.Suits .remote) ∨
      (¬ IsRemote a ∧ emitted = none) := by
  rw [ofpactFromOpenflow10Remote] at decoded
  split at decoded
  · cases decoded
  · rename_i code codeEq
    obtain ⟨found, lenOk, -⟩ := decodeOpenflow10Action_eq_ok codeEq
    by_cases remote : code = .remote
    · subst remote
      obtain ⟨ofpact, returned, rfl⟩ := map_some_eq_ok.mp (by simpa using decoded)
      exact .inl ⟨(ofWireType_eq_some found).symm, of_decide_eq_true lenOk, ofpact, rfl,
        remoteFromOpenflow10_suits returned⟩
    · rw [if_neg remote] at decoded
      refine .inr ⟨fun isRemote => remote ?_, (Except.ok.inj decoded).symm⟩
      rw [isRemote, ActionCode.ofWireType_wireType] at found
      exact (Option.some.inj found).symm

theorem ofpactsFromOpenflow10Remote_eq {a : List (BitVec 8)} {ofpacts : List Ofpact}
    (walked : ofpactsFromOpenflow10Remote a 1 = some ⟨none, ofpacts⟩) :
    ∃ emitted, ofpactFromOpenflow10Remote a = .ok emitted ∧ ofpacts = emitted.toList := by
  rw [ofpactsFromOpenflow10Remote, ofpactsFromOpenflow] at walked
  split at walked
  · split at walked
    · cases walked
    · cases Option.some.inj walked
    · obtain ⟨-, rfl⟩ := finishActions_eq (Option.some.inj walked)
      exact ⟨_, ‹_›, rfl⟩
  · obtain ⟨impossible, -⟩ := finishActions_eq (Option.some.inj walked)
    cases impossible

/-- The bytes split, by the lengths that they state, into one wire action for every action of the
list, which names its type. -/
def SplitsInto (actions : List (BitVec 8)) (ofpacts : List Ofpact) : Prop :=
  ∃ frames, Cuts actionLen actions frames ∧ List.Forall₂ NamesType frames ofpacts

/-- The list has 16 bytes and starts with a remote action, or it has another length and contains no
remote action. -/
def NoDrops (openflow : List (BitVec 8)) (actionsLen : Nat) : Prop :=
  if actionsLen = 16 then IsRemote openflow
  else ∀ frames, Cuts actionLen (openflow.take actionsLen) frames →
    ∀ frame ∈ frames, ¬ IsRemote frame

theorem forall₂_namesType_iff {frames : List (List (BitVec 8))} {emitted : List (Option Ofpact)}
    (added : List.Forall₂ Emits frames emitted) :
    List.Forall₂ NamesType frames emitted.reduceOption ↔ ∀ frame ∈ frames, ¬ IsRemote frame := by
  constructor
  · intro named
    have full : emitted.reduceOption.length = emitted.length :=
      named.length_eq.symm.trans added.length_eq
    rw [List.reduceOption_length_eq_iff] at full
    clear named
    induction added with
    | nil => simp
    | @cons frame first frames emitted emits _ ih =>
      rw [List.forall_mem_cons] at full ⊢
      obtain ⟨ofpact, rfl⟩ := Option.isSome_iff_exists.mp full.1
      exact ⟨emits.1, ih full.2⟩
  · intro noRemote
    induction added with
    | nil => exact .nil
    | @cons frame first frames emitted emits _ ih =>
      rw [List.forall_mem_cons] at noRemote
      cases first with
      | none => exact absurd emits noRemote.1
      | some ofpact =>
        rw [List.reduceOption_cons_of_some]
        exact .cons emits.2 (ih noRemote.2)

theorem splitsInto_iff_of_general {openflow : List (BitVec 8)} {units : Nat}
    {ofpacts : List Ofpact} (room : 8 * units ≤ openflow.length)
    (walked : ofpactsFromOpenflow10 openflow units = some ⟨none, ofpacts⟩) :
    SplitsInto (openflow.take (8 * units)) ofpacts ↔
      ∀ frames, Cuts actionLen (openflow.take (8 * units)) frames →
        ∀ frame ∈ frames, ¬ IsRemote frame := by
  obtain ⟨frames, emitted, cuts, added, rfl⟩ :=
    ofpactsFromOpenflow_cuts Emits ofpactFromOpenflow10_emits (Nat.le_refl units) room walked
  rw [List.nil_append]
  constructor
  · rintro ⟨others, otherCuts, named⟩ more moreCuts
    rw [cuts.unique moreCuts]
    rw [cuts.unique otherCuts] at named
    exact (forall₂_namesType_iff added).mp named
  · intro noRemote
    exact ⟨frames, cuts, (forall₂_namesType_iff added).mpr (noRemote frames cuts)⟩

theorem splitsInto_iff_of_sixteen {openflow : List (BitVec 8)} {ofpacts : List Ofpact}
    (room : 16 ≤ openflow.length)
    (walked : ofpactsFromOpenflow10Remote openflow 1 = some ⟨none, ofpacts⟩) :
    SplitsInto (openflow.take 16) ofpacts ↔ IsRemote openflow := by
  have length : (openflow.take 16).length = 16 := by
    rw [List.length_take, Nat.min_eq_left room]
  have nonempty : openflow.take 16 ≠ [] := List.ne_nil_of_length_pos (by omega)
  obtain ⟨emitted, decoded, rfl⟩ := ofpactsFromOpenflow10Remote_eq walked
  obtain ⟨remote, lenEq, ofpact, rfl, suits⟩ | ⟨other, rfl⟩ :=
    ofpactFromOpenflow10Remote_eq_ok decoded
  · refine iff_of_true ⟨[openflow.take 16], ?_, .cons ?_ .nil⟩ remote
    · have single : Cuts actionLen (openflow.take 16 ++ []) [openflow.take 16] :=
        .cons nonempty (by rw [List.append_nil, actionLen_take (by omega), lenEq, length]) .nil
      rwa [List.append_nil] at single
    · rw [NamesType, wireTypeOf_take (by omega) fun _ => Nat.le_refl 16, remote,
        ActionCode.ofWireType_wireType, Option.map_some, suits.1]
      rfl
  · refine iff_of_false ?_ other
    rintro ⟨frames, cuts, named⟩
    obtain rfl : frames = [] := by simpa using named
    exact nonempty cuts.flatten_eq.symm

theorem clearOnError_ofpacts {translation : Translation} (failed : translation.error ≠ none) :
    translation.clearOnError.ofpacts = [] := by
  rw [Translation.clearOnError, if_pos (Option.isSome_iff_ne_none.mpr failed)]

theorem clearOnError_error (translation : Translation) :
    translation.clearOnError.error = translation.error := by
  rw [Translation.clearOnError]
  split <;> rfl

theorem clearOnError_of_none {translation : Translation} (succeeded : translation.error = none) :
    translation.clearOnError = translation := by
  simp [Translation.clearOnError, succeeded]

theorem ofpactsPullOpenflow10_eq {openflow : List (BitVec 8)} {actionsLen : Nat}
    {translation : Translation}
    (returned : ofpactsPullOpenflow10 openflow actionsLen = some translation) :
    translation = ⟨some .ofpbrcBadLen, []⟩ ∨
      (actionsLen % 8 = 0 ∧ actionsLen ≤ openflow.length ∧
        ∃ decoded, translateActions openflow actionsLen = some decoded ∧
          translation = decoded.clearOnError) := by
  rw [ofpactsPullOpenflow10] at returned
  split at returned
  · exact .inl (Option.some.inj returned).symm
  · split at returned
    · exact .inl (Option.some.inj returned).symm
    · obtain ⟨decoded, walked, rfl⟩ := Option.map_eq_some_iff.mp returned
      exact .inr ⟨by omega, by omega, decoded, walked, rfl⟩

theorem translateActions_of_pull {openflow : List (BitVec 8)} {actionsLen : Nat}
    {ofpacts : List Ofpact}
    (returned : ofpactsPullOpenflow10 openflow actionsLen = some ⟨none, ofpacts⟩) :
    actionsLen % 8 = 0 ∧ actionsLen ≤ openflow.length ∧
      translateActions openflow actionsLen = some ⟨none, ofpacts⟩ := by
  obtain failed | ⟨aligned, room, decoded, walked, cleared⟩ := ofpactsPullOpenflow10_eq returned
  · cases failed
  · have succeeded : decoded.error = none := by rw [← clearOnError_error, ← cleared]
    rw [clearOnError_of_none succeeded] at cleared
    exact ⟨aligned, room, by rw [walked, cleared]⟩

/-- After a return value of 0 every wire action has become one action of its type exactly when the
list is one that neither decoder drops anything from; after an error the buffer is empty. -/
theorem splitsInto_iff_noDrops {openflow : List (BitVec 8)} {actionsLen : Nat}
    {translation : Translation}
    (returned : ofpactsPullOpenflow10 openflow actionsLen = some translation) :
    (translation.error = none →
      (SplitsInto (openflow.take actionsLen) translation.ofpacts ↔ NoDrops openflow actionsLen)) ∧
    (translation.error ≠ none → translation.ofpacts = []) := by
  refine ⟨fun succeeded => ?_, fun failed => ?_⟩
  · obtain ⟨error, ofpacts⟩ := translation
    obtain rfl : error = none := succeeded
    obtain ⟨aligned, room, walked⟩ := translateActions_of_pull returned
    by_cases sixteen : actionsLen = 16
    · subst sixteen
      rw [NoDrops, if_pos rfl]
      exact splitsInto_iff_of_sixteen room walked
    · rw [translateActions, if_neg sixteen] at walked
      have units : 8 * (actionsLen / 8) = actionsLen := by omega
      have decides := splitsInto_iff_of_general (by omega) walked
      rw [units] at decides
      rw [NoDrops, if_neg sixteen]
      exact decides
  · obtain rfl | ⟨-, -, decoded, -, rfl⟩ := ofpactsPullOpenflow10_eq returned
    · rfl
    · rw [clearOnError_error] at failed
      exact clearOnError_ofpacts failed

def sampleOutput : List (BitVec 8) := [0, 0, 0, 8, 0, 1, 0, 0]

theorem splitsInto_sampleOutput :
    ofpactsPullOpenflow10 sampleOutput 8 = some ⟨none, [.output 1 0]⟩ ∧
      (SplitsInto (sampleOutput.take 8) [.output 1 0] ↔ NoDrops sampleOutput 8) :=
  ⟨by decide, (@splitsInto_iff_noDrops sampleOutput 8 ⟨none, [.output 1 0]⟩ (by decide)).1 rfl⟩

def sampleEnqueue : List (BitVec 8) := [0, 11, 0, 16, 0, 1, 0, 0, 0, 0, 0, 0, 0, 0, 0, 7]

def sampleRemoteOutput : List (BitVec 8) :=
  [0, 12, 0, 16, 0, 1, 0, 0, 0, 0, 0, 0, 10, 0, 0, 1, 0, 0, 0, 8, 0, 2, 0, 0]

/-- The decoder for 16 bytes drops an enqueue action, and the general decoder drops a remote action;
both return 0. -/
theorem not_splitsInto_samples :
    (ofpactsPullOpenflow10 sampleEnqueue 16 = some ⟨none, []⟩ ∧
      ¬ SplitsInto (sampleEnqueue.take 16) []) ∧
    (ofpactsPullOpenflow10 sampleRemoteOutput 24 = some ⟨none, [.output 2 0]⟩ ∧
      ¬ SplitsInto (sampleRemoteOutput.take 24) [.output 2 0]) := by
  refine ⟨⟨by decide, ?_⟩, ⟨by decide, ?_⟩⟩
  · rintro ⟨frames, cuts, named⟩
    obtain rfl : frames = [] := by simpa using named
    cases cuts.flatten_eq
  · rintro ⟨frames, cuts, named⟩
    obtain ⟨frame, others, names, last, rfl⟩ := List.forall₂_cons_right_iff.mp named
    obtain rfl : others = [] := by simpa using last
    obtain rfl : frame = sampleRemoteOutput := by simpa [sampleRemoteOutput] using cuts.flatten_eq
    exact absurd names (by rw [NamesType]; decide)

end LazyCtrl
