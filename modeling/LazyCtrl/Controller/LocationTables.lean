import LazyCtrl.Lib.Lru
import LazyCtrl.Lib.Run

/-!
# The location tables of the controller

The two tables of `DCM.java`: the ports that were learned for the hosts of a switch, by the object of
the switch, and the ports and addresses of remote hosts, by the string of the switch's id.  Both keep
a bounded map for every switch.

The calls are compared with what they are meant to do, which is described by the history of a table
alone.  The two calls that remove from the remote table ask it for the object of the switch and not
for its string, so they do nothing.
-/

namespace LazyCtrl
namespace Controller

structure MacVlanPair where
  mac : BitVec 64
  vlan : BitVec 16
  deriving DecidableEq, Repr

structure PortIpPair where
  port : BitVec 16
  ip : BitVec 32
  deriving DecidableEq, Repr

inductive JavaObject (σ : Type*) where
  | iofSwitch (sw : σ)
  | string (value : String)
  deriving DecidableEq, Repr

def maxMacsPerSwitch : Nat := 1000

abbrev LocationMap (σ ν : Type*) := JavaObject σ → Option (LruMap MacVlanPair ν maxMacsPerSwitch)

def normalVlan (vlan : BitVec 16) : BitVec 16 := if vlan = 0xffff then 0 else vlan

namespace LocationMap

variable {σ ν : Type*} [DecidableEq σ]

def swMap (map : LocationMap σ ν) (key : JavaObject σ) : LruMap MacVlanPair ν maxMacsPerSwitch :=
  (map key).getD .empty

def addTo (map : LocationMap σ ν) (key : JavaObject σ) (pair : MacVlanPair) (value : ν) :
    LocationMap σ ν :=
  Function.update map key (some ((map.swMap key).put ⟨pair, value⟩))

def removeFrom (map : LocationMap σ ν) (key : JavaObject σ) (pair : MacVlanPair) :
    LocationMap σ ν :=
  match map key with
  | some swMap => Function.update map key (some (swMap.remove pair))
  | none => map

def getFrom (map : LocationMap σ ν) (key : JavaObject σ) (pair : MacVlanPair) :
    Option ν × LocationMap σ ν :=
  match map key with
  | some swMap => ((swMap.get pair).1, Function.update map key (some (swMap.get pair).2))
  | none => (none, map)

def clear (map : LocationMap σ ν) (key : JavaObject σ) : LocationMap σ ν :=
  match map key with
  | some _ => Function.update map key (some .empty)
  | none => map

end LocationMap

structure Dcm (σ : Type*) where
  macVlanToSwitchPortMap : LocationMap σ (BitVec 16)
  macVlanToPortIpMap : LocationMap σ PortIpPair

namespace Dcm

variable {σ : Type*} [DecidableEq σ]

def init : Dcm σ := ⟨fun _ => none, fun _ => none⟩

def addToPortMap (dcm : Dcm σ) (sw : σ) (mac : BitVec 64) (vlan portVal : BitVec 16) : Dcm σ :=
  { dcm with macVlanToSwitchPortMap :=
      dcm.macVlanToSwitchPortMap.addTo (.iofSwitch sw) ⟨mac, normalVlan vlan⟩ portVal }

def addToPortIpMap (dcm : Dcm σ) (swId : String) (mac : BitVec 64) (vlan portVal : BitVec 16)
    (ip : BitVec 32) : Dcm σ :=
  { dcm with macVlanToPortIpMap :=
      dcm.macVlanToPortIpMap.addTo (.string swId) ⟨mac, normalVlan vlan⟩ ⟨portVal, ip⟩ }

def removeFromPortMap (dcm : Dcm σ) (sw : σ) (mac : BitVec 64) (vlan : BitVec 16) : Dcm σ :=
  { dcm with macVlanToSwitchPortMap :=
      dcm.macVlanToSwitchPortMap.removeFrom (.iofSwitch sw) ⟨mac, normalVlan vlan⟩ }

def removeFromPortIpMap (dcm : Dcm σ) (sw : σ) (mac : BitVec 64) (vlan : BitVec 16) : Dcm σ :=
  { dcm with macVlanToPortIpMap :=
      dcm.macVlanToPortIpMap.removeFrom (.iofSwitch sw) ⟨mac, normalVlan vlan⟩ }

def getFromPortMap (dcm : Dcm σ) (sw : σ) (mac : BitVec 64) (vlan : BitVec 16) :
    Option (BitVec 16) × Dcm σ :=
  let read := dcm.macVlanToSwitchPortMap.getFrom (.iofSwitch sw) ⟨mac, normalVlan vlan⟩
  (read.1, { dcm with macVlanToSwitchPortMap := read.2 })

def getFromPortIpMap (dcm : Dcm σ) (swId : String) (mac : BitVec 64) (vlan : BitVec 16) :
    Option PortIpPair × Dcm σ :=
  let read := dcm.macVlanToPortIpMap.getFrom (.string swId) ⟨mac, normalVlan vlan⟩
  (read.1, { dcm with macVlanToPortIpMap := read.2 })

def clearLearnedTable (dcm : Dcm σ) : Option σ → Dcm σ
  | none => { dcm with macVlanToSwitchPortMap := fun _ => none }
  | some sw =>
    { dcm with macVlanToSwitchPortMap := dcm.macVlanToSwitchPortMap.clear (.iofSwitch sw) }

def clearRemoteTable (dcm : Dcm σ) : Option σ → Dcm σ
  | none => { dcm with macVlanToPortIpMap := fun _ => none }
  | some sw => { dcm with macVlanToPortIpMap := dcm.macVlanToPortIpMap.clear (.iofSwitch sw) }

end Dcm

inductive DcmCall (σ : Type*) where
  | addToPortMap (sw : σ) (mac : BitVec 64) (vlan portVal : BitVec 16)
  | removeFromPortMap (sw : σ) (mac : BitVec 64) (vlan : BitVec 16)
  | getFromPortMap (sw : σ) (mac : BitVec 64) (vlan : BitVec 16)
  | clearLearnedTable (sw : Option σ)
  | addToPortIpMap (swId : String) (mac : BitVec 64) (vlan portVal : BitVec 16) (ip : BitVec 32)
  | removeFromPortIpMap (sw : σ) (mac : BitVec 64) (vlan : BitVec 16)
  | getFromPortIpMap (swId : String) (mac : BitVec 64) (vlan : BitVec 16)
  | clearRemoteTable (sw : Option σ)
  deriving DecidableEq, Repr

def DcmCall.run {σ : Type*} [DecidableEq σ] (dcm : Dcm σ) : DcmCall σ → Dcm σ
  | addToPortMap sw mac vlan portVal => dcm.addToPortMap sw mac vlan portVal
  | removeFromPortMap sw mac vlan => dcm.removeFromPortMap sw mac vlan
  | getFromPortMap sw mac vlan => (dcm.getFromPortMap sw mac vlan).2
  | clearLearnedTable sw => dcm.clearLearnedTable sw
  | addToPortIpMap swId mac vlan portVal ip => dcm.addToPortIpMap swId mac vlan portVal ip
  | removeFromPortIpMap sw mac vlan => dcm.removeFromPortIpMap sw mac vlan
  | getFromPortIpMap swId mac vlan => (dcm.getFromPortIpMap swId mac vlan).2
  | clearRemoteTable sw => dcm.clearRemoteTable sw

inductive TableEvent (ι ν : Type*) where
  | added (name : ι) (pair : MacVlanPair) (value : ν) (evicted : Option MacVlanPair)
  | hit (name : ι) (pair : MacVlanPair)
  | removed (name : ι) (pair : MacVlanPair)
  | cleared (name : Option ι)
  deriving DecidableEq, Repr

section Spec

variable {ι ν : Type*} [DecidableEq ι]

/-- The value that the events, the latest of them first, leave for a host: the one that was added
last, unless the host was removed, cleared or evicted since then. -/
def expected (name : ι) (pair : MacVlanPair) : List (TableEvent ι ν) → Option ν
  | [] => none
  | .added other host value evicted :: earlier =>
    if other = name then
      if evicted = some pair then none
      else if pair = host then some value else expected name pair earlier
    else expected name pair earlier
  | .hit _ _ :: earlier => expected name pair earlier
  | .removed other host :: earlier =>
    if other = name ∧ host = pair then none else expected name pair earlier
  | .cleared none :: _ => none
  | .cleared (some other) :: earlier =>
    if other = name then none else expected name pair earlier

def usedSince (name : ι) (pair : MacVlanPair) : List (TableEvent ι ν) → List MacVlanPair
  | [] => []
  | .added other host _ _ :: earlier | .hit other host :: earlier =>
    if other = name then
      if host = pair then [] else host :: usedSince name pair earlier
    else usedSince name pair earlier
  | .removed _ _ :: earlier | .cleared _ :: earlier => usedSince name pair earlier

def EvictsLru : List (TableEvent ι ν) → Prop
  | [] => True
  | event :: earlier =>
    (∀ name host value pair, event = .added name host value (some pair) →
      maxMacsPerSwitch ≤ (usedSince name pair (event :: earlier)).dedup.length) ∧
    EvictsLru earlier

end Spec

/-- The tables together with what happened to each of them, the latest event first. -/
structure DcmHistory (σ : Type*) where
  dcm : Dcm σ
  learned : List (TableEvent σ (BitVec 16))
  remote : List (TableEvent String PortIpPair)

namespace DcmCall

variable {σ : Type*} [DecidableEq σ]

def learnedEvent (dcm : Dcm σ) : DcmCall σ → List (TableEvent σ (BitVec 16))
  | addToPortMap sw mac vlan portVal =>
    let pair := ⟨mac, normalVlan vlan⟩
    [.added sw pair portVal
      ((dcm.macVlanToSwitchPortMap.swMap (.iofSwitch sw)).evicted ⟨pair, portVal⟩)]
  | removeFromPortMap sw mac vlan => [.removed sw ⟨mac, normalVlan vlan⟩]
  | getFromPortMap sw mac vlan =>
    if (dcm.getFromPortMap sw mac vlan).1.isSome then [.hit sw ⟨mac, normalVlan vlan⟩] else []
  | clearLearnedTable sw => [.cleared sw]
  | _ => []

def remoteEvent (stringId : σ → String) (dcm : Dcm σ) :
    DcmCall σ → List (TableEvent String PortIpPair)
  | addToPortIpMap swId mac vlan portVal ip =>
    let pair := ⟨mac, normalVlan vlan⟩
    [.added swId pair ⟨portVal, ip⟩
      ((dcm.macVlanToPortIpMap.swMap (.string swId)).evicted ⟨pair, ⟨portVal, ip⟩⟩)]
  | removeFromPortIpMap sw mac vlan => [.removed (stringId sw) ⟨mac, normalVlan vlan⟩]
  | getFromPortIpMap swId mac vlan =>
    if (dcm.getFromPortIpMap swId mac vlan).1.isSome then [.hit swId ⟨mac, normalVlan vlan⟩]
    else []
  | clearRemoteTable sw => [.cleared (sw.map stringId)]
  | _ => []

end DcmCall

namespace DcmHistory

variable {σ : Type*} [DecidableEq σ]

def init : DcmHistory σ := ⟨.init, [], []⟩

def next (stringId : σ → String) (history : DcmHistory σ) (call : DcmCall σ) : DcmHistory σ where
  dcm := call.run history.dcm
  learned := call.learnedEvent history.dcm ++ history.learned
  remote := call.remoteEvent stringId history.dcm ++ history.remote

def step (stringId : σ → String) (history : DcmHistory σ) (call : DcmCall σ) :
    Option (DcmHistory σ) :=
  some (history.next stringId call)

/-- Both tables answer as their history says, and evict by the least recent use. -/
structure AsBoundedMaps (history : DcmHistory σ) : Prop where
  getFromPortMap : ∀ sw mac vlan, (history.dcm.getFromPortMap sw mac vlan).1 =
    expected sw ⟨mac, normalVlan vlan⟩ history.learned
  getFromPortIpMap : ∀ swId mac vlan, (history.dcm.getFromPortIpMap swId mac vlan).1 =
    expected swId ⟨mac, normalVlan vlan⟩ history.remote
  learnedLru : EvictsLru history.learned
  remoteLru : EvictsLru history.remote

/-- A removal from the remote table finds nothing to remove. -/
def RemovesNothing (stringId : σ → String) (history : DcmHistory σ) : DcmCall σ → Prop
  | .removeFromPortIpMap sw mac vlan =>
    (history.dcm.macVlanToPortIpMap.swMap (.string (stringId sw))).find
      ⟨mac, normalVlan vlan⟩ = none
  | .clearRemoteTable (some sw) => ∀ mac vlan,
      (history.dcm.macVlanToPortIpMap.swMap (.string (stringId sw))).find
        ⟨mac, normalVlan vlan⟩ = none
  | _ => True

end DcmHistory

namespace LocationMap

variable {σ ν : Type*} [DecidableEq σ] (map : LocationMap σ ν) (key other : JavaObject σ)

theorem swMap_update (swMap : LruMap MacVlanPair ν maxMacsPerSwitch) :
    LocationMap.swMap (Function.update map key (some swMap)) other =
      if other = key then swMap else map.swMap other := by
  rw [LocationMap.swMap, Function.update_apply]
  split <;> rfl

theorem swMap_addTo (pair : MacVlanPair) (value : ν) :
    (map.addTo key pair value).swMap other =
      if other = key then (map.swMap key).put ⟨pair, value⟩ else map.swMap other :=
  swMap_update map key other _

variable {map key} in
omit [DecidableEq σ] in
theorem swMap_of_some {swMap : LruMap MacVlanPair ν maxMacsPerSwitch} (found : map key = some swMap) :
    map.swMap key = swMap := by
  rw [LocationMap.swMap, found, Option.getD_some]

variable {map key} in
omit [DecidableEq σ] in
theorem swMap_of_none (found : map key = none) : map.swMap key = .empty := by
  rw [swMap, found, Option.getD_none]

variable {key} in
theorem swMap_same {swMap : LruMap MacVlanPair ν maxMacsPerSwitch} (same : map.swMap key = swMap) :
    map.swMap other = if other = key then swMap else map.swMap other := by
  split
  · rename_i equal
    rw [equal, same]
  · rfl

theorem swMap_removeFrom (pair : MacVlanPair) :
    (map.removeFrom key pair).swMap other =
      if other = key then (map.swMap key).remove pair else map.swMap other := by
  rw [removeFrom]
  split <;> rename_i found
  · rw [swMap_update, swMap_of_some found]
  · refine swMap_same map other ?_
    rw [swMap_of_none found]
    rfl

theorem getFrom_fst (pair : MacVlanPair) :
    (map.getFrom key pair).1 = (map.swMap key).find pair := by
  rw [getFrom]
  split <;> rename_i found
  · rw [swMap_of_some found, LruMap.get_fst]
  · rw [swMap_of_none found, LruMap.find_empty]

theorem swMap_getFrom (pair : MacVlanPair) :
    (map.getFrom key pair).2.swMap other =
      if other = key then ((map.swMap key).get pair).2 else map.swMap other := by
  rw [getFrom]
  split <;> rename_i found
  · rw [swMap_update, swMap_of_some found]
  · refine swMap_same map other ?_
    rw [swMap_of_none found]
    rfl

theorem swMap_clear :
    (map.clear key).swMap other = if other = key then .empty else map.swMap other := by
  rw [clear]
  split <;> rename_i found
  · rw [swMap_update]
  · exact swMap_same map other (swMap_of_none found)

structure Follows {ι : Type*} [DecidableEq ι] (name : ι → JavaObject σ)
    (events : List (TableEvent ι ν)) : Prop where
  find : ∀ i mac vlan, (map.swMap (name i)).find ⟨mac, normalVlan vlan⟩ =
    expected i ⟨mac, normalVlan vlan⟩ events
  ordered : ∀ i, (map.swMap (name i)).Ordered fun pair => usedSince i pair events
  lru : EvictsLru events

namespace Follows

variable {map} {ι : Type*} [DecidableEq ι] {name : ι → JavaObject σ}
  {events : List (TableEvent ι ν)}

theorem of_update (injective : Function.Injective name) (follows : map.Follows name events)
    {i : ι} {event : TableEvent ι ν} {after : LocationMap σ ν}
    {swMap : LruMap MacVlanPair ν maxMacsPerSwitch}
    (maps : ∀ other, after.swMap other = if other = name i then swMap else map.swMap other)
    (here : ∀ mac vlan, swMap.find ⟨mac, normalVlan vlan⟩ =
      expected i ⟨mac, normalVlan vlan⟩ (event :: events))
    (order : swMap.Ordered fun pair => usedSince i pair (event :: events))
    (elsewhere : ∀ j, i ≠ j → ∀ pair, expected j pair (event :: events) = expected j pair events ∧
      usedSince j pair (event :: events) = usedSince j pair events)
    (lru : EvictsLru (event :: events)) : after.Follows name (event :: events) := by
  refine ⟨fun j mac vlan => ?_, fun j => ?_, lru⟩ <;> rw [maps] <;> by_cases same : i = j
  · subst same
    rw [if_pos rfl, here]
  · rw [if_neg (fun equal => same (injective equal).symm), follows.find, (elsewhere j same _).1]
  · subst same
    rwa [if_pos rfl]
  · rw [if_neg (fun equal => same (injective equal).symm)]
    simpa only [(elsewhere j same _).2] using follows.ordered j

omit [DecidableEq σ] in
theorem usedSince_use {i : ι} (event : TableEvent ι ν) {host : MacVlanPair}
    (events : List (TableEvent ι ν))
    (use : (∃ value evicted, event = .added i host value evicted) ∨ event = .hit i host)
    (pair : MacVlanPair) (differs : pair ≠ host) :
    usedSince i pair events ⊆ usedSince i pair (event :: events) ∧
      host ∈ usedSince i pair (event :: events) := by
  have more : usedSince i pair (event :: events) = host :: usedSince i pair events := by
    obtain ⟨value, evicted, rfl⟩ | rfl := use <;>
      rw [usedSince, if_pos rfl, if_neg (Ne.symm differs)]
  rw [more]
  exact ⟨List.subset_cons_self _ _, List.mem_cons_self⟩

theorem added (injective : Function.Injective name) (follows : map.Follows name events) (i : ι)
    (host : MacVlanPair) (value : ν) :
    (map.addTo (name i) host value).Follows name
      (.added i host value ((map.swMap (name i)).evicted ⟨host, value⟩) :: events) := by
  have uses := usedSince_use
    (.added i host value ((map.swMap (name i)).evicted ⟨host, value⟩)) events (.inl ⟨_, _, rfl⟩)
  refine follows.of_update injective (swMap_addTo map _ · host value) (fun mac vlan => ?_)
    ((follows.ordered i).put (fun pair differs => (uses pair differs).1)
      fun pair differs => (uses pair differs).2) (fun j differs pair => ?_) ⟨?_, follows.lru⟩
  · rw [expected, if_pos rfl, LruMap.find_put, follows.find]
  · rw [expected, if_neg differs, usedSince, if_neg differs]
    exact ⟨rfl, rfl⟩
  · intro other otherHost otherValue pair event
    obtain ⟨rfl, rfl, rfl, dropped⟩ := TableEvent.added.inj event
    exact (follows.ordered i).evicted (usedSince i · _) (fun pair differs => (uses pair differs).1)
      (fun pair differs => (uses pair differs).2) dropped

theorem hit (injective : Function.Injective name) (follows : map.Follows name events) {i : ι}
    {host : MacVlanPair} (found : (map.swMap (name i)).find host ≠ none) :
    (map.getFrom (name i) host).2.Follows name (.hit i host :: events) := by
  have uses := usedSince_use (.hit i host) events (.inr rfl)
  refine follows.of_update injective (swMap_getFrom map _ · host) (fun mac vlan => ?_)
    ((follows.ordered i).get (fun pair differs => (uses pair differs).1)
      (fun pair differs => (uses pair differs).2) found) (fun j differs pair => ?_)
    ⟨?_, follows.lru⟩
  · rw [expected, LruMap.find_get, follows.find]
  · rw [expected, usedSince, if_neg differs]
    exact ⟨rfl, rfl⟩
  · intro other otherHost otherValue pair event
    cases event

theorem read (injective : Function.Injective name) (follows : map.Follows name events) (i : ι)
    (host : MacVlanPair) :
    (map.getFrom (name i) host).2.Follows name
      ((if (map.getFrom (name i) host).1.isSome then [.hit i host] else []) ++ events) := by
  rw [getFrom_fst]
  split <;> rename_i found
  · exact follows.hit injective (Option.isSome_iff_ne_none.mp found)
  · have missing : (map.swMap (name i)).find host = none := by simpa using found
    have same (other : JavaObject σ) : (map.getFrom (name i) host).2.swMap other =
        map.swMap other := by
      rw [swMap_getFrom]
      refine (swMap_same map other ?_).symm
      obtain ⟨-, unchanged⟩ | ⟨entry, lookup, -⟩ := (map.swMap (name i)).entries_get host
      · exact unchanged.symm
      · rw [LruMap.find, lookup] at missing
        cases missing
    refine ⟨fun j mac vlan => ?_, fun j => ?_, follows.lru⟩ <;> rw [same]
    · exact follows.find j mac vlan
    · exact follows.ordered j

theorem removed (injective : Function.Injective name) (follows : map.Follows name events) (i : ι)
    (host : MacVlanPair) :
    (map.removeFrom (name i) host).Follows name (.removed i host :: events) := by
  refine follows.of_update injective (swMap_removeFrom map _ · host) (fun mac vlan => ?_)
    ((follows.ordered i).remove host) (fun j differs pair => ?_) ⟨?_, follows.lru⟩
  · rw [expected, LruMap.find_remove, follows.find]
    simp only [true_and, eq_comm]
  · rw [expected, if_neg (fun both => differs both.1)]
    exact ⟨rfl, rfl⟩
  · intro other otherHost otherValue pair event
    cases event

theorem cleared (injective : Function.Injective name) (follows : map.Follows name events) (i : ι) :
    (map.clear (name i)).Follows name (.cleared (some i) :: events) := by
  refine follows.of_update injective (swMap_clear map _) (fun mac vlan => ?_)
    (LruMap.ordered_empty _) (fun j differs pair => ?_) ⟨?_, follows.lru⟩
  · rw [expected, if_pos rfl, LruMap.find_empty]
  · rw [expected, if_neg differs]
    exact ⟨rfl, rfl⟩
  · intro other otherHost otherValue pair event
    cases event

omit [DecidableEq σ] in
theorem clearedAll (follows : map.Follows name events) :
    Follows (fun _ => none : LocationMap σ ν) name (.cleared none :: events) := by
  refine ⟨fun j mac vlan => rfl, fun j => LruMap.ordered_empty _, ?_, follows.lru⟩
  intro other otherHost otherValue pair event
  cases event

omit [DecidableEq σ] in
theorem removed_of_absent (follows : map.Follows name events) {i : ι} {host : MacVlanPair}
    (absent : (map.swMap (name i)).find host = none) :
    map.Follows name (.removed i host :: events) := by
  refine ⟨fun j mac vlan => ?_, follows.ordered, ?_, follows.lru⟩
  · rw [expected]
    split
    · rename_i both
      rw [← both.1, ← both.2, absent]
    · exact follows.find j mac vlan
  · intro other otherHost otherValue pair event
    cases event

omit [DecidableEq σ] in
theorem cleared_of_absent (follows : map.Follows name events) {i : ι}
    (absent : ∀ mac vlan, (map.swMap (name i)).find ⟨mac, normalVlan vlan⟩ = none) :
    map.Follows name (.cleared (some i) :: events) := by
  refine ⟨fun j mac vlan => ?_, follows.ordered, ?_, follows.lru⟩
  · rw [expected]
    split
    · rename_i equal
      rw [← equal, absent]
    · exact follows.find j mac vlan
  · intro other otherHost otherValue pair event
    cases event

end Follows
end LocationMap

theorem iofSwitch_injective {σ : Type*} : Function.Injective (@JavaObject.iofSwitch σ) :=
  fun _ _ equal => JavaObject.iofSwitch.inj equal

theorem string_injective {σ : Type*} : Function.Injective (@JavaObject.string σ) :=
  fun _ _ equal => JavaObject.string.inj equal

namespace DcmHistory

variable {σ : Type*} [DecidableEq σ] {stringId : σ → String} {history : DcmHistory σ}

structure Follows (history : DcmHistory σ) : Prop where
  learned : history.dcm.macVlanToSwitchPortMap.Follows .iofSwitch history.learned
  remote : history.dcm.macVlanToPortIpMap.Follows .string history.remote
  noSwitch : ∀ sw, history.dcm.macVlanToPortIpMap (.iofSwitch sw) = none

theorem Follows.asBoundedMaps (follows : history.Follows) : history.AsBoundedMaps where
  getFromPortMap sw mac vlan := by
    rw [Dcm.getFromPortMap, LocationMap.getFrom_fst, follows.learned.find]
  getFromPortIpMap swId mac vlan := by
    rw [Dcm.getFromPortIpMap, LocationMap.getFrom_fst, follows.remote.find]
  learnedLru := follows.learned.lru
  remoteLru := follows.remote.lru

theorem Follows.next (follows : history.Follows) {call : DcmCall σ}
    (removes : history.RemovesNothing stringId call) : (history.next stringId call).Follows := by
  cases call with
  | addToPortMap sw mac vlan portVal =>
    exact ⟨follows.learned.added iofSwitch_injective sw _ portVal, follows.remote,
      follows.noSwitch⟩
  | removeFromPortMap sw mac vlan =>
    exact ⟨follows.learned.removed iofSwitch_injective sw _, follows.remote, follows.noSwitch⟩
  | getFromPortMap sw mac vlan =>
    exact ⟨follows.learned.read iofSwitch_injective sw _, follows.remote, follows.noSwitch⟩
  | clearLearnedTable sw =>
    cases sw with
    | none => exact ⟨follows.learned.clearedAll, follows.remote, follows.noSwitch⟩
    | some sw =>
      exact ⟨follows.learned.cleared iofSwitch_injective sw, follows.remote, follows.noSwitch⟩
  | addToPortIpMap swId mac vlan portVal ip =>
    exact ⟨follows.learned, follows.remote.added string_injective swId _ ⟨portVal, ip⟩,
      follows.noSwitch⟩
  | removeFromPortIpMap sw mac vlan =>
    have unchanged : history.dcm.removeFromPortIpMap sw mac vlan = history.dcm := by
      rw [Dcm.removeFromPortIpMap, LocationMap.removeFrom, follows.noSwitch]
    rw [RemovesNothing] at removes
    refine ⟨?_, ?_, ?_⟩ <;> simp only [DcmHistory.next, DcmCall.run, unchanged]
    · exact follows.learned
    · exact follows.remote.removed_of_absent removes
    · exact follows.noSwitch
  | getFromPortIpMap swId mac vlan =>
    refine ⟨follows.learned, follows.remote.read string_injective swId _, fun sw => ?_⟩
    simp only [DcmHistory.next, DcmCall.run, Dcm.getFromPortIpMap, LocationMap.getFrom]
    split <;> exact follows.noSwitch sw
  | clearRemoteTable sw =>
    cases sw with
    | none => exact ⟨follows.learned, follows.remote.clearedAll, fun _ => rfl⟩
    | some sw =>
      have unchanged : history.dcm.clearRemoteTable (some sw) = history.dcm := by
        rw [Dcm.clearRemoteTable, LocationMap.clear, follows.noSwitch]
      rw [RemovesNothing] at removes
      refine ⟨?_, ?_, ?_⟩ <;> simp only [DcmHistory.next, DcmCall.run, unchanged]
      · exact follows.learned
      · exact follows.remote.cleared_of_absent removes
      · exact follows.noSwitch

theorem removesNothing_of_next (follows : history.Follows) {call : DcmCall σ}
    (right : (history.next stringId call).AsBoundedMaps) : history.RemovesNothing stringId call := by
  have read (swId : String) (mac : BitVec 64) (vlan : BitVec 16) :=
    right.getFromPortIpMap swId mac vlan
  simp only [Dcm.getFromPortIpMap, LocationMap.getFrom_fst] at read
  cases call with
  | removeFromPortIpMap sw mac vlan =>
    have here := read (stringId sw) mac vlan
    rw [RemovesNothing]
    simpa [DcmHistory.next, DcmCall.run, Dcm.removeFromPortIpMap, LocationMap.removeFrom,
      follows.noSwitch, DcmCall.remoteEvent, expected] using here
  | clearRemoteTable sw =>
    cases sw with
    | none => trivial
    | some sw =>
      intro mac vlan
      have here := read (stringId sw) mac vlan
      simpa [DcmHistory.next, DcmCall.run, Dcm.clearRemoteTable, LocationMap.clear,
        follows.noSwitch, DcmCall.remoteEvent, expected] using here
  | _ => trivial

/-- The tables behave as bounded maps throughout a sequence of calls exactly when no call was to
remove something from the remote table of a switch that had it. -/
theorem asBoundedMaps_iff_removesNothing (stringId : σ → String) (calls : List (DcmCall σ)) :
    Run.EveryStep (step stringId) AsBoundedMaps (init : DcmHistory σ) calls ↔
      Run.Along (step stringId) (RemovesNothing stringId) init calls := by
  refine @Run.everyStep_iff_along _ _ (step stringId) _ AsBoundedMaps Follows ?_ ?_ _ _ ?_
  · intro history call follows
    constructor
    · rintro ⟨after, taken, right⟩
      obtain rfl := Option.some.inj taken
      exact removesNothing_of_next follows right
    · intro removes
      exact ⟨_, rfl, (follows.next removes).asBoundedMaps⟩
  · intro history call after follows taken right
    obtain rfl := Option.some.inj taken
    exact follows.next (removesNothing_of_next follows right)
  · exact ⟨⟨fun _ _ _ => rfl, fun _ => LruMap.ordered_empty _, trivial⟩,
      ⟨fun _ _ _ => rfl, fun _ => LruMap.ordered_empty _, trivial⟩, fun _ => rfl⟩

/-- A remote host is still found after it was removed, and after its switch was cleared. -/
theorem not_asBoundedMaps_after_removal :
    let added : Dcm Unit :=
      Dcm.init.addToPortIpMap "00:00:08:00:27:85:ca:de" 0x080027abb6a5 0 1 0xc0a80a02
    ((added.removeFromPortIpMap () 0x080027abb6a5 0).getFromPortIpMap
        "00:00:08:00:27:85:ca:de" 0x080027abb6a5 0).1 = some ⟨1, 0xc0a80a02⟩ ∧
    ((added.clearRemoteTable (some ())).getFromPortIpMap
        "00:00:08:00:27:85:ca:de" 0x080027abb6a5 0).1 = some ⟨1, 0xc0a80a02⟩ ∧
    ¬ Run.EveryStep (step fun _ => "00:00:08:00:27:85:ca:de") AsBoundedMaps init
      [.addToPortIpMap "00:00:08:00:27:85:ca:de" 0x080027abb6a5 0 1 0xc0a80a02,
        .removeFromPortIpMap () 0x080027abb6a5 0] := by
  refine ⟨by decide, by decide, fun every => ?_⟩
  obtain ⟨before, after, run, taken, right⟩ := every [_] _ [] rfl
  obtain rfl := Option.some.inj run
  obtain rfl := Option.some.inj taken
  exact absurd (right.getFromPortIpMap "00:00:08:00:27:85:ca:de" 0x080027abb6a5 0) (by decide)

end DcmHistory
end Controller
end LazyCtrl
