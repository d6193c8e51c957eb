import LazyCtrl.Lib.Run
import LazyCtrl.Bf.Table

/-!
# The netlink interface of the datapath's table

The handlers of `datapath/datapath.c` for the `bf_gdt` generic netlink family, and the table that a
new datapath starts with.  A handler gets the attributes of the request and the datapath that the
request names, if there is one.

The purpose of the interface is a finite map from switch ids to bit arrays.  `latest` says what the
map holds after a sequence of commands, independently of the handlers.
-/

namespace LazyCtrl

open Keyed

/-- The value of `LC_BF_LOCAL_ID` and `LC_LOCAL_EDGE_IP` in the repository.  It has to be set by hand
on each switch, so everything below takes the id of the switch as a parameter. -/
def lcBfLocalId : BitVec 32 := 0xc0a8390a

def enoent : Int := 2

def enomem : Int := 12

def enodev : Int := 19

def einval : Int := 22

structure Datapath where
  localIp : BitVec 32
  gdt : Option BfGdt

inductive Reply where
  | status (code : Int)
  | filter (bf : BloomFilter)

/-- The part of `ovs_dp_cmd_new` that creates the table with its empty local filter; the inner
`none` is the exit with `ENOMEM`. -/
def ovsDpCmdNew (localId : BitVec 32) (alloc : Alloc) (gid : BitVec 32) :
    Option (Option Datapath) := do
  match ← bfGdtAddFilter alloc (bfGdtInit gid) localId lcBfLocalPort lcBfDftLen with
  | (_, none) => some none
  | (gdt, some _) => some (some { localIp := localId, gdt := some gdt })

/-- `bf_gdt_find_filter` on a pointer that may be null, followed to the filter. -/
def findFilter (gdt : Option BfGdt) (bfId : BitVec 32) : Option (Option BloomFilter) :=
  match gdt with
  | none => some none
  | some gdt => do
      match ← bfGdtFindFilter gdt bfId with
      | none => some none
      | some i => (gdt.slot i).map some

/-- What `ovs_bf_gdt_cmd_new_or_set` does with the filter and the datapath that it has found. -/
def Datapath.update (alloc : Alloc) (dp : Datapath) (bf : BloomFilter) : Option Datapath :=
  match dp.gdt with
  | none => some dp
  | some gdt => do
      let (gdt, _) ← bfGdtUpdateFilter alloc gdt bf
      some { dp with gdt := some gdt }

/-- The handler returns zero whatever the update returned, also when the table is a null pointer. -/
def ovsBfGdtCmdNewOrSet (alloc : Alloc) (attrBf : Option (List Byte)) (dp : Option Datapath) :
    Option (Option Datapath × Reply) :=
  match attrBf, dp with
  | some data, some dp =>
    if data.length ≠ sizeofBloomFilter then
      some (some dp, .status (-1))
    else do
      let dp ← dp.update alloc (bloomFilterAt data 0)
      some (some dp, .status 0)
  | _, dp => some (dp, .status (-1))

def ovsBfGdtCmdGet (replyAlloc : Bool) (attrKey : Option (BitVec 32)) (dp : Option Datapath) :
    Option (Option Datapath × Reply) :=
  match attrKey, dp with
  | none, dp => some (dp, .status (-einval))
  | some _, none => some (none, .status (-enodev))
  | some bfId, some dp => do
      match ← findFilter dp.gdt bfId with
      | none => some (some dp, .status (-enoent))
      | some bf => some (some dp, if replyAlloc then .filter bf else .status (-enomem))

def flushBfGdt (dp : Datapath) : Option (Datapath × Int) := do
  let _ ← bfGdtDestroy dp.gdt
  some ({ dp with gdt := none }, 0)

def ovsBfGdtCmdDel (replyAlloc : Bool) (attrKey : Option (BitVec 32)) (dp : Option Datapath) :
    Option (Option Datapath × Reply) :=
  match dp, attrKey with
  | none, _ => some (none, .status (-enodev))
  | some dp, none => do
      let (dp, err) ← flushBfGdt dp
      some (some dp, .status err)
  | some dp, some bfId => do
      match ← findFilter dp.gdt bfId, dp.gdt with
      | some _, some gdt =>
        if replyAlloc then
          let (gdt, _) ← bfGdtDelFilter gdt bfId
          some (some { dp with gdt := some gdt }, .status 0)
        else
          some (some dp, .status (-enomem))
      | _, _ => some (some dp, .status (-enoent))

inductive BfGdtCmd where
  | newOrSet (attrBf : Option (List Byte)) (alloc : Alloc)
  | get (attrKey : Option (BitVec 32)) (replyAlloc : Bool)
  | del (attrKey : Option (BitVec 32)) (replyAlloc : Bool)

def serve (dp : Option Datapath) : BfGdtCmd → Option (Option Datapath × Reply)
  | .newOrSet attrBf alloc => ovsBfGdtCmdNewOrSet alloc attrBf dp
  | .get attrKey replyAlloc => ovsBfGdtCmdGet replyAlloc attrKey dp
  | .del attrKey replyAlloc => ovsBfGdtCmdDel replyAlloc attrKey dp

def mapStep (map : BitVec 32 → Option BitArray) : BfGdtCmd → BitVec 32 → Option BitArray
  | .newOrSet (some data) _ =>
    if data.length = sizeofBloomFilter then
      Function.update map (bloomFilterAt data 0).bfId (some (bloomFilterAt data 0).array)
    else
      map
  | .del (some bfId) _ => Function.update map bfId none
  | .del none _ => fun _ => none
  | _ => map

def latest (issued : List BfGdtCmd) : BitVec 32 → Option BitArray :=
  issued.foldl mapStep fun _ => none

def BfGdtCmd.Names (bfId : BitVec 32) : BfGdtCmd → Prop
  | .newOrSet (some data) _ =>
    data.length = sizeofBloomFilter ∧ (bloomFilterAt data 0).bfId = bfId
  | .del (some key) _ => key = bfId
  | _ => False

def Stored (dp : Option Datapath) (bf : BloomFilter) : Prop :=
  ∃ dp', dp = some dp' ∧
    ∃ stored, findFilter dp'.gdt bf.bfId = some (some stored) ∧ stored.array = bf.array

def Answers (issued : List BfGdtCmd) (after : Option Datapath) (reply : Reply) :
    BfGdtCmd → Prop
  | .newOrSet attrBf _ =>
    reply = .status 0 → ∃ data, attrBf = some data ∧ Stored after (bloomFilterAt data 0)
  | .get (some bfId) _ =>
    match latest issued bfId with
    | none => reply = .status (-enoent)
    | some array => ∃ bf, reply = .filter bf ∧ bf.bfId = bfId ∧ bf.array = array
  | _ => True

structure Session where
  issued : List BfGdtCmd
  dp : Option Datapath

def Session.step (session : Session) (cmd : BfGdtCmd) : Option Session :=
  (serve session.dp cmd).map fun served => { issued := session.issued ++ [cmd], dp := served.1 }

/-- Every command of a sequence is answered as the map answers it. -/
def RefinesMap (dp : Datapath) (cmds : List BfGdtCmd) : Prop :=
  ∀ issued cmd rest, cmds = issued ++ cmd :: rest →
    ∃ before after reply,
      Run.exec Session.step { issued := [], dp := some dp } issued = some before ∧
        serve before.dp cmd = some (after, reply) ∧ Answers issued after reply cmd

def Session.table (session : Session) : Option BfGdt := session.dp.bind Datapath.gdt

/-- The commands that the interface serves as the map does.  A new filter needs a table, a free
slot, memory and a length that covers the array; a reply needs memory; the filter that the datapath
was created with has to be replaced or deleted before it is read; a flush needs an empty table. -/
def Admissible (localId : BitVec 32) (session : Session) : BfGdtCmd → Prop
  | .newOrSet (some data) alloc =>
    data.length = sizeofBloomFilter →
      ∃ gdt, session.table = some gdt ∧
        (findFilter (some gdt) (bloomFilterAt data 0).bfId ≠ some none ∨
          gdt.nbf < bfGdtMaxFilters ∧ alloc.isSome ∧ (bloomFilterAt data 0).nbytes = 128)
  | .get (some bfId) replyAlloc =>
    findFilter session.table bfId = some none ∨
      replyAlloc ∧ (bfId = localId → ∃ cmd ∈ session.issued, cmd.Names bfId)
  | .del (some bfId) replyAlloc => findFilter session.table bfId = some none ∨ replyAlloc
  | .del none _ => ∀ gdt, session.table = some gdt → gdt.nbf = 0
  | _ => True

theorem findFilter_of_holds {gdt : BfGdt} {filters : List BloomFilter}
    (holds : gdt.Holds filters) (bfId : BitVec 32) :
    findFilter (some gdt) bfId = some (lookup filters bfId) := by
  rw [findFilter, bfGdtFindFilter_of_holds holds]
  cases found : position filters bfId with
  | none =>
    rw [lookup_eq_none.mpr (position_eq_none.mp found)]
    rfl
  | some i =>
    obtain ⟨inside, -, here⟩ := position_eq_some found
    rw [here]
    simp [holds.slot_eq inside]

theorem latest_append (issued : List BfGdtCmd) (cmd : BfGdtCmd) :
    latest (issued ++ [cmd]) = mapStep (latest issued) cmd := by
  simp [latest, List.foldl_append]

theorem latest_of_not_names {issued : List BfGdtCmd} {bfId : BitVec 32}
    (unnamed : ¬ ∃ cmd ∈ issued, cmd.Names bfId) : latest issued bfId = none := by
  induction issued using List.reverseRecOn with
  | nil => rfl
  | append_singleton issued cmd ih =>
    have before := ih fun ⟨other, member, names⟩ => unnamed ⟨other, by simp [member], names⟩
    have here : ¬ cmd.Names bfId := fun names => unnamed ⟨cmd, by simp, names⟩
    rw [latest_append]
    match cmd with
    | .newOrSet none _ | .get _ _ => exact before
    | .del none _ => rfl
    | .del (some key) _ =>
      have differs : bfId ≠ key := Ne.symm here
      simp [mapStep, differs, before]
    | .newOrSet (some data) _ =>
      simp only [mapStep]
      split
      · rename_i sized
        have differs : bfId ≠ (bloomFilterAt data 0).bfId := fun equal =>
          here ⟨sized, equal.symm⟩
        simp [differs, before]
      · exact before

def Session.Matches (localId : BitVec 32) (session : Session) : Prop :=
  ∃ dp, session.dp = some dp ∧
    match dp.gdt with
    | none => ∀ bfId, latest session.issued bfId = none
    | some gdt => ∃ filters, gdt.Holds filters ∧ WideTable filters ∧
        ∀ bfId, (bfId = localId → ∃ cmd ∈ session.issued, cmd.Names bfId) →
          latest session.issued bfId = contents filters bfId

private theorem matches_of_update {issued : List BfGdtCmd} {cmd : BfGdtCmd} {dp : Datapath}
    {gdt : BfGdt} {filters after : List BloomFilter} {localId bfId : BitVec 32}
    {entry : Option BitArray}
    (names : ∀ other, cmd.Names other ↔ other = bfId)
    (mapped : mapStep (latest issued) cmd = Function.update (latest issued) bfId entry)
    (holds : gdt.Holds after) (wide : WideTable after)
    (changed : ∀ other, contents after other =
      if other = bfId then entry else contents filters other)
    (agree : ∀ other, (other = localId → ∃ cmd ∈ issued, cmd.Names other) →
      latest issued other = contents filters other) :
    Session.Matches localId
      { issued := issued ++ [cmd], dp := some { dp with gdt := some gdt } } := by
  refine ⟨_, rfl, after, holds, wide, fun other named => ?_⟩
  rw [latest_append, mapped, changed]
  by_cases equal : other = bfId
  · simp [equal]
  · simp only [Function.update_of_ne equal, equal, if_false]
    refine agree other fun isLocal => ?_
    obtain ⟨witness, member, isNamed⟩ := named isLocal
    rcases List.mem_append.mp member with old | new
    · exact ⟨witness, old, isNamed⟩
    · rw [List.mem_singleton.mp new, names] at isNamed
      exact absurd isNamed equal

private theorem matches_of_same {session : Session} {cmd : BfGdtCmd} {localId : BitVec 32}
    (related : session.Matches localId) (unnamed : ∀ bfId, ¬ cmd.Names bfId)
    (mapped : mapStep (latest session.issued) cmd = latest session.issued) :
    Session.Matches localId { issued := session.issued ++ [cmd], dp := session.dp } := by
  obtain ⟨dp, dpEq, relation⟩ := related
  refine ⟨dp, dpEq, ?_⟩
  simp only [latest_append, mapped]
  cases gdtEq : dp.gdt with
  | none =>
    rw [gdtEq] at relation
    exact relation
  | some gdt =>
    rw [gdtEq] at relation
    obtain ⟨filters, holds, wide, agree⟩ := relation
    refine ⟨filters, holds, wide, fun bfId named => agree bfId fun isLocal => ?_⟩
    obtain ⟨witness, member, isNamed⟩ := named isLocal
    rcases List.mem_append.mp member with old | new
    · exact ⟨witness, old, isNamed⟩
    · exact absurd (List.mem_singleton.mp new ▸ isNamed) (unnamed bfId)

def Session.Serves (localId : BitVec 32) (session : Session) (cmd : BfGdtCmd) : Prop :=
  ∃ after reply, serve session.dp cmd = some (after, reply) ∧
    Session.Matches localId { issued := session.issued ++ [cmd], dp := after } ∧
      Answers session.issued after reply cmd

section Step

variable {session : Session} {localId : BitVec 32}

theorem serves_newOrSet (related : session.Matches localId) {attrBf : Option (List Byte)} {alloc : Alloc}
    (admissible : Admissible localId session (.newOrSet attrBf alloc)) :
    session.Serves localId (.newOrSet attrBf alloc) := by
  cases attrBf with
  | none =>
    refine ⟨session.dp, .status (-1), rfl, matches_of_same related (fun _ => id) rfl, ?_⟩
    intro success
    cases success
  | some data =>
    obtain ⟨dp, dpEq, relation⟩ := related
    by_cases sized : data.length = sizeofBloomFilter
    · obtain ⟨gdt, tableEq, stores⟩ := admissible sized
      have gdtEq : dp.gdt = some gdt := by simpa [Session.table, dpEq] using tableEq
      rw [gdtEq] at relation
      obtain ⟨filters, holds, table, agree⟩ := relation
      set bf := bloomFilterAt data 0 with bfDef
      rw [findFilter_of_holds holds, holds.nbf_eq, ne_eq, Option.some.injEq] at stores
      have fits : lookup filters bf.bfId = none → bf.nbytes = 128 := fun absent =>
        (stores.resolve_left (not_not_intro absent)).2.2
      have canStore : CanStore alloc filters bf.bfId :=
        stores.imp Option.isSome_iff_ne_none.mpr fun room => ⟨room.1, room.2.1⟩
      obtain ⟨filtersAfter, ret, update, updated⟩ := table.update alloc bf fits
      have changed : ∀ other, contents filtersAfter other =
          if other = bf.bfId then some bf.array else contents filters other := fun other => by
        rw [updated.contents_eq]
        simp [canStore]
      have refines := bfGdtUpdateFilter_refines holds alloc bf
      rw [update] at refines
      obtain ⟨gdtAfter, concrete, -, holdsAfter⟩ := refines
      refine ⟨some { dp with gdt := some gdtAfter }, .status 0, ?_, ?_, fun _ => ?_⟩
      · simp [serve, ovsBfGdtCmdNewOrSet, Datapath.update, dpEq, sized, gdtEq, ← bfDef, concrete]
      · refine matches_of_update (fun other => ?_) ?_ holdsAfter updated.table changed agree
        · simp [BfGdtCmd.Names, sized, ← bfDef, eq_comm]
        · simp [mapStep, sized, ← bfDef]
      · have here := changed bf.bfId
        rw [if_pos rfl, contents] at here
        obtain ⟨stored, found, same⟩ := Option.map_eq_some_iff.mp here
        refine ⟨data, rfl, _, rfl, stored, ?_, same⟩
        rw [findFilter_of_holds holdsAfter, found]
    · refine ⟨session.dp, .status (-1), ?_, ?_, ?_⟩
      · simp [serve, ovsBfGdtCmdNewOrSet, dpEq, sized]
      · refine matches_of_same ⟨dp, dpEq, relation⟩ (fun bfId names => sized names.1) ?_
        simp [mapStep, sized]
      · intro success
        cases success

theorem serves_get (related : session.Matches localId) {attrKey : Option (BitVec 32)} {replyAlloc : Bool}
    (admissible : Admissible localId session (.get attrKey replyAlloc)) :
    session.Serves localId (.get attrKey replyAlloc) := by
  have kept : Session.Matches localId
      { issued := session.issued ++ [.get attrKey replyAlloc], dp := session.dp } :=
    matches_of_same related (fun _ => id) rfl
  obtain ⟨dp, dpEq, relation⟩ := related
  cases attrKey with
  | none => exact ⟨session.dp, .status (-einval), rfl, kept, trivial⟩
  | some bfId =>
    cases gdtEq : dp.gdt with
    | none =>
      rw [gdtEq] at relation
      refine ⟨session.dp, .status (-enoent), ?_, kept, ?_⟩
      · simp [serve, ovsBfGdtCmdGet, dpEq, gdtEq, findFilter]
      · simp [Answers, relation bfId]
    | some gdt =>
      rw [gdtEq] at relation
      obtain ⟨filters, holds, -, agree⟩ := relation
      have search := findFilter_of_holds holds bfId
      have tableEq : session.table = some gdt := by simp [Session.table, dpEq, gdtEq]
      rw [Admissible, tableEq, search, Option.some.injEq] at admissible
      cases found : lookup filters bfId with
      | none =>
        have missing : latest session.issued bfId = none := by
          by_cases named : ∃ cmd ∈ session.issued, cmd.Names bfId
          · rw [agree bfId fun _ => named, contents, found]
            rfl
          · exact latest_of_not_names named
        refine ⟨session.dp, .status (-enoent), ?_, kept, ?_⟩
        · simp [serve, ovsBfGdtCmdGet, dpEq, gdtEq, search, found]
        · simp [Answers, missing]
      | some bf =>
        obtain ⟨allocated, named⟩ := admissible.resolve_left (by simp [found])
        refine ⟨session.dp, .filter bf, ?_, kept, ?_⟩
        · simp [serve, ovsBfGdtCmdGet, dpEq, gdtEq, search, found, allocated]
        · have current : latest session.issued bfId = some bf.array := by
            rw [agree bfId named, contents, found]
            rfl
          simp only [Answers, current]
          exact ⟨bf, rfl, lookup_key found, rfl⟩

theorem serves_del (related : session.Matches localId) {bfId : BitVec 32} {replyAlloc : Bool}
    (admissible : Admissible localId session (.del (some bfId) replyAlloc)) :
    session.Serves localId (.del (some bfId) replyAlloc) := by
  obtain ⟨dp, dpEq, relation⟩ := related
  cases gdtEq : dp.gdt with
  | none =>
    rw [gdtEq] at relation
    refine ⟨session.dp, .status (-enoent), ?_, ⟨dp, dpEq, ?_⟩, trivial⟩
    · simp [serve, ovsBfGdtCmdDel, dpEq, gdtEq, findFilter]
    · rw [gdtEq]
      intro other
      rw [latest_append]
      simp [mapStep, Function.update_apply, relation other]
  | some gdt =>
    rw [gdtEq] at relation
    obtain ⟨filters, holds, table, agree⟩ := relation
    have search := findFilter_of_holds holds bfId
    have tableEq : session.table = some gdt := by simp [Session.table, dpEq, gdtEq]
    rw [Admissible, tableEq, search, Option.some.injEq] at admissible
    have names : ∀ other, (BfGdtCmd.del (some bfId) replyAlloc).Names other ↔ other = bfId := by
      simp [BfGdtCmd.Names, eq_comm]
    cases found : lookup filters bfId with
    | none =>
      refine ⟨some { dp with gdt := some gdt }, .status (-enoent), ?_, ?_, trivial⟩
      · have same : { dp with gdt := some gdt } = dp := by rw [← gdtEq]
        simp [serve, ovsBfGdtCmdDel, dpEq, gdtEq, search, found, same]
      · refine matches_of_update names rfl holds table (fun other => ?_) agree
        split
        · rename_i equal
          simp [contents, equal, found]
        · rfl
    | some bf =>
      have allocated : replyAlloc = true := admissible.resolve_left (by simp [found])
      obtain ⟨wide, changed⟩ := table.del found
      obtain ⟨gdtAfter, concrete, -, holdsAfter⟩ := bfGdtDelFilter_refines holds bfId
      refine ⟨some { dp with gdt := some gdtAfter }, .status 0, ?_, ?_, trivial⟩
      · simp [serve, ovsBfGdtCmdDel, dpEq, gdtEq, search, found, allocated, concrete]
      · exact matches_of_update names rfl holdsAfter wide changed agree

theorem serves_flush (related : session.Matches localId) {replyAlloc : Bool}
    (admissible : Admissible localId session (.del none replyAlloc)) :
    session.Serves localId (.del none replyAlloc) := by
  obtain ⟨dp, dpEq, -⟩ := related
  have destroyed : bfGdtDestroy dp.gdt = some 0 := by
    cases gdtEq : dp.gdt with
    | none => rfl
    | some gdt =>
      have empty : gdt.nbf = 0 := admissible gdt (by simp [Session.table, dpEq, gdtEq])
      simp [bfGdtDestroy, empty]
  refine ⟨some { dp with gdt := none }, .status 0, ?_, ⟨_, rfl, ?_⟩, trivial⟩
  · simp [serve, ovsBfGdtCmdDel, dpEq, flushBfGdt, destroyed]
  · intro bfId
    rw [latest_append]
    rfl

theorem serves_of_admissible (related : session.Matches localId) {cmd : BfGdtCmd}
    (admissible : Admissible localId session cmd) : session.Serves localId cmd := by
  match cmd with
  | .newOrSet _ _ => exact serves_newOrSet related admissible
  | .get _ _ => exact serves_get related admissible
  | .del (some _) _ => exact serves_del related admissible
  | .del none _ => exact serves_flush related admissible

end Step

theorem ovsDpCmdNew_holds {localId : BitVec 32} {alloc : Alloc} {gid : BitVec 32} {dp : Datapath}
    (created : ovsDpCmdNew localId alloc gid = some (some dp)) :
    ∃ gdt, dp = { localIp := localId, gdt := some gdt } ∧
      gdt.Holds [.empty localId lcBfLocalPort] := by
  simp only [ovsDpCmdNew, Option.bind_eq_bind, Option.bind_eq_some_iff, Prod.exists] at created
  obtain ⟨gdt, slot, added, result⟩ := created
  rcases (bfGdtAddFilter_init added).2 with ⟨-, rfl, -⟩ | ⟨rfl, holds⟩
  · simp at result
  · exact ⟨gdt, by simpa using result.symm, holds⟩

theorem matches_of_ovsDpCmdNew {localId : BitVec 32} {alloc : Alloc} {gid : BitVec 32}
    {dp : Datapath} (created : ovsDpCmdNew localId alloc gid = some (some dp)) :
    Session.Matches localId { issued := [], dp := some dp } := by
  obtain ⟨gdt, rfl, holds⟩ := ovsDpCmdNew_holds created
  refine ⟨_, rfl, _, holds, wideTable_empty localId lcBfLocalPort, fun bfId named => ?_⟩
  have other : bfId ≠ localId := fun isLocal => by simpa using named isLocal
  simp [latest, contents, lookup, BloomFilter.empty, Ne.symm other]

theorem exec_issued {session final : Session} {cmds : List BfGdtCmd}
    (run : Run.exec Session.step session cmds = some final) :
    final.issued = session.issued ++ cmds := by
  induction cmds generalizing session with
  | nil =>
    obtain rfl : session = final := by simpa using run
    simp
  | cons cmd cmds ih =>
    obtain ⟨next, taken, rest⟩ := Run.exec_cons_eq_some.mp run
    obtain ⟨served, -, rfl⟩ := Option.map_eq_some_iff.mp taken
    simpa using ih rest

theorem matches_of_along {localId : BitVec 32} {session : Session}
    (related : session.Matches localId) {cmds : List BfGdtCmd}
    (admissible : Run.Along Session.step (Admissible localId) session cmds) :
    ∃ final, Run.exec Session.step session cmds = some final ∧ final.Matches localId := by
  refine Run.exec_progress (Session.Matches localId) (fun related admissible => ?_) related admissible
  obtain ⟨after, reply, served, next, -⟩ := serves_of_admissible related admissible
  exact ⟨_, by simp only [Session.step, served, Option.map_some], next⟩

/-- The netlink interface refines the map on every sequence of admissible commands. -/
theorem refinesMap_of_admissible (localId : BitVec 32) (alloc : Alloc) (gid : BitVec 32)
    {dp : Datapath} (created : ovsDpCmdNew localId alloc gid = some (some dp))
    {cmds : List BfGdtCmd}
    (admissible :
      Run.Along Session.step (Admissible localId) { issued := [], dp := some dp } cmds) :
    RefinesMap dp cmds := by
  rintro issued cmd rest rfl
  obtain ⟨front, back⟩ := Run.along_append.mp admissible
  obtain ⟨before, run, related⟩ := matches_of_along (matches_of_ovsDpCmdNew created) front
  have history : before.issued = issued := by simpa using exec_issued run
  obtain ⟨after, reply, served, -, answers⟩ := serves_of_admissible related (back before run).1
  exact ⟨before, after, reply, run, served, history ▸ answers⟩

def sampleAttr : List Byte := List.replicate 4 1 ++ [0, 4, 0, 0] ++ List.replicate 144 0

theorem refinesMap_of_sampleAttr :
    ∃ dp, ovsDpCmdNew lcBfLocalId (some fun _ => 0) 0 = some (some dp) ∧
      RefinesMap dp
        [.newOrSet (some sampleAttr) (some fun _ => 0), .get (some 0x01010101) true,
          .del (some 0x01010101) true, .get (some 0x01010101) true] := by
  refine ⟨_, rfl, refinesMap_of_admissible lcBfLocalId (some fun _ => 0) 0 rfl
    ⟨fun _ => ⟨_, rfl, Or.inr ⟨?_, rfl, ?_⟩⟩, ?_⟩⟩
  · decide
  · decide
  · intro afterNew _
    refine ⟨Or.inr ⟨rfl, fun isLocal => absurd isLocal (by decide)⟩, fun afterGet _ => ?_⟩
    refine ⟨Or.inr rfl, fun afterDel _ => ?_⟩
    exact ⟨Or.inr ⟨rfl, fun isLocal => absurd isLocal (by decide)⟩, fun _ _ => trivial⟩

/-- After its filters have been deleted and the table has been flushed, a datapath acknowledges a
new filter and does not store it. -/
theorem not_refinesMap_after_flush :
    ∃ dp, ovsDpCmdNew lcBfLocalId (some fun _ => 0) 0 = some (some dp) ∧
      ¬ RefinesMap dp
        [.del (some lcBfLocalId) true, .del none true,
          .newOrSet (some sampleAttr) (some fun _ => 0)] := by
  refine ⟨_, rfl, fun refines => ?_⟩
  obtain ⟨before, after, reply, run, served, answers⟩ :=
    refines [.del (some lcBfLocalId) true, .del none true] _ [] rfl
  obtain rfl := Option.some.inj run
  have sized : sampleAttr.length = sizeofBloomFilter := by simp [sampleAttr, sizeofBloomFilter]
  simp only [serve, ovsBfGdtCmdNewOrSet, sized, ne_eq, not_true_eq_false, if_false] at served
  obtain ⟨rfl, rfl⟩ := Prod.mk.inj (Option.some.inj served)
  obtain ⟨data, -, dp, dpEq, stored, found, -⟩ := answers rfl
  obtain rfl := Option.some.inj dpEq
  cases found

end LazyCtrl
