import LazyCtrl.Datapath.Actions

/-!
# Who owns a packet buffer

`do_execute_actions` once more, with nested `SAMPLE` lists, `keep_skb` and the outcomes of the steps
that can fail, but with nothing of a buffer except whether it may still be used.  A step on a buffer
that was sent or freed has no result.

Two error paths go wrong.  `do_remote_encapulation` reads a buffer that `__remote_encapulation` has
freed, and an error inside a `SAMPLE` list frees the buffer that the list around it frees again.
-/

namespace LazyCtrl
namespace Ownership

inductive Buffer where
  | live
  | sent
  | freed
  deriving DecidableEq, Repr

def Buffer.touch : Buffer → Option Buffer
  | live => some live
  | sent | freed => none

def Buffer.free (buffer : Buffer) : Option Buffer := buffer.touch.map fun _ => freed

def Buffer.output (hasVport : Bool) (buffer : Buffer) : Option Buffer :=
  buffer.touch.map fun _ => if hasVport then sent else freed

structure Buffers where
  skb : Buffer
  copies : List Buffer
  deriving DecidableEq, Repr

inductive SkbActions where
  | nil
  | plain (action : DpAction) (ok cloned : Bool) (rest : SkbActions)
  | userspace (pid : BitVec 32) (rest : SkbActions)
  | sample (probability : BitVec 32) (taken : Bool) (actions rest : SkbActions)
  deriving DecidableEq

def sampleActionDepth : Nat := 3

def validateActions (key : SwFlowKey) (depth : Nat) : SkbActions → Bool
  | .nil => depth < sampleActionDepth
  | .plain action _ _ rest => validateAction key action && validateActions key depth rest
  | .userspace pid rest => pid ≠ 0 && validateActions key depth rest
  | .sample _ _ actions rest =>
    validateActions key (depth + 1) actions && validateActions key depth rest

def fallible : DpAction → Bool
  | .output _ | .set (.priority _) | .set (.tunId _) => false
  | _ => true

structure Pending where
  prevPort : BitVec 32
  cloned : Bool
  deriving DecidableEq, Repr

def Pending.none : Pending := ⟨-1, true⟩

def pendingAfter (action : DpAction) (cloned : Bool) : Pending :=
  match action with
  | .output port => ⟨port, cloned⟩
  | .remote payload => ⟨remotePort payload, cloned⟩
  | _ => .none

inductive Status where
  | ok
  | failed
  | gone
  deriving DecidableEq, Repr

def doRemoteEncapulation (ok : Bool) (skb : Buffer) : Option Buffer := do
  let skb ← skb.touch
  if ok then some skb
  else do
    let skb ← skb.free
    skb.touch

def runPlain (ok : Bool) (skb : Buffer) (action : DpAction) : Option (Buffer × Status) :=
  if fallible action = false then some (skb, .ok)
  else
    match action with
    | .remote _ => (doRemoteEncapulation ok skb).map fun skb => (skb, .ok)
    | .pushVlan _ _ => do
        let skb ← skb.touch
        if ok then some (skb, .ok) else skb.free.map fun skb => (skb, .gone)
    | _ => skb.touch.map fun skb => (skb, if ok then .ok else .failed)

def enomem : Int := -12

section Execution

variable (hasVport : BitVec 16 → Bool)

def sendCopy (pending : Pending) (buffers : Buffers) : Option Buffers :=
  if pending.prevPort = -1 then some buffers
  else do
    let copied ← buffers.skb.touch
    if pending.cloned then
      let copy ← copied.output (hasVport (pending.prevPort.setWidth 16))
      some { buffers with copies := copy :: buffers.copies }
    else some buffers

def finish (keepSkb : Bool) (pending : Pending) (buffers : Buffers) : Option (Buffers × Int) :=
  if keepSkb then (sendCopy hasVport pending buffers).map fun buffers => (buffers, 0)
  else if pending.prevPort ≠ -1 then
    (buffers.skb.output (hasVport (pending.prevPort.setWidth 16))).map fun skb =>
      ({ buffers with skb }, 0)
  else buffers.skb.free.map fun skb => ({ buffers with skb }, 0)

def execute (keepSkb : Bool) (pending : Pending) (buffers : Buffers) :
    SkbActions → Option (Buffers × Int)
  | .nil => finish hasVport keepSkb pending buffers
  | .plain action ok cloned rest => do
      let buffers ← sendCopy hasVport pending buffers
      let ran ← runPlain ok buffers.skb action
      match ran.2 with
      | .ok => execute keepSkb (pendingAfter action cloned) { buffers with skb := ran.1 } rest
      | .failed => ran.1.free.map fun skb => ({ buffers with skb }, enomem)
      | .gone => some ({ buffers with skb := ran.1 }, enomem)
  | .userspace _ rest => do
      let buffers ← sendCopy hasVport pending buffers
      let skb ← buffers.skb.touch
      execute keepSkb .none { buffers with skb } rest
  | .sample _ taken actions rest => do
      let buffers ← sendCopy hasVport pending buffers
      let sampled ← if taken then execute true .none buffers actions else some (buffers, 0)
      if sampled.2 = 0 then execute keepSkb .none sampled.1 rest
      else sampled.1.skb.free.map fun skb => ({ sampled.1 with skb }, sampled.2)

def doExecuteActions (keepSkb : Bool) (actions : SkbActions) : Option (Buffers × Int) :=
  execute hasVport keepSkb .none ⟨.live, []⟩ actions

/-- No step touches a buffer that was sent or freed, and every buffer is released once: the copies by
`do_execute_actions`, the buffer itself by `do_execute_actions` or, if it is to be kept, by the
caller, which frees it after an error. -/
def ReleasesOnce (keepSkb : Bool) (actions : SkbActions) : Prop :=
  ∃ buffers err, doExecuteActions hasVport keepSkb actions = some (buffers, err) ∧
    (∀ copy ∈ buffers.copies, copy ≠ .live) ∧
    if keepSkb then (err = 0 → buffers.skb = .live) ∧ (err ≠ 0 → (buffers.skb.free).isSome)
    else buffers.skb ≠ .live

end Execution

def succeeds (action : DpAction) (ok : Bool) : Bool := !fallible action || ok

def isRemote : DpAction → Bool
  | .remote _ => true
  | _ => false

/-- No step of a list fails, nor of a `SAMPLE` list in it that is executed. -/
def NoFailure : SkbActions → Prop
  | .nil => True
  | .plain action ok _ rest => succeeds action ok ∧ NoFailure rest
  | .userspace _ rest => NoFailure rest
  | .sample _ taken actions rest => (taken → NoFailure actions) ∧ NoFailure rest

/-- Up to the first failure, which ends the execution, no `SAMPLE` list fails, and that failure is not
one of a `REMOTE` action. -/
def FailsOutside : SkbActions → Prop
  | .nil => True
  | .plain action ok _ rest => if succeeds action ok then FailsOutside rest else ¬ isRemote action
  | .userspace _ rest => FailsOutside rest
  | .sample _ taken actions rest => (taken → NoFailure actions) ∧ FailsOutside rest

section Steps

variable {hasVport : BitVec 16 → Bool}

def Released (copies : List Buffer) : Prop := ∀ copy ∈ copies, copy ≠ .live

theorem sendCopy_live (hasVport : BitVec 16 → Bool) (pending : Pending) {copies : List Buffer}
    (released : Released copies) :
    ∃ more, sendCopy hasVport pending ⟨.live, copies⟩ = some ⟨.live, more⟩ ∧ Released more := by
  rw [sendCopy]
  split
  · exact ⟨copies, rfl, released⟩
  · by_cases cloned : pending.cloned
    · simp only [Buffer.touch, Buffer.output, Option.bind_eq_bind, Option.bind_some, cloned, if_true,
        Option.map_some]
      refine ⟨_, rfl, List.forall_mem_cons.mpr ⟨?_, released⟩⟩
      split <;> decide
    · simp only [Buffer.touch, Option.bind_eq_bind, Option.bind_some, cloned]
      exact ⟨copies, rfl, released⟩

theorem runPlain_live (ok : Bool) (action : DpAction) :
    (succeeds action ok = true ∧ runPlain ok .live action = some (.live, .ok)) ∨
    (succeeds action ok = false ∧ isRemote action = true ∧ runPlain ok .live action = none) ∨
    (succeeds action ok = false ∧ isRemote action = false ∧
      (runPlain ok .live action = some (.live, .failed) ∨
        runPlain ok .live action = some (.freed, .gone))) := by
  cases ok with
  | true =>
    refine Or.inl ⟨Bool.or_true _, ?_⟩
    cases action with
    | set key => cases key <;> rfl
    | _ => rfl
  | false =>
    cases action with
    | output port => exact Or.inl ⟨rfl, rfl⟩
    | remote payload => exact Or.inr (Or.inl ⟨rfl, rfl, rfl⟩)
    | pushVlan tpid tci => exact Or.inr (Or.inr ⟨rfl, rfl, Or.inr rfl⟩)
    | popVlan => exact Or.inr (Or.inr ⟨rfl, rfl, Or.inl rfl⟩)
    | set key =>
      cases key with
      | priority value | tunId value => exact Or.inl ⟨rfl, rfl⟩
      | _ => exact Or.inr (Or.inr ⟨rfl, rfl, Or.inl rfl⟩)

theorem execute_plain (hasVport : BitVec 16 → Bool) (keepSkb : Bool) (pending : Pending)
    {copies : List Buffer} (released : Released copies) (action : DpAction) (ok cloned : Bool)
    (rest : SkbActions) :
    ∃ more, Released more ∧
      ((succeeds action ok = true ∧
          execute hasVport keepSkb pending ⟨.live, copies⟩ (.plain action ok cloned rest) =
            execute hasVport keepSkb (pendingAfter action cloned) ⟨.live, more⟩ rest) ∨
        (succeeds action ok = false ∧ isRemote action = true ∧
          execute hasVport keepSkb pending ⟨.live, copies⟩ (.plain action ok cloned rest) = none) ∨
        (succeeds action ok = false ∧ isRemote action = false ∧
          execute hasVport keepSkb pending ⟨.live, copies⟩ (.plain action ok cloned rest) =
            some (⟨.freed, more⟩, enomem))) := by
  obtain ⟨more, copied, releasedMore⟩ := sendCopy_live hasVport pending released
  refine ⟨more, releasedMore, ?_⟩
  rw [execute, copied]
  obtain ⟨fine, ran⟩ | ⟨fails, remote, ran⟩ | ⟨fails, local_, ran | ran⟩ := runPlain_live ok action
  · exact Or.inl ⟨fine, by simp [ran]⟩
  · exact Or.inr (Or.inl ⟨fails, remote, by simp [ran]⟩)
  · exact Or.inr (Or.inr ⟨fails, local_, by simp [ran, Buffer.free, Buffer.touch]⟩)
  · exact Or.inr (Or.inr ⟨fails, local_, by simp [ran]⟩)

theorem execute_userspace (hasVport : BitVec 16 → Bool) (keepSkb : Bool) (pending : Pending)
    {copies : List Buffer} (released : Released copies) (pid : BitVec 32) (rest : SkbActions) :
    ∃ more, Released more ∧
      execute hasVport keepSkb pending ⟨.live, copies⟩ (.userspace pid rest) =
        execute hasVport keepSkb .none ⟨.live, more⟩ rest := by
  obtain ⟨more, copied, releasedMore⟩ := sendCopy_live hasVport pending released
  refine ⟨more, releasedMore, ?_⟩
  rw [execute, copied]
  rfl

def KeepsOrFrees (actions : SkbActions) (result : Option (Buffers × Int)) : Prop :=
  (NoFailure actions ∧ ∃ more, result = some (⟨.live, more⟩, 0) ∧ Released more) ∨
    (¬ NoFailure actions ∧
      (result = none ∨ ∃ more, result = some (⟨.freed, more⟩, enomem) ∧ Released more))

theorem execute_sample {actions : SkbActions}
    (inner : ∀ {copies : List Buffer}, Released copies →
      KeepsOrFrees actions (execute hasVport true .none ⟨.live, copies⟩ actions))
    (keepSkb : Bool) (pending : Pending) {copies : List Buffer} (released : Released copies)
    (probability : BitVec 32) (taken : Bool) (rest : SkbActions) :
    ∃ more, Released more ∧
      (((taken → NoFailure actions) ∧
          execute hasVport keepSkb pending ⟨.live, copies⟩
            (.sample probability taken actions rest) =
              execute hasVport keepSkb .none ⟨.live, more⟩ rest) ∨
        (¬ (taken → NoFailure actions) ∧
          execute hasVport keepSkb pending ⟨.live, copies⟩
            (.sample probability taken actions rest) = none)) := by
  obtain ⟨more, copied, releasedMore⟩ := sendCopy_live hasVport pending released
  rw [execute, copied]
  cases taken with
  | false =>
    exact ⟨more, releasedMore, Or.inl ⟨fun taken => absurd taken Bool.false_ne_true, rfl⟩⟩
  | true =>
    obtain ⟨fine, after, ran, releasedAfter⟩ | ⟨fails, ran | ⟨after, ran, -⟩⟩ :=
      inner releasedMore
    · exact ⟨after, releasedAfter, Or.inl ⟨fun _ => fine, by simp [ran]⟩⟩
    · exact ⟨more, releasedMore, Or.inr ⟨fun all => fails (all rfl), by simp [ran]⟩⟩
    · refine ⟨more, releasedMore, Or.inr ⟨fun all => fails (all rfl), ?_⟩⟩
      -- The list has freed the buffer, and the error frees it again.
      simp [ran, enomem, Buffer.free, Buffer.touch]

theorem execute_keep (hasVport : BitVec 16 → Bool) (actions : SkbActions) (pending : Pending)
    {copies : List Buffer} (released : Released copies) :
    KeepsOrFrees actions (execute hasVport true pending ⟨.live, copies⟩ actions) := by
  induction actions generalizing pending copies with
  | nil =>
    obtain ⟨more, copied, releasedMore⟩ := sendCopy_live hasVport pending released
    refine Or.inl ⟨trivial, more, ?_, releasedMore⟩
    simp [execute, finish, copied]
  | plain action ok cloned rest ih =>
    obtain ⟨more, releasedMore, ⟨fine, runs⟩ | ⟨fails, -, runs⟩ | ⟨fails, -, runs⟩⟩ :=
      execute_plain hasVport true pending released action ok cloned rest
    · have next := ih (pendingAfter action cloned) releasedMore
      rw [runs]
      simpa only [KeepsOrFrees, NoFailure, fine, true_and] using next
    · exact Or.inr ⟨by simp [NoFailure, fails], Or.inl runs⟩
    · exact Or.inr ⟨by simp [NoFailure, fails], Or.inr ⟨more, runs, releasedMore⟩⟩
  | userspace pid rest ih =>
    obtain ⟨more, releasedMore, runs⟩ := execute_userspace hasVport true pending released pid rest
    rw [runs]
    exact ih .none releasedMore
  | sample probability taken actions rest ihActions ihRest =>
    obtain ⟨more, releasedMore, ⟨fine, runs⟩ | ⟨fails, runs⟩⟩ := execute_sample
      (fun released => ihActions .none released) true pending released probability taken rest
    · have next := ihRest .none releasedMore
      have same : NoFailure (.sample probability taken actions rest) ↔ NoFailure rest :=
        and_iff_right fine
      rw [runs]
      simpa only [KeepsOrFrees, same] using next
    · exact Or.inr ⟨fun both => fails both.1, Or.inl runs⟩

theorem execute_consume (hasVport : BitVec 16 → Bool) (actions : SkbActions) (pending : Pending)
    {copies : List Buffer} (released : Released copies) :
    (FailsOutside actions ∧ ∃ skb more err,
      execute hasVport false pending ⟨.live, copies⟩ actions = some (⟨skb, more⟩, err) ∧
        skb ≠ .live ∧ Released more) ∨
    (¬ FailsOutside actions ∧
      execute hasVport false pending ⟨.live, copies⟩ actions = none) := by
  induction actions generalizing pending copies with
  | nil =>
    refine Or.inl ⟨trivial, ?_⟩
    simp only [execute, finish, Buffer.output, Buffer.free, Buffer.touch, Option.map_some,
      Bool.false_eq_true, if_false]
    split
    · refine ⟨_, copies, 0, rfl, ?_, released⟩
      split <;> decide
    · exact ⟨_, copies, 0, rfl, by decide, released⟩
  | plain action ok cloned rest ih =>
    obtain ⟨more, releasedMore, ⟨fine, runs⟩ | ⟨fails, remote, runs⟩ | ⟨fails, local_, runs⟩⟩ :=
      execute_plain hasVport false pending released action ok cloned rest
    · have next := ih (pendingAfter action cloned) releasedMore
      rw [runs]
      simpa only [FailsOutside, fine, if_true] using next
    · exact Or.inr ⟨by simp [FailsOutside, fails, remote], runs⟩
    · exact Or.inl ⟨by simp [FailsOutside, fails, local_], .freed, more, enomem, runs, by decide,
        releasedMore⟩
  | userspace pid rest ih =>
    obtain ⟨more, releasedMore, runs⟩ := execute_userspace hasVport false pending released pid rest
    rw [runs]
    exact ih .none releasedMore
  | sample probability taken actions rest ihActions ihRest =>
    obtain ⟨more, releasedMore, ⟨fine, runs⟩ | ⟨fails, runs⟩⟩ := execute_sample
      (fun released => execute_keep hasVport actions .none released) false pending released
      probability taken rest
    · have next := ihRest .none releasedMore
      have same : FailsOutside (.sample probability taken actions rest) ↔ FailsOutside rest :=
        and_iff_right fine
      rw [runs]
      simpa only [same] using next
    · exact Or.inr ⟨fun both => fails both.1, runs⟩

end Steps

theorem not_releasesOnce_of_none {hasVport : BitVec 16 → Bool} {keepSkb : Bool}
    {actions : SkbActions} (runs : doExecuteActions hasVport keepSkb actions = none) :
    ¬ ReleasesOnce hasVport keepSkb actions := by
  rintro ⟨buffers, err, result, -⟩
  rw [runs] at result
  cases result

/-- Every buffer is released once exactly when no step fails, or, for a buffer that is not to be kept,
when the only failure is neither one of a `REMOTE` action nor inside a `SAMPLE` list. -/
theorem releasesOnce_iff (hasVport : BitVec 16 → Bool) (keepSkb : Bool) (actions : SkbActions) :
    ReleasesOnce hasVport keepSkb actions ↔
      if keepSkb then NoFailure actions else FailsOutside actions := by
  have none_ : Released [] := fun _ member => by cases member
  cases keepSkb with
  | true =>
    rw [if_pos rfl]
    obtain ⟨fine, more, runs, released⟩ | ⟨fails, runs | ⟨more, runs, -⟩⟩ :=
      execute_keep hasVport actions .none none_
    · exact iff_of_true
        ⟨_, _, runs, released, fun _ => rfl, fun impossible => absurd rfl impossible⟩ fine
    · exact iff_of_false (not_releasesOnce_of_none runs) fails
    · refine iff_of_false ?_ fails
      rintro ⟨buffers, err, result, -, -, frees⟩
      obtain ⟨rfl, rfl⟩ := Prod.mk.inj (Option.some.inj (runs.symm.trans result))
      exact absurd (frees (by decide)) (show ¬ Buffer.freed.free.isSome by decide)
  | false =>
    rw [if_neg Bool.false_ne_true]
    obtain ⟨fine, skb, more, err, runs, done, released⟩ | ⟨fails, runs⟩ :=
      execute_consume hasVport actions .none none_
    · exact iff_of_true ⟨_, _, runs, released, done⟩ fine
    · exact iff_of_false (not_releasesOnce_of_none runs) fails

def udpKey : SwFlowKey where
  ethType := ethPIp
  ipProto := ipprotoUdp
  ipFrag := 0
  tpSrc := 1024
  tpDst := 53

/-- Without head room the buffer of a `REMOTE` action is used after it was freed, and after an error
in a `SAMPLE` list the buffer is freed twice. -/
theorem not_releasesOnce_remote_sample :
    let remote : SkbActions := .plain (.remote 0x00000001c0a80001) false true .nil
    let sample : SkbActions := .sample 0xffffffff true (.plain .popVlan false true .nil) .nil
    validateActions udpKey 0 remote = true ∧ validateActions udpKey 0 sample = true ∧
      doExecuteActions (fun _ => true) false remote = none ∧
      doExecuteActions (fun _ => true) false sample = none ∧
      ¬ ReleasesOnce (fun _ => true) false remote ∧
      ¬ ReleasesOnce (fun _ => true) false sample := by
  exact ⟨by decide, by decide, by decide, by decide, not_releasesOnce_of_none (by decide),
    not_releasesOnce_of_none (by decide)⟩

end Ownership
end LazyCtrl
