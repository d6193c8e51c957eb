import LazyCtrl.Lib.Netlink

/-!
# Walks over attributes in memory

A netlink attribute is known by its position in memory.  `nla_for_each_attr` takes an attribute only
if it is complete, while a loop that only asks whether there are bytes left relies on somebody else
having checked that.  `Visited` is the walk of the checked loop, with the number of bytes that remain
behind the last attribute; it is negative when only the padding is missing.
-/

namespace Nla

open Netlink

abbrev Memory := Nat → BitVec 8

variable (mem : Memory)

def le16 (pos : Nat) : BitVec 16 := mem (pos + 1) ++ mem pos

def le32 (pos : Nat) : BitVec 32 := le16 mem (pos + 2) ++ le16 mem pos

def le64 (pos : Nat) : BitVec 64 := le32 mem (pos + 4) ++ le32 mem pos

def be16 (pos : Nat) : BitVec 16 := mem pos ++ mem (pos + 1)

def be32 (pos : Nat) : BitVec 32 := be16 mem pos ++ be16 mem (pos + 2)

def be64 (pos : Nat) : BitVec 64 := be32 mem pos ++ be32 mem (pos + 4)

def len (pos : Nat) : Nat := (le16 mem pos).toNat

def type (pos : Nat) : BitVec 16 := le16 mem (pos + 2) &&& 0x3fff

def data (pos : Nat) : Nat := pos + 4

def size (pos : Nat) : Int := len mem pos - 4

def next (pos : Nat) : Nat := pos + align (len mem pos)

def remaining (pos : Nat) (rem : Int) : Int := rem - align (len mem pos)

def ok (pos : Nat) (rem : Int) : Bool := 4 ≤ rem ∧ 4 ≤ len mem pos ∧ (len mem pos : Int) ≤ rem

def forEach : Nat → Nat → Int → List Nat × Int
  | 0, _, rem => ([], rem)
  | turns + 1, pos, rem =>
    if ok mem pos rem then
      let (attrs, left) := forEach turns (next mem pos) (remaining mem pos rem)
      (pos :: attrs, left)
    else ([], rem)

def attrs (pos : Nat) (rem : Int) : List Nat := (forEach mem rem.toNat pos rem).1

def left (pos : Nat) (rem : Int) : Int := (forEach mem rem.toNat pos rem).2

inductive Visited : Nat → Int → List Nat → Int → Prop
  | stop {pos rem} : ok mem pos rem = false → Visited pos rem [] rem
  | step {pos rem attrs left} : ok mem pos rem = true →
      Visited (next mem pos) (remaining mem pos rem) attrs left → Visited pos rem (pos :: attrs) left

variable {mem} {pos : Nat} {rem : Int}

theorem ok_iff : ok mem pos rem = true ↔
    4 ≤ rem ∧ 4 ≤ len mem pos ∧ (len mem pos : Int) ≤ rem := by
  rw [ok, decide_eq_true_eq]

theorem remaining_le (complete : ok mem pos rem = true) : remaining mem pos rem ≤ rem - 4 := by
  obtain ⟨-, header, -⟩ := ok_iff.mp complete
  have padded := le_align (len mem pos)
  rw [remaining]
  omega

theorem next_add_remaining (pos : Nat) (rem : Int) :
    (next mem pos : Int) + remaining mem pos rem = pos + rem := by
  rw [next, remaining]
  omega

theorem data_add_size (pos : Nat) : (data pos : Int) + size mem pos = pos + len mem pos := by
  rw [data, size]
  omega

theorem visited_forEach {turns : Nat} (enough : rem ≤ turns) :
    Visited mem pos rem (forEach mem turns pos rem).1 (forEach mem turns pos rem).2 := by
  induction turns generalizing pos rem with
  | zero =>
    apply Visited.stop
    rw [Bool.eq_false_iff, Ne, ok_iff]
    omega
  | succ turns ih =>
    by_cases complete : ok mem pos rem = true
    · have less := remaining_le complete
      rw [forEach, if_pos complete]
      exact .step complete (ih (by omega))
    · rw [forEach, if_neg complete]
      exact .stop (Bool.eq_false_iff.mpr complete)

theorem visited_attrs (pos : Nat) (rem : Int) :
    Visited mem pos rem (attrs mem pos rem) (left mem pos rem) :=
  visited_forEach (Int.self_le_toNat rem)

theorem Visited.bounds {found : List Nat} {behind : Int}
    (visited : Visited mem pos rem found behind) {attr : Nat} (member : attr ∈ found) :
    4 ≤ len mem attr ∧ pos ≤ attr ∧ (attr : Int) + len mem attr ≤ pos + rem := by
  induction visited with
  | stop => cases member
  | @step pos rem _ _ complete _ ih =>
    obtain ⟨-, header, inside⟩ := ok_iff.mp complete
    rcases List.mem_cons.mp member with rfl | later
    · exact ⟨header, le_rfl, by omega⟩
    · obtain ⟨length, after, bound⟩ := ih later
      rw [next_add_remaining] at bound
      rw [next] at after
      exact ⟨length, by omega, bound⟩

end Nla
