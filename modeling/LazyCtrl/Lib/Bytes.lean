import Mathlib.Data.List.GetD
import Mathlib.Data.List.TakeDrop
import Mathlib.Tactic.IntervalCases

/-!
# Integers in byte strings

Fixed-width integers read from a byte string in either byte order.  A position past the end reads
as zero, so that every field of a layout is a total function of the bytes.
-/

namespace Bytes

def u8 (bytes : List (BitVec 8)) (i : Nat) : BitVec 8 := bytes.getD i 0

def le16 (bytes : List (BitVec 8)) (i : Nat) : BitVec 16 := u8 bytes (i + 1) ++ u8 bytes i

def le32 (bytes : List (BitVec 8)) (i : Nat) : BitVec 32 := le16 bytes (i + 2) ++ le16 bytes i

def be16 (bytes : List (BitVec 8)) (i : Nat) : BitVec 16 := u8 bytes i ++ u8 bytes (i + 1)

def be32 (bytes : List (BitVec 8)) (i : Nat) : BitVec 32 := be16 bytes i ++ be16 bytes (i + 2)

def be64 (bytes : List (BitVec 8)) (i : Nat) : BitVec 64 := be32 bytes i ++ be32 bytes (i + 4)

def put16 (x : BitVec 16) : List (BitVec 8) := [x.extractLsb' 8 8, x.extractLsb' 0 8]

def put32 (x : BitVec 32) : List (BitVec 8) :=
  put16 (x.extractLsb' 16 16) ++ put16 (x.extractLsb' 0 16)

def put64 (x : BitVec 64) : List (BitVec 8) :=
  put32 (x.extractLsb' 32 32) ++ put32 (x.extractLsb' 0 32)

@[simp]
theorem length_put16 (x : BitVec 16) : (put16 x).length = 2 := rfl

@[simp]
theorem length_put32 (x : BitVec 32) : (put32 x).length = 4 := rfl

@[simp]
theorem length_put64 (x : BitVec 64) : (put64 x).length = 8 := rfl

theorem u8_append_right (front back : List (BitVec 8)) (i : Nat) :
    u8 (front ++ back) (front.length + i) = u8 back i := by
  rw [u8, u8, List.getD_append_right _ _ _ _ (Nat.le_add_right _ _), Nat.add_sub_cancel_left]

theorem u8_append_left {front : List (BitVec 8)} (back : List (BitVec 8)) {i : Nat}
    (inside : i < front.length) : u8 (front ++ back) i = u8 front i := by
  simp [u8, List.getD_eq_getElem?_getD, List.getElem?_append_left inside]

theorem be16_append_left {front : List (BitVec 8)} (back : List (BitVec 8)) {i : Nat}
    (inside : i + 1 < front.length) : be16 (front ++ back) i = be16 front i := by
  rw [be16, be16, u8_append_left back inside, u8_append_left back (Nat.lt_of_succ_lt inside)]

theorem u8_drop (bytes : List (BitVec 8)) (n i : Nat) : u8 (bytes.drop n) i = u8 bytes (n + i) := by
  simp [u8, List.getD_eq_getElem?_getD]

theorem u8_take (bytes : List (BitVec 8)) {n i : Nat} (inside : i < n) :
    u8 (bytes.take n) i = u8 bytes i := by
  simp [u8, List.getD_eq_getElem?_getD, List.getElem?_take_of_lt inside]

theorem be16_take (bytes : List (BitVec 8)) {n i : Nat} (inside : i + 1 < n) :
    be16 (bytes.take n) i = be16 bytes i := by
  rw [be16, be16, u8_take bytes inside, u8_take bytes (Nat.lt_of_succ_lt inside)]

theorem be16_drop (bytes : List (BitVec 8)) (n i : Nat) :
    be16 (bytes.drop n) i = be16 bytes (n + i) := by
  simp only [be16, u8_drop, Nat.add_assoc]

theorem join (high low : Nat) (x : BitVec (high + low)) :
    x.extractLsb' low high ++ x.extractLsb' 0 low = x := by
  apply BitVec.eq_of_getLsbD_eq
  intro i inside
  simp only [BitVec.getLsbD_append, BitVec.getLsbD_extractLsb']
  by_cases below : i < low
  · simp [below]
  · simp [below, show i - low < high by omega, show low + (i - low) = i by omega]

theorem be16_put16 (front back : List (BitVec 8)) (x : BitVec 16) :
    be16 (front ++ (put16 x ++ back)) front.length = x := by
  rw [be16, ← Nat.add_zero front.length, Nat.add_assoc, u8_append_right, u8_append_right]
  exact join 8 8 x

theorem be32_put32 (front back : List (BitVec 8)) (x : BitVec 32) :
    be32 (front ++ (put32 x ++ back)) front.length = x := by
  have low := be16_put16 (front ++ put16 (x.extractLsb' 16 16)) back (x.extractLsb' 0 16)
  rw [List.append_assoc, List.length_append, length_put16] at low
  rw [be32, put32, List.append_assoc, be16_put16, low]
  exact join 16 16 x

theorem be64_put64 (front back : List (BitVec 8)) (x : BitVec 64) :
    be64 (front ++ (put64 x ++ back)) front.length = x := by
  have low := be32_put32 (front ++ put32 (x.extractLsb' 32 32)) back (x.extractLsb' 0 32)
  rw [List.append_assoc, List.length_append, length_put32] at low
  rw [be64, put64, List.append_assoc, be32_put32, low]
  exact join 32 32 x

def patch (bytes : List (BitVec 8)) (i : Nat) (new : List (BitVec 8)) : List (BitVec 8) :=
  bytes.take i ++ new ++ bytes.drop (i + new.length)

theorem length_patch {bytes new : List (BitVec 8)} {i : Nat}
    (inside : i + new.length ≤ bytes.length) : (patch bytes i new).length = bytes.length := by
  simp only [patch, List.length_append, List.length_take, List.length_drop]
  omega

theorem take_patch {bytes : List (BitVec 8)} {i n : Nat} (new : List (BitVec 8)) (before : n ≤ i)
    (inside : i ≤ bytes.length) : (patch bytes i new).take n = bytes.take n := by
  have short : n ≤ (bytes.take i).length := by
    rw [List.length_take]
    omega
  rw [patch, List.append_assoc, List.take_append_of_le_length short, List.take_take,
    Nat.min_eq_left before]

theorem drop_patch {bytes new : List (BitVec 8)} {i n : Nat} (behind : i + new.length ≤ n)
    (inside : i ≤ bytes.length) : (patch bytes i new).drop n = bytes.drop n := by
  have front : (bytes.take i ++ new).length = i + new.length := by
    rw [List.length_append, List.length_take, Nat.min_eq_left inside]
  obtain ⟨more, rfl⟩ := Nat.exists_eq_add_of_le behind
  rw [patch, ← front, ← List.drop_drop, List.drop_left, front, List.drop_drop]

def KeepsFront (n : Nat) (old new : List (BitVec 8)) : Prop :=
  new.length = old.length ∧ new.take n = old.take n

namespace KeepsFront

variable {n : Nat} {old mid new : List (BitVec 8)}

theorem refl (n : Nat) (old : List (BitVec 8)) : KeepsFront n old old := ⟨rfl, rfl⟩

theorem trans (first : KeepsFront n old mid) (second : KeepsFront n mid new) :
    KeepsFront n old new :=
  ⟨second.1.trans first.1, second.2.trans first.2⟩

theorem ite {cond : Prop} [Decidable cond] {other : List (BitVec 8)}
    (yes : cond → KeepsFront n old new) (no : ¬ cond → KeepsFront n old other) :
    KeepsFront n old (if cond then new else other) := by
  split
  · exact yes ‹_›
  · exact no ‹_›

theorem patch (first : KeepsFront n old mid) {i : Nat} (part : List (BitVec 8)) (before : n ≤ i)
    (inside : i + part.length ≤ old.length) : KeepsFront n old (patch mid i part) := by
  have length := first.1
  refine first.trans ⟨length_patch (by omega), take_patch part before (by omega)⟩

theorem thenIte {cond : Prop} [Decidable cond] (first : KeepsFront n old mid)
    (next : mid.length = old.length → KeepsFront n mid new) :
    KeepsFront n old (if cond then new else mid) :=
  .ite (fun _ => first.trans (next first.1)) fun _ => first

theorem drop {k : Nat} (keeps : KeepsFront (k + n) old new) :
    KeepsFront n (old.drop k) (new.drop k) := by
  refine ⟨by rw [List.length_drop, List.length_drop, keeps.1], ?_⟩
  rw [List.take_drop, List.take_drop, keeps.2]

theorem u8_eq (keeps : KeepsFront n old new) {i : Nat} (inside : i < n) : u8 new i = u8 old i := by
  rw [← u8_take new inside, keeps.2, u8_take old inside]

theorem be16_eq (keeps : KeepsFront n old new) {i : Nat} (inside : i + 1 < n) :
    be16 new i = be16 old i := by
  rw [be16, be16, keeps.u8_eq inside, keeps.u8_eq (Nat.lt_of_succ_lt inside)]

end KeepsFront

def swap32 (x : BitVec 32) : BitVec 32 :=
  x.extractLsb' 0 8 ++ x.extractLsb' 8 8 ++ x.extractLsb' 16 8 ++ x.extractLsb' 24 8

@[simp]
theorem swap32_swap32 (x : BitVec 32) : swap32 (swap32 x) = x := by
  apply BitVec.eq_of_getLsbD_eq
  intro i inside
  simp only [swap32, BitVec.getLsbD_append, BitVec.getLsbD_extractLsb']
  interval_cases i <;> simp

theorem swap32_inj {x y : BitVec 32} : swap32 x = swap32 y ↔ x = y :=
  Function.Involutive.injective swap32_swap32 |>.eq_iff

theorem join32 (x : BitVec 32) :
    x.extractLsb' 24 8 ++ x.extractLsb' 16 8 ++ x.extractLsb' 8 8 ++ x.extractLsb' 0 8 = x := by
  apply BitVec.eq_of_getLsbD_eq
  intro i inside
  simp only [BitVec.getLsbD_append, BitVec.getLsbD_extractLsb']
  interval_cases i <;> simp

theorem swap32_byte (x : BitVec 32) :
    (swap32 x).extractLsb' 24 8 = x.extractLsb' 0 8 ∧
      (swap32 x).extractLsb' 16 8 = x.extractLsb' 8 8 := by
  constructor <;>
  · apply BitVec.eq_of_getLsbD_eq
    intro i inside
    simp only [swap32, BitVec.getLsbD_append, BitVec.getLsbD_extractLsb']
    interval_cases i <;> simp

theorem swap32_eq_self_iff (x : BitVec 32) :
    swap32 x = x ↔
      x.extractLsb' 0 8 = x.extractLsb' 24 8 ∧ x.extractLsb' 8 8 = x.extractLsb' 16 8 := by
  constructor
  · intro same
    have bytes := swap32_byte x
    rw [same] at bytes
    exact ⟨bytes.1.symm, bytes.2.symm⟩
  · rintro ⟨outer, inner⟩
    conv_rhs => rw [← join32 x]
    rw [swap32, outer, inner]

end Bytes
