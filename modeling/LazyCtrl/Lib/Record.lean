import LazyCtrl.Lib.Bytes

/-!
# Records in byte strings

A record is written as a concatenation of big-endian integers and read back at fixed offsets.  The
simp set of this file evaluates such a read: a read at a positive offset drops the front of the
string, and dropping as many bytes as the first integer has removes that integer.

The rest of the file is about the variable parts of records: arrays of 16-bit integers, zero
padding up to an alignment, and bit strings that are copied from the low end of one byte string to
the low end of another.
-/

namespace Bytes

def be48 (bytes : List (BitVec 8)) (i : Nat) : BitVec 48 := be16 bytes i ++ be32 bytes (i + 2)

def put48 (x : BitVec 48) : List (BitVec 8) :=
  put16 (x.extractLsb' 32 16) ++ put32 (x.extractLsb' 0 32)

def be128 (bytes : List (BitVec 8)) (i : Nat) : BitVec 128 := be64 bytes i ++ be64 bytes (i + 8)

def put128 (x : BitVec 128) : List (BitVec 8) :=
  put64 (x.extractLsb' 64 64) ++ put64 (x.extractLsb' 0 64)

@[simp]
theorem length_put48 (x : BitVec 48) : (put48 x).length = 6 := rfl

@[simp]
theorem length_put128 (x : BitVec 128) : (put128 x).length = 16 := rfl

theorem be48_append_left {front : List (BitVec 8)} (back : List (BitVec 8)) {i : Nat}
    (inside : i + 5 < front.length) : be48 (front ++ back) i = be48 front i := by
  have low : i + 2 + 2 + 1 < front.length := inside
  rw [be48, be48, be32, be32, be16_append_left back (by omega), be16_append_left back (by omega),
    be16_append_left back low]

section Reads

variable (bytes rest : List (BitVec 8)) (n : Nat)

theorem drop_add_append {front : List (BitVec 8)} {k : Nat} (length : front.length = k)
    (rest : List (BitVec 8)) (n : Nat) : (front ++ rest).drop (n + k) = rest.drop n := by
  rw [Nat.add_comm, ← List.drop_drop, List.drop_left' length]

@[simp]
theorem u8_succ : u8 bytes (n + 1) = u8 (bytes.drop (n + 1)) 0 := by
  rw [u8_drop, Nat.add_zero]

@[simp]
theorem be16_succ : be16 bytes (n + 1) = be16 (bytes.drop (n + 1)) 0 := by
  rw [be16_drop, Nat.add_zero]

theorem be32_drop (i : Nat) : be32 (bytes.drop n) i = be32 bytes (n + i) := by
  simp only [be32, be16_drop, Nat.add_assoc]

@[simp]
theorem be32_succ : be32 bytes (n + 1) = be32 (bytes.drop (n + 1)) 0 := by
  rw [be32_drop, Nat.add_zero]

@[simp]
theorem be48_succ : be48 bytes (n + 1) = be48 (bytes.drop (n + 1)) 0 := by
  simp only [be48, be16_drop, be32_drop, Nat.add_zero]

@[simp]
theorem be64_succ : be64 bytes (n + 1) = be64 (bytes.drop (n + 1)) 0 := by
  simp only [be64, be32_drop, Nat.add_zero]

@[simp]
theorem be128_succ : be128 bytes (n + 1) = be128 (bytes.drop (n + 1)) 0 := by
  simp only [be128, be64, be32_drop, Nat.add_zero, Nat.add_assoc]

@[simp]
theorem u8_cons (x : BitVec 8) : u8 (x :: rest) 0 = x := rfl

@[simp]
theorem be16_put16_append (x : BitVec 16) : be16 (put16 x ++ rest) 0 = x := be16_put16 [] rest x

@[simp]
theorem be32_put32_append (x : BitVec 32) : be32 (put32 x ++ rest) 0 = x := be32_put32 [] rest x

@[simp]
theorem be48_put48_append (x : BitVec 48) : be48 (put48 x ++ rest) 0 = x := by
  have high := be16_put16 [] (put32 (x.extractLsb' 0 32) ++ rest) (x.extractLsb' 32 16)
  have low := be32_put32 (put16 (x.extractLsb' 32 16)) rest (x.extractLsb' 0 32)
  calc be48 (put48 x ++ rest) 0
      = x.extractLsb' 32 16 ++ x.extractLsb' 0 32 := congrArg₂ HAppend.hAppend high low
    _ = x := join 16 32 x

@[simp]
theorem be64_put64_append (x : BitVec 64) : be64 (put64 x ++ rest) 0 = x := be64_put64 [] rest x

@[simp]
theorem be128_put128_append (x : BitVec 128) : be128 (put128 x ++ rest) 0 = x := by
  have high := be64_put64 [] (put64 (x.extractLsb' 0 64) ++ rest) (x.extractLsb' 64 64)
  have low := be64_put64 (put64 (x.extractLsb' 64 64)) rest (x.extractLsb' 0 64)
  calc be128 (put128 x ++ rest) 0
      = x.extractLsb' 64 64 ++ x.extractLsb' 0 64 := congrArg₂ HAppend.hAppend high low
    _ = x := join 64 64 x

omit rest in
@[simp]
theorem be16_put16_end (x : BitVec 16) : be16 (put16 x) 0 = x := be16_put16 [] [] x

omit rest in
@[simp]
theorem be48_put48_end (x : BitVec 48) : be48 (put48 x) 0 = x := be48_put48_append [] x

@[simp]
theorem drop_put16 (x : BitVec 16) : (put16 x ++ rest).drop (n + 2) = rest.drop n :=
  drop_add_append (length_put16 x) rest n

@[simp]
theorem drop_put32 (x : BitVec 32) : (put32 x ++ rest).drop (n + 4) = rest.drop n :=
  drop_add_append (length_put32 x) rest n

@[simp]
theorem drop_put48 (x : BitVec 48) : (put48 x ++ rest).drop (n + 6) = rest.drop n :=
  drop_add_append (length_put48 x) rest n

@[simp]
theorem drop_put64 (x : BitVec 64) : (put64 x ++ rest).drop (n + 8) = rest.drop n :=
  drop_add_append (length_put64 x) rest n

@[simp]
theorem drop_put128 (x : BitVec 128) : (put128 x ++ rest).drop (n + 16) = rest.drop n :=
  drop_add_append (length_put128 x) rest n

end Reads

def zeros (n : Nat) : List (BitVec 8) := List.replicate n 0

@[simp]
theorem length_zeros (n : Nat) : (zeros n).length = n := List.length_replicate

def allZeros (bytes : List (BitVec 8)) (i n : Nat) : Bool :=
  ((bytes.drop i).take n).all (· == 0)

@[simp]
theorem allZeros_succ (bytes : List (BitVec 8)) (i n : Nat) :
    allZeros bytes (i + 1) n = allZeros (bytes.drop (i + 1)) 0 n := rfl

@[simp]
theorem allZeros_zeros_append (n : Nat) (rest : List (BitVec 8)) :
    allZeros (zeros n ++ rest) 0 n = true := by
  rw [allZeros, List.drop_zero, List.take_left' (length_zeros n), zeros]
  simp

@[simp]
theorem allZeros_put32_append (rest : List (BitVec 8)) :
    allZeros (put32 0#32 ++ rest) 0 4 = true := rfl

def padding (n : Nat) : Nat := (8 - n % 8) % 8

theorem padding_lt (n : Nat) : padding n < 8 := Nat.mod_lt _ (by decide)

theorem aligned_add_padding (n : Nat) : (n + padding n) % 8 = 0 := by
  simp only [padding]
  omega

def put16s (xs : List (BitVec 16)) : List (BitVec 8) := xs.flatMap put16

def be16s (bytes : List (BitVec 8)) (i : Nat) : Nat → List (BitVec 16)
  | 0 => []
  | count + 1 => be16 bytes i :: be16s bytes (i + 2) count

@[simp]
theorem length_put16s (xs : List (BitVec 16)) : (put16s xs).length = 2 * xs.length := by
  induction xs with
  | nil => rfl
  | cons x xs ih =>
    simp only [put16s, List.flatMap_cons, List.length_append, length_put16, List.length_cons] at ih ⊢
    omega

@[simp]
theorem length_be16s (bytes : List (BitVec 8)) (i count : Nat) :
    (be16s bytes i count).length = count := by
  induction count generalizing i with
  | zero => rfl
  | succ count ih => simp only [be16s, List.length_cons, ih]

theorem be16s_drop (bytes : List (BitVec 8)) (n i count : Nat) :
    be16s (bytes.drop n) i count = be16s bytes (n + i) count := by
  induction count generalizing i with
  | zero => rfl
  | succ count ih => simp only [be16s, ih, be16_drop, Nat.add_assoc]

@[simp]
theorem be16s_succ (bytes : List (BitVec 8)) (i count : Nat) :
    be16s bytes (i + 1) count = be16s (bytes.drop (i + 1)) 0 count := by
  rw [be16s_drop, Nat.add_zero]

@[simp]
theorem be16s_put16s (xs : List (BitVec 16)) (back : List (BitVec 8)) :
    be16s (put16s xs ++ back) 0 xs.length = xs := by
  induction xs with
  | nil => rfl
  | cons x xs ih =>
    have tail := be16s_drop (put16 x ++ (put16s xs ++ back)) 2 0 xs.length
    rw [drop_put16, List.drop_zero, ih, Nat.add_zero] at tail
    simp only [put16s, List.flatMap_cons, List.append_assoc, List.length_cons, be16s,
      Nat.zero_add, be16_put16_append]
    exact congrArg _ tail.symm

def lowMask (n : Nat) : BitVec 8 := BitVec.ofNat 8 (2 ^ n - 1)

/-- Copy the lowest `n` bits of one byte string over those of another one.  Both strings start with
their least significant byte. -/
def copyLow : Nat → List (BitVec 8) → List (BitVec 8) → List (BitVec 8)
  | n, source :: sources, target :: targets =>
    if 8 ≤ n then source :: copyLow (n - 8) sources targets
    else (target &&& ~~~lowMask n ||| source &&& lowMask n) :: targets
  | _, _, targets => targets

@[simp]
theorem length_copyLow (n : Nat) (sources targets : List (BitVec 8)) :
    (copyLow n sources targets).length = targets.length := by
  induction targets generalizing n sources with
  | nil => cases sources <;> rfl
  | cons target targets ih =>
    cases sources with
    | nil => rfl
    | cons source sources =>
      rw [copyLow]
      split
      · rw [List.length_cons, ih, List.length_cons]
      · rfl

private theorem mask_mask (mask source middle target : BitVec 8) :
    (target &&& ~~~mask ||| (middle &&& ~~~mask ||| source &&& mask) &&& mask) =
      (target &&& ~~~mask ||| source &&& mask) := by
  apply BitVec.eq_of_getLsbD_eq
  intro i inside
  simp only [BitVec.getLsbD_or, BitVec.getLsbD_and, BitVec.getLsbD_not]
  cases mask.getLsbD i <;> simp

@[simp]
theorem copyLow_zero (sources targets : List (BitVec 8)) : copyLow 0 sources targets = targets := by
  cases sources with
  | nil => cases targets <;> rfl
  | cons source sources =>
    cases targets with
    | nil => rfl
    | cons target targets =>
      have kept : target &&& 255#8 = target := BitVec.and_allOnes
      simp [copyLow, lowMask, kept]

theorem copyLow_copyLow {n : Nat} {sources middles : List (BitVec 8)} (targets : List (BitVec 8))
    (sourceRoom : n ≤ 8 * sources.length) (room : n ≤ 8 * middles.length) :
    copyLow n (copyLow n sources middles) targets = copyLow n sources targets := by
  induction middles generalizing n sources targets with
  | nil =>
    obtain rfl : n = 0 := by simpa using room
    rw [copyLow_zero, copyLow_zero]
  | cons middle middles ih =>
    cases sources with
    | nil =>
      obtain rfl : n = 0 := by simpa using sourceRoom
      rw [copyLow_zero, copyLow_zero]
    | cons source sources =>
      cases targets with
      | nil => rw [copyLow]; split <;> rfl
      | cons target targets =>
        simp only [List.length_cons] at sourceRoom room
        by_cases whole : 8 ≤ n
        · simp only [copyLow, whole, if_true]
          rw [ih targets (by omega) (by omega)]
        · simp only [copyLow, whole, if_false]
          rw [mask_mask]

end Bytes
