import Mathlib.Data.Fintype.Pi
import Mathlib.Data.Fintype.Basic
import Mathlib.Logic.Function.Basic
import Mathlib.Tactic.Common
import LazyCtrl.Lib.Bloom
import LazyCtrl.Lib.Bytes

/-!
# Bloom filters of an edge switch

The functions of `lib/bf.c`.  The bit array is a member of the structure and has 128 bytes whatever
`len` says, so a bit index, a `memset` or a `memcpy` that leaves the array has no defined outcome:
such a step is `none`.  Allocation is a parameter: it delivers the previous content of the heap, or
fails.
-/

namespace LazyCtrl

abbrev Byte := BitVec 8

def sizeChar : Nat := 8

/-- `LC_BF_DFT_LEN`, the bit length every filter of the program is created with. -/
def lcBfDftLen : BitVec 32 := 1024

def lcBfLocalPort : BitVec 16 := 0xfffe

def lcBfRemotePort : BitVec 16 := 1

abbrev BitArray := Fin 128 → Byte

abbrev Alloc := Option BitArray

inductive Hashfunc where
  | sax
  | sdbm
  deriving DecidableEq, Repr

def saxHashFrom : BitVec 32 → List Byte → BitVec 32
  | h, [] => h
  | h, c :: key =>
    if c = 0 then h else saxHashFrom (h ^^^ ((h <<< 5) + (h >>> 2) + c.setWidth 32)) key

def sdbmHashFrom : BitVec 32 → List Byte → BitVec 32
  | h, [] => h
  | h, c :: key =>
    if c = 0 then h else sdbmHashFrom (c.setWidth 32 + (h <<< 6) + (h <<< 16) - h) key

def Hashfunc.apply : Hashfunc → List Byte → BitVec 32
  | .sax => saxHashFrom 0
  | .sdbm => sdbmHashFrom 0

def hashFunctions : List Hashfunc := [.sax, .sdbm]

/-- `struct bloom_filter`; the array of function pointers carries its own length `nfuncs`. -/
structure BloomFilter where
  bfId : BitVec 32
  len : BitVec 32
  portNo : BitVec 16
  array : BitArray
  funcs : List Hashfunc
  deriving DecidableEq

def setBit (array : BitArray) (i : Nat) : Option BitArray :=
  if inside : i / sizeChar < 128 then
    some (Function.update array ⟨i / sizeChar, inside⟩
      (array ⟨i / sizeChar, inside⟩ ||| 1#8 <<< (i % sizeChar)))
  else
    none

def getBit (array : BitArray) (i : Nat) : Option Bool :=
  if inside : i / sizeChar < 128 then
    some (array ⟨i / sizeChar, inside⟩ &&& 1#8 <<< (i % sizeChar) != 0)
  else
    none

def clearBytes (array : BitArray) (n : Nat) : Option BitArray :=
  if n ≤ 128 then some fun i => if i.val < n then 0 else array i else none

def copyBytes (dst src : BitArray) (n : Nat) : Option BitArray :=
  if n ≤ 128 then some fun i => if i.val < n then src i else dst i else none

def sameBytes (left right : BitArray) (n : Nat) : Option Bool :=
  if n ≤ 128 then some (decide (∀ i : Fin 128, i.val < n → left i = right i)) else none

namespace BloomFilter

def nbytes (bf : BloomFilter) : Nat := bf.len.toNat / sizeChar

def bitIndex (bf : BloomFilter) (func : Hashfunc) (s : List Byte) : Option Nat :=
  if bf.len = 0 then none else some ((func.apply s).toNat % bf.len.toNat)

def addFuncs (s : List Byte) : List Hashfunc → BloomFilter → Option BloomFilter
  | [], bf => some bf
  | func :: funcs, bf => do
      let i ← bf.bitIndex func s
      let array ← setBit bf.array i
      addFuncs s funcs { bf with array }

def checkFuncs (bf : BloomFilter) (s : List Byte) : List Hashfunc → Option Bool
  | [] => some true
  | func :: funcs => do
      let i ← bf.bitIndex func s
      let bit ← getBit bf.array i
      if bit then bf.checkFuncs s funcs else some false

end BloomFilter

/-- The inner `none` is a null pointer.  Only `len/SIZE_CHAR` bytes are cleared, the others keep
what the heap held. -/
def bfCreate (alloc : Alloc) (bfId len : BitVec 32) (portNo : BitVec 16) (nfuncs : Nat) :
    Option (Option BloomFilter) :=
  match alloc with
  | none => some none
  | some heap =>
    if nfuncs ≤ hashFunctions.length then do
      let array ← clearBytes heap (len.toNat / sizeChar)
      some (some { bfId, len, portNo, array, funcs := hashFunctions.take nfuncs })
    else
      none

/-- It releases `bf->array`, which is a member of the structure and not an allocation of its own, so
no call of it has a defined outcome. -/
def bfDestroy (_ : BloomFilter) : Option Unit := none

def sizeofBloomFilter : Nat := 152

/-- The structure that lies at an offset of a byte string, on a little-endian host.  The pointer to
the hash functions belongs to the address space of the sender; nothing follows it. -/
def bloomFilterAt (bytes : List Byte) (ofs : Nat) : BloomFilter where
  bfId := Bytes.le32 bytes ofs
  len := Bytes.le32 bytes (ofs + 4)
  portNo := Bytes.le16 bytes (ofs + 8)
  array := fun i => Bytes.u8 bytes (ofs + 10 + i.val)
  funcs := []

def bfAdd (bf : BloomFilter) (s : List Byte) : Option BloomFilter :=
  BloomFilter.addFuncs s bf.funcs bf

def bfCheck (bf : BloomFilter) (s : List Byte) : Option Bool :=
  bf.checkFuncs s bf.funcs

def bitsOf (array : BitArray) : Set Nat := {i | getBit array i = some true}

theorem setBit_eq_some_iff {array : BitArray} {i : Nat} :
    (∃ after, setBit array i = some after) ↔ i < 1024 := by
  unfold setBit sizeChar
  split <;> simp <;> omega

theorem one_shift_getLsbD (k j : Nat) (inside : j < 8) :
    (1#8 <<< k).getLsbD j = decide (j = k) := by
  rw [BitVec.getLsbD_shiftLeft, BitVec.getLsbD_one]
  by_cases equal : j = k
  · subst equal
    simp [inside]
  · by_cases below : j < k
    · simp [below, equal]
    · simp only [inside, equal, decide_true, below, decide_false, Bool.not_false, Bool.true_and]
      have : j - k ≠ 0 := by omega
      simp [this]

theorem and_one_shift_ne_zero (x : Byte) (k : Nat) (inside : k < 8) :
    (x &&& 1#8 <<< k != 0) = x.getLsbD k := by
  cases bit : x.getLsbD k with
  | false =>
    rw [bne_eq_false_iff_eq]
    apply BitVec.eq_of_getLsbD_eq
    intro j jlt
    rw [BitVec.getLsbD_and, one_shift_getLsbD k j jlt]
    by_cases equal : j = k
    · subst equal
      simp [bit]
    · simp [equal]
  | true =>
    rw [bne_iff_ne]
    intro zero
    have value := congrArg (fun y : Byte => y.getLsbD k) zero
    rw [BitVec.getLsbD_and, one_shift_getLsbD k k inside] at value
    simp [bit] at value

theorem mem_bitsOf {array : BitArray} {i : Nat} :
    i ∈ bitsOf array ↔
      ∃ inside : i / sizeChar < 128, (array ⟨i / sizeChar, inside⟩).getLsbD (i % sizeChar) := by
  unfold bitsOf getBit
  by_cases inside : i / sizeChar < 128
  · have low : i % sizeChar < 8 := Nat.mod_lt _ (by decide)
    simp only [Set.mem_ofPred_eq, inside, dif_pos, and_one_shift_ne_zero _ _ low,
      Option.some.injEq, exists_true_left]
  · simp [inside]

theorem bitsOf_setBit {array after : BitArray} {i : Nat} (set : setBit array i = some after) :
    bitsOf after = insert i (bitsOf array) := by
  unfold setBit at set
  split at set
  · rename_i inside
    obtain rfl := Option.some.inj set
    ext j
    rw [Set.mem_insert_iff, mem_bitsOf, mem_bitsOf]
    by_cases sameByte : j / sizeChar = i / sizeChar
    · have jlow : j % sizeChar < 8 := Nat.mod_lt _ (by decide)
      have bitEq : j % sizeChar = i % sizeChar ↔ j = i := by
        unfold sizeChar at sameByte ⊢
        omega
      simp only [sameByte, inside, Function.update_self, BitVec.getLsbD_or,
        one_shift_getLsbD _ _ jlow, bitEq, Bool.or_eq_true, decide_eq_true_eq, exists_true_left]
      tauto
    · have differ : j ≠ i := fun equal => sameByte (by rw [equal])
      have keep : ∀ jInside : j / sizeChar < 128,
          Function.update array ⟨i / sizeChar, inside⟩
            (array ⟨i / sizeChar, inside⟩ ||| 1#8 <<< (i % sizeChar)) ⟨j / sizeChar, jInside⟩ =
            array ⟨j / sizeChar, jInside⟩ := by
        intro jInside
        apply Function.update_of_ne
        simpa [Fin.ext_iff] using sameByte
      simp only [keep, differ, false_or]
  · cases set

namespace BloomFilter

def Valid (bf : BloomFilter) : Prop := 1 ≤ bf.len.toNat ∧ bf.len.toNat ≤ 1024

instance (bf : BloomFilter) : Decidable bf.Valid := by
  unfold Valid
  infer_instance

theorem nbytes_of_dftLen {bf : BloomFilter} (len : bf.len = lcBfDftLen) : bf.nbytes = 128 := by
  rw [nbytes, len]
  decide

theorem valid_of_dftLen {bf : BloomFilter} (len : bf.len = lcBfDftLen) : bf.Valid := by
  rw [Valid, len]
  decide

theorem Valid.nbytes_le {bf : BloomFilter} (valid : bf.Valid) : bf.nbytes ≤ 128 := by
  have := valid.2
  rw [nbytes, sizeChar]
  omega

def probes (bf : BloomFilter) (s : List Byte) : Set Nat :=
  {i | ∃ func ∈ bf.funcs, i = (func.apply s).toNat % bf.len.toNat}

def bits (bf : BloomFilter) : Set Nat := bitsOf bf.array

theorem bitIndex_of_valid {bf : BloomFilter} (valid : bf.Valid) (func : Hashfunc) (s : List Byte) :
    bf.bitIndex func s = some ((func.apply s).toNat % bf.len.toNat) ∧
      (func.apply s).toNat % bf.len.toNat < 1024 := by
  have positive : 0 < bf.len.toNat := valid.1
  have nonzero : bf.len ≠ 0 := by
    rintro zero
    simp [zero] at positive
  exact ⟨if_neg nonzero, (Nat.mod_lt _ positive).trans_le valid.2⟩

private theorem addFuncs_of_valid (s : List Byte) (funcs : List Hashfunc) (bf : BloomFilter)
    (valid : bf.Valid) :
    ∃ array, addFuncs s funcs bf = some { bf with array } ∧
      bitsOf array =
        bf.bits ∪ {i | ∃ func ∈ funcs, i = (func.apply s).toNat % bf.len.toNat} := by
  induction funcs generalizing bf with
  | nil => exact ⟨bf.array, rfl, by simp [bits]⟩
  | cons func funcs ih =>
    obtain ⟨index, inside⟩ := bitIndex_of_valid valid func s
    obtain ⟨array, set⟩ : ∃ array, setBit bf.array _ = some array :=
      setBit_eq_some_iff.mpr inside
    obtain ⟨final, rest, finalBits⟩ := ih { bf with array } valid
    refine ⟨final, by simp [addFuncs, index, set, rest], ?_⟩
    rw [finalBits]
    simp only [bits, bitsOf_setBit set]
    ext j
    simp only [Set.mem_union, Set.mem_insert_iff, Set.mem_ofPred_eq, List.mem_cons,
      exists_eq_or_imp]
    tauto

end BloomFilter

theorem bfAdd_of_valid {bf : BloomFilter} (valid : bf.Valid) (s : List Byte) :
    ∃ array, bfAdd bf s = some { bf with array } ∧
      bitsOf array = Bloom.add bf.probes bf.bits s :=
  BloomFilter.addFuncs_of_valid s bf.funcs bf valid

private theorem checkFuncs_of_valid {bf : BloomFilter} (valid : bf.Valid) (s : List Byte)
    (funcs : List Hashfunc) :
    ∃ result, bf.checkFuncs s funcs = some result ∧
      (result = true ↔
        ∀ func ∈ funcs, (func.apply s).toNat % bf.len.toNat ∈ bf.bits) := by
  induction funcs with
  | nil => exact ⟨true, rfl, by simp⟩
  | cons func funcs ih =>
    obtain ⟨index, inside⟩ := BloomFilter.bitIndex_of_valid valid func s
    obtain ⟨bit, read⟩ :
        ∃ bit, getBit bf.array ((func.apply s).toNat % bf.len.toNat) = some bit := by
      unfold getBit sizeChar
      rw [dif_pos (by omega)]
      exact ⟨_, rfl⟩
    obtain ⟨result, rest, meaning⟩ := ih
    have member : (func.apply s).toNat % bf.len.toNat ∈ bf.bits ↔ bit = true := by
      simp [BloomFilter.bits, bitsOf, read]
    cases bit with
    | false => exact ⟨false, by simp [BloomFilter.checkFuncs, index, read], by simp [member]⟩
    | true =>
      refine ⟨result, by simp [BloomFilter.checkFuncs, index, read, rest], ?_⟩
      simp [meaning, member]

theorem bfCheck_of_valid {bf : BloomFilter} (valid : bf.Valid) (s : List Byte) :
    ∃ result, bfCheck bf s = some result ∧ (result = true ↔ Bloom.Reports bf.probes bf.bits s) := by
  obtain ⟨result, returned, meaning⟩ := checkFuncs_of_valid valid s bf.funcs
  refine ⟨result, returned, meaning.trans ?_⟩
  constructor
  · rintro all i ⟨func, member, rfl⟩
    exact all func member
  · intro reported func member
    exact reported ⟨func, member, rfl⟩

def BloomFilter.empty (bfId : BitVec 32) (portNo : BitVec 16) : BloomFilter where
  bfId := bfId
  len := lcBfDftLen
  portNo := portNo
  array := fun _ => 0
  funcs := hashFunctions

theorem bfCreate_dftLen (heap : BitArray) (bfId : BitVec 32) (portNo : BitVec 16) :
    bfCreate (some heap) bfId lcBfDftLen portNo 2 = some (some (.empty bfId portNo)) := by
  have width : lcBfDftLen.toNat / sizeChar = 128 := by decide
  simp [bfCreate, hashFunctions, clearBytes, width, BloomFilter.empty]

end LazyCtrl
