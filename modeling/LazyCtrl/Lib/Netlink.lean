import LazyCtrl.Lib.Record

/-!
# Netlink attributes

A netlink attribute is a header of two little-endian 16-bit integers, its length and its type, in
front of the payload, and is padded to a multiple of 4 bytes.  This file writes lists of attributes
and walks over them, and shows that a walk over a written list finds the list.

The kernel's walk and the one of the user space library accept an attribute at the end of the buffer
under different conditions, so the walk takes the condition as an argument.
-/

namespace Netlink

open Bytes

def putLe16 (x : BitVec 16) : List (BitVec 8) := [x.extractLsb' 0 8, x.extractLsb' 8 8]

def putLe32 (x : BitVec 32) : List (BitVec 8) :=
  putLe16 (x.extractLsb' 0 16) ++ putLe16 (x.extractLsb' 16 16)

@[simp]
theorem length_putLe16 (x : BitVec 16) : (putLe16 x).length = 2 := rfl

@[simp]
theorem length_putLe32 (x : BitVec 32) : (putLe32 x).length = 4 := rfl

theorem le16_putLe16_append (x : BitVec 16) (rest : List (BitVec 8)) :
    le16 (putLe16 x ++ rest) 0 = x :=
  join 8 8 x

theorem le32_putLe32_append (x : BitVec 32) (rest : List (BitVec 8)) :
    le32 (putLe32 x ++ rest) 0 = x := by
  have low := le16_putLe16_append (x.extractLsb' 0 16) (putLe16 (x.extractLsb' 16 16) ++ rest)
  have high := le16_putLe16_append (x.extractLsb' 16 16) rest
  calc le32 (putLe32 x ++ rest) 0
      = x.extractLsb' 16 16 ++ x.extractLsb' 0 16 := congrArg₂ HAppend.hAppend high low
    _ = x := join 16 16 x

theorem le32_putLe32 (x : BitVec 32) : le32 (putLe32 x) 0 = x := by
  have read := le32_putLe32_append x []
  rwa [List.append_nil] at read

def align (n : Nat) : Nat := (n + 3) / 4 * 4

theorem le_align (n : Nat) : n ≤ align n := by
  simp only [align]
  omega

structure Nlattr where
  type : BitVec 16
  payload : List (BitVec 8)
  deriving DecidableEq, Repr

namespace Nlattr

def len (attr : Nlattr) : Nat := 4 + attr.payload.length

def put (attr : Nlattr) : List (BitVec 8) :=
  putLe16 (BitVec.ofNat 16 attr.len) ++ (putLe16 attr.type ++
    (attr.payload ++ zeros (align attr.len - attr.len)))

def Fits (attr : Nlattr) : Prop := attr.len < 2 ^ 16 ∧ attr.type.toNat < 2 ^ 14

theorem length_put (attr : Nlattr) : attr.put.length = align attr.len := by
  have padded := le_align attr.len
  simp only [put, List.length_append, length_putLe16, length_zeros]
  simp only [len] at padded ⊢
  omega

end Nlattr

def putAttrs (attrs : List Nlattr) : List (BitVec 8) := attrs.flatMap Nlattr.put

def getAttr (bytes : List (BitVec 8)) : Nlattr :=
  { type := le16 bytes 2 &&& 0x3fff
    payload := (bytes.take (le16 bytes 0).toNat).drop 4 }

/-- The walk over a buffer: the attributes, and whether bytes are left over.  `ok` decides from the
length of an attribute and the bytes that are left whether the attribute is complete. -/
def forEach (ok : Nat → Nat → Bool) : Nat → List (BitVec 8) → List Nlattr × Bool
  | 0, bytes => ([], !bytes.isEmpty)
  | turns + 1, bytes =>
    let len := (le16 bytes 0).toNat
    if 4 ≤ bytes.length ∧ 4 ≤ len ∧ ok len bytes.length then
      if align len ≤ bytes.length then
        let (attrs, left) := forEach ok turns (bytes.drop (align len))
        (getAttr bytes :: attrs, left)
      else ([getAttr bytes], true)
    else ([], !bytes.isEmpty)

def nlaForEach (bytes : List (BitVec 8)) : List Nlattr × Bool :=
  forEach (fun len rem => len ≤ rem) bytes.length bytes

def nlAttrForEach (bytes : List (BitVec 8)) : List Nlattr × Bool :=
  forEach (fun len left => align len ≤ left) bytes.length bytes

def find (attrs : List Nlattr) (type : BitVec 16) : Option (List (BitVec 8)) :=
  (attrs.find? fun attr => attr.type = type).map Nlattr.payload

def without (attrs : List Nlattr) (type : BitVec 16) : List Nlattr :=
  attrs.filter fun attr => attr.type ≠ type

def hasTypes (attrs : List Nlattr) (types : List (BitVec 16)) : Bool :=
  attrs.all (fun attr => types.contains attr.type) && types.all fun type => (find attrs type).isSome

@[simp]
theorem find_nil (type : BitVec 16) : find [] type = none := rfl

theorem find_cons (attr : Nlattr) (attrs : List Nlattr) (type : BitVec 16) :
    find (attr :: attrs) type = if attr.type = type then some attr.payload else find attrs type := by
  rw [find, List.find?_cons]
  by_cases same : attr.type = type
  · simp [same]
  · simp [same, find]

@[simp]
theorem without_nil (type : BitVec 16) : without [] type = [] := rfl

theorem without_cons (attr : Nlattr) (attrs : List Nlattr) (type : BitVec 16) :
    without (attr :: attrs) type =
      if attr.type = type then without attrs type else attr :: without attrs type := by
  rw [without, List.filter_cons]
  by_cases same : attr.type = type
  · simp [same, without]
  · simp [same, without]

section Walk

variable {attr : Nlattr} (fits : attr.Fits) (rest : List (BitVec 8))

include fits

theorem le16_put : (le16 (attr.put ++ rest) 0).toNat = attr.len := by
  rw [Nlattr.put, List.append_assoc, le16_putLe16_append, BitVec.toNat_ofNat,
    Nat.mod_eq_of_lt fits.1]

theorem getAttr_put : getAttr (attr.put ++ rest) = attr := by
  have masked : attr.type &&& 0x3fff = attr.type := by
    apply BitVec.eq_of_toNat_eq
    rw [BitVec.toNat_and]
    exact Nat.and_two_pow_sub_one_of_lt_two_pow fits.2
  have typeOk : le16 (attr.put ++ rest) 2 = attr.type :=
    le16_putLe16_append attr.type
      ((attr.payload ++ zeros (align attr.len - attr.len)) ++ rest)
  have payloadOk : ((attr.put ++ rest).take attr.len).drop 4 = attr.payload := by
    have front : attr.put ++ rest =
        (putLe16 (BitVec.ofNat 16 attr.len) ++ putLe16 attr.type) ++
          (attr.payload ++ (zeros (align attr.len - attr.len) ++ rest)) := by
      simp only [Nlattr.put, List.append_assoc]
    have header : (putLe16 (BitVec.ofNat 16 attr.len) ++ putLe16 attr.type).length = 4 := rfl
    have payloadLen : attr.payload.length = attr.len - 4 := by simp [Nlattr.len]
    rw [List.drop_take, front, List.drop_left' header, List.take_left' payloadLen]
  rw [getAttr, le16_put fits, typeOk, masked, payloadOk]

end Walk

theorem forEach_putAttrs {ok : Nat → Nat → Bool}
    (accepts : ∀ len left, align len ≤ left → ok len left = true) {attrs : List Nlattr}
    (fits : ∀ attr ∈ attrs, attr.Fits) {turns : Nat} (enough : attrs.length ≤ turns) :
    forEach ok turns (putAttrs attrs) = (attrs, false) := by
  induction attrs generalizing turns with
  | nil => cases turns <;> simp [forEach, putAttrs]
  | cons attr attrs ih =>
    rw [List.forall_mem_cons] at fits
    rw [List.length_cons] at enough
    obtain ⟨turns, rfl⟩ : ∃ more, turns = more + 1 := ⟨turns - 1, by omega⟩
    have stated := le16_put fits.1 (putAttrs attrs)
    have length : (attr.put ++ putAttrs attrs).length = align attr.len + (putAttrs attrs).length := by
      rw [List.length_append, attr.length_put]
    have whole : align attr.len ≤ (attr.put ++ putAttrs attrs).length := by omega
    have long : 4 ≤ attr.len ∧ attr.len ≤ align attr.len := ⟨Nat.le_add_right _ _, le_align _⟩
    have complete : 4 ≤ (attr.put ++ putAttrs attrs).length ∧ 4 ≤ attr.len ∧
        ok attr.len (attr.put ++ putAttrs attrs).length = true :=
      ⟨by omega, long.1, accepts _ _ whole⟩
    have dropped : (attr.put ++ putAttrs attrs).drop (align attr.len) = putAttrs attrs :=
      List.drop_left' attr.length_put
    rw [putAttrs, List.flatMap_cons, ← putAttrs]
    simp only [forEach, stated, complete, whole, dropped, if_true, and_self,
      getAttr_put fits.1, ih fits.2 (show attrs.length ≤ turns by omega)]

theorem length_le_putAttrs (attrs : List Nlattr) : attrs.length ≤ (putAttrs attrs).length := by
  induction attrs with
  | nil => exact Nat.zero_le _
  | cons attr attrs ih =>
    have padded := le_align attr.len
    have long : 4 ≤ attr.len := Nat.le_add_right _ _
    rw [putAttrs, List.flatMap_cons, ← putAttrs, List.length_append, attr.length_put,
      List.length_cons]
    omega

theorem nlaForEach_putAttrs {attrs : List Nlattr} (fits : ∀ attr ∈ attrs, attr.Fits) :
    nlaForEach (putAttrs attrs) = (attrs, false) :=
  forEach_putAttrs (fun len _ whole => decide_eq_true ((le_align len).trans whole)) fits
    (length_le_putAttrs attrs)

theorem nlAttrForEach_putAttrs {attrs : List Nlattr} (fits : ∀ attr ∈ attrs, attr.Fits) :
    nlAttrForEach (putAttrs attrs) = (attrs, false) :=
  forEach_putAttrs (fun _ _ whole => decide_eq_true whole) fits (length_le_putAttrs attrs)

end Netlink
