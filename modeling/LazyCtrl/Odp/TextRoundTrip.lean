import LazyCtrl.Odp.ActionText

/-!
# Which datapath actions are read back from their text

Outputs, tags and userspace actions are printed and parsed again.  The parser finds what was printed
for each action unless a port is called like the beginning of the text, a slow path has a reason
without a string or a word that is not printed, or the action is `REMOTE`, whose text no pattern
reads.
-/

namespace LazyCtrl
namespace Odp

open Bytes Netlink Text

theorem stored_toNat {width narrow : Nat} (small : narrow ≤ 63) (x : BitVec narrow) :
    stored width (x.toNat : Int) = x.setWidth width := by
  have bound := Nat.lt_of_lt_of_le x.isLt (Nat.pow_le_pow_right (by decide : 0 < 2) small)
  have inRange : max (-2 ^ 63) (min (x.toNat : Int) (2 ^ 63 - 1)) = x.toNat := by omega
  rw [stored, inRange, BitVec.ofInt_natCast, BitVec.ofNat_toNat]

theorem isDelimiter_of_isDigitOf {c : Char} (digit : isDigitOf 16 c) : isDelimiter c = false := by
  rw [← Bool.not_eq_true]
  intro delimiter
  rw [isDelimiter, decide_eq_true_eq] at delimiter
  obtain rfl | rfl | rfl | rfl | rfl := delimiter <;> exact absurd digit (by decide)

theorem not_isDelimiter_decimal (n : Nat) : ∀ c ∈ decimal n, isDelimiter c = false :=
  fun c member => isDelimiter_of_isDigitOf (isDigitOf_mono (by decide)
    (isDigitOf_of_mem_toDigits (by decide) (by decide) n c member))

theorem not_isDelimiter_hex (n : Nat) : ∀ c ∈ hex n, isDelimiter c = false := fun c member =>
  isDelimiter_of_isDigitOf (isDigitOf_of_mem_toDigits (by decide) (by decide) n c member)

theorem not_isDelimiter_hexPadded (width n : Nat) :
    ∀ c ∈ hexPadded width n, isDelimiter c = false := by
  intro c member
  obtain zero | digit := List.mem_append.mp member
  · rw [(List.mem_replicate.mp zero).2]
    decide
  · exact not_isDelimiter_hex n c digit

theorem takeWhile_delimiter {word rest : Chars} (plain : ∀ c ∈ word, isDelimiter c = false)
    (ends : rest.head?.all isDelimiter) :
    (word ++ rest).takeWhile (fun c => !isDelimiter c) = word := by
  have all : ∀ c ∈ word, (!isDelimiter c) = true := fun c member => by rw [plain c member]; rfl
  rw [List.takeWhile_append_of_pos all]
  cases rest with
  | nil => simp
  | cons c rest =>
    have delimiter : isDelimiter c = true := by simpa using ends
    rw [List.takeWhile_cons_of_neg (by rw [delimiter]; decide), List.append_nil]

theorem le64_putLe64 (x : BitVec 64) : le64 (putLe64 x) 0 = x := by
  have low := le32_putLe32_append (x.extractLsb' 0 32) (putLe32 (x.extractLsb' 32 32))
  have high := le32_putLe32 (x.extractLsb' 32 32)
  calc le64 (putLe64 x) 0
      = x.extractLsb' 32 32 ++ x.extractLsb' 0 32 := congrArg₂ HAppend.hAppend high low
    _ = x := join 32 32 x

theorem length_putLe64 (x : BitVec 64) : (putLe64 x).length = 8 := rfl

inductive OdpAction where
  | output (port : BitVec 16)
  | remote (payload : BitVec 64)
  | pushVlan (tpid tci : BitVec 16)
  | popVlan
  | userspace (pid : BitVec 32) (cookie : Option (BitVec 16 × BitVec 32))
  deriving DecidableEq, Repr

namespace OdpAction

def nlattr : OdpAction → Nlattr
  | output port => outputAttr (port.setWidth 32)
  | remote payload => remoteAttr payload
  | pushVlan tpid tci => pushVlanAttr tpid tci
  | popVlan => popVlanAttr
  | userspace pid cookie =>
    userspaceAttr pid (cookie.map fun cookie => slowPathCookie cookie.1 cookie.2)

def pushVlanWord (tpid tci : BitVec 16) : Chars :=
  if tpid = 0x8100 then "push_vlan(vid=".toList ++ decimal (vlanTciToVid tci).toNat
  else "push_vlan(tpid=0x".toList ++ hexPadded 4 tpid.toNat

def word : OdpAction → Chars
  | output port => decimal port.toNat
  | remote payload => "remote(0x".toList ++ hex payload.toNat
  | pushVlan tpid tci => pushVlanWord tpid tci
  | popVlan => "pop_vlan".toList
  | userspace pid cookie =>
    "userspace(pid=".toList ++ (decimal pid.toNat ++ if cookie = none then ")".toList else [])

def CookieReadable : Option (BitVec 16 × BitVec 32) → Prop
  | none => True
  | some (unused, reason) => unused = 0 ∧ reason &&& ~~~knownReasons = 0

/-- The action can be read back: it is an output, or no port is called like the beginning of its
text and it is a tag, the removal of a tag or for the user space with a readable cookie. -/
def Readable (portNames : Chars → Option (BitVec 32)) : OdpAction → Prop
  | output _ => True
  | remote _ => False
  | pushVlan tpid tci => portNames (pushVlan tpid tci).word = none
  | popVlan => portNames popVlan.word = none
  | userspace pid cookie => portNames (userspace pid cookie).word = none ∧ CookieReadable cookie

end OdpAction

theorem fits_mk {type : BitVec 16} {payload : List (BitVec 8)} (short : payload.length ≤ 20)
    (small : type.toNat < 2 ^ 14) : (Nlattr.mk type payload).Fits := by
  refine ⟨?_, small⟩
  have long : (Nlattr.mk type payload).len = 4 + payload.length := rfl
  omega

theorem fits_outputAttr (port : BitVec 32) : (outputAttr port).Fits :=
  fits_mk (by rw [length_putLe32]; decide) (by decide)

theorem fits_userspaceAttr (pid : BitVec 32) (cookie : Option (BitVec 64)) :
    (userspaceAttr pid cookie).Fits := by
  refine fits_mk ?_ (by decide)
  cases cookie with
  | none => simp [putAttrs, Nlattr.length_put, Nlattr.len, align]
  | some cookie => simp [putAttrs, Nlattr.length_put, Nlattr.len, align, length_putLe64]

theorem OdpAction.fits_nlattr (action : OdpAction) : action.nlattr.Fits := by
  cases action with
  | output port => exact fits_outputAttr _
  | remote payload => exact fits_mk (by rw [length_putLe64]; decide) (by decide)
  | pushVlan tpid tci => exact fits_mk (by simp) (by decide)
  | popVlan => exact fits_mk (by simp) (by decide)
  | userspace pid cookie => exact fits_userspaceAttr _ _

theorem parseUserspaceAttrs_userspaceAttr (pid : BitVec 32) (cookie : Option (BitVec 64)) :
    parseUserspaceAttrs (userspaceAttr pid cookie).payload = some (pid, cookie) := by
  have pidRead : le32 (putLe32 pid) 0 = pid := le32_putLe32 pid
  have fitsPid : (Nlattr.mk ovsUserspaceAttrPid (putLe32 pid)).Fits :=
    fits_mk (by rw [length_putLe32]; decide) (by decide)
  cases cookie with
  | none =>
    have walk := nlAttrForEach_putAttrs (List.forall_mem_singleton.mpr fitsPid)
    simp only [parseUserspaceAttrs, userspaceAttr, Option.map_none, Option.toList_none, walk]
    simp [ovsUserspaceAttrPid, ovsUserspaceAttrUserdata, pidRead]
  | some cookie =>
    have fitsCookie : (Nlattr.mk ovsUserspaceAttrUserdata (putLe64 cookie)).Fits :=
      fits_mk (by rw [length_putLe64]; decide) (by decide)
    have walk := nlAttrForEach_putAttrs
      (List.forall_mem_cons.mpr ⟨fitsPid, List.forall_mem_singleton.mpr fitsCookie⟩)
    simp only [parseUserspaceAttrs, userspaceAttr, Option.map_some, Option.toList_some, walk]
    simp [ovsUserspaceAttrPid, ovsUserspaceAttrUserdata, pidRead, le64_putLe64, length_putLe64]

section Format

variable (formatOther : Nlattr → Chars)

theorem formatOdpAction_output (port : BitVec 32) :
    formatOdpAction formatOther (outputAttr port) = decimal port.toNat := by
  have read : le32 (putLe32 port) 0 = port := le32_putLe32 port
  simp only [formatOdpAction, outputAttr, read]
  rfl

theorem formatOdpAction_remote (payload : BitVec 64) :
    ∃ more, formatOdpAction formatOther (remoteAttr payload) =
      "remote(0x".toList ++ (hex payload.toNat ++ ',' :: more) := by
  have read : le64 (putLe64 payload) 0 = payload := le64_putLe64 payload
  have text : formatOdpAction formatOther (remoteAttr payload) =
      "remote(0x".toList ++ (hex (le64 (putLe64 payload) 0).toNat ++ ',' :: _) := rfl
  rw [read] at text
  exact ⟨_, text⟩

theorem formatOdpAction_pushVlan (tpid tci : BitVec 16) :
    formatOdpAction formatOther (pushVlanAttr tpid tci) =
      "push_vlan(".toList ++ ((if tpid = 0x8100 then []
        else "tpid=0x".toList ++ (hexPadded 4 tpid.toNat ++ ",".toList)) ++
          (formatVlanTci tci ++ ")".toList)) := by
  have readTpid : be16 (put16 tpid ++ put16 tci) 0 = tpid := by simp
  have readTci : be16 (put16 tpid ++ put16 tci) 2 = tci := by simp
  simp only [formatOdpAction, pushVlanAttr, readTpid, readTci]
  rfl

theorem formatOdpAction_popVlan :
    formatOdpAction formatOther popVlanAttr = "pop_vlan".toList := rfl

theorem formatOdpAction_userspace (pid : BitVec 32) (cookie : Option (BitVec 64)) :
    formatOdpAction formatOther (userspaceAttr pid cookie) =
      "userspace(pid=".toList ++ (decimal pid.toNat ++
        ((cookie.map formatCookie).getD [] ++ ")".toList)) := by
  have chosen : formatOdpAction formatOther (userspaceAttr pid cookie) =
      formatOdpUserspaceAction (userspaceAttr pid cookie) := rfl
  rw [chosen, formatOdpUserspaceAction, parseUserspaceAttrs_userspaceAttr]

theorem formatCookie_slowPathCookie (unused : BitVec 16) (reason : BitVec 32) :
    formatCookie (slowPathCookie unused reason) =
      ",slow_path(".toList ++ ((if reason = 0 then [] else formatSlowPathReason reason) ++
        ")".toList) := by
  have type : (slowPathCookie unused reason).extractLsb' 0 16 = 2 := by
    rw [slowPathCookie, BitVec.extractLsb'_append_eq_of_add_le (by decide),
      BitVec.extractLsb'_append_eq_right]
  have high : (slowPathCookie unused reason).extractLsb' 32 32 = reason :=
    BitVec.extractLsb'_append_eq_left
  simp only [formatCookie, type, high]
  rfl

end Format

def reasonName (bit : Nat) : Chars := (slowPathReasonToString bit).getD []

theorem chomp_append_singleton (c : Char) (text : Chars) : chomp c (text ++ [c]) = text := by
  rw [chomp, List.getLast?_concat, if_pos rfl, List.dropLast_concat]

theorem reasonLoop_flatMap {bits : List Nat} (known : ∀ bit ∈ bits, bit < 6) (turns : Nat)
    (reason : BitVec 32) (rest : Chars) :
    reasonLoop (turns + bits.length) reason
        ((bits.flatMap fun bit => reasonName bit ++ [',']) ++ rest) =
      reasonLoop turns (bits.foldl (fun reason bit => reason ||| BitVec.twoPow 32 bit) reason)
        rest := by
  induction bits generalizing reason with
  | nil => rfl
  | cons bit bits ih =>
    rw [List.forall_mem_cons] at known
    have step : ∀ bit < 6, ∀ turns reason rest,
        reasonLoop (turns + 1) reason (reasonName bit ++ [','] ++ rest) =
          reasonLoop turns (reason ||| BitVec.twoPow 32 bit) rest := by
      intro bit small turns reason rest
      interval_cases bit <;> rfl
    rw [List.flatMap_cons, List.length_cons, List.append_assoc, ← Nat.add_assoc,
      step bit known.1, ih known.2, List.foldl_cons]

theorem reasonLoop_last {bit : Nat} (known : bit < 6) (turns : Nat) (reason : BitVec 32)
    (rest : Chars) :
    reasonLoop (turns + 2) reason (reasonName bit ++ ')' :: rest) =
      some (reason ||| BitVec.twoPow 32 bit, ')' :: rest) := by
  interval_cases bit <;> rfl

def namedBits (slow : BitVec 32) : List Nat := (List.range 6).filter slow.getLsbD

theorem lt_of_mem_namedBits {slow : BitVec 32} {bit : Nat} (member : bit ∈ namedBits slow) :
    bit < 6 :=
  List.mem_range.mp (List.mem_filter.mp member).1

theorem filterMap_reasonBits (slow : BitVec 32) :
    (reasonBits slow).filterMap slowPathReasonToString = (namedBits slow).map reasonName := by
  have split : reasonBits slow = namedBits slow ++ (List.range' 6 26).filter slow.getLsbD := by
    rw [reasonBits, namedBits, ← List.filter_append]
    rfl
  have unnamed : ((List.range' 6 26).filter slow.getLsbD).filterMap slowPathReasonToString = [] := by
    refine List.filterMap_eq_nil_iff.mpr fun bit member => ?_
    have large := (List.mem_range'_1.mp (List.mem_filter.mp member).1).1
    rw [slowPathReasonToString] <;> omega
  have named : ∀ bit ∈ namedBits slow, slowPathReasonToString bit = some (reasonName bit) := by
    intro bit member
    have small := lt_of_mem_namedBits member
    interval_cases bit <;> rfl
  rw [split, List.filterMap_append, unnamed, List.append_nil, List.filterMap_congr named]
  exact congrFun List.filterMap_eq_map' (namedBits slow)

theorem formatSlowPathReason_eq (slow : BitVec 32) :
    formatSlowPathReason slow =
      chomp ',' (((namedBits slow).flatMap fun bit => reasonName bit ++ [',']) ++
        if slow &&& ~~~knownReasons = 0 then []
        else "0x".toList ++ hex (slow &&& ~~~knownReasons).toNat ++ [',']) := by
  rw [formatSlowPathReason, filterMap_reasonBits, List.flatMap_append, List.flatMap_map]
  by_cases none : slow &&& ~~~knownReasons = 0
  · rw [if_pos none, if_pos none, List.flatMap_nil]
  · rw [if_neg none, if_neg none, List.flatMap_singleton]

theorem foldl_namedBits {slow : BitVec 32} (known : slow &&& ~~~knownReasons = 0) :
    (namedBits slow).foldl (fun reason bit => reason ||| BitVec.twoPow 32 bit) 0 = slow := by
  have small : slow.toNat < 2 ^ 6 := by
    refine Nat.lt_pow_two_of_testBit _ fun i large => ?_
    rw [BitVec.testBit_toNat]
    by_cases inside : i < 32
    · have noName : ∀ i < 32, 6 ≤ i → (~~~knownReasons).getLsbD i = true := by decide
      have masked : (slow &&& ~~~knownReasons).getLsbD i = false := by
        rw [known]
        exact BitVec.getLsbD_zero
      rwa [BitVec.getLsbD_and, noName i inside large, Bool.and_true] at masked
    · exact BitVec.getLsbD_of_ge slow i (Nat.le_of_not_lt inside)
  have each : ∀ n < 64, (namedBits (BitVec.ofNat 32 n)).foldl
      (fun reason bit => reason ||| BitVec.twoPow 32 bit) 0 = BitVec.ofNat 32 n := by decide
  have value := each slow.toNat small
  rwa [BitVec.ofNat_toNat, BitVec.setWidth_eq] at value

theorem reasonLoop_known {slow : BitVec 32} (known : slow &&& ~~~knownReasons = 0) {turns : Nat}
    (enough : (namedBits slow).length < turns) (rest : Chars) :
    reasonLoop turns 0 (formatSlowPathReason slow ++ ')' :: rest) = some (slow, ')' :: rest) := by
  have value := foldl_namedBits known
  have small := fun bit => @lt_of_mem_namedBits slow bit
  rw [formatSlowPathReason_eq, if_pos known, List.append_nil]
  generalize namedBits slow = bits at value enough small
  obtain rfl | ⟨bits, last, rfl⟩ := bits.eq_nil_or_concat'
  · obtain ⟨turns, rfl⟩ : ∃ more, turns = more + 1 := ⟨turns - 1, by omega⟩
    rw [← value]
    rfl
  · rw [List.length_append, List.length_singleton] at enough
    obtain ⟨turns, rfl⟩ : ∃ more, turns = more + 2 + bits.length := ⟨turns - bits.length - 2, by omega⟩
    rw [List.foldl_append] at value
    have front : ∀ bit ∈ bits, bit < 6 := fun bit member =>
      small bit (List.mem_append_left _ member)
    rw [List.flatMap_append, List.flatMap_singleton, ← List.append_assoc, chomp_append_singleton,
      List.append_assoc, reasonLoop_flatMap front,
      reasonLoop_last (small last (List.mem_append_right _ (List.mem_singleton_self _)))]
    exact congrArg (fun reason => some (reason, ')' :: rest)) value

theorem reasonLoop_unknown {slow : BitVec 32} (unknown : slow &&& ~~~knownReasons ≠ 0) {turns : Nat}
    (enough : (namedBits slow).length < turns) (rest : Chars) :
    reasonLoop turns 0 (formatSlowPathReason slow ++ rest) = none := by
  obtain ⟨turns, rfl⟩ : ∃ more, turns = more + 1 + (namedBits slow).length :=
    ⟨turns - (namedBits slow).length - 1, by omega⟩
  rw [formatSlowPathReason_eq, if_neg unknown, ← List.append_assoc, chomp_append_singleton,
    List.append_assoc, reasonLoop_flatMap fun _ => lt_of_mem_namedBits]
  rfl

theorem length_namedBits_le (slow : BitVec 32) :
    (namedBits slow).length ≤ (formatSlowPathReason slow).length := by
  have long : ∀ bits : List Nat, (∀ bit ∈ bits, bit < 6) →
      2 * bits.length ≤ (bits.flatMap fun bit => reasonName bit ++ [',']).length := by
    intro bits known
    induction bits with
    | nil => exact Nat.le_refl 0
    | cons bit bits ih =>
      rw [List.forall_mem_cons] at known
      have named : ∀ bit < 6, 1 ≤ (reasonName bit).length := by decide
      have one := named bit known.1
      have more := ih known.2
      rw [List.flatMap_cons, List.length_append, List.length_append, List.length_cons,
        List.length_singleton]
      omega
  have chomped : ∀ text, text.length ≤ (chomp ',' text).length + 1 := by
    intro text
    rw [chomp]
    split
    · rw [List.length_dropLast]
      omega
    · omega
  have whole := long (namedBits slow) fun _ => lt_of_mem_namedBits
  obtain none | positive := Nat.eq_zero_or_pos (namedBits slow).length
  · rw [none]
    exact Nat.zero_le _
  · rw [formatSlowPathReason_eq]
    refine Nat.le_of_add_le_add_right (Nat.le_trans ?_ (chomped _))
    rw [List.length_append]
    omega

theorem stops_of_ends {rest : Chars} (ends : rest.head?.all isDelimiter) : Stops rest := by
  cases rest with
  | nil => rfl
  | cons c rest =>
    have delimiter : isDelimiter c = true := by simpa using ends
    rw [isDelimiter, decide_eq_true_eq] at delimiter
    obtain rfl | rfl | rfl | rfl | rfl := delimiter <;> rfl

theorem scan_decimal {pattern text more rest : Chars} (split : pattern = text ++ '%' :: more)
    (plain : '%' ∉ text) (n : Nat) (stops : Stops rest) :
    scan (format pattern) (text ++ (decimal n ++ rest)) =
      (scan (format more) rest).map fun values => ((n : Int) :: values.1, values.2) := by
  rw [split, scan_format_append plain, decimal, scan_format_integer (readInteger_decimal n stops)]

theorem scan_hexPadded {pattern text more rest : Chars} (split : pattern = text ++ '%' :: more)
    (plain : '%' ∉ text) (width n : Nat) (stops : Stops rest) :
    scan (format pattern) (text ++ ('0' :: 'x' :: (hexPadded width n ++ rest))) =
      (scan (format more) rest).map fun values => ((n : Int) :: values.1, values.2) := by
  rw [split, scan_format_append plain, hexPadded, List.append_assoc, hex,
    scan_format_integer (readInteger_hex _ n stops)]

section Parse

variable (portNames : Chars → Option (BitVec 32)) (parseSet parseSample : Chars → ParseResult)

theorem parseOdpAction_output (port : BitVec 16) {rest : Chars} (ends : rest.head?.all isDelimiter) :
    parseOdpAction portNames parseSet parseSample (decimal port.toNat ++ rest) =
      .ok (outputAttr (port.setWidth 32)) rest := by
  have read : parseOutput (decimal port.toNat ++ rest) =
      some (.ok (outputAttr (port.setWidth 32)) rest) := by
    rw [parseOutput, decimal, readInteger_decimal _ (stops_of_ends ends), Option.map_some,
      stored_toNat (by decide)]
  rw [parseOdpAction, read]
  rfl

variable {portNames} {word rest : Chars} (plain : ∀ c ∈ word, isDelimiter c = false)
  (ends : rest.head?.all isDelimiter) (noNumber : parseOutput (word ++ rest) = none)

include plain ends noNumber

theorem parseOdpAction_of_port {port : BitVec 32} (named : portNames word = some port) :
    parseOdpAction portNames parseSet parseSample (word ++ rest) =
      .ok (outputAttr port) ((word ++ rest).dropWhile fun c => !isDelimiter c) := by
  have found : parsePortName portNames (word ++ rest) =
      some (.ok (outputAttr port) ((word ++ rest).dropWhile fun c => !isDelimiter c)) := by
    rw [parsePortName, takeWhile_delimiter plain ends, named, Option.map_some]
  rw [parseOdpAction, noNumber, found]
  rfl

theorem parseOdpAction_of_noPort (unnamed : portNames word = none) :
    parseOdpAction portNames parseSet parseSample (word ++ rest) =
      parseKeyword parseSet parseSample (word ++ rest) := by
  have notFound : parsePortName portNames (word ++ rest) = none := by
    rw [parsePortName, takeWhile_delimiter plain ends, unnamed, Option.map_none]
  rw [parseOdpAction, noNumber, notFound]
  rfl

end Parse

theorem vlanTci_parts (tci : BitVec 16) :
    vlanTciToVid tci ||| vlanTciToPcp tci <<< 13 ||| (if tci &&& 0x1000 = 0 then 0 else 0x1000) =
      tci := by
  have cfi : (if tci &&& 0x1000 = 0 then 0 else 0x1000) = tci &&& 0x1000 := by
    have masked : tci &&& 0x1000 = if tci.getLsbD 12 then 0x1000 else 0 := BitVec.and_twoPow tci 12
    rw [masked]
    cases tci.getLsbD 12 <;> rfl
  rw [cfi, vlanTciToVid, vlanTciToPcp]
  apply BitVec.eq_of_getLsbD_eq
  intro i inside
  interval_cases i <;> simp

theorem pushVlanOf_toNat (tpid tci : BitVec 16) {cfi : Int}
    (printed : stored 32 cfi = 0 ↔ tci &&& 0x1000 = 0) :
    pushVlanOf tpid.toNat (vlanTciToVid tci).toNat (vlanTciToPcp tci).toNat cfi =
      pushVlanAttr tpid tci := by
  rw [pushVlanOf, stored_toNat (by decide), stored_toNat (by decide), stored_toNat (by decide)]
  simp only [BitVec.setWidth_eq, printed, vlanTci_parts]

theorem scan_vidPcp {pattern text more tail : Chars}
    (split : pattern = text ++ '%' :: (",pcp=".toList ++ '%' :: more)) (plain : '%' ∉ text)
    (vid pcp : Nat) (stops : Stops tail) :
    scan (format pattern) (text ++ (decimal vid ++ (",pcp=".toList ++ (decimal pcp ++ tail)))) =
      (scan (format more) tail).map fun values =>
        ((vid : Int) :: (pcp : Int) :: values.1, values.2) := by
  have stopsComma : Stops (",pcp=".toList ++ (decimal pcp ++ tail)) := rfl
  rw [scan_decimal split plain vid stopsComma, scan_decimal rfl (by decide) pcp stops,
    Option.map_map]
  rfl

theorem scan_tpidVidPcp {pattern more tail : Chars}
    (split : pattern = "push_vlan(tpid=".toList ++
      '%' :: (",vid=".toList ++ '%' :: (",pcp=".toList ++ '%' :: more)))
    (tpid vid pcp : Nat) (stops : Stops tail) :
    scan (format pattern) ("push_vlan(tpid=".toList ++ ('0' :: 'x' :: (hexPadded 4 tpid ++
        (",vid=".toList ++ (decimal vid ++ (",pcp=".toList ++ (decimal pcp ++ tail))))))) =
      (scan (format more) tail).map fun values =>
        ((tpid : Int) :: (vid : Int) :: (pcp : Int) :: values.1, values.2) := by
  have stopsComma : Stops (",vid=".toList ++ (decimal vid ++ (",pcp=".toList ++
    (decimal pcp ++ tail)))) := rfl
  rw [scan_hexPadded split (by decide) 4 tpid stopsComma,
    scan_vidPcp rfl (by decide) vid pcp stops, Option.map_map]
  rfl

theorem parsePushVlan_vid (vid pcp : Nat) (cfi : Bool) (rest : Chars) :
    parsePushVlan ("push_vlan(vid=".toList ++ (decimal vid ++ (",pcp=".toList ++
      (decimal pcp ++ ((if cfi then [] else ",cfi=0".toList) ++ (")".toList ++ rest)))))) =
      some (.ok (pushVlanOf 0x8100 vid pcp (if cfi then 1 else 0)) rest) := by
  cases cfi with
  | true =>
    have first := @scan_vidPcp "push_vlan(vid=%,pcp=%)".toList _ ")".toList (")".toList ++ rest) rfl
      (by decide : '%' ∉ "push_vlan(vid=".toList) vid pcp rfl
    simp only [parsePushVlan, if_true, List.nil_append, first]
    rfl
  | false =>
    have first := @scan_vidPcp "push_vlan(vid=%,pcp=%)".toList _ ")".toList
      (",cfi=0)".toList ++ rest) rfl (by decide : '%' ∉ "push_vlan(vid=".toList) vid pcp rfl
    have second := @scan_vidPcp "push_vlan(vid=%,pcp=%,cfi=%)".toList _ ",cfi=%)".toList
      (",cfi=0)".toList ++ rest) rfl (by decide : '%' ∉ "push_vlan(vid=".toList) vid pcp rfl
    have tail : (",cfi=0".toList ++ (")".toList ++ rest)) = ",cfi=0)".toList ++ rest := rfl
    simp only [parsePushVlan, Bool.false_eq_true, if_false, tail, first, second]
    rfl

theorem parsePushVlan_tpid (tpid vid pcp : Nat) (cfi : Bool) (rest : Chars) :
    parsePushVlan ("push_vlan(tpid=".toList ++ ('0' :: 'x' :: (hexPadded 4 tpid ++ (",vid=".toList ++
      (decimal vid ++ (",pcp=".toList ++
        (decimal pcp ++ ((if cfi then [] else ",cfi=0".toList) ++ (")".toList ++ rest))))))))) =
      some (.ok (pushVlanOf tpid vid pcp (if cfi then 1 else 0)) rest) := by
  have first : ∀ text, scan (format "push_vlan(vid=%,pcp=%)".toList)
      ("push_vlan(tpid=".toList ++ text) = none := fun _ => rfl
  have second : ∀ text, scan (format "push_vlan(vid=%,pcp=%,cfi=%)".toList)
      ("push_vlan(tpid=".toList ++ text) = none := fun _ => rfl
  cases cfi with
  | true =>
    have third := @scan_tpidVidPcp "push_vlan(tpid=%,vid=%,pcp=%)".toList ")".toList
      (")".toList ++ rest) rfl tpid vid pcp rfl
    simp only [parsePushVlan, if_true, List.nil_append, first, second, third]
    rfl
  | false =>
    have tail : (",cfi=0".toList ++ (")".toList ++ rest)) = ",cfi=0)".toList ++ rest := rfl
    have third := @scan_tpidVidPcp "push_vlan(tpid=%,vid=%,pcp=%)".toList ")".toList
      (",cfi=0)".toList ++ rest) rfl tpid vid pcp rfl
    have fourth := @scan_tpidVidPcp "push_vlan(tpid=%,vid=%,pcp=%,cfi=%)".toList ",cfi=%)".toList
      (",cfi=0)".toList ++ rest) rfl tpid vid pcp rfl
    simp only [parsePushVlan, Bool.false_eq_true, if_false, tail, first, second, third, fourth]
    rfl

theorem parsePushVlan_text (tpid tci : BitVec 16) (rest : Chars) :
    parsePushVlan ("push_vlan(".toList ++ ((if tpid = 0x8100 then []
        else "tpid=0x".toList ++ (hexPadded 4 tpid.toNat ++ ",".toList)) ++
          (formatVlanTci tci ++ ")".toList)) ++ rest) = some (.ok (pushVlanAttr tpid tci) rest) := by
  obtain ⟨cfi, tail, printed⟩ : ∃ cfi : Bool,
      (if tci &&& 0x1000 = 0 then ",cfi=0".toList else []) = (if cfi then [] else ",cfi=0".toList) ∧
        (stored 32 (if cfi then 1 else 0) = 0 ↔ tci &&& 0x1000 = 0) := by
    by_cases clear : tci &&& 0x1000 = 0
    · exact ⟨false, if_pos clear, iff_of_true rfl clear⟩
    · exact ⟨true, if_neg clear, iff_of_false (by decide) clear⟩
  have value := pushVlanOf_toNat tpid tci printed
  rw [formatVlanTci, tail]
  by_cases usual : tpid = 0x8100
  · have parsed := parsePushVlan_vid (vlanTciToVid tci).toNat (vlanTciToPcp tci).toNat cfi rest
    subst usual
    rw [← value]
    refine Eq.trans (congrArg parsePushVlan ?_) parsed
    rw [if_pos rfl]
    simp only [List.nil_append, List.append_assoc]
    rfl
  · have parsed := parsePushVlan_tpid tpid.toNat (vlanTciToVid tci).toNat (vlanTciToPcp tci).toNat
      cfi rest
    rw [← value]
    refine Eq.trans (congrArg parsePushVlan ?_) parsed
    rw [if_neg usual]
    simp only [List.append_assoc]
    rfl

section Keyword

variable (parseSet parseSample : Chars → ParseResult)

theorem parseKeyword_pushVlan (tpid tci : BitVec 16) (rest : Chars) :
    parseKeyword parseSet parseSample ("push_vlan(".toList ++ ((if tpid = 0x8100 then []
        else "tpid=0x".toList ++ (hexPadded 4 tpid.toNat ++ ",".toList)) ++
          (formatVlanTci tci ++ ")".toList)) ++ rest) = .ok (pushVlanAttr tpid tci) rest := by
  have parsed := parsePushVlan_text tpid tci rest
  have skipped : ∀ text, parseKeyword parseSet parseSample ("push_vlan(".toList ++ text) =
      (parsePushVlan ("push_vlan(".toList ++ text) <|> none).getD .einval := fun _ => rfl
  rw [List.append_assoc] at parsed ⊢
  rw [skipped, parsed]
  rfl

theorem parseKeyword_popVlan (rest : Chars) :
    parseKeyword parseSet parseSample ("pop_vlan".toList ++ rest) = .ok popVlanAttr rest := rfl

theorem parseKeyword_userspace (pid : BitVec 32) (rest : Chars) :
    parseKeyword parseSet parseSample ("userspace(pid=".toList ++ (decimal pid.toNat ++
      (")".toList ++ rest))) = .ok (userspaceAttr pid none) rest := by
  have scanned := @scan_decimal "userspace(pid=%)".toList _ ")".toList (")".toList ++ rest) rfl
    (by decide : '%' ∉ "userspace(pid=".toList) pid.toNat rfl
  have value : stored 32 (pid.toNat : Int) = pid := by
    rw [stored_toNat (by decide), BitVec.setWidth_eq]
  have parsed : parseUserspacePid ("userspace(pid=".toList ++ (decimal pid.toNat ++
      (")".toList ++ rest))) = some (.ok (userspaceAttr pid none) rest) := by
    simp only [parseUserspacePid, scanned]
    exact congrArg (fun pid => some (ParseResult.ok (userspaceAttr pid none) rest)) value
  rw [parseKeyword, parsed]
  rfl

theorem parseKeyword_slowPath (pid : BitVec 32) (text : Chars) :
    parseKeyword parseSet parseSample ("userspace(pid=".toList ++ (decimal pid.toNat ++
      (",slow_path(".toList ++ text))) =
      finishSlowPath pid (reasonLoop (text.length + 1) 0 text) := by
  have plain : '%' ∉ "userspace(pid=".toList := by decide
  have first := @scan_decimal "userspace(pid=%)".toList _ ")".toList
    (",slow_path(".toList ++ text) rfl plain pid.toNat rfl
  have second := @scan_decimal "userspace(pid=%,sFlow(vid=%,pcp=%,output=%))".toList _
    ",sFlow(vid=%,pcp=%,output=%))".toList (",slow_path(".toList ++ text) rfl plain pid.toNat rfl
  have third := @scan_decimal "userspace(pid=%,slow_path(".toList _ ",slow_path(".toList
    (",slow_path(".toList ++ text) rfl plain pid.toNat rfl
  have value : stored 32 (pid.toNat : Int) = pid := by
    rw [stored_toNat (by decide), BitVec.setWidth_eq]
  have noPid : parseUserspacePid ("userspace(pid=".toList ++ (decimal pid.toNat ++
      (",slow_path(".toList ++ text))) = none := by
    simp only [parseUserspacePid, first]
    rfl
  have noSflow : parseUserspaceSflow ("userspace(pid=".toList ++ (decimal pid.toNat ++
      (",slow_path(".toList ++ text))) = none := by
    simp only [parseUserspaceSflow, second]
    rfl
  have parsed : parseUserspaceSlowPath ("userspace(pid=".toList ++ (decimal pid.toNat ++
      (",slow_path(".toList ++ text))) =
        some (finishSlowPath pid (reasonLoop (text.length + 1) 0 text)) := by
    simp only [parseUserspaceSlowPath, third]
    exact congrArg (fun pid => some (finishSlowPath pid (reasonLoop (text.length + 1) 0 text))) value
  rw [parseKeyword, noPid, noSflow, parsed]
  rfl

end Keyword

section Action

variable (formatOther : Nlattr → Chars)

theorem not_isDelimiter_append {front back : Chars}
    (plainFront : front.all (fun c => !isDelimiter c))
    (plainBack : ∀ c ∈ back, isDelimiter c = false) : ∀ c ∈ front ++ back, isDelimiter c = false := by
  intro c member
  obtain inFront | inBack := List.mem_append.mp member
  · exact (Bool.not_eq_true' _).mp (List.all_eq_true.mp plainFront c inFront)
  · exact plainBack c inBack

theorem not_isDelimiter_word (action : OdpAction) : ∀ c ∈ action.word, isDelimiter c = false := by
  unfold OdpAction.word
  cases action with
  | output port => exact not_isDelimiter_decimal _
  | remote payload => exact not_isDelimiter_append rfl (not_isDelimiter_hex _)
  | pushVlan tpid tci =>
    by_cases usual : tpid = 0x8100
    · simp only [OdpAction.pushVlanWord, if_pos usual]
      exact not_isDelimiter_append rfl (not_isDelimiter_decimal _)
    · simp only [OdpAction.pushVlanWord, if_neg usual]
      exact not_isDelimiter_append rfl (not_isDelimiter_hexPadded 4 _)
  | popVlan => exact @not_isDelimiter_append "pop_vlan".toList [] rfl (List.forall_mem_nil _)
  | userspace pid cookie =>
    refine not_isDelimiter_append rfl fun c member => ?_
    obtain digit | mark := List.mem_append.mp member
    · exact not_isDelimiter_decimal _ c digit
    · split at mark
      · rw [List.mem_singleton.mp mark]
        decide
      · exact absurd mark List.not_mem_nil

theorem formatOdpAction_eq_word_append (action : OdpAction) {rest : Chars}
    (ends : rest.head?.all isDelimiter) :
    ∃ more, formatOdpAction formatOther action.nlattr ++ rest = action.word ++ more ∧
      more.head?.all isDelimiter := by
  unfold OdpAction.word OdpAction.nlattr
  cases action with
  | output port =>
    refine ⟨rest, ?_, ends⟩
    simp only [formatOdpAction_output, BitVec.toNat_setWidth_of_le (by decide : 16 ≤ 32)]
  | remote payload =>
    obtain ⟨more, text⟩ := formatOdpAction_remote formatOther payload
    refine ⟨',' :: (more ++ rest), ?_, rfl⟩
    simp only [text, List.append_assoc, List.cons_append]
  | pushVlan tpid tci =>
    by_cases usual : tpid = 0x8100
    · refine ⟨",pcp=".toList ++ (decimal (vlanTciToPcp tci).toNat ++
        ((if tci &&& 0x1000 = 0 then ",cfi=0".toList else []) ++ (")".toList ++ rest))), ?_, rfl⟩
      simp only [formatOdpAction_pushVlan, OdpAction.pushVlanWord, if_pos usual, formatVlanTci,
        List.append_assoc, List.nil_append]
      rfl
    · refine ⟨",".toList ++ (formatVlanTci tci ++ (")".toList ++ rest)), ?_, rfl⟩
      simp only [formatOdpAction_pushVlan, OdpAction.pushVlanWord, if_neg usual, List.append_assoc]
      rfl
  | popVlan => exact ⟨rest, congrArg (· ++ rest) (formatOdpAction_popVlan formatOther), ends⟩
  | userspace pid cookie =>
    cases cookie with
    | none =>
      refine ⟨rest, ?_, ends⟩
      simp only [formatOdpAction_userspace, if_true, Option.map_none, Option.getD_none,
        List.nil_append, List.append_assoc]
    | some cookie =>
      refine ⟨",slow_path(".toList ++ ((if cookie.2 = 0 then []
        else formatSlowPathReason cookie.2) ++ (")".toList ++ (")".toList ++ rest))), ?_, rfl⟩
      simp only [formatOdpAction_userspace, reduceCtorEq, if_false, Option.map_some,
        Option.getD_some, formatCookie_slowPathCookie, List.append_assoc, List.nil_append]

theorem formatOdpAction_slowPath (pid : BitVec 32) (unused : BitVec 16) (reason : BitVec 32)
    (rest : Chars) :
    formatOdpAction formatOther (OdpAction.userspace pid (some (unused, reason))).nlattr ++ rest =
      "userspace(pid=".toList ++ (decimal pid.toNat ++ (",slow_path(".toList ++
        (formatSlowPathReason reason ++ ')' :: ')' :: rest))) := by
  have printed : (if reason = 0 then [] else formatSlowPathReason reason) =
      formatSlowPathReason reason := by
    split
    · rename_i zero
      rw [zero]
      decide
    · rfl
  simp only [OdpAction.nlattr, formatOdpAction_userspace, Option.map_some, Option.getD_some,
    formatCookie_slowPathCookie, printed, List.append_assoc]
  rfl

variable (portNames : Chars → Option (BitVec 32)) (parseSet parseSample : Chars → ParseResult)

theorem parseOutput_word {action : OdpAction} (noOutput : ∀ port, action ≠ .output port)
    (more : Chars) : parseOutput (action.word ++ more) = none := by
  unfold OdpAction.word
  cases action with
  | output port => exact absurd rfl (noOutput port)
  | remote payload => rfl
  | pushVlan tpid tci =>
    by_cases usual : tpid = 0x8100
    · simp only [OdpAction.pushVlanWord, if_pos usual]
      rfl
    · simp only [OdpAction.pushVlanWord, if_neg usual]
      rfl
  | popVlan => rfl
  | userspace pid cookie => rfl

section NoOutput

variable {portNames} {action : OdpAction} (noOutput : ∀ port, action ≠ .output port) {rest : Chars}
  (ends : rest.head?.all isDelimiter)

include noOutput ends

theorem parseOdpAction_named {port : BitVec 32} (named : portNames action.word = some port) :
    ∃ more, parseOdpAction portNames parseSet parseSample
      (formatOdpAction formatOther action.nlattr ++ rest) = .ok (outputAttr port) more := by
  obtain ⟨more, text, moreEnds⟩ := formatOdpAction_eq_word_append formatOther action ends
  rw [text]
  exact ⟨_, parseOdpAction_of_port parseSet parseSample (not_isDelimiter_word action) moreEnds
    (parseOutput_word noOutput more) named⟩

theorem parseOdpAction_unnamed (unnamed : portNames action.word = none) :
    parseOdpAction portNames parseSet parseSample
        (formatOdpAction formatOther action.nlattr ++ rest) =
      parseKeyword parseSet parseSample (formatOdpAction formatOther action.nlattr ++ rest) := by
  obtain ⟨more, text, moreEnds⟩ := formatOdpAction_eq_word_append formatOther action ends
  rw [text]
  exact parseOdpAction_of_noPort parseSet parseSample (not_isDelimiter_word action) moreEnds
    (parseOutput_word noOutput more) unnamed

end NoOutput

theorem parseKeyword_knownReasons (pid : BitVec 32) (unused : BitVec 16) {reason : BitVec 32}
    (known : reason &&& ~~~knownReasons = 0) (rest : Chars) :
    parseKeyword parseSet parseSample (formatOdpAction formatOther
        (OdpAction.userspace pid (some (unused, reason))).nlattr ++ rest) =
      .ok (userspaceAttr pid (some (slowPathCookie 0 reason))) rest := by
  have enough : (namedBits reason).length <
      (formatSlowPathReason reason ++ ')' :: ')' :: rest).length + 1 := by
    have long := length_namedBits_le reason
    rw [List.length_append]
    omega
  rw [formatOdpAction_slowPath, parseKeyword_slowPath, reasonLoop_known known enough]
  rfl

theorem parseKeyword_unknownReasons (pid : BitVec 32) (unused : BitVec 16) {reason : BitVec 32}
    (unknown : reason &&& ~~~knownReasons ≠ 0) (rest : Chars) :
    parseKeyword parseSet parseSample (formatOdpAction formatOther
        (OdpAction.userspace pid (some (unused, reason))).nlattr ++ rest) = .undefined := by
  have enough : (namedBits reason).length <
      (formatSlowPathReason reason ++ ')' :: ')' :: rest).length + 1 := by
    have long := length_namedBits_le reason
    rw [List.length_append]
    omega
  rw [formatOdpAction_slowPath, parseKeyword_slowPath, reasonLoop_unknown unknown enough]
  rfl

theorem parseOdpAction_of_readable {action : OdpAction} (readable : action.Readable portNames)
    {rest : Chars} (ends : rest.head?.all isDelimiter) :
    parseOdpAction portNames parseSet parseSample
      (formatOdpAction formatOther action.nlattr ++ rest) = .ok action.nlattr rest := by
  cases action with
  | output port =>
    have parsed := parseOdpAction_output portNames parseSet parseSample port ends
    rwa [OdpAction.nlattr, formatOdpAction_output,
      BitVec.toNat_setWidth_of_le (by decide : 16 ≤ 32)]
  | remote payload => exact absurd readable id
  | pushVlan tpid tci =>
    have noOutput : ∀ port, OdpAction.pushVlan tpid tci ≠ .output port := fun _ => nofun
    rw [parseOdpAction_unnamed formatOther parseSet parseSample noOutput ends readable,
      OdpAction.nlattr, formatOdpAction_pushVlan, parseKeyword_pushVlan]
  | popVlan =>
    have noOutput : ∀ port, OdpAction.popVlan ≠ .output port := fun _ => nofun
    rw [parseOdpAction_unnamed formatOther parseSet parseSample noOutput ends readable,
      OdpAction.nlattr, formatOdpAction_popVlan, parseKeyword_popVlan]
  | userspace pid cookie =>
    have noOutput : ∀ port, OdpAction.userspace pid cookie ≠ .output port := fun _ => nofun
    rw [parseOdpAction_unnamed formatOther parseSet parseSample noOutput ends readable.1]
    cases cookie with
    | none =>
      simp only [OdpAction.nlattr, Option.map_none, formatOdpAction_userspace, Option.getD_none,
        List.nil_append, List.append_assoc, parseKeyword_userspace]
    | some cookie =>
      obtain ⟨unused, reason⟩ := cookie
      obtain ⟨-, rfl, known⟩ := readable
      rw [parseKeyword_knownReasons formatOther parseSet parseSample pid 0 known]
      rfl

theorem type_nlattr_ne_output {action : OdpAction} (noOutput : ∀ port, action ≠ .output port) :
    action.nlattr.type ≠ ovsActionAttrOutput := by
  cases action with
  | output port => exact absurd rfl (noOutput port)
  | remote payload => exact (by decide : ovsActionAttrRemote ≠ ovsActionAttrOutput)
  | pushVlan tpid tci => exact (by decide : ovsActionAttrPushVlan ≠ ovsActionAttrOutput)
  | popVlan => exact (by decide : ovsActionAttrPopVlan ≠ ovsActionAttrOutput)
  | userspace pid cookie => exact (by decide : ovsActionAttrUserspace ≠ ovsActionAttrOutput)

theorem slowPathCookie_inj {unused other : BitVec 16} {reason : BitVec 32}
    (same : slowPathCookie unused reason = slowPathCookie other reason) : unused = other := by
  have member : ∀ unused, (slowPathCookie unused reason).extractLsb' 16 16 = unused := by
    intro unused
    rw [slowPathCookie, BitVec.extractLsb'_append_eq_of_add_le (by decide)]
    exact BitVec.extractLsb'_append_eq_left
  rw [← member unused, same, member other]

theorem ne_of_not_readable {action : OdpAction} (unreadable : ¬action.Readable portNames)
    {rest more : Chars} (ends : rest.head?.all isDelimiter) {attr : Nlattr}
    (parsed : parseOdpAction portNames parseSet parseSample
      (formatOdpAction formatOther action.nlattr ++ rest) = .ok attr more) :
    attr.Fits ∧ attr ≠ action.nlattr := by
  have noOutput : ∀ port, action ≠ .output port := by
    rintro port rfl
    exact unreadable trivial
  cases name : portNames action.word with
  | some port =>
    obtain ⟨after, taken⟩ :=
      parseOdpAction_named formatOther parseSet parseSample noOutput ends name
    rw [taken] at parsed
    cases parsed
    refine ⟨fits_outputAttr port, fun same => ?_⟩
    exact type_nlattr_ne_output noOutput (congrArg Nlattr.type same).symm
  | none =>
    rw [parseOdpAction_unnamed formatOther parseSet parseSample noOutput ends name] at parsed
    cases action with
    | output port => exact absurd rfl (noOutput port)
    | remote payload =>
      obtain ⟨after, text⟩ := formatOdpAction_remote formatOther payload
      have noPattern : parseKeyword parseSet parseSample (formatOdpAction formatOther
          (OdpAction.remote payload).nlattr ++ rest) = .einval := by
        rw [OdpAction.nlattr, text]
        rfl
      rw [noPattern] at parsed
      cases parsed
    | pushVlan tpid tci => exact absurd name unreadable
    | popVlan => exact absurd name unreadable
    | userspace pid cookie =>
      cases cookie with
      | none => exact absurd ⟨name, trivial⟩ unreadable
      | some cookie =>
        obtain ⟨unused, reason⟩ := cookie
        by_cases known : reason &&& ~~~knownReasons = 0
        · rw [parseKeyword_knownReasons formatOther parseSet parseSample pid unused known]
            at parsed
          cases parsed
          refine ⟨fits_userspaceAttr _ _, fun same => unreadable ⟨name, ?_, known⟩⟩
          have cookies := congrArg (fun attr => parseUserspaceAttrs attr.payload) same
          simp only [OdpAction.nlattr, Option.map_some, parseUserspaceAttrs_userspaceAttr,
            Option.some.injEq, Prod.mk.injEq, true_and] at cookies
          exact (slowPathCookie_inj cookies).symm
        · rw [parseKeyword_unknownReasons formatOther parseSet parseSample pid unused known]
            at parsed
          cases parsed

end Action

section Lists

variable (formatOther : Nlattr → Chars) (portNames : Chars → Option (BitVec 32))
  (parseSet parseSample : Chars → ParseResult)

def tailText (actions : List OdpAction) : Chars :=
  actions.flatMap fun action => ',' :: formatOdpAction formatOther action.nlattr

def actionBytes (actions : List OdpAction) : List (BitVec 8) :=
  putAttrs (actions.map OdpAction.nlattr)

theorem put_ne_nil (attr : Nlattr) : attr.put ≠ [] := nofun

theorem actionBytes_cons (action : OdpAction) (actions : List OdpAction) :
    actionBytes (action :: actions) = action.nlattr.put ++ actionBytes actions := rfl

theorem head_tailText (actions : List OdpAction) :
    (tailText formatOther actions).head?.all isDelimiter := by
  cases actions with
  | nil => rfl
  | cons action actions => rfl

theorem length_le_tailText (actions : List OdpAction) :
    actions.length ≤ (tailText formatOther actions).length := by
  induction actions with
  | nil => exact Nat.le_refl 0
  | cons action actions ih =>
    rw [tailText, List.flatMap_cons, ← tailText, List.length_append, List.length_cons,
      List.length_cons]
    omega

theorem formatOdpActions_actionBytes (action : OdpAction) (actions : List OdpAction) :
    formatOdpActions formatOther (actionBytes (action :: actions)) =
      formatOdpAction formatOther action.nlattr ++ tailText formatOther actions := by
  have fits : ∀ attr ∈ (action :: actions).map OdpAction.nlattr, attr.Fits :=
    List.forall_mem_map.mpr fun action _ => action.fits_nlattr
  have walk : nlAttrForEach (actionBytes (action :: actions)) =
      ((action :: actions).map OdpAction.nlattr, false) := nlAttrForEach_putAttrs fits
  have some_ : actionBytes (action :: actions) ≠ [] := by
    rw [actionBytes_cons]
    exact List.append_ne_nil_of_left_ne_nil (put_ne_nil action.nlattr) _
  have joined : ∀ (text : Chars) (actions : List OdpAction),
      ((text :: (actions.map OdpAction.nlattr).map (formatOdpAction formatOther)).intersperse
        [',']).flatten = text ++ tailText formatOther actions := by
    intro text actions
    induction actions generalizing text with
    | nil => simp [tailText]
    | cons action actions ih =>
      rw [List.map_cons, List.map_cons, List.intersperse_cons_cons, List.flatten_cons,
        List.flatten_cons, ih]
      rfl
  rw [formatOdpActions, if_neg some_, walk]
  simp only [Bool.false_eq_true, if_false, List.append_nil, List.map_cons, joined]

theorem word_eq_cons (action : OdpAction) :
    ∃ c more, action.word = c :: more ∧ c.toLower ≠ 'd' := by
  unfold OdpAction.word
  cases action with
  | output port =>
    obtain ⟨digit, tail, small, digits, -⟩ := toDigits_eq_cons (by decide : 1 < 10) port.toNat
    have lower : ∀ digit < 10, (Nat.digitChar digit).toLower ≠ 'd' := by decide
    exact ⟨_, tail, digits, lower digit small⟩
  | remote payload => exact ⟨'r', _, rfl, by decide⟩
  | pushVlan tpid tci =>
    by_cases usual : tpid = 0x8100
    · simp only [OdpAction.pushVlanWord, if_pos usual]
      exact ⟨'p', _, rfl, by decide⟩
    · simp only [OdpAction.pushVlanWord, if_neg usual]
      exact ⟨'p', _, rfl, by decide⟩
  | popVlan => exact ⟨'p', _, rfl, by decide⟩
  | userspace pid cookie => exact ⟨'u', _, rfl, by decide⟩

theorem formatOdpAction_eq_cons (action : OdpAction) (actions : List OdpAction) :
    ∃ c more, formatOdpAction formatOther action.nlattr ++ tailText formatOther actions = c :: more ∧
      isDelimiter c = false ∧ c.toLower ≠ 'd' := by
  obtain ⟨more, text, -⟩ :=
    formatOdpAction_eq_word_append formatOther action (head_tailText formatOther actions)
  obtain ⟨c, tail, word, lower⟩ := word_eq_cons action
  have plain := not_isDelimiter_word action c (word ▸ List.mem_cons_self)
  exact ⟨c, tail ++ more, by rw [text, word, List.cons_append], plain, lower⟩

theorem formatOdpAction_ne_nil (action : OdpAction) :
    formatOdpAction formatOther action.nlattr ≠ [] := by
  obtain ⟨c, more, text, -⟩ := formatOdpAction_eq_cons formatOther action []
  intro empty
  rw [empty] at text
  cases text

theorem dropWhile_text (action : OdpAction) (actions : List OdpAction) :
    (formatOdpAction formatOther action.nlattr ++ tailText formatOther actions).dropWhile
        isDelimiter =
      formatOdpAction formatOther action.nlattr ++ tailText formatOther actions := by
  obtain ⟨c, more, text, plain, -⟩ := formatOdpAction_eq_cons formatOther action actions
  rw [text, List.dropWhile_cons_of_neg (by rw [plain]; decide)]

theorem fromStringLoop_extends {old : List (BitVec 8)} {turns : Nat} {s : Chars}
    {actions result : List (BitVec 8)} {value : Int}
    (returned : fromStringLoop portNames parseSet parseSample old turns s actions =
      some (value, result)) : result = old ∨ ∃ more, result = actions ++ more := by
  induction turns generalizing s actions with
  | zero => cases returned
  | succ turns ih =>
    rw [fromStringLoop] at returned
    split at returned
    · cases returned
      exact .inr ⟨[], (List.append_nil _).symm⟩
    · split at returned
      · cases returned
      · cases returned
        exact .inl rfl
      · split at returned
        · obtain back | ⟨more, extended⟩ := ih returned
          · exact .inl back
          · exact .inr ⟨_, extended.trans (List.append_assoc _ _ _)⟩
        · cases returned
          exact .inl rfl

theorem fromStringLoop_succ {old acc : List (BitVec 8)} {action : OdpAction}
    {actions : List OdpAction} {s : Chars} (turns : Nat)
    (skipped : s.dropWhile isDelimiter =
      formatOdpAction formatOther action.nlattr ++ tailText formatOther actions) :
    fromStringLoop portNames parseSet parseSample old (turns + 1) s (old ++ acc) =
        some (0, old ++ (acc ++ actionBytes (action :: actions))) ↔
      action.Readable portNames ∧
        fromStringLoop portNames parseSet parseSample old turns (tailText formatOther actions)
          (old ++ (acc ++ action.nlattr.put)) =
            some (0, old ++ ((acc ++ action.nlattr.put) ++ actionBytes actions)) := by
  have ends := head_tailText formatOther actions
  have some_ : formatOdpAction formatOther action.nlattr ++ tailText formatOther actions ≠ [] := by
    obtain ⟨c, more, text, -⟩ := formatOdpAction_eq_cons formatOther action actions
    rw [text]
    exact List.cons_ne_nil c more
  rw [actionBytes_cons, fromStringLoop]
  simp only [skipped, if_neg some_]
  by_cases readable : action.Readable portNames
  · rw [parseOdpAction_of_readable formatOther portNames parseSet parseSample readable ends]
    simp only [ends, if_true, readable, true_and, List.append_assoc]
  · refine iff_of_false (fun returned => ?_) fun both => readable both.1
    have longer : old ≠ old ++ (acc ++ (action.nlattr.put ++ actionBytes actions)) := by
      intro same
      have empty := List.append_cancel_left ((List.append_nil old).trans same)
      exact put_ne_nil _ (List.append_eq_nil_iff.mp (List.append_eq_nil_iff.mp empty.symm).2).1
    split at returned
    · cases returned
    · cases returned
    · rename_i attr more parsed
      obtain ⟨fits, differ⟩ :=
        ne_of_not_readable formatOther portNames parseSet parseSample readable ends parsed
      split at returned
      · obtain back | ⟨tail, extended⟩ :=
          fromStringLoop_extends portNames parseSet parseSample returned
        · exact longer back.symm
        · simp only [List.append_assoc, List.append_cancel_left_eq] at extended
          have same := congrArg getAttr extended
          rw [getAttr_put action.fits_nlattr, getAttr_put fits] at same
          exact differ same.symm
      · exact longer (congrArg Prod.snd (Option.some.inj returned))

theorem fromStringLoop_tailText {old acc : List (BitVec 8)} {actions : List OdpAction} {turns : Nat}
    (enough : actions.length < turns) :
    fromStringLoop portNames parseSet parseSample old turns (tailText formatOther actions)
        (old ++ acc) = some (0, old ++ (acc ++ actionBytes actions)) ↔
      ∀ action ∈ actions, action.Readable portNames := by
  induction actions generalizing acc turns with
  | nil =>
    obtain ⟨turns, rfl⟩ : ∃ more, turns = more + 1 := ⟨turns - 1, by omega⟩
    refine iff_of_true ?_ (List.forall_mem_nil _)
    have nothing : acc ++ actionBytes [] = acc := List.append_nil acc
    rw [nothing]
    rfl
  | cons action actions ih =>
    obtain ⟨turns, rfl⟩ : ∃ more, turns = more + 1 := ⟨turns - 1, by omega⟩
    rw [List.length_cons] at enough
    have skipped : (tailText formatOther (action :: actions)).dropWhile isDelimiter =
        formatOdpAction formatOther action.nlattr ++ tailText formatOther actions :=
      dropWhile_text formatOther action actions
    rw [fromStringLoop_succ formatOther portNames parseSet parseSample turns skipped,
      ih (by omega), List.forall_mem_cons]

/-- `odp_actions_from_string` gets the text of `format_odp_actions` for a list of actions, returns 0
and appends the attributes of the list. -/
def ReadBack (before : List (BitVec 8)) (actions : List OdpAction) : Prop :=
  odpActionsFromString portNames parseSet parseSample
      (formatOdpActions formatOther (actionBytes actions)) before =
    some (0, before ++ actionBytes actions)

/-- A list of actions is read back from its text exactly if every action is readable. -/
theorem readBack_iff (before : List (BitVec 8)) (actions : List OdpAction) :
    ReadBack formatOther portNames parseSet parseSample before actions ↔
      ∀ action ∈ actions, action.Readable portNames := by
  rw [ReadBack]
  cases actions with
  | nil =>
    have nothing : before ++ actionBytes [] = before := List.append_nil before
    refine iff_of_true ?_ (List.forall_mem_nil _)
    exact congrArg (fun actions => some ((0 : Int), actions)) nothing.symm
  | cons action actions =>
    have text := formatOdpActions_actionBytes formatOther action actions
    obtain ⟨c, more, start, -, lower⟩ := formatOdpAction_eq_cons formatOther action actions
    have noDrop : (formatOdpActions formatOther (actionBytes (action :: actions))).map Char.toLower ≠
        "drop".toList := by
      rw [text, start]
      exact fun same => lower (List.cons.inj same).1
    have enough : actions.length < (formatOdpActions formatOther
        (actionBytes (action :: actions))).length := by
      have long := length_le_tailText formatOther actions
      have positive := List.length_pos_of_ne_nil (formatOdpAction_ne_nil formatOther action)
      rw [text, List.length_append]
      omega
    have skipped : (formatOdpActions formatOther (actionBytes (action :: actions))).dropWhile
        isDelimiter = formatOdpAction formatOther action.nlattr ++ tailText formatOther actions := by
      rw [text, dropWhile_text]
    have loop := @fromStringLoop_succ formatOther portNames parseSet parseSample before [] action
      actions _ (formatOdpActions formatOther (actionBytes (action :: actions))).length skipped
    rw [List.append_nil] at loop
    rw [odpActionsFromString, if_neg noDrop]
    refine loop.trans ?_
    rw [fromStringLoop_tailText formatOther portNames parseSet parseSample enough,
      List.forall_mem_cons]

/-- The text of a `REMOTE` action is refused. -/
theorem not_readBack_remote :
    ¬ReadBack (fun _ => []) (fun _ => none) (fun _ => .einval) (fun _ => .einval) []
      [.remote 0x1c0a8390a] := by
  rw [ReadBack]
  decide

end Lists

end Odp
end LazyCtrl
