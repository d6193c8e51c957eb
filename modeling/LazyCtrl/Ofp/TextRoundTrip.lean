import LazyCtrl.Odp.TextRoundTrip
import LazyCtrl.Ofp.ActionText
import LazyCtrl.Ofp.RoundTrip

/-!
# Which OpenFlow actions are read back from their text

The text of a list of actions is split into keys and values, and every pair is parsed on its own.
Most actions come back.  The text of `REMOTE` does not, because its comma ends the value and the
parser has no case for it; neither does that of an `ENQUEUE` to a port with a name, of a
`CONTROLLER` with a reason without a name, of a `RESUBMIT` that names neither port nor table, and of
a `DEC_TTL` with an empty list of controllers.
-/

namespace LazyCtrl
namespace OfpText

open Bytes Text
open Odp (decimal hex hexPadded chomp stored isDelimiter)

section KeyValues

variable {text key value rest : Chars}

theorem keyValues_finished (parsed : ofputilParseKeyValue text = .finished) :
    keyValues text = some [] := by
  rw [keyValues]
  split <;> simp_all

theorem keyValues_undefined (parsed : ofputilParseKeyValue text = .undefined) :
    keyValues text = none := by
  rw [keyValues]
  split <;> simp_all

theorem keyValues_pair (parsed : ofputilParseKeyValue text = .pair key value rest) :
    keyValues text = (keyValues rest).map ((key, value) :: ·) := by
  rw [keyValues]
  split <;> simp_all

end KeyValues

theorem keyValues_nil : keyValues [] = some [] := keyValues_finished rfl

theorem keyValues_tail {rest : Chars} (ends : rest.head?.all isDelimiter) :
    keyValues rest.tail = keyValues rest := by
  cases rest with
  | nil => rfl
  | cons c rest =>
    have delimiter : isDelimiter c = true := by simpa using ends
    have skipped : ofputilParseKeyValue (c :: rest) = ofputilParseKeyValue rest := by
      simp only [ofputilParseKeyValue, List.dropWhile_cons_of_pos delimiter]
    rw [List.tail_cons]
    cases parsed : ofputilParseKeyValue rest with
    | finished => rw [keyValues_finished parsed, keyValues_finished (skipped.trans parsed)]
    | undefined => rw [keyValues_undefined parsed, keyValues_undefined (skipped.trans parsed)]
    | pair key value behind =>
      rw [keyValues_pair parsed, keyValues_pair (skipped.trans parsed)]

def Splits (text : Chars) (pairs : List (Chars × Chars)) : Prop :=
  ∀ rest : Chars, rest.head?.all isDelimiter →
    keyValues (text ++ rest) = (keyValues rest).map (pairs ++ ·)

theorem Splits.keyValues {text : Chars} {pairs : List (Chars × Chars)} (splits : Splits text pairs) :
    keyValues text = some pairs := by
  have whole := splits [] rfl
  rwa [List.append_nil, keyValues_nil, Option.map_some, List.append_nil] at whole

theorem Splits.nil : Splits [] [] := by
  intro rest _
  cases found : OfpText.keyValues rest <;> rw [List.nil_append, found] <;> rfl

theorem Splits.append {front back : Chars} {pairs more : List (Chars × Chars)}
    (first : Splits front pairs) (second : Splits back more) :
    Splits (front ++ ',' :: back) (pairs ++ more) := by
  intro rest ends
  have skipped : OfpText.keyValues (',' :: (back ++ rest)) = OfpText.keyValues (back ++ rest) :=
    (@keyValues_tail (',' :: (back ++ rest)) rfl).symm
  rw [List.append_assoc, List.cons_append, first (',' :: (back ++ rest)) rfl, skipped,
    second rest ends, Option.map_map]
  congr 1
  funext last
  exact (List.append_assoc pairs more last).symm

def PlainKey (key : Chars) : Prop := key.all (!endsKey ·)

instance (key : Chars) : Decidable (PlainKey key) := inferInstanceAs (Decidable (_ = true))

theorem not_isDelimiter_of_plainKey {key : Chars} (plain : PlainKey key) {c : Char}
    (member : c ∈ key) : ¬ isDelimiter c = true := by
  have free : endsKey c = false := by simpa using List.all_eq_true.mp plain c member
  simp only [endsKey, Bool.or_eq_false_iff] at free
  rw [free.2]
  exact Bool.false_ne_true

theorem ofputilParseKeyValue_of_plainKey {key behind value rest : Chars} (plain : PlainKey key)
    (named : key ≠ []) (ends : behind.head?.all endsKey)
    (found : valueOf behind = some (value, rest)) :
    ofputilParseKeyValue (key ++ behind) = .pair key value rest := by
  obtain ⟨taken, dropped⟩ := span_append plain (by simpa using ends)
  have pos : (key ++ behind).dropWhile isDelimiter = key ++ behind := by
    cases key with
    | nil => exact absurd rfl named
    | cons c key =>
      rw [List.cons_append,
        List.dropWhile_cons_of_neg (not_isDelimiter_of_plainKey plain List.mem_cons_self)]
  have nonempty : key ++ behind ≠ [] := fun empty => named (List.append_eq_nil_iff.mp empty).1
  simp only [ofputilParseKeyValue, pos, if_neg nonempty, dropped, taken, found]

def PlainValue (value : Chars) : Prop := value.all (!isDelimiter ·)

instance (value : Chars) : Decidable (PlainValue value) := inferInstanceAs (Decidable (_ = true))

theorem splits_value {key value : Chars} {c : Char} (separates : c = ':' ∨ c = '=')
    (named : key ≠ []) (plainKey : PlainKey key) (plain : PlainValue value) :
    Splits (key ++ c :: value) [(key, value)] := by
  intro rest ends
  obtain ⟨taken, dropped⟩ := span_append plain (by simpa using ends)
  have found : valueOf (c :: (value ++ rest)) = some (value, rest.tail) := by
    rw [valueOf, if_pos separates, taken, dropped]
  have stop : (c :: (value ++ rest)).head?.all endsKey := by obtain rfl | rfl := separates <;> rfl
  rw [List.append_assoc, List.cons_append,
    keyValues_pair (ofputilParseKeyValue_of_plainKey plainKey named stop found),
    keyValues_tail ends]
  rfl

def NoParens (text : Chars) : Prop := text.all fun c => c ≠ '(' && c ≠ ')'

instance (text : Chars) : Decidable (NoParens text) := inferInstanceAs (Decidable (_ = true))

theorem balanced_append {value : Chars} (plain : NoParens value) (rest : Chars) :
    balanced 0 (value ++ ')' :: rest) = some (value, rest) := by
  induction value with
  | nil => rfl
  | cons c value ih =>
    have both : (c ≠ '(' ∧ c ≠ ')') ∧ NoParens value := by simpa [NoParens] using plain
    rw [List.cons_append, balanced, if_neg fun closes => both.1.2 closes.1, if_neg both.1.1,
      if_neg both.1.2, ih both.2, Option.map_some]

theorem splits_parens {key value : Chars} (named : key ≠ []) (plainKey : PlainKey key)
    (plain : NoParens value) : Splits (key ++ '(' :: (value ++ [')'])) [(key, value)] := by
  intro rest _
  have found : valueOf ('(' :: (value ++ ')' :: rest)) = some (value, rest) :=
    balanced_append plain rest
  have whole : key ++ '(' :: (value ++ [')']) ++ rest = key ++ '(' :: (value ++ ')' :: rest) := by
    simp only [List.append_assoc, List.cons_append, List.nil_append]
  rw [whole, keyValues_pair (ofputilParseKeyValue_of_plainKey plainKey named rfl found)]
  rfl

theorem splits_key {key : Chars} (named : key ≠ []) (plainKey : PlainKey key) :
    Splits key [(key, [])] := by
  intro rest ends
  have found : valueOf rest = some ([], rest.tail) := by
    cases rest with
    | nil => rfl
    | cons c rest =>
      have delimiter : isDelimiter c = true := by simpa using ends
      rw [Odp.isDelimiter, decide_eq_true_eq] at delimiter
      obtain rfl | rfl | rfl | rfl | rfl := delimiter <;> rfl
  have stop : rest.head?.all endsKey := by
    cases rest with
    | nil => rfl
    | cons c rest =>
      have delimiter : isDelimiter c = true := by simpa using ends
      simp [endsKey, delimiter]
  rw [keyValues_pair (ofputilParseKeyValue_of_plainKey plainKey named stop found),
    keyValues_tail ends]
  rfl

theorem joined_cons_cons (c : Char) (first second : Chars) (parts : List Chars) :
    joined c (first :: second :: parts) = first ++ c :: joined c (second :: parts) := by
  simp [joined]

theorem joined_cons (c : Char) (first : Chars) (parts : List Chars) :
    joined c (first :: parts) = first ++ parts.flatMap (c :: ·) := by
  induction parts generalizing first with
  | nil => simp [joined]
  | cons second parts ih =>
    rw [joined_cons_cons, ih, List.flatMap_cons, List.cons_append]

theorem joined_singleton (c : Char) (part : Chars) : joined c [part] = part := by simp [joined]

theorem all_joined {holds : Char → Bool} {c : Char} {parts : List Chars} (separator : holds c)
    (each : ∀ part ∈ parts, part.all holds) : (joined c parts).all holds := by
  induction parts with
  | nil => rfl
  | cons part parts ih =>
    rw [List.forall_mem_cons] at each
    cases parts with
    | nil => rw [joined_singleton]; exact each.1
    | cons next parts =>
      rw [joined_cons_cons, List.all_append, List.all_cons, each.1, separator, ih each.2]
      rfl

theorem splits_joined {texts : List Chars} {pairs : List (List (Chars × Chars))}
    (splits : List.Forall₂ Splits texts pairs) : Splits (joined ',' texts) pairs.flatten := by
  induction splits with
  | nil => exact Splits.nil
  | @cons text some_ texts pairs first rest ih =>
    cases rest with
    | nil =>
      rw [joined_singleton, List.flatten_cons, List.flatten_nil, List.append_nil]
      exact first
    | @cons next more texts pairs second rest =>
      rw [joined_cons_cons, List.flatten_cons]
      exact first.append ih

theorem readInteger_decimal_end (n : Nat) : readInteger 0 (decimal n) = some ((n : Int), []) := by
  have read := readInteger_decimal n (show Stops [] from rfl)
  rwa [List.append_nil] at read

theorem strToUnsigned_decimal (width : Nat) {n : Nat} (small : n < 2 ^ 64) :
    strToUnsigned width (decimal n) = some (BitVec.ofNat width n) := by
  rw [strToUnsigned, readInteger_decimal_end]
  simp only [Int.natAbs_natCast, if_pos small, BitVec.ofInt_natCast]

theorem strToU32_toNat {width : Nat} (narrow : width ≤ 32) (x : BitVec width) :
    ∃ value, strToU32 (decimal x.toNat) = some value ∧ value.setWidth width = x := by
  have small := Nat.lt_of_lt_of_le x.isLt (Nat.pow_le_pow_right (by decide : 0 < 2) narrow)
  refine ⟨x.setWidth 32, ?_, ?_⟩
  · rw [strToU32, strToUnsigned_decimal 32 (by omega), BitVec.ofNat_toNat]
  · rw [BitVec.setWidth_setWidth_of_le x narrow, BitVec.setWidth_eq]

theorem strToU32_map_setWidth {width : Nat} (narrow : width ≤ 32) (x : BitVec width) :
    (strToU32 (decimal x.toNat)).map (·.setWidth width) = some x := by
  obtain ⟨value, read, cut⟩ := strToU32_toNat narrow x
  rw [read, Option.map_some, cut]

theorem strToU64_markedHex (x : BitVec 64) : strToU64 (markedHex x.toNat) = some x := by
  have read : readInteger 0 (markedHex x.toNat) = some ((x.toNat : Int), []) := by
    rw [markedHex]
    split
    · rename_i zero
      rw [zero]
      exact readInteger_decimal_end 0
    · have hexadecimal := readInteger_hex 0 x.toNat (show Stops [] from rfl)
      rwa [List.append_nil] at hexadecimal
  rw [strToU64, strToUnsigned, read]
  simp only [Int.natAbs_natCast, if_pos x.isLt, BitVec.ofInt_natCast, BitVec.ofNat_toNat,
    BitVec.setWidth_eq]

theorem strToInt_decimal {n : Nat} (small : n < 2 ^ 31) : strToInt 0 (decimal n) = some (n : Int) := by
  have inRange : -2 ^ 63 ≤ (n : Int) ∧ (n : Int) < 2 ^ 63 := by omega
  rw [strToInt, readInteger_decimal_end]
  simp only [if_pos inRange, BitVec.ofInt_natCast]
  rw [BitVec.toInt_eq_toNat_of_lt, BitVec.toNat_ofNat, Nat.mod_eq_of_lt (by omega)]
  rw [BitVec.toNat_ofNat]
  omega

theorem strToU16_toNat (x : BitVec 16) : strToU16 (decimal x.toNat) = some x := by
  have small := x.isLt
  have inRange : ¬ ((x.toNat : Int) < 0 ∨ (x.toNat : Int) > 65535) := by omega
  rw [strToU16, strToInt_decimal (by omega), Option.bind_some, if_neg inRange,
    BitVec.ofInt_natCast, BitVec.ofNat_toNat, BitVec.setWidth_eq]

theorem hexPadded_two {n : Nat} (small : n < 256) :
    hexPadded 2 n = [Nat.digitChar (n / 16), Nat.digitChar (n % 16)] := by
  rw [hexPadded, hex]
  obtain below | above := Nat.lt_or_ge n 16
  · rw [Nat.toDigits_of_lt_base below, Nat.div_eq_of_lt below, Nat.mod_eq_of_lt below]
    rfl
  · have high : n / 16 < 16 := by omega
    have low : n % 16 < 16 := Nat.mod_lt n (by decide)
    have digits := Nat.toDigits_append_toDigits (by decide : 1 < 16) (by omega : 0 < n / 16) low
    rw [Nat.toDigits_of_lt_base high, Nat.toDigits_of_lt_base low, Nat.div_add_mod] at digits
    rw [← digits]
    rfl

theorem hexitsValue_digitChar (byte : BitVec 8) :
    hexitsValue (Nat.digitChar (byte.toNat / 16)) (Nat.digitChar (byte.toNat % 16)) = some byte := by
  have small := byte.isLt
  rw [hexitsValue, digitValue_digitChar _ (by omega), digitValue_digitChar _ (by omega),
    Option.bind_some, Option.map_some, Nat.div_add_mod, BitVec.ofNat_toNat, BitVec.setWidth_eq]

theorem noteBytes_joined (data : List (BitVec 8)) :
    noteBytes (joined '.' (data.map fun byte => hexPadded 2 byte.toNat)) = some data := by
  have behind : ∀ data : List (BitVec 8),
      noteBytes ((data.map fun byte => hexPadded 2 byte.toNat).flatMap ('.' :: ·)) = some data := by
    intro data
    induction data with
    | nil => rfl
    | cons byte data ih =>
      rw [List.map_cons, List.flatMap_cons, hexPadded_two byte.isLt]
      simp only [List.cons_append, List.nil_append]
      rw [noteBytes, if_pos rfl, hexitsValue_digitChar, Option.bind_some, ih, Option.map_some]
  have noDot : ∀ d < 16, Nat.digitChar d ≠ '.' := by decide
  cases data with
  | nil => rfl
  | cons byte data =>
    have small := byte.isLt
    have start := noDot (byte.toNat / 16) (by omega)
    have rest := behind data
    rw [List.map_cons, joined_cons, hexPadded_two small]
    simp only [List.cons_append, List.nil_append]
    generalize (data.map fun byte => hexPadded 2 byte.toNat).flatMap ('.' :: ·) = text at rest
    cases text with
    | nil =>
      obtain rfl := Option.some.inj rest
      rw [noteBytes, if_neg start, hexitsValue_digitChar, Option.map_some]
    | cons c text =>
      rw [noteBytes, if_neg start, hexitsValue_digitChar, Option.bind_some, rest,
        Option.map_some]

theorem digitChar_noMark : ∀ d < 16, Nat.digitChar d ≠ 'x' ∧ Nat.digitChar d ≠ 'X' := by decide

theorem readMarkedHex_two {high low : Nat} (highSmall : high < 16) (lowSmall : low < 16)
    {rest : Chars} (stops : NoDigit 16 rest) :
    readMarkedHex (Nat.digitChar high :: Nat.digitChar low :: rest) =
      some (16 * high + low, rest) := by
  have noMark := digitChar_noMark low lowSmall
  have both : ∀ c ∈ [Nat.digitChar high, Nat.digitChar low], isDigitOf 16 c :=
    List.forall_mem_cons.mpr ⟨isDigitOf_digitChar highSmall (Nat.le_refl 16),
      List.forall_mem_singleton.mpr (isDigitOf_digitChar lowSmall (Nat.le_refl 16))⟩
  have value : digitsValue 16 [Nat.digitChar high, Nat.digitChar low] = 16 * high + low := by
    simp only [digitsValue, List.foldl_cons, List.foldl_nil, digitValue_digitChar high highSmall,
      digitValue_digitChar low lowSmall, Option.getD_some, Nat.mul_zero, Nat.zero_add]
  have read := readDigits_append both (List.cons_ne_nil _ _) stops
  rw [value] at read
  unfold readMarkedHex
  split
  · rename_i equal
    exact absurd (List.cons.inj (List.cons.inj equal).2).1 noMark.1
  · rename_i equal
    exact absurd (List.cons.inj (List.cons.inj equal).2).1 noMark.2
  · exact read

theorem scanByte_hexPadded (byte : BitVec 8) {rest : Chars} (stops : NoDigit 16 rest) :
    scanByte (hexPadded 2 byte.toNat ++ rest) = some (byte, rest) := by
  have small := byte.isLt
  have read := @readMarkedHex_two (byte.toNat / 16) (byte.toNat % 16) (by omega) (by omega) rest stops
  obtain ⟨noSpace, noMinus, noPlus⟩ := digitChar_noSign (byte.toNat / 16) (by omega)
  have kept : storedByte (byte.toNat : Int) = byte := by
    have inRange : (byte.toNat : Int).natAbs < 2 ^ 64 := by omega
    rw [storedByte, if_pos inRange, BitVec.ofInt_natCast, BitVec.ofNat_toNat, BitVec.setWidth_eq]
  rw [Nat.div_add_mod] at read
  rw [hexPadded_two small, List.cons_append, List.cons_append, List.nil_append, scanByte,
    List.dropWhile_cons_of_neg (by rw [noSpace]; decide)]
  split
  · rename_i equal
    exact absurd (List.cons.inj equal).1 noMinus
  · rename_i equal
    exact absurd (List.cons.inj equal).1 noPlus
  · rw [read, Option.map_some, kept]

theorem scanBytes_joined (bytes : List (BitVec 8)) :
    scanBytes bytes.length (joined ':' (bytes.map fun byte => hexPadded 2 byte.toNat)) =
      some bytes := by
  induction bytes with
  | nil => rfl
  | cons byte bytes ih =>
    cases bytes with
    | nil =>
      have read := scanByte_hexPadded byte (show NoDigit 16 [] from rfl)
      rw [List.append_nil] at read
      rw [List.map_singleton, joined_singleton, List.length_singleton, scanBytes, read,
        Option.map_some]
    | cons next bytes =>
      have read := @scanByte_hexPadded byte
        (':' :: joined ':' ((next :: bytes).map fun byte => hexPadded 2 byte.toNat)) rfl
      rw [List.length_cons] at ih
      rw [List.map_cons] at ih read
      rw [List.map_cons, List.map_cons, joined_cons_cons, List.length_cons, List.length_cons,
        scanBytes, read]
      simp only [Option.bind_some, ih, Option.map_some]

theorem strToMac_formatEthAddr (mac : BitVec 48) : strToMac (formatEthAddr mac) = some mac := by
  have read := scanBytes_joined (put48 mac)
  rw [length_put48] at read
  rw [strToMac, formatEthAddr, read, Option.map_some, be48_put48_end]

theorem inetAtonLoop_dot {left address part : Nat} (small : part ≤ 0xff) (rest : Chars) :
    inetAtonLoop (left + 2) address (decimal part ++ '.' :: rest) =
      inetAtonLoop (left + 1) (256 * address + part) rest := by
  have read := readMagnitude_decimal part (show Stops ('.' :: rest) from rfl)
  have starts : (decimal part ++ '.' :: rest).head?.any (isDigitOf 10) := by
    obtain ⟨d, tail, below, digits, -⟩ := toDigits_eq_cons (by decide : 1 < 10) part
    rw [decimal, digits]
    exact isDigitOf_digitChar below (by decide)
  have inside : ¬ (left + 1 = 0 ∨ part > 0xff) := by omega
  rw [inetAtonLoop, if_pos starts, decimal, read]
  simp only [Option.bind_some, if_neg inside]

theorem inetAtonLoop_last {address part : Nat} (small : part ≤ 0xff) :
    inetAtonLoop 1 address (decimal part) = some (256 * address + part) := by
  have read := readMagnitude_decimal part (show Stops [] from rfl)
  have starts : (decimal part).head?.any (isDigitOf 10) := by
    obtain ⟨d, tail, below, digits, -⟩ := toDigits_eq_cons (by decide : 1 < 10) part
    rw [decimal, digits]
    exact isDigitOf_digitChar below (by decide)
  have inside : ([] : Chars).head?.all isSpace ∧ part < 256 := ⟨rfl, by omega⟩
  rw [List.append_nil] at read
  rw [inetAtonLoop, if_pos starts, decimal, read]
  simp only [Option.bind_some, Nat.zero_add, Nat.pow_one, if_pos inside]

theorem ofNat_bytes (a b c d : BitVec 8) :
    BitVec.ofNat 32 (256 * (256 * (256 * (256 * 0 + a.toNat) + b.toNat) + c.toNat) + d.toNat) =
      be32 [a, b, c, d] 0 := by
  have word : ∀ x y : BitVec 8, (x ++ y : BitVec 16).toNat = 256 * x.toNat + y.toNat := by
    intro x y
    rw [BitVec.toNat_append, ← Nat.shiftLeft_add_eq_or_of_lt y.isLt, Nat.shiftLeft_eq]
    omega
  have whole : (be32 [a, b, c, d] 0).toNat =
      65536 * (a ++ b : BitVec 16).toNat + (c ++ d : BitVec 16).toNat := by
    have append : be32 [a, b, c, d] 0 = (a ++ b : BitVec 16) ++ (c ++ d : BitVec 16) := rfl
    rw [append, BitVec.toNat_append, ← Nat.shiftLeft_add_eq_or_of_lt (BitVec.isLt _),
      Nat.shiftLeft_eq]
    omega
  apply BitVec.eq_of_toNat_eq
  have := a.isLt
  have := b.isLt
  have := c.isLt
  have := d.isLt
  rw [whole, word, word, BitVec.toNat_ofNat]
  omega

theorem strToIp_formatIp (ip : BitVec 32) : strToIp (formatIp ip) = some ip := by
  have each : ∀ a b c d : BitVec 8,
      strToIp (joined '.' ([a, b, c, d].map fun byte => decimal byte.toNat)) =
        some (be32 [a, b, c, d] 0) := by
    intro a b c d
    have below (byte : BitVec 8) : byte.toNat ≤ 0xff := Nat.le_of_lt_succ byte.isLt
    simp only [List.map_cons, List.map_nil, joined_cons_cons, joined_singleton]
    rw [strToIp, inetAtonLoop_dot (below a), inetAtonLoop_dot (below b),
      inetAtonLoop_dot (below c), inetAtonLoop_last (below d), Option.map_some, ofNat_bytes]
  have read := be32_put32_append [] ip
  rw [List.append_nil] at read
  exact (each _ _ _ _).trans (congrArg some read)

theorem all_toDigits {holds : Char → Bool} (digits : ∀ c, isDigitOf 16 c → holds c) {base : Nat}
    (two : 1 < base) (atMost : base ≤ 16) (n : Nat) : (Nat.toDigits base n).all holds :=
  List.all_eq_true.mpr fun c member =>
    digits c (isDigitOf_mono atMost (isDigitOf_of_mem_toDigits two atMost n c member))

theorem all_hexPadded {holds : Char → Bool} (digits : ∀ c, isDigitOf 16 c → holds c)
    (width n : Nat) : (hexPadded width n).all holds := by
  rw [hexPadded, List.all_append, List.all_replicate, hex,
    all_toDigits digits (by decide) (by decide) n, digits '0' rfl]
  simp

def plainChar (c : Char) : Bool := !separatesQueue c && !isDelimiter c && (c ≠ '(' && c ≠ ')')

def PlainWord (word : Chars) : Prop := word.all plainChar

theorem plainChar_of_isDigitOf (c : Char) (digit : isDigitOf 16 c) : plainChar c := by
  have noDigit : [':', 'q', ',', ' ', '\t', '\r', '\n', '(', ')'].all (!isDigitOf 16 ·) := rfl
  have other : ∀ d ∈ [':', 'q', ',', ' ', '\t', '\r', '\n', '(', ')'], c ≠ d := by
    rintro d member rfl
    have digitless := List.all_eq_true.mp noDigit c member
    rw [digit] at digitless
    cases digitless
  simp only [List.forall_mem_cons] at other
  simp [plainChar, separatesQueue, Odp.isDelimiter, other]

namespace PlainWord

variable {word : Chars} (plain : PlainWord word)

include plain

theorem all {holds : Char → Bool} (each : ∀ c, plainChar c → holds c) : word.all holds :=
  List.all_eq_true.mpr fun c member => each c (List.all_eq_true.mp plain c member)

theorem value : PlainValue word := plain.all fun c chosen => by
  simp only [plainChar, Bool.and_eq_true] at chosen
  exact chosen.1.2

theorem noParens : NoParens word := plain.all fun c chosen => by
  simp only [plainChar, Bool.and_eq_true] at chosen ⊢
  exact chosen.2

theorem noQueue : word.all (!separatesQueue ·) := plain.all fun c chosen => by
  simp only [plainChar, Bool.and_eq_true] at chosen
  exact chosen.1.1

theorem noComma : word.all (· ≠ ',') := plain.all fun c chosen => by
  rw [decide_eq_true_eq]
  rintro rfl
  cases chosen

end PlainWord

theorem plainWord_decimal (n : Nat) : PlainWord (decimal n) :=
  all_toDigits plainChar_of_isDigitOf (by decide) (by decide) n

theorem plainWord_hex (n : Nat) : PlainWord (hex n) :=
  all_toDigits plainChar_of_isDigitOf (by decide) (by decide) n

theorem plainWord_markedHex (n : Nat) : PlainWord (markedHex n) := by
  rw [markedHex]
  split
  · rfl
  · exact plainWord_hex n

theorem plainValue_joined {c : Char} (separator : isDelimiter c = false) {parts : List Chars}
    (each : ∀ part ∈ parts, PlainValue part) : PlainValue (joined c parts) :=
  all_joined (by rw [separator]; rfl) each

theorem plainValue_bytes {c : Char} (separator : isDelimiter c = false) (bytes : List (BitVec 8)) :
    PlainValue (joined c (bytes.map fun byte => hexPadded 2 byte.toNat)) := by
  refine plainValue_joined separator fun part member => ?_
  obtain ⟨byte, -, rfl⟩ := List.mem_map.mp member
  exact PlainWord.value (all_hexPadded plainChar_of_isDigitOf 2 byte.toNat)

theorem plainValue_formatIp (ip : BitVec 32) : PlainValue (formatIp ip) := by
  refine plainValue_joined rfl fun part member => ?_
  obtain ⟨byte, -, rfl⟩ := List.mem_map.mp member
  exact (plainWord_decimal byte.toNat).value

theorem mem_all (code : ActionCode) : code ∈ ActionCode.all := by
  cases code <;> decide

theorem ofputilActionCodeFromName_actionName {code : ActionCode} {name : Chars}
    (named : actionName code = some name) :
    ofputilActionCodeFromName name = some code ∧ name ≠ [] ∧ PlainKey name := by
  have all : ActionCode.all.all (fun code => (actionName code).all fun name =>
      ofputilActionCodeFromName name = some code ∧ name ≠ [] ∧ PlainKey name) = true := by
    decide +kernel
  have each := List.all_eq_true.mp all code (mem_all code)
  rw [named] at each
  exact of_decide_eq_true each

theorem ofputilActionCodeFromName_controllerPort :
    ofputilActionCodeFromName (ofputilFormatPort ofppController) = some .controller := by
  decide +kernel

section Actions

variable (mfParseSubfield : Chars → Option MfSubfield)
  (parseOther : ActionCode → Chars → Option (List Ofpact))

def Parses (text : Chars) (result : Option Ofpact) : Prop :=
  ∃ pairs, Splits text pairs ∧ ∀ nActions more,
    strToOfpactsFrom mfParseSubfield parseOther nActions (pairs ++ more) =
      result.bind fun ofpact =>
        (strToOfpactsFrom mfParseSubfield parseOther (nActions + 1) more).map (ofpact :: ·)

variable {mfParseSubfield parseOther}

theorem parses_pair {text name arg : Chars} {code : ActionCode} {result : Option Ofpact}
    (splits : Splits text [(name, arg)]) (found : ofputilActionCodeFromName name = some code)
    (parsed : parseNamedAction mfParseSubfield parseOther arg code = result.map ([·])) :
    Parses mfParseSubfield parseOther text result := by
  refine ⟨_, splits, fun nActions more => ?_⟩
  rw [List.singleton_append, strToOfpactsFrom]
  simp only [found, parsed]
  cases result <;> rfl

section Named

variable {code : ActionCode} {result : Option Ofpact}

theorem parses_field {name : String} {arg : Chars} (named : actionName code = some name.toList)
    (plain : PlainValue arg)
    (parsed : parseNamedAction mfParseSubfield parseOther arg code = result.map ([·])) :
    Parses mfParseSubfield parseOther (field name arg) result := by
  obtain ⟨found, some_, plainKey⟩ := ofputilActionCodeFromName_actionName named
  exact parses_pair (splits_value (.inl rfl) some_ plainKey plain) found parsed

theorem parses_parens {name arg : Chars} (named : actionName code = some name) (plain : NoParens arg)
    (parsed : parseNamedAction mfParseSubfield parseOther arg code = result.map ([·])) :
    Parses mfParseSubfield parseOther (name ++ '(' :: (arg ++ [')'])) result := by
  obtain ⟨found, some_, plainKey⟩ := ofputilActionCodeFromName_actionName named
  exact parses_pair (splits_parens some_ plainKey plain) found parsed

theorem parses_key {name : Chars} (named : actionName code = some name)
    (parsed : parseNamedAction mfParseSubfield parseOther [] code = result.map ([·])) :
    Parses mfParseSubfield parseOther name result := by
  obtain ⟨found, some_, plainKey⟩ := ofputilActionCodeFromName_actionName named
  exact parses_pair (splits_key some_ plainKey) found parsed

end Named

theorem parses_port {name : Chars} {port : BitVec 16}
    (noAction : ofputilActionCodeFromName name = none)
    (noDrop : strcasecmp name "drop".toList = false) (found : ofputilPortFromString name = some port)
    (named : name ≠ []) (plainKey : PlainKey name) :
    Parses mfParseSubfield parseOther name (some (.output port 0)) := by
  refine ⟨_, splits_key named plainKey, fun nActions more => ?_⟩
  rw [List.singleton_append, strToOfpactsFrom]
  simp only [noAction, noDrop, found, Bool.false_eq_true, if_false, Option.bind_some]

theorem parseMasked_decimal {width : Nat} (narrow : width ≤ 32) {mask x : BitVec width}
    (masked : x &&& ~~~mask = 0) : parseMasked mask (decimal x.toNat) = some x := by
  obtain ⟨value, read, cut⟩ := strToU32_toNat narrow x
  rw [parseMasked, read, Option.bind_some, cut, if_neg (not_not.mpr masked)]

theorem ofputilFormatPort_unnamed {port : BitVec 16} (unnamed : port ∉ reservedPorts) :
    ofputilFormatPort port = decimal port.toNat := by
  have none : namedPorts.find? (·.2 = port) = none := by
    rw [List.find?_eq_none]
    rintro ⟨name, value⟩ member
    have listed : value ∈ reservedPorts := List.mem_map_of_mem (f := Prod.snd) member
    simp only [decide_eq_true_eq]
    rintro rfl
    exact unnamed listed
  rw [ofputilFormatPort, none]

theorem not_mem_decimal {c : Char} (noDigit : isDigitOf 10 c = false) (n : Nat) : c ∉ decimal n := by
  intro member
  have digit := isDigitOf_of_mem_toDigits (by decide) (by decide) n c member
  rw [noDigit] at digit
  cases digit

theorem parseOutput_decimal (port : BitVec 16) :
    parseOutput mfParseSubfield (decimal port.toNat) =
      some (.output port (if port = ofppController then 0xffff else 0)) := by
  obtain ⟨value, read, cut⟩ := strToU32_toNat (by decide) port
  rw [parseOutput, if_neg (not_mem_decimal rfl port.toNat), read, Option.map_some, cut]

theorem parseController_decimal (maxLen : BitVec 16) :
    parseController (decimal maxLen.toNat) = some (.output ofppController maxLen) := by
  have some_ : decimal maxLen.toNat ≠ [] := Nat.toDigits_ne_nil
  have digits : (decimal maxLen.toNat).all (isDigitOf 10) :=
    List.all_eq_true.mpr (isDigitOf_of_mem_toDigits (by decide) (by decide) maxLen.toNat)
  simp only [parseController, controllerArgs, if_neg some_, if_pos digits, strToU16_toNat,
    Option.map_some]
  rfl

theorem parses_controllerField (maxLen : BitVec 16) :
    Parses mfParseSubfield parseOther (field "CONTROLLER" (decimal maxLen.toNat))
      (some (.output ofppController maxLen)) :=
  parses_pair (splits_value (.inl rfl) (by decide) rfl (plainWord_decimal _).value)
    ofputilActionCodeFromName_controllerPort (by rw [parseNamedAction, parseController_decimal])

theorem parses_reservedPort {port : BitVec 16} (reserved : port ∈ reservedPorts)
    (other : port ≠ ofppController) :
    Parses mfParseSubfield parseOther (ofputilFormatPort port) (some (.output port 0)) := by
  simp only [reservedPorts, List.mem_cons, List.not_mem_nil, or_false] at reserved
  obtain rfl | rfl | rfl | rfl | rfl | rfl | rfl | rfl := reserved
  case inr.inr.inr.inr.inr.inl => exact absurd rfl other
  all_goals exact parses_port (by decide +kernel) rfl rfl (by decide) rfl

theorem mem_reservedPorts {port : BitVec 16} (checked : ofputilCheckOutputPort port ofppMax = none)
    (large : ¬ (port.toNat : Int) < ofppMax) : port ∈ reservedPorts := by
  by_contra other
  rw [ofputilCheckOutputPort, if_neg other, if_neg large] at checked
  cases checked

theorem parses_output {port : BitVec 16} (maxLen : BitVec 16)
    (checked : ofputilCheckOutputPort port ofppMax = none) :
    Parses mfParseSubfield parseOther (formatOutput port maxLen)
      (some (.output port (if port = ofppController then maxLen else 0))) := by
  by_cases small : (port.toNat : Int) < ofppMax
  · have other : port ≠ ofppController := by
      rintro rfl
      exact absurd small (by decide)
    rw [formatOutput, if_pos small, if_neg other]
    refine parses_field (show actionName .output = _ from rfl) (plainWord_decimal _).value ?_
    rw [parseNamedAction, parseOutput_decimal, if_neg other]
  · by_cases controller : port = ofppController
    · subst controller
      rw [formatOutput, if_neg small, if_pos rfl, if_pos rfl]
      exact parses_controllerField maxLen
    · rw [formatOutput, if_neg small, if_neg controller, if_neg controller, List.append_nil]
      exact parses_reservedPort (mem_reservedPorts checked small) controller

def remoteReparsed (port : BitVec 16) : Option Ofpact :=
  if (port.toNat : Int) < ofppMax then none
  else some (.output port (if port = ofppController then 0xffff else 0))

theorem parses_remote {port : BitVec 16} (ip : BitVec 32)
    (checked : ofputilCheckOutputPort port ofppMax = none) :
    Parses mfParseSubfield parseOther (formatRemote port ip) (remoteReparsed port) := by
  by_cases small : (port.toNat : Int) < ofppMax
  · have portValue : PlainValue ("port=".toList ++ decimal port.toNat) := by
      rw [PlainValue, List.all_append]
      exact (plainWord_decimal port.toNat).value
    have ipValue : PlainValue ("0x".toList ++ hex ip.toNat) := by
      rw [PlainValue, List.all_append]
      exact (plainWord_hex ip.toNat).value
    have splits : Splits (formatRemote port ip)
        ([("remote".toList, "port=".toList ++ decimal port.toNat)] ++
          [("ip".toList, "0x".toList ++ hex ip.toNat)]) := by
      have both := (splits_value (.inl rfl) (by decide) (by decide : PlainKey "remote".toList)
        portValue).append
        (splits_value (.inr rfl) (by decide) (by decide : PlainKey "ip".toList) ipValue)
      rw [formatRemote, if_pos small]
      simpa using both
    rw [remoteReparsed, if_pos small]
    refine ⟨_, splits, fun nActions more => ?_⟩
    -- nothing is appended for the first pair, and the second one is no action
    rfl
  · rw [formatRemote, if_neg small, remoteReparsed, if_neg small]
    by_cases controller : port = ofppController
    · subst controller
      exact parses_pair (splits_key (by decide) rfl) ofputilActionCodeFromName_controllerPort rfl
    · rw [if_neg controller]
      exact parses_reservedPort (mem_reservedPorts checked small) controller

theorem parseEnqueue_append {port queue : Chars} (named : port ≠ []) (given : queue ≠ [])
    (free : port.all (!separatesQueue ·)) :
    parseEnqueue (port ++ 'q' :: queue) =
      (strToU32 port).bind fun port =>
        (strToU32 queue).map fun queue => .enqueue (port.setWidth 16) queue := by
  have start : (port ++ 'q' :: queue).dropWhile separatesQueue = port ++ 'q' :: queue := by
    cases port with
    | nil => exact absurd rfl named
    | cons c port =>
      have noSeparator : ¬ separatesQueue c = true := by
        simpa using List.all_eq_true.mp free c List.mem_cons_self
      rw [List.cons_append, List.dropWhile_cons_of_neg noSeparator]
  have split := @span_append _ _ ('q' :: queue) free rfl
  have both : ¬ (port = [] ∨ queue = []) := not_or.mpr ⟨named, given⟩
  simp only [parseEnqueue, start, split.1, split.2, List.tail_cons, if_neg both]

theorem decimal_ne_nil (n : Nat) : decimal n ≠ [] := Nat.toDigits_ne_nil

structure PortName (port : BitVec 16) (name : Chars) : Prop where
  named : name ≠ []
  noNumber : strToU32 name = none
  found : ofputilPortFromString name = some port
  plain : PlainWord name

theorem portName_reservedPort {port : BitVec 16} (reserved : port ∈ reservedPorts) :
    PortName port (ofputilFormatPort port) := by
  simp only [reservedPorts, List.mem_cons, List.not_mem_nil, or_false] at reserved
  obtain rfl | rfl | rfl | rfl | rfl | rfl | rfl | rfl := reserved <;>
    exact ⟨by decide, rfl, rfl, rfl⟩

def enqueueReparsed (port : BitVec 16) (queue : BitVec 32) : Option Ofpact :=
  if reservedPorts.contains port then none else some (.enqueue port queue)

theorem parseEnqueue_ofputilFormatPort (port : BitVec 16) (queue : BitVec 32) :
    parseEnqueue (ofputilFormatPort port ++ 'q' :: decimal queue.toNat) =
      enqueueReparsed port queue := by
  by_cases reserved : port ∈ reservedPorts
  · have name := portName_reservedPort reserved
    rw [parseEnqueue_append name.named (decimal_ne_nil _) name.plain.noQueue, name.noNumber,
      enqueueReparsed, if_pos (List.contains_iff_mem.mpr reserved)]
    rfl
  · obtain ⟨value, read, cut⟩ := strToU32_toNat (by decide) port
    obtain ⟨queueValue, queueRead, queueCut⟩ := strToU32_toNat (by decide) queue
    rw [BitVec.setWidth_eq] at queueCut
    rw [ofputilFormatPort_unnamed reserved, parseEnqueue_append (decimal_ne_nil _) (decimal_ne_nil _)
      (plainWord_decimal _).noQueue, read, queueRead, enqueueReparsed,
      if_neg fun listed => reserved (List.contains_iff_mem.mp listed)]
    simp only [Option.bind_some, Option.map_some, cut, queueCut]

theorem plainWord_ofputilFormatPort (port : BitVec 16) : PlainWord (ofputilFormatPort port) := by
  by_cases reserved : port ∈ reservedPorts
  · exact (portName_reservedPort reserved).plain
  · rw [ofputilFormatPort_unnamed reserved]
    exact plainWord_decimal _

theorem parses_enqueue (port : BitVec 16) (queue : BitVec 32) :
    Parses mfParseSubfield parseOther
      (field "enqueue" (ofputilFormatPort port ++ 'q' :: decimal queue.toNat))
      (enqueueReparsed port queue) := by
  have plain : PlainValue (ofputilFormatPort port ++ 'q' :: decimal queue.toNat) := by
    rw [PlainValue, List.all_append, List.all_cons, (plainWord_ofputilFormatPort port).value,
      (plainWord_decimal queue.toNat).value]
    rfl
  refine parses_field (show actionName .enqueue = _ from rfl) plain ?_
  rw [parseNamedAction, parseEnqueue_ofputilFormatPort]

def resubmitReparsed (inPort : BitVec 16) (tableId : BitVec 8) : Option Ofpact :=
  if inPort = ofppInPort ∧ tableId = 255 then none else some (.resubmit inPort tableId none)

theorem ofputilPortFromString_decimal (port : BitVec 16) :
    (ofputilPortFromString (decimal port.toNat)).or
      ((strToU32 (decimal port.toNat)).map (·.setWidth 16)) = some port := by
  by_cases below : port.toNat < 65535
  · have read := @strToInt_decimal port.toNat (by omega)
    have kept : (some (port.toNat : Int)).filter (fun i => 0 ≤ i && i < 65535) =
        some (port.toNat : Int) := by
      rw [Option.filter_some, if_pos]
      rw [Bool.and_eq_true, decide_eq_true_eq, decide_eq_true_eq]
      omega
    rw [ofputilPortFromString, read, kept, Option.some_or, BitVec.ofInt_natCast,
      BitVec.ofNat_toNat, BitVec.setWidth_eq]
  · obtain rfl : port = 0xffff := by
      apply BitVec.eq_of_toNat_eq
      have := port.isLt
      have greatest : (0xffff : BitVec 16).toNat = 65535 := rfl
      omega
    rfl

theorem ofputilPortFromString_ofputilFormatPort (port : BitVec 16) :
    (ofputilPortFromString (ofputilFormatPort port)).or
      ((strToU32 (ofputilFormatPort port)).map (·.setWidth 16)) = some port := by
  by_cases reserved : port ∈ reservedPorts
  · rw [(portName_reservedPort reserved).found, Option.some_or]
  · rw [ofputilFormatPort_unnamed reserved]
    exact ofputilPortFromString_decimal port

theorem ofputilFormatPort_ne_nil (port : BitVec 16) : ofputilFormatPort port ≠ [] := by
  by_cases reserved : port ∈ reservedPorts
  · exact (portName_reservedPort reserved).named
  · rw [ofputilFormatPort_unnamed reserved]
    exact decimal_ne_nil _

theorem parseResubmit_append {inPort table : Chars} (inPortFree : inPort.all (· ≠ ','))
    (tableFree : table.all (· ≠ ',')) {port : BitVec 16} {tableId : BitVec 8}
    (portRead : (if inPort = [] then some ofppInPort
      else (ofputilPortFromString inPort).or ((strToU32 inPort).map (·.setWidth 16))) = some port)
    (tableRead : (if table = [] then some 255 else (strToU32 table).map (·.setWidth 8)) =
      some tableId) :
    parseResubmit (inPort ++ ',' :: table) = resubmitReparsed port tableId := by
  have first := @span_append _ _ (',' :: table) inPortFree rfl
  have second := @span_append _ _ [] tableFree rfl
  rw [List.append_nil] at second
  simp only [parseResubmit, first.1, first.2, List.tail_cons, second.1, portRead, tableRead,
    Option.bind_some]
  rfl

theorem parseResubmit_decimal (port : BitVec 16) :
    parseResubmit (decimal port.toNat) = resubmitReparsed port 255 := by
  have split := @span_append _ _ [] (plainWord_decimal port.toNat).noComma rfl
  rw [List.append_nil] at split
  simp only [parseResubmit, split.1, split.2, if_neg (decimal_ne_nil _), List.tail_nil,
    List.takeWhile_nil, ofputilPortFromString_decimal, Option.bind_some, if_true,
    resubmitReparsed]

theorem parses_resubmit (inPort : BitVec 16) (tableId : BitVec 8) :
    Parses mfParseSubfield parseOther (formatResubmit inPort tableId)
      (resubmitReparsed inPort tableId) := by
  have named : actionName .resubmit = some "resubmit".toList := rfl
  by_cases portOnly : inPort ≠ ofppInPort ∧ tableId = 255
  · rw [formatResubmit, if_pos portOnly]
    refine parses_field named (plainWord_decimal _).value ?_
    rw [parseNamedAction, parseResubmit_decimal, portOnly.2]
  · have portPlain : PlainWord (if inPort ≠ ofppInPort then ofputilFormatPort inPort else []) := by
      split
      · exact plainWord_ofputilFormatPort inPort
      · rfl
    have tablePlain : PlainWord (if tableId ≠ 255 then decimal tableId.toNat else []) := by
      split
      · exact plainWord_decimal _
      · rfl
    have noParens : NoParens ((if inPort ≠ ofppInPort then ofputilFormatPort inPort else []) ++
        ',' :: if tableId ≠ 255 then decimal tableId.toNat else []) := by
      rw [NoParens, List.all_append, List.all_cons, portPlain.noParens, tablePlain.noParens]
      rfl
    have text : formatResubmit inPort tableId = "resubmit".toList ++ '(' ::
        ((if inPort ≠ ofppInPort then ofputilFormatPort inPort else []) ++
          ',' :: (if tableId ≠ 255 then decimal tableId.toNat else []) ++ [')']) := by
      rw [formatResubmit, if_neg portOnly, List.append_assoc, List.cons_append]
      rfl
    rw [text]
    refine parses_parens named noParens ?_
    rw [parseNamedAction, parseResubmit_append portPlain.noComma tablePlain.noComma]
    · by_cases default : inPort = ofppInPort
      · rw [default]
        rfl
      · rw [if_pos default, if_neg (ofputilFormatPort_ne_nil _)]
        exact ofputilPortFromString_ofputilFormatPort inPort
    · by_cases default : tableId = 255
      · rw [default]
        rfl
      · rw [if_pos default, if_neg (decimal_ne_nil _)]
        exact strToU32_map_setWidth (by decide) tableId

def optionPair (name : String) (present : Bool) (value : Chars) : List (Chars × Chars) :=
  if present then [(name.toList, value)] else []

def pairText (pair : Chars × Chars) : Chars := pair.1 ++ '=' :: pair.2

theorem option_eq (name : String) (present : Bool) (value : Chars) :
    option name present value = (optionPair name present value).flatMap (pairText · ++ [',']) := by
  cases present <;> simp [option, optionPair, pairText]

theorem joined_concat (c : Char) (parts : List Chars) (last : Chars) :
    joined c (parts ++ [last]) = parts.flatMap (· ++ [c]) ++ last := by
  induction parts with
  | nil => exact joined_singleton c last
  | cons part parts ih =>
    obtain ⟨next, more, split⟩ : ∃ next more, parts ++ [last] = next :: more :=
      List.exists_cons_of_ne_nil (List.append_ne_nil_of_right_ne_nil _ (List.cons_ne_nil _ _))
    rw [split] at ih
    rw [List.cons_append, split, joined_cons_cons, ih, List.flatMap_cons]
    simp only [List.append_assoc, List.cons_append, List.nil_append]

theorem chomp_pairs {front : Chars} (noComma : front.getLast? ≠ some ',')
    (pairs : List (Chars × Chars)) :
    chomp ',' (front ++ pairs.flatMap (pairText · ++ [','])) =
      front ++ joined ',' (pairs.map pairText) := by
  obtain rfl | ⟨pairs, last, rfl⟩ := pairs.eq_nil_or_concat'
  · rw [List.flatMap_nil, List.append_nil, chomp, if_neg noComma]
    exact (List.append_nil front).symm
  · rw [List.flatMap_append, List.flatMap_singleton, ← List.append_assoc, ← List.append_assoc,
      Odp.chomp_append_singleton, List.map_append, List.map_singleton, joined_concat,
      List.flatMap_map, List.append_assoc]

theorem splits_pairs {pairs : List (Chars × Chars)}
    (plain : ∀ pair ∈ pairs, pair.1 ≠ [] ∧ PlainKey pair.1 ∧ PlainValue pair.2) :
    Splits (joined ',' (pairs.map pairText)) pairs := by
  have each : List.Forall₂ Splits (pairs.map pairText) (pairs.map ([·])) := by
    induction pairs with
    | nil => exact .nil
    | cons pair pairs ih =>
      rw [List.forall_mem_cons] at plain
      obtain ⟨⟨named, plainKey, plainValue⟩, rest⟩ := plain
      exact .cons (splits_value (.inr rfl) named plainKey plainValue) (ih rest)
  have splits := splits_joined each
  rwa [← List.flatMap_def, List.flatMap_singleton'] at splits

theorem forall_mem_optionPair {name : String} {present : Bool} {value : Chars}
    {holds : Chars × Chars → Prop} (pair : present → holds (name.toList, value)) :
    ∀ pair ∈ optionPair name present value, holds pair := by
  cases present with
  | false => simp [optionPair]
  | true => simpa [optionPair] using pair rfl

theorem eq_false_of_optionPair {name : String} {present : Bool} {value : Chars}
    (empty : optionPair name present value = []) : present = false := by
  cases present with
  | false => rfl
  | true => cases empty

theorem foldlM_optionPair {σ : Type} {step : σ → Chars × Chars → Option σ} {state next : σ}
    {name : String} {present : Bool} {value : Chars}
    (taken : present → step state (name.toList, value) = some next)
    (absent : present = false → state = next) :
    (optionPair name present value).foldlM step state = some next := by
  cases present with
  | false =>
    rw [absent rfl]
    rfl
  | true =>
    rw [optionPair, if_pos rfl, List.foldlM_cons, taken rfl]
    rfl

theorem noParens_joined {pairs : List (Chars × Chars)}
    (plain : ∀ pair ∈ pairs, NoParens (pairText pair)) :
    NoParens (joined ',' (pairs.map pairText)) := by
  refine all_joined rfl fun part member => ?_
  obtain ⟨pair, found, rfl⟩ := List.mem_map.mp member
  exact plain pair found

theorem parses_options {name : Chars} {code : ActionCode} {result : Option Ofpact}
    {pairs : List (Chars × Chars)} (named : actionName code = some name)
    (plain : ∀ pair ∈ pairs, (pair.1 ≠ [] ∧ PlainKey pair.1 ∧ PlainValue pair.2) ∧
      NoParens (pairText pair))
    (parsed : ∀ arg, keyValues arg = some pairs → arg = joined ',' (pairs.map pairText) →
      parseNamedAction mfParseSubfield parseOther arg code = result.map ([·])) :
    Parses mfParseSubfield parseOther
      (chomp ',' (name ++ '(' :: pairs.flatMap (pairText · ++ [','])) ++ [')']) result := by
  have noComma : (name ++ ['(']).getLast? ≠ some ',' := by
    rw [List.getLast?_concat]
    decide
  have text : chomp ',' (name ++ '(' :: pairs.flatMap (pairText · ++ [','])) ++ [')'] =
      name ++ '(' :: (joined ',' (pairs.map pairText) ++ [')']) := by
    have chomped := chomp_pairs noComma pairs
    simp only [List.append_assoc, List.cons_append, List.nil_append] at chomped
    rw [chomped]
    simp only [List.append_assoc, List.cons_append]
  rw [text]
  exact parses_parens named (noParens_joined fun pair member => (plain pair member).2)
    (parsed _ (splits_pairs fun pair member => (plain pair member).1).keyValues rfl)

theorem plain_option {name : String} {value : Chars} (named : name.toList ≠ [])
    (plainKey : PlainKey name.toList) (noParens : NoParens name.toList) (plain : PlainWord value) :
    (name.toList ≠ [] ∧ PlainKey name.toList ∧ PlainValue value) ∧
      NoParens (pairText (name.toList, value)) := by
  refine ⟨⟨named, plainKey, plain.value⟩, ?_⟩
  rw [NoParens, pairText, List.all_append, List.all_cons, noParens, plain.noParens]
  rfl

theorem finTimeoutOption_idle (timeouts : BitVec 16 × BitVec 16) (value : Chars) :
    finTimeoutOption timeouts ("idle_timeout".toList, value) =
      (strToU16 value).map fun idle => (idle, timeouts.2) := if_pos rfl

theorem finTimeoutOption_hard (timeouts : BitVec 16 × BitVec 16) (value : Chars) :
    finTimeoutOption timeouts ("hard_timeout".toList, value) =
      (strToU16 value).map fun hard => (timeouts.1, hard) := by
  have other : "hard_timeout".toList ≠ "idle_timeout".toList := by decide
  exact (if_neg other).trans (if_pos rfl)

theorem parses_finTimeout (idle hard : BitVec 16) :
    Parses mfParseSubfield parseOther (printFinTimeout idle hard)
      (some (.finTimeout idle hard)) := by
  have text : printFinTimeout idle hard = chomp ',' ("fin_timeout".toList ++ '(' ::
      (optionPair "idle_timeout" (idle ≠ 0) (decimal idle.toNat) ++
        optionPair "hard_timeout" (hard ≠ 0) (decimal hard.toNat)).flatMap
          (pairText · ++ [','])) ++ [')'] := by
    rw [List.flatMap_append, ← option_eq, ← option_eq]
    rfl
  have idleRead : (optionPair "idle_timeout" (idle ≠ 0) (decimal idle.toNat)).foldlM
      finTimeoutOption (0, 0) = some (idle, 0) := by
    refine foldlM_optionPair (fun _ => ?_) fun zero => ?_
    · rw [finTimeoutOption_idle, strToU16_toNat, Option.map_some]
    · rw [not_not.mp (of_decide_eq_false zero)]
  have hardRead : (optionPair "hard_timeout" (hard ≠ 0) (decimal hard.toNat)).foldlM
      finTimeoutOption (idle, 0) = some (idle, hard) := by
    refine foldlM_optionPair (fun _ => ?_) fun zero => ?_
    · rw [finTimeoutOption_hard, strToU16_toNat, Option.map_some]
    · rw [not_not.mp (of_decide_eq_false zero)]
  rw [text]
  refine parses_options (show actionName .finTimeout = _ from rfl) ?_ ?_
  · rw [List.forall_mem_append]
    exact ⟨forall_mem_optionPair fun _ => plain_option (by decide) rfl rfl (plainWord_decimal _),
      forall_mem_optionPair fun _ => plain_option (by decide) rfl rfl (plainWord_decimal _)⟩
  · intro arg split _
    rw [parseNamedAction, parseFinTimeout, split, Option.bind_some, List.foldlM_append, idleRead]
    simp only [Option.bind_eq_bind, Option.bind_some, hardRead, Option.map_some]

theorem controllerOption_reason (args : ControllerArgs) (value : Chars) :
    controllerOption args ("reason".toList, value) =
      (ofputilPacketInReasonFromString value).map fun reason => { args with reason } := if_pos rfl

theorem controllerOption_maxLen (args : ControllerArgs) (value : Chars) :
    controllerOption args ("max_len".toList, value) =
      (strToU16 value).map fun maxLen => { args with maxLen } := by
  have other : "max_len".toList ≠ "reason".toList := by decide
  exact (if_neg other).trans (if_pos rfl)

theorem controllerOption_id (args : ControllerArgs) (value : Chars) :
    controllerOption args ("id".toList, value) =
      (strToU16 value).map fun controllerId => { args with controllerId } := by
  have other : "id".toList ≠ "reason".toList := by decide
  have another : "id".toList ≠ "max_len".toList := by decide
  exact (if_neg other).trans ((if_neg another).trans (if_pos rfl))

theorem ofputilPacketInReasonFromString_decimal (n : Nat) :
    ofputilPacketInReasonFromString (decimal n) = none := by
  have noLetter : ∀ d < 10, ∀ i < 3,
      (ofputilPacketInReasonToString i).head?.map Char.toLower ≠
        some (Nat.digitChar d).toLower := by decide
  obtain ⟨d, tail, small, digits, -⟩ := toDigits_eq_cons (by decide : 1 < 10) n
  have none : (List.range ofprNReasons).find? (fun i =>
      strcasecmp (decimal n) (ofputilPacketInReasonToString i)) = none := by
    rw [List.find?_eq_none]
    intro i member
    have other := noLetter d small i (List.mem_range.mp member)
    rw [strcasecmp, decide_eq_true_eq, decimal, digits, List.map_cons]
    intro same
    have heads := congrArg List.head? same
    rw [List.head?_cons, List.head?_map] at heads
    exact other heads.symm
  rw [ofputilPacketInReasonFromString, none, Option.map_none]

theorem ofputilPacketInReasonFromString_toString {reason : BitVec 8} :
    ofputilPacketInReasonFromString (ofputilPacketInReasonToString reason.toNat) =
      if ofprNReasons ≤ reason.toNat then none else some reason := by
  by_cases large : ofprNReasons ≤ reason.toNat
  · have number : ofputilPacketInReasonToString reason.toNat = decimal reason.toNat := by
      rw [ofprNReasons] at large
      unfold ofputilPacketInReasonToString
      split <;> first | omega | rfl
    rw [if_pos large, number, ofputilPacketInReasonFromString_decimal]
  · have each : ∀ n < 3, ofputilPacketInReasonFromString (ofputilPacketInReasonToString n) =
        some (BitVec.ofNat 8 n) := by decide
    rw [if_neg large, each _ (Nat.lt_of_not_le large), BitVec.ofNat_toNat, BitVec.setWidth_eq]

theorem plainWord_ofputilPacketInReasonToString (n : Nat) :
    PlainWord (ofputilPacketInReasonToString n) := by
  unfold ofputilPacketInReasonToString
  split
  · rfl
  · rfl
  · rfl
  · exact plainWord_decimal n

def controllerReparsed (maxLen controllerId : BitVec 16) (reason : BitVec 8) : Option Ofpact :=
  if ofprNReasons ≤ reason.toNat then none
  else if reason = ofprAction ∧ controllerId = 0 then some (.output ofppController maxLen)
  else some (.controller maxLen controllerId reason)

def controllerPairs (maxLen controllerId : BitVec 16) (reason : BitVec 8) : List (Chars × Chars) :=
  optionPair "reason" (reason ≠ ofprAction) (ofputilPacketInReasonToString reason.toNat) ++
    (optionPair "max_len" (maxLen ≠ 0xffff) (decimal maxLen.toNat) ++
      optionPair "id" (controllerId ≠ 0) (decimal controllerId.toNat))

theorem foldlM_controllerPairs (maxLen controllerId : BitVec 16) (reason : BitVec 8) :
    (controllerPairs maxLen controllerId reason).foldlM controllerOption ⟨ofprAction, 0, 0xffff⟩ =
      if ofprNReasons ≤ reason.toNat then none else some ⟨reason, controllerId, maxLen⟩ := by
  have rest : (optionPair "max_len" (maxLen ≠ 0xffff) (decimal maxLen.toNat) ++
      optionPair "id" (controllerId ≠ 0) (decimal controllerId.toNat)).foldlM controllerOption
        ⟨reason, 0, 0xffff⟩ = some ⟨reason, controllerId, maxLen⟩ := by
    have maxLenRead : (optionPair "max_len" (maxLen ≠ 0xffff) (decimal maxLen.toNat)).foldlM
        controllerOption ⟨reason, 0, 0xffff⟩ = some ⟨reason, 0, maxLen⟩ := by
      refine foldlM_optionPair (fun _ => ?_) fun default => ?_
      · rw [controllerOption_maxLen, strToU16_toNat, Option.map_some]
      · rw [not_not.mp (of_decide_eq_false default)]
    have idRead : (optionPair "id" (controllerId ≠ 0) (decimal controllerId.toNat)).foldlM
        controllerOption ⟨reason, 0, maxLen⟩ = some ⟨reason, controllerId, maxLen⟩ := by
      refine foldlM_optionPair (fun _ => ?_) fun zero => ?_
      · rw [controllerOption_id, strToU16_toNat, Option.map_some]
      · rw [not_not.mp (of_decide_eq_false zero)]
    rw [List.foldlM_append, maxLenRead]
    exact idRead
  rw [controllerPairs, List.foldlM_append]
  by_cases large : ofprNReasons ≤ reason.toNat
  · have other : reason ≠ ofprAction := by
      rintro rfl
      exact absurd large (by decide)
    have gone : (optionPair "reason" (reason ≠ ofprAction)
        (ofputilPacketInReasonToString reason.toNat)).foldlM controllerOption
          ⟨ofprAction, 0, 0xffff⟩ = none := by
      rw [optionPair, if_pos (decide_eq_true other), List.foldlM_cons, controllerOption_reason,
        ofputilPacketInReasonFromString_toString, if_pos large]
      rfl
    rw [if_pos large, gone]
    rfl
  · have reasonRead : (optionPair "reason" (reason ≠ ofprAction)
        (ofputilPacketInReasonToString reason.toNat)).foldlM controllerOption
          ⟨ofprAction, 0, 0xffff⟩ = some ⟨reason, 0, 0xffff⟩ := by
      refine foldlM_optionPair (fun _ => ?_) fun action => ?_
      · rw [controllerOption_reason, ofputilPacketInReasonFromString_toString, if_neg large,
          Option.map_some]
      · rw [not_not.mp (of_decide_eq_false action)]
    rw [if_neg large, reasonRead]
    exact rest

theorem controllerPairs_ne_nil {maxLen controllerId : BitVec 16} {reason : BitVec 8}
    (other : ¬ (reason = ofprAction ∧ controllerId = 0)) :
    controllerPairs maxLen controllerId reason ≠ [] := by
  intro empty
  obtain ⟨noReason, rest⟩ := List.append_eq_nil_iff.mp empty
  obtain ⟨-, noId⟩ := List.append_eq_nil_iff.mp rest
  exact other ⟨not_not.mp (of_decide_eq_false (eq_false_of_optionPair noReason)),
    not_not.mp (of_decide_eq_false (eq_false_of_optionPair noId))⟩

theorem not_all_digits_pairs {pairs : List (Chars × Chars)} (some_ : pairs ≠ []) :
    joined ',' (pairs.map pairText) ≠ [] ∧
      (joined ',' (pairs.map pairText)).all (isDigitOf 10) = false := by
  obtain ⟨pair, more, rfl⟩ := List.exists_cons_of_ne_nil some_
  rw [List.map_cons, joined_cons, pairText]
  refine ⟨by simp, ?_⟩
  have noDigit : isDigitOf 10 '=' = false := rfl
  simp [List.all_append, noDigit]

theorem parses_controller (maxLen controllerId : BitVec 16) (reason : BitVec 8) :
    Parses mfParseSubfield parseOther (formatController maxLen controllerId reason)
      (controllerReparsed maxLen controllerId reason) := by
  by_cases plain : reason = ofprAction ∧ controllerId = 0
  · obtain ⟨rfl, rfl⟩ := plain
    exact parses_controllerField maxLen
  · have text : formatController maxLen controllerId reason =
        chomp ',' ("controller".toList ++ '(' ::
          (controllerPairs maxLen controllerId reason).flatMap (pairText · ++ [','])) ++ [')'] := by
      rw [formatController, if_neg plain, controllerPairs, List.flatMap_append, List.flatMap_append,
        ← option_eq, ← option_eq, ← option_eq]
      rfl
    rw [text]
    refine parses_options (show actionName .controller = _ from rfl) ?_ ?_
    · rw [controllerPairs, List.forall_mem_append, List.forall_mem_append]
      exact ⟨forall_mem_optionPair fun _ => plain_option (by decide) rfl rfl
          (plainWord_ofputilPacketInReasonToString _),
        forall_mem_optionPair fun _ => plain_option (by decide) rfl rfl (plainWord_decimal _),
        forall_mem_optionPair fun _ => plain_option (by decide) rfl rfl (plainWord_decimal _)⟩
    · intro arg split equal
      obtain ⟨some_, noDigits⟩ := not_all_digits_pairs (controllerPairs_ne_nil plain)
      rw [← equal] at some_ noDigits
      have args : controllerArgs arg =
          if ofprNReasons ≤ reason.toNat then none else some ⟨reason, controllerId, maxLen⟩ := by
        rw [controllerArgs, if_neg some_, noDigits, if_neg Bool.false_ne_true, split,
          Option.bind_some, foldlM_controllerPairs]
      rw [parseNamedAction, parseController, args, controllerReparsed]
      by_cases large : ofprNReasons ≤ reason.toNat
      · rw [if_pos large, if_pos large, Option.map_none]
      · rw [if_neg large, if_neg large, Option.map_some, if_neg plain, if_neg plain]

def decTtlReparsed (cntIds : List (BitVec 16)) (compat : Option ActionCode) : Option Ofpact :=
  if compat = some .decTtlCntIds ∧ cntIds ≠ [] then some (.decTtl cntIds (some .decTtlCntIds))
  else some (.decTtl [0] (some .decTtl))

theorem atoi16_decimal (id : BitVec 16) : atoi16 (decimal id.toNat) = id := by
  have read := readInteger_toDigits (by decide : 1 < 10) (by decide) id.toNat
    (show NoDigit 10 [] from rfl)
  rw [List.append_nil] at read
  rw [atoi16, decimal, read, Option.map_some, Option.getD_some, Odp.stored_toNat (by decide),
    BitVec.setWidth_eq]

theorem splitOnP_joined {words : List Chars} (some_ : words ≠ [])
    (plain : ∀ word ∈ words, PlainWord word) :
    (joined ',' words).splitOnP (fun c => c = ',' || c = ' ') = words := by
  have free : ∀ word, PlainWord word → ∀ c ∈ word, (decide (c = ',') || decide (c = ' ')) = false := by
    intro word plain c member
    have chosen := List.all_eq_true.mp plain c member
    rw [Bool.or_eq_false_iff, decide_eq_false_iff_not, decide_eq_false_iff_not]
    constructor <;> rintro rfl <;> cases chosen
  induction words with
  | nil => exact absurd rfl some_
  | cons word words ih =>
    rw [List.forall_mem_cons] at plain
    cases words with
    | nil =>
      rw [joined_singleton]
      exact List.splitOnP_eq_singleton (free word plain.1)
    | cons next words =>
      rw [joined_cons_cons, List.splitOnP_append_cons_of_forall_mem (free word plain.1) _ rfl,
        ih (List.cons_ne_nil _ _) plain.2]

theorem parseDecTtl_joined {cntIds : List (BitVec 16)} (some_ : cntIds ≠ []) :
    parseDecTtl (joined ',' (cntIds.map fun id => decimal id.toNat)) =
      some (.decTtl cntIds (some .decTtlCntIds)) := by
  have given : (cntIds.map fun id => decimal id.toNat) ≠ [] := by simpa using some_
  have plain : ∀ word ∈ cntIds.map (fun id => decimal id.toNat),
      PlainWord word ∧ word ≠ [] := by
    intro word member
    obtain ⟨id, -, rfl⟩ := List.mem_map.mp member
    exact ⟨plainWord_decimal _, decimal_ne_nil _⟩
  have tokens := splitOnP_joined given fun word member => (plain word member).1
  have printed : joined ',' (cntIds.map fun id => decimal id.toNat) ≠ [] := by
    intro empty
    rw [empty] at tokens
    exact (plain [] (by rw [← tokens]; exact List.mem_singleton_self [])).2 rfl
  have kept : (cntIds.map fun id => decimal id.toNat).filter (· ≠ []) =
      cntIds.map fun id => decimal id.toNat :=
    List.filter_eq_self.mpr fun word member => decide_eq_true (plain word member).2
  have back : (cntIds.map fun id => decimal id.toNat).map atoi16 = cntIds := by
    rw [List.map_map]
    exact (List.map_congr_left fun id _ => atoi16_decimal id).trans (List.map_id _)
  rw [parseDecTtl, if_neg printed]
  simp only [tokens, kept, if_neg given, back]

theorem parses_decTtl (cntIds : List (BitVec 16)) (compat : Option ActionCode) :
    Parses mfParseSubfield parseOther (printDecTtl cntIds compat) (decTtlReparsed cntIds compat) := by
  have named : actionName .decTtl = some "dec_ttl".toList := rfl
  unfold printDecTtl
  by_cases listed : compat = some .decTtlCntIds
  · rw [if_pos listed, decTtlReparsed]
    have plain : ∀ word ∈ cntIds.map (fun id => decimal id.toNat), PlainWord word := by
      intro word member
      obtain ⟨id, -, rfl⟩ := List.mem_map.mp member
      exact plainWord_decimal _
    refine parses_parens named (all_joined rfl fun word member => (plain word member).noParens) ?_
    rw [parseNamedAction]
    by_cases some_ : cntIds = []
    · rw [some_, if_neg fun both => both.2 rfl]
      rfl
    · rw [parseDecTtl_joined some_, if_pos ⟨listed, some_⟩]
  · rw [if_neg listed, List.append_nil, decTtlReparsed, if_neg fun both => listed both.1]
    exact parses_key named rfl

def textTypes : List OfpactType :=
  [.output, .remote, .enqueue, .controller, .setVlanVid, .setVlanPcp, .stripVlan, .setEthSrc,
    .setEthDst, .setIpv4Src, .setIpv4Dst, .setIpv4Dscp, .setL4SrcPort, .setL4DstPort, .setTunnel,
    .setQueue, .popQueue, .resubmit, .note, .decTtl, .finTimeout, .exit]

def reparsed : Ofpact → Option Ofpact
  | .output port maxLen => some (.output port (if port = ofppController then maxLen else 0))
  | .remote port _ => remoteReparsed port
  | .controller maxLen controllerId reason => controllerReparsed maxLen controllerId reason
  | .enqueue port queue => enqueueReparsed port queue
  | .resubmit inPort tableId _ => resubmitReparsed inPort tableId
  | .decTtl cntIds compat => decTtlReparsed cntIds compat
  | .setTunnel tunId compat =>
    some (.setTunnel tunId (some (if tunId.toNat > 2 ^ 32 - 1 ∨ compat = some .setTunnel64
      then .setTunnel64 else .setTunnel)))
  | ofpact => some ofpact

theorem parses_setTunnel (tunId : BitVec 64) (compat : Option ActionCode) :
    Parses mfParseSubfield parseOther (formatSetTunnel tunId compat)
      (reparsed (.setTunnel tunId compat)) := by
  have read := strToU64_markedHex tunId
  have plain := (plainWord_markedHex tunId.toNat).value
  rw [formatSetTunnel, reparsed]
  split
  · exact parses_field (show actionName .setTunnel64 = _ from rfl) plain
      (by rw [parseNamedAction, read]; rfl)
  · exact parses_field (show actionName .setTunnel = _ from rfl) plain
      (by rw [parseNamedAction, read]; rfl)

theorem parses_ofpactFormat (formatOther : Ofpact → Chars) {ofpact : Ofpact}
    (carried : ofpact.Carried) (listed : ofpact.type ∈ textTypes) :
    Parses mfParseSubfield parseOther (ofpactFormat formatOther ofpact) (reparsed ofpact) := by
  cases ofpact
  case output port maxLen => exact parses_output maxLen carried
  case remote port ip => exact parses_remote ip carried
  case controller maxLen controllerId reason => exact parses_controller maxLen controllerId reason
  case enqueue port queue => exact parses_enqueue port queue
  case resubmit inPort tableId compat => exact parses_resubmit inPort tableId
  case decTtl cntIds compat => exact parses_decTtl cntIds compat
  case setTunnel tunId compat => exact parses_setTunnel tunId compat
  case finTimeout idle hard => exact parses_finTimeout idle hard
  case setVlanVid vlanVid =>
    exact parses_field (show actionName .setVlanVid = _ from rfl) (plainWord_decimal _).value
      (by rw [parseNamedAction, parseMasked_decimal (by decide) carried]; rfl)
  case setVlanPcp vlanPcp =>
    exact parses_field (show actionName .setVlanPcp = _ from rfl) (plainWord_decimal _).value
      (by rw [parseNamedAction, parseMasked_decimal (by decide) carried]; rfl)
  case setIpv4Dscp dscp =>
    exact parses_field (show actionName .setNwTos = _ from rfl) (plainWord_decimal _).value
      (by rw [parseNamedAction, parseMasked_decimal (by decide) carried]; rfl)
  case setEthSrc mac =>
    exact parses_field (show actionName .setDlSrc = _ from rfl) (plainValue_bytes rfl _)
      (by rw [parseNamedAction, strToMac_formatEthAddr]; rfl)
  case setEthDst mac =>
    exact parses_field (show actionName .setDlDst = _ from rfl) (plainValue_bytes rfl _)
      (by rw [parseNamedAction, strToMac_formatEthAddr]; rfl)
  case setIpv4Src ipv4 =>
    exact parses_field (show actionName .setNwSrc = _ from rfl) (plainValue_formatIp _)
      (by rw [parseNamedAction, strToIp_formatIp]; rfl)
  case setIpv4Dst ipv4 =>
    exact parses_field (show actionName .setNwDst = _ from rfl) (plainValue_formatIp _)
      (by rw [parseNamedAction, strToIp_formatIp]; rfl)
  case setL4SrcPort port =>
    obtain ⟨value, read, cut⟩ := strToU32_toNat (by decide) port
    exact parses_field (show actionName .setTpSrc = _ from rfl) (plainWord_decimal _).value
      (by rw [parseNamedAction, read, Option.map_some, cut]; rfl)
  case setL4DstPort port =>
    obtain ⟨value, read, cut⟩ := strToU32_toNat (by decide) port
    exact parses_field (show actionName .setTpDst = _ from rfl) (plainWord_decimal _).value
      (by rw [parseNamedAction, read, Option.map_some, cut]; rfl)
  case setQueue queueId =>
    have read := strToUnsigned_decimal 32 (Nat.lt_trans queueId.isLt (by decide))
    rw [BitVec.ofNat_toNat, BitVec.setWidth_eq] at read
    exact parses_field (show actionName .setQueue = _ from rfl) (plainWord_decimal _).value
      (by rw [parseNamedAction, strToU32, read]; rfl)
  case note data =>
    exact parses_field (show actionName .note = _ from rfl) (plainValue_bytes rfl _)
      (by rw [parseNamedAction, parseNote, noteBytes_joined]; rfl)
  case stripVlan => exact parses_key (show actionName .stripVlan = _ from rfl) rfl
  case popQueue => exact parses_key (show actionName .popQueue = _ from rfl) rfl
  case exit => exact parses_key (show actionName .exit = _ from rfl) rfl
  all_goals exact absurd listed (by simp [Ofpact.type, textTypes])

end Actions

section Lists

variable (formatOther : Ofpact → Chars) (mfParseSubfield : Chars → Option MfSubfield)
  (parseOther : ActionCode → Chars → Option (List Ofpact))

/-- An action without what the text does not have to keep: `compat`, the length of outputs to other
ports than `OFPP_CONTROLLER`, and whether an output to `OFPP_CONTROLLER` is a `CONTROLLER` action. -/
def canonical : Ofpact → Ofpact
  | .output port maxLen => .output port (if port = ofppController then maxLen else 0)
  | .controller maxLen controllerId reason =>
    if reason = ofprAction ∧ controllerId = 0 then .output ofppController maxLen
    else .controller maxLen controllerId reason
  | .decTtl cntIds _ => .decTtl cntIds none
  | .setTunnel tunId _ => .setTunnel tunId none
  | .resubmit inPort tableId _ => .resubmit inPort tableId none
  | ofpact => ofpact

def Readable : Ofpact → Prop
  | .remote _ _ => False
  | .enqueue port _ => port ∉ reservedPorts
  | .controller _ _ reason => reason.toNat < ofprNReasons
  | .resubmit inPort tableId _ => ¬ (inPort = ofppInPort ∧ tableId = 255)
  | .decTtl cntIds _ => cntIds ≠ []
  | _ => True

def ReadBack (ofpacts : List Ofpact) : Prop :=
  ∃ parsed, strToOfpacts mfParseSubfield parseOther
      ((ofpactsFormat formatOther ofpacts).drop "actions=".length) = some parsed ∧
    parsed.map canonical = ofpacts.map canonical

theorem strToOfpacts_joined {ofpacts : List Ofpact}
    (parses : ∀ ofpact ∈ ofpacts,
      Parses mfParseSubfield parseOther (ofpactFormat formatOther ofpact) (reparsed ofpact)) :
    strToOfpacts mfParseSubfield parseOther (joined ',' (ofpacts.map (ofpactFormat formatOther))) =
      ofpacts.mapM reparsed := by
  have walk : ∃ pairs, List.Forall₂ Splits (ofpacts.map (ofpactFormat formatOther)) pairs ∧
      ∀ nActions, strToOfpactsFrom mfParseSubfield parseOther nActions pairs.flatten =
        ofpacts.mapM reparsed := by
    induction ofpacts with
    | nil => exact ⟨[], .nil, fun _ => rfl⟩
    | cons ofpact ofpacts ih =>
      rw [List.forall_mem_cons] at parses
      obtain ⟨⟨first, splits, parsed⟩, rest⟩ := parses
      obtain ⟨pairs, more, walked⟩ := ih rest
      refine ⟨first :: pairs, .cons splits more, fun nActions => ?_⟩
      rw [List.flatten_cons, parsed, walked, List.mapM_cons]
      cases reparsed ofpact with
      | none => rfl
      | some back => cases ofpacts.mapM reparsed <;> rfl
  obtain ⟨pairs, splits, walked⟩ := walk
  rw [strToOfpacts, (splits_joined splits).keyValues, Option.bind_some, walked]

theorem strToOfpacts_drop :
    strToOfpacts mfParseSubfield parseOther "drop".toList = some [] := by
  have splits : Splits "drop".toList [("drop".toList, [])] := splits_key (by decide) (by decide)
  have noAction : ofputilActionCodeFromName "drop".toList = none := by decide +kernel
  rw [strToOfpacts, splits.keyValues, Option.bind_some, strToOfpactsFrom]
  simp only [noAction]
  rfl

theorem drop_ofpactsFormat (ofpacts : List Ofpact) :
    (ofpactsFormat formatOther ofpacts).drop "actions=".length =
      if ofpacts = [] then "drop".toList
      else joined ',' (ofpacts.map (ofpactFormat formatOther)) := rfl

theorem mapM_reparsed_iff (ofpacts : List Ofpact) :
    (∃ parsed, ofpacts.mapM reparsed = some parsed ∧
        parsed.map canonical = ofpacts.map canonical) ↔
      ∀ ofpact ∈ ofpacts, (reparsed ofpact).map canonical = some (canonical ofpact) := by
  induction ofpacts with
  | nil => exact ⟨fun _ => by simp, fun _ => ⟨[], rfl, rfl⟩⟩
  | cons ofpact ofpacts ih =>
    rw [List.forall_mem_cons, ← ih, List.mapM_cons]
    cases back : reparsed ofpact with
    | none => simp
    | some first =>
      simp only [Option.bind_eq_bind, Option.bind_some, Option.map_some, Option.some.injEq]
      constructor
      · rintro ⟨parsed, found, same⟩
        cases rest : ofpacts.mapM reparsed with
        | none =>
          rw [rest] at found
          cases found
        | some more =>
          rw [rest] at found
          obtain rfl := Option.some.inj found
          obtain ⟨head, tail⟩ := List.cons.inj same
          exact ⟨head, more, rfl, tail⟩
      · rintro ⟨head, more, rest, tail⟩
        refine ⟨first :: more, ?_, ?_⟩
        · rw [rest]
          rfl
        · rw [List.map_cons, List.map_cons, head, tail]

/-- What the decoder returns: the arguments fit into a wire action, and the list of controllers of a
`DEC_TTL` action comes from `NXAST_DEC_TTL_CNT_IDS` or has just the controller 0. -/
def Decoded (ofpact : Ofpact) : Prop :=
  ofpact.Carried ∧ ∀ cntIds compat, ofpact = .decTtl cntIds compat →
    compat = some .decTtlCntIds ∨ compat = some .decTtl ∧ cntIds = [0]

theorem decTtl_of_ofpactFromCode {a : List (BitVec 8)} {code : ActionCode}
    {cntIds : List (BitVec 16)} {compat : Option ActionCode} (aligned : actionLen a % 8 = 0)
    (lenOk : code.lenOk (actionLen a))
    (decoded : ofpactFromCode a code = .ok (some (.decTtl cntIds compat))) :
    compat = some .decTtlCntIds ∨ compat = some .decTtl ∧ cntIds = [0] := by
  obtain ⟨-, none⟩ | ⟨-, ofpact, same, type, -⟩ := ofpactFromCode_suits aligned lenOk decoded
  · cases none
  · obtain rfl := Option.some.inj same
    cases code
    case decTtl =>
      obtain ⟨rfl, rfl⟩ := Ofpact.decTtl.inj (Option.some.inj (Except.ok.inj decoded))
      exact .inr ⟨rfl, rfl⟩
    case decTtlCntIds =>
      obtain ⟨ofpact, returned, same⟩ := map_some_eq_ok.mp decoded
      obtain rfl := Option.some.inj same
      rw [decTtlCntIdsFromOpenflow, reject_eq_ok, reject_eq_ok] at returned
      obtain ⟨-, rfl⟩ := Ofpact.decTtl.inj (Except.ok.inj returned.2.2)
      exact .inl rfl
    all_goals cases type

theorem decoded_of_ofpactsPullOpenflow10 {openflow : List (BitVec 8)} {actionsLen : Nat}
    {ofpacts : List Ofpact}
    (returned : ofpactsPullOpenflow10 openflow actionsLen = some ⟨none, ofpacts⟩) :
    ∀ ofpact ∈ ofpacts, Decoded ofpact := by
  refine forall_mem_of_ofpactsPullOpenflow10 (fun {remote} suits => ?_) ?_ returned
  · refine ⟨suits.2, ?_⟩
    rintro cntIds compat rfl
    cases suits.1
  · intro a emitted aligned decoded ofpact member
    refine ⟨ofpactFromOpenflow10_carried aligned decoded ofpact member, ?_⟩
    rintro cntIds compat rfl
    rw [Option.mem_def] at member
    subst member
    rw [ofpactFromOpenflow10] at decoded
    split at decoded
    · cases decoded
    · rename_i code codeEq
      exact decTtl_of_ofpactFromCode aligned (decodeOpenflow10Action_eq_ok codeEq).2.1 decoded

theorem reparsed_iff {ofpact : Ofpact} (decoded : Decoded ofpact) :
    (reparsed ofpact).map canonical = some (canonical ofpact) ↔ Readable ofpact := by
  cases ofpact
  case output port maxLen =>
    refine iff_of_true ?_ trivial
    simp only [reparsed, Option.map_some, canonical]
    by_cases controller : port = ofppController <;> simp [controller]
  case remote port ip =>
    refine iff_of_false (fun same => ?_) id
    rw [reparsed, remoteReparsed] at same
    split at same <;> cases same
  case controller maxLen controllerId reason =>
    rw [reparsed, controllerReparsed, Readable, ← Nat.not_le]
    by_cases large : ofprNReasons ≤ reason.toNat
    · rw [if_pos large]
      exact iff_of_false nofun (not_not.mpr large)
    · refine iff_of_true ?_ large
      rw [if_neg large]
      by_cases plain : reason = ofprAction ∧ controllerId = 0
      · rw [if_pos plain, Option.map_some, canonical, canonical, if_pos plain, if_pos rfl]
      · rw [if_neg plain, Option.map_some]
  case enqueue port queue =>
    rw [reparsed, enqueueReparsed, Readable]
    by_cases reserved : port ∈ reservedPorts
    · rw [if_pos (List.contains_iff_mem.mpr reserved)]
      exact iff_of_false nofun (not_not.mpr reserved)
    · rw [if_neg fun listed => reserved (List.contains_iff_mem.mp listed)]
      exact iff_of_true rfl reserved
  case resubmit inPort tableId compat =>
    rw [reparsed, resubmitReparsed, Readable]
    by_cases nothing : inPort = ofppInPort ∧ tableId = 255
    · rw [if_pos nothing]
      exact iff_of_false nofun (not_not.mpr nothing)
    · rw [if_neg nothing]
      exact iff_of_true rfl nothing
  case decTtl cntIds compat =>
    rw [reparsed, decTtlReparsed, Readable]
    obtain rfl | ⟨rfl, rfl⟩ := decoded.2 cntIds compat rfl
    · by_cases some_ : cntIds = []
      · subst some_
        exact iff_of_false (by decide) (not_not.mpr rfl)
      · rw [if_pos ⟨rfl, some_⟩]
        exact iff_of_true rfl some_
    · exact iff_of_true rfl (List.cons_ne_nil _ _)
  all_goals exact iff_of_true rfl trivial

/-- A decoded list of actions can be read back from its text exactly if no action of it is a
`REMOTE`, an `ENQUEUE` to a reserved port, a `CONTROLLER` with an unknown reason, a `RESUBMIT`
without port and table or a `DEC_TTL` without controllers. -/
theorem ofpacts_readBack_iff {openflow : List (BitVec 8)} {actionsLen : Nat} {ofpacts : List Ofpact}
    (decoded : ofpactsPullOpenflow10 openflow actionsLen = some ⟨none, ofpacts⟩)
    (listed : ∀ ofpact ∈ ofpacts, ofpact.type ∈ textTypes) :
    ReadBack formatOther mfParseSubfield parseOther ofpacts ↔
      ∀ ofpact ∈ ofpacts, Readable ofpact := by
  have each := decoded_of_ofpactsPullOpenflow10 decoded
  have parsed : strToOfpacts mfParseSubfield parseOther
      ((ofpactsFormat formatOther ofpacts).drop "actions=".length) = ofpacts.mapM reparsed := by
    rw [drop_ofpactsFormat]
    by_cases empty : ofpacts = []
    · rw [if_pos empty, empty]
      exact strToOfpacts_drop mfParseSubfield parseOther
    · rw [if_neg empty]
      exact strToOfpacts_joined formatOther mfParseSubfield parseOther fun ofpact member =>
        parses_ofpactFormat formatOther (each ofpact member).1 (listed ofpact member)
  rw [ReadBack, parsed, mapM_reparsed_iff]
  exact forall₂_congr fun ofpact member => reparsed_iff (each ofpact member)

/-- Three wire actions: an output to port 1, the tag 5, and no tag. -/
def sampleWire : List (BitVec 8) :=
  [0, 0, 0, 8, 0, 1, 0, 0, 0, 1, 0, 8, 0, 5, 0, 0, 0, 3, 0, 8, 0, 0, 0, 0]

theorem ofpacts_readBack_sampleWire :
    ofpactsPullOpenflow10 sampleWire 24 = some ⟨none, [.output 1 0, .setVlanVid 5, .stripVlan]⟩ ∧
      (ReadBack (fun _ => []) (fun _ => none) (fun _ _ => none)
          [.output 1 0, .setVlanVid 5, .stripVlan] ↔
        ∀ ofpact ∈ [.output 1 0, .setVlanVid 5, .stripVlan], Readable ofpact) :=
  ⟨by decide, ofpacts_readBack_iff _ _ _ (by decide : ofpactsPullOpenflow10 sampleWire 24 = _)
    (by decide)⟩

/-- The text `remote:port=5,ip=0xa000001` is not parsed: behind the comma there is no action. -/
theorem not_ofpacts_readBack_remote :
    ofpactsPullOpenflow10 (remoteWire 5 0x0a000001) 16 = some ⟨none, [.remote 5 0x0a000001]⟩ ∧
      strToOfpacts (fun _ => none) (fun _ _ => none)
        ((ofpactsFormat (fun _ => []) [.remote 5 0x0a000001]).drop "actions=".length) = none ∧
      ¬ ReadBack (fun _ => []) (fun _ => none) (fun _ _ => none) [.remote 5 0x0a000001] := by
  have refused : strToOfpacts (fun _ => none) (fun _ _ => none)
      ((ofpactsFormat (fun _ => []) [.remote 5 0x0a000001]).drop "actions=".length) = none := by
    rw [drop_ofpactsFormat, if_neg (List.cons_ne_nil _ _), strToOfpacts_joined]
    · decide
    · exact List.forall_mem_singleton.mpr (parses_remote 0x0a000001 (by decide))
  refine ⟨by decide, refused, ?_⟩
  rintro ⟨parsed, found, -⟩
  rw [refused] at found
  cases found

end Lists

end OfpText
end LazyCtrl
