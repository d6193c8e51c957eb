import Mathlib.Data.List.Basic

/-!
# Numbers in texts

How C prints numbers and reads them back.  A text is a list of characters.  A number is printed in
base ten or sixteen; a reader skips white space, takes a sign, finds out the base if it is not fixed,
and takes as many digits as there are.  What was printed is read back if no digit follows it.

A format of `sscanf` is a list of directives; it is read from a text as a whole or not at all.
-/

namespace Text

abbrev Chars := List Char

def isSpace (c : Char) : Bool := c = ' ' ∨ '\t' ≤ c ∧ c ≤ '\r'

def digitValue (c : Char) : Option Nat :=
  if '0' ≤ c ∧ c ≤ '9' then some (c.toNat - 48)
  else if 'a' ≤ c ∧ c ≤ 'f' then some (c.toNat - 87)
  else if 'A' ≤ c ∧ c ≤ 'F' then some (c.toNat - 55)
  else none

def isDigitOf (base : Nat) (c : Char) : Bool := (digitValue c).any (· < base)

def digitsValue (base : Nat) (digits : List Char) : Nat :=
  digits.foldl (fun value c => base * value + (digitValue c).getD 0) 0

def readDigits (base : Nat) (text : List Char) : Option (Nat × List Char) :=
  let digits := text.takeWhile (isDigitOf base)
  if digits = [] then none
  else some (digitsValue base digits, text.dropWhile (isDigitOf base))

def readMagnitude (base : Nat) (text : List Char) : Option (Nat × List Char) :=
  if base = 0 then
    match text with
    | '0' :: 'x' :: rest | '0' :: 'X' :: rest => readDigits 16 rest
    | '0' :: _ => readDigits 8 text
    | _ => readDigits 10 text
  else readDigits base text

def readInteger (base : Nat) (text : List Char) : Option (Int × List Char) :=
  match text.dropWhile isSpace with
  | '-' :: rest => (readMagnitude base rest).map fun read => (-(read.1 : Int), read.2)
  | '+' :: rest => (readMagnitude base rest).map fun read => ((read.1 : Int), read.2)
  | rest => (readMagnitude base rest).map fun read => ((read.1 : Int), read.2)

theorem span_append {keeps : Char → Bool} {word rest : List Char} (all : word.all keeps)
    (ends : rest.head?.all fun c => !keeps c) :
    (word ++ rest).takeWhile keeps = word ∧ (word ++ rest).dropWhile keeps = rest := by
  have each := List.all_eq_true.mp all
  rw [List.takeWhile_append_of_pos each, List.dropWhile_append_of_pos each]
  cases rest with
  | nil => exact ⟨List.append_nil word, rfl⟩
  | cons c rest =>
    have stop : ¬ keeps c = true := by simpa using ends
    rw [List.takeWhile_cons_of_neg stop, List.dropWhile_cons_of_neg stop]
    exact ⟨List.append_nil word, rfl⟩

def NoDigit (base : Nat) (text : List Char) : Prop := text.head?.all fun c => !isDigitOf base c

instance (base : Nat) (text : List Char) : Decidable (NoDigit base text) :=
  inferInstanceAs (Decidable (_ = true))

theorem digitValue_digitChar : ∀ d < 16, digitValue (Nat.digitChar d) = some d := by decide

theorem isDigitOf_digitChar {base d : Nat} (small : d < base) (atMost : base ≤ 16) :
    isDigitOf base (Nat.digitChar d) := by
  rw [isDigitOf, digitValue_digitChar d (Nat.lt_of_lt_of_le small atMost)]
  simpa using small

variable {base : Nat}

theorem exists_digitChar_of_mem_toDigits (two : 1 < base) (n : Nat) :
    ∀ c ∈ Nat.toDigits base n, ∃ d < base, c = Nat.digitChar d := by
  induction n using Nat.base_induction base two with
  | single d small =>
    intro c member
    rw [Nat.toDigits_of_lt_base small, List.mem_singleton] at member
    exact ⟨d, small, member⟩
  | digit n d small positive ih =>
    intro c member
    rw [← Nat.toDigits_append_toDigits two positive small, List.mem_append,
      Nat.toDigits_of_lt_base small, List.mem_singleton] at member
    obtain front | rfl := member
    · exact ih c front
    · exact ⟨d, small, rfl⟩

theorem isDigitOf_of_mem_toDigits (two : 1 < base) (atMost : base ≤ 16) (n : Nat) :
    ∀ c ∈ Nat.toDigits base n, isDigitOf base c := by
  intro c member
  obtain ⟨d, small, rfl⟩ := exists_digitChar_of_mem_toDigits two n c member
  exact isDigitOf_digitChar small atMost

theorem digitsValue_append (front back : List Char) :
    digitsValue base (front ++ back) =
      back.foldl (fun value c => base * value + (digitValue c).getD 0) (digitsValue base front) :=
  List.foldl_append

theorem digitsValue_toDigits (two : 1 < base) (atMost : base ≤ 16) (n : Nat) :
    digitsValue base (Nat.toDigits base n) = n := by
  induction n using Nat.base_induction base two with
  | single d small =>
    rw [Nat.toDigits_of_lt_base small, digitsValue, List.foldl_cons, List.foldl_nil,
      digitValue_digitChar d (Nat.lt_of_lt_of_le small atMost), Option.getD_some, Nat.mul_zero,
      Nat.zero_add]
  | digit n d small positive ih =>
    rw [← Nat.toDigits_append_toDigits two positive small, digitsValue_append, ih,
      Nat.toDigits_of_lt_base small, List.foldl_cons, List.foldl_nil,
      digitValue_digitChar d (Nat.lt_of_lt_of_le small atMost), Option.getD_some]

theorem readDigits_append {digits rest : List Char} (all : ∀ c ∈ digits, isDigitOf base c)
    (some_ : digits ≠ []) (stops : NoDigit base rest) :
    readDigits base (digits ++ rest) = some (digitsValue base digits, rest) := by
  obtain ⟨taken, dropped⟩ := span_append (List.all_eq_true.mpr all) stops
  simp only [readDigits, taken, dropped]
  rw [if_neg some_]

theorem readDigits_toDigits (two : 1 < base) (atMost : base ≤ 16) (n : Nat) {rest : List Char}
    (stops : NoDigit base rest) :
    readDigits base (Nat.toDigits base n ++ rest) = some (n, rest) := by
  rw [readDigits_append (isDigitOf_of_mem_toDigits two atMost n) Nat.toDigits_ne_nil stops,
    digitsValue_toDigits two atMost n]

theorem toDigits_eq_cons (two : 1 < base) (n : Nat) :
    ∃ d tail, d < base ∧ Nat.toDigits base n = Nat.digitChar d :: tail ∧
      (d = 0 → n = 0 ∧ tail = []) := by
  induction n using Nat.base_induction base two with
  | single d small =>
    exact ⟨d, [], small, Nat.toDigits_of_lt_base small, fun zero => ⟨zero, rfl⟩⟩
  | digit n d small positive ih =>
    obtain ⟨first, tail, firstSmall, digits, leading⟩ := ih
    refine ⟨first, tail ++ Nat.toDigits base d, firstSmall, ?_, fun zero => ?_⟩
    · rw [← Nat.toDigits_append_toDigits two positive small, digits, List.cons_append]
    · exact absurd (leading zero).1 (Nat.ne_of_gt positive)

theorem digitChar_noSign : ∀ d < 16,
    isSpace (Nat.digitChar d) = false ∧ Nat.digitChar d ≠ '-' ∧ Nat.digitChar d ≠ '+' := by
  decide

theorem isSpace_of_mem_toDigits (two : 1 < base) (atMost : base ≤ 16) (n : Nat) :
    ∀ c ∈ Nat.toDigits base n, isSpace c = false := by
  intro c member
  obtain ⟨d, small, rfl⟩ := exists_digitChar_of_mem_toDigits two n c member
  exact (digitChar_noSign d (Nat.lt_of_lt_of_le small atMost)).1

theorem readInteger_digitChar {d : Nat} (small : d < 16) (base : Nat) (rest : List Char) :
    readInteger base (Nat.digitChar d :: rest) =
      (readMagnitude base (Nat.digitChar d :: rest)).map fun read => ((read.1 : Int), read.2) := by
  obtain ⟨noSpace, noMinus, noPlus⟩ := digitChar_noSign d small
  rw [readInteger, List.dropWhile_cons_of_neg (by simp [noSpace])]
  split
  · rename_i equal
    exact absurd (List.cons.inj equal).1 noMinus
  · rename_i equal
    exact absurd (List.cons.inj equal).1 noPlus
  · rfl

theorem readMagnitude_of_ne_zero (known : base ≠ 0) (text : List Char) :
    readMagnitude base text = readDigits base text := if_neg known

theorem readInteger_toDigits (two : 1 < base) (atMost : base ≤ 16) (n : Nat) {rest : List Char}
    (stops : NoDigit base rest) :
    readInteger base (Nat.toDigits base n ++ rest) = some ((n : Int), rest) := by
  obtain ⟨d, tail, small, digits, -⟩ := toDigits_eq_cons two n
  have read := readDigits_toDigits two atMost n stops
  rw [digits, List.cons_append] at read ⊢
  rw [readInteger_digitChar (Nat.lt_of_lt_of_le small atMost),
    readMagnitude_of_ne_zero (Nat.ne_of_gt (Nat.zero_lt_of_lt two)), read, Option.map_some]

def Stops (text : List Char) : Prop :=
  text.head?.all fun c => !isDigitOf 16 c && c ≠ 'x' && c ≠ 'X'

instance (text : List Char) : Decidable (Stops text) := inferInstanceAs (Decidable (_ = true))

theorem isDigitOf_mono {c : Char} {small large : Nat} (le : small ≤ large)
    (digit : isDigitOf small c) : isDigitOf large c := by
  rw [isDigitOf, Option.any_eq_true] at digit ⊢
  obtain ⟨value, found, below⟩ := digit
  exact ⟨value, found, decide_eq_true (Nat.lt_of_lt_of_le (of_decide_eq_true below) le)⟩

theorem Stops.noDigit {text : List Char} (stops : Stops text) (atMost : base ≤ 16) :
    NoDigit base text := by
  cases text with
  | nil => rfl
  | cons c rest =>
    have noDigit : isDigitOf 16 c = false := by
      have both : (isDigitOf 16 c = false ∧ c ≠ 'x') ∧ c ≠ 'X' := by simpa [Stops] using stops
      exact both.1.1
    have stop : isDigitOf base c = false := by
      by_contra digit
      have wide := isDigitOf_mono atMost (Bool.of_not_eq_false digit)
      rw [noDigit] at wide
      cases wide
    simpa [NoDigit] using stop

theorem digitChar_ne_zero : ∀ d < 16, d ≠ 0 → Nat.digitChar d ≠ '0' := by decide

theorem readMagnitude_decimal (n : Nat) {rest : List Char} (stops : Stops rest) :
    readMagnitude 0 (Nat.toDigits 10 n ++ rest) = some (n, rest) := by
  obtain ⟨d, tail, small, digits, leading⟩ := toDigits_eq_cons (by decide : 1 < 10) n
  have decimal := readDigits_toDigits (by decide : 1 < 10) (by decide) n
    (stops.noDigit (by decide))
  by_cases zero : d = 0
  · obtain ⟨rfl, rfl⟩ := leading zero
    have octal : readDigits 8 ('0' :: rest) = some (0, rest) :=
      readDigits_append (List.forall_mem_singleton.mpr rfl) (List.cons_ne_nil '0' [])
        (stops.noDigit (by decide))
    have noHex : ∀ c more, rest = c :: more → c ≠ 'x' ∧ c ≠ 'X' := by
      rintro c more rfl
      have both : (isDigitOf 16 c = false ∧ c ≠ 'x') ∧ c ≠ 'X' := by simpa [Stops] using stops
      exact ⟨both.1.2, both.2⟩
    rw [Nat.toDigits_zero, List.singleton_append]
    unfold readMagnitude
    rw [if_pos rfl]
    split
    · rename_i equal
      exact absurd rfl (noHex _ _ (List.cons.inj equal).2).1
    · rename_i equal
      exact absurd rfl (noHex _ _ (List.cons.inj equal).2).2
    · exact octal
    · rename_i other
      exact absurd rfl (other rest)
  · have noZero := digitChar_ne_zero d (by omega) zero
    rw [digits, List.cons_append] at decimal ⊢
    unfold readMagnitude
    rw [if_pos rfl]
    split
    · rename_i equal
      exact absurd (List.cons.inj equal).1 noZero
    · rename_i equal
      exact absurd (List.cons.inj equal).1 noZero
    · rename_i equal
      exact absurd (List.cons.inj equal).1 noZero
    · exact decimal

theorem readInteger_decimal (n : Nat) {rest : List Char} (stops : Stops rest) :
    readInteger 0 (Nat.toDigits 10 n ++ rest) = some ((n : Int), rest) := by
  obtain ⟨d, tail, small, digits, -⟩ := toDigits_eq_cons (by decide : 1 < 10) n
  have magnitude := readMagnitude_decimal n stops
  rw [digits, List.cons_append] at magnitude ⊢
  rw [readInteger_digitChar (by omega), magnitude, Option.map_some]

theorem readInteger_hex (zeros n : Nat) {rest : List Char} (stops : Stops rest) :
    readInteger 0 ('0' :: 'x' :: (List.replicate zeros '0' ++ (Nat.toDigits 16 n ++ rest))) =
      some ((n : Int), rest) := by
  have value : digitsValue 16 (List.replicate zeros '0' ++ Nat.toDigits 16 n) = n := by
    have leading : digitsValue 16 (List.replicate zeros '0') = 0 := by
      induction zeros with
      | zero => rfl
      | succ zeros ih =>
        rw [List.replicate_succ', digitsValue_append, ih]
        rfl
    rw [digitsValue_append, leading]
    exact digitsValue_toDigits (by decide) (by decide) n
  have all : ∀ c ∈ List.replicate zeros '0' ++ Nat.toDigits 16 n, isDigitOf 16 c := by
    intro c member
    obtain zero | digit := List.mem_append.mp member
    · rw [(List.mem_replicate.mp zero).2]
      rfl
    · exact isDigitOf_of_mem_toDigits (by decide) (by decide) n c digit
  have read := readDigits_append all (by simp) (stops.noDigit (Nat.le_refl 16))
  rw [value, List.append_assoc] at read
  calc readInteger 0 ('0' :: 'x' :: (List.replicate zeros '0' ++ (Nat.toDigits 16 n ++ rest)))
      = (readDigits 16 (List.replicate zeros '0' ++ (Nat.toDigits 16 n ++ rest))).map
          fun read => ((read.1 : Int), read.2) := rfl
    _ = some ((n : Int), rest) := by rw [read, Option.map_some]

inductive Directive where
  | literal (c : Char)
  | integer
  deriving DecidableEq, Repr

def format (text : List Char) : List Directive :=
  text.map fun c => if c = '%' then .integer else .literal c

def scan : List Directive → List Char → Option (List Int × List Char)
  | [], text => some ([], text)
  | .literal _ :: _, [] => none
  | .literal c :: directives, d :: text => if c = d then scan directives text else none
  | .integer :: directives, text =>
    (readInteger 0 text).bind fun read =>
      (scan directives read.2).map fun more => (read.1 :: more.1, more.2)

theorem scan_format_append {text : Chars} (plain : '%' ∉ text) (more rest : Chars) :
    scan (format (text ++ more)) (text ++ rest) = scan (format more) rest := by
  induction text with
  | nil => rfl
  | cons c text ih =>
    rw [List.mem_cons, not_or] at plain
    have literal : format (c :: text ++ more) = .literal c :: format (text ++ more) := by
      simp only [format, List.cons_append, List.map_cons, if_neg (Ne.symm plain.1)]
    rw [literal, List.cons_append, scan, if_pos rfl, ih plain.2]

theorem scan_format_integer {text rest : List Char} {value : Int}
    (read : readInteger 0 text = some (value, rest)) (more : Chars) :
    scan (format ('%' :: more)) text =
      (scan (format more) rest).map fun values => (value :: values.1, values.2) := by
  have integer : format ('%' :: more) = .integer :: format more := by
    simp only [format, List.map_cons, if_pos]
  rw [integer, scan, read, Option.bind_some]

theorem length_dropWhile_le (keeps : Char → Bool) (text : Chars) :
    (text.dropWhile keeps).length ≤ text.length :=
  (List.dropWhile_sublist keeps).length_le

theorem length_readDigits_lt {text rest : Chars} {value : Nat}
    (read : readDigits base text = some (value, rest)) : rest.length < text.length := by
  simp only [readDigits] at read
  split at read
  · cases read
  · next some_ =>
      obtain ⟨-, rfl⟩ := Prod.mk.inj (Option.some.inj read)
      have parts := congrArg List.length
        (List.takeWhile_append_dropWhile (p := isDigitOf base) (l := text))
      have taken := List.length_pos_iff.mpr some_
      rw [List.length_append] at parts
      omega

theorem length_readMagnitude_lt {text rest : Chars} {value : Nat}
    (read : readMagnitude base text = some (value, rest)) : rest.length < text.length := by
  unfold readMagnitude at read
  split at read
  · split at read
    · have less := length_readDigits_lt read
      simp only [List.length_cons]
      omega
    · have less := length_readDigits_lt read
      simp only [List.length_cons]
      omega
    · exact length_readDigits_lt read
    · exact length_readDigits_lt read
  · exact length_readDigits_lt read

theorem length_readInteger_lt {text rest : Chars} {value : Int}
    (read : readInteger base text = some (value, rest)) : rest.length < text.length := by
  have shorter := length_dropWhile_le isSpace text
  unfold readInteger at read
  split at read
  all_goals
    obtain ⟨magnitude, found, same⟩ := Option.map_eq_some_iff.mp read
    obtain ⟨-, rfl⟩ := Prod.mk.inj same
    have less := length_readMagnitude_lt found
  · next spaced =>
      rw [spaced, List.length_cons] at shorter
      omega
  · next spaced =>
      rw [spaced, List.length_cons] at shorter
      omega
  · omega

theorem length_scan_le {directives : List Directive} {text rest : Chars} {values : List Int}
    (read : scan directives text = some (values, rest)) :
    rest.length + directives.length ≤ text.length := by
  induction directives generalizing text values with
  | nil =>
    obtain ⟨-, rfl⟩ := Prod.mk.inj (Option.some.inj read)
    exact Nat.le_refl _
  | cons directive directives ih =>
    cases directive with
    | literal c =>
      cases text with
      | nil => cases read
      | cons d text =>
        rw [scan] at read
        split at read
        · have less := ih read
          rw [List.length_cons, List.length_cons]
          omega
        · cases read
    | integer =>
      obtain ⟨⟨value, after⟩, number, read⟩ := Option.bind_eq_some_iff.mp read
      obtain ⟨⟨more, last⟩, found, same⟩ := Option.map_eq_some_iff.mp read
      obtain ⟨-, rfl⟩ := Prod.mk.inj same
      have first : after.length < text.length := length_readInteger_lt number
      have others : last.length + directives.length ≤ after.length := ih found
      change last.length + (directives.length + 1) ≤ text.length
      omega

structure Reader (α : Type) where
  read : Chars → Option (α × Chars)
  length_le : ∀ {text rest value}, read text = some (value, rest) → rest.length ≤ text.length

end Text
