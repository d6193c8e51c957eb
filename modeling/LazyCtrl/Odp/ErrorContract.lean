import LazyCtrl.Odp.ActionText

/-!
# The error contract of the parser of datapath actions

`odp_actions_from_string` promises to return zero, or a positive error and the actions as they were.
Here `parse_odp_action` is whole: the pattern of a `SET` action takes a flow key and a closing
parenthesis, and the pattern of a `SAMPLE` action takes a list of actions, for which the parser calls
itself.  The loop over that list looks for a closing parenthesis and not for the end of the text, so
the functions take a number of turns.

`Reads` says in terms of the text which actions are complete and which are malformed; the texts on
which the contract is kept are the ones that it reads to their end or to a malformed action, with a
delimiter behind each action before that.
-/

namespace LazyCtrl
namespace Odp

open Bytes Netlink Text

def ovsSampleAttrProbability : BitVec 16 := 1
def ovsSampleAttrActions : BitVec 16 := 2

def sampleAttr (probability : BitVec 32) (actions : List Nlattr) : Nlattr :=
  ⟨ovsActionAttrSample, putAttrs [⟨ovsSampleAttrProbability, putLe32 probability⟩,
    ⟨ovsSampleAttrActions, putAttrs actions⟩]⟩

def parseSet (parseOdpKeyAttr : Reader (List (BitVec 8))) (s : Chars) : ParseResult :=
  match parseOdpKeyAttr.read (s.drop 4) with
  | some (key, ')' :: rest) => .ok ⟨ovsActionAttrSet, key⟩ rest
  | _ => .einval

def openSample (percentage : Reader (BitVec 32)) (s : Chars) : Option (BitVec 32 × Chars) :=
  if "sample(sample=".toList.isPrefixOf s then
    (percentage.read (s.drop 14)).bind fun read =>
      -- the conversion of a percent sign skips white space
      (scan ("%,actions(".toList.map Directive.literal) (read.2.dropWhile isSpace)).map fun opened =>
        (read.1, opened.2)
  else none

inductive ListResult where
  | closed (attrs : List Nlattr) (rest : Chars)
  | einval
  | undefined
  deriving DecidableEq, Repr

def sampleLoop (parse : Chars → ParseResult) : Nat → Chars → List Nlattr → ListResult
  | 0, _, _ => .undefined
  | turns + 1, s, attrs =>
    match s.dropWhile isDelimiter with
    | ')' :: rest => .closed attrs rest
    | s =>
      match parse s with
      | .ok attr rest => sampleLoop parse turns rest (attrs ++ [attr])
      | .einval => .einval
      | .undefined => .undefined

def closeSample (probability : BitVec 32) : ListResult → ParseResult
  | .closed attrs (')' :: rest) => .ok (sampleAttr probability attrs) rest
  | .closed _ _ => .einval
  | .einval => .einval
  | .undefined => .undefined

def parseSample (percentage : Reader (BitVec 32)) (parse : Chars → ParseResult) (turns : Nat)
    (s : Chars) : ParseResult :=
  match openSample percentage s with
  | some (probability, body) => closeSample probability (sampleLoop parse turns body [])
  | none => .einval

section Contract

/-- The readers that the parser is given: port names, `parse_odp_key_attr`, and the conversion of a
percentage. -/
structure Readers where
  portNames : Chars → Option (BitVec 32)
  parseOdpKeyAttr : Reader (List (BitVec 8))
  percentage : Reader (BitVec 32)

variable (readers : Readers)

def parseAction : Nat → Chars → ParseResult
  | 0, _ => .undefined
  | turns + 1, s =>
    parseOdpAction readers.portNames (parseSet readers.parseOdpKeyAttr)
      (parseSample readers.percentage (parseAction turns) turns) s

def actionsFromString (turns : Nat) (s : Chars) (actions : List (BitVec 8)) :
    Option (Int × List (BitVec 8)) :=
  odpActionsFromString readers.portNames (parseSet readers.parseOdpKeyAttr)
    (parseSample readers.percentage (parseAction readers turns) turns) s actions

/-- The contract: after some number of turns the function has returned, and it returned zero, or a
positive error with the length of the actions unchanged. -/
def KeepsErrorContract (s : Chars) (actions : List (BitVec 8)) : Prop :=
  ∃ enough, ∀ turns ≥ enough, ∃ value result,
    actionsFromString readers turns s actions = some (value, result) ∧
      (value = 0 ∨ 0 < value ∧ result.length = actions.length)

inductive Pattern where
  | plain (rest : Chars)
  | malformed
  | slowPath (reasons : Chars)
  | sample (body : Chars)
  deriving DecidableEq, Repr

def leading (s : Chars) : Option ParseResult :=
  parseOutput s <|> parsePortName readers.portNames s <|> parseUserspacePid s <|>
    parseUserspaceSflow s

def slowPathReasons (s : Chars) : Option Chars :=
  match scan (format "userspace(pid=%,slow_path(".toList) s with
  | some ([_], rest) => some rest
  | _ => none

def trailing (s : Chars) : Option ParseResult :=
  parseUserspaceUserdata s <|>
    (if "set(".toList.isPrefixOf s then some (parseSet readers.parseOdpKeyAttr s) else none) <|>
    parsePushVlan s <|> parsePopVlan s

def patternOf (s : Chars) : Pattern :=
  match leading readers s, slowPathReasons s, trailing readers s, openSample readers.percentage s with
  | some (.ok _ rest), _, _, _ => .plain rest
  | some _, _, _, _ => .malformed
  | none, some reasons, _, _ => .slowPath reasons
  | none, none, some (.ok _ rest), _ => .plain rest
  | none, none, some _, _ => .malformed
  | none, none, none, some (_, body) => .sample body
  | none, none, none, none => .malformed

inductive Reasons : Chars → Chars → Prop where
  | close (rest : Chars) : Reasons (')' :: rest) (')' :: rest)
  | next {s rest last : Chars} {bit : Nat} (open_ : s.head? ≠ some ')')
      (found : findReason s = some (bit, rest)) (more : Reasons rest last) : Reasons s last

inductive Scope where
  | action
  | list
  deriving DecidableEq, Repr

inductive Outcome where
  | complete (rest : Chars)
  | malformed
  deriving DecidableEq, Repr

def Outcome.closed : Outcome → Outcome
  | .complete (')' :: rest) => .complete rest
  | _ => .malformed

inductive Reads : Scope → Chars → Outcome → Prop where
  | plain {s rest : Chars} (met : patternOf readers s = .plain rest) :
      Reads .action s (.complete rest)
  | malformed {s : Chars} (met : patternOf readers s = .malformed) : Reads .action s .malformed
  | slowPath {s list rest : Chars} (met : patternOf readers s = .slowPath list)
      (known : Reasons list (')' :: rest)) : Reads .action s (Outcome.complete rest).closed
  | sample {s body : Chars} {outcome : Outcome} (met : patternOf readers s = .sample body)
      (list : Reads .list body outcome) : Reads .action s outcome.closed
  | close {s rest : Chars} (closed : s.dropWhile isDelimiter = ')' :: rest) :
      Reads .list s (.complete rest)
  | next {s rest : Chars} {outcome : Outcome} (open_ : (s.dropWhile isDelimiter).head? ≠ some ')')
      (head : Reads .action (s.dropWhile isDelimiter) (.complete rest))
      (more : Reads .list rest outcome) : Reads .list s outcome
  | bad {s : Chars} (open_ : (s.dropWhile isDelimiter).head? ≠ some ')')
      (head : Reads .action (s.dropWhile isDelimiter) .malformed) : Reads .list s .malformed

/-- The actions of a text are read to the end of the text or to a malformed one, and each before that
has a delimiter or the end behind it. -/
inductive Sound : Chars → Prop where
  | done {s : Chars} (empty : s.dropWhile isDelimiter = []) : Sound s
  | malformed {s : Chars} (left : s.dropWhile isDelimiter ≠ [])
      (bad : Reads readers .action (s.dropWhile isDelimiter) .malformed) : Sound s
  | next {s rest : Chars} (left : s.dropWhile isDelimiter ≠ [])
      (head : Reads readers .action (s.dropWhile isDelimiter) (.complete rest))
      (delimited : rest.head?.all isDelimiter) (more : Sound rest) : Sound s

def ParseResult.outcome : ParseResult → Option Outcome
  | .ok _ rest => some (.complete rest)
  | .einval => some .malformed
  | .undefined => none

def ListResult.outcome : ListResult → Option Outcome
  | .closed _ rest => some (.complete rest)
  | .einval => some .malformed
  | .undefined => none

variable {readers} {s rest : Chars} {outcome : Outcome} {result : ParseResult}

theorem outcome_complete (complete : result.outcome = some (.complete rest)) :
    ∃ attr, result = .ok attr rest := by
  cases result with
  | ok attr last =>
    obtain rfl : last = rest := by
      injection complete with same
      injection same
    exact ⟨attr, rfl⟩
  | einval => cases complete
  | undefined => cases complete

theorem outcome_malformed (malformed : result.outcome = some .malformed) : result = .einval := by
  cases result with
  | ok attr last => cases malformed
  | einval => rfl
  | undefined => cases malformed

theorem closeSample_outcome (probability : BitVec 32) (list : ListResult) :
    (closeSample probability list).outcome = list.outcome.map Outcome.closed := by
  cases list with
  | closed attrs rest =>
    unfold closeSample
    split
    · next same =>
        obtain ⟨-, rfl⟩ := ListResult.closed.inj same
        rfl
    · next other same =>
        obtain ⟨-, rfl⟩ := ListResult.closed.inj same
        rw [ListResult.outcome, Option.map_some, Outcome.closed]
        · rfl
        · exact fun rest same => other rest (by rw [Outcome.complete.inj same])
    · next same => cases same
    · next same => cases same
  | einval => rfl
  | undefined => rfl

/-- The rest of a text behind something that takes a character, unless the text starts with a
delimiter or is empty. -/
def Takes (s rest : Chars) : Prop :=
  rest.length < s.length ∨ s.head?.all isDelimiter ∧ rest.length ≤ s.length

theorem Takes.length_le (takes : Takes s rest) : rest.length ≤ s.length := by
  obtain less | ⟨-, atMost⟩ := takes
  · exact less.le
  · exact atMost

def Shortens (s : Chars) (result : ParseResult) : Prop :=
  ∃ attr rest, result = .ok attr rest ∧ rest.length < s.length

theorem shortens_of_scan {pattern : Chars} {values : List Int} (attr : Nlattr)
    (read : scan (format pattern) s = some (values, rest)) (some_ : 0 < (format pattern).length) :
    Shortens s (.ok attr rest) :=
  ⟨attr, rest, rfl, Nat.lt_of_lt_of_le (Nat.lt_add_of_pos_right some_) (length_scan_le read)⟩

theorem shortens_parseOutput (met : parseOutput s = some result) : Shortens s result := by
  obtain ⟨⟨value, rest⟩, read, rfl⟩ := Option.map_eq_some_iff.mp met
  exact ⟨_, rest, rfl, length_readInteger_lt read⟩

theorem parsePortName_ok (met : parsePortName readers.portNames s = some result) :
    ∃ attr rest, result = .ok attr rest ∧ Takes s rest := by
  obtain ⟨port, -, rfl⟩ := Option.map_eq_some_iff.mp met
  refine ⟨_, _, rfl, ?_⟩
  cases s with
  | nil => exact .inr ⟨rfl, le_rfl⟩
  | cons c s =>
    by_cases delimiter : isDelimiter c
    · exact .inr ⟨delimiter, length_dropWhile_le _ _⟩
    · left
      rw [List.dropWhile_cons_of_pos (by simpa using delimiter), List.length_cons]
      exact Nat.lt_succ_of_le (length_dropWhile_le _ _)

theorem shortens_parseUserspacePid (met : parseUserspacePid s = some result) :
    Shortens s result := by
  unfold parseUserspacePid at met
  split at met
  · next read => exact Option.some.inj met ▸ shortens_of_scan _ read (by decide)
  · cases met

theorem shortens_parseUserspaceSflow (met : parseUserspaceSflow s = some result) :
    Shortens s result := by
  unfold parseUserspaceSflow at met
  split at met
  · next read => exact Option.some.inj met ▸ shortens_of_scan _ read (by decide)
  · cases met

theorem shortens_parseUserspaceUserdata (met : parseUserspaceUserdata s = some result) :
    Shortens s result := by
  unfold parseUserspaceUserdata at met
  split at met
  · next pid rest read =>
      have less := length_scan_le read
      simp only at met
      split at met
      · cases met
      · split at met
        · next last closed =>
            obtain rfl := Option.some.inj met
            refine ⟨_, last, rfl, ?_⟩
            have dropped := congrArg List.length closed
            rw [List.length_drop, List.length_cons] at dropped
            omega
        · cases met
  · cases met

theorem shortens_parsePushVlan (met : parsePushVlan s = some result) : Shortens s result := by
  unfold parsePushVlan at met
  split at met
  · next read => exact Option.some.inj met ▸ shortens_of_scan _ read (by decide)
  · split at met
    · next read => exact Option.some.inj met ▸ shortens_of_scan _ read (by decide)
    · split at met
      · next read => exact Option.some.inj met ▸ shortens_of_scan _ read (by decide)
      · split at met
        · next read => exact Option.some.inj met ▸ shortens_of_scan _ read (by decide)
        · cases met

theorem shortens_parsePopVlan (met : parsePopVlan s = some result) : Shortens s result := by
  unfold parsePopVlan at met
  split at met
  · next found =>
      obtain ⟨rest, rfl⟩ := List.isPrefixOf_iff_prefix.mp found
      obtain rfl := Option.some.inj met
      refine ⟨_, rest, rfl, ?_⟩
      rw [List.length_append]
      exact Nat.lt_add_of_pos_left (by decide)
  · cases met

theorem parseSet_ok (long : 4 ≤ s.length) :
    parseSet readers.parseOdpKeyAttr s = .einval ∨
      Shortens s (parseSet readers.parseOdpKeyAttr s) := by
  unfold parseSet
  split
  · next key rest read =>
      have less := readers.parseOdpKeyAttr.length_le read
      rw [List.length_cons, List.length_drop] at less
      exact .inr ⟨_, rest, rfl, by omega⟩
  · exact .inl rfl

theorem leading_ok (met : leading readers s = some result) :
    ∃ attr rest, result = .ok attr rest ∧ Takes s rest := by
  have takes (less : Shortens s result) : ∃ attr rest, result = .ok attr rest ∧ Takes s rest := by
    obtain ⟨attr, rest, same, less⟩ := less
    exact ⟨attr, rest, same, .inl less⟩
  simp only [leading, Option.orElse_eq_orElse, Option.orElse_eq_or, Option.or_eq_some_iff] at met
  obtain output | ⟨-, port | ⟨-, pid | ⟨-, sflow⟩⟩⟩ := met
  · exact takes (shortens_parseOutput output)
  · exact parsePortName_ok port
  · exact takes (shortens_parseUserspacePid pid)
  · exact takes (shortens_parseUserspaceSflow sflow)

theorem trailing_ok (met : trailing readers s = some result) :
    result = .einval ∨ Shortens s result := by
  simp only [trailing, Option.orElse_eq_orElse, Option.orElse_eq_or, Option.or_eq_some_iff] at met
  obtain userdata | ⟨-, set | ⟨-, push | ⟨-, pop⟩⟩⟩ := met
  · exact .inr (shortens_parseUserspaceUserdata userdata)
  · split at set
    · next found =>
        obtain rfl := Option.some.inj set
        exact parseSet_ok (List.isPrefixOf_iff_prefix.mp found).length_le
    · cases set
  · exact .inr (shortens_parsePushVlan push)
  · exact .inr (shortens_parsePopVlan pop)

theorem length_findReason_lt {s rest : Chars} {bit : Nat} (found : findReason s = some (bit, rest)) :
    rest.length < s.length := by
  obtain ⟨candidate, -, read⟩ := List.exists_of_findSome?_eq_some found
  obtain ⟨reason, named, read⟩ := Option.bind_eq_some_iff.mp read
  have long : 0 < reason.length := by
    unfold slowPathReasonToString at named
    split at named
    all_goals first
      | (obtain rfl := Option.some.inj named; decide)
      | cases named
  split at read
  · have parts := congrArg List.length (List.take_append_drop reason.length s)
    split at read
    · next rest' dropped =>
        obtain ⟨-, rfl⟩ := Prod.mk.inj (Option.some.inj read)
        rw [dropped, List.length_append, List.length_cons] at parts
        omega
    · next rest' dropped =>
        obtain ⟨-, rfl⟩ := Prod.mk.inj (Option.some.inj read)
        have less := congrArg List.length dropped
        rw [List.length_drop] at less
        rw [List.length_cons] at less ⊢
        omega
    · cases read
  · cases read

theorem reasonLoop_succ_of_open {turns : Nat} {reason : BitVec 32} {s : Chars}
    (open_ : s.head? ≠ some ')') :
    reasonLoop (turns + 1) reason s =
      (findReason s).bind fun found =>
        reasonLoop turns (reason ||| BitVec.twoPow 32 found.1) found.2 := by
  rw [reasonLoop]
  rintro rest rfl
  exact open_ rfl

theorem reasons_of_reasonLoop {turns : Nat} {reason value : BitVec 32} {s last : Chars}
    (ends : reasonLoop turns reason s = some (value, last)) : Reasons s last := by
  induction turns generalizing reason s with
  | zero => cases ends
  | succ turns ih =>
    by_cases closed : s.head? = some ')'
    · obtain ⟨rest, rfl⟩ := List.head?_eq_some_iff.mp closed
      obtain ⟨-, rfl⟩ := Prod.mk.inj (Option.some.inj ends)
      exact .close rest
    · rw [reasonLoop_succ_of_open closed] at ends
      obtain ⟨⟨bit, rest⟩, found, ends⟩ := Option.bind_eq_some_iff.mp ends
      exact .next closed found (ih ends)

theorem Reasons.reasonLoop {s last : Chars} (known : Reasons s last) :
    ∀ turns > s.length, ∀ reason, ∃ value, reasonLoop turns reason s = some (value, last) := by
  induction known with
  | close rest =>
    intro turns more reason
    obtain ⟨turns, rfl⟩ := Nat.exists_eq_add_one_of_ne_zero (by omega : turns ≠ 0)
    exact ⟨reason, rfl⟩
  | next open_ found more ih =>
    intro turns enough reason
    obtain ⟨turns, rfl⟩ := Nat.exists_eq_add_one_of_ne_zero (by omega : turns ≠ 0)
    have less := length_findReason_lt found
    rw [reasonLoop_succ_of_open open_, found, Option.bind_some]
    exact ih turns (by omega) _

theorem Reasons.length_le {s last : Chars} (known : Reasons s last) : last.length ≤ s.length := by
  induction known with
  | close rest => exact le_rfl
  | next open_ found more ih => exact ih.trans (length_findReason_lt found).le

theorem Reasons.eq_cons {s last : Chars} (known : Reasons s last) : ∃ rest, last = ')' :: rest := by
  induction known with
  | close rest => exact ⟨rest, rfl⟩
  | next open_ found more ih => exact ih

theorem finishSlowPath_outcome {pid : BitVec 32} {list : Chars} :
    (finishSlowPath pid (reasonLoop (list.length + 1) 0 list)).outcome = some outcome ↔
      ∃ rest, Reasons list (')' :: rest) ∧ outcome = (Outcome.complete rest).closed := by
  have finish (value : BitVec 32) (rest : Chars) :
      (finishSlowPath pid (some (value, ')' :: rest))).outcome =
        some (Outcome.complete rest).closed := by
    rcases rest with _ | ⟨c, rest⟩
    · rfl
    · by_cases closed : c = ')'
      · rw [closed]
        rfl
      · unfold finishSlowPath Outcome.closed
        split <;> split <;> simp_all [ParseResult.outcome]
  constructor
  · intro ends
    cases looped : reasonLoop (list.length + 1) 0 list with
    | none =>
      rw [looped] at ends
      cases ends
    | some found =>
      obtain ⟨value, last⟩ := found
      have known := reasons_of_reasonLoop looped
      obtain ⟨rest, rfl⟩ := known.eq_cons
      rw [looped, finish] at ends
      exact ⟨rest, known, (Option.some.inj ends).symm⟩
  · rintro ⟨rest, known, rfl⟩
    obtain ⟨value, looped⟩ := known.reasonLoop (list.length + 1) (Nat.lt_succ_self _) 0
    rw [looped, finish]

theorem parseUserspaceSlowPath_eq_none {s : Chars} (none_ : slowPathReasons s = none) :
    parseUserspaceSlowPath s = none := by
  unfold slowPathReasons at none_
  unfold parseUserspaceSlowPath
  split
  · next pid rest read =>
      rw [read] at none_
      cases none_
  · rfl

theorem parseUserspaceSlowPath_eq_some {s list : Chars} (opened : slowPathReasons s = some list) :
    ∃ pid, parseUserspaceSlowPath s =
      some (finishSlowPath pid (reasonLoop (list.length + 1) 0 list)) := by
  unfold slowPathReasons at opened
  split at opened
  · next pid rest read =>
      obtain rfl := Option.some.inj opened
      refine ⟨stored 32 pid, ?_⟩
      unfold parseUserspaceSlowPath
      rw [read]
  · cases opened

theorem length_slowPathReasons_lt {list : Chars} (opened : slowPathReasons s = some list) :
    list.length < s.length := by
  unfold slowPathReasons at opened
  split at opened
  · next pid rest read =>
      obtain rfl := Option.some.inj opened
      exact Nat.lt_of_lt_of_le (Nat.lt_add_of_pos_right (by decide)) (length_scan_le read)
  · cases opened

theorem length_openSample_lt {percentage : Reader (BitVec 32)} {body : Chars}
    {probability : BitVec 32} (opened : openSample percentage s = some (probability, body)) : body.length < s.length := by
  unfold openSample at opened
  split at opened
  · obtain ⟨⟨number, after⟩, read, opened⟩ := Option.bind_eq_some_iff.mp opened
    obtain ⟨⟨values, last⟩, scanned, same⟩ := Option.map_eq_some_iff.mp opened
    obtain ⟨-, rfl⟩ := Prod.mk.inj same
    have first := percentage.length_le read
    have second : (after.dropWhile isSpace).length ≤ after.length := length_dropWhile_le _ _
    have third : last.length + 10 ≤ (after.dropWhile isSpace).length := length_scan_le scanned
    rw [List.length_drop] at first
    change last.length < s.length
    omega
  · cases opened

theorem parseAction_succ (turns : Nat) (s : Chars) :
    parseAction readers (turns + 1) s =
      (leading readers s).getD ((parseUserspaceSlowPath s).getD ((trailing readers s).getD
        (parseSample readers.percentage (parseAction readers turns) turns s))) := by
  have sample : (if "sample(sample=".toList.isPrefixOf s then
      some (parseSample readers.percentage (parseAction readers turns) turns s)
      else none).getD .einval =
      parseSample readers.percentage (parseAction readers turns) turns s := by
    split
    · rfl
    · next other => simp only [parseSample, openSample, if_neg other, Option.getD_none]
  rw [parseAction, parseOdpAction, parseKeyword, leading, trailing]
  simp only [Option.orElse_eq_orElse, Option.orElse_eq_or, Option.getD_or, sample]

theorem parseAction_outcome {turns : Nat} :
    (parseAction readers (turns + 1) s).outcome = some outcome ↔
      match patternOf readers s with
      | .plain rest => outcome = .complete rest
      | .malformed => outcome = .malformed
      | .slowPath list =>
        ∃ rest, Reasons list (')' :: rest) ∧ outcome = (Outcome.complete rest).closed
      | .sample body =>
        ∃ inner, (sampleLoop (parseAction readers turns) turns body []).outcome = some inner ∧
          outcome = inner.closed := by
  have told (expected : Outcome) : some expected = some outcome ↔ outcome = expected :=
    ⟨fun same => (Option.some.inj same).symm, fun same => congrArg some same.symm⟩
  rw [parseAction_succ, patternOf]
  cases before : leading readers s with
  | some result =>
    obtain ⟨attr, rest, rfl, -⟩ := leading_ok before
    exact told _
  | none =>
    cases slow : slowPathReasons s with
    | some list =>
      obtain ⟨pid, parsed⟩ := parseUserspaceSlowPath_eq_some slow
      rw [Option.getD_none, parsed, Option.getD_some, finishSlowPath_outcome]
    | none =>
      rw [Option.getD_none, parseUserspaceSlowPath_eq_none slow, Option.getD_none]
      cases behind : trailing readers s with
      | some result =>
        obtain rfl | ⟨attr, rest, rfl, -⟩ := trailing_ok behind
        · exact told _
        · exact told _
      | none =>
        rw [Option.getD_none, parseSample]
        cases opened : openSample readers.percentage s with
        | none => exact told _
        | some found =>
          simp only [closeSample_outcome, Option.map_eq_some_iff, @eq_comm _ outcome]

theorem length_patternOf (s : Chars) :
    match patternOf readers s with
    | .plain rest => Takes s rest
    | .malformed => True
    | .slowPath list => list.length < s.length
    | .sample body => body.length < s.length := by
  rw [patternOf]
  cases before : leading readers s with
  | some result =>
    obtain ⟨attr, rest, rfl, takes⟩ := leading_ok before
    exact takes
  | none =>
    cases slow : slowPathReasons s with
    | some list => exact length_slowPathReasons_lt slow
    | none =>
      cases behind : trailing readers s with
      | some result =>
        obtain rfl | ⟨attr, rest, rfl, less⟩ := trailing_ok behind
        · trivial
        · exact .inl less
      | none =>
        cases opened : openSample readers.percentage s with
        | none => trivial
        | some found => exact length_openSample_lt opened

theorem sampleLoop_succ_of_open {parse : Chars → ParseResult} {turns : Nat} {attrs : List Nlattr}
    (open_ : (s.dropWhile isDelimiter).head? ≠ some ')') :
    sampleLoop parse (turns + 1) s attrs =
      match parse (s.dropWhile isDelimiter) with
      | .ok attr rest => sampleLoop parse turns rest (attrs ++ [attr])
      | .einval => .einval
      | .undefined => .undefined := by
  rw [sampleLoop]
  split
  · next closed =>
      rw [closed] at open_
      exact absurd rfl open_
  · rfl

theorem reads_of_sampleLoop {parse : Chars → ParseResult} {turns : Nat} {attrs : List Nlattr}
    (sound : ∀ {s outcome}, (parse s).outcome = some outcome → Reads readers .action s outcome)
    (ends : (sampleLoop parse turns s attrs).outcome = some outcome) :
    Reads readers .list s outcome := by
  induction turns generalizing s attrs with
  | zero => cases ends
  | succ turns ih =>
    by_cases closed : (s.dropWhile isDelimiter).head? = some ')'
    · obtain ⟨rest, same⟩ := List.head?_eq_some_iff.mp closed
      rw [sampleLoop, same] at ends
      obtain rfl := Option.some.inj ends
      exact .close same
    · rw [sampleLoop_succ_of_open closed] at ends
      cases head : parse (s.dropWhile isDelimiter) with
      | ok attr rest =>
        rw [head] at ends
        exact .next closed (sound (congrArg ParseResult.outcome head)) (ih ends)
      | einval =>
        rw [head] at ends
        obtain rfl := Option.some.inj ends
        exact .bad closed (sound (congrArg ParseResult.outcome head))
      | undefined =>
        rw [head] at ends
        cases ends

theorem reads_of_parseAction {turns : Nat}
    (ends : (parseAction readers turns s).outcome = some outcome) :
    Reads readers .action s outcome := by
  induction turns generalizing s outcome with
  | zero => cases ends
  | succ turns ih =>
    rw [parseAction_outcome] at ends
    cases met : patternOf readers s with
    | plain rest =>
      rw [met] at ends
      exact ends ▸ .plain met
    | malformed =>
      rw [met] at ends
      exact ends ▸ .malformed met
    | slowPath list =>
      rw [met] at ends
      obtain ⟨rest, known, rfl⟩ := ends
      exact .slowPath met known
    | sample body =>
      rw [met] at ends
      obtain ⟨inner, list, rfl⟩ := ends
      exact .sample met (reads_of_sampleLoop ih list)

variable (readers) in
def Settles (scope : Scope) (s : Chars) (outcome : Outcome) : Prop :=
  match scope with
  | .action => ∃ enough, ∀ turns > enough, (parseAction readers turns s).outcome = some outcome
  | .list => ∃ enough, ∀ depth > enough, ∀ turns > enough, ∀ attrs,
      (sampleLoop (parseAction readers depth) turns s attrs).outcome = some outcome

theorem exists_turn {enough turns : Nat} (more : turns > enough) :
    ∃ last ≥ enough, turns = last + 1 :=
  ⟨turns - 1, by omega, by omega⟩

theorem Reads.settles {scope : Scope} (reads : Reads readers scope s outcome) :
    Settles readers scope s outcome := by
  induction reads with
  | plain met =>
    refine ⟨0, fun turns more => ?_⟩
    obtain ⟨turns, -, rfl⟩ := exists_turn more
    rw [parseAction_outcome, met]
  | malformed met =>
    refine ⟨0, fun turns more => ?_⟩
    obtain ⟨turns, -, rfl⟩ := exists_turn more
    rw [parseAction_outcome, met]
  | slowPath met known =>
    refine ⟨0, fun turns more => ?_⟩
    obtain ⟨turns, -, rfl⟩ := exists_turn more
    rw [parseAction_outcome, met]
    exact ⟨_, known, rfl⟩
  | sample met list ih =>
    obtain ⟨enough, settled⟩ := ih
    refine ⟨enough + 1, fun turns more => ?_⟩
    obtain ⟨turns, deep, rfl⟩ := exists_turn more
    rw [parseAction_outcome, met]
    exact ⟨_, settled turns deep turns deep [], rfl⟩
  | close closed =>
    refine ⟨0, fun depth deep turns more attrs => ?_⟩
    obtain ⟨turns, -, rfl⟩ := exists_turn more
    rw [sampleLoop, closed]
    rfl
  | next open_ head more headIh moreIh =>
    obtain ⟨first, headIh⟩ := headIh
    obtain ⟨second, moreIh⟩ := moreIh
    refine ⟨first + second + 1, fun depth deep turns more attrs => ?_⟩
    obtain ⟨turns, long, rfl⟩ := exists_turn more
    obtain ⟨attr, parsed⟩ := outcome_complete (headIh depth (by omega))
    rw [sampleLoop_succ_of_open open_, parsed]
    exact moreIh depth (by omega) turns (by omega) _
  | bad open_ head headIh =>
    obtain ⟨first, headIh⟩ := headIh
    refine ⟨first, fun depth deep turns more attrs => ?_⟩
    obtain ⟨turns, -, rfl⟩ := exists_turn more
    rw [sampleLoop_succ_of_open open_, outcome_malformed (headIh depth deep)]
    rfl

theorem Outcome.eq_of_closed (closed : outcome.closed = .complete rest) :
    outcome = .complete (')' :: rest) := by
  unfold Outcome.closed at closed
  split at closed
  · rw [Outcome.complete.inj closed]
  · cases closed

theorem Reads.takes {scope : Scope} (reads : Reads readers scope s outcome)
    (complete : outcome = .complete rest) :
    rest.length ≤ s.length ∧ (scope = .action → Takes s rest) := by
  induction reads generalizing rest with
  | plain met =>
    obtain rfl := Outcome.complete.inj complete
    have takes := met ▸ length_patternOf _
    exact ⟨takes.length_le, fun _ => takes⟩
  | malformed => cases complete
  | slowPath met known =>
    have first := Outcome.complete.inj (Outcome.eq_of_closed complete) ▸ known.length_le
    have second := met ▸ length_patternOf _
    rw [List.length_cons, List.length_cons] at first
    exact ⟨by omega, fun _ => .inl (by omega)⟩
  | sample met list ih =>
    have first := (ih (Outcome.eq_of_closed complete)).1
    have second := met ▸ length_patternOf _
    rw [List.length_cons] at first
    exact ⟨by omega, fun _ => .inl (by omega)⟩
  | @close text _ closed =>
    obtain rfl := Outcome.complete.inj complete
    have first := congrArg List.length closed
    have second := length_dropWhile_le isDelimiter text
    rw [List.length_cons] at first
    exact ⟨by omega, nofun⟩
  | next open_ head more headIh moreIh =>
    have first := (headIh rfl).1
    have second := (moreIh complete).1
    exact ⟨second.trans (first.trans (length_dropWhile_le _ _)), nofun⟩
  | bad => cases complete

theorem length_lt_of_reads (left : s.dropWhile isDelimiter ≠ [])
    (reads : Reads readers .action (s.dropWhile isDelimiter) (.complete rest)) :
    rest.length < (s.dropWhile isDelimiter).length := by
  obtain less | ⟨delimiter, -⟩ := (reads.takes rfl).2 rfl
  · exact less
  · have other := List.head_dropWhile_not isDelimiter left
    rw [List.head?_eq_some_head left] at delimiter
    exact absurd delimiter (by simpa using other)

theorem sound_of_fromStringLoop {old actions returned : List (BitVec 8)} {depth turns : Nat}
    {value : Int}
    (returns : fromStringLoop readers.portNames (parseSet readers.parseOdpKeyAttr)
      (parseSample readers.percentage (parseAction readers depth) depth) old turns s actions =
        some (value, returned)) (notNegative : 0 ≤ value) : Sound readers s := by
  induction turns generalizing s actions with
  | zero => cases returns
  | succ turns ih =>
    rw [fromStringLoop] at returns
    split at returns
    · next empty => exact .done empty
    · next left =>
        have read {outcome} := @reads_of_parseAction readers (s.dropWhile isDelimiter) outcome
          (depth + 1)
        rw [parseAction] at read
        split at returns
        · cases returns
        · next bad => exact .malformed left (read (congrArg ParseResult.outcome bad))
        · next attr rest parsed =>
            have head := read (congrArg ParseResult.outcome parsed)
            split at returns
            · next delimited => exact .next left head delimited (ih returns)
            · -- the length of a complete action comes back with its sign changed
              obtain ⟨rfl, -⟩ := Prod.mk.inj (Option.some.inj returns)
              have less := length_lt_of_reads left head
              omega

theorem Sound.fromStringLoop (sound : Sound readers s) (old : List (BitVec 8)) :
    ∃ enough, ∀ depth ≥ enough, ∀ turns > s.length, ∀ actions, ∃ value result,
      fromStringLoop readers.portNames (parseSet readers.parseOdpKeyAttr)
        (parseSample readers.percentage (parseAction readers depth) depth) old turns s actions =
          some (value, result) ∧ (value = 0 ∨ 0 < value ∧ result.length = old.length) := by
  induction sound with
  | done empty =>
    refine ⟨0, fun depth _ turns more actions => ⟨0, actions, ?_, .inl rfl⟩⟩
    obtain ⟨turns, -, rfl⟩ := exists_turn more
    rw [Odp.fromStringLoop]
    exact if_pos empty
  | malformed left bad =>
    obtain ⟨enough, settled⟩ := bad.settles
    refine ⟨enough, fun depth deep turns more actions => ⟨22, old, ?_, .inr ⟨by decide, rfl⟩⟩⟩
    obtain ⟨turns, -, rfl⟩ := exists_turn more
    have parsed := outcome_malformed (settled (depth + 1) (by omega))
    rw [parseAction] at parsed
    rw [Odp.fromStringLoop]
    simp only [if_neg left, parsed]
  | @next s rest left head delimited more ih =>
    obtain ⟨first, settled⟩ := head.settles
    obtain ⟨second, ih⟩ := ih
    refine ⟨first + second, fun depth deep turns more actions => ?_⟩
    obtain ⟨turns, long, rfl⟩ := exists_turn more
    obtain ⟨attr, parsed⟩ := outcome_complete (settled (depth + 1) (by omega))
    have less := length_lt_of_reads left head
    have skipped := length_dropWhile_le isDelimiter s
    rw [parseAction] at parsed
    rw [Odp.fromStringLoop]
    simp only [if_neg left, parsed, if_pos delimited]
    exact ih depth (by omega) turns (by omega) _

def wholePercentage : Reader (BitVec 32) where
  read s := (readDigits 10 s).bind fun read =>
    if read.1 ≤ 100 then some (BitVec.ofNat 32 ((2 ^ 32 - 1) * read.1 / 100), read.2) else none
  length_le := by
    intro text rest value read
    obtain ⟨⟨number, after⟩, digits, read⟩ := Option.bind_eq_some_iff.mp read
    split at read
    · obtain ⟨-, rfl⟩ := Prod.mk.inj (Option.some.inj read)
      exact (length_readDigits_lt digits).le
    · cases read

def simpleReaders (portNames : Chars → Option (BitVec 32)) : Readers :=
  ⟨portNames, ⟨fun _ => none, nofun⟩, wholePercentage⟩

theorem sampleLoop_nil {parse : Chars → ParseResult} {attr : Nlattr} (empty : parse [] = .ok attr [])
    (turns : Nat) (attrs : List Nlattr) : sampleLoop parse turns [] attrs = .undefined := by
  induction turns generalizing attrs with
  | zero => rfl
  | succ turns ih =>
    rw [sampleLoop_succ_of_open (by decide), List.dropWhile_nil, empty]
    exact ih _

end Contract

end Odp
end LazyCtrl
