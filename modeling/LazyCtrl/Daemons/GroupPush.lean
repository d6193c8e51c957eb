import LazyCtrl.Lib.Text
import LazyCtrl.Mcast.Bridge

/-!
# Pushing the groups to the switches

The way of a group id from `groupManager.py` through `push_agent.py` to `bridge_lc_init`.  `doPush`
starts the agent with a command line, the agent takes one word of it as its message and lets `ssh`
write it to a file on the switch, and the switch reads two numbers from this file.

The flag of a switch that serves its group as a designated one is the second word of the message, so
it stays behind in the arguments of the agent.
-/

namespace LazyCtrl

open Text

def wordsFrom (quoted : Bool) (word : Option Chars) : Chars → List Chars
  | [] => word.toList
  | c :: rest =>
    if c = '\'' then wordsFrom (!quoted) (some (word.getD [])) rest
    else if c = ' ' ∧ quoted = false then word.toList ++ wordsFrom false none rest
    else wordsFrom quoted (some (word.getD [] ++ [c])) rest

def shellWords (line : Chars) : List Chars := wordsFrom false none line

structure ShellCommand where
  argv : List Chars
  stdout : Option Chars
  deriving DecidableEq, Repr

def redirect : List Chars → ShellCommand
  | [] => ⟨[], none⟩
  | [word] => ⟨[word], none⟩
  | word :: next :: rest =>
    if word = ">".toList then { redirect rest with stdout := some next }
    else if word = "2>&1".toList then redirect (next :: rest)
    else
      let command := redirect (next :: rest)
      { command with argv := word :: command.argv }

def echo (args : List Chars) : Chars := (args.intersperse [' ']).flatten ++ ['\n']

abbrev Hosts := Chars → Chars → Option Chars

def Hosts.runOn (hosts : Hosts) (host line : Chars) : Hosts :=
  let command := redirect (shellWords line)
  match command.argv, command.stdout with
  | program :: args, some file =>
    if program = "echo".toList then
      Function.update hosts host (Function.update (hosts host) file (some (echo args)))
    else hosts
  | _, _ => hosts

def Hosts.ssh (hosts : Hosts) (line : Chars) : Hosts :=
  match (redirect (shellWords line)).argv with
  | [program, target, command] =>
    if program = "ssh".toList then
      hosts.runOn ((target.dropWhile fun c => c ≠ '@').drop 1) command
    else hosts
  | _ => hosts

def remotefile : Chars := "/tmp/lc_gid.dat".toList

def pushAgent (hosts : Hosts) (argv : List Chars) : Hosts :=
  match argv with
  | _ :: remotehost :: msg :: _ =>
    hosts.ssh ("ssh ".toList ++ ("root".toList ++ ("@".toList ++ (remotehost ++
      (" 'echo ".toList ++ (msg ++ (" > ".toList ++ (remotefile ++
        "' 2>&1 > /dev/null".toList))))))))
  | _ => hosts

def Hosts.python (hosts : Hosts) (line : Chars) : Hosts :=
  match (redirect (shellWords line)).argv with
  | program :: script :: args =>
    if program = "python".toList ∧ script = "./push_agent.py".toList then
      pushAgent hosts (script :: args)
    else hosts
  | _ => hosts

def pyInt (line : Chars) : Option Nat :=
  match readDigits 10 line with
  | some (value, []) => some value
  | _ => none

def pyRepr (n : Nat) : Chars := Nat.toDigits 10 n ++ if n < 2 ^ 63 then [] else ['L']

def pushMsg (ddcmList : List Chars) (ip : Chars) (gid : Nat) : Chars :=
  pyRepr gid ++ (" ".toList ++ if ip ∈ ddcmList then "1".toList else "0".toList)

def doPushFrom (dcmList ddcmList : List Chars) (hosts : Hosts) : Nat → List Chars → Option Hosts
  | _, [] => some hosts
  | i, line :: lines => do
      let gid ← pyInt line
      let ip ← dcmList[i]?
      doPushFrom dcmList ddcmList (hosts.python ("python ./push_agent.py ".toList ++ (ip ++
        (" ".toList ++ pushMsg ddcmList ip gid)))) (i + 1) lines

def doPush (dcmList ddcmList lines : List Chars) (hosts : Hosts) : Option Hosts :=
  doPushFrom dcmList ddcmList hosts 0 lines

def scanUnsigned (text : Chars) : Option (BitVec 32 × Chars) :=
  (readInteger 10 text).map fun read =>
    (if read.1.natAbs < 2 ^ 64 then BitVec.ofInt 32 read.1 else 0xffffffff, read.2)

def scanGidFile (text : Chars) : GidFile :=
  match scanUnsigned text with
  | none => { gid := 0, ddcm := 0 }
  | some (gid, rest) => { gid, ddcm := ((scanUnsigned rest).map Prod.fst).getD 0 }

def Hosts.gidFile (hosts : Hosts) (host : Chars) : Option GidFile :=
  (hosts host remotefile).map scanGidFile

def IsAddress (ip : Chars) : Prop :=
  ip ≠ [] ∧ ip.all fun c => c.isAlphanum || c == '.' || c == ':' || c == '-'

instance (ip : Chars) : Decidable (IsAddress ip) := inferInstanceAs (Decidable (_ ∧ _))

/-- Every switch reads its own group id, and whether it is a designated one. -/
def GroupsArrive (dcmList ddcmList : List Chars) (gids : List Nat) (hosts : Hosts) : Prop :=
  ∀ (i : Nat) (ip : Chars) (gid : Nat), dcmList[i]? = some ip → gids[i]? = some gid →
    ∃ file, hosts.gidFile ip = some file ∧ file.gid.toNat = gid ∧
      file.ddcm = if ip ∈ ddcmList then 1 else 0

def PlainWord (word : Chars) : Prop := word ≠ [] ∧ word.all fun c => c ≠ '\'' && c ≠ ' '

instance (word : Chars) : Decidable (PlainWord word) := inferInstanceAs (Decidable (_ ∧ _))

theorem PlainWord.ne {word : Chars} (plain : PlainWord word) {c : Char} (member : c ∈ word) :
    c ≠ '\'' ∧ c ≠ ' ' := by
  simpa using List.all_eq_true.mp plain.2 c member

theorem wordsFrom_append {quoted : Bool} {text : Chars}
    (plain : ∀ c ∈ text, c ≠ '\'' ∧ (quoted = false → c ≠ ' ')) (word rest : Chars) :
    wordsFrom quoted (some word) (text ++ rest) = wordsFrom quoted (some (word ++ text)) rest := by
  induction text generalizing word with
  | nil => simp
  | cons c text ih =>
    obtain ⟨noQuote, noBlank⟩ := plain c (by simp)
    rw [List.cons_append, wordsFrom, if_neg noQuote, if_neg (fun both => noBlank both.2 both.1),
      Option.getD_some, ih fun other member => plain other (by simp [member]), List.append_assoc]
    rfl

theorem wordsFrom_plainWord {word : Chars} (plain : PlainWord word) (rest : Chars) :
    wordsFrom false none (word ++ rest) = wordsFrom false (some word) rest := by
  obtain ⟨first, tail, rfl⟩ := List.exists_cons_of_ne_nil plain.1
  obtain ⟨noQuote, noBlank⟩ := plain.ne List.mem_cons_self
  rw [List.cons_append, wordsFrom, if_neg noQuote, if_neg (fun both => noBlank both.1),
    wordsFrom_append fun c member => ⟨(plain.ne (List.mem_cons_of_mem _ member)).1,
      fun _ => (plain.ne (List.mem_cons_of_mem _ member)).2⟩]
  rfl

theorem wordsFrom_blank {word : Chars} (plain : PlainWord word) (rest : Chars) :
    wordsFrom false none (word ++ ' ' :: rest) = word :: wordsFrom false none rest := by
  rw [wordsFrom_plainWord plain]
  rfl

theorem wordsFrom_end {word : Chars} (plain : PlainWord word) :
    wordsFrom false none word = [word] := by
  have whole := wordsFrom_plainWord plain []
  rw [List.append_nil] at whole
  rw [whole]
  rfl

theorem wordsFrom_quoted {text : Chars} (noQuote : '\'' ∉ text) (rest : Chars) :
    wordsFrom false none ('\'' :: (text ++ '\'' :: ' ' :: rest)) =
      text :: wordsFrom false none rest := by
  have plain : ∀ c ∈ text, c ≠ '\'' ∧ (true = false → c ≠ ' ') := fun c member =>
    ⟨fun quote => noQuote (quote ▸ member), fun impossible => by cases impossible⟩
  have inside := wordsFrom_append plain [] ('\'' :: ' ' :: rest)
  calc wordsFrom false none ('\'' :: (text ++ '\'' :: ' ' :: rest))
      = wordsFrom true (some []) (text ++ '\'' :: ' ' :: rest) := rfl
    _ = wordsFrom true (some ([] ++ text)) ('\'' :: ' ' :: rest) := inside
    _ = text :: wordsFrom false none rest := rfl

theorem redirect_of_plain {words : List Chars}
    (plain : ∀ word ∈ words, word ≠ ">".toList ∧ word ≠ "2>&1".toList) :
    redirect words = ⟨words, none⟩ := by
  induction words with
  | nil => rfl
  | cons word words ih =>
    obtain ⟨noFile, noCopy⟩ := plain word (by simp)
    have rest := ih fun other member => plain other (by simp [member])
    cases words with
    | nil => rfl
    | cons next words => rw [redirect, if_neg noFile, if_neg noCopy, rest]

theorem IsAddress.ne {ip : Chars} (address : IsAddress ip) {c : Char}
    (other : (c.isAlphanum || c == '.' || c == ':' || c == '-') = false) : c ∉ ip := by
  intro member
  have inside := List.all_eq_true.mp address.2 c member
  rw [other] at inside
  cases inside

theorem plainWord_of {word : Chars} (some_ : word ≠ []) (noQuote : '\'' ∉ word)
    (noBlank : ' ' ∉ word) : PlainWord word := by
  refine ⟨some_, List.all_eq_true.mpr fun c member => ?_⟩
  have noQuoteHere : c ≠ '\'' := fun same => noQuote (same ▸ member)
  have noBlankHere : c ≠ ' ' := fun same => noBlank (same ▸ member)
  simp [noQuoteHere, noBlankHere]

theorem IsAddress.plainWord {ip : Chars} (address : IsAddress ip) : PlainWord ip :=
  plainWord_of address.1 (address.ne (by decide)) (address.ne (by decide))

theorem not_mem_pyRepr (n : Nat) {c : Char} (noDigit : isDigitOf 10 c = false) (noLong : c ≠ 'L') :
    c ∉ pyRepr n := by
  intro member
  obtain digit | long := List.mem_append.mp member
  · have isDigit := isDigitOf_of_mem_toDigits (by decide) (by decide) n c digit
    rw [noDigit] at isDigit
    cases isDigit
  · split at long
    · cases long
    · exact noLong (List.mem_singleton.mp long)

theorem plainWord_pyRepr (n : Nat) : PlainWord (pyRepr n) :=
  plainWord_of (by simp [pyRepr]) (not_mem_pyRepr n (by decide) (by decide))
    (not_mem_pyRepr n (by decide) (by decide))

theorem PlainWord.noRedirect {word : Chars} (noArrow : '>' ∉ word) :
    word ≠ ">".toList ∧ word ≠ "2>&1".toList := by
  constructor <;> rintro rfl <;> exact absurd noArrow (by decide)

theorem runOn_echo (hosts : Hosts) (host : Chars) {msg : Chars} (plain : PlainWord msg)
    (noArrow : '>' ∉ msg) :
    hosts.runOn host ("echo ".toList ++ (msg ++ (" > ".toList ++ remotefile))) =
      Function.update hosts host
        (Function.update (hosts host) remotefile (some (msg ++ ['\n']))) := by
  have words : shellWords ("echo ".toList ++ (msg ++ (" > ".toList ++ remotefile))) =
      ["echo".toList, msg, ">".toList, remotefile] := by
    calc shellWords ("echo ".toList ++ (msg ++ (" > ".toList ++ remotefile)))
        = wordsFrom false none ("echo".toList ++ ' ' :: (msg ++ ' ' :: (">".toList ++
            ' ' :: remotefile))) := rfl
      _ = ["echo".toList, msg, ">".toList, remotefile] := by
          rw [wordsFrom_blank (by decide), wordsFrom_blank plain, wordsFrom_blank (by decide),
            wordsFrom_end (by decide)]
  obtain ⟨noFile, noCopy⟩ := PlainWord.noRedirect noArrow
  have command : redirect ["echo".toList, msg, ">".toList, remotefile] =
      ⟨["echo".toList, msg], some remotefile⟩ := by
    rw [redirect, if_neg (by decide), if_neg (by decide), redirect, if_neg noFile, if_neg noCopy]
    rfl
  have printed : echo [msg] = msg ++ ['\n'] := by simp [echo]
  simp only [Hosts.runOn, words, command, if_true, printed]

theorem pushAgent_eq (hosts : Hosts) {ip : Chars} (address : IsAddress ip) (script flag : Chars)
    {msg : Chars} (plain : PlainWord msg) (noArrow : '>' ∉ msg) :
    pushAgent hosts [script, ip, msg, flag] =
      Function.update hosts ip
        (Function.update (hosts ip) remotefile (some (msg ++ ['\n']))) := by
  have target : PlainWord ("root@".toList ++ ip) := by
    obtain ⟨-, plainIp⟩ := address.plainWord
    refine ⟨by simp, ?_⟩
    rw [List.all_append, plainIp]
    rfl
  have noQuote : '\'' ∉ "echo ".toList ++ (msg ++ (" > ".toList ++ remotefile)) := by
    have noQuoteMsg : '\'' ∉ msg := fun member => (plain.ne member).1 rfl
    simp only [List.mem_append, not_or]
    exact ⟨by decide, noQuoteMsg, by decide, by decide⟩
  have words : shellWords ("ssh ".toList ++ ("root".toList ++ ("@".toList ++ (ip ++
      (" 'echo ".toList ++ (msg ++ (" > ".toList ++ (remotefile ++
        "' 2>&1 > /dev/null".toList)))))))) =
      ["ssh".toList, "root@".toList ++ ip, "echo ".toList ++ (msg ++ (" > ".toList ++ remotefile)),
        "2>&1".toList, ">".toList, "/dev/null".toList] := by
    have line : "ssh ".toList ++ ("root".toList ++ ("@".toList ++ (ip ++ (" 'echo ".toList ++ (msg ++
        (" > ".toList ++ (remotefile ++ "' 2>&1 > /dev/null".toList))))))) =
        "ssh".toList ++ ' ' :: (("root@".toList ++ ip) ++ ' ' :: ('\'' :: (("echo ".toList ++ (msg ++
          (" > ".toList ++ remotefile))) ++ '\'' :: ' ' :: "2>&1 > /dev/null".toList))) := by
      simp only [List.append_assoc]
      rfl
    rw [shellWords, line, wordsFrom_blank (by decide), wordsFrom_blank target,
      wordsFrom_quoted noQuote]
    rfl
  have noArrowIp : '>' ∉ ip := address.ne (by decide)
  obtain ⟨noFile, noCopy⟩ := PlainWord.noRedirect
    (show '>' ∉ "root@".toList ++ ip by simp [noArrowIp])
  have command : (redirect ["ssh".toList, "root@".toList ++ ip,
      "echo ".toList ++ (msg ++ (" > ".toList ++ remotefile)), "2>&1".toList, ">".toList,
      "/dev/null".toList]).argv =
      ["ssh".toList, "root@".toList ++ ip,
        "echo ".toList ++ (msg ++ (" > ".toList ++ remotefile))] := by
    rw [redirect, if_neg (by decide), if_neg (by decide), redirect, if_neg noFile, if_neg noCopy]
    rfl
  have host : (("root@".toList ++ ip).dropWhile fun c => c ≠ '@').drop 1 = ip := rfl
  simp only [pushAgent, Hosts.ssh, words, command, host, if_true]
  exact runOn_echo hosts ip plain noArrow

theorem python_eq (hosts : Hosts) {ip : Chars} (address : IsAddress ip) (ddcmList : List Chars)
    (gid : Nat) :
    hosts.python ("python ./push_agent.py ".toList ++ (ip ++ (" ".toList ++
        pushMsg ddcmList ip gid))) =
      Function.update hosts ip
        (Function.update (hosts ip) remotefile (some (pyRepr gid ++ ['\n']))) := by
  obtain ⟨flag, flagEq, flagPlain, flagArrow⟩ : ∃ flag : Chars,
      (if ip ∈ ddcmList then "1".toList else "0".toList) = flag ∧ PlainWord flag ∧ '>' ∉ flag := by
    split
    · exact ⟨_, rfl, by decide, by decide⟩
    · exact ⟨_, rfl, by decide, by decide⟩
  have words : shellWords ("python ./push_agent.py ".toList ++ (ip ++ (" ".toList ++
      pushMsg ddcmList ip gid))) =
        ["python".toList, "./push_agent.py".toList, ip, pyRepr gid, flag] := by
    rw [pushMsg, flagEq]
    calc shellWords ("python ./push_agent.py ".toList ++ (ip ++ (" ".toList ++ (pyRepr gid ++
          (" ".toList ++ flag)))))
        = wordsFrom false none ("python".toList ++ ' ' :: ("./push_agent.py".toList ++ ' ' ::
            (ip ++ ' ' :: (pyRepr gid ++ ' ' :: flag)))) := rfl
      _ = ["python".toList, "./push_agent.py".toList, ip, pyRepr gid, flag] := by
          rw [wordsFrom_blank (by decide), wordsFrom_blank (by decide),
            wordsFrom_blank address.plainWord, wordsFrom_blank (plainWord_pyRepr gid),
            wordsFrom_end flagPlain]
  have noArrowIp : '>' ∉ ip := address.ne (by decide)
  have command : redirect ["python".toList, "./push_agent.py".toList, ip, pyRepr gid, flag] =
      ⟨["python".toList, "./push_agent.py".toList, ip, pyRepr gid, flag], none⟩ := by
    refine redirect_of_plain fun word member => PlainWord.noRedirect ?_
    simp only [List.mem_cons, List.not_mem_nil, or_false] at member
    obtain rfl | rfl | rfl | rfl | rfl := member
    · decide
    · decide
    · exact noArrowIp
    · exact (not_mem_pyRepr gid (by decide) (by decide))
    · exact flagArrow
  simp only [Hosts.python, words, command, true_and, if_true]
  exact pushAgent_eq hosts address _ flag (plainWord_pyRepr gid) ((not_mem_pyRepr gid (by decide) (by decide)))

def pushed (hosts : Hosts) (pushes : List (Chars × Nat)) : Hosts :=
  pushes.foldl (fun hosts push => Function.update hosts push.1
    (Function.update (hosts push.1) remotefile (some (pyRepr push.2 ++ ['\n'])))) hosts

theorem pushed_cases (hosts : Hosts) (pushes : List (Chars × Nat)) (host : Chars) :
    (∃ push ∈ pushes, push.1 = host ∧
      pushed hosts pushes host remotefile = some (pyRepr push.2 ++ ['\n'])) ∨
    (∀ push ∈ pushes, push.1 ≠ host) ∧
      pushed hosts pushes host remotefile = hosts host remotefile := by
  induction pushes generalizing hosts with
  | nil => exact Or.inr ⟨by simp, rfl⟩
  | cons push pushes ih =>
    obtain ⟨later, member, keyEq, file⟩ | ⟨none_, file⟩ := ih (Function.update hosts push.1
      (Function.update (hosts push.1) remotefile (some (pyRepr push.2 ++ ['\n']))))
    · exact Or.inl ⟨later, by simp [member], keyEq, file⟩
    · by_cases here : push.1 = host
      · refine Or.inl ⟨push, by simp, here, file.trans ?_⟩
        rw [here, Function.update_self, Function.update_self]
      · refine Or.inr ⟨?_, file.trans ?_⟩
        · rintro other (_ | ⟨_, member⟩)
          · exact here
          · exact none_ other member
        · rw [Function.update_of_ne (Ne.symm here)]

theorem doPushFrom_eq {dcmList : List Chars} (ddcmList : List Chars)
    (addresses : ∀ ip ∈ dcmList, IsAddress ip) {lines : List Chars} {gids : List Nat}
    (ids : lines.map pyInt = gids.map some) (hosts : Hosts) {i : Nat}
    (enough : i + gids.length ≤ dcmList.length) :
    doPushFrom dcmList ddcmList hosts i lines =
      some (pushed hosts ((dcmList.drop i).zip gids)) := by
  induction lines generalizing hosts i gids with
  | nil =>
    obtain rfl : gids = [] := by simpa using ids.symm
    simp [doPushFrom, pushed]
  | cons line lines ih =>
    cases gids with
    | nil => simp at ids
    | cons gid gids =>
      obtain ⟨here, rest⟩ := List.cons.inj ids
      rw [List.length_cons] at enough
      have inside : i < dcmList.length := by omega
      have address := addresses dcmList[i] (List.getElem_mem inside)
      have next := ih rest (pushed hosts [(dcmList[i], gid)]) (i := i + 1) (by omega)
      rw [doPushFrom, here]
      simp only [Option.bind_eq_bind, Option.bind_some, List.getElem?_eq_getElem inside,
        python_eq hosts address]
      rw [List.drop_eq_getElem_cons inside, List.zip_cons_cons]
      exact next

def readGid (gid : Nat) : BitVec 32 := if gid < 2 ^ 64 then BitVec.ofNat 32 gid else 0xffffffff

theorem toNat_readGid {gid : Nat} (small : gid < 2 ^ 32) : (readGid gid).toNat = gid := by
  rw [readGid, if_pos (by omega), BitVec.toNat_ofNat, Nat.mod_eq_of_lt small]

theorem scanGidFile_pyRepr (gid : Nat) :
    scanGidFile (pyRepr gid ++ ['\n']) = { gid := readGid gid, ddcm := 0 } := by
  have noFlag {rest : Chars} (stops : NoDigit 10 rest) (nothing : scanUnsigned rest = none) :
      scanGidFile (Nat.toDigits 10 gid ++ rest) = { gid := readGid gid, ddcm := 0 } := by
    have first : scanUnsigned (Nat.toDigits 10 gid ++ rest) = some (readGid gid, rest) := by
      rw [scanUnsigned, readInteger_toDigits (by decide) (by decide) gid stops, Option.map_some,
        Int.natAbs_natCast, BitVec.ofInt_natCast]
      rfl
    simp only [scanGidFile, first, nothing, Option.map_none, Option.getD_none]
  rw [pyRepr, List.append_assoc]
  split
  · exact noFlag (by decide) (by decide)
  · exact noFlag (by decide) (by decide)

/-- The groups arrive at the switches exactly when every group id is a number of 32 bits, no switch
is a designated one, and lines for the same address have the same group id. -/
theorem groupsArrive_iff {dcmList : List Chars} (ddcmList : List Chars) {lines : List Chars}
    {gids : List Nat} (hosts : Hosts) (addresses : ∀ ip ∈ dcmList, IsAddress ip)
    (ids : lines.map pyInt = gids.map some) (enough : lines.length ≤ dcmList.length) :
    ∃ after, doPush dcmList ddcmList lines hosts = some after ∧
      (GroupsArrive dcmList ddcmList gids after ↔
        ∀ (i : Nat) (ip : Chars) (gid : Nat), dcmList[i]? = some ip → gids[i]? = some gid →
          gid < 2 ^ 32 ∧ ip ∉ ddcmList ∧
            ∀ (j : Nat) (other : Nat), dcmList[j]? = some ip → gids[j]? = some other →
              other = gid) := by
  have sameLength : lines.length = gids.length := by simpa using congrArg List.length ids
  refine ⟨pushed hosts (dcmList.zip gids),
    doPushFrom_eq ddcmList addresses ids hosts (by omega), ?_⟩
  -- The file of a switch holds the group id of one of the lines for its address.
  have file {i : Nat} {ip : Chars} {gid : Nat} (name : dcmList[i]? = some ip)
      (line : gids[i]? = some gid) :
      ∃ j other : Nat, dcmList[j]? = some ip ∧ gids[j]? = some other ∧
        (pushed hosts (dcmList.zip gids)).gidFile ip = some { gid := readGid other, ddcm := 0 } := by
    have member : (ip, gid) ∈ dcmList.zip gids :=
      List.mem_iff_getElem?.mpr ⟨i, List.getElem?_zip_eq_some.mpr ⟨name, line⟩⟩
    obtain ⟨push, inList, rfl, content⟩ | ⟨none_, -⟩ := pushed_cases hosts (dcmList.zip gids) ip
    · obtain ⟨j, found⟩ := List.mem_iff_getElem?.mp inList
      obtain ⟨nameThere, lineThere⟩ := List.getElem?_zip_eq_some.mp found
      refine ⟨j, push.2, nameThere, lineThere, ?_⟩
      rw [Hosts.gidFile, content, Option.map_some, scanGidFile_pyRepr]
    · exact absurd rfl (none_ _ member)
  constructor
  · intro arrive i ip gid name line
    obtain ⟨read, found, gidEq, ddcmEq⟩ := arrive i ip gid name line
    obtain ⟨j, other, -, -, content⟩ := file name line
    obtain rfl : { gid := readGid other, ddcm := 0 } = read :=
      Option.some.inj (content.symm.trans found)
    refine ⟨?_, fun designated => ?_, fun k third nameThere lineThere => ?_⟩
    · rw [← gidEq]
      exact BitVec.isLt _
    · rw [if_pos designated] at ddcmEq
      exact absurd ddcmEq (show (0 : BitVec 32) ≠ 1 by decide)
    · obtain ⟨again, foundAgain, thirdEq, -⟩ := arrive k ip third nameThere lineThere
      obtain rfl := Option.some.inj (content.symm.trans foundAgain)
      exact thirdEq.symm.trans gidEq
  · intro condition i ip gid name line
    obtain ⟨small, ordinary, same⟩ := condition i ip gid name line
    obtain ⟨j, other, nameThere, lineThere, content⟩ := file name line
    obtain rfl := same j other nameThere lineThere
    exact ⟨_, content, toNat_readGid small, (if_neg ordinary).symm⟩

def sampleDcmList : List Chars := ["192.168.10.1".toList, "192.168.10.10".toList]

theorem groupsArrive_iff_oneSwitch :
    ∃ after, doPush sampleDcmList ["192.168.10.10".toList] ["3".toList] (fun _ _ => none) =
        some after ∧
      GroupsArrive sampleDcmList ["192.168.10.10".toList] [3] after := by
  obtain ⟨after, run, arrive⟩ := @groupsArrive_iff sampleDcmList ["192.168.10.10".toList]
    ["3".toList] [3] (fun _ _ => none) (by decide) (by decide) (by decide)
  refine ⟨after, run, arrive.mpr fun i ip gid name line => ?_⟩
  cases i with
  | zero =>
    obtain rfl := Option.some.inj name
    obtain rfl := Option.some.inj line
    refine ⟨by decide, by decide, fun j other nameThere lineThere => ?_⟩
    cases j with
    | zero => exact (Option.some.inj lineThere).symm
    | succ j => cases lineThere
  | succ i => cases line

/-- The designated switch of the second group reads that it is none. -/
theorem not_groupsArrive_designated :
    ∃ after, doPush sampleDcmList ["192.168.10.10".toList] ["3".toList, "4".toList]
        (fun _ _ => none) = some after ∧
      after.gidFile "192.168.10.10".toList = some { gid := 4, ddcm := 0 } ∧
      ¬ GroupsArrive sampleDcmList ["192.168.10.10".toList] [3, 4] after := by
  have run := @doPushFrom_eq sampleDcmList ["192.168.10.10".toList] (by decide)
    ["3".toList, "4".toList] [3, 4] (by decide) (fun _ _ => none) 0 (by decide)
  have read : (pushed (fun _ _ => none) ((sampleDcmList.drop 0).zip [3, 4])).gidFile
      "192.168.10.10".toList = some { gid := 4, ddcm := 0 } := by decide
  refine ⟨_, run, read, fun arrive => ?_⟩
  obtain ⟨file, found, -, flag⟩ := arrive 1 "192.168.10.10".toList 4 rfl rfl
  obtain rfl := Option.some.inj (read.symm.trans found)
  exact absurd flag (by decide)

end LazyCtrl
