import LazyCtrl.Lib.Netlink
import LazyCtrl.Lib.Text

/-!
# Datapath actions as text

`format_odp_actions` and `odp_actions_from_string` of `lib/odp-util.c`.  The texts of `SET` and
`SAMPLE` actions, which carry other attributes, are left to parameters.
-/

namespace LazyCtrl
namespace Odp

open Bytes Netlink Text

def ovsActionAttrOutput : BitVec 16 := 1
def ovsActionAttrUserspace : BitVec 16 := 2
def ovsActionAttrSet : BitVec 16 := 3
def ovsActionAttrPushVlan : BitVec 16 := 4
def ovsActionAttrPopVlan : BitVec 16 := 5
def ovsActionAttrSample : BitVec 16 := 6
def ovsActionAttrRemote : BitVec 16 := 7
def ovsUserspaceAttrPid : BitVec 16 := 1
def ovsUserspaceAttrUserdata : BitVec 16 := 2

def le64 (bytes : List (BitVec 8)) (i : Nat) : BitVec 64 := le32 bytes (i + 4) ++ le32 bytes i

def putLe64 (x : BitVec 64) : List (BitVec 8) :=
  putLe32 (x.extractLsb' 0 32) ++ putLe32 (x.extractLsb' 32 32)

def odpActionLen (type : BitVec 16) : Int :=
  if type = ovsActionAttrOutput then 4
  else if type = ovsActionAttrUserspace then -2
  else if type = ovsActionAttrPushVlan then 4
  else if type = ovsActionAttrPopVlan then 0
  else if type = ovsActionAttrSet then -2
  else if type = ovsActionAttrSample then -2
  else if type = ovsActionAttrRemote then 8
  else -1

def outputAttr (port : BitVec 32) : Nlattr := ⟨ovsActionAttrOutput, putLe32 port⟩

def userspaceAttr (pid : BitVec 32) (cookie : Option (BitVec 64)) : Nlattr :=
  ⟨ovsActionAttrUserspace, putAttrs (⟨ovsUserspaceAttrPid, putLe32 pid⟩ ::
    (cookie.map fun cookie => Nlattr.mk ovsUserspaceAttrUserdata (putLe64 cookie)).toList)⟩

def pushVlanAttr (tpid tci : BitVec 16) : Nlattr := ⟨ovsActionAttrPushVlan, put16 tpid ++ put16 tci⟩

def popVlanAttr : Nlattr := ⟨ovsActionAttrPopVlan, []⟩

def remoteAttr (payload : BitVec 64) : Nlattr := ⟨ovsActionAttrRemote, putLe64 payload⟩

def slowPathCookie (unused : BitVec 16) (reason : BitVec 32) : BitVec 64 :=
  reason ++ (unused ++ (2 : BitVec 16))

def sflowCookie (vlanTci : BitVec 16) (output : BitVec 32) : BitVec 64 :=
  output ++ ((vlanTci.extractLsb' 0 8 ++ vlanTci.extractLsb' 8 8 : BitVec 16) ++ (1 : BitVec 16))

def decimal (n : Nat) : Chars := Nat.toDigits 10 n

def hex (n : Nat) : Chars := Nat.toDigits 16 n

def hexPadded (width n : Nat) : Chars := List.replicate (width - (hex n).length) '0' ++ hex n

def chomp (c : Char) (text : Chars) : Chars :=
  if text.getLast? = some c then text.dropLast else text

def formatGenericOdpAction (a : Nlattr) : Chars :=
  "action".toList ++ (decimal a.type.toNat ++
    if a.payload = [] then []
    else
      '(' :: ((a.payload.map fun byte => hexPadded 2 byte.toNat).intersperse [' ']).flatten ++ [')'])

def slowPathReasonToString : Nat → Option Chars
  | 0 => some "cfm".toList
  | 1 => some "lacp".toList
  | 2 => some "stp".toList
  | 3 => some "in_band".toList
  | 4 => some "controller".toList
  | 5 => some "match".toList
  | _ => none

def knownReasons : BitVec 32 := 0x3f

def reasonBits (slow : BitVec 32) : List Nat := (List.range 32).filter slow.getLsbD

def formatSlowPathReason (slow : BitVec 32) : Chars :=
  let bad := slow &&& ~~~knownReasons
  let items := (reasonBits slow).filterMap slowPathReasonToString ++
    if bad = 0 then [] else ["0x".toList ++ hex bad.toNat]
  chomp ',' (items.flatMap fun item => item ++ [','])

def vlanTciToVid (tci : BitVec 16) : BitVec 16 := tci &&& 0x0fff

def vlanTciToPcp (tci : BitVec 16) : BitVec 16 := (tci &&& 0xe000) >>> 13

def parseUserspaceAttrs (payload : List (BitVec 8)) : Option (BitVec 32 × Option (BitVec 64)) :=
  let walk := nlAttrForEach payload
  let pids := walk.1.filter fun attr => attr.type = ovsUserspaceAttrPid
  let userdatas := walk.1.filter fun attr => attr.type = ovsUserspaceAttrUserdata
  if walk.2 || pids.any (fun attr => attr.payload.length ≠ 4) ||
      userdatas.any (fun attr => attr.payload.length ≠ 8) then none
  else pids.getLast?.map fun pid =>
    (le32 pid.payload 0, userdatas.getLast?.map fun userdata => le64 userdata.payload 0)

def formatCookie (userdata : BitVec 64) : Chars :=
  let type := userdata.extractLsb' 0 16
  let high := userdata.extractLsb' 32 32
  if type = 1 then
    let tci := userdata.extractLsb' 16 8 ++ userdata.extractLsb' 24 8
    ",sFlow(vid=".toList ++ (decimal (vlanTciToVid tci).toNat ++ (",pcp=".toList ++
      (decimal (vlanTciToPcp tci).toNat ++ (",output=".toList ++ (decimal high.toNat ++
        ")".toList)))))
  else if type = 2 then
    ",slow_path(".toList ++ ((if high = 0 then [] else formatSlowPathReason high) ++ ")".toList)
  else ",userdata=0x".toList ++ hex userdata.toNat

def formatOdpUserspaceAction (a : Nlattr) : Chars :=
  match parseUserspaceAttrs a.payload with
  | none => "userspace(error)".toList
  | some (pid, userdata) =>
    "userspace(pid=".toList ++ (decimal pid.toNat ++
      ((userdata.map formatCookie).getD [] ++ ")".toList))

def formatVlanTci (tci : BitVec 16) : Chars :=
  "vid=".toList ++ (decimal (vlanTciToVid tci).toNat ++ (",pcp=".toList ++
    (decimal (vlanTciToPcp tci).toNat ++ if tci &&& 0x1000 = 0 then ",cfi=0".toList else [])))

def formatOdpAction (formatOther : Nlattr → Chars) (a : Nlattr) : Chars :=
  let expectedLen := odpActionLen a.type
  if expectedLen ≠ -2 ∧ (a.payload.length : Int) ≠ expectedLen then
    "bad length ".toList ++ (decimal a.payload.length ++ (", expected ".toList ++
      ((if expectedLen < 0 then ['-'] else []) ++ (decimal expectedLen.natAbs ++
        (" for: ".toList ++ formatGenericOdpAction a)))))
  else if a.type = ovsActionAttrOutput then
    -- the conversion of `PRIu16` is the one of an unsigned int
    decimal (le32 a.payload 0).toNat
  else if a.type = ovsActionAttrUserspace then formatOdpUserspaceAction a
  else if a.type = ovsActionAttrPushVlan then
    let tpid := be16 a.payload 0
    "push_vlan(".toList ++ ((if tpid = 0x8100 then []
      else "tpid=0x".toList ++ (hexPadded 4 tpid.toNat ++ ",".toList)) ++
        (formatVlanTci (be16 a.payload 2) ++ ")".toList))
  else if a.type = ovsActionAttrPopVlan then "pop_vlan".toList
  else if a.type = ovsActionAttrRemote then
    let payload := le64 a.payload 0
    "remote(".toList ++ ("0x".toList ++ (hex payload.toNat ++ (",0x".toList ++
      (hex (payload >>> 32).toNat ++ (",0x".toList ++ (hex (payload.setWidth 32).toNat ++
        ")".toList))))))
  else if a.type = ovsActionAttrSet ∨ a.type = ovsActionAttrSample then formatOther a
  else formatGenericOdpAction a

def formatOdpActions (formatOther : Nlattr → Chars) (actions : List (BitVec 8)) : Chars :=
  if actions = [] then "drop".toList
  else
    let walk := nlAttrForEach actions
    ((walk.1.map (formatOdpAction formatOther)).intersperse [',']).flatten ++
      if walk.2 then
        let left := actions.drop (walk.1.map fun a => align a.len).sum
        (if walk.1 = [] then "<empty>".toList else []) ++ (",***".toList ++ (decimal left.length ++
          (" leftover bytes*** (".toList ++
            (left.flatMap (fun byte => hexPadded 2 byte.toNat) ++ ")".toList))))
      else []

inductive ParseResult where
  | ok (attr : Nlattr) (rest : Chars)
  | einval
  | undefined
  deriving DecidableEq, Repr

def isDelimiter (c : Char) : Bool := c = ',' ∨ c = ' ' ∨ c = '\t' ∨ c = '\r' ∨ c = '\n'

def stored (width : Nat) (value : Int) : BitVec width :=
  BitVec.ofInt width (max (-2 ^ 63) (min value (2 ^ 63 - 1)))

def parseOutput (s : Chars) : Option ParseResult :=
  (readInteger 0 s).map fun read => .ok (outputAttr (stored 32 read.1)) read.2

def parsePortName (portNames : Chars → Option (BitVec 32)) (s : Chars) : Option ParseResult :=
  (portNames (s.takeWhile fun c => !isDelimiter c)).map fun port =>
    .ok (outputAttr port) (s.dropWhile fun c => !isDelimiter c)

def parseUserspacePid (s : Chars) : Option ParseResult :=
  match scan (format "userspace(pid=%)".toList) s with
  | some ([pid], rest) => some (.ok (userspaceAttr (stored 32 pid) none) rest)
  | _ => none

def parseUserspaceSflow (s : Chars) : Option ParseResult :=
  match scan (format "userspace(pid=%,sFlow(vid=%,pcp=%,output=%))".toList) s with
  | some ([pid, vid, pcp, output], rest) =>
    let tci := stored 16 vid ||| stored 16 pcp <<< 13
    let tci := if tci = 0 then tci else tci ||| 0x1000
    some (.ok (userspaceAttr (stored 32 pid) (some (sflowCookie tci (stored 32 output)))) rest)
  | _ => none

def findReason (s : Chars) : Option (Nat × Chars) :=
  (List.range 6).findSome? fun bit => do
    let reason ← slowPathReasonToString bit
    if reason.isPrefixOf s then
      match s.drop reason.length with
      | ',' :: rest => some (bit, rest)
      | ')' :: rest => some (bit, ')' :: rest)
      | _ => none
    else none

/-- The loop over the reasons of a slow path.  There is no result when none of the reasons that have
a string is there: the next string is a null pointer, whose length is asked for. -/
def reasonLoop : Nat → BitVec 32 → Chars → Option (BitVec 32 × Chars)
  | 0, _, _ => none
  | turns + 1, reason, s =>
    match s with
    | ')' :: _ => some (reason, s)
    | _ => (findReason s).bind fun found =>
      reasonLoop turns (reason ||| BitVec.twoPow 32 found.1) found.2

def finishSlowPath (pid : BitVec 32) : Option (BitVec 32 × Chars) → ParseResult
  | none => .undefined
  | some (reason, ')' :: ')' :: rest) =>
    .ok (userspaceAttr pid (some (slowPathCookie 0 reason))) rest
  | some _ => .einval

def parseUserspaceSlowPath (s : Chars) : Option ParseResult :=
  match scan (format "userspace(pid=%,slow_path(".toList) s with
  | some ([pid], rest) =>
    some (finishSlowPath (stored 32 pid) (reasonLoop (rest.length + 1) 0 rest))
  | _ => none

def parseUserspaceUserdata (s : Chars) : Option ParseResult :=
  match scan (format "userspace(pid=%,userdata=".toList) s with
  | some ([pid], rest) =>
    let digits := (rest.takeWhile fun c => c = 'x' || isDigitOf 16 c).take 31
    if digits = [] then none
    else
      match rest.drop digits.length with
      | ')' :: rest =>
        let value := ((readInteger 0 digits).map Prod.fst).getD 0
        let userdata := BitVec.ofInt 64 (min value (2 ^ 64 - 1))
        some (.ok (userspaceAttr (stored 32 pid) (some userdata)) rest)
      | _ => none
  | _ => none

def pushVlanOf (tpid vid pcp cfi : Int) : Nlattr :=
  pushVlanAttr (stored 16 tpid)
    (stored 16 vid ||| stored 16 pcp <<< 13 ||| if stored 32 cfi = 0 then 0 else 0x1000)

def parsePushVlan (s : Chars) : Option ParseResult :=
  match scan (format "push_vlan(vid=%,pcp=%)".toList) s with
  | some ([vid, pcp], rest) => some (.ok (pushVlanOf 0x8100 vid pcp 1) rest)
  | _ =>
    match scan (format "push_vlan(vid=%,pcp=%,cfi=%)".toList) s with
    | some ([vid, pcp, cfi], rest) => some (.ok (pushVlanOf 0x8100 vid pcp cfi) rest)
    | _ =>
      match scan (format "push_vlan(tpid=%,vid=%,pcp=%)".toList) s with
      | some ([tpid, vid, pcp], rest) => some (.ok (pushVlanOf tpid vid pcp 1) rest)
      | _ =>
        match scan (format "push_vlan(tpid=%,vid=%,pcp=%,cfi=%)".toList) s with
        | some ([tpid, vid, pcp, cfi], rest) => some (.ok (pushVlanOf tpid vid pcp cfi) rest)
        | _ => none

def parsePopVlan (s : Chars) : Option ParseResult :=
  if "pop_vlan".toList.isPrefixOf s then some (.ok popVlanAttr (s.drop 8)) else none

section Parse

variable (portNames : Chars → Option (BitVec 32)) (parseSet parseSample : Chars → ParseResult)

def parseKeyword (s : Chars) : ParseResult :=
  (parseUserspacePid s <|> parseUserspaceSflow s <|> parseUserspaceSlowPath s <|>
    parseUserspaceUserdata s <|>
    (if "set(".toList.isPrefixOf s then some (parseSet s) else none) <|> parsePushVlan s <|>
    parsePopVlan s <|>
    (if "sample(sample=".toList.isPrefixOf s then some (parseSample s) else none)).getD .einval

def parseOdpAction (s : Chars) : ParseResult :=
  (parseOutput s <|> parsePortName portNames s).getD (parseKeyword parseSet parseSample s)

def fromStringLoop (old : List (BitVec 8)) :
    Nat → Chars → List (BitVec 8) → Option (Int × List (BitVec 8))
  | 0, _, _ => none
  | turns + 1, s, actions =>
    let s := s.dropWhile isDelimiter
    if s = [] then some (0, actions)
    else
      match parseOdpAction portNames parseSet parseSample s with
      | .undefined => none
      | .einval => some (22, old)
      | .ok attr rest =>
        if rest.head?.all isDelimiter then fromStringLoop old turns rest (actions ++ attr.put)
        else some (-((s.length : Int) - rest.length), old)

def odpActionsFromString (s : Chars) (actions : List (BitVec 8)) :
    Option (Int × List (BitVec 8)) :=
  if s.map Char.toLower = "drop".toList then some (0, actions)
  else fromStringLoop portNames parseSet parseSample actions (s.length + 1) s actions

end Parse

end Odp
end LazyCtrl
