import LazyCtrl.Lib.Record
import LazyCtrl.Odp.ActionText
import LazyCtrl.Ofp.Ofpact

/-!
# OpenFlow actions as text

`ofpacts_format` of `lib/ofp-actions.c` and `str_to_ofpacts` of `lib/ofp-parse.c`, with the functions
that they call.  A parser has no result where the program ends with an error message, and where it
would read on behind the end of the text.

The texts of actions that carry subfields, and of `LEARN`, are left to parameters.
-/

namespace LazyCtrl
namespace OfpText

open Bytes Text
open Odp (decimal hex hexPadded chomp stored isDelimiter)

def namedPorts : List (Chars × BitVec 16) :=
  [("IN_PORT".toList, ofppInPort), ("TABLE".toList, 0xfff9), ("NORMAL".toList, 0xfffa),
    ("FLOOD".toList, 0xfffb), ("ALL".toList, 0xfffc), ("CONTROLLER".toList, ofppController),
    ("LOCAL".toList, ofppLocal), ("NONE".toList, 0xffff)]

def ofprAction : BitVec 8 := 1

def ofprNReasons : Nat := 3

def ofputilPacketInReasonToString : Nat → Chars
  | 0 => "no_match".toList
  | 1 => "action".toList
  | 2 => "invalid_ttl".toList
  | reason => decimal reason

/-- The names of `ofp-util.def`.  The OpenFlow 1.1 actions have names that OpenFlow 1.0 actions have
before them. -/
def actionName : ActionCode → Option Chars
  | .output => some "output".toList
  | .setVlanVid => some "mod_vlan_vid".toList
  | .setVlanPcp => some "mod_vlan_pcp".toList
  | .stripVlan => some "strip_vlan".toList
  | .setDlSrc => some "mod_dl_src".toList
  | .setDlDst => some "mod_dl_dst".toList
  | .setNwSrc => some "mod_nw_src".toList
  | .setNwDst => some "mod_nw_dst".toList
  | .setNwTos => some "mod_nw_tos".toList
  | .setTpSrc => some "mod_tp_src".toList
  | .setTpDst => some "mod_tp_dst".toList
  | .enqueue => some "enqueue".toList
  | .remote => some "remote".toList
  | .resubmit => some "resubmit".toList
  | .setTunnel => some "set_tunnel".toList
  | .setQueue => some "set_queue".toList
  | .popQueue => some "pop_queue".toList
  | .regMove => some "move".toList
  | .regLoad => some "load".toList
  | .note => some "note".toList
  | .setTunnel64 => some "set_tunnel64".toList
  | .multipath => some "multipath".toList
  | .autopath => some "autopath".toList
  | .bundle => some "bundle".toList
  | .bundleLoad => some "bundle_load".toList
  | .resubmitTable => none
  | .outputReg => none
  | .learn => some "learn".toList
  | .exit => some "exit".toList
  | .decTtl => some "dec_ttl".toList
  | .finTimeout => some "fin_timeout".toList
  | .controller => some "controller".toList
  | .decTtlCntIds => none

def joined (separator : Char) (parts : List Chars) : Chars :=
  (parts.intersperse [separator]).flatten

def field (name : String) (arg : Chars) : Chars := name.toList ++ ':' :: arg

def ofputilFormatPort (port : BitVec 16) : Chars :=
  match namedPorts.find? (·.2 = port) with
  | some named => named.1
  | none => decimal port.toNat

def markedHex (n : Nat) : Chars := if n = 0 then ['0'] else '0' :: 'x' :: hex n

def formatEthAddr (mac : BitVec 48) : Chars :=
  joined ':' ((put48 mac).map fun byte => hexPadded 2 byte.toNat)

def formatIp (ip : BitVec 32) : Chars := joined '.' ((put32 ip).map fun byte => decimal byte.toNat)

def printNote (data : List (BitVec 8)) : Chars :=
  field "note" (joined '.' (data.map fun byte => hexPadded 2 byte.toNat))

def printDecTtl (cntIds : List (BitVec 16)) (compat : Option ActionCode) : Chars :=
  "dec_ttl".toList ++
    if compat = some .decTtlCntIds then
      '(' :: (joined ',' (cntIds.map fun id => decimal id.toNat) ++ [')'])
    else []

def option (name : String) (present : Bool) (value : Chars) : Chars :=
  if present then name.toList ++ '=' :: (value ++ [',']) else []

def printFinTimeout (finIdleTimeout finHardTimeout : BitVec 16) : Chars :=
  chomp ',' ("fin_timeout(".toList ++
    (option "idle_timeout" (finIdleTimeout ≠ 0) (decimal finIdleTimeout.toNat) ++
      option "hard_timeout" (finHardTimeout ≠ 0) (decimal finHardTimeout.toNat))) ++ [')']

def formatOutput (port maxLen : BitVec 16) : Chars :=
  if (port.toNat : Int) < ofppMax then field "output" (decimal port.toNat)
  else
    ofputilFormatPort port ++
      if port = ofppController then ':' :: decimal maxLen.toNat else []

def formatRemote (port : BitVec 16) (ip : BitVec 32) : Chars :=
  if (port.toNat : Int) < ofppMax then
    "remote:port=".toList ++ (decimal port.toNat ++ (",ip=0x".toList ++ hex ip.toNat))
  else ofputilFormatPort port

def formatController (maxLen controllerId : BitVec 16) (reason : BitVec 8) : Chars :=
  if reason = ofprAction ∧ controllerId = 0 then field "CONTROLLER" (decimal maxLen.toNat)
  else
    chomp ',' ("controller(".toList ++
      (option "reason" (reason ≠ ofprAction) (ofputilPacketInReasonToString reason.toNat) ++
        (option "max_len" (maxLen ≠ 0xffff) (decimal maxLen.toNat) ++
          option "id" (controllerId ≠ 0) (decimal controllerId.toNat)))) ++ [')']

def formatResubmit (inPort : BitVec 16) (tableId : BitVec 8) : Chars :=
  if inPort ≠ ofppInPort ∧ tableId = 255 then field "resubmit" (decimal inPort.toNat)
  else
    "resubmit(".toList ++ ((if inPort ≠ ofppInPort then ofputilFormatPort inPort else []) ++
      ',' :: ((if tableId ≠ 255 then decimal tableId.toNat else []) ++ [')']))

def formatSetTunnel (tunId : BitVec 64) (compat : Option ActionCode) : Chars :=
  if tunId.toNat > 2 ^ 32 - 1 ∨ compat = some .setTunnel64 then
    field "set_tunnel64" (markedHex tunId.toNat)
  else field "set_tunnel" (markedHex tunId.toNat)

def ofpactFormat (formatOther : Ofpact → Chars) : Ofpact → Chars
  | .output port maxLen => formatOutput port maxLen
  | .remote port ip => formatRemote port ip
  | .controller maxLen controllerId reason => formatController maxLen controllerId reason
  | .enqueue port queue =>
    field "enqueue" (ofputilFormatPort port ++ 'q' :: decimal queue.toNat)
  | .setVlanVid vlanVid => field "mod_vlan_vid" (decimal vlanVid.toNat)
  | .setVlanPcp vlanPcp => field "mod_vlan_pcp" (decimal vlanPcp.toNat)
  | .stripVlan => "strip_vlan".toList
  | .setEthSrc mac => field "mod_dl_src" (formatEthAddr mac)
  | .setEthDst mac => field "mod_dl_dst" (formatEthAddr mac)
  | .setIpv4Src ipv4 => field "mod_nw_src" (formatIp ipv4)
  | .setIpv4Dst ipv4 => field "mod_nw_dst" (formatIp ipv4)
  | .setIpv4Dscp dscp => field "mod_nw_tos" (decimal dscp.toNat)
  | .setL4SrcPort port => field "mod_tp_src" (decimal port.toNat)
  | .setL4DstPort port => field "mod_tp_dst" (decimal port.toNat)
  | .decTtl cntIds compat => printDecTtl cntIds compat
  | .setTunnel tunId compat => formatSetTunnel tunId compat
  | .setQueue queueId => field "set_queue" (decimal queueId.toNat)
  | .popQueue => "pop_queue".toList
  | .finTimeout finIdleTimeout finHardTimeout => printFinTimeout finIdleTimeout finHardTimeout
  | .resubmit inPort tableId _ => formatResubmit inPort tableId
  | .note data => printNote data
  | .exit => "exit".toList
  | ofpact => formatOther ofpact

def ofpactsFormat (formatOther : Ofpact → Chars) (ofpacts : List Ofpact) : Chars :=
  "actions=".toList ++
    if ofpacts = [] then "drop".toList else joined ',' (ofpacts.map (ofpactFormat formatOther))

inductive KeyValue where
  | finished
  | pair (key value rest : Chars)
  | undefined
  deriving DecidableEq, Repr

def endsKey (c : Char) : Bool := c = ':' || c = '=' || c = '(' || isDelimiter c

def balanced : Nat → Chars → Option (Chars × Chars)
  | _, [] => none
  | depth, c :: text =>
    if c = ')' ∧ depth = 0 then some ([], text)
    else
      (balanced (if c = '(' then depth + 1 else if c = ')' then depth - 1 else depth) text).map
        fun split => (c :: split.1, split.2)

def valueOf : Chars → Option (Chars × Chars)
  | [] => some ([], [])
  | c :: text =>
    if c = ':' ∨ c = '=' then
      some (text.takeWhile (!isDelimiter ·), (text.dropWhile (!isDelimiter ·)).tail)
    else if c = '(' then balanced 0 text
    else some ([], text)

def ofputilParseKeyValue (text : Chars) : KeyValue :=
  let pos := text.dropWhile isDelimiter
  if pos = [] then .finished
  else
    match valueOf (pos.dropWhile (!endsKey ·)) with
    | some (value, rest) => .pair (pos.takeWhile (!endsKey ·)) value rest
    | none => .undefined

theorem length_balanced {depth : Nat} {text value rest : Chars}
    (split : balanced depth text = some (value, rest)) : rest.length < text.length := by
  induction text generalizing depth value with
  | nil => cases split
  | cons c text ih =>
    rw [balanced] at split
    by_cases closes : c = ')' ∧ depth = 0
    · rw [if_pos closes] at split
      obtain ⟨-, rfl⟩ := Prod.mk.inj (Option.some.inj split)
      exact Nat.lt_succ_self _
    · rw [if_neg closes, Option.map_eq_some_iff] at split
      obtain ⟨⟨more, last⟩, found, equal⟩ := split
      obtain ⟨-, rfl⟩ := Prod.mk.inj equal
      exact Nat.lt_succ_of_lt (ih found)

theorem length_valueOf {c : Char} {text value rest : Chars}
    (found : valueOf (c :: text) = some (value, rest)) : rest.length < (c :: text).length := by
  rw [valueOf] at found
  by_cases colon : c = ':' ∨ c = '='
  · rw [if_pos colon] at found
    obtain ⟨-, rfl⟩ := Prod.mk.inj (Option.some.inj found)
    have shorter := (List.dropWhile_sublist (!isDelimiter ·) (l := text)).length_le
    rw [List.length_tail, List.length_cons]
    omega
  · rw [if_neg colon] at found
    by_cases opens : c = '('
    · rw [if_pos opens] at found
      exact Nat.lt_succ_of_lt (length_balanced found)
    · rw [if_neg opens] at found
      obtain ⟨-, rfl⟩ := Prod.mk.inj (Option.some.inj found)
      exact Nat.lt_succ_self _

theorem length_ofputilParseKeyValue {text key value rest : Chars}
    (parsed : ofputilParseKeyValue text = .pair key value rest) : rest.length < text.length := by
  have skipped := (List.dropWhile_sublist isDelimiter (l := text)).length_le
  simp only [ofputilParseKeyValue] at parsed
  generalize text.dropWhile isDelimiter = pos at parsed skipped
  by_cases empty : pos = []
  · rw [if_pos empty] at parsed
    cases parsed
  · rw [if_neg empty] at parsed
    refine Nat.lt_of_lt_of_le ?_ skipped
    have left := (List.dropWhile_sublist (!endsKey ·) (l := pos)).length_le
    cases behind : pos.dropWhile (!endsKey ·) with
    | nil =>
      rw [behind] at parsed
      obtain ⟨-, -, rfl⟩ := KeyValue.pair.inj parsed
      exact List.length_pos_iff.mpr empty
    | cons c more =>
      rw [behind] at parsed left
      cases found : valueOf (c :: more) with
      | none =>
        rw [found] at parsed
        cases parsed
      | some split =>
        obtain ⟨other, last⟩ := split
        rw [found] at parsed
        obtain ⟨-, -, rfl⟩ := KeyValue.pair.inj parsed
        exact Nat.lt_of_lt_of_le (length_valueOf found) left

def keyValues (text : Chars) : Option (List (Chars × Chars)) :=
  match _parsed : ofputilParseKeyValue text with
  | .finished => some []
  | .undefined => none
  | .pair key value rest => (keyValues rest).map ((key, value) :: ·)
  termination_by text.length
  decreasing_by exact length_ofputilParseKeyValue _parsed

def strcasecmp (a b : Chars) : Bool := a.map Char.toLower = b.map Char.toLower

def strToInt (base : Nat) (text : Chars) : Option Int :=
  match readInteger base text with
  | some (value, []) =>
    if -2 ^ 63 ≤ value ∧ value < 2 ^ 63 then some (BitVec.ofInt 32 value).toInt else none
  | _ => none

def strToU16 (text : Chars) : Option (BitVec 16) :=
  (strToInt 0 text).bind fun value =>
    if value < 0 ∨ value > 65535 then none else some (BitVec.ofInt 16 value)

def strToUnsigned (width : Nat) (text : Chars) : Option (BitVec width) :=
  match readInteger 0 text with
  | some (value, []) => if value.natAbs < 2 ^ 64 then some (BitVec.ofInt width value) else none
  | _ => none

def strToU32 : Chars → Option (BitVec 32) := strToUnsigned 32

def strToU64 : Chars → Option (BitVec 64) := strToUnsigned 64

def readMarkedHex : Chars → Option (Nat × Chars)
  | '0' :: 'x' :: rest | '0' :: 'X' :: rest => readDigits 16 rest
  | text => readDigits 16 text

def storedByte (value : Int) : BitVec 8 :=
  BitVec.ofInt 8 (if value.natAbs < 2 ^ 64 then value else -1)

def scanByte (text : Chars) : Option (BitVec 8 × Chars) :=
  match text.dropWhile isSpace with
  | '-' :: rest => (readMarkedHex rest).map fun read => (storedByte (-(read.1 : Int)), read.2)
  | '+' :: rest => (readMarkedHex rest).map fun read => (storedByte read.1, read.2)
  | rest => (readMarkedHex rest).map fun read => (storedByte read.1, read.2)

def scanBytes : Nat → Chars → Option (List (BitVec 8))
  | 0, _ => some []
  | 1, text => (scanByte text).map fun read => [read.1]
  | n + 2, text =>
    (scanByte text).bind fun read =>
      match read.2 with
      | ':' :: rest => (scanBytes (n + 1) rest).map (read.1 :: ·)
      | _ => none

def strToMac (text : Chars) : Option (BitVec 48) := (scanBytes 6 text).map fun mac => be48 mac 0

def inetAtonLoop : Nat → Nat → Chars → Option Nat
  | 0, _, _ => none
  | left + 1, address, text =>
    if text.head?.any (isDigitOf 10) then
      (readMagnitude 0 text).bind fun read =>
        match read.2 with
        | '.' :: rest =>
          if left = 0 ∨ read.1 > 0xff then none
          else inetAtonLoop left (256 * address + read.1) rest
        | rest =>
          if rest.head?.all isSpace ∧ read.1 < 256 ^ (left + 1) then
            some (256 ^ (left + 1) * address + read.1)
          else none
    else none

def strToIp (text : Chars) : Option (BitVec 32) := (inetAtonLoop 4 0 text).map (BitVec.ofNat 32)

def ofputilPortFromString (name : Chars) : Option (BitVec 16) :=
  match (strToInt 0 name).filter fun i => 0 ≤ i && i < 65535 with
  | some i => some (BitVec.ofInt 16 i)
  | none => (namedPorts.find? fun named => strcasecmp name named.1).map Prod.snd

def ofputilPacketInReasonFromString (s : Chars) : Option (BitVec 8) :=
  ((List.range ofprNReasons).find? fun i => strcasecmp s (ofputilPacketInReasonToString i)).map
    (BitVec.ofNat 8)

def separatesQueue (c : Char) : Bool := c = ':' || c = 'q'

def parseEnqueue (arg : Chars) : Option Ofpact :=
  let start := arg.dropWhile separatesQueue
  let port := start.takeWhile (!separatesQueue ·)
  let queue := (start.dropWhile (!separatesQueue ·)).tail
  if port = [] ∨ queue = [] then none
  else
    (strToU32 port).bind fun port =>
      (strToU32 queue).map fun queue => .enqueue (port.setWidth 16) queue

def parseOutput (mfParseSubfield : Chars → Option MfSubfield) (arg : Chars) : Option Ofpact :=
  if '[' ∈ arg then (mfParseSubfield arg).map fun src => .outputReg src 0xffff
  else
    (strToU32 arg).map fun port =>
      .output (port.setWidth 16) (if port.setWidth 16 = ofppController then 0xffff else 0)

def parseResubmit (arg : Chars) : Option Ofpact :=
  let inPort := arg.takeWhile (· ≠ ',')
  let table := ((arg.dropWhile (· ≠ ',')).tail).takeWhile (· ≠ ',')
  (if inPort = [] then some ofppInPort
    else (ofputilPortFromString inPort).or ((strToU32 inPort).map (·.setWidth 16))).bind fun inPort =>
  (if table = [] then some 255 else (strToU32 table).map (·.setWidth 8)).bind fun tableId =>
  if inPort = ofppInPort ∧ tableId = 255 then none else some (.resubmit inPort tableId none)

def hexitsValue (c d : Char) : Option (BitVec 8) :=
  (digitValue c).bind fun high => (digitValue d).map fun low => BitVec.ofNat 8 (16 * high + low)

def noteBytes : Chars → Option (List (BitVec 8))
  | [] => some []
  | [c] => if c = '.' then some [] else none
  | [c, d] => if c = '.' then none else (hexitsValue c d).map ([·])
  | c :: d :: e :: rest =>
    if c = '.' then (hexitsValue d e).bind fun byte => (noteBytes rest).map (byte :: ·)
    else (hexitsValue c d).bind fun byte => (noteBytes (e :: rest)).map (byte :: ·)

def parseNote (arg : Chars) : Option Ofpact := (noteBytes arg).map .note

def finTimeoutOption (timeouts : BitVec 16 × BitVec 16) (pair : Chars × Chars) :
    Option (BitVec 16 × BitVec 16) :=
  if pair.1 = "idle_timeout".toList then (strToU16 pair.2).map fun idle => (idle, timeouts.2)
  else if pair.1 = "hard_timeout".toList then (strToU16 pair.2).map fun hard => (timeouts.1, hard)
  else none

def parseFinTimeout (arg : Chars) : Option Ofpact :=
  (keyValues arg).bind fun pairs =>
    (pairs.foldlM finTimeoutOption (0, 0)).map fun timeouts => .finTimeout timeouts.1 timeouts.2

structure ControllerArgs where
  reason : BitVec 8
  controllerId : BitVec 16
  maxLen : BitVec 16
  deriving DecidableEq, Repr

def controllerOption (args : ControllerArgs) (pair : Chars × Chars) : Option ControllerArgs :=
  if pair.1 = "reason".toList then
    (ofputilPacketInReasonFromString pair.2).map fun reason => { args with reason }
  else if pair.1 = "max_len".toList then
    (strToU16 pair.2).map fun maxLen => { args with maxLen }
  else if pair.1 = "id".toList then
    (strToU16 pair.2).map fun controllerId => { args with controllerId }
  else none

def controllerArgs (arg : Chars) : Option ControllerArgs :=
  let defaults : ControllerArgs := ⟨ofprAction, 0, 0xffff⟩
  if arg = [] then some defaults
  else if arg.all (isDigitOf 10) then (strToU16 arg).map fun maxLen => { defaults with maxLen }
  else (keyValues arg).bind fun pairs => pairs.foldlM controllerOption defaults

def parseController (arg : Chars) : Option Ofpact :=
  (controllerArgs arg).map fun args =>
    if args.reason = ofprAction ∧ args.controllerId = 0 then .output ofppController args.maxLen
    else .controller args.maxLen args.controllerId args.reason

def atoi16 (text : Chars) : BitVec 16 := stored 16 (((readInteger 10 text).map Prod.fst).getD 0)

def parseDecTtl (arg : Chars) : Option Ofpact :=
  if arg = [] then some (.decTtl [0] (some .decTtl))
  else
    let tokens := (arg.splitOnP fun c => c = ',' || c = ' ').filter (· ≠ [])
    if tokens = [] then none else some (.decTtl (tokens.map atoi16) (some .decTtlCntIds))

def parseMasked {width : Nat} (mask : BitVec width) (arg : Chars) : Option (BitVec width) :=
  (strToU32 arg).bind fun value =>
    if value.setWidth width &&& ~~~mask ≠ 0 then none else some (value.setWidth width)

section Parse

variable (mfParseSubfield : Chars → Option MfSubfield)
  (parseOther : ActionCode → Chars → Option (List Ofpact))

/-- The actions that are appended.  There is no case for `OFPAT10_REMOTE`.  `mfParseSubfield` and
`parseOther` parse what has to do with subfields and `LEARN`. -/
def parseNamedAction (arg : Chars) : ActionCode → Option (List Ofpact)
  | .output => (parseOutput mfParseSubfield arg).map ([·])
  | .setVlanVid => (parseMasked 0xfff arg).map fun vid => [.setVlanVid vid]
  | .setVlanPcp => (parseMasked 7 arg).map fun pcp => [.setVlanPcp pcp]
  | .stripVlan => some [.stripVlan]
  | .setDlSrc => (strToMac arg).map fun mac => [.setEthSrc mac]
  | .setDlDst => (strToMac arg).map fun mac => [.setEthDst mac]
  | .setNwSrc => (strToIp arg).map fun ip => [.setIpv4Src ip]
  | .setNwDst => (strToIp arg).map fun ip => [.setIpv4Dst ip]
  | .setNwTos => (parseMasked 0xfc arg).map fun tos => [.setIpv4Dscp tos]
  | .setTpSrc => (strToU32 arg).map fun port => [.setL4SrcPort (port.setWidth 16)]
  | .setTpDst => (strToU32 arg).map fun port => [.setL4DstPort (port.setWidth 16)]
  | .enqueue => (parseEnqueue arg).map ([·])
  | .remote => some []
  | .resubmit => (parseResubmit arg).map ([·])
  | .setTunnel => (strToU64 arg).map fun tunId => [.setTunnel tunId (some .setTunnel)]
  | .setTunnel64 => (strToU64 arg).map fun tunId => [.setTunnel tunId (some .setTunnel64)]
  | .setQueue => (strToU32 arg).map fun queueId => [.setQueue queueId]
  | .popQueue => some [.popQueue]
  | .note => (parseNote arg).map ([·])
  | .exit => some [.exit]
  | .decTtl => (parseDecTtl arg).map ([·])
  | .finTimeout => (parseFinTimeout arg).map ([·])
  | .controller => (parseController arg).map ([·])
  | .resubmitTable => none
  | .outputReg => none
  | .decTtlCntIds => none
  | code => parseOther code arg

def ofputilActionCodeFromName (name : Chars) : Option ActionCode :=
  ActionCode.all.find? fun code => (actionName code).any (strcasecmp name)

def strToOfpactsFrom : Nat → List (Chars × Chars) → Option (List Ofpact)
  | _, [] => some []
  | nActions, (act, arg) :: more =>
    match ofputilActionCodeFromName act with
    | some code =>
      (parseNamedAction mfParseSubfield parseOther arg code).bind fun put =>
        (strToOfpactsFrom (nActions + 1) more).map (put ++ ·)
    | none =>
      if strcasecmp act "drop".toList then
        if nActions ≠ 0 ∨ more ≠ [] then none else some []
      else
        (ofputilPortFromString act).bind fun port =>
          (strToOfpactsFrom (nActions + 1) more).map (.output port 0 :: ·)

def strToOfpacts (str : Chars) : Option (List Ofpact) :=
  (keyValues str).bind (strToOfpactsFrom mfParseSubfield parseOther 0)

end Parse

end OfpText
end LazyCtrl
