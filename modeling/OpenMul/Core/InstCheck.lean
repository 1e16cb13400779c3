import OpenMul.Core.Instruction
import OpenMul.Core.Normalize
import OpenMul.Core.Oxm

namespace OpenMul

open Lib (wordAt)

/-- The part of `of_flow_tbl_props_t` the checks read. -/
structure TblProps where
  bmInst : BitVec 32
  bmWrActions : BitVec 32
  bmAppActions : BitVec 32
  bmWrSetField : List (BitVec 32)
  bmAppSetField : List (BitVec 32)
  deriving DecidableEq, Repr

/-- `GET_BIT_IN_32MASK`. -/
def getBitIn32mask (mask : List (BitVec 32)) (bit : Nat) : Bool :=
  (mask.getD (bit / 32) 0).getLsbD (bit % 32)

/-- `struct ofp_inst_check_args`, for a caller with no flow to rewrite. The two
callbacks that add to a list are given by what they look up on the switch. -/
structure InstCheckArgs where
  groupActCheck : Bool := false
  tblProp : Option TblProps := none
  /-- The first word of the actions in the group features. -/
  grpProp : Option (BitVec 32) := none
  checkSetfSupp : Bool := false
  instLocal : Bool := false
  grpList : List (BitVec 32) := []
  meterList : List (BitVec 32) := []
  checkPort : Option (BitVec 32 → Bool) := none
  checkAddMeter : Option (BitVec 32 → Bool) := none
  checkAddGroup : Option (BitVec 32 → Bool) := none
  getV2pTbl : Option (Byte → Byte) := none

/-- The instructions seen so far, as the parser argument remembers them. -/
structure InstSeen where
  instWr : Bool := false
  instApp : Bool := false
  instGoto : Bool := false
  instMeter : Bool := false
  instClear : Bool := false
  instWrMeta : Bool := false
  deriving DecidableEq, Repr

/-- What the check handlers keep in `struct ofp_inst_parser_arg`. -/
structure InstCheck where
  fl : Option Flow
  mask : Option Flow
  uArg : InstCheckArgs
  actSet : Bool := false
  seen : InstSeen := {}
  pushMpls : Int := 0
  pushVlan : Int := 0
  pushPbb : Int := 0

abbrev CheckArg := ParserArg InstCheck

namespace ParserArg

def refuse (arg : CheckArg) : CheckArg := { arg with res := -1 }

/-- A check that refuses the list unless it is passed. -/
def require (arg : CheckArg) (passed : Bool) : CheckArg := if passed then arg else arg.refuse

end ParserArg

/-- `of131_check_inst_supported`. -/
def of131CheckInstSupported (dp : InstCheck) (type : InstType) : Bool :=
  match dp.uArg.tblProp with
  | none => true
  | some prop => prop.bmInst.getLsbD type.num.toNat

/-- `of131_check_action_supported`. -/
def of131CheckActionSupported (dp : InstCheck) (action : ActType) : Bool :=
  if dp.uArg.groupActCheck then
    match dp.uArg.grpProp with
    | none => true
    | some actions => actions.getLsbD action.num.toNat
  else
    match dp.uArg.tblProp with
    | none => true
    | some prop =>
      (if dp.actSet then prop.bmWrActions else prop.bmAppActions).getLsbD action.num.toNat

/-- `of131_check_setfield_supported`. -/
def of131CheckSetfieldSupported (dp : InstCheck) (oxmField : Nat) : Bool :=
  match (if dp.uArg.checkSetfSupp then dp.uArg.tblProp else none) with
  | none => true
  | some prop =>
    getBitIn32mask (if dp.actSet then prop.bmWrSetField else prop.bmAppSetField) oxmField

/-- `of131_check_act_output`. -/
def of131CheckActOutput : Handler InstCheck := fun pos arg =>
  let port := wordAt 32 (arg.msg.drop (pos + 4))
  let invalid := port == 0 || (arg.user.uArg.checkPort.any fun check => !check port)
  if invalid then arg.refuse
  else if port = ofpp131Controller then
    { arg with user.uArg.instLocal := true }
  else arg

/-- An action that only has to be supported. -/
def checkSupported (action : ActType) : Handler InstCheck := fun _ arg =>
  arg.require (of131CheckActionSupported arg.user action)

/-- An action that also needs an MPLS header. -/
def checkMplsSupported (action : ActType) : Handler InstCheck := fun _ arg =>
  arg.require (of131CheckActionSupported arg.user action && decide (0 < arg.user.pushMpls))

/-- `of131_check_push_action`, which counts before it checks. -/
def of131CheckPushAction (action : ActType) : Handler InstCheck := fun pos arg =>
  match action with
  | .pushVlan => checkSupported action pos { arg with user.pushVlan := arg.user.pushVlan + 1 }
  | .pushMpls => checkSupported action pos { arg with user.pushMpls := arg.user.pushMpls + 1 }
  | .pushPbb => checkSupported action pos { arg with user.pushPbb := arg.user.pushPbb + 1 }
  | _ => arg.refuse

/-- `of131_check_pop_vlan_action`. -/
def of131CheckPopVlanAction : Handler InstCheck := fun _ arg =>
  if of131CheckActionSupported arg.user .popVlan then
    { arg with user.pushVlan := arg.user.pushVlan - 1 }
  else arg.refuse

/-- `of131_check_pop_pbb_action`. -/
def of131CheckPopPbbAction : Handler InstCheck := fun _ arg =>
  if of131CheckActionSupported arg.user .popPbb then
    { arg with user.pushPbb := arg.user.pushPbb - 1 }
  else arg.refuse

/-- `of131_check_pop_mpls_action`. -/
def of131CheckPopMplsAction : Handler InstCheck := fun _ arg =>
  if of131CheckActionSupported arg.user .popMpls && decide (0 < arg.user.pushMpls) then
    { arg with user.pushMpls := arg.user.pushMpls - 1 }
  else arg.refuse

def of131CheckDecMplsTtl : Handler InstCheck := checkMplsSupported .decMplsTtl
def of131CheckSetMplsTtl : Handler InstCheck := checkMplsSupported .mplsTtl
def of131CheckDecNwTtl : Handler InstCheck := checkSupported .decNwTtl
def of131CheckSetNwTtl : Handler InstCheck := checkSupported .setNwTtl
def of131CheckCpTtlOut : Handler InstCheck := checkSupported .copyTtlOut
def of131CheckCpTtlIn : Handler InstCheck := checkSupported .copyTtlIn
def of131CheckSetQueue : Handler InstCheck := checkSupported .setQueue

/-- How `c_of_fl_group_check_add` and `c_of_fl_meter_check_add` note an object
that is there: once. -/
def checkAdd (list : List (BitVec 32)) (id : BitVec 32) : List (BitVec 32) :=
  if list.contains id then list else list ++ [id]

/-- `of131_check_group_act`. -/
def of131CheckGroupAct : Handler InstCheck := fun pos arg =>
  let groupId := wordAt 32 (arg.msg.drop (pos + 4))
  if !of131CheckActionSupported arg.user .group then arg.refuse
  else
    match arg.user.uArg.checkAddGroup with
    | none => arg
    | some live =>
      if live groupId then
        { arg with user.uArg.grpList := checkAdd arg.user.uArg.grpList groupId }
      else arg.refuse

/-- The checks on the flow are made only when flow and mask are given. -/
def InstCheck.flowAllows (dp : InstCheck) (allows : Flow → Flow → Bool) : Bool :=
  match dp.fl, dp.mask with
  | some fl, some mask => allows fl mask
  | _, _ => true

/-- A set-field handler is called with the header in host order. -/
abbrev SetfHandler := OxmHdr → CheckArg → CheckArg

/-- The test the set-field handlers share, and one of their own. -/
def checkSetField (field : Nat) (own : InstCheck → Bool) : SetfHandler := fun oxm arg =>
  arg.require (!oxm.hm && of131CheckSetfieldSupported arg.user field && own arg.user)

def typeIn (types : List (BitVec 16)) (fl mask : Flow) : Bool :=
  mask.dlType != 0 && types.contains fl.dlType

def needsVlan (dp : InstCheck) : Bool := decide (0 < dp.pushVlan)
def needsMpls (dp : InstCheck) : Bool := decide (0 < dp.pushMpls)
def needsType (types : List (BitVec 16)) (dp : InstCheck) : Bool := dp.flowAllows (typeIn types)

/-- The flow test of `of131_check_set_field_tp_port`. -/
def needsPorts (dp : InstCheck) : Bool :=
  dp.flowAllows fun fl mask =>
    typeIn [ethTypeIp, ethTypeIpv6] fl mask &&
      (mask.nwProto != 0 && [ipTypeTcp, ipTypeUdp, ipTypeSctp].contains fl.nwProto)

def of131CheckSetFieldDlDstModUflow : SetfHandler := checkSetField ofbEthDst (fun _ => true)
def of131CheckSetFieldDlSrcModUflow : SetfHandler := checkSetField ofbEthSrc (fun _ => true)
def of131CheckSetFieldDlTypeModUflow : SetfHandler := checkSetField ofbEthType (fun _ => true)
def of131CheckSetFieldDlVlanModUflow : SetfHandler := checkSetField ofbVlanVid needsVlan
def of131CheckSetFieldDlVlanPcpModUflow : SetfHandler := checkSetField ofbVlanPcp needsVlan
def of131CheckSetFieldMplsLabelModUflow : SetfHandler := checkSetField ofbMplsLabel needsMpls
def of131CheckSetFieldMplsTcModUflow : SetfHandler := checkSetField ofbMplsTc needsMpls
def of131CheckSetFieldMplsBosModUflow : SetfHandler := checkSetField ofbMplsBos needsMpls
def of131CheckSetFieldIpv4SrcModUflow : SetfHandler :=
  checkSetField ofbIpv4Src (needsType [ethTypeIp, ethTypeArp])
def of131CheckSetFieldIpv4DstModUflow : SetfHandler :=
  checkSetField ofbIpv4Dst (needsType [ethTypeIp, ethTypeArp])
def of131CheckSetFieldIpv6Src : SetfHandler := checkSetField ofbIpv6Src (needsType [ethTypeIpv6])
def of131CheckSetFieldIpv6Dst : SetfHandler := checkSetField ofbIpv6Dst (needsType [ethTypeIpv6])
def of131CheckSetFieldIpv4DscpModUflow : SetfHandler :=
  checkSetField ofbIpDscp (needsType [ethTypeIp])

def of131CheckSetFieldTpPort (oxmField : Nat) : SetfHandler := checkSetField oxmField needsPorts

def of131CheckSetFieldTpUdpSportModUflow : SetfHandler := of131CheckSetFieldTpPort ofbUdpSrc
def of131CheckSetFieldTpUdpDportModUflow : SetfHandler := of131CheckSetFieldTpPort ofbUdpDst
def of131CheckSetFieldTpTcpSportModUflow : SetfHandler := of131CheckSetFieldTpPort ofbTcpSrc
def of131CheckSetFieldTpTcpDportModUflow : SetfHandler := of131CheckSetFieldTpPort ofbTcpDst

/-- The set-field part of `of131_check_mod_act_parsers`. Input port and tunnel have
no handler there. -/
def of131CheckModSetf : Nat → Option SetfHandler
  | ofbEthDst => some of131CheckSetFieldDlDstModUflow
  | ofbEthSrc => some of131CheckSetFieldDlSrcModUflow
  | ofbEthType => some of131CheckSetFieldDlTypeModUflow
  | ofbVlanVid => some of131CheckSetFieldDlVlanModUflow
  | ofbVlanPcp => some of131CheckSetFieldDlVlanPcpModUflow
  | ofbMplsLabel => some of131CheckSetFieldMplsLabelModUflow
  | ofbMplsTc => some of131CheckSetFieldMplsTcModUflow
  | ofbMplsBos => some of131CheckSetFieldMplsBosModUflow
  | ofbIpv4Src => some of131CheckSetFieldIpv4SrcModUflow
  | ofbIpv4Dst => some of131CheckSetFieldIpv4DstModUflow
  | ofbIpv6Src => some of131CheckSetFieldIpv6Src
  | ofbIpv6Dst => some of131CheckSetFieldIpv6Dst
  | ofbIpDscp => some of131CheckSetFieldIpv4DscpModUflow
  | ofbTcpSrc => some of131CheckSetFieldTpTcpSportModUflow
  | ofbTcpDst => some of131CheckSetFieldTpTcpDportModUflow
  | ofbUdpSrc => some of131CheckSetFieldTpUdpSportModUflow
  | ofbUdpDst => some of131CheckSetFieldTpUdpDportModUflow
  | _ => none

/-- `of131_check_act_set_field` and `of131_parse_act_set_field_tlv`. The header is
swapped for the handler and swapped back. -/
def of131CheckActSetField : Handler InstCheck := fun pos arg =>
  let oxm := OxmHdr.ntoh (arg.msg.drop (pos + 4))
  if oxm.oxmClass ≠ ofpxmcOpenflowBasic then arg
  else
    match of131CheckModSetf oxm.field with
    | none => arg
    | some handler => handler oxm arg

/-- `of131_check_mod_act_parsers`. -/
def of131CheckModActParsers : ActType → Handler InstCheck
  | .output => of131CheckActOutput
  | .copyTtlOut => of131CheckCpTtlOut
  | .copyTtlIn => of131CheckCpTtlIn
  | .mplsTtl => of131CheckSetMplsTtl
  | .decMplsTtl => of131CheckDecMplsTtl
  | .pushVlan => of131CheckPushAction .pushVlan
  | .popVlan => of131CheckPopVlanAction
  | .pushMpls => of131CheckPushAction .pushMpls
  | .popMpls => of131CheckPopMplsAction
  | .setQueue => of131CheckSetQueue
  | .group => of131CheckGroupAct
  | .setNwTtl => of131CheckSetNwTtl
  | .decNwTtl => of131CheckDecNwTtl
  | .setField => of131CheckActSetField
  | .pushPbb => of131CheckPushAction .pushPbb
  | .popPbb => of131CheckPopPbbAction

/-- `of131_check_meter_inst`. -/
def of131CheckMeterInst : Handler InstCheck := fun pos arg =>
  let meterId := wordAt 32 (arg.msg.drop (pos + 4))
  if arg.user.seen.instMeter then arg.refuse
  else
    match arg.user.uArg.checkAddMeter with
    | none => { arg with user.seen.instMeter := true }
    | some live =>
      if live meterId then
        { arg with
          user.seen.instMeter := true
          user.uArg.meterList := checkAdd arg.user.uArg.meterList meterId }
      else arg.refuse

/-- `of131_check_goto_inst`, which writes the physical table into the list. -/
def of131CheckGotoInst : Handler InstCheck := fun pos arg =>
  if arg.user.seen.instGoto || !of131CheckInstSupported arg.user .gotoTable then arg.refuse
  else
    let msg :=
      match arg.user.uArg.getV2pTbl with
      | none => arg.msg
      | some getV2pTbl => arg.msg.set (pos + 4) (getV2pTbl (arg.msg.getD (pos + 4) 0))
    { arg with msg := msg, user.seen.instGoto := true }

/-- `of131_check_wr_meta_inst`. -/
def of131CheckWrMetaInst : Handler InstCheck := fun _ arg =>
  if arg.user.seen.instWrMeta || !of131CheckInstSupported arg.user .writeMetadata then arg.refuse
  else { arg with user.seen.instWrMeta := true }

/-- The part of `of131_check_act_inst` before the actions of a write or an apply.
The test of the apply instruction reads the mark of the write instruction. -/
def enterActInst (type : InstType) (arg : CheckArg) : CheckArg :=
  if arg.user.seen.instWr then arg.refuse
  else
    let entered : CheckArg :=
      if type = .writeActions then
        { arg with user.seen.instWr := true, user.actSet := true }
      else { arg with user.seen.instApp := true, user.actSet := false }
    entered.require (of131CheckInstSupported entered.user type)

def instActionsSz : Nat := 8

/-- `of131_check_act_inst` for a write or an apply instruction. -/
def of131CheckActInst (type : InstType) : Handler InstCheck := fun pos arg =>
  let entered := enterActInst type arg
  let len := headLen arg.msg pos
  if entered.res ≠ 0 ∨ len.toNat ≤ instActionsSz then entered
  else
    of131ParseActions of131CheckModActParsers (pos + instActionsSz)
      (len.setWidth 64 - BitVec.ofNat 64 instActionsSz) entered

/-- `of131_check_act_inst` for a clear instruction. -/
def of131CheckClearInst : Handler InstCheck := fun _ arg =>
  if arg.user.seen.instClear then arg.refuse
  else { arg with user.seen.instClear := true }

/-- `of_check_inst_parser_pre_proc`. -/
def ofCheckInstParserPreProc (arg : CheckArg) : CheckArg :=
  match arg.user.fl, arg.user.mask with
  | some _, some mask =>
    { arg with
      user.pushVlan := arg.user.pushVlan + (if mask.dlVlan != 0 then 1 else 0)
      user.pushMpls := arg.user.pushMpls + (if mask.mplsLabel != 0 then 1 else 0) }
  | _, _ => arg

/-- `of131_check_inst_parsers`, with no handler for an experimenter. -/
def of131CheckInstParsers : InstParsers InstCheck where
  preProc := ofCheckInstParserPreProc
  inst
    | .gotoTable => of131CheckGotoInst
    | .writeMetadata => of131CheckWrMetaInst
    | .writeActions => of131CheckActInst .writeActions
    | .applyActions => of131CheckActInst .applyActions
    | .clearActions => of131CheckClearInst
    | .meter => of131CheckMeterInst
    | .experimenter => fun _ arg => arg

/-- `of131_validate_actions`: the verdict, with what the checks left behind. -/
def of131ValidateActions (fl mask : Option Flow) (msg : List Byte) (instLen : BitVec 64)
    (actsOnly : Bool) (uArg : InstCheckArgs) : CheckArg :=
  of131ParseInstructions of131CheckInstParsers of131CheckModActParsers instLen actsOnly
    { msg := msg, user := { fl := fl, mask := mask, uArg := uArg } }

end OpenMul
