import OpenMul.Core.AppFlowMod

namespace OpenMul

open Lib

def grpLocal : BitVec 8 := 0x80

/-- The `command` byte of a group or meter modification. -/
inductive ModCommand where
  | add
  | del
  | other
  deriving DecidableEq, Repr

/-- `struct c_ofp_group_mod` with the bytes behind it. -/
structure GroupModMsg where
  whole : Bool := true
  datapathId : BitVec 64 := 0
  command : ModCommand := .add
  type : Byte := 0
  flags : BitVec 8 := 0
  groupId : BitVec 32 := 0
  buckets : List Byte := []
  deriving DecidableEq, Repr

/-- `struct c_ofp_meter_mod` with the bytes behind it. -/
structure MeterModMsg where
  whole : Bool := true
  datapathId : BitVec 64 := 0
  command : ModCommand := .add
  cFlags : BitVec 8 := 0
  flags : BitVec 16 := 0
  meterId : BitVec 32 := 0
  bands : List Byte := []
  deriving DecidableEq, Repr

/-- `struct c_ofp_packet_out` with the bytes behind it. -/
structure PacketOutMsg where
  whole : Bool := true
  datapathId : BitVec 64 := 0
  bufferId : BitVec 32 := 0xffffffff
  inPort : BitVec 32 := 0
  actionsLen : BitVec 16 := 0
  body : List Byte := []
  deriving DecidableEq, Repr

/-- `struct of_pkt_out_params`. -/
structure PktOutParams where
  bufferId : BitVec 32
  inPort : BitVec 32
  actionList : List Byte
  data : List Byte
  deriving DecidableEq, Repr

/-- The check of one bucket's actions. -/
def CtrlSwitch.validateBucket (node : CtrlSwitch) (actions : List Byte) : ActsVerdict :=
  let args : InstCheckArgs := { checkPort := some node.ports }
  match node.cmd.validateActs with
  | none => ⟨0, actions, args⟩
  | some validate => validate none none actions true args

/-- The bucket loop of `c_app_group_mod_command`, `none` when it goes to
`err_out`. `room` is what is left of `OF_MAX_ACT_VECTORS`. -/
def groupModBuckets (node : CtrlSwitch) : Nat → List Byte → GroupModParams → Option GroupModParams
  | 0, _, p => some p
  | room + 1, bytes, p =>
    if bytes.length < 16 then some p
    else
      let actLen := (wordAt 16 (bytes.drop 2)).toNat
      if bytes.length - 16 < actLen then none
      else
        let verdict := node.validateBucket ((bytes.drop 16).take actLen)
        if verdict.ret ≠ 0 then none
        else
          groupModBuckets node room (bytes.drop (16 + actLen))
            { p with
              actVectors := p.actVectors ++
                [⟨wordAt 16 bytes, wordAt 32 (bytes.drop 4), wordAt 32 (bytes.drop 8),
                  verdict.actions⟩]
              flags := if verdict.args.instLocal then setFlag p.flags grpLocal else p.flags }

/-- The band loop of `c_app_meter_mod_command`. -/
def meterModBands : Nat → List Byte → List (List Byte) → Option (List (List Byte))
  | 0, _, bands => some bands
  | room + 1, bytes, bands =>
    if bytes.length < 12 then some bands
    else
      let bandLen := (wordAt 16 (bytes.drop 2)).toNat
      if bytes.length < bandLen then none
      else meterModBands room (bytes.drop bandLen) (bands ++ [bytes.take bandLen])

/-- The verdict of an optional feature check, which debugging turns off. -/
def featVerdict {Params : Type} (node : CtrlSwitch) (check : Option (Params → Int)) (p : Params) :
    Int :=
  if node.debugFlag then 0 else check.elim 0 fun validate => validate p

/-- What a group command does once its switch is found. -/
def groupModOnSwitch (node : CtrlSwitch) (msg : GroupModMsg) (add : Bool) (app : App)
    (ptr now : Nat) (sw : Switch) : Switch × Int :=
  let start : GroupModParams :=
    { appOwner := app, group := msg.groupId, type := msg.type, flags := msg.flags }
  match groupModBuckets node ofMaxActVectors msg.buckets start with
  | none => (sw, -1)
  | some p =>
    if add then
      let verdict := featVerdict node node.cmd.groupValidateFeat p
      if verdict ≠ 0 then (sw, verdict) else groupAdd sw p ptr now
    else groupDel sw p

/-- What a meter command does once its switch is found. -/
def meterModOnSwitch (node : CtrlSwitch) (msg : MeterModMsg) (add : Bool) (app : App)
    (ptr now : Nat) (sw : Switch) : Switch × Int :=
  match meterModBands ofMaxMeterVectors msg.bands [] with
  | none => (sw, -1)
  | some bands =>
    let p : MeterModParams :=
      { appOwner := app, meter := msg.meterId, flags := msg.flags, cflags := msg.cFlags
        meterBands := bands }
    if add then
      let verdict := featVerdict node node.cmd.meterValidateFeat p
      if verdict ≠ 0 then (sw, verdict) else meterAdd sw p ptr now
    else meterDel sw p

namespace Controller

/-- The frame of the group and meter handlers: take the references, run the
request, and give them back at `out` whatever it returned. A command that is
neither an add nor a delete reaches `out` before the switch is looked up. The number is
what `RETURN_APP_ERR` reports; the call returns it only to applications in the process,
and 0 to remote and auxiliary ones. -/
def appObjectCommand (ctrl : Controller) (appArg : App) (whole : Bool) (command : ModCommand)
    (dpid : BitVec 64) (request : CtrlSwitch → Bool → App → Switch → Switch × Int) :
    Controller × Int :=
  if !whole || command = .other then (ctrl, -1)
  else
    match ctrl.deref (ctrl.swHashTbl dpid) with
    | none => (ctrl, -1)
    | some (pos, node) =>
      let (held, app) := (ctrl.switchGet pos).commandApp appArg
      let (done, ret) := held.onSwitch pos node (request node (command = .add) app)
      ((done.switchPut pos).dropApp appArg app, ret)

/-- `c_app_group_mod_command`. -/
def appGroupModCommand (ctrl : Controller) (appArg : App) (msg : GroupModMsg) (ptr now : Nat) :
    Controller × Int :=
  ctrl.appObjectCommand appArg msg.whole msg.command msg.datapathId fun node add app =>
    groupModOnSwitch node msg add app ptr now

/-- `c_app_meter_mod_command`. -/
def appMeterModCommand (ctrl : Controller) (appArg : App) (msg : MeterModMsg) (ptr now : Nat) :
    Controller × Int :=
  ctrl.appObjectCommand appArg msg.whole msg.command msg.datapathId fun node add app =>
    meterModOnSwitch node msg add app ptr now

/-- `c_app_packet_out_command`, with the result it reports. The return for a short
message keeps the switch's reference. -/
def appPacketOutCommand (ctrl : Controller) (msg : PacketOutMsg) :
    Controller × Int × Option PktOutParams :=
  if !msg.whole then (ctrl, -1, none)
  else
    match ctrl.deref (ctrl.swHashTbl msg.datapathId) with
    | none => (ctrl, -1, none)
    | some (pos, node) =>
      let held := ctrl.switchGet pos
      if node.txLimited then (held.switchPut pos, 0, none)
      else if msg.body.length < msg.actionsLen.toNat then (held, -1, none)
      else
        (held.switchPut pos, 0, some
          { bufferId := msg.bufferId, inPort := msg.inPort
            actionList := msg.body.take msg.actionsLen.toNat
            data := msg.body.drop msg.actionsLen.toNat })

end Controller

/-- The commands an application sends, and the flow-mods its queue hands to the
worker. -/
inductive AppCommand where
  | flowMod (msg : FlowModMsg)
  | queuedFlowMod (msg : FlowModMsg)
  | groupMod (msg : GroupModMsg)
  | meterMod (msg : MeterModMsg)
  | packetOut (msg : PacketOutMsg)
  deriving DecidableEq, Repr

/-- The state a command's handler leaves. `ptr` is the address a new group or
meter gets. -/
def Controller.appCommand (ctrl : Controller) (app : App) (ptr now : Nat) : AppCommand → Controller
  | .flowMod msg => (ctrl.appFlowModCommand app msg now).1.1
  | .queuedFlowMod msg => ctrl.mulAppWorkqHandler msg now
  | .groupMod msg => (ctrl.appGroupModCommand app msg ptr now).1
  | .meterMod msg => (ctrl.appMeterModCommand app msg ptr now).1
  | .packetOut msg => (ctrl.appPacketOutCommand msg).1

end OpenMul
