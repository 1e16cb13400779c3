import OpenMul.Core.AppBalance
import OpenMul.Lib.BigEndian

namespace OpenMul

open Lib

def cAppAllSw : BitVec 32 := 0x1
def cAppRemote : BitVec 32 := 0x2
def cAppAuxRemote : BitVec 32 := 0x4

def cMaxAppStrlen : Nat := 64

/-- `c_app_info_t`, less the connection and the callbacks. A name is the text
before its NUL; the list of datapaths is `NULL` for an application of all
switches. -/
structure AppInfo where
  appName : List Byte := []
  appFlags : BitVec 32 := 0
  evMask : BitVec 32 := 0
  nDpid : BitVec 32 := 0
  dpidHlist : Option (List (BitVec 64)) := none
  deriving DecidableEq, Repr

/-- The lookup in `dpid_hlist`, which finds nothing in a `NULL` table. -/
def AppInfo.listed (info : AppInfo) (dpid : BitVec 64) : Bool :=
  decide (dpid ∈ info.dpidHlist.getD [])

/-- Whether an application takes part in a switch. -/
def AppInfo.covers (info : AppInfo) (dpid : BitVec 64) : Bool :=
  hasFlag info.appFlags cAppAllSw || info.listed dpid

/-- The test of `c_per_app_switch_register` and `c_per_app_switch_unregister`. -/
def AppInfo.perSwitch (info : AppInfo) (dpid : BitVec 64) : Bool :=
  !hasFlag info.appFlags cAppAuxRemote && info.covers dpid

/-- What `mul_register_app` writes into a record before it looks at the list. -/
def AppInfo.written (info : AppInfo) (remote : Bool) (appName : List Byte)
    (appFlags evMask : BitVec 32) : AppInfo :=
  { info with
    appName := appName.take (cMaxAppStrlen - 1)
    appFlags := if remote then setFlag appFlags cAppRemote else appFlags
    evMask }

/-- A switch of `sw_hash_tbl`. It is published once its features are known. -/
structure RegSwitch where
  dpid : BitVec 64
  sw : Switch
  published : Bool := false

/-- `ctrl_hdl_t` as the registrar sees it, with the records of the applications
by their address. -/
structure Registry where
  switches : List RegSwitch := []
  appList : List App := []
  info : App → AppInfo := fun _ => {}
  appRef : App → Int := fun _ => 0

/-- A walk over some of the switches, which share the counts. -/
def visitSwitches (select : RegSwitch → Bool) (change : Switch → Switch) (appRef : App → Int) :
    List RegSwitch → List RegSwitch × (App → Int)
  | [] => ([], appRef)
  | node :: rest =>
    if select node then
      let sw := change (node.sw.withRef appRef)
      let visited := visitSwitches select change sw.appRef rest
      ({ node with sw } :: visited.1, visited.2)
    else
      let visited := visitSwitches select change appRef rest
      (node :: visited.1, visited.2)

/-- `__c_per_switch_app_register`. -/
def perSwitchAppRegisterLocked (sw : Switch) (app : App) : Switch :=
  if app ∈ sw.appList then sw
  else { sw with appRef := countApp sw.appRef app 1, appList := sw.appList ++ [app] }

/-- `__c_per_switch_app_unregister`. The list is not searched first. -/
def perSwitchAppUnregisterLocked (sw : Switch) (app : App) : Switch :=
  { sw with appRef := appPut sw.appRef app, appList := sw.appList.erase app }

namespace Registry

variable (reg : Registry)

def visit (select : RegSwitch → Bool) (change : Switch → Switch) : Registry :=
  { reg with
    switches := (visitSwitches select change reg.appRef reg.switches).1
    appRef := (visitSwitches select change reg.appRef reg.switches).2 }

def setInfo (app : App) (info : AppInfo) : Registry :=
  { reg with info := Function.update reg.info app info }

/-- `__c_app_lookup`. -/
def appLookup (appName : List Byte) : Option App :=
  reg.appList.find? fun app =>
    (reg.info app).appName.take cMaxAppStrlen == appName.take cMaxAppStrlen

/-- `c_per_app_switch_register`. -/
def perAppSwitchRegister (dpid : BitVec 64) (sw : Switch) (app : App) : Switch :=
  if (reg.info app).perSwitch dpid then perSwitchAppRegisterLocked sw app else sw

/-- `c_per_app_switch_unregister`. -/
def perAppSwitchUnregister (dpid : BitVec 64) (sw : Switch) (app : App) : Switch :=
  if (reg.info app).perSwitch dpid then perSwitchAppUnregisterLocked sw app else sw

/-- `c_switch_app_list_exp`. -/
def switchAppListExp (dpid : BitVec 64) : Registry :=
  reg.visit (fun node => node.dpid == dpid) fun sw =>
    reg.appList.foldl (reg.perAppSwitchRegister dpid) sw

/-- The step of `c_switch_app_list_de_exp` on one switch. What is left of the list is freed. -/
def deExpSwitch (dpid : BitVec 64) (sw : Switch) : Switch :=
  if sw.appList.isEmpty then sw
  else { reg.appList.foldl (reg.perAppSwitchUnregister dpid) sw with appList := [] }

def switchAppListDeExp (dpid : BitVec 64) : Registry :=
  reg.visit (fun node => node.dpid == dpid) (reg.deExpSwitch dpid)

/-- One turn of the loop over the datapaths in `mul_register_app`. The switch is
given back right after it is found. -/
def registerDpid (order : ByteOrder) (app : App) (word : BitVec 64) : Registry :=
  let dpid := order.swap word
  let info := reg.info app
  if info.listed dpid then reg
  else (reg.setInfo app { info with dpidHlist := some (dpid :: info.dpidHlist.getD []) }).visit
    (fun node => node.dpid == dpid) fun sw => perSwitchAppRegister sw app

/-- The record of `mul_register_app` before it looks at the list. A remote
application brings its own, any other gets a cleared one from the allocator. -/
def writeRecord (remote : Bool) (app : App) (appName : List Byte) (appFlags evMask : BitVec 32) :
    Registry :=
  let old := if remote then reg.info app else {}
  { reg with
    info := Function.update reg.info app (old.written remote appName appFlags evMask)
    appRef := if remote then reg.appRef else Function.update reg.appRef app 0 }

/-- `mul_register_app`. `dpidList` is the memory the argument points to. A name
in use costs its application a reference. -/
def mulRegisterApp (order : ByteOrder) (remote : Bool) (app : App) (appName : Option (List Byte))
    (appFlags evMask nDpid : BitVec 32) (dpidList : Nat → BitVec 64) : Registry × Int :=
  match appName with
  | none => (reg, -1)
  | some appName =>
    match reg.appLookup appName with
    | some found => ({ reg with appRef := countApp reg.appRef found 1 }, -1)
    | none =>
      let started := reg.writeRecord remote app appName appFlags evMask
      let info := started.info app
      if hasFlag info.appFlags cAppAllSw then
        let walked := started.visit (fun _ => true) fun sw => perSwitchAppRegister sw app
        ({ walked with appList := walked.appList ++ [app] }, 0)
      else if nDpid = 0 then (started, -1)
      else
        let walked :=
          ((List.range nDpid.toNat).map dpidList).foldl (fun reg => reg.registerDpid order app)
          (started.setInfo app { info with dpidHlist := some [], nDpid })
        ({ walked with appList := walked.appList ++ [app] }, 0)

/-- `c_switch_replay_all`: every published switch the application covers is
announced to it, which expands the switch's list first. -/
def switchReplayAll (app : App) : Registry :=
  let replayed := (reg.switches.filter RegSwitch.published).map RegSwitch.dpid
  replayed.foldl (fun now dpid =>
    if (now.info app).covers dpid then
      now.switchAppListExp dpid
    else now) reg

end Registry

/-- `struct c_ofp_register_app` as it lies in memory, with the words behind it.
They go on past the end of the message. -/
structure RegisterAppMsg where
  length : BitVec 16
  appName : List Byte
  appFlags : BitVec 32
  evMask : BitVec 32
  dpid : BitVec 32
  appCookie : BitVec 32
  dpidList : Nat → BitVec 64

def cOfpRegisterAppSz : Nat := 88

/-- What becomes of a registration command. -/
inductive RegisterOutcome where
  | badLen
  | badAppReg
  | registered
  deriving DecidableEq, Repr

/-- `c_app_register_app_command`, less the role notices and the stale marks that
follow a registration. -/
def Registry.appRegisterAppCommand (reg : Registry) (order : ByteOrder) (app : App)
    (msg : RegisterAppMsg) : Registry × RegisterOutcome :=
  let length := (order.swap msg.length).toNat
  if length < cOfpRegisterAppSz then (reg, .badLen)
  else
    let dpid := order.swap msg.dpid
    if length < cOfpRegisterAppSz + dpid.toNat * 4 then (reg, .badLen)
    else
      let result := reg.mulRegisterApp order true app (some msg.appName) (order.swap msg.appFlags)
        (order.swap msg.evMask) dpid fun pos =>
          if pos < dpid.toNat then order.swap (msg.dpidList pos) else msg.dpidList pos
      if result.2 ≠ 0 then (result.1, .badAppReg) else (result.1.switchReplayAll app, .registered)

/-- The message `_commom_reg_app` sends. The words behind the list are those of
the receiver's buffer. -/
def commomRegApp (order : ByteOrder) (appName : List Byte) (appFlags evMask appCookie : BitVec 32)
    (dpidList : List (BitVec 64)) (behind : Nat → BitVec 64) : RegisterAppMsg where
  length := order.swap (BitVec.ofNat 16 (cOfpRegisterAppSz + dpidList.length * 8))
  appName := appName.take (cMaxAppStrlen - 1)
  appFlags := order.swap appFlags
  evMask := order.swap evMask
  dpid := order.swap (BitVec.ofNat 32 dpidList.length)
  appCookie := order.swap appCookie
  dpidList pos := dpidList.getD pos (behind pos)

end OpenMul
