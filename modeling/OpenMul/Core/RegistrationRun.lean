import OpenMul.Core.RegisterExact

namespace OpenMul

open Lib

/-- What `c_switch_put` frees with the last reference: the rules, whose owners
keep their counts, and then the groups and meters. -/
def switchFreed (sw : Switch) : Switch :=
  let cleared := switchFlowTblDelete sw
  { cleared with
    groups := [], meters := []
    appRef := (ownersOf GroupBody.appOwner cleared.groups ++ ownersOf MeterBody.appOwner
      cleared.meters).foldl appPut cleared.appRef }

namespace Registry

variable (reg : Registry)

/-- `mul_unregister_app`. -/
def mulUnregisterApp (appName : List Byte) : Registry :=
  match reg.appLookup appName with
  | none => reg
  | some app =>
    let taken := { reg with appRef := countApp reg.appRef app 1, appList := reg.appList.erase app }
    let walked := taken.visit (fun _ => true) fun sw => perSwitchAppUnregister sw app
    let info := walked.info app
    let left := walked.setInfo app
      (if info.dpidHlist.isSome then { info with dpidHlist := none, nDpid := 0 } else info)
    { left with appRef := appPut left.appRef app }

def unregName : List Byte := [117, 110, 114, 101, 103]

def remoteName : List Byte := [114, 101, 109, 111, 116, 101]

/-- `c_worker_do_app_add`: a cleared record for a connection. -/
def workerDoAppAdd (app : App) (aux : Bool) : Registry :=
  { reg.setInfo app (if aux then { appName := remoteName, appFlags := cAppAuxRemote }
      else { appName := unregName }) with
    appRef := Function.update reg.appRef app 0 }

/-- `c_worker_do_app_del`. The application is unregistered by its name. -/
def workerDoAppDel (app : App) : Registry :=
  let left := if hasFlag (reg.info app).appFlags cAppAuxRemote then reg
    else reg.mulUnregisterApp (reg.info app).appName
  { left with appRef := appPut left.appRef app }

/-- `c_register_switch` of a new connection. Features of a datapath that is
already there are refused before. -/
def registerSwitch (dpid : BitVec 64) (ctors : OfpCtors) : Registry :=
  if reg.switches.any fun node => node.dpid == dpid then reg
  else { reg with switches := reg.switches ++ [{ dpid, sw := bootSwitch ctors }] }

/-- The end of `c_switch_try_publish`. -/
def publish (dpid : BitVec 64) : Registry :=
  if reg.switches.any fun node => node.dpid == dpid && !node.published then
    let announced := reg.switchAppListExp dpid
    { announced with switches := announced.switches.map fun node =>
        if node.dpid == dpid then { node with published := true } else node }
  else reg

/-- `c_worker_do_switch_zap` of a switch nobody else holds. -/
def workerDoSwitchZap (dpid : BitVec 64) : Registry :=
  let freed := (reg.switchAppListDeExp dpid).visit (fun node => node.dpid == dpid) switchFreed
  { freed with switches := freed.switches.filter fun node => node.dpid != dpid }

end Registry

/-- The requests of an application on a switch. -/
def Op.ofApp : Op → Bool
  | .flowAdd .. | .flowDel .. | .groupAdd .. | .groupDel .. | .meterAdd .. | .meterDel .. => true
  | .appRegister _ | .appUnregister _ | .flowStale .. | .tblReset | .tblDelete => false

/-- One event, with the address the allocator answered where it is asked. -/
inductive RegOp where
  | switchConnect (dpid : BitVec 64) (ctors : OfpCtors)
  | switchPublish (dpid : BitVec 64)
  | switchDisconnect (dpid : BitVec 64)
  | appConnect (app : App) (aux : Bool)
  | appDisconnect (app : App)
  | register (order : ByteOrder) (app : App) (appName : Option (List Byte)) (appFlags evMask nDpid :
    BitVec 32) (dpidList : Nat → BitVec 64)
  | registerCommand (order : ByteOrder) (app : App) (msg : RegisterAppMsg)
  | unregister (appName : List Byte)
  | request (dpid : BitVec 64) (op : Op)

namespace Registry

/-- Nothing points to a record. -/
def Unused (reg : Registry) (app : App) : Prop :=
  app ∉ reg.appList ∧ ∀ node ∈ reg.switches, app ∉ node.sw.appList ∧ app ∉ node.sw.owners

def exec (reg : Registry) : RegOp → Registry
  | .switchConnect dpid ctors => reg.registerSwitch dpid ctors
  | .switchPublish dpid => reg.publish dpid
  | .switchDisconnect dpid => reg.workerDoSwitchZap dpid
  | .appConnect app aux => reg.workerDoAppAdd app aux
  | .appDisconnect app => reg.workerDoAppDel app
  | .register order app appName appFlags evMask nDpid dpidList =>
    (reg.mulRegisterApp order false app appName appFlags evMask nDpid dpidList).1
  | .registerCommand order app msg => (reg.appRegisterAppCommand order app msg).1
  | .unregister appName => reg.mulUnregisterApp appName
  | .request dpid op => reg.visit (fun node => node.dpid == dpid) fun sw => OpenMul.exec sw op

/-- The allocator hands out addresses nothing points to. -/
def admits (reg : Registry) : RegOp → Prop
  | .appConnect app _ | .register _ app .. => reg.Unused app
  | .request dpid op => op.ofApp = true ∧
      ∀ node ∈ reg.switches, node.dpid = dpid → OpenMul.admits node.sw op
  | _ => True

end Registry

/-- The runs of the registrar. -/
def registryRuns : Machine Registry RegOp where
  start reg := reg.switches = [] ∧ reg.appList = [] ∧ ∀ app, reg.appRef app = 0
  admits := Registry.admits
  exec := Registry.exec

end OpenMul
