import OpenMul.Core.FlowRule
import OpenMul.Core.Group
import OpenMul.Lib.Machine

namespace OpenMul

open Lib

/-- `__c_per_switch_del_app_flow_rule`: the list it leaves. -/
def delAppFlowRule (sw : Switch) (app : App) : List FlEntry → Switch × List FlEntry
  | [] => (sw, [])
  | ent :: rest =>
    if app ∈ ent.appOwnerList then
      let left := flowDelAppOwner sw.appRef ent app
      let sw := { sw with appRef := left.1 }
      if left.2.appRef = 0 then
        let sent := if left.2.clonedList.isEmpty && !hasFlag left.2.flags flEntLocal
          then sw.sendFlowDel left.2 false else sw
        delAppFlowRule (flowRuleFree sent left.2) app rest
      else
        let swept := delAppFlowRule sw app rest
        (swept.1, left.2 :: swept.2)
    else
      let swept := delAppFlowRule sw app rest
      (swept.1, ent :: swept.2)

/-- `__c_per_switch_del_app_flow_owner`, over the rule tables in order. The
exact-match table is empty in this build. -/
def delAppFlowOwner (sw : Switch) (app : App) : Switch :=
  (List.range maxRuleFlowTbls).foldl (fun sw table =>
    let swept := delAppFlowRule sw app (sw.rules table)
    swept.1.setRules table swept.2) sw

/-- `__c_per_switch_del_group_with_owner`. No reference count is looked at. -/
def delGroupWithOwner (sw : Switch) (app : App) : Switch :=
  { sw with
    groups := sw.groups.filter fun group => group.body.appOwner != app
    appRef := (sw.groups.filter fun group => group.body.appOwner == app).foldl
      (fun counts _ => appPut counts app) sw.appRef }

/-- `__c_per_switch_del_meter_with_owner`. -/
def delMeterWithOwner (sw : Switch) (app : App) : Switch :=
  { sw with
    meters := sw.meters.filter fun meter => meter.body.appOwner != app
    appRef := (sw.meters.filter fun meter => meter.body.appOwner == app).foldl
      (fun counts _ => appPut counts app) sw.appRef }

/-- `c_per_switch_app_register`. -/
def perSwitchAppRegister (sw : Switch) (app : App) : Switch :=
  let unlocked := { sw with lock := false }
  if app ∈ sw.appList then unlocked
  else { unlocked with appRef := countApp sw.appRef app 1, appList := sw.appList ++ [app] }

/-- `c_per_switch_app_unregister`. -/
def perSwitchAppUnregister (sw : Switch) (app : App) : Switch :=
  let swept := delMeterWithOwner (delGroupWithOwner (delAppFlowOwner sw app) app) app
  let unlocked := { swept with lock := false }
  if app ∈ sw.appList then
    { unlocked with appList := sw.appList.erase app, appRef := appPut swept.appRef app }
  else unlocked

/-- The loop of `c_switch_flow_tbl_delete` and `c_switch_flow_tbl_reset`; the
per-table counter is not touched. -/
def flowTblClear (sw : Switch) : Switch :=
  let cleared := (List.range maxRuleFlowTbls).foldl (fun sw table =>
    ((sw.rules table).foldl flowRuleFree sw).setRules table []) sw
  { cleared with lock := false }

def switchFlowTblDelete (sw : Switch) : Switch := flowTblClear sw

def switchFlowTblReset (sw : Switch) : Switch := flowTblClear sw

/-- `c_app_per_flow_stale`. -/
def appPerFlowStale (appCookie : BitVec 32) (now : Nat) (ent : FlEntry) : FlEntry :=
  if hasFlag ent.flags flEntStatic || hasFlag ent.flags flEntLocal then { ent with locked := false }
  else if (ent.cookie >>> 32).truncate 32 &&& 0x7fffffff = appCookie then
    { ent with
      staleTime := now, flags := setFlag ent.flags flEntStale, lastScan := 0, locked := false }
  else { ent with locked := false }

/-- The stale mark over every rule table. -/
def appFlowStale (sw : Switch) (appCookie : BitVec 32) (now : Nat) : Switch :=
  { sw with
    ruleFlowTbls := fun table =>
      if table < maxRuleFlowTbls then
        { sw.ruleFlowTbls table with
          ruleFlTbl := (sw.rules table).map (appPerFlowStale appCookie now) }
      else sw.ruleFlowTbls table
    lock := false }

/-- One request, with the clock and the allocator's answer where it reads them. -/
inductive Op where
  | flowAdd (p : FlowModParams) (now : Nat)
  | flowDel (p : FlowModParams)
  | groupAdd (p : GroupModParams) (ptr now : Nat)
  | groupDel (p : GroupModParams)
  | meterAdd (p : MeterModParams) (ptr now : Nat)
  | meterDel (p : MeterModParams)
  | appRegister (app : App)
  | appUnregister (app : App)
  | flowStale (appCookie : BitVec 32) (now : Nat)
  | tblReset
  | tblDelete
  deriving DecidableEq, Repr

def exec (sw : Switch) : Op → Switch
  | .flowAdd p now => (flowRuleAdd sw p now).1
  | .flowDel p => (flowRuleDel sw p).1
  | .groupAdd p ptr now => (groupAdd sw p ptr now).1
  | .groupDel p => (groupDel sw p).1
  | .meterAdd p ptr now => (meterAdd sw p ptr now).1
  | .meterDel p => (meterDel sw p).1
  | .appRegister app => perSwitchAppRegister sw app
  | .appUnregister app => perSwitchAppUnregister sw app
  | .flowStale appCookie now => appFlowStale sw appCookie now
  | .tblReset => switchFlowTblReset sw
  | .tblDelete => switchFlowTblDelete sw

/-- The allocator never hands out the address of a live object. -/
def admits (sw : Switch) : Op → Prop
  | .groupAdd _ ptr _ => ∀ group ∈ sw.groups, group.ptr ≠ ptr
  | .meterAdd _ ptr _ => ∀ meter ∈ sw.meters, meter.ptr ≠ ptr
  | _ => True

/-- A switch record as it is allocated. -/
def Started (sw : Switch) : Prop :=
  sw.ruleFlowTbls = (fun _ => {}) ∧ sw.groups = [] ∧ sw.meters = [] ∧ sw.txQ = [] ∧ sw.lock = false

/-- The runs of one switch record. -/
def switchRuns : Machine Switch Op where
  start := Started
  admits := admits
  exec := exec

/-- A connected switch before its first request. -/
def bootSwitch (ctors : OfpCtors) : Switch := { ofpCtors := ctors }

theorem reaches_boot (ctors : OfpCtors) (ops : List Op)
    (admitted : switchRuns.AdmitsAll (bootSwitch ctors) ops) :
    switchRuns.Reaches (switchRuns.execAll (bootSwitch ctors) ops) :=
  .execAll (.start ⟨rfl, rfl, rfl, rfl, rfl⟩) admitted

end OpenMul
