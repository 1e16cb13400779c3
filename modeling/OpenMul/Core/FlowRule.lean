import OpenMul.Core.Switch
import OpenMul.Lib.OrderedList

namespace OpenMul

open Lib

/-- `FL_NEED_HW_SYNC`. -/
def needHwSync (sw : Switch) (p : FlowModParams) : Bool :=
  !(hasFlag p.flags flEntNosync || hasFlag p.flags flEntClone || hasFlag p.flags flEntResidual ||
    hasFlag p.flags flEntLocal || !sw.master)

/-- `c_flow_mod_validate_parms`, true for parameters it accepts. -/
def flowModValidateParms (sw : Switch) (p : FlowModParams) : Bool :=
  !(!sw.tableSupported p.flow.tableId || p.appOwner == 0 ||
    (hasFlag p.flags flEntClone && hasFlag p.flags flEntLocal) || hasFlag p.flags flEntNocache)

/-- The identity test of an add. The mask is compared without its `pad`. -/
def sameRule (fl mask : Flow) (prio : BitVec 16) (ent : FlEntry) : Bool :=
  ent.fl == fl && ent.flMask.sansPad == mask.sansPad && ent.prio == prio

/-- `__c_flow_lookup_rule_strict_prio_hint`, from a position on. It returns the
entry with its position, and the first position whose priority is not above. -/
def lookupRuleStrictPrioHint (fl mask : Flow) (prio : BitVec 16) (index : Nat) (hint : Option Nat) :
    List FlEntry → Option (Nat × FlEntry) × Option Nat
  | [] => (none, hint)
  | ent :: rest =>
    let hint := if hint.isNone && decide (ent.prio ≤ prio) then some index else hint
    if sameRule fl mask prio ent then (some (index, ent), hint)
    else lookupRuleStrictPrioHint fl mask prio (index + 1) hint rest

/-- `__c_flow_add_app_owner`. A known owner costs the caller its entry lock. -/
def flowAddAppOwnerLocked (appRef : App → Int) (ent : FlEntry) (app : App) :
    (App → Int) × FlEntry :=
  if app ∈ ent.appOwnerList then (appRef, { ent with locked := false })
  else (countApp appRef app 1,
    { ent with appRef := ent.appRef + 1, appOwnerList := ent.appOwnerList ++ [app] })

/-- `c_flow_add_app_owner`. -/
def flowAddAppOwner (appRef : App → Int) (ent : FlEntry) (app : App) : (App → Int) × FlEntry :=
  let added := flowAddAppOwnerLocked appRef { ent with locked := true } app
  (added.1, { added.2 with locked := false })

/-- `__c_flow_del_app_owner`. -/
def flowDelAppOwner (appRef : App → Int) (ent : FlEntry) (app : App) : (App → Int) × FlEntry :=
  (countApp appRef app (-1),
    { ent with appRef := ent.appRef - 1, appOwnerList := ent.appOwnerList.erase app })

/-- `__c_flow_find_del_all_app_owner`. -/
def flowDelAllAppOwner (appRef : App → Int) (ent : FlEntry) : (App → Int) × FlEntry :=
  (ent.appOwnerList.foldl (fun counts app => countApp counts app (-1)) appRef,
    { ent with appRef := ent.appRef - ent.appOwnerList.length, appOwnerList := [] })

/-- What `c_flow_rule_mod` leaves behind. -/
structure RuleMod where
  groups : List Group
  meters : List Meter
  appRef : App → Int
  ent : FlEntry
  hwInstall : Bool
  ret : Int

/-- The second half of `c_flow_rule_mod`: take the new dependencies, or put the
old lists back. `ent` has its lists cleared, `old` is the entry before the call. -/
def flowRuleModDeps (sw : Switch) (appRef : App → Int) (old ent : FlEntry) (p : FlowModParams)
    (hwInstall : Bool) (now : Nat) : RuleMod :=
  let restored := { ent with groups := old.groups, meters := old.meters, locked := false }
  match RefTable.associate sw.groups [] p.grpDep with
  | (groups, _, false) => ⟨groups, sw.meters, appRef, restored, hwInstall, -1⟩
  | (groups, grps, true) =>
    match RefTable.associate sw.meters [] p.meterDep with
    | (meters, _, false) => ⟨RefTable.release groups grps, meters, appRef, restored, hwInstall, -1⟩
    | (meters, mets, true) =>
      let flags := if hasFlag ent.flags flEntResidual && !hasFlag p.flags flEntResidual
        then p.flags else ent.flags
      ⟨RefTable.release groups old.groups, RefTable.release meters old.meters, appRef, { ent with
          groups := grps, meters := mets, actions := p.actions, lastRefresh := now, lastScan := 0,
          flags := clearFlag flags flNoAck, locked := false },
        hwInstall, 0⟩

/-- `c_flow_rule_mod`. -/
def flowRuleMod (sw : Switch) (old : FlEntry) (p : FlowModParams) (hwInstall : Bool) (now : Nat) :
    RuleMod :=
  let ent := { old with locked := true, groups := [], meters := [] }
  if hasFlag ent.flags flEntResidual then
    if hasFlag p.flags flEntResidual then
      -- The source returns here with the lists dropped and the entry locked.
      ⟨sw.groups, sw.meters, sw.appRef, ent, hwInstall, -1⟩
    else
      let cleared := flowDelAllAppOwner sw.appRef ent
      let owned := flowAddAppOwnerLocked cleared.1 cleared.2 p.appOwner
      if owned.2.actions = p.actions then flowRuleModDeps sw owned.1 old owned.2 p false now
      else flowRuleModDeps sw owned.1 old { owned.2 with installed := false } p true now
  else flowRuleModDeps sw sw.appRef old ent p hwInstall now

/-- Write an entry back to where the lookup found it. -/
def Switch.putRule (sw : Switch) (table index : Nat) (ent : FlEntry) : Switch :=
  sw.setRules table ((sw.rules table).set index ent)

/-- The part of `c_flow_rule_add` that modifies an entry it may modify. -/
def flowRuleAddMod (sw : Switch) (p : FlowModParams) (now table index : Nat) (ent : FlEntry) :
    Switch × Int :=
  let mod := flowRuleMod sw ent p (needHwSync sw p) now
  let changed := { sw with
    lock := false, groups := mod.groups, meters := mod.meters, appRef := mod.appRef }
  if mod.ret ≠ 0 then (changed.putRule table index mod.ent, -einval)
  else
    let ent := { mod.ent with flags := clearFlag mod.ent.flags flEntStale }
    let done := changed.putRule table index ent
    (if mod.hwInstall then done.sendFlowAdd ent p.bufferId true else done, 0)

/-- The part of `c_flow_rule_add` for an existing entry. -/
def flowRuleAddFound (sw : Switch) (p : FlowModParams) (now table index : Nat) (ent : FlEntry) :
    Switch × Int :=
  let unlocked := { sw with lock := false }
  if hasFlag p.flags flEntLocal && hasFlag ent.flags flEntResidual then (unlocked, -eperm)
  else if hasFlag p.flags flEntLocal && hasFlag ent.flags flEntLocal then
    let owned := flowAddAppOwner sw.appRef ent p.appOwner
    ({ unlocked.putRule table index owned.2 with appRef := owned.1 }, 0)
  else if !hasFlag ent.flags flEntResidual && decide (p.appOwner ∉ ent.appOwnerList) then
    (unlocked, -eperm)
  else if !hasFlag ent.flags flEntResidual && ent.actions == p.actions then
    (unlocked.putRule table index { ent with flags := clearFlag ent.flags flEntStale }, -eexist)
  else flowRuleAddMod sw p now table index ent

/-- The entry `c_flow_rule_add` allocates. -/
def newEntry (p : FlowModParams) (now : Nat) : FlEntry where
  flags := p.flags
  prio := p.prio
  itimeo := p.itimeo
  htimeo := p.htimeo
  fl := p.flow
  flMask := p.mask
  actions := p.actions
  lastRefresh := now

/-- The cookie, stale mark and installed mark of an inserted entry. -/
def stampEntry (ent : FlEntry) (low cookie : BitVec 32) (now : Nat) : FlEntry :=
  let resStale := hasFlag ent.flags flEntResStale
  let residual := hasFlag ent.flags flEntResidual
  let cookie : BitVec 64 := cookie ++ low
  { ent with
    cookie := if resStale then setFlag cookie flResStaleFlag else cookie
    staleTime := if resStale && residual then now else ent.staleTime
    installed := ent.installed || residual || hasFlag ent.flags flNoAck
    flags :=
      clearFlag (if resStale && residual then setFlag ent.flags flEntStale else ent.flags) flNoAck }

/-- The part of `c_flow_rule_add` for a new entry. -/
def flowRuleAddFresh (sw : Switch) (p : FlowModParams) (now table : Nat) (hint : Option Nat) :
    Switch × Int :=
  let unlocked := { sw with lock := false }
  match RefTable.associate sw.groups [] p.grpDep with
  | (groups, _, false) => ({ unlocked with groups }, -einval)
  | (groups, grps, true) =>
    match RefTable.associate sw.meters [] p.meterDep with
    | (meters, _, false) =>
      ({ unlocked with groups := RefTable.release groups grps, meters }, -einval)
    | (meters, mets, true) =>
      let owned := flowAddAppOwner sw.appRef { newEntry p now with groups := grps, meters := mets }
        p.appOwner
      let flIdxCookie := if p.seqCookie = 0 then sw.flIdxCookie + 1 else sw.flIdxCookie
      let low := if p.seqCookie = 0 then flIdxCookie else p.seqCookie
      let ent := stampEntry owned.2 low p.cookie now
      let tbl := sw.ruleFlowTbls table
      let done := { unlocked with
        groups, meters, appRef := owned.1, flIdxCookie
        ruleFlowTbls := Function.update sw.ruleFlowTbls table
          { swActiveEntries := tbl.swActiveEntries + 1
            ruleFlTbl := insertBefore tbl.ruleFlTbl hint ent } }
      (if needHwSync sw p then done.sendFlowAdd ent p.bufferId false else done, 0)

/-- `c_flow_rule_add`. -/
def flowRuleAdd (sw : Switch) (p : FlowModParams) (now : Nat) : Switch × Int :=
  if flowModValidateParms sw p then
    let table := p.flow.tableId.toNat
    let locked := { sw with lock := true }
    match lookupRuleStrictPrioHint p.flow p.mask p.prio 0 none (sw.rules table) with
    | (some (index, ent), _) => flowRuleAddFound locked p now table index ent
    | (none, hint) => flowRuleAddFresh locked p now table hint
  else (sw, -einval)

/-- The test of `__c_flow_rule_del_strict`. All of the mask is compared. -/
def delStrictMatch (fl mask : Flow) (prio : BitVec 16) (app : App) (ent : FlEntry) : Bool :=
  ent.fl == fl && ent.flMask == mask && ent.prio == prio && decide (app ∈ ent.appOwnerList)

/-- `__c_flow_rule_del_strict`: the list it leaves and the entry it found, whose
`app_ref` tells whether it was unlinked. -/
def flowRuleDelStrict (appRef : App → Int) (fl mask : Flow) (prio : BitVec 16) (app : App) :
    List FlEntry → Option (List FlEntry × (App → Int) × FlEntry)
  | [] => none
  | ent :: rest =>
    if delStrictMatch fl mask prio app ent then
      let left := flowDelAppOwner appRef ent app
      some (if left.2.appRef ≠ 0 then left.2 :: rest else rest, left.1, left.2)
    else
      (flowRuleDelStrict appRef fl mask prio app rest).map fun found => (ent :: found.1, found.2)

/-- `c_flow_rule_free` of an entry nobody holds: give its references back. -/
def flowRuleFree (sw : Switch) (ent : FlEntry) : Switch :=
  { sw with
    groups := RefTable.release sw.groups ent.groups
    meters := RefTable.release sw.meters ent.meters }

/-- `c_flow_rule_del`. -/
def flowRuleDel (sw : Switch) (p : FlowModParams) : Switch × Int :=
  if flowModValidateParms sw p then
    let table := p.flow.tableId.toNat
    match flowRuleDelStrict sw.appRef p.flow p.mask p.prio p.appOwner (sw.rules table) with
    | none => ({ sw with lock := false }, -1)
    | some (rules, appRef, ent) =>
      let unlinked := { sw.setRules table rules with lock := false, appRef }
      let sent := if hasFlag ent.flags flEntLocal then unlinked else unlinked.sendFlowDel ent true
      if ent.appRef = 0 then
        let freed := flowRuleFree sent ent
        let tbl := freed.ruleFlowTbls table
        let counted := { tbl with swActiveEntries := tbl.swActiveEntries - 1 }
        ({ freed with ruleFlowTbls := Function.update freed.ruleFlowTbls table counted }, 0)
      else (sent, 0)
  else (sw, -1)

end OpenMul
