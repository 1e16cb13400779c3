import OpenMul.Core.FlowRule

namespace OpenMul

open Lib RefTable

/-- A list split at the first entry that passes a test. -/
structure FirstAt (test : FlEntry → Bool) (list before : List FlEntry) (ent : FlEntry)
    (after : List FlEntry) : Prop where
  split : list = before ++ ent :: after
  passes : test ent = true
  first : ∀ other ∈ before, test other = false

section Find

variable {list before after : List FlEntry} {ent : FlEntry} {fl mask : Flow} {prio : BitVec 16}

theorem FirstAt.cons (found : FirstAt test list before ent after)
    (fails : test head = false) : FirstAt test (head :: list) (head :: before) ent after := by
  refine ⟨by rw [found.split]; rfl, found.passes, ?_⟩
  intro other member
  rcases List.mem_cons.mp member with same | earlier
  · exact same ▸ fails
  · exact found.first other earlier

theorem FirstAt.find?_eq (found : FirstAt test list before ent after) :
    list.find? test = some ent := by
  obtain ⟨rfl, passes, first⟩ := found
  rw [List.find?_append, List.find?_eq_none.mpr (by simpa using first)]
  simp [passes]

theorem lookupRule_found
    (found : lookupRuleStrictPrioHint fl mask prio index hint list = (some (position, ent), last)) :
    ∃ before after, FirstAt (sameRule fl mask prio) list before ent after ∧
      position = index + before.length := by
  induction list generalizing index hint with
  | nil => simp [lookupRuleStrictPrioHint] at found
  | cons head rest ih =>
    by_cases same : sameRule fl mask prio head
    · simp only [lookupRuleStrictPrioHint, same, if_true, Prod.mk.injEq, Option.some.injEq] at found
      obtain ⟨⟨rfl, rfl⟩, -⟩ := found
      exact ⟨[], rest, ⟨rfl, same, by simp⟩, by simp⟩
    · simp only [lookupRuleStrictPrioHint, same, Bool.false_eq_true, if_false] at found
      obtain ⟨before, after, first, position⟩ := ih found
      exact ⟨head :: before, after, first.cons (by simpa using same), by simp [position]; omega⟩

theorem lookupRule_missing {hint last : Option Nat}
    (missing : lookupRuleStrictPrioHint fl mask prio index hint list = (none, last)) :
    (∀ ent ∈ list, sameRule fl mask prio ent = false) ∧
      last = hint.or
        ((firstAtMost (fun ent => ent.prio.toNat) prio.toNat list).map (index + ·)) := by
  induction list generalizing index hint with
  | nil => simp_all [lookupRuleStrictPrioHint, firstAtMost]
  | cons head rest ih =>
    by_cases same : sameRule fl mask prio head
    · simp [lookupRuleStrictPrioHint, same] at missing
    · simp only [lookupRuleStrictPrioHint, same, Bool.false_eq_true, if_false] at missing
      obtain ⟨others, reached⟩ := ih missing
      refine ⟨by simpa [same] using others, ?_⟩
      rw [reached]
      by_cases low : head.prio.toNat ≤ prio.toNat
      · cases hint <;> simp [firstAtMost, List.findIdx?_cons, low, BitVec.le_def]
      · cases hint with
        | some value => simp
        | none =>
          simp only [firstAtMost, List.findIdx?_cons, low, BitVec.le_def, decide_false,
            Option.isNone_none, Bool.and_false, Bool.false_eq_true, if_false, Option.none_or,
            Option.map_map]
          congr 1
          funext offset
          simp only [Function.comp_apply]
          omega

end Find

/-- The owners and the installed mark after the first half of a modify. -/
def ownedEntry (ent : FlEntry) (p : FlowModParams) : FlEntry :=
  if hasFlag ent.flags flEntResidual then
    { ent with
      appRef := ent.appRef - ent.appOwnerList.length + 1, appOwnerList := [p.appOwner]
      installed := if ent.actions = p.actions then ent.installed else false }
  else ent

def ownedAppRef (sw : Switch) (ent : FlEntry) (p : FlowModParams) : App → Int :=
  if hasFlag ent.flags flEntResidual then
    countApp (flowDelAllAppOwner sw.appRef ent).1 p.appOwner 1
  else sw.appRef

def modSync (sw : Switch) (ent : FlEntry) (p : FlowModParams) : Bool :=
  if hasFlag ent.flags flEntResidual then decide (ent.actions ≠ p.actions) else needHwSync sw p

/-- The entry after an accepted modify. -/
def modEntry (ent : FlEntry) (p : FlowModParams) (grps mets : List Nat) (now : Nat) : FlEntry :=
  { ownedEntry ent p with
    groups := grps, meters := mets, actions := p.actions, lastRefresh := now, lastScan := 0
    flags := clearFlag
      (clearFlag (if hasFlag ent.flags flEntResidual then p.flags else ent.flags) flNoAck)
        flEntStale
    locked := false }

/-- The entry a fresh add links into the table. -/
def addedEntry (sw : Switch) (p : FlowModParams) (grps mets : List Nat) (now : Nat) : FlEntry :=
  stampEntry
    { newEntry p now with
      groups := grps, meters := mets, appRef := 1, appOwnerList := [p.appOwner] }
    (if p.seqCookie = 0 then sw.flIdxCookie + 1 else p.seqCookie) p.cookie now

/-- References taken and given back in one go. -/
def exchange {Body : Type} (table : List (Counted (BitVec 32) Body)) (taken dropped : List Nat) :
    List (Counted (BitVec 32) Body) :=
  shift table fun ptr => (taken.count ptr : Int) - dropped.count ptr

section Add

variable (sw : Switch) (p : FlowModParams) (now : Nat)

/-- The table named by the parameters, and its rules. -/
def tableOf (p : FlowModParams) : Nat := p.flow.tableId.toNat

theorem tableOf_lt {sw : Switch} {p : FlowModParams} (valid : flowModValidateParms sw p = true) :
    tableOf p < maxRuleFlowTbls := by
  simp only [flowModValidateParms, Switch.tableSupported, Bool.not_eq_true', Bool.or_eq_false_iff,
    Bool.not_eq_false'] at valid
  have supported := valid.1.1.1
  split at supported
  · rename_i both
    simp only [Bool.and_eq_true, decide_eq_true_eq] at both
    exact both.1
  · have zero : p.flow.tableId = 0 := by simpa using supported
    simp [tableOf, zero, maxRuleFlowTbls]

abbrev AddFound (before : List FlEntry) (ent : FlEntry) (after : List FlEntry) : Prop :=
  FirstAt (sameRule p.flow p.mask p.prio) (sw.rules (tableOf p)) before ent after

/-- The outcomes of `c_flow_rule_add`. -/
inductive AddOutcome : Switch × Int → Prop where
  | invalid (rejected : flowModValidateParms sw p = false) : AddOutcome (sw, -einval)
  | refused {before ent after} (valid : flowModValidateParms sw p = true)
      (found : AddFound sw p before ent after)
      (reason : (hasFlag p.flags flEntLocal = true ∧ hasFlag ent.flags flEntResidual = true) ∨
        (hasFlag ent.flags flEntResidual = false ∧ p.appOwner ∉ ent.appOwnerList))
      (unshared : hasFlag ent.flags flEntResidual = false →
        (hasFlag p.flags flEntLocal && hasFlag ent.flags flEntLocal) = false) :
      AddOutcome ({ sw with lock := false }, -eperm)
  | shared {before ent after} (valid : flowModValidateParms sw p = true)
      (found : AddFound sw p before ent after)
      (asked : hasFlag p.flags flEntLocal = true) (locals : hasFlag ent.flags flEntLocal = true)
      (settled : hasFlag ent.flags flEntResidual = false) :
      AddOutcome
        ({ sw.setRules (tableOf p)
            (before ++ (flowAddAppOwner sw.appRef ent p.appOwner).2 :: after) with
          lock := false, appRef := (flowAddAppOwner sw.appRef ent p.appOwner).1 }, 0)
  | existing {before ent after} (valid : flowModValidateParms sw p = true)
      (found : AddFound sw p before ent after)
      (settled : hasFlag ent.flags flEntResidual = false) (owned : p.appOwner ∈ ent.appOwnerList)
      (same : ent.actions = p.actions)
      (unshared : (hasFlag p.flags flEntLocal && hasFlag ent.flags flEntLocal) = false) :
      AddOutcome
        ({ sw.setRules (tableOf p)
            (before ++ { ent with flags := clearFlag ent.flags flEntStale } :: after) with
          lock := false }, -eexist)
  | dropped {before ent after} (valid : flowModValidateParms sw p = true)
      (found : AddFound sw p before ent after)
      (residual : hasFlag ent.flags flEntResidual = true)
      (again : hasFlag p.flags flEntResidual = true) (shared : hasFlag p.flags flEntLocal = false) :
      AddOutcome
        ({ sw.setRules (tableOf p)
            (before ++ { ent with locked := true, groups := [], meters := [] } :: after) with
          lock := false }, -einval)
  | missing {before ent after} (valid : flowModValidateParms sw p = true)
      (found : AddFound sw p before ent after)
      (changes : if hasFlag ent.flags flEntResidual
        then hasFlag p.flags flEntResidual = false ∧ hasFlag p.flags flEntLocal = false
        else p.appOwner ∈ ent.appOwnerList ∧ ent.actions ≠ p.actions ∧
          (hasFlag p.flags flEntLocal && hasFlag ent.flags flEntLocal) = false)
      (unresolved : resolve sw.groups p.grpDep = none ∨ resolve sw.meters p.meterDep = none) :
      AddOutcome
        ({ sw.setRules (tableOf p) (before ++ { ownedEntry ent p with locked := false } :: after)
             with
          lock := false, appRef := ownedAppRef sw ent p }, -einval)
  | modified {before ent after grps mets} (valid : flowModValidateParms sw p = true)
      (found : AddFound sw p before ent after)
      (changes : if hasFlag ent.flags flEntResidual
        then hasFlag p.flags flEntResidual = false ∧ hasFlag p.flags flEntLocal = false
        else p.appOwner ∈ ent.appOwnerList ∧ ent.actions ≠ p.actions ∧
          (hasFlag p.flags flEntLocal && hasFlag ent.flags flEntLocal) = false)
      (groups : resolve sw.groups p.grpDep = some grps)
      (meters : resolve sw.meters p.meterDep = some mets) :
      AddOutcome
        ({ sw.setRules (tableOf p) (before ++ modEntry ent p grps mets now :: after) with
          lock := false
          groups := exchange sw.groups grps ent.groups
          meters := exchange sw.meters mets ent.meters
          appRef := ownedAppRef sw ent p
          txQ := sw.txQ ++ if modSync sw ent p
            then sw.flowAddMsgs (modEntry ent p grps mets now) p.bufferId true else [] }, 0)
  | unresolved (valid : flowModValidateParms sw p = true)
      (fresh : ∀ ent ∈ sw.rules (tableOf p), sameRule p.flow p.mask p.prio ent = false)
      (missing : resolve sw.groups p.grpDep = none ∨ resolve sw.meters p.meterDep = none) :
      AddOutcome ({ sw with lock := false }, -einval)
  | inserted {grps mets} (valid : flowModValidateParms sw p = true)
      (fresh : ∀ ent ∈ sw.rules (tableOf p), sameRule p.flow p.mask p.prio ent = false)
      (groups : resolve sw.groups p.grpDep = some grps)
      (meters : resolve sw.meters p.meterDep = some mets) :
      AddOutcome
        ({ sw with
          lock := false
          groups := exchange sw.groups grps []
          meters := exchange sw.meters mets []
          appRef := countApp sw.appRef p.appOwner 1
          flIdxCookie := if p.seqCookie = 0 then sw.flIdxCookie + 1 else sw.flIdxCookie
          ruleFlowTbls := Function.update sw.ruleFlowTbls (tableOf p)
            { swActiveEntries := (sw.ruleFlowTbls (tableOf p)).swActiveEntries + 1
              ruleFlTbl := insertBefore (sw.rules (tableOf p))
                (firstAtMost (fun ent => ent.prio.toNat) p.prio.toNat (sw.rules (tableOf p)))
                (addedEntry sw p grps mets now) }
          txQ := sw.txQ ++ if needHwSync sw p
            then sw.flowAddMsgs (addedEntry sw p grps mets now) p.bufferId false else [] }, 0)

variable {sw p now} {before after : List FlEntry} {ent old : FlEntry} {appRef : App → Int}
    {hwInstall : Bool} {Body : Type}

variable {table : List (Counted (BitVec 32) Body)} {keys : List (BitVec 32)}

/-- From nothing held, a failed association changes nothing. -/
theorem associate_resolved (resolved : resolve table keys = some taken) :
    associate table [] keys = (exchange table taken [], taken, true) := by
  simp [associate_eq, resolved, exchange]

theorem associate_unresolved (unresolved : resolve table keys = none) :
    associate table [] keys = (table, [], false) := by
  simp [associate_eq, unresolved, shift_zero]

variable (table : List (Counted (BitVec 32) Body))

theorem release_exchange (taken dropped : List Nat) :
    release (exchange table taken []) dropped = exchange table taken dropped := by
  simp [exchange, release_eq_shift, shift_shift, Int.sub_eq_add_neg]

theorem release_eq_exchange (dropped : List Nat) :
    release table dropped = exchange table [] dropped := by
  simp [exchange, release_eq_shift]

theorem exchange_self (taken : List Nat) : exchange table taken taken = table :=
  shift_zero _ _ fun _ => Int.sub_self _

private theorem modDeps_missing
    (unresolved : resolve sw.groups p.grpDep = none ∨ resolve sw.meters p.meterDep = none) :
    flowRuleModDeps sw appRef old ent p hwInstall now = ⟨sw.groups, sw.meters, appRef,
        { ent with groups := old.groups, meters := old.meters, locked := false }, hwInstall,
          -1⟩ := by
  cases groups : resolve sw.groups p.grpDep with
  | none => simp [flowRuleModDeps, associate_unresolved groups]
  | some grps =>
    have meters : resolve sw.meters p.meterDep = none := by simpa [groups] using unresolved
    simp [flowRuleModDeps, associate_resolved groups, associate_unresolved meters, release_exchange,
      exchange_self]

private theorem modDeps_resolved (groups : resolve sw.groups p.grpDep = some grps)
    (meters : resolve sw.meters p.meterDep = some mets) :
    flowRuleModDeps sw appRef old ent p hwInstall now =
      ⟨exchange sw.groups grps old.groups, exchange sw.meters mets old.meters, appRef, { ent with
          groups := grps, meters := mets, actions := p.actions, lastRefresh := now, lastScan := 0
          flags := clearFlag (if hasFlag ent.flags flEntResidual && !hasFlag p.flags flEntResidual
            then p.flags else ent.flags) flNoAck
          locked := false },
        hwInstall, 0⟩ := by
  simp [flowRuleModDeps, associate_resolved groups, associate_resolved meters, release_exchange]

private theorem mod_residual (residual : hasFlag old.flags flEntResidual = true)
    (again : hasFlag p.flags flEntResidual = true) : flowRuleMod sw old p hwInstall now =
      ⟨sw.groups, sw.meters, sw.appRef, { old with locked := true, groups := [], meters := [] },
        hwInstall, -1⟩ := by
  simp [flowRuleMod, residual, again]

private theorem mod_missing
    (takes : hasFlag old.flags flEntResidual = true → hasFlag p.flags flEntResidual = false)
    (unresolved : resolve sw.groups p.grpDep = none ∨ resolve sw.meters p.meterDep = none) :
    flowRuleMod sw old p (needHwSync sw p) now =
      ⟨sw.groups, sw.meters, ownedAppRef sw old p, { ownedEntry old p with locked := false },
        modSync sw old p, -1⟩ := by
  by_cases residual : hasFlag old.flags flEntResidual
  · by_cases same : old.actions = p.actions <;>
      simp [flowRuleMod, residual, takes residual, flowAddAppOwnerLocked, flowDelAllAppOwner, same,
        modDeps_missing unresolved, ownedEntry, ownedAppRef, modSync]
  · simp [flowRuleMod, residual, modDeps_missing unresolved, ownedEntry, ownedAppRef, modSync]

private theorem mod_resolved
    (takes : hasFlag old.flags flEntResidual = true → hasFlag p.flags flEntResidual = false)
    (groups : resolve sw.groups p.grpDep = some grps)
    (meters : resolve sw.meters p.meterDep = some mets) :
    ∃ ent, flowRuleMod sw old p (needHwSync sw p) now =
      ⟨exchange sw.groups grps old.groups, exchange sw.meters mets old.meters, ownedAppRef sw old p,
        ent, modSync sw old p, 0⟩ ∧
      { ent with flags := clearFlag ent.flags flEntStale } = modEntry old p grps mets now := by
  by_cases residual : hasFlag old.flags flEntResidual
  · by_cases same : old.actions = p.actions <;>
      simp [flowRuleMod, residual, takes residual, flowAddAppOwnerLocked, flowDelAllAppOwner, same,
        modDeps_resolved groups meters, ownedEntry, ownedAppRef, modSync, modEntry]
  · simp [flowRuleMod, residual, modDeps_resolved groups meters, ownedEntry, ownedAppRef, modSync,
      modEntry]

private theorem putRule_found (found : AddFound sw p before ent after) (other : Switch)
    (same : other.ruleFlowTbls = sw.ruleFlowTbls) (changed : FlEntry) :
    other.putRule (tableOf p) before.length changed =
      other.setRules (tableOf p) (before ++ changed :: after) := by
  have rules : other.rules (tableOf p) = before ++ ent :: after := by
    rw [← found.split]
    simp [Switch.rules, same]
  simp [Switch.putRule, rules]

section

variable (valid : flowModValidateParms sw p = true)
include valid

private theorem addMod_outcome (found : AddFound sw p before ent after)
    (changes : if hasFlag ent.flags flEntResidual
      then hasFlag p.flags flEntResidual = false ∧ hasFlag p.flags flEntLocal = false
      else p.appOwner ∈ ent.appOwnerList ∧ ent.actions ≠ p.actions ∧
        (hasFlag p.flags flEntLocal && hasFlag ent.flags flEntLocal) = false) : AddOutcome sw p now
      (flowRuleAddMod { sw with lock := true } p now (tableOf p) before.length ent) := by
  have takes : hasFlag ent.flags flEntResidual = true → hasFlag p.flags flEntResidual = false := by
    intro residual
    rw [if_pos residual] at changes
    exact changes.1
  have missing : resolve sw.groups p.grpDep = none ∨ resolve sw.meters p.meterDep = none →
      AddOutcome sw p now
        (flowRuleAddMod { sw with lock := true } p now (tableOf p) before.length ent) := by
    intro unresolved
    have mod := @mod_missing { sw with lock := true } p now ent takes unresolved
    simp only [flowRuleAddMod, mod, putRule_found found]
    exact .missing valid found changes unresolved
  cases groups : resolve sw.groups p.grpDep with
  | none => exact missing (.inl groups)
  | some grps =>
    cases meters : resolve sw.meters p.meterDep with
    | none => exact missing (.inr meters)
    | some mets =>
      obtain ⟨next, mod, stamped⟩ :=
        @mod_resolved { sw with lock := true } p now ent grps mets takes groups meters
      have outcome := @AddOutcome.modified sw p now before ent after grps mets valid found changes
        groups meters
      simp only [flowRuleAddMod, mod, putRule_found found, stamped]
      cases sync : modSync sw ent p with
      | true =>
        simp only [show modSync { sw with lock := true } ent p = true from sync]
        simp only [sync, if_true] at outcome
        exact outcome
      | false =>
        simp only [show modSync { sw with lock := true } ent p = false from sync]
        simp only [sync, Bool.false_eq_true, if_false, List.append_nil] at outcome
        exact outcome

private theorem addFound_outcome (found : AddFound sw p before ent after) : AddOutcome sw p now
      (flowRuleAddFound { sw with lock := true } p now (tableOf p) before.length ent) := by
  have put := putRule_found found
  unfold flowRuleAddFound
  by_cases collides : hasFlag p.flags flEntLocal = true ∧ hasFlag ent.flags flEntResidual = true
  · simp only [collides.1, collides.2, Bool.and_true, if_true]
    exact .refused valid found (.inl collides) fun settled => by simp [collides.2] at settled
  by_cases shares : hasFlag p.flags flEntLocal = true ∧ hasFlag ent.flags flEntLocal = true
  · have settled : hasFlag ent.flags flEntResidual = false := by
      simpa [shares.1] using collides
    simp only [shares.1, shares.2, settled, Bool.and_false, Bool.and_true, Bool.false_eq_true,
      if_true, if_false, put]
    exact .shared valid found shares.1 shares.2 settled
  have apart : (hasFlag p.flags flEntLocal && hasFlag ent.flags flEntLocal) = false := by
    simpa using shares
  have clear : (hasFlag p.flags flEntLocal && hasFlag ent.flags flEntResidual) = false := by
    simpa using collides
  simp only [apart, clear, Bool.false_eq_true, if_false]
  by_cases residual : hasFlag ent.flags flEntResidual = true
  · simp only [residual, Bool.not_true, Bool.false_and, Bool.false_eq_true, if_false]
    have remote : hasFlag p.flags flEntLocal = false := by simpa [residual] using clear
    by_cases again : hasFlag p.flags flEntResidual = true
    · simp only [flowRuleAddMod, mod_residual residual again, put]
      exact .dropped valid found residual again remote
    · exact addMod_outcome valid found (by simpa [residual, remote] using again)
  · simp only [residual, Bool.not_false, Bool.true_and, decide_eq_true_eq, beq_iff_eq]
    by_cases owned : p.appOwner ∈ ent.appOwnerList
    · by_cases same : ent.actions = p.actions
      · simp only [owned, if_pos same, not_true, if_false, put]
        exact .existing valid found (by simpa using residual) owned same apart
      · simp only [owned, same, not_true, if_false]
        exact addMod_outcome valid found (by simpa [residual, owned, same] using apart)
    · simp only [owned, not_false_eq_true, if_true]
      exact .refused valid found (.inr ⟨by simpa using residual, owned⟩) fun _ => apart

private theorem addFresh_outcome
    (fresh : ∀ ent ∈ sw.rules (tableOf p), sameRule p.flow p.mask p.prio ent = false) :
    AddOutcome sw p now (flowRuleAddFresh { sw with lock := true } p now (tableOf p)
      (firstAtMost (fun ent => ent.prio.toNat) p.prio.toNat (sw.rules (tableOf p)))) := by
  cases groups : resolve sw.groups p.grpDep with
  | none =>
    simp only [flowRuleAddFresh, associate_unresolved groups]
    exact .unresolved valid fresh (.inl groups)
  | some grps =>
    cases meters : resolve sw.meters p.meterDep with
    | none =>
      simp only [flowRuleAddFresh, associate_resolved groups, associate_unresolved meters,
        release_exchange, exchange_self]
      exact .unresolved valid fresh (.inr meters)
    | some mets =>
      have outcome := @AddOutcome.inserted sw p now grps mets valid fresh groups meters
      have owned : flowAddAppOwner sw.appRef { newEntry p now with groups := grps, meters := mets }
          p.appOwner = (countApp sw.appRef p.appOwner 1, { newEntry p now with
              groups := grps, meters := mets, appRef := 1, appOwnerList := [p.appOwner] }) := by
        simp [flowAddAppOwner, flowAddAppOwnerLocked, newEntry]
      have low :
          (if p.seqCookie = 0 then if p.seqCookie = 0 then sw.flIdxCookie + 1 else sw.flIdxCookie
          else p.seqCookie) = if p.seqCookie = 0 then sw.flIdxCookie + 1 else p.seqCookie := by
        split <;> rfl
      simp only [flowRuleAddFresh, associate_resolved groups, associate_resolved meters, owned, low]
      cases sync : needHwSync sw p with
      | true =>
        simp only [show needHwSync { sw with lock := true } p = true from sync]
        simp only [sync, if_true] at outcome
        exact outcome
      | false =>
        simp only [show needHwSync { sw with lock := true } p = false from sync]
        simp only [sync, Bool.false_eq_true, if_false, List.append_nil] at outcome
        exact outcome

end

theorem flowRuleAdd_outcome : AddOutcome sw p now (flowRuleAdd sw p now) := by
  unfold flowRuleAdd
  cases valid : flowModValidateParms sw p with
  | false => exact .invalid valid
  | true =>
    simp only [if_true]
    split
    · rename_i index ent hint searched
      obtain ⟨before, after, found, rfl⟩ := lookupRule_found searched
      rw [Nat.zero_add]
      exact addFound_outcome valid found
    · rename_i hint searched
      obtain ⟨fresh, hinted⟩ := lookupRule_missing searched
      have first :
          hint = firstAtMost (fun ent => ent.prio.toNat) p.prio.toNat (sw.rules (tableOf p)) := by
        simpa [tableOf] using hinted
      rw [first]
      exact addFresh_outcome valid fresh

end Add

section Delete

/-- An entry less one owner. -/
def withoutOwner (app : App) (ent : FlEntry) : FlEntry :=
  { ent with appRef := ent.appRef - 1, appOwnerList := ent.appOwnerList.erase app }

theorem flowRuleDelStrict_eq {fl mask : Flow} {prio : BitVec 16} {app : App}
    {list before after : List FlEntry} {ent : FlEntry}
    (found : FirstAt (delStrictMatch fl mask prio app) list before ent after) :
    flowRuleDelStrict appRef fl mask prio app list =
      some (before ++ (if ent.appRef - 1 ≠ 0 then withoutOwner app ent :: after else after),
        countApp appRef app (-1), withoutOwner app ent) := by
  obtain ⟨rfl, passes, first⟩ := found
  induction before with
  | nil =>
    by_cases last : ent.appRef - 1 = 0 <;>
      simp [flowRuleDelStrict, passes, flowDelAppOwner, withoutOwner, last]
  | cons head rest ih =>
    simp [flowRuleDelStrict, first head (by simp),
      ih fun other member => first other (by simp [member])]

theorem flowRuleDelStrict_cases (appRef : App → Int) (fl mask : Flow) (prio : BitVec 16) (app : App)
    (list : List FlEntry) : ((∀ ent ∈ list, delStrictMatch fl mask prio app ent = false) ∧
      flowRuleDelStrict appRef fl mask prio app list = none) ∨
    ∃ before ent after, FirstAt (delStrictMatch fl mask prio app) list before ent after := by
  induction list with
  | nil => simp [flowRuleDelStrict]
  | cons head rest ih =>
    by_cases passes : delStrictMatch fl mask prio app head
    · exact .inr ⟨[], head, rest, rfl, passes, by simp⟩
    · have fails : delStrictMatch fl mask prio app head = false := by simpa using passes
      rcases ih with ⟨none, missing⟩ | ⟨before, ent, after, found⟩
      · exact .inl ⟨by simpa [fails] using none, by simp [flowRuleDelStrict, fails, missing]⟩
      · exact .inr ⟨head :: before, ent, after, found.cons fails⟩

variable (sw : Switch) (p : FlowModParams)

abbrev DelFound (before : List FlEntry) (ent : FlEntry) (after : List FlEntry) : Prop :=
  FirstAt (delStrictMatch p.flow p.mask p.prio p.appOwner) (sw.rules (tableOf p)) before ent after

/-- What a rule delete writes. -/
def delMsgs (ent : FlEntry) : List OfpMsg :=
  if hasFlag ent.flags flEntLocal then [] else sw.flowDelMsgs ent true

/-- The outcomes of `c_flow_rule_del`. -/
inductive DelOutcome : Switch × Int → Prop where
  | invalid (rejected : flowModValidateParms sw p = false) : DelOutcome (sw, -1)
  | missing (valid : flowModValidateParms sw p = true)
      (none : ∀ ent ∈ sw.rules (tableOf p),
        delStrictMatch p.flow p.mask p.prio p.appOwner ent = false) :
      DelOutcome ({ sw with lock := false }, -1)
  | kept {before ent after} (valid : flowModValidateParms sw p = true)
      (found : DelFound sw p before ent after) (others : ent.appRef - 1 ≠ 0) :
      DelOutcome
        ({ sw.setRules (tableOf p) (before ++ withoutOwner p.appOwner ent :: after) with
          lock := false
          appRef := countApp sw.appRef p.appOwner (-1)
          txQ := sw.txQ ++ delMsgs sw ent }, 0)
  | removed {before ent after} (valid : flowModValidateParms sw p = true)
      (found : DelFound sw p before ent after) (last : ent.appRef - 1 = 0) :
      DelOutcome
        ({ sw with
          lock := false
          groups := release sw.groups ent.groups
          meters := release sw.meters ent.meters
          appRef := countApp sw.appRef p.appOwner (-1)
          ruleFlowTbls := Function.update sw.ruleFlowTbls (tableOf p)
            { swActiveEntries := (sw.ruleFlowTbls (tableOf p)).swActiveEntries - 1
              ruleFlTbl := before ++ after }
          txQ := sw.txQ ++ delMsgs sw ent }, 0)

variable {sw p}

theorem flowRuleDel_outcome : DelOutcome sw p (flowRuleDel sw p) := by
  unfold flowRuleDel
  cases valid : flowModValidateParms sw p with
  | false => exact .invalid valid
  | true =>
    rcases flowRuleDelStrict_cases sw.appRef p.flow p.mask p.prio p.appOwner (sw.rules (tableOf p))
      with
      ⟨none, missing⟩ | ⟨before, ent, after, found⟩
    · simp only [tableOf] at missing
      simp only [missing]
      exact .missing valid none
    · have strict := @flowRuleDelStrict_eq sw.appRef _ _ _ _ _ _ _ _ found
      simp only [tableOf] at strict
      simp only [strict]
      by_cases last : ent.appRef - 1 = 0
      · have outcome := DelOutcome.removed valid found last
        cases locals : hasFlag ent.flags flEntLocal <;>
          simp_all [delMsgs, withoutOwner, flowRuleFree, tableOf, Switch.setRules,
            Switch.sendFlowDel, Switch.switchTx, Switch.flowDelMsgs]
      · have outcome := DelOutcome.kept valid found last
        cases locals : hasFlag ent.flags flEntLocal <;>
          simp_all [delMsgs, withoutOwner, tableOf, Switch.setRules, Switch.sendFlowDel,
            Switch.switchTx, Switch.flowDelMsgs]

end Delete

end OpenMul
