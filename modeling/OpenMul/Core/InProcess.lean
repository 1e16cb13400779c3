import OpenMul.Core.RegistrationKept

namespace OpenMul

open Lib RefTable List Function

namespace Registry

variable (reg : Registry)

/-- The switch a call works on: the record it was given, or the one looked up. -/
def switchArg (swArg : Option Nat) (dpid : BitVec 64) : Option Nat :=
  match swArg with
  | some pos => some pos
  | none => (reg.switches.map RegSwitch.dpid).findIdx? fun known => known == dpid

/-- Run a request on the record at a position. Pointers are to connected switches. -/
def onSwitch (pos : Nat) (request : Switch → Switch × Int) : Registry × Int :=
  match reg.switches[pos]? with
  | none => (reg, -einval)
  | some node =>
    let result := request (node.sw.withRef reg.appRef)
    ({ reg with
        switches := reg.switches.set pos { node with sw := result.1 }
        appRef := result.1.appRef },
      result.2)

/-- Run a request for the application of a name, whose reference is held meanwhile. -/
def forApp (appName : List Byte) (pos : Nat) (request : App → Switch → Switch × Int) :
    Registry × Int :=
  match reg.appLookup appName with
  | none => (reg, -einval)
  | some app =>
    let result :=
      ({ reg with appRef := countApp reg.appRef app 1 } : Registry).onSwitch pos (request app)
    ({ result.1 with appRef := appPut result.1.appRef app }, result.2)

/-- `mul_app_send_flow_add` of the core. -/
def mulAppSendFlowAdd (appName : List Byte) (swArg : Option Nat) (dpid : BitVec 64)
    (fl flMask : Flow) (bufferId : BitVec 32) (actions : List Byte) (itimeo htimeo prio : BitVec 16)
    (flags : BitVec 64) (now : Nat) : Registry × Int :=
  match reg.switchArg swArg dpid with
  | none => (reg, -einval)
  | some pos =>
    let flParms app : FlowModParams :=
      { appOwner := app, flow := fl, mask := flMask, bufferId, flags, prio, itimeo, htimeo,
        actions }
    if hasFlag flags flEntNocache then reg.onSwitch pos fun sw =>
      (sendFlowAddDirect sw (flParms 0), 0)
    else reg.forApp appName pos fun app sw => flowRuleAdd sw (flParms app) now

/-- `mul_app_send_flow_del` of the core. -/
def mulAppSendFlowDel (order : ByteOrder) (appName : List Byte) (swArg : Option Nat)
    (dpid : BitVec 64) (fl mask : Flow) (oport : BitVec 32) (prio : BitVec 16) (flags : BitVec 64)
    (ogroup : BitVec 32) : Registry × Int :=
  match reg.switchArg swArg dpid with
  | none => (reg, -einval)
  | some pos =>
    if hasFlag flags flEntNocache then
      reg.onSwitch pos fun sw => (sendFlowDelDirect sw { flow := fl, mask, prio } oport ogroup, 0)
    else reg.forApp appName pos fun app sw =>
      flowRuleDel sw
        { appOwner := app, flow := fl, mask, bufferId := 0, flags, prio := order.swap prio }

end Registry

section Delete

variable {sw : Switch} {q : FlowModParams} {before after : List FlEntry} {ent : FlEntry}

theorem flowRuleDel_found (valid : flowModValidateParms sw q = true)
    (found : DelFound sw q before ent after) :
    (flowRuleDel sw q).2 = 0 ∧ (flowRuleDel sw q).1.ruleFlowTbls =
      if ent.appRef - 1 = 0 then
        update sw.ruleFlowTbls (tableOf q)
          { swActiveEntries := (sw.ruleFlowTbls (tableOf q)).swActiveEntries - 1
            ruleFlTbl := before ++ after }
      else (sw.setRules (tableOf q)
        (before ++ withoutOwner q.appOwner ent :: after)).ruleFlowTbls := by
  have strict := @flowRuleDelStrict_eq sw.appRef _ _ _ _ _ _ _ _ found
  rw [flowRuleDel, if_pos valid]
  dsimp only
  rw [show sw.rules q.flow.tableId.toNat = sw.rules (tableOf q) from rfl, strict]
  by_cases last : ent.appRef - 1 = 0
  · have gone : (withoutOwner q.appOwner ent).appRef = 0 := last
    dsimp only
    rw [if_pos gone, if_neg (not_not.mpr last)]
    split <;> simp [flowRuleFree, Switch.sendFlowDel, Switch.switchTx, Switch.setRules, tableOf]
  · have stays : ¬(withoutOwner q.appOwner ent).appRef = 0 := last
    dsimp only
    rw [if_neg stays]
    refine ⟨rfl, ?_⟩
    split <;> rfl

theorem delStrictMatch_same
    (found : delStrictMatch fl mask prio app ent = true) :
    sameRule fl mask prio ent = true ∧ app ∈ ent.appOwnerList ∧ ent.flMask = mask := by
  refine ⟨(sameRule_iff ..).mpr (delStrictMatch_key found), ?_⟩
  simp only [delStrictMatch, Bool.and_eq_true, beq_iff_eq, decide_eq_true_eq] at found
  exact ⟨found.2, found.1.1.2⟩

theorem del_first_iff {list : List FlEntry}
    (split : list = before ++ ent :: after)
    (earlier : ∀ other ∈ before, delStrictMatch fl mask prio app other = false)
    (later : ∀ other ∈ after, delStrictMatch fl mask prio app other = false) :
    (∃ found ∈ list, delStrictMatch fl mask prio app found = true) ↔
      delStrictMatch fl mask prio app ent = true := by
  constructor
  · rintro ⟨found, member, passes⟩
    rw [split, mem_append, mem_cons] at member
    rcases member with inside | rfl | inside
    · rw [earlier found inside] at passes
      cases passes
    · exact passes
    · rw [later found inside] at passes
      cases passes
  · intro passes
    exact ⟨ent, by simp [split], passes⟩

end Delete

/-- A delete of what an add asked for, but for the priority. -/
structure SameCall (p q : FlowModParams) : Prop where
  flow : q.flow = p.flow
  mask : q.mask = p.mask
  app : q.appOwner = p.appOwner
  flags : q.flags = p.flags

/-- An add whose rule is not owned yet is undone by a delete. -/
def Undoable (sw : Switch) (p : FlowModParams) : Prop :=
  ∀ old, (sw.rules (tableOf p)).find? (sameRule p.flow p.mask p.prio) = some old →
    hasFlag old.flags flEntResidual = false ∧ old.flMask = p.mask ∧ old.locked = false

section Undo

variable {sw mid : Switch} {p q : FlowModParams} {now : Nat}

private theorem setRules_restores
    (tbls : mid.ruleFlowTbls = (sw.setRules table changed).ruleFlowTbls) :
    (mid.setRules table list).ruleFlowTbls = sw.ruleFlowTbls ↔ list = sw.rules table := by
  have shape : (mid.setRules table list).ruleFlowTbls =
      update sw.ruleFlowTbls table { sw.ruleFlowTbls table with ruleFlTbl := list } := by
    simp [Switch.setRules, tbls]
  rw [shape, update_eq_iff]
  constructor
  · rintro ⟨here, -⟩
    exact congrArg FlowTbl.ruleFlTbl here
  · rintro rfl
    exact ⟨rfl, fun _ _ => rfl⟩

variable (call : SameCall p q)
include call

private theorem SameCall.table : tableOf q = tableOf p := by
  rw [tableOf, call.flow, tableOf]

private theorem valid_call (ctors : mid.ofpCtors = sw.ofpCtors)
    (valid : flowModValidateParms sw p = true) : flowModValidateParms mid q = true := by
  rw [← valid]
  simp [flowModValidateParms, Switch.tableSupported, ctors, call.flow, call.app, call.flags]

private theorem inserted_undone (prio : q.prio = p.prio) (valid : flowModValidateParms mid q = true)
    (fresh : ∀ ent ∈ sw.rules (tableOf p), sameRule p.flow p.mask p.prio ent = false)
    (tbls : mid.ruleFlowTbls = update sw.ruleFlowTbls (tableOf p)
      { swActiveEntries := (sw.ruleFlowTbls (tableOf p)).swActiveEntries + 1
        ruleFlTbl := insertBefore (sw.rules (tableOf p))
          (firstAtMost (fun ent => ent.prio.toNat) p.prio.toNat (sw.rules (tableOf p)))
          (addedEntry sw p grps mets now) }) :
    (flowRuleDel mid q).2 = 0 ∧ (flowRuleDel mid q).1.ruleFlowTbls = sw.ruleFlowTbls := by
  have same := call.table
  obtain ⟨before, after, split, inserted⟩ := insertBefore_split (sw.rules (tableOf p))
    (firstAtMost (fun ent => ent.prio.toNat) p.prio.toNat (sw.rules (tableOf p)))
    (addedEntry sw p grps mets now)
  have first : DelFound mid q before (addedEntry sw p grps mets now) after := by
    refine ⟨?_, ?_, ?_⟩
    · rw [same, Switch.rules, tbls, update_self]
      exact inserted
    · simp [delStrictMatch, addedEntry, stampEntry, newEntry, call.flow, call.mask, call.app, prio]
    · intro other member
      by_contra passes
      rw [Bool.not_eq_false, call.flow, call.mask, prio] at passes
      have rule := (delStrictMatch_same passes).1
      rw [fresh other (by rw [split]; exact mem_append_left _ member)] at rule
      cases rule
  obtain ⟨deleted, left⟩ := flowRuleDel_found valid first
  refine ⟨deleted, ?_⟩
  rw [left, same, tbls, update_idem, update_self, ← split, BitVec.add_sub_cancel]
  exact update_eq_self (tableOf p) sw.ruleFlowTbls

variable (unowned : ∀ ent ∈ sw.rules (tableOf p), sameRule p.flow p.mask p.prio ent = true →
  p.appOwner ∉ ent.appOwnerList)
include unowned

/-- Nothing is restored under another priority: the added rule stays. -/
private theorem other_prio_not_restored (accepted : (flowRuleAdd sw p now).2 = 0)
    (tbls : mid.ruleFlowTbls = (flowRuleAdd sw p now).1.ruleFlowTbls) (other : q.prio ≠ p.prio)
    (restored : (flowRuleDel mid q).1.ruleFlowTbls = sw.ruleFlowTbls) :
    (flowRuleDel mid q).2 ≠ 0 := by
  obtain ⟨ent, member, key, owned, -⟩ := add_accepted_as accepted
  have same := call.table
  have present : ent ∈ mid.rules (tableOf q) := by
    rw [same, Switch.rules, tbls]
    exact member
  have prio : ent.prio = p.prio := congrArg (fun key => key.2.2) key
  have gone : ent ∉ (flowRuleDel mid q).1.rules (tableOf q) := by
    rw [same, Switch.rules, restored]
    intro inside
    exact unowned ent inside ((sameRule_iff ..).mpr key) owned
  have differs {before after : List FlEntry}
      {found : FlEntry} (first : DelFound mid q before found after) :
      ent ≠ found := by
    rintro rfl
    exact other ((congrArg (fun key => key.2.2) (delStrictMatch_key first.passes)).symm.trans prio)
  have outcome := @flowRuleDel_outcome mid q
  generalize flowRuleDel mid q = result at outcome gone
  cases outcome with
  | invalid | missing => exact (by decide : (-1 : Int) ≠ 0)
  | @kept before found after _ first =>
    rw [first.split] at present
    have stays : ent ∈ before ++ withoutOwner q.appOwner found :: after := by
      simp only [mem_append, mem_cons, differs first, false_or] at present ⊢
      exact present.imp id .inr
    exact absurd (by simpa [Switch.rules, Switch.setRules] using stays) gone
  | @removed before found after _ first =>
    rw [first.split] at present
    have stays : ent ∈ before ++ after := by
      simp only [mem_append, mem_cons, differs first, false_or] at present ⊢
      exact present
    exact absurd (by simpa [Switch.rules] using stays) gone

section Changed

variable (prio : q.prio = p.prio) {before after : List FlEntry} {ent : FlEntry}
    (found : AddFound sw p before ent after)
include prio found

private theorem del_changed
    (tbls : mid.ruleFlowTbls = (sw.setRules (tableOf p) (before ++ changed :: after)).ruleFlowTbls)
    (key : changed.ruleKey = ent.ruleKey) (mask : changed.flMask = ent.flMask)
    (owned : p.appOwner ∈ changed.appOwnerList) :
    (ent.flMask = p.mask ∧ DelFound mid q before changed after) ∨
      (ent.flMask ≠ p.mask ∧ (flowRuleDel mid q).2 ≠ 0) := by
  have same := call.table
  have split : mid.rules (tableOf q) = before ++ changed :: after := by
    rw [same, Switch.rules, tbls]
    simp [Switch.setRules]
  have others : ∀ other ∈ sw.rules (tableOf p),
      delStrictMatch q.flow q.mask q.prio q.appOwner other = false := by
    intro other member
    by_contra passes
    rw [Bool.not_eq_false, call.flow, call.mask, prio, call.app] at passes
    obtain ⟨rule, owner, -⟩ := delStrictMatch_same passes
    exact unowned other member rule owner
  have earlier : ∀ other ∈ before, delStrictMatch q.flow q.mask q.prio q.appOwner other = false :=
    fun other member => others other (by rw [found.split]; exact mem_append_left _ member)
  have later : ∀ other ∈ after, delStrictMatch q.flow q.mask q.prio q.appOwner other = false :=
    fun other member =>
    others other (by rw [found.split]; exact mem_append_right _ (mem_cons_of_mem _ member))
  have rule := key.trans ((sameRule_iff ..).mp found.passes)
  by_cases agrees : ent.flMask = p.mask
  · refine .inl ⟨agrees, split, ?_, earlier⟩
    have fl : changed.fl = p.flow := congrArg Prod.fst rule
    have at_prio : changed.prio = p.prio := congrArg (fun key => key.2.2) rule
    simp [delStrictMatch, call.flow, call.mask, prio, call.app, fl, at_prio, mask, agrees, owned]
  · refine .inr ⟨agrees, ?_⟩
    intro deleted
    have accepts : flowModValidateParms mid q = true := by
      by_contra rejected
      simp [flowRuleDel, rejected] at deleted
    obtain ⟨hit, inside, passes⟩ := (flowRuleDel_zero_iff accepts).mp deleted
    have first := (del_first_iff split earlier later).mp ⟨hit, inside, passes⟩
    apply agrees
    rw [← mask, (delStrictMatch_same first).2.2, call.mask]

private theorem shared_undone_iff (ok : OwnerOk ent) (valid : flowModValidateParms mid q = true)
    (settled : hasFlag ent.flags flEntResidual = false)
    (tbls : mid.ruleFlowTbls = (sw.setRules (tableOf p)
      (before ++ (flowAddAppOwner sw.appRef ent p.appOwner).2 :: after)).ruleFlowTbls) :
    ((flowRuleDel mid q).2 = 0 ∧ (flowRuleDel mid q).1.ruleFlowTbls = sw.ruleFlowTbls) ↔
      Undoable sw p := by
  have joins : p.appOwner ∉ ent.appOwnerList :=
    unowned ent (mem_of_find?_eq_some found.find?_eq) found.passes
  have joined : (flowAddAppOwner sw.appRef ent p.appOwner).2 = { ent with
      locked := false, appRef := ent.appRef + 1, appOwnerList :=
        ent.appOwnerList ++ [p.appOwner] } := by
    simp [flowAddAppOwner, flowAddAppOwnerLocked, joins]
  rw [joined] at tbls
  have undoable : Undoable sw p ↔ ent.flMask = p.mask ∧ ent.locked = false := by
    rw [Undoable, found.find?_eq]
    simp [settled]
  rw [undoable]
  rcases del_changed call unowned prio found tbls rfl rfl (by simp) with
    ⟨mask, first⟩ | ⟨mask, fails⟩
  · obtain ⟨deleted, left⟩ := flowRuleDel_found valid first
    have others : ¬(ent.appRef + 1 - 1 = 0) := by
      have some := length_pos_of_ne_nil ok.owned
      rw [ok.counted]
      omega
    have back : withoutOwner p.appOwner { ent with
        locked := false, appRef := ent.appRef + 1, appOwnerList :=
          ent.appOwnerList ++ [p.appOwner] } = { ent with locked := false } := by
      simp [withoutOwner, erase_append_right _ joins]
    have same := call.table
    rw [and_iff_right deleted, and_iff_right mask, left, if_neg others, same,
      setRules_restores tbls, found.split, call.app, back, append_cancel_left_eq, cons.injEq,
        and_iff_left rfl]
    constructor
    · intro restored
      rw [← restored]
    · intro free
      rw [← free]
  · apply iff_of_false
    · exact fun both => fails both.1
    · exact fun both => mask both.1

/-- The application took over a residual entry, which the delete removes. -/
private theorem takeover_not_undone (ok : OwnerOk ent) (valid : flowModValidateParms mid q = true)
    (residual : hasFlag ent.flags flEntResidual = true)
    (tbls : mid.ruleFlowTbls = (sw.setRules (tableOf p)
      (before ++ modEntry ent p grps mets now :: after)).ruleFlowTbls) :
    ¬((flowRuleDel mid q).2 = 0 ∧ (flowRuleDel mid q).1.ruleFlowTbls = sw.ruleFlowTbls) := by
  rintro ⟨deleted, restored⟩
  have mask : (modEntry ent p grps mets now).flMask = ent.flMask := by
    simp [modEntry, ownedEntry, residual]
  have owned : p.appOwner ∈ (modEntry ent p grps mets now).appOwnerList := by
    simp [modEntry, ownedEntry, residual]
  rcases del_changed call unowned prio found tbls (ruleKey_modEntry ..) mask owned with
    ⟨-, first⟩ | ⟨-, fails⟩
  · have last : (modEntry ent p grps mets now).appRef - 1 = 0 := by
      simp [modEntry, ownedEntry, residual, ok.counted]
    have left := (flowRuleDel_found valid first).2
    rw [if_pos last, restored] at left
    have same := call.table
    have shorter : sw.rules (tableOf p) = before ++ after := by
      rw [Switch.rules, left, same, update_self]
    have lengths := congrArg length (found.split.symm.trans shorter)
    simp at lengths
  · exact fails deleted

end Changed

theorem undone_iff (ok : ∀ ent ∈ sw.rules (tableOf p), OwnerOk ent)
    (accepted : (flowRuleAdd sw p now).2 = 0) (tbls : mid.ruleFlowTbls =
      (flowRuleAdd sw p now).1.ruleFlowTbls) (ctors : mid.ofpCtors = sw.ofpCtors) :
    ((flowRuleDel mid q).2 = 0 ∧ (flowRuleDel mid q).1.ruleFlowTbls = sw.ruleFlowTbls) ↔
      q.prio = p.prio ∧ Undoable sw p := by
  by_cases prio : q.prio = p.prio
  swap
  · apply iff_of_false
    · rintro ⟨deleted, restored⟩
      exact other_prio_not_restored call unowned accepted tbls prio restored deleted
    · exact fun both => prio both.1
  rw [and_iff_right prio]
  have outcome := @flowRuleAdd_outcome sw p now
  generalize flowRuleAdd sw p now = result at outcome accepted tbls
  cases outcome with
  | invalid | refused | existing | dropped | missing | unresolved =>
    simp [einval, eperm, eexist] at accepted
  | @shared before ent after valid found asked locals settled =>
    exact shared_undone_iff call unowned prio found (ok ent (mem_of_find?_eq_some found.find?_eq))
      (valid_call call ctors valid) settled tbls
  | @modified before ent after grps mets valid found changes =>
    -- The application does not own the entry, so it took over a residual one.
    have residual : hasFlag ent.flags flEntResidual = true := by
      by_contra settled
      rw [if_neg settled] at changes
      exact unowned ent (mem_of_find?_eq_some found.find?_eq) found.passes changes.1
    apply iff_of_false
    · exact takeover_not_undone call unowned prio found
        (ok ent (mem_of_find?_eq_some found.find?_eq))
        (valid_call call ctors valid) residual tbls
    · intro undoable
      rw [(undoable ent found.find?_eq).1] at residual
      cases residual
  | @inserted grps mets valid fresh =>
    apply iff_of_true
    · exact inserted_undone call prio (valid_call call ctors valid) fresh tbls
    · intro old found
      have passes := find?_some found
      rw [fresh old (mem_of_find?_eq_some found)] at passes
      cases passes

end Undo

section Calls

variable {reg : Registry} {appName : List Byte} {app : App} {pos : Nat} {node : RegSwitch}

theorem Registry.forApp_at (registered : reg.appLookup appName = some app)
    (connected : reg.switches[pos]? = some node) (request : App → Switch → Switch × Int) :
    let result := request app (node.sw.withRef (countApp reg.appRef app 1))
    reg.forApp appName pos request =
      ({ reg with switches := reg.switches.set pos { node with sw := result.1 },
                  appRef := appPut result.1.appRef app }, result.2) := by
  simp [Registry.forApp, registered, Registry.onSwitch, connected]

/-- A request changes no datapath id, so the same call finds the same record. -/
theorem Registry.switchArg_set (sw : Switch) (appRef : App → Int)
    (connected : reg.switches[pos]? = some node) :
    ({ reg with switches := reg.switches.set pos { node with sw }, appRef } : Registry).switchArg
      swArg dpid = reg.switchArg swArg dpid := by
  have same : (reg.switches.set pos { node with sw }).map RegSwitch.dpid =
      reg.switches.map RegSwitch.dpid := by
    obtain ⟨inside, here⟩ := List.getElem?_eq_some_iff.mp connected
    have unchanged :=
      @set_getElem_self _ (reg.switches.map RegSwitch.dpid) pos (by simpa using inside)
    rw [getElem_map, here] at unchanged
    rw [map_set, unchanged]
  cases swArg with
  | some pos => rfl
  | none => rw [switchArg, switchArg, same]

/-- The rule tables of all switches. -/
def Registry.ruleTables (reg : Registry) : List (Nat → FlowTbl) :=
  reg.switches.map fun node => node.sw.ruleFlowTbls

theorem Registry.ruleTables_set_iff (connected : reg.switches[pos]? = some node) :
    (reg.switches.set pos twice).map (fun node => node.sw.ruleFlowTbls) = reg.ruleTables ↔
      twice.sw.ruleFlowTbls = node.sw.ruleFlowTbls := by
  obtain ⟨inside, here⟩ := List.getElem?_eq_some_iff.mp connected
  have unchanged :=
    @set_getElem_self _ reg.ruleTables pos (by simpa [Registry.ruleTables] using inside)
  have there : reg.ruleTables[pos]? = some node.sw.ruleFlowTbls := by
    simp [Registry.ruleTables, connected]
  rw [map_set]
  constructor
  · intro same
    have twice_there := congrArg (fun list => list[pos]?) same
    simp only [there, getElem?_set_self', getElem?_map, connected] at twice_there
    simpa using twice_there
  · intro same
    rw [same]
    simpa [Registry.ruleTables, here] using unchanged

/-- A rule added in process is taken back exactly if its priority reads the same in
network order and the add was undoable. -/
theorem inProcess_add_then_del_iff (order : ByteOrder) {swArg : Option Nat} {dpid flags : BitVec 64}
    {fl flMask : Flow} {bufferId oport ogroup : BitVec 32} {actions : List Byte}
    {itimeo htimeo prio : BitVec 16} {now : Nat} (cached : hasFlag flags flEntNocache = false)
    (registered : reg.appLookup appName = some app) (chosen : reg.switchArg swArg dpid = some pos)
    (connected : reg.switches[pos]? = some node)
    (ok : ∀ ent ∈ node.sw.rules fl.tableId.toNat, OwnerOk ent)
    (unowned : ∀ ent ∈ node.sw.rules fl.tableId.toNat, sameRule fl flMask prio ent = true →
      app ∉ ent.appOwnerList)
    (accepted :
      (reg.mulAppSendFlowAdd appName swArg dpid fl flMask bufferId actions itimeo htimeo prio
      flags now).2 = 0) :
    let added := reg.mulAppSendFlowAdd appName swArg dpid fl flMask bufferId actions itimeo htimeo
      prio flags now
    let deleted :=
      added.1.mulAppSendFlowDel order appName swArg dpid fl flMask oport prio flags ogroup
    (deleted.2 = 0 ∧ deleted.1.ruleTables = reg.ruleTables) ↔
      order.swap prio = prio ∧ Undoable node.sw { flow := fl, mask := flMask, prio } := by
  intro added deleted
  let p : FlowModParams :=
    { appOwner := app, flow := fl, mask := flMask, bufferId, flags, prio, itimeo, htimeo, actions }
  let q : FlowModParams :=
    { appOwner := app, flow := fl, mask := flMask, bufferId := 0, flags, prio := order.swap prio }
  let sw := node.sw.withRef (countApp reg.appRef app 1)
  have first : added = ({ reg with
      switches := reg.switches.set pos { node with sw := (flowRuleAdd sw p now).1 },
      appRef := appPut (flowRuleAdd sw p now).1.appRef app }, (flowRuleAdd sw p now).2) := by
    simp only [added, Registry.mulAppSendFlowAdd, chosen, cached]
    exact Registry.forApp_at registered connected _
  have again : added.1.appLookup appName = some app := by
    rw [first]
    exact registered
  have chosen_again : added.1.switchArg swArg dpid = some pos := by
    rw [first, ← chosen]
    exact Registry.switchArg_set _ _ connected
  have changed : added.1.switches = reg.switches.set pos
      { node with sw := (flowRuleAdd sw p now).1 } := by
    rw [first]
  have connected_again : added.1.switches[pos]? = some
      { node with sw := (flowRuleAdd sw p now).1 } := by
    rw [changed, getElem?_set_self', connected]
    rfl
  let mid := (flowRuleAdd sw p now).1.withRef (countApp added.1.appRef app 1)
  have second : deleted = ({ added.1 with
      switches := added.1.switches.set pos { node with sw := (flowRuleDel mid q).1 },
      appRef := appPut (flowRuleDel mid q).1.appRef app }, (flowRuleDel mid q).2) := by
    simp only [deleted, Registry.mulAppSendFlowDel, chosen_again, cached]
    exact Registry.forApp_at again connected_again _
  have tables : deleted.1.ruleTables = reg.ruleTables ↔
      (flowRuleDel mid q).1.ruleFlowTbls = node.sw.ruleFlowTbls := by
    rw [second, changed, set_set]
    exact Registry.ruleTables_set_iff connected
  have returned : (flowRuleAdd sw p now).2 = 0 := (congrArg Prod.snd first).symm.trans accepted
  rw [tables, second]
  exact @undone_iff sw mid p q now ⟨rfl, rfl, rfl, rfl⟩ unowned ok returned rfl
    (flowRuleAdd_ctors sw p now)

/-- A switch and the application `l2`, which registered for all switches. -/
def l2Registry : Registry :=
  ((oneSwitchRegistry 1).mulRegisterApp .little false 7 (some [108, 50]) cAppAllSw 0 0 fun _ => 0).1

/-- Priority `0x0101` reads the same in both orders. -/
theorem palindromePrio_restored :
    let added := l2Registry.mulAppSendFlowAdd [108, 50] none 1 {} {} 0 [] 0 0 0x0101 0 0
    let deleted := added.1.mulAppSendFlowDel .little [108, 50] none 1 {} {} 0 0x0101 0 0
    deleted.2 = 0 ∧ deleted.1.ruleTables = l2Registry.ruleTables := by
  have empty : ∀ node ∈ l2Registry.switches, node.sw.rules 0 = [] := by decide
  have here : l2Registry.switches[0]? = some l2Registry.switches[0] := rfl
  have none_there := empty _ (mem_of_getElem? here)
  refine (inProcess_add_then_del_iff .little (by decide)
    (by decide : l2Registry.appLookup [108, 50] = some 7)
    (by decide : l2Registry.switchArg none 1 = some 0) here ?_ ?_ (by decide)).mpr ⟨by decide, ?_⟩
  · intro ent member
    cases member
  · intro ent member
    cases member
  · intro old found
    have member := mem_of_find?_eq_some found
    cases member

/-- The rule of priority one is not found under priority 256, and stays. -/
theorem prioOne_not_restored :
    let added := l2Registry.mulAppSendFlowAdd [108, 50] none 1 {} {} 0 [] 0 0 1 0 0
    let deleted := added.1.mulAppSendFlowDel .little [108, 50] none 1 {} {} 0 1 0 0
    l2Registry.appLookup [108, 50] = some 7 ∧ (∀ node ∈ l2Registry.switches, node.sw.rules 0 = []) ∧
      added.2 = 0 ∧ deleted.2 = -1 ∧
        deleted.1.switches.map (fun node => (node.sw.rules 0).length) = [1] := by
  refine ⟨?_, ?_, ?_, ?_, ?_⟩ <;> decide

end Calls

end OpenMul
