import OpenMul.Core.OwnerInvariant

namespace OpenMul

open Lib RefTable

theorem flowRuleAdd_ctors (sw : Switch) (p : FlowModParams) (now : Nat) :
    (flowRuleAdd sw p now).1.ofpCtors = sw.ofpCtors := by
  have outcome := @flowRuleAdd_outcome sw p now
  generalize flowRuleAdd sw p now = result at outcome ⊢
  cases outcome <;> rfl

variable {sw : Switch}

theorem flowModValidateParms_congr (same : other.ofpCtors = sw.ofpCtors)
    (p : FlowModParams) : flowModValidateParms other p = flowModValidateParms sw p := by
  simp [flowModValidateParms, Switch.tableSupported, same]

/-- How the entry of an accepted add came about. -/
inductive AddedAs (sw : Switch) (p : FlowModParams) (ent : FlEntry) : Prop where
  | joined
    {old} (member : old ∈ sw.rules (tableOf p)) (found : sameRule p.flow p.mask p.prio old = true)
      (mask : ent.flMask = old.flMask) (asked : hasFlag p.flags flEntLocal = true)
      (locals : hasFlag old.flags flEntLocal = true) (actions : ent.actions = old.actions)
  | modified
    {old} (member : old ∈ sw.rules (tableOf p)) (found : sameRule p.flow p.mask p.prio old = true)
      (mask : ent.flMask = old.flMask) (actions : ent.actions = p.actions)
  | inserted (fresh : ∀ old ∈ sw.rules (tableOf p), sameRule p.flow p.mask p.prio old = false)
      (mask : ent.flMask = p.mask) (actions : ent.actions = p.actions)

variable {p : FlowModParams}

/-- An accepted add leaves one entry for its rule, owned by its application. -/
theorem add_accepted_as (accepted : (flowRuleAdd sw p now).2 = 0) :
    ∃ ent ∈ (flowRuleAdd sw p now).1.rules (tableOf p),
      ent.ruleKey = p.ruleKey ∧ p.appOwner ∈ ent.appOwnerList ∧ AddedAs sw p ent := by
  have outcome := @flowRuleAdd_outcome sw p now
  generalize flowRuleAdd sw p now = result at outcome accepted ⊢
  cases outcome with
  | invalid | refused | existing | dropped | missing | unresolved =>
    simp [einval, eperm, eexist] at accepted
  | @shared before old after _ found asked locals =>
    have member : old ∈ sw.rules (tableOf p) := by rw [found.split]; simp
    refine ⟨(flowAddAppOwner sw.appRef old p.appOwner).2, by
      simp [Switch.rules, Switch.setRules], ?_, ?_,
      .joined member found.passes ?_ asked locals ?_⟩
    · rw [ruleKey_flowAddAppOwner]
      exact (sameRule_iff ..).mp found.passes
    · by_cases owned : p.appOwner ∈ old.appOwnerList <;>
        simp [flowAddAppOwner, flowAddAppOwnerLocked, owned]
    · unfold flowAddAppOwner flowAddAppOwnerLocked
      split <;> rfl
    · unfold flowAddAppOwner flowAddAppOwnerLocked
      split <;> rfl
  | @modified before old after grps mets _ found changes =>
    have member : old ∈ sw.rules (tableOf p) := by rw [found.split]; simp
    refine ⟨modEntry old p grps mets now, by simp [Switch.rules, Switch.setRules], ?_, ?_,
      .modified member found.passes ?_ rfl⟩
    · rw [ruleKey_modEntry]
      exact (sameRule_iff ..).mp found.passes
    · by_cases residual : hasFlag old.flags flEntResidual
      · simp [modEntry, ownedEntry, residual]
      · simp only [residual, Bool.false_eq_true, if_false] at changes
        simpa [modEntry, ownedEntry, residual] using changes.1
    · simp only [modEntry, ownedEntry]
      split <;> rfl
  | @inserted grps mets _ fresh =>
    refine ⟨addedEntry sw p grps mets now, ?_, rfl, List.mem_singleton.mpr rfl,
      .inserted fresh rfl rfl⟩
    simp [Switch.rules, mem_insertBefore]

/-- The mask of that entry is the one of the entry that was there before, if there
was one. -/
theorem add_accepted (accepted : (flowRuleAdd sw p now).2 = 0) :
    ∃ ent ∈ (flowRuleAdd sw p now).1.rules (tableOf p), ent.ruleKey = p.ruleKey ∧
      p.appOwner ∈ ent.appOwnerList ∧
      ((∃ old ∈ sw.rules (tableOf p), sameRule p.flow p.mask p.prio old = true ∧
        ent.flMask = old.flMask) ∨
        (∀ old ∈ sw.rules (tableOf p), sameRule p.flow p.mask p.prio old = false) ∧
          ent.flMask = p.mask) := by
  obtain ⟨ent, member, key, owned, origin⟩ := add_accepted_as accepted
  refine ⟨ent, member, key, owned, ?_⟩
  cases origin with
  | joined old found mask | modified old found mask => exact .inl ⟨_, old, found, mask⟩
  | inserted fresh mask => exact .inr ⟨fresh, mask⟩

theorem flowRuleDel_zero_iff (valid : flowModValidateParms sw p = true) :
    (flowRuleDel sw p).2 = 0 ↔ ∃ ent ∈ sw.rules (tableOf p),
      delStrictMatch p.flow p.mask p.prio p.appOwner ent = true := by
  have outcome := @flowRuleDel_outcome sw p
  generalize flowRuleDel sw p = result at outcome ⊢
  cases outcome with
  | invalid rejected => simp [valid] at rejected
  | missing _ none =>
    apply iff_of_false (by simp)
    rintro ⟨ent, member, found⟩
    simp [none ent member] at found
  | kept _ first | removed _ first => exact iff_of_true rfl ⟨_, first.member, first.passes⟩

theorem flowRuleDel_disowns (reached : switchRuns.Reaches sw) (deleted : (flowRuleDel sw p).2 = 0)
    {ent : FlEntry} (member : ent ∈ (flowRuleDel sw p).1.rules (tableOf p))
    (same : sameRule p.flow p.mask p.prio ent = true) : p.appOwner ∉ ent.appOwnerList := by
  have key := (sameRule_iff ..).mp same
  have outcome := @flowRuleDel_outcome sw p
  generalize flowRuleDel sw p = result at outcome deleted member
  -- Keys are unique, so no entry beside the one found carries the rule.
  have elsewhere : ∀ before found after, DelFound sw p before found after →
      ent ∉ before ++ after := by
    intro before found after first inside
    have distinct := (reaches_ordered reached (tableOf p)).nodup
    rw [Switch.ruleKeys, first.split, List.map_append, List.map_cons, List.nodup_middle,
      ← List.map_append, List.nodup_cons] at distinct
    apply distinct.1
    rw [delStrictMatch_key first.passes, ← key]
    exact List.mem_map_of_mem inside
  cases outcome with
  | invalid | missing => simp at deleted
  | @kept before found after _ first =>
    have inside : ent ∈ before ++ withoutOwner p.appOwner found :: after := by
      simpa [Switch.rules, Switch.setRules] using member
    have changed : ent = withoutOwner p.appOwner found := by
      have beside := elsewhere _ _ _ first
      simp only [List.mem_append, List.mem_cons] at inside beside
      tauto
    rw [changed]
    exact (reaches_ownerOk reached first.member).nodup.not_mem_erase
  | @removed before found after _ first =>
    have inside : ent ∈ before ++ after := by simpa [Switch.rules] using member
    exact absurd inside (elsewhere _ _ _ first)

/-- The delete of an application's own rule. -/
structure SameRequest (sw : Switch) (p q : FlowModParams) : Prop where
  flow : q.flow = p.flow
  mask : q.mask = p.mask
  prio : q.prio = p.prio
  app : q.appOwner = p.appOwner
  valid : flowModValidateParms sw q = true

/-- A delete with the parameters of an accepted add undoes it exactly when the
entry had the very same mask. -/
theorem add_then_del_iff {sw : Switch} (reached : switchRuns.Reaches sw) {p : FlowModParams}
    {now : Nat} (accepted : (flowRuleAdd sw p now).2 = 0) : (∀ q, SameRequest sw p q →
      (flowRuleDel (flowRuleAdd sw p now).1 q).2 = 0 ∧
      ∀ ent ∈ (flowRuleDel (flowRuleAdd sw p now).1 q).1.rules (tableOf p),
        sameRule p.flow p.mask p.prio ent = true → p.appOwner ∉ ent.appOwnerList) ↔
    ∀ old ∈ sw.rules (tableOf p), sameRule p.flow p.mask p.prio old = true →
      old.flMask = p.mask := by
  have next : switchRuns.Reaches (flowRuleAdd sw p now).1 :=
    @Machine.Reaches.step _ _ switchRuns sw (.flowAdd p now) reached trivial
  have valid : ∀ q, flowModValidateParms (flowRuleAdd sw p now).1 q = flowModValidateParms sw q :=
    flowModValidateParms_congr (flowRuleAdd_ctors sw p now)
  obtain ⟨ent, member, key, owned, origin⟩ := add_accepted accepted
  have accepts : flowModValidateParms sw p = true := by
    by_contra rejected
    simp [flowRuleAdd, rejected, einval] at accepted
  constructor
  · intro deletes old present same
    have found := (deletes p ⟨rfl, rfl, rfl, rfl, accepts⟩).1
    rw [flowRuleDel_zero_iff ((valid p).trans accepts)] at found
    obtain ⟨hit, inside, passes⟩ := found
    have hitEnt : hit = ent :=
      reaches_rule_unique next inside member ((delStrictMatch_key passes).trans key.symm)
    have mask : ent.flMask = p.mask := by
      rw [← hitEnt]
      simp only [delStrictMatch, Bool.and_eq_true, beq_iff_eq] at passes
      exact passes.1.1.2
    rcases origin with ⟨before, there, matching, carried⟩ | ⟨none, -⟩
    · have unique : before = old := reaches_rule_unique reached there present
        (((sameRule_iff ..).mp matching).trans ((sameRule_iff ..).mp same).symm)
      rw [← unique, ← carried, mask]
    · simp [none old present] at same
  · rintro masks q ⟨flow, mask, prio, app, acceptsQ⟩
    have same : ent.flMask = p.mask := by
      rcases origin with ⟨old, present, matching, carried⟩ | ⟨-, fresh⟩
      · rw [carried, masks old present matching]
      · exact fresh
    have parts : ent.fl = p.flow ∧ ent.prio = p.prio :=
      ⟨congrArg Prod.fst key, congrArg (fun key => key.2.2) key⟩
    have tables : tableOf q = tableOf p := by rw [tableOf, flow, tableOf]
    have deleted : (flowRuleDel (flowRuleAdd sw p now).1 q).2 = 0 := by
      rw [flowRuleDel_zero_iff ((valid q).trans acceptsQ), tables]
      exact ⟨ent, member, by simp [delStrictMatch, flow, mask, prio, app, same, parts, owned]⟩
    refine ⟨deleted, ?_⟩
    intro left inside matching
    rw [← app]
    exact flowRuleDel_disowns next deleted (tables ▸ inside)
      (by rw [flow, mask, prio]; exact matching)

/-- A rule and its modify, which differ in one byte of the mask's `pad`. -/
def plainRule : FlowModParams := { appOwner := 7 }

def paddedModify : FlowModParams := { appOwner := 7, mask := { pad := 1 }, actions := [1] }

theorem add_then_del_plain :
    (flowRuleDel (flowRuleAdd (bootSwitch .of131) plainRule 0).1 plainRule).2 = 0 := by
  have reached : switchRuns.Reaches (bootSwitch .of131) := .start ⟨rfl, rfl, rfl, rfl, rfl⟩
  exact (((@add_then_del_iff _ reached plainRule 0 (by decide)).mpr
    (by intro old member; simp [bootSwitch, Switch.rules] at member)) plainRule
    ⟨rfl, rfl, rfl, rfl, by decide⟩).1

/-- The modify is accepted, and the same parameters do not delete the rule. -/
theorem padded_modify_undeletable :
    let sw := switchRuns.execAll (bootSwitch .of131) [.flowAdd plainRule 0]
    switchRuns.Reaches sw ∧ (flowRuleAdd sw paddedModify 1).2 = 0 ∧
      (flowRuleDel (flowRuleAdd sw paddedModify 1).1 paddedModify).2 = -1 := by
  intro sw
  exact ⟨reaches_boot .of131 _ ⟨trivial, trivial⟩, by decide, by decide⟩

end OpenMul
