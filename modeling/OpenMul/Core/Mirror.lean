import OpenMul.Core.HwTable
import OpenMul.Core.RefInvariant

namespace OpenMul

open Lib RefTable

/-- Rules the switch should have: not `LOCAL`, `CLONE` or `NOSYNC`. -/
def mirrored (flags : BitVec 64) : Bool :=
  !(hasFlag flags flEntLocal || hasFlag flags flEntClone || hasFlag flags flEntNosync)

/-- The entry of the switch a rule stands for. -/
def FlEntry.wireKey (ctors : OfpCtors) (ent : FlEntry) : WireKey :=
  ⟨ctors.tableOf ent.fl, (ctors.prepMatch ent.fl ent.flMask).terms, ent.prio⟩

def FlowModParams.wireKey (ctors : OfpCtors) (p : FlowModParams) : WireKey :=
  ⟨ctors.tableOf p.flow, (ctors.prepMatch p.flow p.mask).terms, p.prio⟩

/-- Some rule of the list should be on the switch under the key. -/
def Shown (ctors : OfpCtors) (rules : List FlEntry) (key : WireKey) : Prop :=
  ∃ ent ∈ rules, mirrored ent.flags = true ∧ ent.wireKey ctors = key

/-- The switch has the controller's rules and no others. -/
def Mirrors (sw : Switch) : Prop := ∀ key, key ∈ hwTable sw.txQ ↔ Shown sw.ofpCtors sw.allRules key

/-- The flags of an entry after an accepted add of its rule. -/
def modFlags (ent : FlEntry) (p : FlowModParams) : BitVec 64 :=
  if hasFlag ent.flags flEntResidual then p.flags else ent.flags

/-- Another rule stands for the same entry of the switch. -/
def ShownElsewhere (sw : Switch) (p : FlowModParams) : Prop :=
  ∃ other ∈ sw.allRules, other.ruleKey ≠ p.ruleKey ∧ mirrored other.flags = true ∧
    other.wireKey sw.ofpCtors = p.wireKey sw.ofpCtors

/-- After the add the switch should have the entry if it should before or the add writes it. -/
def writeFits (sw : Switch) (p : FlowModParams) : Bool :=
  match (sw.rules (tableOf p)).find? (sameRule p.flow p.mask p.prio) with
  | none => mirrored p.flags == needHwSync sw p
  | some ent => mirrored (modFlags ent p) == (mirrored ent.flags || modSync sw ent p)

/-- Requests whose messages say what they do. -/
def MirrorSafe (sw : Switch) : Op → Prop
  | .flowAdd p now => (flowRuleAdd sw p now).2 = 0 → ShownElsewhere sw p ∨ writeFits sw p = true
  | .flowDel p => (flowRuleDel sw p).2 = 0 →
      (∃ ent ∈ sw.rules (tableOf p), delStrictMatch p.flow p.mask p.prio p.appOwner ent = true ∧
        hasFlag ent.flags flEntLocal = false) → ¬ShownElsewhere sw p
  | .appUnregister app => ∀ gone ∈ sw.allRules, gone.appOwnerList = [app] →
      hasFlag gone.flags flEntLocal = false → ∀ other ∈ sw.allRules, other.appOwnerList ≠ [app] →
        mirrored other.flags = true →
          (gone.wireKey sw.ofpCtors).covers (other.wireKey sw.ofpCtors) = false
  | .tblReset | .tblDelete => ∀ ent ∈ sw.allRules, mirrored ent.flags = false
  | _ => True

/-- The rule an add compares fixes the entry of the switch. -/
theorem wireKey_of_ruleKey (ctors : OfpCtors) {first second : FlEntry}
    (same : first.ruleKey = second.ruleKey) : first.wireKey ctors = second.wireKey ctors := by
  have sansPad : ∀ ent : FlEntry, ent.wireKey ctors =
      ⟨ctors.tableOf ent.ruleKey.1, (ctors.prepMatch ent.ruleKey.1 ent.ruleKey.2.1).terms,
        ent.ruleKey.2.2⟩ := by
    intro ent
    cases ctors <;> rfl
  rw [sansPad, sansPad, same]

theorem wireKey_of_params (ctors : OfpCtors) {ent : FlEntry} {p : FlowModParams}
    (same : ent.ruleKey = p.ruleKey) : ent.wireKey ctors = p.wireKey ctors :=
  @wireKey_of_ruleKey ctors ent (newEntry p 0) same

variable (flags : BitVec 64)

@[simp] theorem mirrored_clearStale : mirrored (clearFlag flags flEntStale) = mirrored flags := by
  rw [mirrored, hasFlag_clearFlag _ _ flEntLocal (by decide),
    hasFlag_clearFlag _ _ flEntClone (by decide), hasFlag_clearFlag _ _ flEntNosync (by decide),
      mirrored]

@[simp] theorem mirrored_clearNoAck : mirrored (clearFlag flags flNoAck) = mirrored flags := by
  rw [mirrored, hasFlag_clearFlag _ _ flEntLocal (by decide),
    hasFlag_clearFlag _ _ flEntClone (by decide), hasFlag_clearFlag _ _ flEntNosync (by decide),
      mirrored]

@[simp] theorem mirrored_setStale : mirrored (setFlag flags flEntStale) = mirrored flags := by
  rw [mirrored, hasFlag_setFlag _ _ flEntLocal (by decide),
    hasFlag_setFlag _ _ flEntClone (by decide), hasFlag_setFlag _ _ flEntNosync (by decide),
      mirrored]

theorem mirrored_modEntry (ent : FlEntry) (p : FlowModParams) (grps mets : List Nat) (now : Nat) :
    mirrored (modEntry ent p grps mets now).flags = mirrored (modFlags ent p) := by
  simp [modEntry, modFlags]

private theorem mirrored_stampEntry (ent : FlEntry) (low cookie : BitVec 32) (now : Nat) :
    mirrored (stampEntry ent low cookie now).flags = mirrored ent.flags := by
  rw [stampEntry, mirrored_clearNoAck]
  split
  · exact mirrored_setStale _
  · rfl

theorem mirrored_addedEntry (sw : Switch) (p : FlowModParams) (grps mets : List Nat) (now : Nat) :
    mirrored (addedEntry sw p grps mets now).flags = mirrored p.flags :=
  mirrored_stampEntry ..

theorem not_local_of_mirrored {flags : BitVec 64} (shows : mirrored flags = true) :
    hasFlag flags flEntLocal = false := by
  simp only [mirrored, Bool.not_eq_true', Bool.or_eq_false_iff] at shows
  exact shows.1.1

section Messages

variable {sw : Switch} (master : sw.master = true)

include master

variable (queue : List OfpMsg) (ent : FlEntry)

theorem mem_hw_flowAdd (bufferId : BitVec 32) (modify : Bool) (key : WireKey) :
    key ∈ hwTable (queue ++ sw.flowAddMsgs ent bufferId modify) ↔
      key = ent.wireKey sw.ofpCtors ∨ key ∈ hwTable queue := by
  have sent : (sw.flowAddMsgs ent bufferId modify).filterMap OfpMsg.flowMod? =
      [sw.ofpCtors.flowAdd ent.fl ent.flMask bufferId ent.actions ent.itimeo ent.htimeo ent.prio
        ent.cookie modify] := by
    simp only [Switch.flowAddMsgs, master, if_true, List.filterMap_cons, OfpMsg.flowMod?]
    split
    · rw [barrierRequest_quiet]
    · rfl
  rw [hwTable_append, sent]
  refine mem_hwApply_write ?_ key
  cases modify
  · exact .inl rfl
  · exact .inr rfl

private theorem mem_hw_flowDelStrict (key : WireKey) :
    key ∈ hwTable (queue ++ sw.flowDelMsgs ent true) ↔
      key ∈ hwTable queue ∧ key ≠ ent.wireKey sw.ofpCtors := by
  rw [Switch.flowDelMsgs, if_pos master, hwTable_snoc]
  exact mem_hwApply_deleteStrict rfl key

theorem mem_hw_delMsgs (key : WireKey) : key ∈ hwTable (queue ++ delMsgs sw ent) ↔
      key ∈ hwTable queue ∧
        (hasFlag ent.flags flEntLocal = false → key ≠ ent.wireKey sw.ofpCtors) := by
  unfold delMsgs
  cases hasFlag ent.flags flEntLocal with
  | true => simp
  | false => simpa using mem_hw_flowDelStrict master queue ent key

private theorem mem_hw_sweepMsgs (single : ent.clonedList = []) (key : WireKey) :
    key ∈ hwTable (queue ++ sweepMsgs sw.ofpCtors sw.master ent) ↔
      key ∈ hwTable queue ∧ (hasFlag ent.flags flEntLocal = false →
        (ent.wireKey sw.ofpCtors).covers key = false) := by
  unfold sweepMsgs
  cases hasFlag ent.flags flEntLocal with
  | true => simp [single]
  | false =>
    rw [single, master]
    simp only [List.isEmpty_nil, Bool.not_false, Bool.and_self, if_true, Switch.flowDelMsgs,
      forall_const]
    rw [hwTable_snoc]
    exact mem_hwApply_delete rfl key

theorem mem_hw_sweep (queue : List OfpMsg) (list : List FlEntry)
    (single : ∀ ent ∈ list, ent.clonedList = []) (key : WireKey) :
    key ∈ hwTable (queue ++ list.flatMap (sweepMsgs sw.ofpCtors sw.master)) ↔
      key ∈ hwTable queue ∧ ∀ ent ∈ list, hasFlag ent.flags flEntLocal = false →
        (ent.wireKey sw.ofpCtors).covers key = false := by
  induction list generalizing queue with
  | nil => simp
  | cons ent rest ih =>
    rw [List.flatMap_cons, ← List.append_assoc,
      ih _ fun other member => single other (by simp [member]),
        mem_hw_sweepMsgs master queue ent (single ent (by simp))]
    simp only [List.mem_cons, forall_eq_or_imp, and_assoc]

end Messages

theorem shown_append (ctors : OfpCtors) (first second : List FlEntry) (key : WireKey) :
    Shown ctors (first ++ second) key ↔ Shown ctors first key ∨ Shown ctors second key := by
  simp [Shown, List.mem_append, or_and_right, exists_or]

theorem shown_singleton (ctors : OfpCtors) (ent : FlEntry) (key : WireKey) :
    Shown ctors [ent] key ↔ mirrored ent.flags = true ∧ key = ent.wireKey ctors := by
  simp only [Shown, List.mem_singleton, exists_eq_left]
  exact and_congr_right fun _ => eq_comm

/-- Two tables that differ in one key at most agree if they agree there. -/
theorem agree_iff (rest : Key → Prop) (here : Key) (old new sync : Bool) :
    (∀ key, ((sync = true ∧ key = here) ∨ rest key ∨ (old = true ∧ key = here)) ↔
      rest key ∨ (new = true ∧ key = here)) ↔ rest here ∨ new = (old || sync) := by
  constructor
  · intro agree
    have same := agree here
    cases old <;> cases new <;> cases sync <;> simp_all
  · rintro (elsewhere | flags) key
    · by_cases same : key = here
      · subst key
        simp [elsewhere]
      · simp [same]
    · subst flags
      cases old <;> cases sync <;> simp <;> tauto

end OpenMul
