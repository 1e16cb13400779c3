import OpenMul.Core.AddDelete
import OpenMul.Core.AppFlowMod

namespace OpenMul

open Lib

namespace FlowModRun

/-- The test only changes the action list and the arguments of its check. -/
theorem allowed_some {run checked : FlowModRun} (passed : run.allowed add table = some checked) :
    checked = { run with actions := checked.actions, args := checked.args } := by
  unfold allowed at passed
  split at passed
  · cases passed
    rfl
  split at passed
  · cases passed
  dsimp only at passed
  split at passed
  · cases passed
  · cases passed
    rfl

end FlowModRun

section Rounds

variable {msg : FlowModMsg} {app : App} {now table : Nat}

theorem flowModRound_refused (refused : run.allowed msg.add table = none) :
    flowModRound msg app now table run = (run, none) := by
  simp [flowModRound, refused]

theorem flowModRound_passed {run checked : FlowModRun}
    (passed : run.allowed msg.add table = some checked) :
    flowModRound msg app now table run =
      ({ checked with
          node.sw := (flowModRequest msg (checked.params msg app) now checked.node.sw).1 },
        some (flowModRequest msg (checked.params msg app) now checked.node.sw).2) := by
  simp [flowModRound, passed]

theorem flowModRounds_refused (above : List Nat) {run : FlowModRun}
    (refused : run.allowed msg.add table = none) :
    flowModRounds msg app now table above run = (run, none) := by
  cases above with
  | nil => exact flowModRound_refused refused
  | cons next rest => simp [flowModRounds, flowModRound_refused refused]

theorem flowModRounds_invariant (inv : FlowModRun → Prop)
    (checks : ∀ run checked table, inv run → run.allowed msg.add table = some checked → inv checked)
    (requests : ∀ run, inv run →
      inv { run with node.sw := (flowModRequest msg (run.params msg app) now run.node.sw).1 })
    (moves : ∀ run next, inv run → inv (run.nextTable next)) (above : List Nat) {run : FlowModRun}
    (start : inv run) : inv (flowModRounds msg app now table above run).1 := by
  induction above generalizing table run with
  | nil =>
    cases passed : run.allowed msg.add table with
    | none => simpa [flowModRounds, flowModRound_refused passed] using start
    | some checked =>
      rw [flowModRounds, flowModRound_passed passed]
      exact requests checked (checks run checked table start passed)
  | cons next rest ih =>
    cases passed : run.allowed msg.add table with
    | none => simpa [flowModRounds, flowModRound_refused passed] using start
    | some checked =>
      have done := requests checked (checks run checked table start passed)
      rw [flowModRounds, flowModRound_passed passed]
      dsimp only
      split
      · exact ih (moves _ next done)
      · exact done

theorem flowModRounds_fault (above : List Nat) {run : FlowModRun} (fault : run.heapFault = true) :
    (flowModRounds msg app now table above run).1.heapFault = true := by
  refine flowModRounds_invariant (fun run => run.heapFault = true) ?_ ?_ ?_ above fault
  · intro run checked table fault passed
    rw [FlowModRun.allowed_some passed]
    exact fault
  · intro run fault
    exact fault
  · intro run next fault
    simp [FlowModRun.nextTable, fault]

end Rounds

section Accepts

variable (sw : Switch) (p : FlowModParams)

/-- The groups and meters of a rule are there. -/
def Resolved : Prop :=
  RefTable.resolve sw.groups p.grpDep ≠ none ∧ RefTable.resolve sw.meters p.meterDep ≠ none

/-- The changes an add makes to the rule it finds. A residual rule goes over to
its new owner; a rule of its own is given other actions. -/
def Changes (ent : FlEntry) : Prop :=
  if hasFlag ent.flags flEntResidual
  then hasFlag p.flags flEntResidual = false ∧ hasFlag p.flags flEntLocal = false
  else p.appOwner ∈ ent.appOwnerList ∧ ent.actions ≠ p.actions ∧
    (hasFlag p.flags flEntLocal && hasFlag ent.flags flEntLocal) = false

/-- The requests that succeed, by the rules of their table. -/
def Accepts (add : Bool) : Prop :=
  flowModValidateParms sw p = true ∧
  if add then
    match (sw.rules (tableOf p)).find? (sameRule p.flow p.mask p.prio) with
    | none => Resolved sw p
    | some ent => hasFlag p.flags flEntLocal = true ∧ hasFlag ent.flags flEntLocal = true ∧
        hasFlag ent.flags flEntResidual = false ∨ Changes p ent ∧ Resolved sw p
  else ∃ ent ∈ sw.rules (tableOf p), delStrictMatch p.flow p.mask p.prio p.appOwner ent = true

theorem flowRuleAdd_zero_iff (now : Nat) : (flowRuleAdd sw p now).2 = 0 ↔ Accepts sw p true := by
  have outcome := @flowRuleAdd_outcome sw p now
  generalize flowRuleAdd sw p now = result at outcome ⊢
  cases outcome with
  | invalid rejected => simp [Accepts, rejected, einval]
  | refused _ found reason unshared =>
    apply iff_of_false (by simp [eperm])
    simp only [Accepts, found.find?_eq, Changes]
    grind
  | shared valid found asked locals settled =>
    simp [Accepts, valid, found.find?_eq, asked, locals, settled]
  | existing _ found settled owned same unshared =>
    apply iff_of_false (by simp [eexist])
    simp only [Accepts, found.find?_eq, Changes]
    grind
  | dropped _ found residual again remote =>
    simp [Accepts, found.find?_eq, Changes, residual, again, remote, einval]
  | missing _ found changes unresolved =>
    apply iff_of_false (by simp [einval])
    simp only [Accepts, found.find?_eq, Resolved]
    grind
  | modified valid found changes groups meters =>
    simp [Accepts, valid, found.find?_eq, Resolved, groups, meters, show Changes p _ from changes]
  | unresolved _ fresh missing =>
    have none := List.find?_eq_none.mpr (by simpa using fresh)
    apply iff_of_false (by simp [einval])
    simp only [Accepts, none, Resolved]
    grind
  | inserted valid fresh groups meters =>
    have none := List.find?_eq_none.mpr (by simpa using fresh)
    simp [Accepts, valid, none, Resolved, groups, meters]

/-- Requests of local rules are never sent past the tables of the controller. -/
theorem flowModRequest_zero_iff {msg : FlowModMsg} (cached : msg.has flEntNocache = false)
    (now : Nat) : (flowModRequest msg p now sw).2 = 0 ↔ Accepts sw p msg.add := by
  simp only [flowModRequest, cached, Bool.false_eq_true, if_false]
  cases msg.add with
  | true => exact flowRuleAdd_zero_iff sw p now
  | false =>
    simp only [Bool.false_eq_true, if_false]
    cases valid : flowModValidateParms sw p with
    | true => simp [flowRuleDel_zero_iff valid, Accepts, valid]
    | false => simp [flowRuleDel, Accepts, valid]

end Accepts

/-- What requests to other tables leave of a switch: the rules of these tables,
and the groups and meters but for their counts. -/
structure Untouched (sw : Switch) (tables : List Nat) (other : Switch) : Prop where
  ctors : other.ofpCtors = sw.ofpCtors
  groups : ∃ amount, other.groups = RefTable.shift sw.groups amount
  meters : ∃ amount, other.meters = RefTable.shift sw.meters amount
  rules : ∀ table ∈ tables, other.rules table = sw.rules table

/-- A run with its switch as it is by then. -/
def FlowModRun.withSwitch (run : FlowModRun) (sw : Switch) : FlowModRun :=
  { run with node.sw := sw }

@[simp] theorem FlowModRun.withSwitch_heapFault (run : FlowModRun) (sw : Switch) :
    (run.withSwitch sw).heapFault = run.heapFault := rfl

section Untouched

variable {sw other : Switch} {tables : List Nat}

theorem Untouched.of_same (ctors : other.ofpCtors = sw.ofpCtors) (groups : other.groups = sw.groups)
    (meters : other.meters = sw.meters)
    (rules : ∀ table ∈ tables, other.rules table = sw.rules table) : Untouched sw tables other := by
  refine ⟨ctors, ⟨fun _ => 0, ?_⟩, ⟨fun _ => 0, ?_⟩, rules⟩
  · rw [groups, RefTable.shift_zero _ _ fun _ => rfl]
  · rw [meters, RefTable.shift_zero _ _ fun _ => rfl]

theorem Untouched.trans (first : Untouched sw tables other) (second : Untouched other rest last)
    (fewer : rest ⊆ tables) : Untouched sw rest last := by
  obtain ⟨amount, groups⟩ := first.groups
  obtain ⟨more, groups'⟩ := second.groups
  obtain ⟨meterAmount, meters⟩ := first.meters
  obtain ⟨meterMore, meters'⟩ := second.meters
  refine ⟨second.ctors.trans first.ctors, ⟨fun ptr => amount ptr + more ptr, ?_⟩,
    ⟨fun ptr => meterAmount ptr + meterMore ptr, ?_⟩, ?_⟩
  · rw [groups', groups, RefTable.shift_shift]
  · rw [meters', meters, RefTable.shift_shift]
  · intro table member
    rw [second.rules table member, first.rules table (fewer member)]

private theorem exchange_shifts {Body : Type} (table : List (Counted (BitVec 32) Body))
    (taken dropped : List Nat) :
    ∃ amount, exchange table taken dropped = RefTable.shift table amount :=
  ⟨_, rfl⟩

theorem flowModRequest_untouched (msg : FlowModMsg) (p : FlowModParams) (now : Nat) (sw : Switch)
    (absent : tableOf p ∉ tables) : Untouched sw tables (flowModRequest msg p now sw).1 := by
  have elsewhere : ∀ tbl, ∀ table ∈ tables,
      (Function.update sw.ruleFlowTbls (tableOf p) tbl table).ruleFlTbl = sw.rules table := by
    intro tbl table member
    rw [Function.update_of_ne, Switch.rules]
    rintro rfl
    exact absent member
  unfold flowModRequest
  split
  · unfold sendFlowAddDirect sendFlowDelDirect
    split <;> split <;> exact .of_same rfl rfl rfl fun _ _ => rfl
  split
  · have outcome := @flowRuleAdd_outcome sw p now
    generalize flowRuleAdd sw p now = result at outcome
    cases outcome with
    | invalid | refused | unresolved => exact .of_same rfl rfl rfl fun _ _ => rfl
    | shared | existing | dropped | missing => exact .of_same rfl rfl rfl (elsewhere _)
    | modified | inserted => exact ⟨rfl, exchange_shifts .., exchange_shifts .., elsewhere _⟩
  · have outcome := @flowRuleDel_outcome sw p
    generalize flowRuleDel sw p = result at outcome
    cases outcome with
    | invalid | missing => exact .of_same rfl rfl rfl fun _ _ => rfl
    | kept => exact .of_same rfl rfl rfl (elsewhere _)
    | removed =>
      exact ⟨rfl, ⟨_, RefTable.release_eq_shift _ _⟩, ⟨_, RefTable.release_eq_shift _ _⟩,
        elsewhere _⟩

variable (untouched : Untouched sw tables other)
include untouched

theorem Untouched.accepts_iff {p : FlowModParams} (here : tableOf p ∈ tables) (add : Bool) :
    Accepts other p add ↔ Accepts sw p add := by
  obtain ⟨amount, groups⟩ := untouched.groups
  obtain ⟨meterAmount, meters⟩ := untouched.meters
  simp only [Accepts, Resolved, flowModValidateParms_congr untouched.ctors, untouched.rules _ here,
    groups, meters, RefTable.resolve_shift]

private theorem Untouched.liveGroup {node : CtrlSwitch} (same : node.sw = sw) :
    { node with sw := other }.liveGroup = node.liveGroup := by
  obtain ⟨amount, groups⟩ := untouched.groups
  funext group
  simp [CtrlSwitch.liveGroup, groups, same, RefTable.lookup_shift, Option.any_map]

private theorem Untouched.liveMeter {node : CtrlSwitch} (same : node.sw = sw) :
    { node with sw := other }.liveMeter = node.liveMeter := by
  obtain ⟨amount, meters⟩ := untouched.meters
  funext meter
  simp [CtrlSwitch.liveMeter, meters, same, RefTable.lookup_shift, Option.any_map]

/-- The test comes out the same, and the callbacks of the check find the same. -/
theorem Untouched.allowed {run : FlowModRun} (same : run.node.sw = sw) (add : Bool) (table : Nat) :
    (run.withSwitch other).allowed add table =
      (run.allowed add table).map fun checked => checked.withSwitch other := by
  have valid : { run.node with sw := other }.tableValid table = run.node.tableValid table := by
    simp [CtrlSwitch.tableValid, same, untouched.ctors]
  have tables : { run.node with sw := other }.getV2pTbl = run.node.getV2pTbl := by
    funext vtable
    simp [CtrlSwitch.getV2pTbl, same, untouched.ctors]
  have check : (run.withSwitch other).validateActs add = run.validateActs add := by
    simp [FlowModRun.validateActs, FlowModRun.checkArgs, FlowModRun.withSwitch,
      untouched.liveGroup same, untouched.liveMeter same, tables]
  have port : { run.node with sw := other }.portValid run.flow run.mask =
      run.node.portValid run.flow run.mask :=
    rfl
  unfold FlowModRun.allowed
  rw [check]
  simp only [FlowModRun.withSwitch, valid, port]
  split
  · rfl
  split
  · rfl
  split <;> rfl

end Untouched

section Keeps

variable (msg : FlowModMsg) (app : App)

/-- A command lets another round follow on this one. -/
def FlowModRun.GoesOn (checked : FlowModRun) : Prop :=
  replicates msg checked.node.sw = true ∧ Accepts checked.node.sw (checked.params msg app) msg.add

/-- The rounds of a command, from a table on, by the rules on the switch before it. No round
refuses while the reference on a substitute is held, and no round that has another
one after it leaves groups or meters in the lists. -/
def FlowModRun.KeepsFrom (lent : Bool) : Nat → List Nat → FlowModRun → Prop
  | table, [], run => run.allowed msg.add table = none → lent = false
  | table, next :: above, run =>
    match run.allowed msg.add table with
    | none => lent = false
    | some checked => checked.GoesOn msg app →
        checked.args.grpList = [] ∧ checked.args.meterList = [] ∧
          KeepsFrom lent next above (checked.nextTable next)

variable {msg app}

variable {table : Nat} {above : List Nat}

private theorem keepsFrom_refused {run : FlowModRun} (refused : run.allowed msg.add table = none)
    (lent : Bool) (above : List Nat) : run.KeepsFrom msg app lent table above ↔ lent = false := by
  cases above <;> simp [FlowModRun.KeepsFrom, refused]

/-- The rules before the command decide whether a round has another one after it. -/
private theorem goesOn_iff {checked : FlowModRun} (good : msg.badFlags = false)
    (untouched : Untouched checked.node.sw (table :: above) sw)
    (here : checked.flow.tableId.toNat = table) (now : Nat) :
    (decide ((flowModRequest msg (checked.params msg app) now sw).2 = 0) &&
      replicates msg (flowModRequest msg (checked.params msg app) now sw).1) = true ↔
        checked.GoesOn msg app := by
  have ctors :=
    (flowModRequest_untouched msg (checked.params msg app) now sw List.not_mem_nil).ctors
  rw [untouched.ctors] at ctors
  have same : replicates msg (flowModRequest msg (checked.params msg app) now sw).1 =
      replicates msg checked.node.sw := by
    simp [replicates, ctors]
  rw [Bool.and_eq_true, decide_eq_true_eq, same, and_comm, FlowModRun.GoesOn]
  apply and_congr_right
  intro many
  have cached : msg.has flEntNocache = false := by
    simp only [replicates, Bool.and_eq_true] at many
    simpa [FlowModMsg.badFlags, many.1] using good
  rw [flowModRequest_zero_iff _ _ cached, untouched.accepts_iff]
  exact List.mem_cons.mpr (.inl here)

private theorem flowModRounds_cons {checked : FlowModRun}
    (passed : run.allowed msg.add table = some (checked.withSwitch sw)) (now next : Nat) :
    flowModRounds msg app now table (next :: above) run =
      if decide ((flowModRequest msg (checked.params msg app) now sw).2 = 0) &&
          replicates msg (flowModRequest msg (checked.params msg app) now sw).1 then
        flowModRounds msg app now next above
          ((checked.nextTable next).withSwitch
            (flowModRequest msg (checked.params msg app) now sw).1)
      else (checked.withSwitch (flowModRequest msg (checked.params msg app) now sw).1,
        some (flowModRequest msg (checked.params msg app) now sw).2) := by
  rw [flowModRounds, flowModRound_passed passed]
  rfl

/-- The rounds keep what they take exactly if `KeepsFrom` holds of the switch before them. -/
theorem flowModRounds_keeps_iff (good : msg.badFlags = false) (lent : Bool) {plan : FlowModRun}
    (untouched : Untouched plan.node.sw (table :: above) sw) (intact : plan.heapFault = false)
    (here : plan.flow.tableId.toNat = table) (ascending : (table :: above).Pairwise (· < ·))
    (bounded : ∀ next ∈ above, next < maxRuleFlowTbls) :
    ((flowModRounds msg app now table above (plan.withSwitch sw)).1.heapFault = false ∧
        (lent = true → (flowModRounds msg app now table above (plan.withSwitch sw)).2 ≠ none)) ↔
      plan.KeepsFrom msg app lent table above := by
  induction above generalizing table plan sw with
  | nil =>
    have allowed := untouched.allowed rfl msg.add table
    cases passed : plan.allowed msg.add table with
    | none =>
      rw [passed, Option.map_none] at allowed
      simp [flowModRounds_refused _ allowed, keepsFrom_refused passed, intact]
    | some checked =>
      rw [passed, Option.map_some] at allowed
      have fault : checked.heapFault = false := by rw [FlowModRun.allowed_some passed]; exact intact
      simp [flowModRounds, flowModRound_passed allowed, FlowModRun.KeepsFrom, passed, fault]
  | cons next rest ih =>
    have allowed := untouched.allowed rfl msg.add table
    cases passed : plan.allowed msg.add table with
    | none =>
      rw [passed, Option.map_none] at allowed
      simp [flowModRounds_refused _ allowed, keepsFrom_refused passed, intact]
    | some checked =>
      rw [passed, Option.map_some] at allowed
      have node : checked.node = plan.node := by rw [FlowModRun.allowed_some passed]
      have flow : checked.flow = plan.flow := by rw [FlowModRun.allowed_some passed]
      have fault : checked.heapFault = false := by rw [FlowModRun.allowed_some passed]; exact intact
      rw [← node] at untouched
      rw [← flow] at here
      obtain ⟨later, ascending⟩ := List.pairwise_cons.mp ascending
      have goes_iff := @goesOn_iff _ app _ _ _ _ good untouched here now
      have keeps_iff : plan.KeepsFrom msg app lent table (next :: rest) ↔ (checked.GoesOn msg app →
          checked.args.grpList = [] ∧ checked.args.meterList = [] ∧
            (checked.nextTable next).KeepsFrom msg app lent next rest) := by
        simp [FlowModRun.KeepsFrom, passed]
      rw [keeps_iff, flowModRounds_cons allowed]
      by_cases goes : checked.GoesOn msg app
      · have absent : tableOf (checked.params msg app) ∉ next :: rest := by
          intro member
          exact absurd (later _ member) (by rw [← here]; exact Nat.lt_irrefl _)
        have done := untouched.trans
          (flowModRequest_untouched msg (checked.params msg app) now sw absent) (by simp)
        have small : (BitVec.ofNat 8 next).toNat = next := by
          have bound := bounded next (by simp)
          simp only [maxRuleFlowTbls] at bound
          simp only [BitVec.toNat_ofNat]
          omega
        rw [if_pos (goes_iff.mpr goes)]
        by_cases empty : checked.args.grpList = [] ∧ checked.args.meterList = []
        · have clean : (checked.nextTable next).heapFault = false := by
            simp [FlowModRun.nextTable, fault, empty]
          have below :=
            @ih next _ (checked.nextTable next) done clean small ascending fun table member =>
            bounded table (by simp [member])
          simp [below, goes, empty]
        · have freed : (checked.nextTable next).heapFault = true := by
            simpa [FlowModRun.nextTable, fault, or_iff_not_imp_left] using empty
          have final : ∀ sw, (flowModRounds msg app now next rest
              ((checked.nextTable next).withSwitch sw)).1.heapFault = true :=
            fun sw => flowModRounds_fault rest freed
          rw [final]
          apply iff_of_false (by simp)
          intro keeps
          exact empty ⟨(keeps goes).1, (keeps goes).2.1⟩
      · rw [if_neg (mt goes_iff.mp goes)]
        simp [goes, fault]

end Keeps

end OpenMul
