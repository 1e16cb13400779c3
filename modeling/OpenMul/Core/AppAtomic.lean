import OpenMul.Core.AppBalance
import OpenMul.Core.Atomicity

namespace OpenMul

open Lib List

/-- The actions of a message, as the check of the switch leaves them after some
passes. -/
inductive CheckedList (cmd : CmdCtors) (sent : List Byte) : List Byte → Prop where
  | asSent : CheckedList cmd sent sent
  | again {validate list} (ctor : cmd.validateActs = some validate) (flow mask : Option Flow)
      (args : InstCheckArgs) (earlier : CheckedList cmd sent list) :
      CheckedList cmd sent (validate flow mask list false args).actions

/-- A table holds the rule of a message, owned by the application. -/
def Installed (msg : FlowModMsg) (app : App) (flow mask : Flow) (table : Nat) (list : List Byte)
    (before after : List FlEntry) : Prop :=
  ∃ ent ∈ after,
    ent.ruleKey = ({ flow with tableId := BitVec.ofNat 8 table }, mask.sansPad, msg.priority) ∧
    app ∈ ent.appOwnerList ∧
    (ent.actions = list ∨ msg.has flEntLocal = true ∧ ∃ old ∈ before,
      old.ruleKey = ent.ruleKey ∧ hasFlag old.flags flEntLocal = true ∧ ent.actions = old.actions)

theorem flowRuleAdd_frame (sw : Switch) (p : FlowModParams) (now : Nat)
    (other : table ≠ tableOf p) : (flowRuleAdd sw p now).1.rules table = sw.rules table := by
  have outcome := @flowRuleAdd_outcome sw p now
  generalize flowRuleAdd sw p now = result at outcome ⊢
  cases outcome <;> simp [Switch.rules, Switch.setRules, other]

theorem flowRuleAdd_failed (failed : (flowRuleAdd sw p now).2 ≠ 0) :
    (flowRuleAdd sw p now).2 < 0 := by
  have outcome := @flowRuleAdd_outcome sw p now
  generalize flowRuleAdd sw p now = result at outcome failed ⊢
  cases outcome with
  | shared | modified | inserted => exact absurd rfl failed
  | invalid | refused | existing | dropped | missing | unresolved =>
    simp [einval, eperm, eexist]

variable {run : FlowModRun}

theorem FlowModRun.installed (here : run.flow = { run.flow with tableId := BitVec.ofNat 8 table })
    (bound : table < 256) (accepted : (flowRuleAdd run.node.sw (run.params msg app) now).2 = 0) :
    Installed msg app run.flow run.mask table run.actions (run.node.sw.rules table)
      ((flowRuleAdd run.node.sw (run.params msg app) now).1.rules table) := by
  have at_table : tableOf (run.params msg app) = table := by
    change run.flow.tableId.toNat = table
    rw [here]
    exact Nat.mod_eq_of_lt bound
  obtain ⟨ent, member, key, owned, origin⟩ := add_accepted_as accepted
  rw [at_table] at member
  refine ⟨ent, member, ?_, owned, ?_⟩
  · rw [key, ← here]
    rfl
  cases origin with
  | inserted _ _ actions | modified _ _ _ actions => exact .inl actions
  | joined old found _ asked locals actions =>
    have wanted : msg.has flEntLocal = true := by
      rw [← asked]
      exact (hasFlag_setFlag _ _ _ (by decide)).symm
    rw [at_table] at old
    exact .inr ⟨wanted, _, old, ((sameRule_iff ..).mp found).trans key.symm, locals, actions⟩

/-- The actions a round goes on with. -/
def FlowModRun.checkedActions (run : FlowModRun) (add : Bool) : List Byte :=
  if run.node.debugFlag then run.actions else (run.validateActs add).actions

variable {checked : FlowModRun}

theorem FlowModRun.allowed_actions
    (passed : run.allowed add table = some checked) : checked.actions = run.checkedActions add := by
  unfold allowed at passed
  unfold checkedActions
  split at passed
  · rename_i debug
    cases passed
    rw [if_pos debug]
  · rename_i debug
    rw [if_neg debug]
    split at passed
    · cases passed
    dsimp only at passed
    split at passed
    · cases passed
    · cases passed
      rfl

theorem CheckedList.checkedActions (checked : CheckedList run.node.cmd sent run.actions)
    (add : Bool) : CheckedList run.node.cmd sent (run.checkedActions add) := by
  unfold FlowModRun.checkedActions FlowModRun.validateActs
  split
  · exact checked
  · split
    · exact checked
    · rename_i validate ctor
      cases add with
      | false => cases ctor
      | true => exact .again ctor _ _ _ checked

variable {above : List Nat}

section Add

variable {msg : FlowModMsg} {app : App} {now table : Nat}

/-- The state of the rounds once the rule is added to the table at hand. -/
def FlowModRun.added (run : FlowModRun) (msg : FlowModMsg) (app : App) (now : Nat) : FlowModRun :=
  { run with node.sw := (flowRuleAdd run.node.sw (run.params msg app) now).1 }

theorem replicates_added (checked : FlowModRun) :
    replicates msg (checked.added msg app now).node.sw = replicates msg checked.node.sw := by
  simp [replicates, FlowModRun.added, flowRuleAdd_ctors]

/-- The tables a command that adds goes through when nothing fails. -/
def addTables (msg : FlowModMsg) (sw : Switch) (table : Nat) (above : List Nat) : List Nat :=
  if replicates msg sw then table :: above else [table]

section

variable (passed : run.allowed msg.add table = some checked)
    (here : run.flow.tableId = BitVec.ofNat 8 table) (bound : table < 256)
include passed here bound

private theorem added_frame
    (other : query ≠ table) :
    (checked.added msg app now).node.sw.rules query = run.node.sw.rules query := by
  have same := FlowModRun.allowed_some passed
  have at_table : tableOf (checked.params msg app) = table := by
    change checked.flow.tableId.toNat = table
    rw [same, here]
    exact Nat.mod_eq_of_lt bound
  have kept := flowRuleAdd_frame checked.node.sw (checked.params msg app) now (at_table ▸ other)
  rw [FlowModRun.added, kept, same]

private theorem added_installed
    (accepted : (flowRuleAdd checked.node.sw (checked.params msg app) now).2 = 0) :
    Installed msg app run.flow run.mask table (run.checkedActions msg.add) (run.node.sw.rules table)
      ((checked.added msg app now).node.sw.rules table) := by
  have same := FlowModRun.allowed_some passed
  have flow : checked.flow = { checked.flow with tableId := BitVec.ofNat 8 table } := by
    rw [same, ← here]
  have holds := FlowModRun.installed flow bound accepted
  rw [FlowModRun.allowed_actions passed] at holds
  rw [same] at holds ⊢
  exact holds

end

variable (add : msg.add = true)
include add

theorem flowModRounds_uncached (direct : msg.has flEntNocache = true) (above : List Nat)
    (run : FlowModRun) (query : Nat) :
    (flowModRounds msg app now table above run).1.node.sw.rules query =
      run.node.sw.rules query := by
  apply flowModRounds_invariant (fun other => other.node.sw.rules query = run.node.sw.rules query)
  · intro other checked table same passed
    rw [FlowModRun.allowed_some passed]
    exact same
  · intro other same
    simp only [flowModRequest, direct, add, if_true, sendFlowAddDirect]
    split <;> exact same
  · intro other next same
    exact same
  · rfl

variable (cached : msg.has flEntNocache = false)
include cached

theorem flowModRound_add (passed : run.allowed msg.add table = some checked) :
    flowModRound msg app now table run =
      (checked.added msg app now,
        some (flowRuleAdd checked.node.sw (checked.params msg app) now).2) := by
  simp [flowModRound_passed passed, flowModRequest, add, cached, FlowModRun.added]

theorem flowModRounds_add (passed : run.allowed msg.add table = some checked) (next : Nat)
    (rest : List Nat) :
    ((flowRuleAdd checked.node.sw (checked.params msg app) now).2 = 0 ∧
      replicates msg checked.node.sw = true ∧
        flowModRounds msg app now table (next :: rest) run =
          flowModRounds msg app now next rest ((checked.added msg app now).nextTable next)) ∨
      ((flowRuleAdd checked.node.sw (checked.params msg app) now).2 = 0 →
          replicates msg checked.node.sw = false) ∧
            flowModRounds msg app now table (next :: rest) run =
          (checked.added msg app now,
            some (flowRuleAdd checked.node.sw (checked.params msg app) now).2) := by
  have round := @flowModRound_add run checked msg app now table add cached passed
  by_cases goes : (flowRuleAdd checked.node.sw (checked.params msg app) now).2 = 0 ∧
      replicates msg checked.node.sw = true
  · simp [flowModRounds, round, replicates_added, goes.1, goes.2]
  · refine .inr ⟨?_, ?_⟩
    · intro accepted
      simpa using fun replicated => goes ⟨accepted, replicated⟩
    · rw [flowModRounds, round]
      simp only [replicates_added]
      rw [if_neg (by simpa using goes)]

theorem flowModRounds_frame (bytes : ∀ next ∈ table :: above, next < 256)
    (here : run.flow.tableId = BitVec.ofNat 8 table) (outside : query ∉ table :: above) :
    (flowModRounds msg app now table above run).1.node.sw.rules query =
      run.node.sw.rules query := by
  induction above generalizing table run with
  | nil =>
    cases passed : run.allowed msg.add table with
    | none => rw [flowModRounds_refused [] passed]
    | some checked =>
      rw [flowModRounds, flowModRound_add add cached passed]
      exact added_frame passed here (bytes table (by simp)) (by simpa using outside)
  | cons next rest ih =>
    cases passed : run.allowed msg.add table with
    | none => rw [flowModRounds_refused _ passed]
    | some checked =>
      have kept :=
        @added_frame run checked msg app now table passed here (bytes table (by simp)) query
        (ne_of_not_mem_cons outside)
      rcases @flowModRounds_add run checked msg app now table add cached passed next rest with
        ⟨_, _, goes⟩ | ⟨_, ends⟩
      · rw [goes]
        refine (ih ?_ rfl (not_mem_of_not_mem_cons outside)).trans kept
        intro later member
        exact bytes later (mem_cons_of_mem _ member)
      · rw [ends]
        exact kept

theorem flowModRounds_installed (bytes : ∀ next ∈ table :: above, next < 256)
    (distinct : (table :: above).Nodup) (here : run.flow.tableId = BitVec.ofNat 8 table)
    (sent : CheckedList run.node.cmd msg.actions run.actions)
    (accepted : (flowModRounds msg app now table above run).2 = some 0) :
    ∀ query ∈ addTables msg run.node.sw table above, ∃ list,
      CheckedList run.node.cmd msg.actions list ∧
        (query = table → list = run.checkedActions msg.add) ∧
        Installed msg app run.flow run.mask query list (run.node.sw.rules query)
          ((flowModRounds msg app now table above run).1.node.sw.rules query) := by
  induction above generalizing table run with
  | nil =>
    intro query member
    obtain rfl : query = table := by simpa [addTables] using member
    cases passed : run.allowed msg.add query with
    | none => simp [flowModRounds_refused [] passed] at accepted
    | some checked =>
      rw [flowModRounds, flowModRound_add add cached passed] at accepted ⊢
      exact ⟨_, sent.checkedActions msg.add, fun _ => rfl,
        added_installed passed here (bytes query (by simp)) (Option.some.inj accepted)⟩
  | cons next rest ih =>
    intro query member
    cases passed : run.allowed msg.add table with
    | none => simp [flowModRounds_refused _ passed] at accepted
    | some checked =>
      have same := FlowModRun.allowed_some passed
      have node : checked.node = run.node := by rw [same]
      rcases @flowModRounds_add run checked msg app now table add cached passed next rest with
        ⟨first, replicated, goes⟩ | ⟨single, ends⟩
      · rw [goes] at accepted ⊢
        have later : ∀ other ∈ next :: rest, other < 256 := fun other member =>
          bytes other (mem_cons_of_mem _ member)
        by_cases requested : query = table
        · -- The later rounds leave the first table alone.
          subst query
          have holds :=
            @added_installed run checked msg app now table passed here (bytes table (by simp)) first
          refine ⟨_, sent.checkedActions msg.add, fun _ => rfl, ?_⟩
          rw [flowModRounds_frame add cached later rfl (nodup_cons.mp distinct).1]
          exact holds
        · have inside : query ∈ next :: rest := by
            have among : query ∈ table :: next :: rest := by
              simpa [addTables, ← node, replicated] using member
            exact (mem_cons.mp among).resolve_left requested
          have resent : CheckedList checked.node.cmd msg.actions checked.actions := by
            rw [FlowModRun.allowed_actions passed, node]
            exact sent.checkedActions msg.add
          have tables : query ∈ addTables msg ((checked.added msg app now).nextTable next).node.sw
              next rest := by
            have still : replicates msg ((checked.added msg app now).nextTable next).node.sw =
                true :=
              (replicates_added checked).trans replicated
            simpa [addTables, still] using inside
          obtain ⟨list, checkedList, _, holds⟩ :=
            @ih ((checked.added msg app now).nextTable next) next later
              (nodup_cons.mp distinct).2 rfl resent accepted query tables
          refine ⟨list, node ▸ checkedList, fun here => absurd here requested, ?_⟩
          have kept : ((checked.added msg app now).nextTable next).node.sw.rules query =
              run.node.sw.rules query :=
            added_frame passed here (bytes table (by simp)) requested
          rw [kept] at holds
          have flow : checked.flow = run.flow := by rw [same]
          have mask : checked.mask = run.mask := by rw [same]
          rw [← flow, ← mask]
          exact holds
      · rw [ends] at accepted ⊢
        have first := Option.some.inj accepted
        obtain rfl : query = table := by simpa [addTables, ← node, single first] using member
        exact ⟨_, sent.checkedActions msg.add, fun _ => rfl,
          added_installed passed here (bytes query (by simp)) first⟩

/-- Rounds that fail at the first table have changed no rule, unless the add spoiled an entry. -/
theorem flowModRounds_failed (failed : (flowModRounds msg app now table above run).2 ≠ some 0)
    (early : ∀ checked, run.allowed msg.add table = some checked →
      ¬SpoilsEntry checked.node.sw (checked.params msg app) ∧
        ¬(replicates msg checked.node.sw = true ∧
          (flowRuleAdd checked.node.sw (checked.params msg app) now).2 = 0)) (query : Nat) :
    ((flowModRounds msg app now table above run).1.node.sw.rules query).map FlEntry.snapshot =
      (run.node.sw.rules query).map FlEntry.snapshot := by
  cases passed : run.allowed msg.add table with
  | none => rw [flowModRounds_refused _ passed]
  | some checked =>
    obtain ⟨sound, first⟩ := early checked passed
    have ends : flowModRounds msg app now table above run =
        (checked.added msg app now,
          some (flowRuleAdd checked.node.sw (checked.params msg app) now).2) := by
      cases above with
      | nil => exact flowModRound_add add cached passed
      | cons next rest =>
        rcases flowModRounds_add add cached passed next rest with
          ⟨accepted, replicated, _⟩ | ⟨_, ends⟩
        · exact absurd ⟨replicated, accepted⟩ first
        · exact ends
    rw [ends] at failed ⊢
    have negative : (flowRuleAdd checked.node.sw (checked.params msg app) now).2 < 0 := by
      apply flowRuleAdd_failed
      intro accepted
      exact failed (congrArg some accepted)
    have same := ((failed_add_unchanged_iff _ _ now negative).mpr sound).entries query
    have node : checked.node = run.node := by rw [FlowModRun.allowed_some passed]
    rw [← node]
    exact same

end Add

variable {ret : Option Int}

namespace Controller

/-- The rules of a table of a switch. -/
def rules (ctrl : Controller) (pos table : Nat) : List FlEntry :=
  ((ctrl.switches[pos]?).map fun node => node.sw.rules table).getD []

theorem rules_settled_same {ctrl : Controller} (known : ctrl.switches[pos]? = some node)
    (sw : Switch) (table : Nat) : (ctrl.settled pos sw).rules pos table = sw.rules table := by
  simp [rules, settled, known]

theorem rules_settled_other (ctrl : Controller) (apart : other ≠ pos) (sw : Switch) (table : Nat) :
    (ctrl.settled pos sw).rules other table = ctrl.rules other table := by
  simp [rules, settled, Ne.symm apart]

theorem rules_switchGet (ctrl : Controller) (pos other table : Nat) :
    (ctrl.switchGet pos).rules other table = ctrl.rules other table := by
  by_cases here : pos = other
  · cases found : ctrl.switches[other]? <;> simp [rules, switchGet, here, found]
  · simp [rules, switchGet, here]

theorem rules_dropApp (ctrl : Controller) (appArg app : App) (pos table : Nat) :
    (ctrl.dropApp appArg app).rules pos table = ctrl.rules pos table := by
  unfold dropApp
  split <;> rfl

/-- The locals of a command on its switch when the first table is tested. -/
def firstRun (ctrl : Controller) (appArg : App) (node : CtrlSwitch) (msg : FlowModMsg)
    (flow mask : Flow) : FlowModRun :=
  FlowModRun.start { node with sw := node.sw.withRef (ctrl.heldRef appArg) } msg flow mask

/-- What fails after the first table has changed the tables. -/
def LateFailure (ctrl : Controller) (appArg : App) (msg : FlowModMsg) (now : Nat) : Prop :=
  ∃ pos node flow mask checked, ctrl.flowModSwitch msg = some (pos, node) ∧
    normalizeMsg node msg = .ok (flow, mask) ∧
    (ctrl.firstRun appArg node msg flow mask).allowed msg.add (physTable node msg flow).toNat =
      some checked ∧
    (SpoilsEntry checked.node.sw (checked.params msg (ctrl.commandApp appArg).2) ∨
      replicates msg checked.node.sw = true ∧
        (flowRuleAdd checked.node.sw (checked.params msg (ctrl.commandApp appArg).2) now).2 = 0)

/-- The requested table and, for a replicated command, all valid tables above it. -/
def AddedTo (ctrl next : Controller) (appArg : App) (msg : FlowModMsg) (pos : Nat)
    (node : CtrlSwitch) (flow mask : Flow) : Prop :=
  let requested := (physTable node msg flow).toNat
  ∀ table ∈ addTables msg node.sw requested (node.tablesAbove requested), ∃ list,
    CheckedList node.cmd msg.actions list ∧
      (table = requested →
        list = (ctrl.firstRun appArg node msg flow mask).checkedActions msg.add) ∧
      Installed msg (ctrl.commandApp appArg).2 flow mask table list (ctrl.rules pos table)
        (next.rules pos table)

private theorem firstRun_rounds {ctrl : Controller}
    (rounds : flowModOnSwitch node msg app now flow mask (node.sw.withRef (ctrl.heldRef appArg)) =
      (sw, ret, fault)) : let requested := (physTable node msg flow).toNat
    let done := flowModRounds msg app now requested (node.tablesAbove requested)
      (ctrl.firstRun appArg node msg flow mask)
    done.1.node.sw = sw ∧ done.2 = ret := by
  cases rounds
  exact ⟨rfl, rfl⟩

private theorem tables_bytes (node : CtrlSwitch) (table : Byte) :
    ∀ next ∈ table.toNat :: node.tablesAbove table.toNat, next < 256 := by
  intro next member
  rcases mem_cons.mp member with rfl | above
  · exact table.isLt
  · exact Nat.lt_trans (node.tablesAbove_lt _ next above) (by decide)

section Command

variable {ctrl : Controller} {appArg : App} {msg : FlowModMsg} {now : Nat} {pos : Nat}
  {node : CtrlSwitch} {flow mask : Flow} {sw : Switch} {fault : Bool}

private theorem rules_firstRun (known : ctrl.flowModSwitch msg = some (pos, node)) (table : Nat) :
    (ctrl.firstRun appArg node msg flow mask).node.sw.rules table = ctrl.rules pos table := by
  simp only [rules, deref_some known]
  rfl

/-- What holds of the rules of the switch before and after holds of the controller's. -/
private theorem settled_unchanged (view : List FlEntry → View)
    (known : ctrl.flowModSwitch msg = some (pos, node))
    (same : ∀ table, view (sw.rules table) = view (ctrl.rules pos table)) (other table : Nat) :
    view ((ctrl.settled pos sw).rules other table) = view (ctrl.rules other table) := by
  by_cases here : other = pos
  · rw [here, rules_settled_same (deref_some known)]
    exact same table
  · rw [rules_settled_other ctrl here]

private theorem rounds_uncached (add : msg.add = true) (direct : msg.has flEntNocache = true)
    (known : ctrl.flowModSwitch msg = some (pos, node))
    (rounds : flowModOnSwitch node msg (ctrl.commandApp appArg).2 now flow mask
      (node.sw.withRef (ctrl.heldRef appArg)) = (sw, ret, fault)) (other table : Nat) :
    (ctrl.settled pos sw).rules other table = ctrl.rules other table := by
  apply settled_unchanged id known
  intro query
  rw [← (firstRun_rounds rounds).1, flowModRounds_uncached add direct, rules_firstRun known]

private theorem rounds_failed (add : msg.add = true) (failed : ret ≠ some 0)
    (known : ctrl.flowModSwitch msg = some (pos, node))
    (normal : normalizeMsg node msg = .ok (flow, mask))
    (rounds : flowModOnSwitch node msg (ctrl.commandApp appArg).2 now flow mask
      (node.sw.withRef (ctrl.heldRef appArg)) = (sw, ret, fault))
    (early : ¬ctrl.LateFailure appArg msg now) (other table : Nat) :
    ((ctrl.settled pos sw).rules other table).map FlEntry.snapshot =
      (ctrl.rules other table).map FlEntry.snapshot := by
  cases direct : msg.has flEntNocache with
  | true => rw [rounds_uncached add direct known rounds]
  | false =>
    obtain ⟨state, out⟩ := firstRun_rounds rounds
    apply settled_unchanged (map FlEntry.snapshot) known
    intro query
    rw [← state, ← @rules_firstRun ctrl appArg msg pos node flow mask known query]
    apply flowModRounds_failed add direct (out ▸ failed)
    intro checked passed
    refine ⟨?_, ?_⟩
    · intro spoils
      exact early ⟨pos, node, flow, mask, checked, known, normal, passed, .inl spoils⟩
    · intro late
      exact early ⟨pos, node, flow, mask, checked, known, normal, passed, .inr late⟩

private theorem rounds_installed (add : msg.add = true) (cached : msg.has flEntNocache = false)
    (known : ctrl.flowModSwitch msg = some (pos, node))
    (rounds : flowModOnSwitch node msg (ctrl.commandApp appArg).2 now flow mask
      (node.sw.withRef (ctrl.heldRef appArg)) = (sw, some 0, fault)) :
    ctrl.AddedTo (ctrl.settled pos sw) appArg msg pos node flow mask := by
  obtain ⟨state, out⟩ := firstRun_rounds rounds
  intro table member
  have here : (ctrl.firstRun appArg node msg flow mask).flow.tableId =
      BitVec.ofNat 8 (physTable node msg flow).toNat := by
    rw [BitVec.ofNat_toNat]
    rfl
  have installed := flowModRounds_installed add cached (tables_bytes node (physTable node msg flow))
    ((node.tablesAbove_ascending _).imp Nat.ne_of_lt) here .asSent out table member
  obtain ⟨list, checked, first, holds⟩ := installed
  refine ⟨list, checked, first, ?_⟩
  rw [rules_settled_same (deref_some known), ← state,
    ← @rules_firstRun ctrl appArg msg pos node flow mask known]
  exact holds

end Command

/-- A flow-mod that adds a rule. -/
theorem flowModAdd_atomic (ctrl : Controller) (appArg : App) {msg : FlowModMsg}
    (add : msg.add = true) (now : Nat) :
    ((ctrl.appFlowModWrkCommand appArg msg now).2 ≠ 0 → ¬ctrl.LateFailure appArg msg now →
      ∀ pos table,
        ((ctrl.appFlowModWrkCommand appArg msg now).1.rules pos table).map FlEntry.snapshot =
          (ctrl.rules pos table).map FlEntry.snapshot) ∧
            ((ctrl.appFlowModWrkCommand appArg msg now).2 = 0 →
      ∃ pos node flow mask, ctrl.flowModSwitch msg = some (pos, node) ∧
        normalizeMsg node msg = .ok (flow, mask) ∧
        if msg.has flEntNocache then
          ∀ pos table,
            (ctrl.appFlowModWrkCommand appArg msg now).1.rules pos table = ctrl.rules pos table
        else ctrl.AddedTo (ctrl.appFlowModWrkCommand appArg msg now).1 appArg msg pos node flow
          mask) := by
  have outcome := @appFlowModWrkCommand_outcome ctrl appArg msg now
  generalize ctrl.appFlowModWrkCommand appArg msg now = result at outcome ⊢
  cases outcome with
  | ignored => exact ⟨fun _ _ _ _ => rfl, by simp⟩
  | @leaked pos node ret _ _ _ failed =>
    refine ⟨?_, ?_⟩
    · intro _ _ other table
      exact congrArg _ (rules_switchGet ctrl pos other table)
    · intro done
      exact absurd done (Int.ne_of_lt failed)
  | @refused pos node flow mask sw fault _ known _ normal rounds =>
    refine ⟨?_, by simp⟩
    intro _ early
    exact rounds_failed add (by simp) known normal rounds early
  | @done pos node flow mask sw ret fault _ known _ normal rounds =>
    refine ⟨?_, ?_⟩
    · intro failed early other table
      rw [rules_dropApp]
      exact rounds_failed add (by simpa using failed) known normal rounds early other table
    · intro accepted
      obtain rfl : ret = 0 := accepted
      refine ⟨pos, node, flow, mask, known, normal, ?_⟩
      split
      · rename_i direct
        intro other table
        rw [rules_dropApp]
        exact rounds_uncached add direct known rounds other table
      · rename_i cached
        simp only [AddedTo, rules_dropApp]
        exact rounds_installed add (by simpa using cached) known rounds

/-- The switch has the tables 0 and 1. -/
def twoTables : Controller :=
  { oneSwitch with
    switches := oneSwitch.switches.map fun node => { node with hwTblActive := (· < 2) } }

def localRule : FlowModMsg := { inPortRule 1 with flags := flEntLocal }

theorem localRule_added_refused : ((twoTables.appFlowModWrkCommand 7 localRule 0).2 = 0 ∧
      ∃ pos node flow mask, twoTables.flowModSwitch localRule = some (pos, node) ∧
        normalizeMsg node localRule = .ok (flow, mask) ∧
        twoTables.AddedTo (twoTables.appFlowModWrkCommand 7 localRule 0).1 7 localRule pos node flow
          mask) ∧ (¬twoTables.LateFailure 7 (inPortRule 2) 0 ∧
            (twoTables.appFlowModWrkCommand 7 (inPortRule 2) 0).2 = -1 ∧
      ∀ pos table, ((twoTables.appFlowModWrkCommand 7 (inPortRule 2) 0).1.rules pos table).map
        FlEntry.snapshot = (twoTables.rules pos table).map FlEntry.snapshot) := by
  have accepted : (twoTables.appFlowModWrkCommand 7 localRule 0).2 = 0 := by decide
  have refused : (twoTables.appFlowModWrkCommand 7 (inPortRule 2) 0).2 = -1 := by decide
  have early : ¬twoTables.LateFailure 7 (inPortRule 2) 0 := by
    intro late
    obtain ⟨pos, node, flow, mask, checked, known, normal, passed, _⟩ := late
    cases known
    cases normal
    cases passed
  refine ⟨⟨accepted, (twoTables.flowModAdd_atomic 7 rfl 0).2 accepted⟩, early, refused, ?_⟩
  exact (twoTables.flowModAdd_atomic 7 rfl 0).1 (by decide) early

/-- A residual rule of the same match stands in table 1. -/
def residualAbove : Controller :=
  (twoTables.appFlowModWrkCommand 7
    { inPortRule 1 with
      flow := { inPort := 1, tableId := 1 }, flags := setFlag flEntResidual flEntTblPhys } 0).1

/-- A rule that is not local goes to one table; a local one that fails in table 1
stays in table 0. -/
theorem rules_not_in_all_tables : ((twoTables.appFlowModWrkCommand 7 (inPortRule 1) 0).2 = 0 ∧
      (∀ node ∈ twoTables.switches, node.tableValid 1 = true) ∧
      (twoTables.appFlowModWrkCommand 7 (inPortRule 1) 0).1.rules 0 1 = []) ∧
    (residualAbove.appFlowModWrkCommand 7 localRule 1).2 = -eperm ∧ residualAbove.rules 0 0 = [] ∧
      ((residualAbove.appFlowModWrkCommand 7 localRule 1).1.rules 0 0).length = 1 := by
  decide

end Controller

end OpenMul
