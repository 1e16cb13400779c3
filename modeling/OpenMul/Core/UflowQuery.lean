import OpenMul.Core.Lookup
import OpenMul.Core.ObjectDecode
import OpenMul.Lib.Loop

namespace OpenMul

open Lib
open Lib.Step (Ranked OnceEach Visits Returns)

/-- `struct ofp_inst_parser_arg` for a caller with a flow to rewrite. -/
structure ModUflow where
  check : InstCheck
  fl : Flow
  outPort : BitVec 32 := 0
  groupId : BitVec 32 := 0

/-- A check of `of131_validate_actions`, and what it stores under `mod_fl_flag` once
it is passed. -/
def thenStore (check : Handler InstCheck) (store : List Byte → ModUflow → ModUflow) :
    Handler ModUflow :=
  fun pos arg =>
    let checked := check pos { msg := arg.msg, res := arg.res, user := arg.user.check }
    let user := { arg.user with check := checked.user }
    { msg := checked.msg, res := checked.res
      user := if checked.res = 0 then store (checked.msg.drop pos) user else user }

/-- A check that stores nothing. -/
def checkOnly (check : Handler InstCheck) : Handler ModUflow := thenStore check fun _ user => user

/-- `of131_check_set_field_tp_port` returns before the store when it is given flow
and mask. -/
def setFieldTpPort (dp : InstCheck) (field : FlowField) (port : BitVec field.width) (fl : Flow) :
    Flow :=
  match dp.fl, dp.mask with
  | some _, some _ => fl
  | _, _ => fl.put field port

/-- What the set-field handlers store. The IPv6 addresses are not among them. -/
def setFieldModUflow (dp : InstCheck) (oxm : OxmHdr) (data : List Byte) (fl : Flow) : Flow :=
  match oxm.field with
  | ofbEthDst => fl.put .dlDst (wordAt _ data)
  | ofbEthSrc => fl.put .dlSrc (wordAt _ data)
  | ofbEthType => fl.put .dlType (wordAt _ data)
  | ofbVlanVid => { fl with dlVlan := wordAt 16 data &&& 0xfff }
  | ofbVlanPcp => fl.put .dlVlanPcp (wordAt _ data)
  | ofbMplsLabel => { fl with mplsLabel := ofGetMplsLabelOxm data oxm.length.toNat }
  | ofbMplsTc => fl.put .mplsTc (wordAt _ data)
  | ofbMplsBos => fl.put .mplsBos (wordAt _ data)
  | ofbIpv4Src => fl.put .nwSrc (wordAt _ data)
  | ofbIpv4Dst => fl.put .nwDst (wordAt _ data)
  | ofbIpDscp => fl.put .nwTos (wordAt _ data)
  | ofbUdpSrc | ofbTcpSrc => setFieldTpPort dp .tpSrc (wordAt _ data) fl
  | ofbUdpDst | ofbTcpDst => setFieldTpPort dp .tpDst (wordAt _ data) fl
  | _ => fl

/-- `of131_check_act_set_field`. -/
def modActSetField : Handler ModUflow := thenStore of131CheckActSetField fun action user =>
  let oxm := OxmHdr.ntoh (action.drop 4)
  if oxm.oxmClass = ofpxmcOpenflowBasic then
    { user with fl := setFieldModUflow user.check oxm (action.drop 8) user.fl }
  else user

/-- `of131_check_mod_act_parsers`. -/
def modActParsers : ActType → Handler ModUflow
  | .output => thenStore of131CheckActOutput fun action user =>
    { user with outPort := wordAt 32 (action.drop 4) }
  | .group => thenStore of131CheckGroupAct fun action user =>
    { user with groupId := wordAt 32 (action.drop 4) }
  | .setField => modActSetField
  | action => checkOnly (of131CheckModActParsers action)

/-- `of131_check_act_inst` for a write or an apply instruction. -/
def modActInst (type : InstType) : Handler ModUflow := fun pos arg =>
  let entered := checkOnly (fun _ => enterActInst type) pos arg
  let len := headLen arg.msg pos
  if entered.res ≠ 0 ∨ len.toNat ≤ instActionsSz then entered
  else
    of131ParseActions modActParsers (pos + instActionsSz)
      (len.setWidth 64 - BitVec.ofNat 64 instActionsSz) entered

/-- `of131_check_inst_parsers`. -/
def modInstParsers : InstParsers ModUflow where
  preProc := checkOnly (fun _ => ofCheckInstParserPreProc) 0
  inst
    | .gotoTable => thenStore of131CheckGotoInst fun inst user =>
      { user with fl := { user.fl with tableId := inst.getD 4 0 } }
    | .writeMetadata => checkOnly of131CheckWrMetaInst
    | .writeActions => modActInst .writeActions
    | .applyActions => modActInst .applyActions
    | .clearActions => checkOnly of131CheckClearInst
    | .meter => checkOnly of131CheckMeterInst
    | .experimenter => fun _ arg => arg

/-- The part of `struct ofp_inst_check_args` that lasts for a whole query. -/
structure UflowArgs where
  fl : Flow
  outPort : BitVec 32 := 0
  groupId : BitVec 32 := 0
  instLocal : Bool := false
  deriving DecidableEq, Repr

/-- `of131_modify_uflow`. Its verdict is not used. -/
def of131ModifyUflow (fl mask : Flow) (instList : List Byte) (actsOnly : Bool)
    (tblProp : Option TblProps) (args : UflowArgs) : UflowArgs :=
  let parsed :=
    (of131ParseInstructions modInstParsers modActParsers (BitVec.ofNat 64 instList.length) actsOnly
    { msg := instList
      user :=
        { check :=
            { fl := some fl, mask := some mask, uArg := { tblProp, instLocal := args.instLocal } }
          fl := args.fl, outPort := args.outPort, groupId := args.groupId } }).user
  { fl := parsed.fl, outPort := parsed.outPort, groupId := parsed.groupId
    instLocal := parsed.check.uArg.instLocal }

/-- What the application is sent. -/
inductive UflowReply where
  | badLen
  | badDpid
  | flowModFailed
  | modUflow (outPort : BitVec 32) (flow : Flow)
  deriving DecidableEq, Repr

/-- The query is about to look the flow up, or, after the rule it found last, to
expand the group that is pending. -/
structure UflowState where
  args : UflowArgs
  rule : Option FlEntry := none
  deriving DecidableEq, Repr

/-- What a lookup or an expansion is made in. -/
inductive Place where
  | table (id : Byte)
  | group (id : BitVec 32)
  deriving DecidableEq, Repr

def UflowState.place (state : UflowState) : Place :=
  match state.rule with
  | none => .table state.args.fl.tableId
  | some _ => .group state.args.groupId

section Query

variable (node : CtrlSwitch)

/-- The label `traverse_actions` up to the next lookup or expansion. -/
def traverseActions (ent : FlEntry) (actions : List Byte) (actsOnly : Bool) (args : UflowArgs) :
    Step UflowState (Option UflowReply) :=
  let args :=
    of131ModifyUflow ent.fl ent.flMask actions actsOnly (node.props ent.fl.tableId.toNat) args
  if args.outPort ≠ 0 then
    .done (some (if args.instLocal then .flowModFailed else .modUflow args.outPort args.fl))
  else if args.groupId ≠ 0 then .next { args, rule := some ent }
  -- The comparison of the table ids at the end of the loop changes nothing.
  else .next { args }

/-- One turn of the loops of `c_app_send_modify_flow_info`. There is no reply after a
lookup that has no result, and after the expansion of a group without buckets,
whose first one is `NULL`. -/
def uflowStep (state : UflowState) : Step UflowState (Option UflowReply) :=
  match state.rule with
  | none =>
    match doFlowLookupSlow node.sw node.xphysMapTbl state.args.fl true with
    | none => .done none
    | some none => .done (some .flowModFailed)
    | some (some ent) => traverseActions node ent ent.actions false state.args
  | some ent =>
    match RefTable.lookup node.sw.groups state.args.groupId with
    | none => .done (some .flowModFailed)
    | some grp =>
      if hasFlag grp.body.flags grpExpired then .done (some .flowModFailed)
      else
        match grp.body.actVectors with
        | [] => .done none
        | bucket :: _ => traverseActions node ent bucket.actions true state.args

def uflowStart (flow : Flow) : UflowState := { args := { fl := flow } }

end Query

namespace Controller

/-- The switch of a query, or why it is refused. -/
def uflowSwitch (ctrl : Controller) (whole : Bool) (dpid : BitVec 64) :
    Except UflowReply CtrlSwitch :=
  if whole then
    match ctrl.deref (ctrl.swHashTbl dpid) with
    | none => .error .badDpid
    | some (_, node) => if node.sw.ofpCtors = .of10 then .error .badDpid else .ok node
  else .error .badLen

end Controller

section Way

variable (node : CtrlSwitch)

/-- The rule for a flow: the first of its table that matches and is not local. -/
def ruleFor (fl : Flow) : Option FlEntry :=
  if fl.tableId.toNat < maxRuleFlowTbls then
    (node.sw.rules fl.tableId.toNat).find? fun ent =>
      !hasFlag ent.flags flEntLocal && ofMatchFlows fl ent.flMask ent.fl
  else none

/-- The first bucket of a group that is there and has not expired. -/
def firstBucket (id : BitVec 32) : Option ActVecElem :=
  ((RefTable.lookup node.sw.groups id).filter fun grp => !hasFlag grp.body.flags grpExpired).bind
    fun grp => grp.body.actVectors.head?

/-- A packet meets an instruction list: that of a rule in a table, or that of the first
bucket of a group, to which the rule led it. -/
structure Hop where
  place : Place
  args : UflowArgs
  rule : FlEntry
  actions : List Byte

/-- The packet after the list, with the output port and the group it was given. -/
def Hop.after (hop : Hop) : UflowArgs :=
  of131ModifyUflow hop.rule.fl hop.rule.flMask hop.actions (hop.place matches .group _)
    (node.props hop.rule.fl.tableId.toNat) hop.args

/-- The way of a packet. A list without output leads to the group it names, and without a
group to the table of the packet, which a goto has set. -/
inductive OnWay (flow : Flow) : Hop → Prop where
  | first (found : ruleFor node flow = some rule) :
      OnWay flow ⟨.table flow.tableId, { fl := flow }, rule, rule.actions⟩
  | table (earlier : OnWay flow hop) (silent : (hop.after node).outPort = 0)
      (plain : (hop.after node).groupId = 0)
        (found : ruleFor node (hop.after node).fl = some rule) :
      OnWay flow ⟨.table (hop.after node).fl.tableId, hop.after node, rule, rule.actions⟩
  | group (earlier : OnWay flow hop) (silent : (hop.after node).outPort = 0)
      (named : (hop.after node).groupId ≠ 0)
      (found : firstBucket node (hop.after node).groupId = some bucket) :
      OnWay flow ⟨.group (hop.after node).groupId, hop.after node, hop.rule, bucket.actions⟩

/-- A table number below 255, or nothing but zeros where the list of table 255 would be;
a group that has buckets while it lives. -/
def Readable : Place → Prop
  | .table id => id.toNat < maxRuleFlowTbls ∨ ∀ byte ∈ headPastTables node.xphysMapTbl, byte = 0
  | .group id => ∀ grp, RefTable.lookup node.sw.groups id = some grp →
      hasFlag grp.body.flags grpExpired = false → grp.body.actVectors ≠ []

/-- Where a packet without output port goes. -/
def UflowArgs.place (args : UflowArgs) : Place :=
  if args.groupId = 0 then .table args.fl.tableId else .group args.groupId

end Way

section Turns

variable {node : CtrlSwitch}

/-- The list a turn of the query meets. -/
def UflowState.hop (node : CtrlSwitch) (state : UflowState) : Option Hop :=
  match state.rule with
  | none => (ruleFor node state.args.fl).map fun ent => ⟨state.place, state.args, ent, ent.actions⟩
  | some ent =>
    (firstBucket node state.args.groupId).map fun bucket =>
      ⟨state.place, state.args, ent, bucket.actions⟩

def Hop.next (node : CtrlSwitch) (hop : Hop) : UflowState :=
  { args := hop.after node, rule := if (hop.after node).groupId = 0 then none else some hop.rule }

theorem doFlowLookupSlow_ruleFor (fl : Flow) (readable : Readable node (.table fl.tableId)) :
    doFlowLookupSlow node.sw node.xphysMapTbl fl true = some (ruleFor node fl) := by
  unfold doFlowLookupSlow ruleFor
  by_cases inside : fl.tableId.toNat < maxRuleFlowTbls
  · simp only [if_pos inside, flowLookupRule_eq_find?]
    rfl
  · have zero : (headPastTables node.xphysMapTbl).all (· == 0) = true := by
      simpa using readable.resolve_left inside
    simp only [if_neg inside, zero, if_true]

theorem traverseActions_eq (hop : Hop) :
    traverseActions node hop.rule hop.actions (hop.place matches .group _) hop.args =
      if (hop.after node).outPort ≠ 0 then
        .done (some (if (hop.after node).instLocal then .flowModFailed
          else .modUflow (hop.after node).outPort (hop.after node).fl))
      else .next (hop.next node) := by
  unfold traverseActions
  change (if (hop.after node).outPort ≠ 0 then _ else _) = _
  congr 1
  unfold Hop.next
  by_cases plain : (hop.after node).groupId = 0
  · rw [if_pos plain]
    exact if_neg (not_not.mpr plain)
  · rw [if_neg plain]
    exact if_pos plain

/-- The group of a place that can be read gives its first bucket, or fails. -/
theorem lookup_firstBucket {ent : FlEntry} {args : UflowArgs}
    (readable : Readable node (.group args.groupId)) :
    uflowStep node { args, rule := some ent } =
      match firstBucket node args.groupId with
      | none => .done (some .flowModFailed)
      | some bucket => traverseActions node ent bucket.actions true args := by
  simp only [uflowStep, firstBucket]
  cases found : RefTable.lookup node.sw.groups args.groupId with
  | none => rfl
  | some grp =>
    cases expired : hasFlag grp.body.flags grpExpired with
    | true => simp [Option.filter, expired]
    | false =>
      cases vectors : grp.body.actVectors with
      | nil => exact absurd vectors (readable grp found expired)
      | cons bucket rest => simp [Option.filter, expired, vectors]

/-- A turn at a readable place follows the list it meets, or fails. -/
theorem uflowStep_eq {state : UflowState} (readable : Readable node state.place) :
    uflowStep node state =
      match state.hop node with
      | none => .done (some .flowModFailed)
      | some hop =>
        traverseActions node hop.rule hop.actions (hop.place matches .group _) hop.args := by
  obtain ⟨args, rule⟩ := state
  cases rule with
  | none =>
    simp only [uflowStep, doFlowLookupSlow_ruleFor args.fl readable, UflowState.hop]
    cases ruleFor node args.fl <;> rfl
  | some ent =>
    rw [lookup_firstBucket readable, UflowState.hop]
    cases firstBucket node args.groupId <;> rfl

theorem uflowStep_strays {state : UflowState} (strays : ¬Readable node state.place) :
    uflowStep node state = .done none := by
  obtain ⟨args, rule⟩ := state
  cases rule with
  | none =>
    have past := not_or.mp strays
    have bytes : (headPastTables node.xphysMapTbl).all (· == 0) = false := by
      simpa using past.2
    simp only [uflowStep, doFlowLookupSlow, if_neg past.1, bytes, Bool.false_eq_true, if_false]
  | some ent =>
    simp only [UflowState.place, Readable, not_forall, not_not] at strays
    obtain ⟨grp, found, alive, empty⟩ := strays
    simp [uflowStep, found, alive, empty]

theorem UflowState.hop_place {state : UflowState} {hop : Hop} (met : state.hop node = some hop) :
    hop.place = state.place := by
  unfold UflowState.hop at met
  split at met <;>
  · obtain ⟨_, -, rfl⟩ := Option.map_eq_some_iff.mp met
    rfl

/-- What is met could be read. -/
theorem hop_readable {state : UflowState} (met : state.hop node = some hop) :
    Readable node state.place := by
  obtain ⟨args, rule⟩ := state
  cases rule with
  | none =>
    obtain ⟨ent, found, -⟩ := Option.map_eq_some_iff.mp met
    unfold ruleFor at found
    split at found
    · rename_i inside
      exact .inl inside
    · cases found
  | some ent =>
    obtain ⟨bucket, found, -⟩ := Option.map_eq_some_iff.mp met
    intro grp known _ empty
    simp [firstBucket, known, Option.bind_eq_some_iff, Option.filter_eq_some_iff, empty] at found

/-- A turn goes on exactly along a list without output. -/
theorem uflowStep_next_iff {state next : UflowState} : uflowStep node state = .next next ↔
    ∃ hop, state.hop node = some hop ∧ (hop.after node).outPort = 0 ∧ next = hop.next node := by
  by_cases readable : Readable node state.place
  · rw [uflowStep_eq readable]
    cases met : state.hop node with
    | none => simp
    | some hop =>
      simp only [traverseActions_eq, Option.some.injEq, exists_eq_left']
      split
      · simp_all
      · simp_all [eq_comm]
  · rw [uflowStep_strays readable]
    refine iff_of_false nofun ?_
    rintro ⟨hop, met, -⟩
    exact readable (hop_readable met)

theorem visits_next (visited : Visits (uflowStep node) start state)
    (met : state.hop node = some hop) (silent : (hop.after node).outPort = 0) :
    Visits (uflowStep node) start (hop.next node) :=
  visited.trans (.later (uflowStep_next_iff.mpr ⟨hop, met, silent, rfl⟩) (.here _))

/-- The list that the turn after one on the way meets is on the way. -/
theorem OnWay.next {later : Hop} (earlier : OnWay node flow hop)
    (silent : (hop.after node).outPort = 0) (met : (hop.next node).hop node = some later) :
    OnWay node flow later := by
  unfold UflowState.hop Hop.next at met
  by_cases plain : (hop.after node).groupId = 0
  · simp only [if_pos plain] at met
    obtain ⟨rule, found, rfl⟩ := Option.map_eq_some_iff.mp met
    exact .table earlier silent plain found
  · simp only [if_neg plain] at met
    obtain ⟨bucket, found, rfl⟩ := Option.map_eq_some_iff.mp met
    exact .group earlier silent plain found

theorem onWay_of_visits (visited : Visits (uflowStep node) (uflowStart flow) state)
    (met : state.hop node = some hop) : OnWay node flow hop := by
  refine visited.invariant (fun state => ∀ hop, state.hop node = some hop →
    OnWay node flow hop) ?_ ?_ hop met
  · intro state next known continues later met
    obtain ⟨earlier, before, silent, rfl⟩ := uflowStep_next_iff.mp continues
    exact (known earlier before).next silent met
  · intro hop met
    obtain ⟨rule, found, rfl⟩ := Option.map_eq_some_iff.mp met
    exact .first found

/-- The query starts a turn with the packet it was asked for, or after a list on the way. -/
theorem visits_cases (visited : Visits (uflowStep node) (uflowStart flow) state) :
    state = uflowStart flow ∨
      ∃ hop, OnWay node flow hop ∧ (hop.after node).outPort = 0 ∧ state = hop.next node := by
  refine (visited.invariant (fun state => Visits (uflowStep node) (uflowStart flow) state ∧
    (state = uflowStart flow ∨ ∃ hop, OnWay node flow hop ∧ (hop.after node).outPort = 0 ∧
      state = hop.next node)) ?_ ⟨.here _, .inl rfl⟩).2
  rintro state next ⟨visited, -⟩ continues
  obtain ⟨hop, met, silent, rfl⟩ := uflowStep_next_iff.mp continues
  exact ⟨visited.trans (.later continues (.here _)),
    .inr ⟨hop, onWay_of_visits visited met, silent, rfl⟩⟩

theorem OnWay.visited (onWay : OnWay node flow hop) :
    ∃ state, Visits (uflowStep node) (uflowStart flow) state ∧ state.hop node = some hop := by
  induction onWay with
  | first found => exact ⟨_, .here _, Option.map_eq_some_iff.mpr ⟨_, found, rfl⟩⟩
  | @table hop rule _ silent plain found ih =>
    obtain ⟨state, visited, met⟩ := ih
    refine ⟨hop.next node, visits_next visited met silent, ?_⟩
    simp only [UflowState.hop, Hop.next, if_pos plain, found, UflowState.place, Option.map_some]
  | @group hop bucket _ silent named found ih =>
    obtain ⟨state, visited, met⟩ := ih
    refine ⟨hop.next node, visits_next visited met silent, ?_⟩
    simp only [UflowState.hop, Hop.next, if_neg named, found, UflowState.place, Option.map_some]

end Turns

end OpenMul
