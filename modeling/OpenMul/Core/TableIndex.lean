import OpenMul.Core.Multipart
import OpenMul.Core.PacketSlice
import OpenMul.Core.ReadLoop
import OpenMul.Core.UflowQuery

namespace OpenMul

open Lib List

/-- `of_switch_table_valid`. -/
def CtrlSwitch.tableValidAccess (node : CtrlSwitch) (table : Nat) : List Nat :=
  if table ≠ 0 && node.sw.ofpCtors.multiTableSupport then [table] else []

/-- `c_flow_rule_add` and `c_flow_rule_del`, which a direct flow-mod does not call. -/
def flowModRequestAccess (msg : FlowModMsg) (p : FlowModParams) (sw : Switch) : List Nat :=
  if msg.has flEntNocache then [] else if flowModValidateParms sw p then [tableOf p] else []

/-- One round from `loop_mtable` on. -/
def flowModRoundAccess (msg : FlowModMsg) (app : App) (table : Nat) (run : FlowModRun) : List Nat :=
  (if run.node.debugFlag || !run.node.portValid run.flow run.mask then []
    else run.node.tableValidAccess table) ++
  match run.allowed msg.add table with
  | none => []
  | some checked => flowModRequestAccess msg (checked.params msg app) checked.node.sw

/-- The tables the replication looks at on its way to the next valid one. -/
def tablesBetween (table stop : Nat) : List Nat := (range stop).filter fun next =>
    decide (table < next)

/-- All rounds of a command. -/
def flowModRoundsAccess (msg : FlowModMsg) (app : App) (now table : Nat) :
    List Nat → FlowModRun → List Nat
  | [], run =>
    flowModRoundAccess msg app table run ++
    match flowModRound msg app now table run with
    | (done, some ret) =>
      if ret = 0 && replicates msg done.node.sw then tablesBetween table maxRuleFlowTbls else []
    | _ => []
  | next :: above, run =>
    flowModRoundAccess msg app table run ++
    match flowModRound msg app now table run with
    | (done, some ret) =>
      if ret = 0 && replicates msg done.node.sw then
        tablesBetween table (next + 1) ++ flowModRoundsAccess msg app now next above
          (done.nextTable next)
      else []
    | _ => []

/-- The locals of a flow-mod when it first goes into the tables, with the switch it
is for. -/
def Controller.flowModStart (ctrl : Controller) (appArg : App) (msg : FlowModMsg) :
    Option (FlowModRun × App) :=
  if msg.allWildcard then none
  else
    match ctrl.flowModSwitch msg with
    | none => none
    | some (pos, node) =>
      let (held, app) := (ctrl.switchGet pos).commandApp appArg
      if msg.badFlags then none
      else
        match normalizeMsg node msg with
        | .error _ => none
        | .ok (flow, mask) =>
          some (FlowModRun.start { node with sw := node.sw.withRef held.appRef } msg flow mask, app)

/-- `c_app_flow_mod_wrk_command`. The properties of the table are read before
anything is tested. -/
def Controller.flowModAccess (ctrl : Controller) (appArg : App) (msg : FlowModMsg) (now : Nat) :
    List Nat :=
  match ctrl.flowModStart appArg msg with
  | none => []
  | some (start, app) =>
    let table := start.flow.tableId.toNat
    table :: flowModRoundsAccess msg app now table (start.node.tablesAbove table) start

/-- What `c_flow_stats_update` meets at a record: the flow-mod it makes for a flow that
is not known while the flows are probed, with the state then. -/
structure ProbedFlow where
  ctrl : Controller
  vty : App
  msg : FlowModMsg
  now : Nat

/-- The residual flow-mod for a table. -/
def ProbedFlow.residual (probed : ProbedFlow) (table : Byte) : FlowModMsg :=
  { probed.msg with
    flow := { probed.msg.flow with tableId := table }
    flags := setFlag probed.msg.flags flEntTblPhys }

/-- `c_flow_stats_update`: a flow without a cookie is searched in its table. -/
def flowStatsUpdateAccess (table : Byte) (cookie : BitVec 64) (probed : Option ProbedFlow) :
    List Nat :=
  (if cookie = 0 then [table.toNat] else []) ++
  probed.elim [] fun probed =>
    probed.ctrl.flowModAccess probed.vty (probed.residual table) probed.now

/-- A byte of a message. -/
def byteAt (mem : List Byte) (ofs : Nat) : Byte := wordAt 8 (mem.drop ofs)

/-- What `of13_14_mpart_process` does with one record. The properties of a table are
stored at the same index as its enabling. -/
def mpartRecordAccess (mem : List Byte) (probed : Nat → Option ProbedFlow) (visit : Visit) :
    OfpMultipart → List Nat
  | .table => [(byteAt mem visit.ofs).toNat]
  | .tableFeatures => [(byteAt mem (visit.ofs + 2)).toNat]
  | .flow =>
    if visit.taken then
      flowStatsUpdateAccess (byteAt mem (visit.ofs + 2)) (wordAt 64 (mem.drop (visit.ofs + 24)))
        (probed visit.ofs)
    else []
  | _ => []

/-- What `of10_recv_stats_reply` does with one record: flows are in table 0. -/
def statsRecordAccess (mem : List Byte) (probed : Nat → Option ProbedFlow) (visit : Visit) :
    OfpStats → List Nat
  | .flow => flowStatsUpdateAccess 0 (wordAt 64 (mem.drop (visit.ofs + 64))) (probed visit.ofs)
  | .port => []

def ofpErrorMsgSz : Nat := 12
def ofp131FlowModSz : Nat := 56
def ofp131FlowModMatch : Nat := 48

/-- The types `of131_recv_err_msg` parses the data of. -/
def parsesErrData (type : Nat) : Bool := decide (type ∈ [1, 2, 3, 4, 5, 6, 12])

/-- `of131_recv_err_flow_mod`. With a cookie the flow is searched by that, also if the
match is cut off. -/
def of131RecvErrFlowModAccess (ofpMod : List Byte) (msgLen : Nat) : List Nat :=
  let matchLen := cAlign8bLen (ntohsAt ofpMod (ofp131FlowModMatch + 2))
  if msgLen < ofp131FlowModSz ∨ msgLen < ofp131FlowModSz + matchLen - ofpxMatchHdrSz then []
  else if (of131OfpxMatchToFlow (ofpMod.drop ofp131FlowModMatch)).1 ≠ 0 then []
  else if wordAt 64 (ofpMod.drop 8) = 0 then [(byteAt ofpMod 24).toNat]
  else []

/-- `of131_recv_err_msg`. The handlers of a 1.4 connection that is being set up let a
message through that has no more than its header, and then the length is negative. -/
def of131RecvErrMsgAccess (init140 : Bool) (mem : List Byte) : List Nat :=
  let origLen := sizeT ((ofHdrLength mem : Int) - ofpErrorMsgSz)
  let ofp := mem.drop ofpErrorMsgSz
  if ofHdrLength mem < (if init140 then ofpHeaderSz else ofpErrorMsgSz) then []
  else if parsesErrData (ntohsAt mem 8) = false ∨ origLen < ofpHeaderSz then []
  else if byteAt ofp 1 = 14 then of131RecvErrFlowModAccess ofp origLen
  else []

/-- `of10_recv_err_msg`, with `of10_recv_flow_mod_failed`: flows are in table 0. -/
def of10RecvErrMsgAccess (mem : List Byte) : List Nat :=
  if ofHdrLength mem < ofpErrorMsgSz then []
  else if ntohsAt mem 8 = 3 ∧ wordAt 64 (mem.drop (ofpErrorMsgSz + 48)) = 0 then [0]
  else []

/-- A turn of `c_app_send_modify_flow_info`: the lookup, and the properties of the table
that the rule it found is for. -/
def uflowTurnAccess (node : CtrlSwitch) (state : UflowState) : List Nat :=
  match state.rule with
  | some _ => []
  | none =>
    state.args.fl.tableId.toNat ::
      match doFlowLookupSlow node.sw node.xphysMapTbl state.args.fl true with
      | some (some ent) => [ent.fl.tableId.toNat]
      | _ => []

/-- The messages that come near the tables, with what the switch or the controller is
like when they are handled. `whole` tells whether a command has its full length. -/
inductive TableMsg where
  /-- `slowPath` tells whether `c_l2_lrn_fwd` hands the packet on to `of_dfl_fwd`, with
  a flow read anew. -/
  | packetIn (version : OfpVersion) (rx : RxState) (slowPath : Bool) (mem : List Byte)
  | flowRemoved (mem : List Byte)
  | mpartReply (sw : MpartState) (probed : Nat → Option ProbedFlow) (mem : List Byte)
  | statsReply (probed : Nat → Option ProbedFlow) (mem : List Byte)
  | errorMsg (version : OfpVersion) (init140 : Bool) (mem : List Byte)
  | flowMod (ctrl : Controller) (app : App) (msg : FlowModMsg) (now : Nat)
  /-- `C_AUX_CMD_MUL_SWITCH_GET_TBL_STATS` of an application. -/
  | tableStats (ctrl : Controller) (whole : Bool) (dpid : BitVec 64) (table : Byte)
  /-- `C_AUX_CMD_MUL_SWITCH_TABLE_FEAT` of an application. -/
  | tableFeat (ctrl : Controller) (whole : Bool) (dpid : BitVec 64) (table : Byte)
  /-- `C_AUX_CMD_MUL_GET_FLOW` of an application. -/
  | getFlow (ctrl : Controller) (whole : Bool) (dpid : BitVec 64) (flow : Flow)
  /-- `C_AUX_CMD_MUL_MOD_UFLOW` of an application. -/
  | modUflow (ctrl : Controller) (whole : Bool) (dpid : BitVec 64) (flow : Flow)

/-- What a command on a switch does, if it has its full length and the switch is known. -/
def Controller.commandAccess (ctrl : Controller) (whole : Bool) (dpid : BitVec 64)
    (indices : List Nat) : List Nat :=
  if whole && (ctrl.deref (ctrl.swHashTbl dpid)).isSome then indices else []

/-- The indices used while a message is processed, in the first turns of a loop that has no
count. Walks over all tables by number are left out. -/
def TableMsg.accesses (turns : Nat) : TableMsg → List Nat
  | .packetIn version rx slowPath mem =>
    match switchRecvPacketIn version rx mem with
    | none => []
    | some pkt =>
      if rx.onlyL2 then if slowPath then [0] else []
      else [pkt.fl.tableId.toNat]
  | .flowRemoved _ => []
  | .mpartReply sw probed mem =>
    match OfpMultipart.ofCode (ntohsAt mem 8) with
    | none => []
    | some type =>
      (of1314MpartProcess sw mem).flatMap fun visit => mpartRecordAccess mem probed visit type
  | .statsReply probed mem =>
    match OfpStats.ofCode (ntohsAt mem 8) with
    | none => []
    | some type =>
      (of10RecvStatsReply turns mem).flatMap fun visit => statsRecordAccess mem probed visit type
  | .errorMsg .of10 _ mem => of10RecvErrMsgAccess mem
  | .errorMsg .of131 init140 mem => of131RecvErrMsgAccess init140 mem
  | .flowMod ctrl app msg now => if msg.whole then ctrl.flowModAccess app msg now else []
  | .tableStats ctrl whole dpid table => ctrl.commandAccess whole dpid [table.toNat]
  | .tableFeat ctrl whole dpid table =>
    ctrl.commandAccess whole dpid (if table.toNat < maxRuleFlowTbls then [table.toNat] else [])
  | .getFlow ctrl whole dpid flow => ctrl.commandAccess whole dpid [flow.tableId.toNat]
  | .modUflow ctrl whole dpid flow =>
    match ctrl.uflowSwitch whole dpid with
    | .error _ => []
    | .ok node =>
      (Step.trace (uflowStep node) turns (uflowStart flow)).flatMap (uflowTurnAccess node)

/-- The table a flow-mod goes into, if it gets there. -/
def Controller.flowModTable (ctrl : Controller) (appArg : App) (msg : FlowModMsg) : Option Byte :=
  (ctrl.flowModStart appArg msg).map fun start => start.1.flow.tableId

/-- The table id behind the last table. -/
def noTable : Byte := 255

/-- A statistics record of a flow in no table, or one that becomes such a flow-mod. -/
def FlowStatsOverrun (table : Byte) (cookie : BitVec 64) (probed : Option ProbedFlow) : Prop :=
  (cookie = 0 ∧ table = noTable) ∨
    ∃ flow, probed = some flow ∧
      flow.ctrl.flowModTable flow.vty (flow.residual table) = some noTable

/-- A flow statistics record that is taken: it is in the message, and its match, which
parses, is in it. -/
structure FlowRecord (mem : List Byte) (pos : Nat) : Prop where
  header : pos + ofp131FlowStatsSz ≤ ofHdrLength mem
  record : pos + ntohsAt mem pos ≤ ofHdrLength mem
  matchFits : ofp131FlowStatsMatch + cAlign8bLen (ntohsAt mem (pos + ofp131FlowStatsMatch + 2)) ≤
    ntohsAt mem pos
  parses : (of131OfpxMatchToFlow (mem.drop (pos + ofp131FlowStatsMatch))).1 = 0

/-- A record of a reply names table 255, and those before lead up to it. -/
def MpartOverrun (mem : List Byte) (probed : Nat → Option ProbedFlow) : OfpMultipart → Prop
  | .table => ∃ count < 256,
      ofpMultipartReplySz + ofp131TableStatsSz * (count + 1) ≤ ofHdrLength mem ∧
      byteAt mem (ofpMultipartReplySz + ofp131TableStatsSz * count) = noTable
  | .tableFeatures =>
    ∃ count < maxRuleFlowTbls, let start := recordStart (ntohsAt mem) ofpMultipartReplySz
      (∀ earlier ≤ count, ofpTableFeaturesSz ≤ sizeT ((ofHdrLength mem : Int) - start earlier)) ∧
      byteAt mem (start count + 2) = noTable
  | .flow =>
    ∃ count < ofswMaxFlowStatsColl, let start := recordStart (ntohsAt mem) ofpMultipartReplySz
      (∀ earlier ≤ count, FlowRecord mem (start earlier)) ∧
      FlowStatsOverrun (byteAt mem (start count + 2)) (wordAt 64 (mem.drop (start count + 24)))
        (probed (start count))
  | _ => False

/-- A record of a 1.0 reply becomes a flow-mod for table 255. The loop ends at a record
without actions. -/
def StatsOverrun (mem : List Byte) (probed : Nat → Option ProbedFlow) : Prop :=
  ∃ count, let start := recordStart (ntohsAt mem) ofpStatsReplySz
    (∀ earlier ≤ count, start earlier < ofHdrLength mem) ∧
    (∀ earlier < count, ntohsAt mem (start earlier) ≠ ofpFlowStatsSz) ∧
    FlowStatsOverrun 0 (wordAt 64 (mem.drop (start count + 64))) (probed (start count))

/-- An error that gives back a flow-mod for table 255 without a cookie, whole up to the end
of its match. -/
structure ErrOverrun (init140 : Bool) (mem : List Byte) : Prop where
  least : (if init140 then ofpHeaderSz else ofpErrorMsgSz) ≤ ofHdrLength mem
  type : parsesErrData (ntohsAt mem 8) = true
  flowMod : byteAt mem 13 = 14
  header : ofp131FlowModSz ≤ sizeT ((ofHdrLength mem : Int) - ofpErrorMsgSz)
  matchFits : ofp131FlowModSz + cAlign8bLen (ntohsAt mem 62) - ofpxMatchHdrSz ≤
    sizeT ((ofHdrLength mem : Int) - ofpErrorMsgSz)
  parses : (of131OfpxMatchToFlow (mem.drop 60)).1 = 0
  cookie : wordAt 64 (mem.drop 20) = 0
  table : byteAt mem 36 = noTable

/-- The packet comes to table 255, or to a rule that says it is in table 255. -/
def UflowOverrun (node : CtrlSwitch) (flow : Flow) : Prop :=
  flow.tableId = noTable ∨ ∃ hop, OnWay node flow hop ∧
    ((∃ id, hop.place = .table id) ∧ hop.rule.fl.tableId = noTable ∨
      (hop.after node).outPort = 0 ∧ (hop.after node).groupId = 0 ∧
        (hop.after node).fl.tableId = noTable)

/-- A command for table 255 of a known switch. -/
def Controller.CommandOverrun (ctrl : Controller) (whole : Bool) (dpid : BitVec 64) (table : Byte) :
    Prop :=
  whole = true ∧ (ctrl.deref (ctrl.swHashTbl dpid)).isSome = true ∧ table = noTable

/-- The table id 255 gets to a handler that does not test it. -/
def TableMsg.Overruns : TableMsg → Prop
  | .packetIn version rx _ mem => version = .of131 ∧ rx.onlyL2 = false ∧ byteAt mem 15 = noTable ∧
      (switchRecvPacketIn version rx mem).isSome = true
  | .flowRemoved _ => False
  | .mpartReply _ probed mem => ofpMultipartReplySz ≤ ofHdrLength mem ∧
      ∃ type, OfpMultipart.ofCode (ntohsAt mem 8) = some type ∧ MpartOverrun mem probed type
  | .statsReply probed mem => OfpStats.ofCode (ntohsAt mem 8) = some .flow ∧ StatsOverrun mem probed
  | .errorMsg version init140 mem => version = .of131 ∧ ErrOverrun init140 mem
  | .flowMod ctrl app msg _ => msg.whole = true ∧ ctrl.flowModTable app msg = some noTable
  | .tableStats ctrl whole dpid table => ctrl.CommandOverrun whole dpid table
  | .tableFeat _ _ _ _ => False
  | .getFlow ctrl whole dpid flow => ctrl.CommandOverrun whole dpid flow.tableId
  | .modUflow ctrl whole dpid flow =>
    ∃ node, ctrl.uflowSwitch whole dpid = .ok node ∧ UflowOverrun node flow

theorem byte_lt_iff (table : Byte) : table.toNat < maxRuleFlowTbls ↔ table ≠ noTable := by
  rw [Ne, ← BitVec.toNat_inj, show noTable.toNat = 255 from rfl,
    show maxRuleFlowTbls = 255 from rfl]
  omega

section FlowMod

variable {msg : FlowModMsg} {app : App} {now table : Nat} {run : FlowModRun}

theorem flowModRequestAccess_lt :
    ∀ index ∈ flowModRequestAccess msg p sw, index < maxRuleFlowTbls := by
  intro index member
  unfold flowModRequestAccess at member
  split at member
  · cases member
  · split at member
    · rename_i valid
      rw [mem_singleton.mp member]
      exact tableOf_lt valid
    · cases member

theorem flowModRoundAccess_lt (bounded : table < maxRuleFlowTbls) :
    ∀ index ∈ flowModRoundAccess msg app table run, index < maxRuleFlowTbls := by
  intro index member
  rcases mem_append.mp member with tested | requested
  · split at tested
    · cases tested
    · unfold CtrlSwitch.tableValidAccess at tested
      split at tested
      · rw [mem_singleton.mp tested]
        exact bounded
      · cases tested
  · split at requested
    · cases requested
    · exact flowModRequestAccess_lt index requested

theorem tablesBetween_lt (bounded : stop ≤ maxRuleFlowTbls) :
    ∀ index ∈ tablesBetween table stop, index < maxRuleFlowTbls := by
  intro index member
  exact Nat.lt_of_lt_of_le (mem_range.mp (mem_filter.mp member).1) bounded

theorem flowModRoundsAccess_lt (bounded : table < maxRuleFlowTbls)
    (valid : ∀ next ∈ above, next < maxRuleFlowTbls) :
    ∀ index ∈ flowModRoundsAccess msg app now table above run, index < maxRuleFlowTbls := by
  induction above generalizing table run with
  | nil =>
    intro index member
    rcases mem_append.mp member with round | scanned
    · exact flowModRoundAccess_lt bounded index round
    · split at scanned
      · split at scanned
        · exact tablesBetween_lt (Nat.le_refl _) index scanned
        · cases scanned
      · cases scanned
  | cons next above ih =>
    have nextBounded := valid next mem_cons_self
    intro index member
    rcases mem_append.mp member with round | rest
    · exact flowModRoundAccess_lt bounded index round
    · split at rest
      · split at rest
        · rcases mem_append.mp rest with scanned | later
          · exact tablesBetween_lt nextBounded index scanned
          · exact ih nextBounded (fun table member => valid table (mem_cons_of_mem _ member))
              index later
        · cases rest
      · cases rest

/-- A flow-mod stays inside the tables if the table it goes into is one. -/
theorem flowModAccess_lt_iff (ctrl : Controller) (app : App) (msg : FlowModMsg) (now : Nat) :
    (∀ index ∈ ctrl.flowModAccess app msg now, index < maxRuleFlowTbls) ↔
      ctrl.flowModTable app msg ≠ some noTable := by
  unfold Controller.flowModAccess Controller.flowModTable
  cases ctrl.flowModStart app msg with
  | none => simp
  | some found =>
    rw [Option.map_some, Ne, Option.some_inj, ← Ne, ← byte_lt_iff, forall_mem_cons]
    constructor
    · intro inside
      exact inside.1
    · intro bounded
      exact ⟨bounded, flowModRoundsAccess_lt bounded (CtrlSwitch.tablesAbove_lt _ _)⟩

end FlowMod

theorem flowStatsUpdateAccess_lt_iff (table : Byte) (cookie : BitVec 64)
    (probed : Option ProbedFlow) :
    (∀ index ∈ flowStatsUpdateAccess table cookie probed, index < maxRuleFlowTbls) ↔
      ¬FlowStatsOverrun table cookie probed := by
  have searched : (∀ index ∈ (if cookie = 0 then [table.toNat] else []), index < maxRuleFlowTbls) ↔
      ¬(cookie = 0 ∧ table = noTable) := by
    split
    · rename_i zero
      simp [zero, byte_lt_iff]
    · rename_i given
      exact ⟨fun _ both => given both.1, fun _ => forall_mem_nil _⟩
  have made : (∀ index ∈ probed.elim [] fun flow =>
      flow.ctrl.flowModAccess flow.vty (flow.residual table) flow.now, index < maxRuleFlowTbls) ↔
      ¬∃ flow, probed = some flow ∧
        flow.ctrl.flowModTable flow.vty (flow.residual table) = some noTable := by
    cases probed with
    | none => simp
    | some flow => simp [flowModAccess_lt_iff]
  unfold flowStatsUpdateAccess FlowStatsOverrun
  rw [forall_mem_append, searched, made, not_or]

/-- What a record must be for its handling to go past the tables. -/
def RecordOverrun (mem : List Byte) (probed : Nat → Option ProbedFlow) (visit : Visit) :
    OfpMultipart → Prop
  | .table => byteAt mem visit.ofs = noTable
  | .tableFeatures => byteAt mem (visit.ofs + 2) = noTable
  | .flow => visit.taken = true ∧
      FlowStatsOverrun (byteAt mem (visit.ofs + 2)) (wordAt 64 (mem.drop (visit.ofs + 24)))
        (probed visit.ofs)
  | _ => False

theorem mpartRecordAccess_lt_iff (mem : List Byte) (probed : Nat → Option ProbedFlow)
    (visit : Visit) (type : OfpMultipart) :
    (∀ index ∈ mpartRecordAccess mem probed visit type, index < maxRuleFlowTbls) ↔
      ¬RecordOverrun mem probed visit type := by
  cases type with
  | table | tableFeatures => simp [mpartRecordAccess, RecordOverrun, byte_lt_iff]
  | flow =>
    unfold mpartRecordAccess RecordOverrun
    cases visit.taken with
    | false => simp
    | true => simpa using flowStatsUpdateAccess_lt_iff _ _ _
  | _ => simp [mpartRecordAccess, RecordOverrun]

section Replies

variable (mem : List Byte) (probed : Nat → Option ProbedFlow) (sw : MpartState)

theorem forall_le_iff {count : Nat} {goal : Nat → Prop} : (∀ earlier ≤ count, goal earlier) ↔
    (∀ earlier < count, goal earlier) ∧ goal count := by
  simp only [Nat.le_iff_lt_or_eq, or_imp, forall_and, forall_eq]

theorem tableStats_overrun_iff :
    (∃ visit ∈ (mpartRecords sw mem .table).visits ofpMultipartReplySz (ofHdrLength mem),
      byteAt mem visit.ofs = noTable) ↔ MpartOverrun mem probed .table := by
  have steps : ∀ pos left step, ((fixedLoop ofp131TableStatsSz).turn pos left).step = some step →
      step = (fun _ => ofp131TableStatsSz) pos := by
    intro pos left step stepped
    exact (Option.some.inj stepped).symm
  refine (RecordLoop.exists_mem_walk_iff steps).trans (exists_congr fun count => and_congr_right
    fun _ => ?_)
  simp only [recordStart_const, fixedLoop, Turn.visit_ofs, Turn.step, decide_eq_true_eq,
    Option.isSome_some, and_true, ← and_assoc]
  refine and_congr_left fun _ => ?_
  simp only [ofpMultipartReplySz, ofp131TableStatsSz]
  constructor
  · intro ⟨_, entered⟩
    omega
  · intro fits
    refine ⟨fun earlier before => ?_, ?_⟩ <;> omega

theorem tableFeatures_overrun_iff :
    (∃ visit ∈ (mpartRecords sw mem .tableFeatures).visits ofpMultipartReplySz (ofHdrLength mem),
      byteAt mem (visit.ofs + 2) = noTable) ↔ MpartOverrun mem probed .tableFeatures := by
  have steps : ∀ pos left step, ((tableFeaturesLoop mem).turn pos left).step = some step →
      step = ntohsAt mem pos := by
    intro pos left step stepped
    simpa [tableFeaturesLoop, lengthTurn, Turn.step, eq_comm] using stepped
  refine (RecordLoop.exists_mem_walk_iff steps).trans (exists_congr fun count => and_congr_right
    fun _ => ?_)
  simp [tableFeaturesLoop, lengthTurn, Turn.step, forall_le_iff, and_assoc]

theorem of131ProcOneFlowStats_nonneg (pos : Nat) : ¬of131ProcOneFlowStats mem pos < 0 ↔
    ofp131FlowStatsMatch + cAlign8bLen (ntohsAt mem (pos + ofp131FlowStatsMatch + 2)) ≤
      ntohsAt mem pos ∧ (of131OfpxMatchToFlow (mem.drop (pos + ofp131FlowStatsMatch))).1 = 0 := by
  unfold of131ProcOneFlowStats
  dsimp only
  split
  · omega
  split
  · rename_i refused
    exact iff_of_false (by decide) fun both => refused both.2
  · rename_i fits parsed
    exact iff_of_true fits ⟨by omega, not_not.mp parsed⟩

theorem flowStatsLoop_step (pos : Nat) :
    (flowStatsLoop mem).enters ((ofHdrLength mem : Int) - pos) = true ∧
      ((flowStatsLoop mem).turn pos ((ofHdrLength mem : Int) - pos)).step.isSome = true ↔
        FlowRecord mem pos := by
  have record : FlowRecord mem pos ↔ (ofp131FlowStatsSz : Int) ≤ (ofHdrLength mem : Int) - pos ∧
      ¬(ofHdrLength mem : Int) - pos < ntohsAt mem pos ∧ ¬of131ProcOneFlowStats mem pos < 0 := by
    rw [of131ProcOneFlowStats_nonneg]
    constructor
    · rintro ⟨header, inside, fits, parses⟩
      exact ⟨by omega, by omega, fits, parses⟩
    · rintro ⟨header, inside, fits, parses⟩
      exact ⟨by omega, by omega, fits, parses⟩
  rw [record]
  simp only [flowStatsLoop, decide_eq_true_eq]
  refine and_congr_right fun _ => ?_
  split
  · simp_all [Turn.step]
  split
  · simp_all [Turn.step]
  · simp_all [Turn.step]

theorem flowStatsLoop_taken (pos : Nat) (left : Int) :
    (((flowStatsLoop mem).turn pos left).visit pos).taken =
      ((flowStatsLoop mem).turn pos left).step.isSome := by
  simp only [flowStatsLoop]
  split
  · rfl
  split <;> rfl

theorem flowStats_overrun_iff :
    (∃ visit ∈ (mpartRecords sw mem .flow).visits ofpMultipartReplySz (ofHdrLength mem),
      RecordOverrun mem probed visit .flow) ↔ MpartOverrun mem probed .flow := by
  have steps : ∀ pos left step, ((flowStatsLoop mem).turn pos left).step = some step →
      step = ntohsAt mem pos := by
    intro pos left step stepped
    simp only [flowStatsLoop] at stepped
    split at stepped
    · cases stepped
    · split at stepped
      · cases stepped
      · exact (Option.some.inj stepped).symm
  refine (RecordLoop.exists_mem_walk_iff steps).trans (exists_congr fun count => and_congr_right
    fun _ => ?_)
  simp only [flowStatsLoop_step, flowStatsLoop_taken, RecordOverrun, Turn.visit_ofs, forall_le_iff]
  rw [and_assoc]
  exact and_congr_right fun _ => by rw [← flowStatsLoop_step, and_assoc]

theorem mpartRecords_overrun_iff (type : OfpMultipart) :
    (∃ visit ∈ (mpartRecords sw mem type).visits ofpMultipartReplySz (ofHdrLength mem),
      RecordOverrun mem probed visit type) ↔ MpartOverrun mem probed type := by
  cases type with
  | table => exact tableStats_overrun_iff mem probed sw
  | tableFeatures => exact tableFeatures_overrun_iff mem probed sw
  | flow => exact flowStats_overrun_iff mem probed sw
  | _ => simp [RecordOverrun, MpartOverrun]

theorem of10FlowStatsLoop_step (pos : Nat) (left : Int) :
    ((of10FlowStatsLoop mem).turn pos left).step =
    if ntohsAt mem pos = ofpFlowStatsSz then none else some (ntohsAt mem pos) := by
  by_cases empty : ntohsAt mem pos = ofpFlowStatsSz
  · have zero : of10ProcOneFlowStats mem pos = 0 := by
      rw [of10ProcOneFlowStats, empty, Int.sub_self]
    simp [of10FlowStatsLoop, zero, empty, Turn.step]
  · have some : of10ProcOneFlowStats mem pos ≠ 0 := by
      unfold of10ProcOneFlowStats
      omega
    have length : (ofpFlowStatsSz + of10ProcOneFlowStats mem pos).toNat = ntohsAt mem pos := by
      unfold of10ProcOneFlowStats
      omega
    simp [of10FlowStatsLoop, some, empty, length, Turn.step]

theorem of10FlowStats_overrun_iff (found : OfpStats.ofCode (ntohsAt mem 8) = some .flow) :
    (∃ turns, ∃ visit ∈ of10RecvStatsReply turns mem,
      FlowStatsOverrun 0 (wordAt 64 (mem.drop (visit.ofs + 64))) (probed visit.ofs)) ↔
        StatsOverrun mem probed := by
  have steps : ∀ pos left step, ((of10FlowStatsLoop mem).turn pos left).step = some step →
      step = ntohsAt mem pos := by
    intro pos left step stepped
    rw [of10FlowStatsLoop_step] at stepped
    split at stepped <;> cases stepped
    rfl
  have goes : ∀ pos left, ((of10FlowStatsLoop mem).turn pos left).step.isSome = true ↔
      ntohsAt mem pos ≠ ofpFlowStatsSz := by
    intro pos left
    rw [of10FlowStatsLoop_step]
    split <;> simp_all
  have enters : ∀ pos : Nat, (of10FlowStatsLoop mem).enters ((ofHdrLength mem : Int) - pos) = true ↔
      pos < ofHdrLength mem := by
    intro pos
    rw [of10FlowStatsLoop, decide_eq_true_eq]
    omega
  unfold of10RecvStatsReply StatsOverrun
  by_cases short : ofHdrLength mem < ofpStatsReplySz
  · simp only [if_pos short]
    refine iff_of_false nofun ?_
    rintro ⟨count, entered, -⟩
    exact absurd (entered 0 (Nat.zero_le _)) (Nat.not_lt.mpr (Nat.le_of_lt short))
  · simp only [if_neg short, found, statsRecords, Records.visits,
      RecordLoop.exists_mem_walk_iff steps, enters, goes, forall_le_iff, Turn.visit_ofs, forall_and]
    constructor
    · rintro ⟨turns, count, -, ⟨entered, goes⟩, here, overran⟩
      exact ⟨count, ⟨entered, here⟩, goes, overran⟩
    · rintro ⟨count, ⟨entered, here⟩, goes, overran⟩
      exact ⟨count + 1, count, Nat.lt_succ_self count, ⟨entered, goes⟩, here, overran⟩

end Replies

namespace Extract

variable (pkt : List Byte) (pktLen : Nat) (scan : Extract)

theorem vlan_tableId (found : scan.vlan pkt pktLen = some done) :
    done.flow.tableId = scan.flow.tableId := by
  unfold vlan at found
  split at found
  · split at found
    · cases found
    · cases found
      rfl
  · cases found
    rfl

theorem ports_tableId (size : Nat) :
    (scan.ports pkt pktLen size).flow.tableId = scan.flow.tableId := by
  unfold ports
  split <;> rfl

theorem ipTransport_tableId : (scan.ipTransport pkt pktLen).flow.tableId = scan.flow.tableId := by
  unfold ipTransport
  split
  · exact ports_tableId pkt pktLen scan _
  split
  · exact ports_tableId pkt pktLen scan _
  split
  · split <;> rfl
  · rfl

theorem network_tableId : (scan.network pkt pktLen).2.flow.tableId = scan.flow.tableId := by
  unfold network
  split
  · unfold ip
    dsimp only
    split
    · rfl
    · split
      · rfl
      · exact ipTransport_tableId pkt pktLen _
  split
  · unfold arp
    dsimp only
    split
    · rfl
    · split <;> rfl
  split
  · unfold mpls
    split <;> rfl
  split
  · unfold ipv6
    dsimp only
    split
    · rfl
    split
    · exact ports_tableId pkt pktLen _ _
    split
    · exact ports_tableId pkt pktLen _ _
    · rfl
  · rfl

end Extract

theorem ofFlowExtract_tableId (pkt : List Byte) (inPort : BitVec 32) (pktLen : Nat)
    (onlyL2 : Bool) : (ofFlowExtract pkt inPort pktLen onlyL2).2.flow.tableId = 0 := by
  unfold ofFlowExtract
  dsimp only
  split
  · rfl
  split
  · rfl
  split
  · rfl
  · rename_i found
    have kept := Extract.vlan_tableId _ _ _ found
    split
    · exact kept
    · exact (Extract.network_tableId _ _ _).trans kept

theorem of10RecvPacketIn_tableId (handed : of10RecvPacketIn rx mem = some pkt) :
    pkt.fl.tableId = 0 := by
  unfold of10RecvPacketIn at handed
  dsimp only at handed
  split at handed
  · cases handed
  split at handed
  · cases handed
  split at handed
  · cases handed
  · cases handed
    exact ofFlowExtract_tableId _ _ _ _

/-- The table of a packet: none in OpenFlow 1.0, the byte of the message in 1.3. -/
theorem packetIn_tableId (handed : switchRecvPacketIn version rx mem = some pkt) :
    pkt.fl.tableId = noTable ↔ version = .of131 ∧ byteAt mem 15 = noTable := by
  cases version with
  | of10 =>
    simp only [switchRecvPacketIn] at handed
    split at handed
    · cases handed
    · rw [of10RecvPacketIn_tableId handed]
      exact ⟨fun same => absurd same (by decide), fun both => absurd both.1 (by decide)⟩
  | of131 =>
    simp only [switchRecvPacketIn] at handed
    split at handed
    · cases handed
    · obtain ⟨_, _, _, _, _, table⟩ := of131RecvPacketIn_some handed
      rw [table]
      exact ⟨fun same => ⟨rfl, same⟩, fun both => both.2⟩

theorem forall_mem_flatMap_iff {Item : Type} {items : List Item} {accesses : Item → List Nat}
    {overrun : Item → Prop}
    (each : ∀ item, (∀ index ∈ accesses item, index < maxRuleFlowTbls) ↔ ¬overrun item) :
    (∀ index ∈ items.flatMap accesses, index < maxRuleFlowTbls) ↔ ¬∃ item ∈ items,
      overrun item := by
  constructor
  · intro inside ⟨item, member, overran⟩
    apply (each item).mp _ overran
    intro index used
    exact inside index (mem_flatMap.mpr ⟨item, member, used⟩)
  · intro none index used
    obtain ⟨item, member, found⟩ := mem_flatMap.mp used
    exact (each item).mpr (fun overran => none ⟨item, member, overran⟩) index found

theorem errFlowModAccess_lt_iff (ofpMod : List Byte) (msgLen : Nat) :
    (∀ index ∈ of131RecvErrFlowModAccess ofpMod msgLen, index < maxRuleFlowTbls) ↔
      ¬(ofp131FlowModSz ≤ msgLen ∧
        ofp131FlowModSz + cAlign8bLen (ntohsAt ofpMod (ofp131FlowModMatch + 2)) - ofpxMatchHdrSz ≤
          msgLen ∧ (of131OfpxMatchToFlow (ofpMod.drop ofp131FlowModMatch)).1 = 0 ∧
            wordAt 64 (ofpMod.drop 8) = 0 ∧
        byteAt ofpMod 24 = noTable) := by
  unfold of131RecvErrFlowModAccess
  dsimp only
  split
  · rename_i short
    refine iff_of_true nofun ?_
    rintro ⟨header, matchFits, -⟩
    omega
  rename_i fits
  obtain ⟨header, matchFits⟩ := not_or.mp fits
  split
  · rename_i refused
    exact iff_of_true nofun fun overrun => refused overrun.2.2.1
  rename_i parses
  split
  · rename_i cookie
    simp [byte_lt_iff, Nat.not_lt.mp header, Nat.not_lt.mp matchFits, not_not.mp parses, cookie]
  · rename_i cookie
    exact iff_of_true nofun fun overrun => cookie overrun.2.2.2.1

theorem errAccess_lt_iff (init140 : Bool) (mem : List Byte) :
    (∀ index ∈ of131RecvErrMsgAccess init140 mem, index < maxRuleFlowTbls) ↔
      ¬ErrOverrun init140 mem := by
  unfold of131RecvErrMsgAccess
  dsimp only
  by_cases least : ofHdrLength mem < (if init140 then ofpHeaderSz else ofpErrorMsgSz)
  · rw [if_pos least]
    exact iff_of_true nofun fun overrun => Nat.not_le.mpr least overrun.least
  rw [if_neg least]
  by_cases refused : parsesErrData (ntohsAt mem 8) = false ∨
    sizeT ((ofHdrLength mem : Int) - ofpErrorMsgSz) < ofpHeaderSz
  · rw [if_pos refused]
    refine iff_of_true nofun fun overrun => ?_
    rcases refused with other | short
    · exact absurd (other.symm.trans overrun.type) (by decide)
    · have header := overrun.header
      simp only [ofp131FlowModSz, ofpHeaderSz] at header short
      omega
  rw [if_neg refused]
  have type : parsesErrData (ntohsAt mem 8) = true := by simpa using (not_or.mp refused).1
  by_cases flowMod : byteAt (mem.drop ofpErrorMsgSz) 1 = 14
  · rw [if_pos flowMod, errFlowModAccess_lt_iff]
    simp only [byteAt, ntohsAt, drop_drop] at flowMod ⊢
    refine not_congr ⟨?_, ?_⟩
    · rintro ⟨header, matchFits, parses, cookie, table⟩
      exact ⟨Nat.not_lt.mp least, type, flowMod, header, matchFits, parses, cookie, table⟩
    · rintro ⟨-, -, -, header, matchFits, parses, cookie, table⟩
      exact ⟨header, matchFits, parses, cookie, table⟩
  · rw [if_neg flowMod]
    refine iff_of_true nofun fun overrun => flowMod ?_
    rw [byteAt, drop_drop]
    exact overrun.flowMod

theorem of10RecvErrMsgAccess_lt (mem : List Byte) :
    ∀ index ∈ of10RecvErrMsgAccess mem, index < maxRuleFlowTbls := by
  unfold of10RecvErrMsgAccess
  split
  · exact nofun
  split
  · simp [maxRuleFlowTbls]
  · exact nofun

theorem commandAccess_lt_iff (ctrl : Controller) (whole : Bool) (dpid : BitVec 64) (table : Byte) :
    (∀ index ∈ ctrl.commandAccess whole dpid [table.toNat], index < maxRuleFlowTbls) ↔
      ¬ctrl.CommandOverrun whole dpid table := by
  unfold Controller.commandAccess Controller.CommandOverrun
  split
  · simp_all [byte_lt_iff]
  · simp_all

/-- A turn that expands a group uses no index, and one that looks up goes past the tables
with the table of the packet or with that of the rule. -/
theorem uflowTurnAccess_lt_iff (node : CtrlSwitch) (state : UflowState) :
    (∀ index ∈ uflowTurnAccess node state, index < maxRuleFlowTbls) ↔
      ¬(state.rule = none ∧ (state.args.fl.tableId = noTable ∨
        ∃ hop, state.hop node = some hop ∧ hop.rule.fl.tableId = noTable)) := by
  obtain ⟨args, rule⟩ := state
  cases rule with
  | some ent => simp [uflowTurnAccess]
  | none =>
    simp only [uflowTurnAccess, UflowState.hop, forall_mem_cons, byte_lt_iff, true_and, not_or]
    refine and_congr_right fun inside => ?_
    rw [doFlowLookupSlow_ruleFor args.fl (.inl ((byte_lt_iff _).mpr inside))]
    cases ruleFor node args.fl with
    | none => simp
    | some ent => simp [byte_lt_iff]

theorem UflowState.place_table_iff (state : UflowState) :
    (∃ id, state.place = .table id) ↔ state.rule = none := by
  obtain ⟨args, rule⟩ := state
  cases rule <;> simp [UflowState.place]

theorem uflowAccess_lt_iff (node : CtrlSwitch) (flow : Flow) :
    (∀ turns, ∀ index ∈ (Step.trace (uflowStep node) turns
      (uflowStart flow)).flatMap (uflowTurnAccess node),
      index < maxRuleFlowTbls) ↔ ¬UflowOverrun node flow := by
  simp only [forall_mem_flatMap_iff (uflowTurnAccess_lt_iff node), ← not_exists]
  refine not_congr ⟨?_, ?_⟩
  · rintro ⟨turns, state, member, looks, past | ⟨hop, met, past⟩⟩
    · rcases visits_cases (Step.exists_mem_trace_iff.mp ⟨turns, member⟩) with
        rfl | ⟨hop, onWay, silent, rfl⟩
      · exact .inl past
      · have plain : (hop.after node).groupId = 0 := by simpa [Hop.next] using looks
        exact .inr ⟨hop, onWay, .inr ⟨silent, plain, past⟩⟩
    · have onWay := onWay_of_visits (Step.exists_mem_trace_iff.mp ⟨turns, member⟩) met
      rw [← state.place_table_iff, ← UflowState.hop_place met] at looks
      exact .inr ⟨hop, onWay, .inl ⟨looks, past⟩⟩
  · rintro (past | ⟨hop, onWay, found⟩)
    · exact ⟨1, uflowStart flow, mem_cons_self, rfl, .inl past⟩
    · obtain ⟨state, visited, met⟩ := onWay.visited
      rcases found with ⟨looks, past⟩ | ⟨silent, plain, past⟩
      · obtain ⟨turns, member⟩ := Step.exists_mem_trace_iff.mpr visited
        rw [UflowState.hop_place met, state.place_table_iff] at looks
        exact ⟨turns, state, member, looks, .inr ⟨hop, met, past⟩⟩
      · obtain ⟨turns, member⟩ := Step.exists_mem_trace_iff.mpr (visits_next visited met silent)
        exact ⟨turns, hop.next node, member, if_pos plain, .inl past⟩

/-- Every index is that of a table, exactly if table id 255 does not get to an unchecked handler. -/
theorem TableMsg.accesses_lt_iff (msg : TableMsg) :
    (∀ turns, ∀ index ∈ msg.accesses turns, index < maxRuleFlowTbls) ↔ ¬msg.Overruns := by
  cases msg with
  | packetIn version rx slowPath mem =>
    cases handed : switchRecvPacketIn version rx mem with
    | none => simp [accesses, Overruns, handed]
    | some pkt =>
      cases onlyL2 : rx.onlyL2 with
      | true => cases slowPath <;> simp [accesses, Overruns, handed, onlyL2, maxRuleFlowTbls]
      | false => simp [accesses, Overruns, handed, onlyL2, byte_lt_iff, packetIn_tableId handed]
  | flowRemoved => simp [accesses, Overruns]
  | mpartReply sw probed mem =>
    cases found : OfpMultipart.ofCode (ntohsAt mem 8) with
    | none => simp [accesses, Overruns, found]
    | some type =>
      simp only [accesses, Overruns, found, forall_const]
      rw [forall_mem_flatMap_iff fun visit => mpartRecordAccess_lt_iff mem probed visit type]
      simp only [Option.some.injEq, exists_eq_left', ← mpartRecords_overrun_iff mem probed sw,
        of1314MpartProcess, found]
      split
      · rename_i short
        simp [Nat.not_le.mpr short]
      · rename_i long
        simp [Nat.not_lt.mp long]
  | statsReply probed mem =>
    cases found : OfpStats.ofCode (ntohsAt mem 8) with
    | none => simp [accesses, Overruns, found]
    | some type =>
      simp only [accesses, Overruns, found]
      cases type with
      | flow =>
        have each : ∀ visit : Visit,
            (∀ index ∈ statsRecordAccess mem probed visit .flow, index < maxRuleFlowTbls) ↔
            ¬FlowStatsOverrun 0 (wordAt 64 (mem.drop (visit.ofs + 64))) (probed visit.ofs) :=
          fun visit => flowStatsUpdateAccess_lt_iff _ _ _
        simp only [forall_mem_flatMap_iff each, true_and,
          ← of10FlowStats_overrun_iff mem probed found, not_exists]
      | port => simp [statsRecordAccess]
  | errorMsg version init140 mem =>
    cases version with
    | of10 =>
      refine iff_of_true (fun _ => of10RecvErrMsgAccess_lt mem) ?_
      simp [Overruns]
    | of131 => simpa [accesses, Overruns] using errAccess_lt_iff init140 mem
  | flowMod ctrl app msg now =>
    cases whole : msg.whole with
    | false => simp [accesses, Overruns, whole]
    | true => simpa [accesses, Overruns, whole] using flowModAccess_lt_iff ctrl app msg now
  | tableStats ctrl whole dpid table =>
    simpa [accesses, Overruns] using commandAccess_lt_iff ctrl whole dpid table
  | tableFeat ctrl whole dpid table =>
    refine iff_of_true (fun _ index member => ?_) id
    simp only [accesses, Controller.commandAccess] at member
    split at member
    · split at member
      · rename_i bounded
        exact mem_singleton.mp member ▸ bounded
      · cases member
    · cases member
  | getFlow ctrl whole dpid flow =>
    simpa [accesses, Overruns] using commandAccess_lt_iff ctrl whole dpid flow.tableId
  | modUflow ctrl whole dpid flow =>
    cases chosen : ctrl.uflowSwitch whole dpid with
    | error => simp [accesses, Overruns, chosen]
    | ok node => simpa [accesses, Overruns, chosen] using uflowAccess_lt_iff node flow

/-- A statistics reply with the record of one table. -/
def tableReply (table : Byte) : TableMsg :=
  .mpartReply {} (fun _ => none)
    ([4, 19, 0, 40, 0, 0, 0, 0, 0, 3, 0, 0, 0, 0, 0, 0, table] ++ replicate 23 0)

theorem tableReply_last_lt : ¬(tableReply 254).Overruns ∧
    ∀ turns, ∀ index ∈ (tableReply 254).accesses turns, index < maxRuleFlowTbls := by
  have tested : ¬(tableReply 254).Overruns := by
    rintro ⟨-, type, found, overran⟩
    have table : some OfpMultipart.table = some type := found
    cases table
    obtain ⟨count, -, fits, named⟩ := overran
    have first : count = 0 := by
      have length : ofpMultipartReplySz + ofp131TableStatsSz * (count + 1) ≤ 40 := fits
      simp only [ofpMultipartReplySz, ofp131TableStatsSz] at length
      omega
    subst count
    have last : (254 : Byte) = 255 := named
    exact absurd last (by decide)
  exact ⟨tested, (TableMsg.accesses_lt_iff _).mpr tested⟩

/-- A switch that has a table 255 makes the controller go past its tables. -/
theorem tableReply_past_tables :
    ¬∀ msg : TableMsg, ∀ turns, ∀ index ∈ msg.accesses turns, index < maxRuleFlowTbls := by
  intro inside
  have used : 255 ∈ (tableReply 255).accesses 0 := by decide
  exact absurd (inside _ 0 255 used) (by decide)

end OpenMul
