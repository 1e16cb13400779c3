import OpenMul.Core.Switch
import OpenMul.Lib.Machine
import OpenMul.Lib.Numbering

namespace OpenMul

open Lib Function

def optNoTables : Nat := 4

/-- A miss entry that is sent to the switch: to the controller, or on to a table. -/
structure MissFlow where
  table : Nat
  goto : Option Nat
  deriving DecidableEq, Repr

/-- The part of `c_switch_t` that publishing and the tables use; `noDflFlows` is the
controller's. -/
structure TableState where
  ofpCtors : OfpCtors
  master : Bool := true
  noDflFlows : Bool := false
  registered : Bool := false
  ofpPortFeat : Bool := false
  ofpTblFeat : Bool := false
  vtblMapDone : Bool := false
  nTables : Nat := 0
  hwTblActive : Nat → Bool := fun _ => false
  vTbl : Nat → Nat := fun _ => 0
  xphysMapTbl : Nat → Nat := fun _ => 0
  missFlows : List MissFlow := []

namespace TableState

/-- `of_switch_get_next_valid_table`. -/
def getNextValidTable (sw : TableState) (table : Nat) : Option Nat :=
  if sw.ofpCtors.multiTableSupport then
    ((List.range maxRuleFlowTbls).filter (table < ·)).find? sw.hwTblActive
  else none

/-- `c_switch_flow_table_enable_miss`. -/
def flowTableEnableMiss (sw : TableState) (table : Nat) (chain : Bool) : TableState :=
  if !sw.master || sw.noDflFlows then sw
  else
    { sw with
      missFlows := sw.missFlows ++ [⟨table, if chain then sw.getNextValidTable table else none⟩] }

/-- `c_switch_flow_table_enable`. Behind the last table there is the map itself; `spill`
is what it is after a message that names table 255. -/
def flowTableEnable (sw : TableState) (table : Byte) (enableMiss : Bool) (spill : Nat → Nat) :
    TableState :=
  if table.toNat < maxRuleFlowTbls then
    let enabled := { sw with hwTblActive := Function.update sw.hwTblActive table.toNat true }
    if !sw.hwTblActive table.toNat && enableMiss then enabled.flowTableEnableMiss table.toNat true
    else enabled
  else { sw with xphysMapTbl := spill }

/-- The tables that are active. -/
def activeTables (sw : TableState) : List Nat := (List.range maxRuleFlowTbls).filter sw.hwTblActive

/-- `of_switch_mk_xphys_mapping`. -/
def mkXphysMapping (sw : TableState) : TableState :=
  if sw.ofpCtors.multiTableSupport then
    let maps := number sw.hwTblActive (List.range maxRuleFlowTbls) 0 (sw.vTbl, sw.xphysMapTbl)
    sw.activeTables.zipIdx.foldl (fun sw entry => sw.flowTableEnableMiss entry.1 (entry.2 < 3))
      { sw with vTbl := maps.1, xphysMapTbl := maps.2 }
  else sw

/-- The calls for the table records of a multipart reply. -/
def enableAll (sw : TableState) (tables : List Byte) (spill : Nat → Nat) : TableState :=
  tables.foldl (fun sw table => sw.flowTableEnable table false spill) sw

/-- The tables that are enabled for a switch without table features. -/
def enableMinimal (sw : TableState) : TableState :=
  if optNoTables ≤ sw.nTables then sw.enableAll [3, 2, 1, 0] sw.xphysMapTbl else sw

/-- `c_switch_try_publish`, as far as the tables are concerned. -/
def tryPublish (sw : TableState) : TableState :=
  if sw.registered && sw.ofpPortFeat then
    let sw := if sw.ofpTblFeat then sw else { sw.enableMinimal with ofpTblFeat := true }
    if sw.vtblMapDone then sw else { sw.mkXphysMapping with vtblMapDone := true }
  else sw

end TableState

/-- What a switch sends, and what the controller does by itself. -/
inductive TableEvent where
  /-- A features reply, which registers the switch. -/
  | features (nTables : Byte)
  /-- A multipart reply with the records of some tables. -/
  | tableFeatures (tables : List Byte) (last : Bool) (spill : Nat → Nat)
  /-- A multipart reply with some ports. -/
  | portDesc (ports : Nat) (last : Bool)
  | enable (table : Byte) (enableMiss : Bool) (spill : Nat → Nat)
  /-- The timer, and any other reply but a table statistics reply that names table 255:
  its counts go into the map. -/
  | publish
  | role (master : Bool)

namespace TableState

def exec (sw : TableState) : TableEvent → TableState
  | .features nTables => { sw with nTables := nTables.toNat, registered := true }
  | .tableFeatures tables last spill =>
    let enabled := sw.enableAll tables spill
    { enabled with ofpTblFeat := enabled.ofpTblFeat || last }.tryPublish
  | .portDesc ports last =>
    { sw with ofpPortFeat := sw.ofpPortFeat || (last && decide (0 < ports)) }.tryPublish
  | .enable table enableMiss spill => sw.flowTableEnable table enableMiss spill
  | .publish => sw.tryPublish
  | .role master => { sw with master }

/-- The slots list the active tables in order, and each of them has its number. -/
def Mapped (sw : TableState) : Prop :=
  sw.vtblMapDone = true → Numbers sw.activeTables sw.vTbl sw.xphysMapTbl

end TableState

/-- The runs of a switch with several tables. -/
def tableRuns : Machine TableState TableEvent where
  start sw := sw.ofpCtors.multiTableSupport = true ∧ sw.vtblMapDone = false ∧
    sw.ofpTblFeat = false ∧ sw.vTbl = (fun _ => 0) ∧ sw.xphysMapTbl = fun _ => 0
  admits _ _ := True
  exec := TableState.exec

/-- The tables an event enables by name. -/
def TableEvent.named : TableEvent → List Byte
  | .tableFeatures tables _ _ => tables
  | .enable table _ _ => [table]
  | _ => []

/-- After the map is made no table becomes active. -/
def TableState.Settled (sw : TableState) (event : TableEvent) : Prop :=
  sw.vtblMapDone = true → ∀ table ∈ event.named,
    table.toNat < maxRuleFlowTbls ∧ sw.hwTblActive table.toNat = true

namespace TableState

variable {sw : TableState} {spill : Nat → Nat}

theorem flowTableEnableMiss_eq (sw : TableState) (table : Nat) (chain : Bool) :
    ∃ flows, sw.flowTableEnableMiss table chain = { sw with missFlows := flows } := by
  unfold flowTableEnableMiss
  split
  · exact ⟨sw.missFlows, rfl⟩
  · exact ⟨_, rfl⟩

private theorem foldMiss_eq (entries : List (Nat × Nat)) (sw : TableState) :
    ∃ flows, entries.foldl (fun sw entry => sw.flowTableEnableMiss entry.1 (entry.2 < 3)) sw =
      { sw with missFlows := flows } := by
  induction entries generalizing sw with
  | nil => exact ⟨sw.missFlows, rfl⟩
  | cons entry entries ih =>
    obtain ⟨first, same⟩ := flowTableEnableMiss_eq sw entry.1 (entry.2 < 3)
    obtain ⟨flows, rest⟩ := ih { sw with missFlows := first }
    refine ⟨flows, ?_⟩
    rw [List.foldl_cons, same, rest]

/-- The mapping numbers the active tables and changes nothing else but the miss flows. -/
theorem mkXphysMapping_eq (multi : sw.ofpCtors.multiTableSupport = true) :
    ∃ flows, sw.mkXphysMapping = { sw with
      vTbl := (number sw.hwTblActive (List.range maxRuleFlowTbls) 0 (sw.vTbl, sw.xphysMapTbl)).1
      xphysMapTbl :=
        (number sw.hwTblActive (List.range maxRuleFlowTbls) 0 (sw.vTbl, sw.xphysMapTbl)).2
      missFlows := flows } := by
  unfold mkXphysMapping
  rw [if_pos multi]
  exact foldMiss_eq _ _

theorem flowTableEnable_eq (inside : table.toNat < maxRuleFlowTbls) (enableMiss : Bool) :
    ∃ flows, sw.flowTableEnable table enableMiss spill =
      { sw with hwTblActive := update sw.hwTblActive table.toNat true, missFlows := flows } := by
  unfold flowTableEnable
  rw [if_pos inside]
  split
  · exact flowTableEnableMiss_eq _ _ _
  · exact ⟨sw.missFlows, rfl⟩

/-- Tables may have become active; their numbers and the marks of the switch are as
they were. -/
structure Enables (sw next : TableState) : Prop where
  ofpCtors : next.ofpCtors = sw.ofpCtors
  mapDone : next.vtblMapDone = sw.vtblMapDone
  tblFeat : next.ofpTblFeat = sw.ofpTblFeat
  vTbl : next.vTbl = sw.vTbl
  active : ∀ id, sw.hwTblActive id = true → next.hwTblActive id = true

theorem Enables.refl (sw : TableState) : Enables sw sw :=
  ⟨rfl, rfl, rfl, rfl, fun _ active => active⟩

theorem Enables.trans (first : Enables sw next) (second : Enables next last) : Enables sw last :=
  ⟨second.ofpCtors.trans first.ofpCtors, second.mapDone.trans first.mapDone,
    second.tblFeat.trans first.tblFeat, second.vTbl.trans first.vTbl,
    fun id active => second.active id (first.active id active)⟩

theorem flowTableEnable_enables (sw : TableState) (table : Byte) (enableMiss : Bool)
    (spill : Nat → Nat) : Enables sw (sw.flowTableEnable table enableMiss spill) := by
  by_cases inside : table.toNat < maxRuleFlowTbls
  · obtain ⟨flows, same⟩ := @flowTableEnable_eq sw spill table inside enableMiss
    rw [same]
    refine ⟨rfl, rfl, rfl, rfl, fun id active => ?_⟩
    by_cases named : id = table.toNat
    · rw [named]
      exact update_self ..
    · exact (update_of_ne named ..).trans active
  · unfold flowTableEnable
    rw [if_neg inside]
    exact ⟨rfl, rfl, rfl, rfl, fun _ active => active⟩

theorem enableAll_enables (tables : List Byte) (sw : TableState) (spill : Nat → Nat) :
    Enables sw (sw.enableAll tables spill) := by
  induction tables generalizing sw with
  | nil => exact .refl sw
  | cons table tables ih =>
    exact (flowTableEnable_enables sw table false spill).trans
      (ih (sw.flowTableEnable table false spill))

theorem enableMinimal_enables (sw : TableState) : Enables sw sw.enableMinimal := by
  unfold enableMinimal
  split
  · exact enableAll_enables _ _ _
  · exact .refl sw

theorem enableAll_active
    (settled : ∀ table ∈ tables, table.toNat < maxRuleFlowTbls ∧
      sw.hwTblActive table.toNat = true) :
    (sw.enableAll tables spill).hwTblActive = sw.hwTblActive ∧
      (sw.enableAll tables spill).xphysMapTbl = sw.xphysMapTbl := by
  induction tables generalizing sw with
  | nil => exact ⟨rfl, rfl⟩
  | cons table tables ih =>
    obtain ⟨⟨inside, active⟩, rest⟩ := List.forall_mem_cons.mp settled
    obtain ⟨flows, same⟩ := @flowTableEnable_eq sw spill table inside false
    have unchanged : update sw.hwTblActive table.toNat true = sw.hwTblActive := by
      rw [← active]
      exact update_eq_self ..
    rw [unchanged] at same
    have later := @ih { sw with missFlows := flows } rest
    rwa [enableAll, List.foldl_cons, same]

/-- The map is only made once the features are there. -/
structure Ready (sw : TableState) : Prop where
  multi : sw.ofpCtors.multiTableSupport = true
  feat : sw.vtblMapDone = true → sw.ofpTblFeat = true
  blank : ∀ id, sw.hwTblActive id = false → sw.vTbl id = 0

theorem Ready.enables (ready : sw.Ready) {next : TableState} (enables : Enables sw next) :
    next.Ready := by
  refine ⟨enables.ofpCtors ▸ ready.multi, ?_, ?_⟩
  · rw [enables.mapDone, enables.tblFeat]
    exact ready.feat
  · intro id inactive
    rw [enables.vTbl]
    apply ready.blank
    cases before : sw.hwTblActive id with
    | false => rfl
    | true => rw [enables.active id before] at inactive; cases inactive

/-- Publishing makes the map if it is not made, from the tables active then. -/
theorem tryPublish_cases (ready : sw.Ready) : sw.tryPublish = sw ∨
    sw.vtblMapDone = false ∧ ∃ start : TableState, ∃ flows, start.Ready ∧ start.ofpTblFeat = true ∧
      sw.tryPublish = { start with
        vTbl := (number start.hwTblActive (List.range maxRuleFlowTbls) 0 (start.vTbl,
          start.xphysMapTbl)).1
        xphysMapTbl := (number start.hwTblActive (List.range maxRuleFlowTbls) 0 (start.vTbl,
          start.xphysMapTbl)).2
        missFlows := flows, vtblMapDone := true } := by
  unfold tryPublish
  split
  · cases made : sw.vtblMapDone with
    | true =>
      simp [ready.feat made, made]
    | false =>
      right
      refine ⟨rfl, ?_⟩
      dsimp only
      split
      · rename_i feat
        obtain ⟨flows, same⟩ := mkXphysMapping_eq ready.multi
        refine ⟨sw, flows, ready, feat, ?_⟩
        rw [made, same]
        rfl
      · have enables := enableMinimal_enables sw
        have still := ready.enables enables
        have start : ({ sw.enableMinimal with ofpTblFeat := true } : TableState).Ready :=
          ⟨still.multi, fun _ => rfl, still.blank⟩
        obtain ⟨flows, same⟩ := mkXphysMapping_eq start.multi
        refine ⟨_, flows, start, rfl, ?_⟩
        rw [same]
        simp only [enables.mapDone, made]
        rfl
  · exact .inl rfl

theorem tryPublish_ready (ready : sw.Ready) : sw.tryPublish.Ready := by
  rcases tryPublish_cases ready with same | ⟨_, start, flows, began, feat, made⟩
  · rw [same]
    exact ready
  · rw [made]
    refine ⟨began.multi, fun _ => feat, fun id inactive => ?_⟩
    have outside : id ∉ (List.range maxRuleFlowTbls).filter start.hwTblActive := by
      intro member
      exact absurd ((List.mem_filter.mp member).2.symm.trans inactive) (by decide)
    exact (number_rank_outside outside).trans (began.blank id inactive)

theorem tryPublish_mapped (ready : sw.Ready) (mapped : sw.Mapped) : sw.tryPublish.Mapped := by
  rcases tryPublish_cases ready with same | ⟨_, start, flows, _, _, made⟩
  · rw [same]
    exact mapped
  · rw [made]
    exact fun _ => number_numbers List.nodup_range

theorem exec_ready (ready : sw.Ready) (event : TableEvent) : (sw.exec event).Ready := by
  cases event with
  | features nTables => exact { ready with }
  | tableFeatures tables last spill =>
    have still := ready.enables (enableAll_enables tables sw spill)
    refine tryPublish_ready ⟨still.multi, fun made => ?_, still.blank⟩
    exact Bool.or_eq_true_iff.mpr (.inl (still.feat made))
  | portDesc ports last => exact tryPublish_ready { ready with }
  | enable table enableMiss spill =>
    exact ready.enables (flowTableEnable_enables sw table enableMiss spill)
  | publish => exact tryPublish_ready ready
  | role master => exact { ready with }

/-- Enabling tables that are active, or before the map is made, keeps the map right. -/
theorem enableAll_mapped (mapped : sw.Mapped)
    (settled : sw.vtblMapDone = true → ∀ table ∈ tables,
      table.toNat < maxRuleFlowTbls ∧ sw.hwTblActive table.toNat = true) :
    (sw.enableAll tables spill).Mapped := by
  have enables := enableAll_enables tables sw spill
  intro made
  rw [enables.mapDone] at made
  obtain ⟨active, slots⟩ := @enableAll_active sw spill tables (settled made)
  have same : (sw.enableAll tables spill).activeTables = sw.activeTables :=
    congrArg (List.filter · _) active
  rw [same, enables.vTbl, slots]
  exact mapped made

theorem exec_mapped (ready : sw.Ready) (mapped : sw.Mapped) (settled : sw.Settled event) :
    (sw.exec event).Mapped := by
  cases event with
  | features nTables => exact mapped
  | tableFeatures tables last spill =>
    have still := ready.enables (enableAll_enables tables sw spill)
    refine tryPublish_mapped ⟨still.multi, fun made => ?_,
      still.blank⟩ (enableAll_mapped mapped settled)
    exact Bool.or_eq_true_iff.mpr (.inl (still.feat made))
  | portDesc ports last => exact tryPublish_mapped { ready with } mapped
  | enable table enableMiss spill =>
    have enables := flowTableEnable_enables sw table enableMiss spill
    intro made
    have before : sw.vtblMapDone = true := enables.mapDone ▸ made
    obtain ⟨inside, active⟩ := settled before table List.mem_cons_self
    obtain ⟨flows, same⟩ := @flowTableEnable_eq sw spill table inside enableMiss
    have unchanged : update sw.hwTblActive table.toNat true = sw.hwTblActive := by
      rw [← active]
      exact update_eq_self ..
    rw [exec, same, unchanged]
    exact mapped before
  | publish => exact tryPublish_mapped ready mapped
  | role master => exact mapped

theorem enableAll_inside (inside : ∀ table ∈ tables, table.toNat < maxRuleFlowTbls) :
    (sw.enableAll tables spill).xphysMapTbl = sw.xphysMapTbl ∧
      ∀ table ∈ tables, (sw.enableAll tables spill).hwTblActive table.toNat = true := by
  induction tables generalizing sw with
  | nil => exact ⟨rfl, List.forall_mem_nil _⟩
  | cons table tables ih =>
    obtain ⟨first, rest⟩ := List.forall_mem_cons.mp inside
    obtain ⟨flows, same⟩ := @flowTableEnable_eq sw spill table first false
    obtain ⟨slots, active⟩ := @ih (sw.flowTableEnable table false spill) rest
    have kept :=
      (enableAll_enables tables (sw.flowTableEnable table false spill) spill).active table.toNat
    refine ⟨slots.trans (by rw [same]), List.forall_mem_cons.mpr ⟨kept ?_, active⟩⟩
    rw [same]
    exact update_self ..

theorem exec_unmapped (ready : sw.Ready) (mapped : sw.Mapped) (made : sw.vtblMapDone = true)
    (some : sw.activeTables ≠ []) {event : TableEvent}
    (inside : ∀ table ∈ event.named, table.toNat < maxRuleFlowTbls) {table : Byte}
    (named : table ∈ event.named) (inactive : sw.hwTblActive table.toNat = false) :
    ¬(sw.exec event).Mapped := by
  -- both kinds of event leave the map and the numbers, and make the table active
  have after : (sw.exec event).vtblMapDone = true ∧ (sw.exec event).vTbl = sw.vTbl ∧
      (sw.exec event).xphysMapTbl = sw.xphysMapTbl ∧
        (sw.exec event).hwTblActive table.toNat = true := by
    cases event with
    | tableFeatures tables last spill =>
      have enables := enableAll_enables tables sw spill
      obtain ⟨slots, active⟩ := @enableAll_inside sw spill tables inside
      have still := ready.enables enables
      have marked : ({ sw.enableAll tables spill with
          ofpTblFeat := (sw.enableAll tables spill).ofpTblFeat || last } : TableState).Ready :=
        ⟨still.multi, fun done => Bool.or_eq_true_iff.mpr (.inl (still.feat done)), still.blank⟩
      rcases tryPublish_cases marked with same | ⟨unmade, _⟩
      · rw [exec, same]
        exact ⟨enables.mapDone.trans made, enables.vTbl, slots, active table named⟩
      · exact absurd (unmade.symm.trans (enables.mapDone.trans made)) (by decide)
    | enable id enableMiss spill =>
      cases List.mem_singleton.mp named
      obtain ⟨flows, same⟩ := @flowTableEnable_eq sw spill table (inside table named) enableMiss
      rw [exec, same]
      exact ⟨made, rfl, rfl, update_self ..⟩
    | _ => cases named
  obtain ⟨done, ranks, slots, active⟩ := after
  intro extended
  have numbers := extended done
  rw [ranks, slots] at numbers
  apply (mapped made).not_extended some _ (ready.blank _ inactive) _ numbers
  · intro member
    exact absurd ((List.mem_filter.mp member).2.symm.trans inactive) (by decide)
  · exact List.mem_filter.mpr ⟨List.mem_range.mpr (inside table named), active⟩

end TableState

theorem tableRuns_ready (reached : tableRuns.Reaches sw) : sw.Ready := by
  induction reached with
  | start initial =>
    obtain ⟨multi, made, -, ranks, -⟩ := initial
    refine ⟨multi, fun done => ?_, fun id _ => by rw [ranks]⟩
    rw [made] at done
    cases done
  | step earlier admitted ih => exact TableState.exec_ready ih _

/-- The map is right in every run in which no table becomes active after it is made. -/
theorem tableRuns_mapped (sw : TableState) :
    ((tableRuns.restrict TableState.Settled).Reaches sw → sw.Mapped) ∧
    ∀ event, tableRuns.Reaches sw → sw.Mapped → sw.vtblMapDone = true → sw.activeTables ≠ [] →
      (∀ table ∈ event.named, table.toNat < maxRuleFlowTbls) →
      ((tableRuns.exec sw event).Mapped ↔ sw.Settled event) := by
  constructor
  · intro reached
    induction reached with
    | start initial =>
      intro done
      rw [initial.2.1] at done
      cases done
    | step earlier admitted ih =>
      exact TableState.exec_mapped (tableRuns_ready earlier.of_restrict) ih admitted.2
  · intro event reached mapped made some inside
    have ready := tableRuns_ready reached
    constructor
    · intro after _ table named
      refine ⟨inside table named, ?_⟩
      cases active : sw.hwTblActive table.toNat with
      | true => rfl
      | false =>
        exact absurd after (TableState.exec_unmapped ready mapped made some inside named active)
    · exact TableState.exec_mapped ready mapped

/-- A switch that has connected, with its number of tables. -/
def connected : TableState := { ofpCtors := .of131, registered := true, nTables := 8 }

private theorem connected_starts : tableRuns.start connected := ⟨rfl, rfl, rfl, rfl, rfl⟩

/-- The tables come before the ports. -/
def tablesFirst : List TableEvent := [.tableFeatures [0, 2] true fun _ => 0, .portDesc 1 true]

theorem tablesFirst_mapped :
    (tableRuns.restrict TableState.Settled).AdmitsAll connected tablesFirst ∧
      (tableRuns.execAll connected tablesFirst).vtblMapDone = true ∧
      Numbers [0, 2] (tableRuns.execAll connected tablesFirst).vTbl
        (tableRuns.execAll connected tablesFirst).xphysMapTbl := by
  have unmade : connected.vtblMapDone = false := rfl
  have admitted : (tableRuns.restrict TableState.Settled).AdmitsAll connected tablesFirst := by
    refine ⟨⟨trivial, fun made => ?_⟩, ⟨trivial, fun _ => List.forall_mem_nil _⟩, trivial⟩
    exact absurd (unmade.symm.trans made) (by decide)
  have made : (tableRuns.execAll connected tablesFirst).vtblMapDone = true := by decide
  have active : (tableRuns.execAll connected tablesFirst).activeTables = [0, 2] := by decide
  have numbers :=
    (tableRuns_mapped _).1 (Machine.Reaches.execAll (.start connected_starts) admitted) made
  exact ⟨admitted, made, active ▸ numbers⟩

/-- The ports come first, and a reply with table 5 after them. -/
def portsFirst : List TableEvent := [.portDesc 1 true, .tableFeatures [5] true fun _ => 0]

theorem portsFirst_not_mapped : ¬∀ sw, tableRuns.Reaches sw → sw.Mapped := by
  intro mapped
  have admitted : tableRuns.AdmitsAll connected portsFirst := ⟨trivial, trivial, trivial⟩
  have made : (tableRuns.execAll connected portsFirst).vtblMapDone = true := by decide
  have five : 4 < (tableRuns.execAll connected portsFirst).activeTables.length := by decide
  have rank :=
    (mapped _ (Machine.Reaches.execAll (.start connected_starts) admitted) made).ranks 4 five
  have none : (tableRuns.execAll connected portsFirst).vTbl
      ((tableRuns.execAll connected portsFirst).xphysMapTbl 4) = 0 := by decide +kernel
  exact absurd (none.symm.trans rank) (by decide)

end OpenMul
