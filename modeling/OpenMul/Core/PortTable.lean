import Mathlib.Data.List.AList
import OpenMul.Core.L2Fdb

namespace OpenMul

/-- `c_sw_port_t`, as `xlate_port_desc` fills it. What is in `rest` is only copied. -/
structure SwPort where
  portNo : BitVec 32
  config : BitVec 32
  state : BitVec 32
  rest : List Byte := []
  deriving DecidableEq

/-- `struct c_port_cfg_state_mask`. -/
structure PortMask where
  config : BitVec 32 := 0
  state : BitVec 32 := 0
  deriving DecidableEq

def SwPort.differs (port other : SwPort) : PortMask :=
  ⟨port.config ^^^ other.config, port.state ^^^ other.state⟩

inductive OfpPortReason where
  | add
  | delete
  | modify
  | unknown
  deriving DecidableEq

/-- The ports in `c_switch_t`. A copy over a stored port is an insertion. -/
structure PortTable where
  swPorts : AList fun _ : BitVec 32 => SwPort := ∅
  nPorts : Nat := 0

namespace PortTable

variable (sw : PortTable) (desc : SwPort)

/-- `__c_switch_port_find`. -/
def portFind (portNo : BitVec 32) : Option SwPort := sw.swPorts.lookup portNo

/-- `__c_switch_port_add`. -/
def portAdd : PortTable × Int :=
  if desc.portNo = 0 then (sw, -1)
  else
    match sw.portFind desc.portNo with
    | none => (⟨sw.swPorts.insert desc.portNo desc, sw.nPorts + 1⟩, 0)
    | some _ => (⟨sw.swPorts.insert desc.portNo desc, sw.nPorts⟩, -1)

/-- `__c_switch_port_delete`. -/
def portDelete : PortTable :=
  match sw.portFind desc.portNo with
  | none => sw
  | some _ => ⟨sw.swPorts.erase desc.portNo, sw.nPorts - 1⟩

/-- `__c_switch_port_update`, on the mask as the caller left it. -/
def portUpdate (chgMask : PortMask) : OfpPortReason → PortTable × PortMask
  | .delete => (sw.portDelete desc, chgMask)
  | .add =>
    ((sw.portAdd desc).1, if (sw.portAdd desc).2 = 0 then ⟨desc.config, desc.state⟩ else chgMask)
  | .modify =>
    match sw.portFind desc.portNo with
    | none => (sw, chgMask)
    | some port => (⟨sw.swPorts.insert desc.portNo desc, sw.nPorts⟩, port.differs desc)
  | .unknown => (sw, chgMask)

end PortTable

/-- A port-status message, or the records of a port description that `xlate_port_desc`
takes; a message has no room for more than `OFSW_MAX_REAL_PORTS` of them. -/
inductive PortMsg where
  | status (desc : SwPort) (reason : OfpPortReason)
  | portDesc (ports : List SwPort)

def PortMsg.updates : PortMsg → List (SwPort × OfpPortReason)
  | .status desc reason => [(desc, reason)]
  | .portDesc ports => ports.map fun port => (port, .add)

/-- The updates of a message and the masks reported with them, all in one `chg_mask`. -/
def recvPorts (sw : PortTable) (chgMask : PortMask) :
    List (SwPort × OfpPortReason) → PortTable × List PortMask
  | [] => (sw, [])
  | (desc, reason) :: rest =>
    let (next, mask) := sw.portUpdate desc chgMask reason
    let (last, masks) := recvPorts next mask rest
    (last, mask :: masks)

def portsAfter (msgs : List PortMsg) : PortTable :=
  msgs.foldl (fun sw msg => (recvPorts sw {} msg.updates).1) {}

def reportOf (seen : BitVec 32 → Option SwPort) : SwPort × OfpPortReason → BitVec 32 → Option SwPort
  | (desc, .add) | (desc, .modify) => Function.update seen desc.portNo (some desc)
  | (_, .delete) | (_, .unknown) => seen

/-- What was last reported of each port. -/
def lastReported (msgs : List PortMsg) : BitVec 32 → Option SwPort :=
  (msgs.flatMap PortMsg.updates).foldl reportOf fun _ => none

/-- The bits that differ between a stored port before and after, all bits of a new one. -/
def changedBits : Option SwPort → Option SwPort → PortMask
  | some before, some after => before.differs after
  | none, some after => ⟨after.config, after.state⟩
  | _, none => {}

/-- The masks that tell what each update of a message changed. -/
def exactMasks (sw : PortTable) : List (SwPort × OfpPortReason) → List PortMask
  | [] => []
  | (desc, reason) :: rest =>
    let next := (sw.portUpdate desc {} reason).1
    changedBits (sw.portFind desc.portNo) (next.portFind desc.portNo) :: exactMasks next rest

/-- Known ports of a description differ from what is stored in the bits of the last new
port described before them; number 0, which is never stored, only follows new ports
without any. -/
def DescTells (sw : PortTable) (last : PortMask) : List SwPort → Prop
  | [] => True
  | desc :: rest =>
    if desc.portNo = 0 then last = {} ∧ DescTells sw last rest
    else
      match sw.portFind desc.portNo with
      | none => DescTells (sw.portAdd desc).1 ⟨desc.config, desc.state⟩ rest
      | some port => last = port.differs desc ∧ DescTells (sw.portAdd desc).1 last rest

/-- The adds of known ports tell what changes. -/
def PortMsg.Tells (sw : PortTable) : PortMsg → Prop
  | .status desc reason =>
    reason = .add → desc.portNo ≠ 0 → ∀ port, sw.portFind desc.portNo = some port →
      port.differs desc = {}
  | .portDesc ports => DescTells sw {} ports

theorem changedBits_self (port : Option SwPort) : changedBits port port = {} := by
  cases port with
  | none => rfl
  | some port => simp [changedBits, SwPort.differs]

theorem PortTable.portFind_portDelete (sw : PortTable) (desc : SwPort) :
    (sw.portDelete desc).portFind desc.portNo = none := by
  unfold portDelete
  cases found : sw.portFind desc.portNo with
  | none => exact found
  | some port => exact AList.lookup_erase _ _

theorem PortTable.portUpdate_add (sw : PortTable) (desc : SwPort) (chgMask : PortMask) :
    (desc.portNo = 0 ∧ sw.portUpdate desc chgMask .add = (sw, chgMask)) ∨
      desc.portNo ≠ 0 ∧ (sw.portAdd desc).1.portFind desc.portNo = some desc ∧
        ((sw.portFind desc.portNo = none ∧
            sw.portUpdate desc chgMask .add = ((sw.portAdd desc).1, ⟨desc.config, desc.state⟩)) ∨
          ∃ port, sw.portFind desc.portNo = some port ∧
            sw.portUpdate desc chgMask .add = ((sw.portAdd desc).1, chgMask)) := by
  unfold portUpdate portAdd
  by_cases zero : desc.portNo = 0
  · exact .inl ⟨zero, by simp only [if_pos zero]; rfl⟩
  · right
    simp only [if_neg zero]
    cases found : sw.portFind desc.portNo with
    | none => exact ⟨zero, AList.lookup_insert _, .inl ⟨rfl, rfl⟩⟩
    | some port => exact ⟨zero, AList.lookup_insert _, .inr ⟨port, rfl, rfl⟩⟩

theorem descTells_iff (sw : PortTable) (last : PortMask) (ports : List SwPort) :
    (recvPorts sw last (ports.map fun port => (port, .add))).2 =
      exactMasks sw (ports.map fun port => (port, .add)) ↔ DescTells sw last ports := by
  induction ports generalizing sw last with
  | nil => simp [recvPorts, exactMasks, DescTells]
  | cons desc rest ih =>
    have table : (sw.portUpdate desc {} .add).1 = (sw.portAdd desc).1 := rfl
    simp only [List.map_cons, recvPorts, exactMasks, List.cons.injEq, table, DescTells]
    rcases sw.portUpdate_add desc last with
      ⟨zero, same⟩ | ⟨nonzero, stored, ⟨fresh, added⟩ | ⟨port, known, added⟩⟩
    · have kept : (sw.portAdd desc).1 = sw := congrArg Prod.fst same
      rw [same, kept, changedBits_self, if_pos zero, ih]
    · rw [stored, added, if_neg nonzero, fresh]
      simp [changedBits, ih]
    · rw [stored, added, if_neg nonzero, known]
      exact and_congr_right' (ih _ _)

theorem masks_exact_iff (sw : PortTable) (msg : PortMsg) :
    (recvPorts sw {} msg.updates).2 = exactMasks sw msg.updates ↔ msg.Tells sw := by
  cases msg with
  | portDesc ports => exact descTells_iff sw {} ports
  | status desc reason =>
    simp only [PortMsg.updates, recvPorts, exactMasks, PortMsg.Tells, List.cons.injEq, and_true]
    cases reason with
    | add =>
      rcases sw.portUpdate_add desc {} with
        ⟨zero, same⟩ | ⟨nonzero, stored, ⟨fresh, added⟩ | ⟨port, known, added⟩⟩
      · rw [same, changedBits_self]
        exact iff_of_true rfl fun _ nonzero => absurd zero nonzero
      · rw [added, stored, fresh]
        simp [changedBits]
      · rw [added, stored, known]
        refine ⟨?_, fun tells => (tells rfl nonzero port rfl).symm⟩
        rintro same _ _ _ ⟨⟩
        exact same.symm
    | delete => simp [PortTable.portUpdate, PortTable.portFind_portDelete, changedBits]
    | modify =>
      cases found : sw.portFind desc.portNo with
      | none => simp [PortTable.portUpdate, found, changedBits]
      | some port =>
        simp only [PortTable.portUpdate, found]
        rw [PortTable.portFind]
        simp [changedBits]
    | unknown => simp [PortTable.portUpdate, changedBits_self]

/-- The table against what was reported. -/
structure PortTable.Kept (sw : PortTable) (seen : BitVec 32 → Option SwPort) : Prop where
  zero : sw.portFind 0 = none
  count : sw.nPorts = sw.swPorts.keys.length
  reported : ∀ portNo port, sw.portFind portNo = some port → seen portNo = some port

namespace PortTable.Kept

variable {sw : PortTable} {seen : BitVec 32 → Option SwPort} {desc : SwPort} (kept : sw.Kept seen)
include kept

theorem reports (absent : sw.portFind no = none) (desc : SwPort) :
    sw.Kept (Function.update seen no (some desc)) := by
  refine { kept with reported := ?_ }
  intro portNo port found
  have other : portNo ≠ no := by
    rintro rfl
    exact absurd (absent.symm.trans found) (by simp)
  rw [Function.update_of_ne other, kept.reported portNo port found]

theorem insert (nonzero : desc.portNo ≠ 0) {nPorts : Nat}
    (count : nPorts = (sw.swPorts.insert desc.portNo desc).keys.length) :
    Kept ⟨sw.swPorts.insert desc.portNo desc,
      nPorts⟩ (Function.update seen desc.portNo (some desc)) := by
  refine ⟨(AList.lookup_insert_ne nonzero.symm).trans kept.zero, count, ?_⟩
  intro portNo port found
  by_cases same : portNo = desc.portNo
  · subst same
    exact (Function.update_self ..).trans ((AList.lookup_insert _).symm.trans found)
  · rw [Function.update_of_ne same]
    exact kept.reported portNo port ((AList.lookup_insert_ne same).symm.trans found)

theorem insert_known (nonzero : desc.portNo ≠ 0) (found : sw.portFind desc.portNo = some port) :
    Kept ⟨sw.swPorts.insert desc.portNo desc,
      sw.nPorts⟩ (Function.update seen desc.portNo (some desc)) := by
  apply kept.insert nonzero
  have known : desc.portNo ∈ sw.swPorts.keys :=
    AList.lookup_isSome.1 (by rw [← portFind, found]; rfl)
  rw [kept.count, AList.keys_insert, List.length_cons, List.length_erase_add_one known]

theorem update (reason : OfpPortReason) (chgMask : PortMask) :
    (sw.portUpdate desc chgMask reason).1.Kept (reportOf seen (desc, reason)) := by
  cases reason with
  | add =>
    change (sw.portAdd desc).1.Kept (Function.update seen desc.portNo (some desc))
    unfold portAdd
    split
    · rename_i zero
      exact zero ▸ kept.reports kept.zero desc
    rename_i nonzero
    cases found : sw.portFind desc.portNo with
    | none =>
      apply kept.insert nonzero
      rw [AList.keys_insert, List.erase_of_not_mem (AList.lookup_eq_none.1 found), kept.count]
      rfl
    | some port => exact kept.insert_known nonzero found
  | delete =>
    change (sw.portDelete desc).Kept seen
    unfold portDelete
    split
    · exact kept
    · rename_i port found
      have known : desc.portNo ∈ sw.swPorts.keys :=
        AList.lookup_isSome.1 (by rw [← portFind, found]; rfl)
      have other : ∀ {portNo}, portNo ≠ desc.portNo →
          (sw.swPorts.erase desc.portNo).lookup portNo = sw.portFind portNo :=
        fun different => AList.lookup_erase_ne different
      refine ⟨?_, ?_, ?_⟩
      · refine (other ?_).trans kept.zero
        intro zero
        rw [← zero, kept.zero] at found
        contradiction
      · rw [AList.keys_erase, List.length_erase_of_mem known, kept.count]
      · intro portNo port left
        refine kept.reported portNo port ((other ?_).symm.trans left)
        rintro rfl
        exact absurd ((AList.lookup_erase ..).symm.trans left) (by simp)
  | modify =>
    simp only [portUpdate, reportOf]
    cases found : sw.portFind desc.portNo with
    | none => exact kept.reports found desc
    | some port =>
      refine kept.insert_known ?_ found
      intro zero
      rw [zero, kept.zero] at found
      contradiction
  | unknown => exact kept

theorem recvPorts (chgMask : PortMask) (updates : List (SwPort × OfpPortReason)) :
    (recvPorts sw chgMask updates).1.Kept (updates.foldl reportOf seen) := by
  induction updates generalizing sw seen chgMask with
  | nil => exact kept
  | cons entry rest ih => exact ih (kept.update entry.2 chgMask) _

theorem foldl (msgs : List PortMsg) :
    (msgs.foldl (fun sw msg => (OpenMul.recvPorts sw {} msg.updates).1) sw).Kept
      (msgs.foldl (fun seen msg => msg.updates.foldl reportOf seen) seen) := by
  induction msgs generalizing sw seen with
  | nil => exact kept
  | cons msg rest ih => exact ih (kept.recvPorts {} msg.updates)

end PortTable.Kept

/-- After any messages the table holds what was last reported, and the masks of the next
message tell what it changes exactly if its adds of known ports do. -/
theorem portTable_exact_iff (msgs : List PortMsg) :
    ((portsAfter msgs).nPorts = (portsAfter msgs).swPorts.keys.length ∧
      ∀ portNo port, (portsAfter msgs).portFind portNo = some port →
        lastReported msgs portNo = some port) ∧
    ∀ msg : PortMsg,
      (recvPorts (portsAfter msgs) {} msg.updates).2 = exactMasks (portsAfter msgs) msg.updates ↔
      msg.Tells (portsAfter msgs) := by
  have kept : (portsAfter msgs).Kept (lastReported msgs) := by
    rw [lastReported, List.foldl_flatMap]
    exact PortTable.Kept.foldl ⟨rfl, rfl, by simp [PortTable.portFind]⟩ msgs
  exact ⟨⟨kept.count, kept.reported⟩, masks_exact_iff _⟩

/-- Ports 1 and 2 are described, port 1 goes down and port 2 away; then port 1 is described
again, with a new port 3. -/
theorem portTable_exact_described :
    let msgs := [PortMsg.portDesc [⟨1, 0, 0, []⟩, ⟨2, 1, 0, []⟩], .status ⟨1, 1, 0, []⟩ .modify,
      .status ⟨2, 1, 0, []⟩ .delete]
    let next := PortMsg.portDesc [⟨1, 1, 0, []⟩, ⟨3, 0, 1, []⟩]
    (portsAfter msgs).nPorts = 1 ∧ (portsAfter msgs).portFind 1 = some ⟨1, 1, 0, []⟩ ∧
      lastReported msgs 1 = some ⟨1, 1, 0, []⟩ ∧
        exactMasks (portsAfter msgs) next.updates = [{}, ⟨0, 1⟩] ∧
      (recvPorts (portsAfter msgs) {} next.updates).2 =
        exactMasks (portsAfter msgs) next.updates := by
  intro msgs next
  have tells : next.Tells (portsAfter msgs) := ⟨rfl, trivial⟩
  obtain ⟨⟨-, reported⟩, masks⟩ := portTable_exact_iff msgs
  exact ⟨by decide, by decide, reported 1 _ rfl, by decide, (masks next).mpr tells⟩

/-- Port 1 loses its link in an add, and in a description behind a new port that is down. -/
theorem known_port_not_reported :
    let sw := portsAfter [.status ⟨1, 0, 0, []⟩ .add]
    (recvPorts sw {} (PortMsg.status ⟨1, 0, 1, []⟩ .add).updates).2 = [{}] ∧
    exactMasks sw (PortMsg.status ⟨1, 0, 1, []⟩ .add).updates = [⟨0, 1⟩] ∧
    (recvPorts sw {} (PortMsg.portDesc [⟨2, 1, 0, []⟩, ⟨1, 0, 1, []⟩]).updates).2 =
      [⟨1, 0⟩, ⟨1, 0⟩] := by
  decide

/-- The two locks, held or not, and `last_fp_aging_time`. -/
structure FpAging where
  ctrlLock : Bool := false
  swLock : Bool := false
  lastFpAgingTime : Int
  deriving DecidableEq

def cSwitchFpAgingTimeo : Int := 10

/-- `c_l2fdb_deactivate_on_port_down`, at `ctime`. -/
def l2fdbDeactivateOnPortDown (fp : FpAging) (ctime : Int) : FpAging :=
  let fp := { fp with ctrlLock := true }
  if ctime - fp.lastFpAgingTime > cSwitchFpAgingTimeo then fp
  else { fp with lastFpAgingTime := ctime - cSwitchFpAgingTimeo + 2, ctrlLock := false }

def PortMask.down (mask : PortMask) : Bool :=
  mask.config &&& cMlpcDown != 0 || mask.state &&& cMlpsDown != 0

def SwPort.down (port : SwPort) : Bool := PortMask.down ⟨port.config, port.state⟩

/-- `c_l2_port_status`. -/
def l2PortStatus (fp : FpAging) (ctime : Int) (mask : PortMask) : FpAging :=
  if mask.down then l2fdbDeactivateOnPortDown fp ctime else fp

/-- `c_signal_app_event` for a port change: both locks, taken and released around the calls. -/
def signalAppEvent (fp : FpAging) : FpAging :=
  let fp := { fp with ctrlLock := true, swLock := true }
  { fp with ctrlLock := false, swLock := false }

/-- `of10_recv_port_status` and `of131_recv_port_status`. -/
def recvPortStatus (sw : PortTable) (fp : FpAging) (ctime : Int) (desc : SwPort)
    (reason : OfpPortReason) : PortTable × FpAging :=
  let fp := { fp with swLock := true }
  let (sw, chgMask) := sw.portUpdate desc {} reason
  let fp := { fp with swLock := false }
  (sw, l2PortStatus (signalAppEvent fp) ctime chgMask)

/-- The aging in `c_per_sw_timer` at `tick.1`, which ends at `tick.2`. -/
def perSwTimer (last : Int) (tick : Int × Int) : Int :=
  if tick.1 - last > cSwitchFpAgingTimeo then tick.2 else last

/-- Aging is due at the first tick that is over two seconds later. -/
def AgingDue (last now : Int) : Prop :=
  ∀ early : List (Int × Int), (∀ tick ∈ early, now ≤ tick.1 ∧ tick.1 ≤ now + 2 ∧ tick.1 ≤ tick.2) →
    ∀ first, first > now + 2 → first - early.foldl perSwTimer last > cSwitchFpAgingTimeo

theorem agingDue_iff (last now : Int) : AgingDue last now ↔ last = now - 8 := by
  constructor
  · intro due
    have atOnce : now + 3 - last > 10 := due [] (by simp) (now + 3) (by omega)
    by_contra other
    have later := due [(now + 2, now + 2)] (by simp) (now + 3) (by omega)
    rw [List.foldl_cons, perSwTimer, if_pos (by unfold cSwitchFpAgingTimeo; omega)] at later
    simp [cSwitchFpAgingTimeo] at later
  · rintro rfl early within first past
    have same : early.foldl perSwTimer (now - 8) = now - 8 := by
      induction early with
      | nil => rfl
      | cons tick rest ih =>
        have := within tick (by simp)
        rw [List.foldl_cons, perSwTimer, if_neg (by unfold cSwitchFpAgingTimeo; omega)]
        exact ih fun other member => within other (by simp [member])
    unfold cSwitchFpAgingTimeo
    omega

/-- The stored port is down and was not before. -/
def WentDown (before after : Option SwPort) : Prop :=
  (∃ port ∈ after, port.down) ∧ ∀ port ∈ before, port.down = false

/-- A new port that is down and a change of a down bit come while aging is not due; an add
that takes a known port down comes eight seconds after the last aging. -/
def Timely (sw : PortTable) (last now : Int) (desc : SwPort) : OfpPortReason → Prop
  | .add =>
    desc.portNo ≠ 0 → desc.down →
      match sw.portFind desc.portNo with
      | none => now - last ≤ cSwitchFpAgingTimeo
      | some port => port.down = false → last = now - 8
  | .modify =>
    ∀ port ∈ sw.portFind desc.portNo, (port.differs desc).down → now - last ≤ cSwitchFpAgingTimeo
  | .delete | .unknown => True

/-- The locks are free, and a port that went down has aging due. -/
def FpAging.Settled (fp : FpAging) (now : Int) (wentDown : Prop) : Prop :=
  fp.ctrlLock = false ∧ fp.swLock = false ∧ (wentDown → AgingDue fp.lastFpAgingTime now)

theorem settled_told (told : mask.down = true) (last now : Int) (wentDown : Prop) :
    (l2PortStatus ⟨false, false, last⟩ now mask).Settled now wentDown ↔
      now - last ≤ cSwitchFpAgingTimeo := by
  rw [l2PortStatus, if_pos told, l2fdbDeactivateOnPortDown]
  by_cases late : now - last > cSwitchFpAgingTimeo
  · exact iff_of_false (by simp [late, FpAging.Settled]) (not_le.2 late)
  · have due : AgingDue (now - cSwitchFpAgingTimeo + 2) now :=
      (agingDue_iff _ _).2 (by unfold cSwitchFpAgingTimeo; omega)
    simp [FpAging.Settled, late, due, not_lt.1 late]

theorem settled_untold (untold : mask.down = false) (last now : Int) (wentDown : Prop) :
    (l2PortStatus ⟨false, false, last⟩ now mask).Settled now wentDown ↔
      (wentDown → last = now - 8) := by
  simp [l2PortStatus, untold, FpAging.Settled, agingDue_iff]

theorem down_empty : PortMask.down {} = false := by
  decide

theorem not_wentDown_self (port : Option SwPort) : ¬WentDown port port := by
  rintro ⟨⟨now, member, down⟩, up⟩
  exact absurd down (by simp [up now member])

private theorem masked_eq {mask : BitVec 32} (same : (bits ^^^ other) &&& mask = 0) :
    bits &&& mask = other &&& mask := by
  apply BitVec.xor_eq_zero_iff.1
  refine Eq.trans ?_ same
  ext index inside
  simp only [BitVec.getElem_xor, BitVec.getElem_and]
  cases mask[index] <;> simp

/-- Without a differing down bit both ports are down or neither. -/
theorem SwPort.down_eq {port desc : SwPort} (same : (port.differs desc).down = false) :
    desc.down = port.down := by
  simp only [PortMask.down, SwPort.differs, Bool.or_eq_false_iff, bne_eq_false_iff_eq] at same
  simp [SwPort.down, PortMask.down, masked_eq same.1, masked_eq same.2]

/-- After a port status the locks are free, and aging is due if the port went down, exactly
if the message is timely. -/
theorem recvPortStatus_settled_iff (sw : PortTable) (last now : Int) (desc : SwPort)
    (reason : OfpPortReason) :
    (recvPortStatus sw ⟨false, false, last⟩ now desc reason).2.Settled now
        (WentDown (sw.portFind desc.portNo)
          ((recvPortStatus sw ⟨false, false, last⟩ now desc reason).1.portFind desc.portNo)) ↔
      Timely sw last now desc reason := by
  change (l2PortStatus ⟨false, false, last⟩ now (sw.portUpdate desc {} reason).2).Settled now
    (WentDown _ ((sw.portUpdate desc {} reason).1.portFind desc.portNo)) ↔ _
  have unchanged : (l2PortStatus ⟨false, false, last⟩ now {}).Settled now
      (WentDown (sw.portFind desc.portNo) (sw.portFind desc.portNo)) :=
    (settled_untold down_empty ..).2 fun down => absurd down (not_wentDown_self _)
  cases reason with
  | unknown => exact iff_of_true unchanged trivial
  | delete =>
    refine iff_of_true ((settled_untold down_empty last now _).2 ?_) trivial
    rintro ⟨⟨port, left, _⟩, _⟩
    exact absurd ((sw.portFind_portDelete desc).symm.trans left) (by simp)
  | add =>
    rcases sw.portUpdate_add desc {} with
      ⟨zero, same⟩ | ⟨nonzero, stored, ⟨fresh, added⟩ | ⟨port, known, added⟩⟩
    · rw [same]
      exact iff_of_true unchanged fun nonzero => absurd zero nonzero
    · rw [added, stored]
      cases down : desc.down with
      | true => simp [settled_told down, Timely, fresh, down, show desc.portNo ≠ 0#32 from nonzero]
      | false => simp [settled_untold down, Timely, WentDown, down]
    · rw [added, stored, settled_untold down_empty]
      simp [Timely, known, WentDown, show desc.portNo ≠ 0#32 from nonzero]
  | modify =>
    cases found : sw.portFind desc.portNo with
    | none =>
      simp only [PortTable.portUpdate, found]
      exact iff_of_true (found ▸ unchanged) (by simp [Timely, found])
    | some port =>
      simp only [PortTable.portUpdate, found]
      rw [PortTable.portFind]
      cases down : (port.differs desc).down with
      | true => simp [settled_told down, Timely, found, down]
      | false => simp [settled_untold down, Timely, WentDown, found, down, SwPort.down_eq down]

theorem recvPortStatus_settled_early :
    (recvPortStatus {} ⟨false, false, 0⟩ 5 ⟨1, 0, 1, []⟩ .add).2.Settled 5
    (WentDown none (some ⟨1, 0, 1, []⟩)) :=
  (recvPortStatus_settled_iff {} 0 5 ⟨1, 0, 1, []⟩ .add).2 fun _ _ => show (5 : Int) - 0 ≤ 10 by
    decide

/-- Port 1 is new and down eleven seconds after the last aging. -/
theorem controller_lock_kept :
    (recvPortStatus {} ⟨false, false, 0⟩ 11 ⟨1, 0, 1, []⟩ .add).2 = ⟨true, false, 0⟩ := by
  decide

end OpenMul
