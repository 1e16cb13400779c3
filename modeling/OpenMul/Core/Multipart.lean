import OpenMul.Core.PacketIn
import OpenMul.Core.Switch
import OpenMul.Lib.RecordWalk

namespace OpenMul

open Lib (wordAt RecordLoop Turn Visit)

/-- `ntohs` of the field at an offset. -/
def ntohsAt (mem : List Byte) (ofs : Nat) : Nat := (wordAt 16 (mem.drop ofs)).toNat

/-- The loop over one kind of records. `size` is the length of a record as the
specification has it, `least` the least it may be, and `single` tells the bodies
that are one record. -/
structure Records where
  loop : RecordLoop
  turns : Nat
  size : Nat → Nat
  least : Nat
  single : Bool := false

/-- The records of a message that are looked at, from an offset on. -/
def Records.visits (records : Records) (start length : Nat) : List Visit :=
  records.loop.walk records.turns start ((length : Int) - start)

def ofpMultipartReplySz : Nat := 16
def ofpStatsReplySz : Nat := 12
def ofpDescStatsSz : Nat := 1056
def ofp131PortSz : Nat := 64
def ofp140PortSz : Nat := 40
def ofpPortDescPropEthernetSz : Nat := 32
def ofp131FlowStatsSz : Nat := 56
def ofp131FlowStatsMatch : Nat := 48
def ofpTableFeaturesSz : Nat := 64
def ofpTableFeaturePropHeaderSz : Nat := 4
def ofpGroupFeaturesSz : Nat := 40
def ofpMeterFeaturesSz : Nat := 16
def ofpMeterStatsSz : Nat := 40
def ofpMeterConfigSz : Nat := 8
def ofpMeterBandHeaderSz : Nat := 12
def ofpGroupDescSz : Nat := 8
def ofpBucketSz : Nat := 16
def ofpGroupStatsSz : Nat := 40
def ofp131PortStatsSz : Nat := 112
def ofp140PortStatsSz : Nat := 80
def ofp131TableStatsSz : Nat := 24
def ofp131QueueStatsSz : Nat := 40
def ofpFlowStatsSz : Nat := 88
def ofpPortStatsSz : Nat := 104

def ofswMaxRealPorts : Nat := 1024
def ofswMaxFlowStatsColl : Nat := 2048
def ofswMaxGroupStatsColl : Nat := 5000
def ofswMaxMeterStatsColl : Nat := 5000
def ofswMaxPortStatsColl : Nat := 5000
def ofpMaxTableProps : Nat := 16

/-- Records of one size. -/
def fixedLoop (size : Nat) : RecordLoop where
  enters left := decide ((size : Int) ≤ left)
  turn _ _ := .on size [] size

/-- The step over a record by its length, which the loop `checks` against what is
left or not. -/
def lengthTurn (checks : Bool) (size : Nat) (length : Nat → Nat) (parts : Nat → List (Nat × Nat))
    (takes : Nat → Bool) (pos : Nat) (left : Int) : Turn :=
  if checks ∧ left < length pos then .refuse size
  else .on (max size (length pos)) (parts pos) (length pos) (takes pos)

/-- Records that carry their length. -/
def lengthLoop (checks : Bool) (size : Nat) (length : Nat → Nat)
    (parts : Nat → List (Nat × Nat) := fun _ => []) (takes : Nat → Bool := fun _ => true) :
    RecordLoop where
  enters left := decide ((size : Int) ≤ left)
  turn := lengthTurn checks size length parts takes

/-- A body that is one record. -/
def singleLoop (size : Nat) : RecordLoop where
  enters left := decide ((size : Int) ≤ left)
  turn _ _ := .last size []

/-- The places of the parts a walk over them looked at. -/
def partsOf (visits : List Visit) : List (Nat × Nat) := visits.map fun visit =>
    (visit.ofs, visit.size)

section Records

variable (mem : List Byte)

/-- The loop over `ofp_mc->bands`. -/
def meterBandLoop : RecordLoop :=
  lengthLoop true ofpMeterBandHeaderSz fun pos => ntohsAt mem (pos + 2)

/-- The loop over `ofp_gs->buckets`. The actions of a bucket shorter than its header
have a negative length, and `calloc` refuses that. -/
def bucketLoop : RecordLoop where
  enters left := decide ((ofpBucketSz : Int) ≤ left)
  turn pos left :=
    let bktLen := ntohsAt mem pos
    if left < bktLen ∨ bktLen < ofpBucketSz then .refuse ofpBucketSz else .on bktLen [] bktLen

/-- The types of properties `of131_proc_one_tbl_feature` has a case for. -/
def tblFeatPropKnown (type : Nat) : Bool :=
  decide (type ≤ 7) || decide (12 ≤ type && type ≤ 15) || type == 0xfffe || type == 0xffff

/-- The loop of `of131_proc_one_tbl_feature`. -/
def tblFeatPropLoop : RecordLoop where
  enters left := decide (cAlign8bLen ofpTableFeaturePropHeaderSz ≤ sizeT left)
  turn pos left :=
    let propLen := cAlign8bLen (ntohsAt mem (pos + 2))
    if left < propLen ∨ propLen < cAlign8bLen ofpTableFeaturePropHeaderSz then
      .refuse (cAlign8bLen ofpTableFeaturePropHeaderSz)
    else if tblFeatPropKnown (ntohsAt mem pos) then .on propLen [] propLen
    else .refuse propLen

/-- `of131_proc_one_tbl_feature`: the properties it looks at. -/
def of131ProcOneTblFeature (pos : Nat) : List Visit :=
  (tblFeatPropLoop mem).walk ofpMaxTableProps (pos + ofpTableFeaturesSz) (ntohsAt mem pos)

/-- `of131_proc_one_flow_stats`: what it returns. -/
def of131ProcOneFlowStats (pos : Nat) : Int :=
  let matchLen := cAlign8bLen (ntohsAt mem (pos + ofp131FlowStatsMatch + 2))
  let instLen : Int := (ntohsAt mem pos : Int) - (ofp131FlowStatsMatch + matchLen : Nat)
  if instLen < 0 then -1
  else if (of131OfpxMatchToFlow (mem.drop (pos + ofp131FlowStatsMatch))).1 ≠ 0 then -1
  else instLen

/-- The loop over `ofp131_flow_stats`. -/
def flowStatsLoop : RecordLoop where
  enters left := decide ((ofp131FlowStatsSz : Int) ≤ left)
  turn pos left :=
    if left < ntohsAt mem pos then .refuse ofp131FlowStatsSz
    else if of131ProcOneFlowStats mem pos < 0 then .refuse (max ofp131FlowStatsSz (ntohsAt mem pos))
    else .on (max ofp131FlowStatsSz (ntohsAt mem pos)) [] (ntohsAt mem pos)

/-- The loop over `ofp_table_features`. Its test compares with a `size_t`, so a
negative rest passes it. -/
def tableFeaturesLoop : RecordLoop where
  enters left := decide (ofpTableFeaturesSz ≤ sizeT left)
  turn := lengthTurn false ofpTableFeaturesSz (ntohsAt mem)
    (fun pos => partsOf (of131ProcOneTblFeature mem pos)) fun _ => true

/-- Whether `of140_process_port` returns a port. The length it tests is not brought to
the order of the host. -/
def of140ProcessPort (pos : Nat) : Bool :=
  let length := ntohsAt mem (pos + 4)
  let swapped := length % 256 * 256 + length / 256
  let remLen := (swapped + 2 ^ 16 - ofp140PortSz) % 2 ^ 16
  !decide (remLen ≤ ofpPortDescPropEthernetSz)

/-- The property it then looks at. -/
def of140PortParts (pos : Nat) : List (Nat × Nat) :=
  if of140ProcessPort mem pos then [(pos + ofp140PortSz, ofpPortDescPropEthernetSz)] else []

def of131ProcessPortStats : Records where
  loop := fixedLoop ofp131PortStatsSz
  turns := ofswMaxPortStatsColl
  size _ := ofp131PortStatsSz
  least := ofp131PortStatsSz

def of140ProcessPortStats : Records where
  loop := lengthLoop false ofp140PortStatsSz (ntohsAt mem)
  turns := ofswMaxPortStatsColl
  size := ntohsAt mem
  least := ofp140PortStatsSz

end Records

/-- The types of replies that are handled. -/
inductive OfpMultipart where
  | desc | flow | table | portStats | queue | group | groupDesc | groupFeatures
  | meter | meterConfig | meterFeatures | tableFeatures | portDesc
  deriving DecidableEq, Repr

def OfpMultipart.ofCode : Nat → Option OfpMultipart
  | 0 => some desc
  | 1 => some flow
  | 3 => some table
  | 4 => some portStats
  | 5 => some queue
  | 6 => some group
  | 7 => some groupDesc
  | 8 => some groupFeatures
  | 9 => some meter
  | 10 => some meterConfig
  | 11 => some meterFeatures
  | 12 => some tableFeatures
  | 13 => some portDesc
  | _ => none

/-- What the loops read of the switch. `probes` tells the records whose meter or group
is unknown while a master probes for it: their bands or buckets are walked. -/
structure MpartState where
  of140 : Bool := false
  probes : Nat → Bool := fun _ => false

/-- The cases of `of13_14_mpart_process`. -/
def mpartRecords (sw : MpartState) (mem : List Byte) : OfpMultipart → Records
  | .desc =>
    { loop := singleLoop ofpDescStatsSz, turns := 1, size := fun _ => ofpDescStatsSz
      least := ofpDescStatsSz, single := true }
  | .portDesc =>
    if sw.of140 then
      { loop := lengthLoop false ofp131PortSz (fun pos => ntohsAt mem (pos + 4))
          (of140PortParts mem) (of140ProcessPort mem)
        turns := ofswMaxRealPorts, size := fun pos => ntohsAt mem (pos + 4), least := ofp140PortSz }
    else
      { loop := fixedLoop ofp131PortSz, turns := ofswMaxRealPorts, size := fun _ => ofp131PortSz
        least := ofp131PortSz }
  | .flow =>
    { loop := flowStatsLoop mem, turns := ofswMaxFlowStatsColl, size := ntohsAt mem
      least := ofp131FlowStatsSz }
  | .tableFeatures =>
    { loop := tableFeaturesLoop mem, turns := maxRuleFlowTbls, size := ntohsAt mem
      least := ofpTableFeaturesSz }
  | .groupFeatures =>
    { loop := singleLoop ofpGroupFeaturesSz, turns := 1, size := fun _ => ofpGroupFeaturesSz
      least := ofpGroupFeaturesSz, single := true }
  | .meterFeatures =>
    { loop := singleLoop ofpMeterFeaturesSz, turns := 1, size := fun _ => ofpMeterFeaturesSz
      least := ofpMeterFeaturesSz, single := true }
  | .meter =>
    { loop := lengthLoop true ofpMeterStatsSz fun pos => ntohsAt mem (pos + 4)
      turns := ofswMaxGroupStatsColl, size := fun pos => ntohsAt mem (pos + 4), least :=
        ofpMeterStatsSz }
  | .meterConfig =>
    { loop := lengthLoop true ofpMeterConfigSz (ntohsAt mem) fun pos =>
        if sw.probes pos then
          partsOf ((meterBandLoop mem).walk ofMaxMeterVectors (pos + ofpMeterConfigSz)
            ((ntohsAt mem pos : Int) - ofpMeterConfigSz))
        else []
      turns := ofswMaxMeterStatsColl, size := ntohsAt mem, least := ofpMeterConfigSz }
  | .groupDesc =>
    { loop := lengthLoop true ofpGroupDescSz (ntohsAt mem) fun pos =>
        if sw.probes pos then
          partsOf ((bucketLoop mem).walk ofMaxActVectors (pos + ofpGroupDescSz)
            ((ntohsAt mem pos : Int) - ofpGroupDescSz))
        else []
      turns := ofswMaxGroupStatsColl, size := ntohsAt mem, least := ofpGroupDescSz }
  | .group =>
    { loop := lengthLoop true ofpGroupStatsSz (ntohsAt mem)
      turns := ofswMaxGroupStatsColl, size := ntohsAt mem, least := ofpGroupStatsSz }
  | .portStats => if sw.of140 then of140ProcessPortStats mem else of131ProcessPortStats
  -- `loops-- >= 0` makes one turn more than it counts.
  | .table =>
    { loop := fixedLoop ofp131TableStatsSz, turns := 256, size := fun _ => ofp131TableStatsSz
      least := ofp131TableStatsSz }
  | .queue =>
    { loop := fixedLoop ofp131QueueStatsSz, turns := 65536, size := fun _ => ofp131QueueStatsSz
      least := ofp131QueueStatsSz }

/-- `of13_14_mpart_process`: the records it looks at. -/
def of1314MpartProcess (sw : MpartState) (mem : List Byte) : List Visit :=
  if ofHdrLength mem < ofpMultipartReplySz then []
  else
    match OfpMultipart.ofCode (ntohsAt mem 8) with
    | none => []
    | some type => (mpartRecords sw mem type).visits ofpMultipartReplySz (ofHdrLength mem)

/-- The types of OpenFlow 1.0 replies that are handled. -/
inductive OfpStats where
  | flow | port
  deriving DecidableEq, Repr

def OfpStats.ofCode : Nat → Option OfpStats
  | 1 => some flow
  | 4 => some port
  | _ => none

/-- `of10_proc_one_flow_stats`: the length of the actions, which it returns. -/
def of10ProcOneFlowStats (mem : List Byte) (pos : Nat) : Int :=
  (ntohsAt mem pos : Int) - ofpFlowStatsSz

/-- The loop over `ofp_flow_stats`. -/
def of10FlowStatsLoop (mem : List Byte) : RecordLoop where
  enters left := decide (0 < left)
  turn pos _ :=
    if of10ProcOneFlowStats mem pos = 0 then .last (max ofpFlowStatsSz (ntohsAt mem pos)) []
    else .on (max ofpFlowStatsSz (ntohsAt mem pos)) []
      (ofpFlowStatsSz + of10ProcOneFlowStats mem pos).toNat

/-- The loop over `ofp_port_stats`. -/
def of10PortStatsLoop : RecordLoop where
  enters left := decide (0 < left)
  turn _ _ := .on ofpPortStatsSz [] ofpPortStatsSz

/-- The cases of `of10_recv_stats_reply`. The loops have no count of turns. -/
def statsRecords (mem : List Byte) (turns : Nat) : OfpStats → Records
  | .flow => { loop := of10FlowStatsLoop mem, turns, size := ntohsAt mem, least := ofpFlowStatsSz }
  | .port =>
    { loop := of10PortStatsLoop, turns, size := fun _ => ofpPortStatsSz, least := ofpPortStatsSz }

/-- `of10_recv_stats_reply`: the records it looks at in its first turns. -/
def of10RecvStatsReply (turns : Nat) (mem : List Byte) : List Visit :=
  if ofHdrLength mem < ofpStatsReplySz then []
  else
    match OfpStats.ofCode (ntohsAt mem 8) with
    | none => []
    | some type => (statsRecords mem turns type).visits ofpStatsReplySz (ofHdrLength mem)

end OpenMul
