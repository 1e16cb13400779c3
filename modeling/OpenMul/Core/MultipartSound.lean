import OpenMul.Core.MultipartFits

namespace OpenMul

open Lib

/-- The records fill the message from an offset on. -/
structure Records.WellFormed (records : Records) (start length : Nat) (starts : List Nat) :
    Prop where
  tiles : Tiles records.size start length starts
  least : ∀ pos ∈ starts, records.least ≤ records.size pos
  single : records.single = true → starts.length = 1

/-- Each of the records is taken, in their order and no other. -/
def TakenOnce (visits : List Visit) (starts : List Nat) : Prop :=
  visits.map (fun visit => (visit.ofs, visit.taken)) = starts.map fun pos => (pos, true)

structure MpartSound (sw : MpartState) (mem : List Byte) : Prop where
  orderly : Orderly (ofHdrLength mem) (of1314MpartProcess sw mem)
  once : ∀ type starts, OfpMultipart.ofCode (ntohsAt mem 8) = some type →
    (mpartRecords sw mem type).WellFormed ofpMultipartReplySz (ofHdrLength mem) starts →
    TakenOnce (of1314MpartProcess sw mem) starts

/-- The loops of OpenFlow 1.0 are followed for any number of turns. -/
structure StatsSound (mem : List Byte) : Prop where
  orderly : ∀ turns, Orderly (ofHdrLength mem) (of10RecvStatsReply turns mem)
  once : ∀ type starts turns, OfpStats.ofCode (ntohsAt mem 8) = some type →
    (statsRecords mem turns type).WellFormed ofpStatsReplySz (ofHdrLength mem) starts →
    starts.length ≤ turns → TakenOnce (of10RecvStatsReply turns mem) starts

/-- The lengths in a multipart reply lead from record to record inside it. -/
def MpartFits (sw : MpartState) (mem : List Byte) (length : Nat) : OfpMultipart → Prop
  | .portDesc => sw.of140 = true →
      LengthsFit false ofp131PortSz (fun pos => ntohsAt mem (pos + 4))
        (fun pos => of140ProcessPort mem pos = true →
          pos + ofp140PortSz + ofpPortDescPropEthernetSz ≤ length)
        length ofswMaxRealPorts ofpMultipartReplySz
  | .portStats => sw.of140 = true →
      LengthsFit false ofp140PortStatsSz (ntohsAt mem) (fun _ => True) length ofswMaxPortStatsColl
        ofpMultipartReplySz
  | .tableFeatures =>
      LengthsFit false ofpTableFeaturesSz (ntohsAt mem)
        (fun pos => PropsFit mem (pos + ofpTableFeaturesSz + ntohsAt mem pos) length
          ofpMaxTableProps (pos + ofpTableFeaturesSz))
        length maxRuleFlowTbls ofpMultipartReplySz
  | .meter =>
      LengthsFit true ofpMeterStatsSz (fun pos => ntohsAt mem (pos + 4)) (fun _ => True) length
        ofswMaxGroupStatsColl ofpMultipartReplySz
  | .meterConfig =>
      LengthsFit true ofpMeterConfigSz (ntohsAt mem)
        (fun pos => sw.probes pos = true →
          LengthsFit true ofpMeterBandHeaderSz (fun band => ntohsAt mem (band + 2)) (fun _ => True)
            (pos + ntohsAt mem pos) ofMaxMeterVectors (pos + ofpMeterConfigSz))
        length ofswMaxMeterStatsColl ofpMultipartReplySz
  | .groupDesc =>
      LengthsFit true ofpGroupDescSz (ntohsAt mem) (fun _ => True) length ofswMaxGroupStatsColl
        ofpMultipartReplySz
  | .group =>
      LengthsFit true ofpGroupStatsSz (ntohsAt mem) (fun _ => True) length ofswMaxGroupStatsColl
        ofpMultipartReplySz
  | .desc | .flow | .table | .queue | .groupFeatures | .meterFeatures => True

/-- A record that its loop takes, of those that fill a reply. -/
def MpartReady (sw : MpartState) (mem : List Byte) (length : Nat) : OfpMultipart → Nat → Prop
  | .flow, pos => 0 ≤ of131ProcOneFlowStats mem pos
  | .portDesc, pos =>
    sw.of140 = true → pos + ofp131PortSz ≤ length ∧ of140ProcessPort mem pos = true
  | _, _ => True

variable {checks : Bool} {least start : Nat} {size : Nat → Nat} {parts : Nat → List (Nat × Nat)}
  {takes : Nat → Bool} {loop : RecordLoop}

section Mpart

variable {sw : MpartState} {mem : List Byte} {length turns : Nat} {starts : List Nat}

theorem lengthLoop_fits (within : start ≤ length)
    (fit : ∀ pos, pos + size pos ≤ length → (partsFit pos ↔ PartsInside length (parts pos))) :
    (lengthLoop checks least size parts takes).Fits length length turns start ↔
      LengthsFit checks least size partsFit length turns start := by
  refine lengthLoop_fits_iff ?_ rfl (Nat.le_refl _) (Or.inr rfl) fit within
  intro pos _
  apply decide_eq_decide.mpr
  omega

theorem plainLoop_fits (within : start ≤ length) :
    (lengthLoop checks least size).Fits length length turns start ↔
      LengthsFit checks least size (fun _ => True) length turns start := by
  apply lengthLoop_fits within
  intro pos _
  exact ⟨fun _ => partsInside_nil _, fun _ => trivial⟩

theorem of140PortParts_inside (pos : Nat) :
    (of140ProcessPort mem pos = true → pos + ofp140PortSz + ofpPortDescPropEthernetSz ≤ length) ↔
      PartsInside length (of140PortParts mem pos) := by
  unfold of140PortParts
  cases of140ProcessPort mem pos with
  | false => simpa using partsInside_nil _
  | true => simp [PartsInside]

theorem buckets_inside (ends : pos + ntohsAt mem pos ≤ length) :
    PartsInside length (partsOf ((bucketLoop mem).walk turns (pos + ofpGroupDescSz)
      ((ntohsAt mem pos : Int) - ofpGroupDescSz))) := by
  have plain : ∀ pos left, (((bucketLoop mem).turn pos left).visit pos).parts = [] := by
    intro pos left
    simp only [bucketLoop]
    split <;> rfl
  have rest : (ntohsAt mem pos : Int) - ofpGroupDescSz =
      ((pos + ntohsAt mem pos : Nat) : Int) - (pos + ofpGroupDescSz : Nat) := by omega
  rw [partsInside_partsOf (walk_plain plain _ _ _), rest, RecordLoop.walk_orderly_iff]
  exact bucketLoop_fits ends

/-- The conditions on the lengths say what the loops need. -/
theorem mpartRecords_fits_iff (long : ofpMultipartReplySz ≤ length) (small : length < 2 ^ 16)
    (type : OfpMultipart) :
    (mpartRecords sw mem type).loop.Fits length length (mpartRecords sw mem type).turns
      ofpMultipartReplySz ↔ MpartFits sw mem length type := by
  cases type with
  | desc | groupFeatures | meterFeatures => exact ⟨fun _ => trivial, fun _ => singleLoop_fits⟩
  | table | queue => exact ⟨fun _ => trivial, fun _ => fixedLoop_fits (by decide)⟩
  | flow => exact ⟨fun _ => trivial, fun _ => flowStatsLoop_fits⟩
  | meter | group => exact plainLoop_fits long
  | portStats =>
    obtain ⟨of140, probes⟩ := sw
    cases of140 with
    | true =>
      exact ⟨fun fits _ => (plainLoop_fits long).mp fits,
        fun fit => (plainLoop_fits long).mpr (fit rfl)⟩
    | false => exact ⟨fun _ => nofun, fun _ => fixedLoop_fits (by decide)⟩
  | portDesc =>
    obtain ⟨of140, probes⟩ := sw
    cases of140 with
    | true =>
      have fits := @lengthLoop_fits false ofp131PortSz _ (fun pos => ntohsAt mem (pos + 4)) _
        (of140ProcessPort mem) length ofswMaxRealPorts _ long
        fun pos _ => @of140PortParts_inside mem length pos
      exact ⟨fun loop _ => fits.mp loop, fun fit => fits.mpr (fit rfl)⟩
    | false => exact ⟨fun _ => nofun, fun _ => fixedLoop_fits (by decide)⟩
  | tableFeatures =>
    refine lengthLoop_fits_iff ?_ rfl (Nat.le_refl _) (Or.inr rfl) ?_ long
    · intro pos within
      exact sizeT_rest within (Nat.lt_trans small (by decide))
    · intro pos ends
      apply tblFeatProps_inside_iff
      have header : ofpTableFeaturesSz = 64 := rfl
      omega
  | groupDesc =>
    apply lengthLoop_fits long
    intro pos ends
    refine ⟨fun _ => ?_, fun _ => trivial⟩
    split
    · exact buckets_inside ends
    · exact partsInside_nil _
  | meterConfig =>
    apply lengthLoop_fits long
    intro pos ends
    cases sw.probes pos with
    | true => simpa using meterBands_inside_iff ends
    | false => simpa using partsInside_nil _

theorem lengthTurn_step {left : Int}
    (turn : loop.turn = lengthTurn checks least size parts takes)
    (steps : (loop.turn pos left).step = some step) : step = size pos := by
  rw [turn, lengthTurn] at steps
  split at steps <;> cases steps
  rfl

theorem mpartRecords_steps (type : OfpMultipart) (pos : Nat) (left : Int) (step : Nat)
    (steps : ((mpartRecords sw mem type).loop.turn pos left).step = some step) :
    step = (mpartRecords sw mem type).size pos := by
  cases type with
  | desc | groupFeatures | meterFeatures => cases steps
  | table | queue => cases steps; rfl
  | meter | group | groupDesc | meterConfig => exact lengthTurn_step rfl steps
  | tableFeatures => exact @lengthTurn_step false _ _ _ _ _ _ _ _ rfl steps
  | portStats | portDesc =>
    obtain ⟨of140, probes⟩ := sw
    cases of140 with
    | true => exact @lengthTurn_step false _ _ _ _ _ _ _ _ rfl steps
    | false => cases steps; rfl
  | flow =>
    simp only [mpartRecords, flowStatsLoop] at steps ⊢
    split at steps
    · cases steps
    · split at steps <;> cases steps
      rfl

theorem mpartRecords_ends (type : OfpMultipart) :
    (mpartRecords sw mem type).loop.enters 0 = false := by
  cases type with
  | portStats | portDesc =>
    obtain ⟨of140, probes⟩ := sw
    cases of140 <;> rfl
  | _ => rfl

theorem covers_iff {ready : Nat → Prop}
    (each : ∀ pos ∈ starts, (loop.enters ((length : Int) - pos) = true ∧
      ((loop.turn pos ((length : Int) - pos)).visit pos).taken = true) ↔ ready pos)
    (goes : ∀ pos ∈ starts.dropLast, ready pos →
      (loop.turn pos ((length : Int) - pos)).step.isSome = true) :
    loop.Covers length turns starts ↔ starts.length ≤ turns ∧ ∀ pos ∈ starts, ready pos := by
  constructor
  · intro covers
    refine ⟨covers.enough, ?_⟩
    intro pos member
    exact (each pos member).mp ⟨covers.entered pos member, covers.taken pos member⟩
  · intro ⟨enough, all⟩
    refine ⟨enough, ?_, ?_, ?_⟩
    · intro pos member
      exact ((each pos member).mpr (all pos member)).1
    · intro pos member
      exact ((each pos member).mpr (all pos member)).2
    · intro pos member
      exact goes pos member (all pos (List.mem_of_mem_dropLast member))

/-- A record inside the message is taken, if the loop comes to it. -/
theorem lengthTurn_covers
    (enters : ∀ pos ≤ length, loop.enters ((length : Int) - pos) = decide (pos + least ≤ length))
    (turn : loop.turn = lengthTurn checks least size parts takes)
    (inside : ∀ pos ∈ starts, pos + size pos ≤ length) : loop.Covers length turns starts ↔
      starts.length ≤ turns ∧ ∀ pos ∈ starts, pos + least ≤ length ∧ takes pos = true := by
  have taken : ∀ pos ∈ starts, loop.turn pos ((length : Int) - pos) =
      .on (max least (size pos)) (parts pos) (size pos) (takes pos) := by
    intro pos member
    rw [turn]
    exact lengthTurn_taken fun _ => inside pos member
  apply covers_iff
  · intro pos member
    rw [enters pos (Nat.le_trans (Nat.le_add_right _ _) (inside pos member)), taken pos member]
    simp [Turn.visit]
  · intro pos member _
    rw [taken pos (List.mem_of_mem_dropLast member)]
    rfl

theorem lengthLoop_covers (inside : ∀ pos ∈ starts, pos + size pos ≤ length) :
    (lengthLoop checks least size parts takes).Covers length turns starts ↔
      starts.length ≤ turns ∧ ∀ pos ∈ starts, pos + least ≤ length ∧ takes pos = true := by
  refine lengthTurn_covers ?_ rfl inside
  intro pos _
  apply decide_eq_decide.mpr
  omega

theorem fixedLoop_covers {size : Nat} : (fixedLoop size).Covers length turns starts ↔
      starts.length ≤ turns ∧ ∀ pos ∈ starts, pos + size ≤ length := by
  apply covers_iff
  · intro pos _
    simp only [fixedLoop, Turn.visit, decide_eq_true_eq, and_true]
    omega
  · intro pos _ _
    rfl

theorem flowStatsLoop_covers (inside : ∀ pos ∈ starts, pos + ntohsAt mem pos ≤ length)
    (least : ∀ pos ∈ starts, ofp131FlowStatsSz ≤ ntohsAt mem pos) :
    (flowStatsLoop mem).Covers length turns starts ↔
      starts.length ≤ turns ∧ ∀ pos ∈ starts, 0 ≤ of131ProcOneFlowStats mem pos := by
  have fits : ∀ pos ∈ starts, ¬(length : Int) - pos < ntohsAt mem pos := by
    intro pos member
    have := inside pos member
    omega
  apply covers_iff
  · intro pos member
    have entered : (flowStatsLoop mem).enters ((length : Int) - pos) = true := by
      have := inside pos member
      have := least pos member
      exact decide_eq_true (by omega)
    rw [entered]
    simp only [true_and, flowStatsLoop, if_neg (fits pos member)]
    split
    · simpa [Turn.visit] using ‹_›
    · simpa [Turn.visit] using Int.not_lt.mp ‹_›
  · intro pos member ready
    simp only [flowStatsLoop, if_neg (fits pos (List.mem_of_mem_dropLast member)),
      if_neg (Int.not_lt.mpr ready)]
    rfl

theorem singleLoop_covers {size : Nat} (inside : ∀ pos ∈ starts, pos + size ≤ length)
    (one : starts.length = 1) : (singleLoop size).Covers length turns starts ↔
      starts.length ≤ turns ∧ ∀ pos ∈ starts, True := by
  apply covers_iff
  · intro pos member
    have := inside pos member
    simp only [singleLoop, Turn.visit, decide_eq_true_eq, and_true, iff_true]
    omega
  · intro pos member _
    obtain ⟨only, rfl⟩ := List.length_eq_one_iff.mp one
    cases member

/-- The records of a well-formed reply are covered if turns suffice and each is ready. -/
theorem mpartRecords_covers_iff (small : length < 2 ^ 64)
    (formed : (mpartRecords sw mem type).WellFormed start length starts) :
    (mpartRecords sw mem type).loop.Covers length (mpartRecords sw mem type).turns starts ↔
      starts.length ≤ (mpartRecords sw mem type).turns ∧ ∀ pos ∈ starts,
        MpartReady sw mem length type pos := by
  have inside := formed.tiles.inside
  have room : ∀ pos ∈ starts, pos + (mpartRecords sw mem type).least ≤ length := by
    intro pos member
    exact Nat.le_trans (Nat.add_le_add_left (formed.least pos member) _) (inside pos member)
  have ready : (∀ pos ∈ starts, pos + (mpartRecords sw mem type).least ≤ length) ↔
      ∀ pos ∈ starts, True := ⟨fun _ _ _ => trivial, fun _ => room⟩
  have taken : (∀ pos ∈ starts, pos + (mpartRecords sw mem type).least ≤ length ∧ true = true) ↔
      ∀ pos ∈ starts, True := ⟨fun _ _ _ => trivial, fun _ pos member => ⟨room pos member, rfl⟩⟩
  cases type with
  | desc | groupFeatures | meterFeatures => exact singleLoop_covers inside (formed.single rfl)
  | table | queue => exact fixedLoop_covers.trans (and_congr_right fun _ => ready)
  | flow => exact flowStatsLoop_covers inside formed.least
  | meter | group | groupDesc | meterConfig =>
    exact (lengthLoop_covers inside).trans (and_congr_right fun _ => taken)
  | tableFeatures =>
    have entered : ∀ pos ≤ length, (tableFeaturesLoop mem).enters ((length : Int) - pos) =
        decide (pos + ofpTableFeaturesSz ≤ length) := by
      intro pos within
      exact sizeT_rest within small
    have turn : (tableFeaturesLoop mem).turn = lengthTurn false ofpTableFeaturesSz (ntohsAt mem)
      (fun pos => partsOf (of131ProcOneTblFeature mem pos)) fun _ => true := rfl
    exact (lengthTurn_covers entered turn inside).trans (and_congr_right fun _ => taken)
  | portStats =>
    obtain ⟨of140, probes⟩ := sw
    cases of140 with
    | true => exact (lengthLoop_covers inside).trans (and_congr_right fun _ => taken)
    | false => exact fixedLoop_covers.trans (and_congr_right fun _ => ready)
  | portDesc =>
    obtain ⟨of140, probes⟩ := sw
    cases of140 with
    | true =>
      refine (lengthLoop_covers inside).trans (and_congr_right fun _ => ?_)
      exact ⟨fun all pos member _ => all pos member, fun all pos member => all pos member rfl⟩
    | false =>
      exact fixedLoop_covers.trans (and_congr_right fun _ =>
        ⟨fun _ _ _ => nofun, fun _ pos member => room pos member⟩)

theorem of1314MpartProcess_eq (long : ofpMultipartReplySz ≤ ofHdrLength mem)
    (found : OfpMultipart.ofCode (ntohsAt mem 8) = some type) : of1314MpartProcess sw mem =
      (mpartRecords sw mem type).visits ofpMultipartReplySz (ofHdrLength mem) := by
  rw [of1314MpartProcess, if_neg (Nat.not_lt.mpr long), found]

theorem of1314MpartProcess_nil (other : ∀ type, ofpMultipartReplySz ≤ ofHdrLength mem →
    OfpMultipart.ofCode (ntohsAt mem 8) ≠ some type) : of1314MpartProcess sw mem = [] := by
  unfold of1314MpartProcess
  split
  · rfl
  · cases found : OfpMultipart.ofCode (ntohsAt mem 8) with
    | none => rfl
    | some type => exact absurd found (other type (Nat.le_of_not_lt ‹_›))

/-- A reply whose lengths fit, with records that are few enough and ready. -/
def MpartOrderly (sw : MpartState) (mem : List Byte) : Prop :=
  ∀ type, ofpMultipartReplySz ≤ ofHdrLength mem → OfpMultipart.ofCode (ntohsAt mem 8) = some type →
    MpartFits sw mem (ofHdrLength mem) type ∧
      ∀ starts, (mpartRecords sw mem type).WellFormed ofpMultipartReplySz (ofHdrLength mem) starts →
        starts.length ≤ (mpartRecords sw mem type).turns ∧
          ∀ pos ∈ starts, MpartReady sw mem (ofHdrLength mem) type pos

theorem mpart_sound_iff : MpartSound sw mem ↔ MpartOrderly sw mem := by
  have small := ofHdrLength_lt mem
  have wide : ofHdrLength mem < 2 ^ 64 := Nat.lt_trans small (by decide)
  have covered : ∀ {type starts},
      (mpartRecords sw mem type).WellFormed ofpMultipartReplySz (ofHdrLength mem) starts →
      (TakenOnce ((mpartRecords sw mem type).visits ofpMultipartReplySz (ofHdrLength mem)) starts ↔
        starts.length ≤ (mpartRecords sw mem type).turns ∧
          ∀ pos ∈ starts, MpartReady sw mem (ofHdrLength mem) type pos) := by
    intro type starts formed
    exact (RecordLoop.walk_covers_iff (mpartRecords_steps type) (mpartRecords_ends type)
      formed.tiles).trans (mpartRecords_covers_iff wide formed)
  constructor
  · intro sound type long found
    have orderly := sound.orderly
    rw [of1314MpartProcess_eq long found] at orderly
    refine ⟨(mpartRecords_fits_iff long small type).mp (RecordLoop.walk_orderly_iff.mp orderly), ?_⟩
    intro starts formed
    have once := sound.once type starts found formed
    rw [of1314MpartProcess_eq long found] at once
    exact (covered formed).mp once
  · intro holds
    by_cases handled : ∃ type, ofpMultipartReplySz ≤ ofHdrLength mem ∧
        OfpMultipart.ofCode (ntohsAt mem 8) = some type
    · obtain ⟨type, long, found⟩ := handled
      obtain ⟨fits, ready⟩ := holds type long found
      refine ⟨?_, ?_⟩
      · rw [of1314MpartProcess_eq long found]
        exact RecordLoop.walk_orderly_iff.mpr ((mpartRecords_fits_iff long small type).mpr fits)
      · intro other starts again formed
        rw [found] at again
        cases again
        rw [of1314MpartProcess_eq long found]
        exact (covered formed).mpr (ready starts formed)
    · refine ⟨?_, ?_⟩
      · rw [of1314MpartProcess_nil fun type long found => handled ⟨type, long, found⟩]
        exact RecordLoop.orderly_nil
      · intro type starts found formed
        exact absurd ⟨type, formed.tiles.le, found⟩ handled

end Mpart

end OpenMul
