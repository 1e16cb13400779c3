import OpenMul.Core.MultipartSound

namespace OpenMul

open Lib

/-- The lengths of flow records lead to the end of a reply. -/
inductive FlowStatsFit (mem : List Byte) (stop : Nat) : Nat → Prop where
  | done {pos : Nat} (ended : stop ≤ pos) : FlowStatsFit mem stop pos
  | last {pos : Nat} (bare : ntohsAt mem pos = ofpFlowStatsSz)
    (inside : pos + ofpFlowStatsSz ≤ stop) :
      FlowStatsFit mem stop pos
  | next {pos : Nat} (acts : ntohsAt mem pos ≠ ofpFlowStatsSz) (positive : 0 < ntohsAt mem pos)
      (room : pos + ofpFlowStatsSz ≤ stop) (inside : pos + ntohsAt mem pos ≤ stop)
      (rest : FlowStatsFit mem stop (pos + ntohsAt mem pos)) : FlowStatsFit mem stop pos

/-- What an OpenFlow 1.0 reply must be for its records to be looked at inside it. -/
def StatsFits (mem : List Byte) (length : Nat) : OfpStats → Prop
  | .flow => FlowStatsFit mem length ofpStatsReplySz
  | .port => ofpPortStatsSz ∣ length - ofpStatsReplySz

/-- What the records of a well-formed reply must be to be taken. -/
def StatsReady (mem : List Byte) : OfpStats → List Nat → Prop
  | .flow, starts => ∀ pos ∈ starts.dropLast, ntohsAt mem pos ≠ ofpFlowStatsSz
  | .port, _ => True

section Stats

variable {mem : List Byte} {stop length turns pos : Nat} {starts : List Nat}

theorem statsLoop_enters (loop : RecordLoop)
    (enters : loop.enters = fun left => decide (0 < left)) :
    loop.enters ((stop : Int) - pos) = decide (pos < stop) := by
  rw [enters]
  apply decide_eq_decide.mpr
  omega

theorem flowStats_last (bare : ntohsAt mem pos = ofpFlowStatsSz) (left : Int) :
    (of10FlowStatsLoop mem).turn pos left = .last ofpFlowStatsSz [] := by
  simp [of10FlowStatsLoop, of10ProcOneFlowStats, bare]

theorem flowStats_on (acts : ntohsAt mem pos ≠ ofpFlowStatsSz) (left : Int) :
    (of10FlowStatsLoop mem).turn pos left = .on (max ofpFlowStatsSz (ntohsAt mem pos)) []
    (ntohsAt mem pos) := by
  have some : ¬of10ProcOneFlowStats mem pos = 0 := by
    unfold of10ProcOneFlowStats
    omega
  have step : (ofpFlowStatsSz + of10ProcOneFlowStats mem pos).toNat = ntohsAt mem pos := by
    unfold of10ProcOneFlowStats
    omega
  simp [of10FlowStatsLoop, if_neg some, step]

theorem FlowStatsFit.fits (fit : FlowStatsFit mem stop pos) (turns : Nat) :
    (of10FlowStatsLoop mem).Fits stop stop turns pos := by
  induction fit generalizing turns with
  | @done pos ended =>
    cases turns with
    | zero => exact .spent
    | succ turns =>
      exact .done ((statsLoop_enters _ rfl).trans (decide_eq_false (Nat.not_lt.mpr ended)))
  | @last pos bare inside =>
    cases turns with
    | zero => exact .spent
    | succ turns =>
      have entered : pos < stop := Nat.lt_of_lt_of_le (Nat.lt_add_of_pos_right (by decide)) inside
      apply (fits_stopped ((statsLoop_enters _ rfl).trans (decide_eq_true entered)) _).mpr
      · rw [flowStats_last bare]
        exact ⟨inside, List.Pairwise.nil, List.forall_mem_nil _⟩
      · rw [flowStats_last bare]
        rfl
  | @next pos acts positive room inside _ ih =>
    cases turns with
    | zero => exact .spent
    | succ turns =>
      have entered : pos < stop := Nat.lt_of_lt_of_le (Nat.lt_add_of_pos_right (by decide)) room
      apply (fits_taken ((statsLoop_enters _ rfl).trans (decide_eq_true entered))
        (flowStats_on acts _)).mpr
      refine ⟨⟨?_, List.Pairwise.nil, List.forall_mem_nil _⟩, Or.inl positive, ih turns⟩
      show pos + max ofpFlowStatsSz (ntohsAt mem pos) ≤ stop
      omega

theorem flowStatsFit_of_fits (fits : ∀ turns, (of10FlowStatsLoop mem).Fits stop stop turns pos) :
    FlowStatsFit mem stop pos := by
  induction rest : stop - pos using Nat.strong_induction_on generalizing pos with
  | _ rest ih =>
    by_cases before : pos < stop
    · have entered := (statsLoop_enters (of10FlowStatsLoop mem) rfl).trans (decide_eq_true before)
      by_cases bare : ntohsAt mem pos = ofpFlowStatsSz
      · have inside := (fits_stopped entered (by rw [flowStats_last bare]; rfl)).mp (fits 1)
        rw [flowStats_last bare] at inside
        exact .last bare inside.record
      · have taken := fun turns => (fits_taken entered (flowStats_on bare _)).mp (fits (turns + 1))
        obtain ⟨inside, progress, _⟩ := taken 1
        have positive : 0 < ntohsAt mem pos := progress.resolve_right (by decide)
        have ends : pos + max ofpFlowStatsSz (ntohsAt mem pos) ≤ stop := inside.record
        refine .next bare positive (by omega) (by omega) ?_
        exact ih _ (by omega) (fun turns => (taken turns).2.2) rfl
    · exact .done (Nat.le_of_not_lt before)

/-- Port records are looked at inside the message if they fill it. -/
theorem portStats_fits_iff (within : pos ≤ stop) :
    (∀ turns, of10PortStatsLoop.Fits stop stop turns pos) ↔ ofpPortStatsSz ∣ stop - pos := by
  rw [show ofpPortStatsSz = 104 from rfl]
  constructor
  · intro fits
    induction rest : stop - pos using Nat.strong_induction_on generalizing pos with
    | _ rest ih =>
      by_cases before : pos < stop
      · have entered := (statsLoop_enters of10PortStatsLoop rfl).trans (decide_eq_true before)
        have taken := fun turns => (fits_taken entered rfl).mp (fits (turns + 1))
        have ends : pos + 104 ≤ stop := (taken 0).1.record
        have divides := ih _ (by omega) ends (fun turns => (taken turns).2.2) rfl
        omega
      · omega
  · intro divides turns
    induction turns generalizing pos with
    | zero => exact .spent
    | succ turns ih =>
      by_cases before : pos < stop
      · have entered := (statsLoop_enters of10PortStatsLoop rfl).trans (decide_eq_true before)
        have ends : pos + 104 ≤ stop := by omega
        have rest : 104 ∣ stop - (pos + 104) := by omega
        apply (fits_taken entered rfl).mpr
        exact ⟨⟨ends, List.Pairwise.nil, List.forall_mem_nil _⟩, Or.inl (by decide), ih ends rest⟩
      · exact .done ((statsLoop_enters _ rfl).trans (decide_eq_false before))

theorem statsRecords_fits_iff (long : ofpStatsReplySz ≤ length) (type : OfpStats) :
    (∀ turns, (statsRecords mem turns type).loop.Fits length length turns ofpStatsReplySz) ↔
      StatsFits mem length type := by
  cases type with
  | flow => exact ⟨flowStatsFit_of_fits, fun fit => fit.fits⟩
  | port => exact portStats_fits_iff long

theorem statsRecords_steps (type : OfpStats) (pos : Nat) (left : Int) (step : Nat)
    (steps : ((statsRecords mem turns type).loop.turn pos left).step = some step) :
    step = (statsRecords mem turns type).size pos := by
  cases type with
  | flow =>
    by_cases bare : ntohsAt mem pos = ofpFlowStatsSz
    · rw [show (statsRecords mem turns .flow).loop = of10FlowStatsLoop mem from rfl,
        flowStats_last bare] at steps
      cases steps
    · rw [show (statsRecords mem turns .flow).loop = of10FlowStatsLoop mem from rfl,
        flowStats_on bare] at steps
      cases steps
      rfl
  | port => cases steps; rfl

theorem statsRecords_ends (type : OfpStats) :
    (statsRecords mem turns type).loop.enters 0 = false := by
  cases type <;> rfl

/-- The records of a well-formed reply are covered unless one before the last stops
the loop. -/
theorem statsRecords_covers_iff
    (formed : (statsRecords mem turns type).WellFormed start length starts)
    (enough : starts.length ≤ turns) :
    (statsRecords mem turns type).loop.Covers length turns starts ↔ StatsReady mem type starts := by
  have inside := formed.tiles.inside
  have entered : ∀ pos ∈ starts, decide (pos < length) = true := by
    intro pos member
    have least := formed.least pos member
    have := inside pos member
    have positive : 0 < (statsRecords mem turns type).least := by
      cases type <;> exact Nat.zero_lt_succ _
    exact decide_eq_true (by omega)
  cases type with
  | flow =>
    constructor
    · intro covers pos member bare
      have goes := covers.goes pos member
      rw [show (statsRecords mem turns .flow).loop = of10FlowStatsLoop mem from rfl,
        flowStats_last bare] at goes
      cases goes
    · intro ready
      refine ⟨enough, ?_, ?_, ?_⟩
      · intro pos member
        exact (statsLoop_enters _ rfl).trans (entered pos member)
      · intro pos member
        show (((of10FlowStatsLoop mem).turn pos _).visit pos).taken = true
        by_cases bare : ntohsAt mem pos = ofpFlowStatsSz
        · rw [flowStats_last bare]
          rfl
        · rw [flowStats_on bare]
          rfl
      · intro pos member
        show ((of10FlowStatsLoop mem).turn pos _).step.isSome = true
        rw [flowStats_on (ready pos member)]
        rfl
  | port =>
    refine ⟨fun _ => trivial, fun _ => ⟨enough, ?_, fun _ _ => rfl, fun _ _ => rfl⟩⟩
    intro pos member
    exact (statsLoop_enters _ rfl).trans (entered pos member)

theorem of10RecvStatsReply_eq (long : ofpStatsReplySz ≤ ofHdrLength mem)
    (found : OfpStats.ofCode (ntohsAt mem 8) = some type) :
    of10RecvStatsReply turns mem = (statsRecords mem turns type).visits ofpStatsReplySz
      (ofHdrLength mem) := by
  rw [of10RecvStatsReply, if_neg (Nat.not_lt.mpr long), found]

theorem of10RecvStatsReply_nil (other : ∀ type, ofpStatsReplySz ≤ ofHdrLength mem →
    OfpStats.ofCode (ntohsAt mem 8) ≠ some type) : of10RecvStatsReply turns mem = [] := by
  unfold of10RecvStatsReply
  split
  · rfl
  · cases found : OfpStats.ofCode (ntohsAt mem 8) with
    | none => rfl
    | some type => exact absurd found (other type (Nat.le_of_not_lt ‹_›))

/-- The lengths of a statistics reply lead to its end, and only a last record stops. -/
def StatsOrderly (mem : List Byte) : Prop :=
  ∀ type, ofpStatsReplySz ≤ ofHdrLength mem → OfpStats.ofCode (ntohsAt mem 8) = some type →
    StatsFits mem (ofHdrLength mem) type ∧
      ∀ starts,
        (statsRecords mem starts.length type).WellFormed ofpStatsReplySz (ofHdrLength mem) starts →
        StatsReady mem type starts

/-- How many turns are followed does not change what a record is. -/
theorem statsRecords_wellFormed
    (formed : (statsRecords mem turns type).WellFormed start length starts) :
    (statsRecords mem others type).WellFormed start length starts := by
  cases type <;> exact { formed with }

theorem stats_sound_iff : StatsSound mem ↔ StatsOrderly mem := by
  have covered : ∀ {type starts turns},
      (statsRecords mem turns type).WellFormed ofpStatsReplySz (ofHdrLength mem) starts →
      starts.length ≤ turns →
      (TakenOnce ((statsRecords mem turns type).visits ofpStatsReplySz (ofHdrLength mem)) starts ↔
        StatsReady mem type starts) := by
    intro type starts turns formed enough
    have same : (statsRecords mem turns type).turns = turns := by cases type <;> rfl
    rw [← statsRecords_covers_iff formed enough,
      ← RecordLoop.walk_covers_iff (statsRecords_steps type)
      (statsRecords_ends type) formed.tiles, TakenOnce, Records.visits, same]
  constructor
  · intro sound type long found
    refine ⟨(statsRecords_fits_iff long type).mp ?_, ?_⟩
    · intro turns
      have orderly := sound.orderly turns
      rw [of10RecvStatsReply_eq long found] at orderly
      cases type <;> exact RecordLoop.walk_orderly_iff.mp orderly
    · intro starts formed
      have once := sound.once type starts starts.length found formed (Nat.le_refl _)
      rw [of10RecvStatsReply_eq long found] at once
      exact (covered formed (Nat.le_refl _)).mp once
  · intro holds
    by_cases handled : ∃ type, ofpStatsReplySz ≤ ofHdrLength mem ∧
        OfpStats.ofCode (ntohsAt mem 8) = some type
    · obtain ⟨type, long, found⟩ := handled
      obtain ⟨fits, ready⟩ := holds type long found
      refine ⟨?_, ?_⟩
      · intro turns
        have loop := (statsRecords_fits_iff long type).mpr fits turns
        rw [of10RecvStatsReply_eq long found]
        cases type <;> exact RecordLoop.walk_orderly_iff.mpr loop
      · intro other starts turns again formed enough
        rw [found] at again
        cases again
        rw [of10RecvStatsReply_eq long found]
        exact (covered formed enough).mpr (ready starts (statsRecords_wellFormed formed))
    · refine ⟨?_, ?_⟩
      · intro turns
        rw [of10RecvStatsReply_nil fun type long found => handled ⟨type, long, found⟩]
        exact RecordLoop.orderly_nil
      · intro type starts turns found formed
        exact absurd ⟨type, formed.tiles.le, found⟩ handled

end Stats

/-- Replies are handled soundly exactly when their lengths lead from record to
record and no record is passed over. -/
theorem replies_sound_iff (sw : MpartState) (mem : List Byte) :
    (MpartSound sw mem ↔ MpartOrderly sw mem) ∧ (StatsSound mem ↔ StatsOrderly mem) :=
  ⟨mpart_sound_iff, stats_sound_iff⟩

def mpartHead (length type : Byte) : List Byte :=
  [4, 19, 0, length, 0, 0, 0, 0, 0, type, 0, 0, 0, 0, 0, 0]

def statsHead (length type : Byte) : List Byte := [1, 17, 0, length, 0, 0, 0, 0, 0, type, 0, 0]

/-- Two meters. -/
def meterReply : List Byte :=
  mpartHead 96 9 ++ [0, 0, 0, 1, 0, 40] ++ List.replicate 34 0 ++ [0, 0, 0, 2, 0, 40] ++
    List.replicate 34 0

theorem meterReply_sound : MpartOrderly {} meterReply ∧ MpartSound {} meterReply := by
  have orderly : MpartOrderly {} meterReply := by
    intro type _ found
    have meter : some OfpMultipart.meter = some type := found
    cases meter
    have tiles : Tiles (fun pos => ntohsAt meterReply (pos + 4)) 16 96 [16, 56] :=
      .cons (by decide) (.cons (by decide) (.nil 96))
    refine ⟨.next (by decide) (by decide) trivial (Or.inl (by decide))
      (.next (by decide) (by decide)
      trivial (Or.inl (by decide)) (.short (by decide))), ?_⟩
    intro starts formed
    have same : [16, 56] = starts := tiles.unique formed.tiles
    subst same
    exact ⟨by decide, fun _ _ => trivial⟩
  exact ⟨orderly, (replies_sound_iff {} meterReply).1.mpr orderly⟩

/-- A meter of length zero. -/
def zeroMeter : List Byte := mpartHead 56 9 ++ List.replicate 40 0

/-- A table without properties. -/
def bareTable : List Byte := mpartHead 80 12 ++ [0, 64] ++ List.replicate 62 0

/-- Two flows without actions. -/
def bareFlows : List Byte :=
  statsHead 188 1 ++ [0, 88] ++ List.replicate 86 0 ++ [0, 88] ++ List.replicate 86 0

/-- A port that is cut off. -/
def cutPort : List Byte := statsHead 112 4 ++ List.replicate 100 0

/-- Four replies that are read again, behind the message, or not at all. -/
theorem replies_not_sound :
    ¬MpartSound {} zeroMeter ∧ ¬MpartSound {} bareTable ∧ ¬StatsSound bareFlows ∧
      ¬StatsSound cutPort := by
  refine ⟨?_, ?_, ?_, ?_⟩
  · intro sound
    have fits :
        LengthsFit true 40 (fun pos => ntohsAt zeroMeter (pos + 4)) (fun _ => True) 56 5000 16 :=
      (mpart_sound_iff.mp sound .meter (by decide) (by decide)).1
    cases fits with
    | short cut => exact absurd cut (by decide)
    | refused _ _ long => exact absurd long (by decide)
    | next _ _ _ progress => exact absurd progress (by decide)
  · intro sound
    have fits := (mpart_sound_iff.mp sound .tableFeatures (by decide) (by decide)).1
    cases fits with
    | short cut => exact absurd cut (by decide)
    | refused checked => cases checked
    | next _ _ parts =>
      cases parts with
      | short cut => exact absurd cut (by decide)
      | refused _ _ inside => exact absurd inside (by decide)
      | stopped long | next long => exact absurd long (by decide)
  · intro sound
    have ready := (stats_sound_iff.mp sound .flow (by decide) (by decide)).2 [12, 100]
      ⟨.cons (by decide) (.cons (by decide) (.nil 188)), by decide, nofun⟩
    exact ready 12 (by decide) (by decide)
  · intro sound
    have divides : 104 ∣ 112 - 12 := (stats_sound_iff.mp sound .port (by decide) (by decide)).1
    exact absurd divides (by decide)

end OpenMul
