import OpenMul.Core.Multipart

namespace OpenMul

open Lib List

/-- Lengths that lead from record to record. A length beyond `stop` is met only by a
loop that checks it, and a length of zero only in the last turn. -/
inductive LengthsFit (checks : Bool) (least : Nat) (length : Nat → Nat) (partsFit : Nat → Prop)
    (stop : Nat) : Nat → Nat → Prop where
  | spent {pos : Nat} : LengthsFit checks least length partsFit stop 0 pos
  | short {turns pos : Nat} (cut : stop < pos + least) :
      LengthsFit checks least length partsFit stop (turns + 1) pos
  | refused {turns pos : Nat} (checked : checks = true) (room : pos + least ≤ stop)
      (long : stop < pos + length pos) :
        LengthsFit checks least length partsFit stop (turns + 1) pos
  | next {turns pos : Nat} (room : pos + least ≤ stop) (inside : pos + length pos ≤ stop)
      (parts : partsFit pos) (progress : 0 < length pos ∨ turns = 0)
      (rest : LengthsFit checks least length partsFit stop turns (pos + length pos)) :
      LengthsFit checks least length partsFit stop (turns + 1) pos

/-- Parts in increasing order that end by `bound`. -/
def PartsInside (bound : Nat) (parts : List (Nat × Nat)) : Prop :=
  (parts.map Prod.fst).Pairwise (· < ·) ∧ ∀ part ∈ parts, part.1 + part.2 ≤ bound

theorem partsInside_nil (bound : Nat) : PartsInside bound [] :=
  ⟨List.Pairwise.nil, forall_mem_nil _⟩

theorem partsInside_partsOf (plain : ∀ visit ∈ visits, visit.parts = []) :
    PartsInside bound (partsOf visits) ↔ Orderly bound visits := by
  have starts : (partsOf visits).map Prod.fst = visits.map Visit.ofs := by
    simp [partsOf]
  rw [PartsInside, starts]
  constructor
  · intro ⟨increasing, inside⟩
    refine ⟨increasing, ?_⟩
    intro visit member
    refine ⟨inside _ (mem_map_of_mem member), ?_, ?_⟩
    · rw [plain visit member]
      exact List.Pairwise.nil
    · rw [plain visit member]
      exact forall_mem_nil _
  · intro orderly
    refine ⟨orderly.increasing, ?_⟩
    intro part member
    obtain ⟨visit, found, rfl⟩ := mem_map.mp member
    exact (orderly.inside visit found).record

theorem walk_plain {loop : RecordLoop}
    (plain : ∀ pos left, ((loop.turn pos left).visit pos).parts = []) (turns pos : Nat)
    (left : Int) : ∀ visit ∈ loop.walk turns pos left, visit.parts = [] := by
  induction turns generalizing pos left with
  | zero => exact forall_mem_nil _
  | succ turns ih =>
    intro visit member
    unfold RecordLoop.walk at member
    split at member
    · rcases mem_cons.mp member with rfl | later
      · exact plain pos left
      · split at later
        · cases later
        · exact ih _ _ visit later
    · cases member

section Lengths

variable {checks : Bool} {least stop bound turns pos : Nat} {length : Nat → Nat}
  {parts : Nat → List (Nat × Nat)} {takes : Nat → Bool} {partsFit : Nat → Prop} {loop : RecordLoop}

theorem lengthTurn_refused (checked : checks = true) (long : stop < pos + length pos) :
    lengthTurn checks least length parts takes pos ((stop : Int) - pos) = .refuse least := by
  rw [lengthTurn, if_pos ⟨checked, by omega⟩]

theorem lengthTurn_taken (taken : checks = true → pos + length pos ≤ stop) :
    lengthTurn checks least length parts takes pos ((stop : Int) - pos) =
      .on (max least (length pos)) (parts pos) (length pos) (takes pos) := by
  rw [lengthTurn, if_neg]
  intro ⟨checked, long⟩
  have := taken checked
  omega

theorem fits_taken (entered : loop.enters ((stop : Int) - pos) = true)
    (taken : loop.turn pos ((stop : Int) - pos) = .on size seen step took) :
    loop.Fits stop bound (turns + 1) pos ↔ (Visit.mk pos size seen took).Inside bound ∧
      (0 < step ∨ turns = 0) ∧ loop.Fits stop bound turns (pos + step) := by
  constructor
  · intro fits
    cases fits with
    | done ended => simp [entered] at ended
    | stopped _ _ stops =>
      rw [taken] at stops
      cases stops
    | stepped _ inside steps progress rest =>
      rw [taken] at inside steps
      cases steps
      exact ⟨inside, progress, rest⟩
  · intro ⟨inside, progress, rest⟩
    exact .stepped entered (by rw [taken]; exact inside) (by rw [taken]; rfl) progress rest

theorem fits_stopped (entered : loop.enters ((stop : Int) - pos) = true)
    (stops : (loop.turn pos ((stop : Int) - pos)).step = none) :
    loop.Fits stop bound (turns + 1) pos ↔
      ((loop.turn pos ((stop : Int) - pos)).visit pos).Inside bound := by
  constructor
  · intro fits
    cases fits with
    | done ended => simp [entered] at ended
    | stopped _ inside | stepped _ inside => exact inside
  · intro inside
    exact .stopped entered inside stops

theorem fits_refused (entered : loop.enters ((stop : Int) - pos) = true)
    (refused : loop.turn pos ((stop : Int) - pos) = .refuse size) :
    loop.Fits stop bound (turns + 1) pos ↔ pos + size ≤ bound := by
  rw [fits_stopped entered (by rw [refused]; rfl), refused]
  exact ⟨fun inside => inside.record, fun record => ⟨record, List.Pairwise.nil, forall_mem_nil _⟩⟩

/-- A loop that checks the lengths may be held to a bound behind its end. -/
theorem lengthLoop_fits_iff
    (enters : ∀ pos ≤ stop, loop.enters ((stop : Int) - pos) = decide (pos + least ≤ stop))
    (turn : loop.turn = lengthTurn checks least length parts takes)
    (reach : stop ≤ bound) (exact : checks = true ∨ bound = stop)
    (fit : ∀ pos, pos + length pos ≤ stop → (partsFit pos ↔ PartsInside bound (parts pos)))
    (within : pos ≤ stop) :
    loop.Fits stop bound turns pos ↔ LengthsFit checks least length partsFit stop turns pos := by
  induction turns generalizing pos with
  | zero => exact ⟨fun _ => .spent, fun _ => .spent⟩
  | succ turns ih =>
    have entered := enters pos within
    by_cases room : pos + least ≤ stop
    · rw [decide_eq_true room] at entered
      by_cases refused : checks = true ∧ stop < pos + length pos
      · refine ⟨fun _ => .refused refused.1 room refused.2, fun _ => ?_⟩
        apply (fits_refused entered (by rw [turn, lengthTurn_refused refused.1 refused.2])).mpr
        exact Nat.le_trans room reach
      · have turned : loop.turn pos ((stop : Int) - pos) =
            .on (max least (length pos)) (parts pos) (length pos) (takes pos) := by
          rw [turn, lengthTurn_taken]
          intro checked
          exact Nat.le_of_not_lt fun long => refused ⟨checked, long⟩
        rw [fits_taken entered turned]
        constructor
        · intro ⟨inside, progress, rest⟩
          have ends : pos + length pos ≤ stop := by
            rcases exact with checked | same
            · exact Nat.le_of_not_lt fun long => refused ⟨checked, long⟩
            · exact same ▸ Nat.le_trans (Nat.add_le_add_left (Nat.le_max_right _ _) _) inside.record
          exact .next room ends ((fit pos ends).mpr ⟨inside.increasing, inside.parts⟩) progress
            ((ih ends).mp rest)
        · intro fits
          cases fits with
          | short cut => exact absurd room (Nat.not_le.mpr cut)
          | refused checked _ long => exact absurd ⟨checked, long⟩ refused
          | next _ ends partsOk progress rest =>
            have inside := (fit pos ends).mp partsOk
            refine ⟨⟨?_, inside.1, inside.2⟩, progress, (ih ends).mpr rest⟩
            exact Nat.le_trans (by omega : pos + max least (length pos) ≤ stop) reach
    · rw [decide_eq_false room] at entered
      exact ⟨fun _ => .short (Nat.lt_of_not_le room), fun _ => .done entered⟩

end Lengths

section Loops

variable {mem : List Byte} {size stop bound turns pos : Nat}

theorem fixedLoop_fits (positive : 0 < size) : (fixedLoop size).Fits stop stop turns pos := by
  induction turns generalizing pos with
  | zero => exact .spent
  | succ turns ih =>
    by_cases room : (size : Int) ≤ (stop : Int) - pos
    · refine .stepped (decide_eq_true room) ⟨?_, List.Pairwise.nil, forall_mem_nil _⟩ rfl
        (Or.inl positive) ih
      show pos + size ≤ stop
      omega
    · exact .done (decide_eq_false room)

theorem singleLoop_fits : (singleLoop size).Fits stop stop turns pos := by
  cases turns with
  | zero => exact .spent
  | succ turns =>
    by_cases room : (size : Int) ≤ (stop : Int) - pos
    · refine .stopped (decide_eq_true room) ⟨?_, List.Pairwise.nil, forall_mem_nil _⟩ rfl
      show pos + size ≤ stop
      omega
    · exact .done (decide_eq_false room)

theorem flowStats_taken (taken : ¬of131ProcOneFlowStats mem pos < 0) :
    ofp131FlowStatsMatch ≤ ntohsAt mem pos := by
  unfold of131ProcOneFlowStats at taken
  dsimp only at taken
  split at taken
  · exact absurd (by decide) taken
  · omega

theorem flowStatsLoop_fits : (flowStatsLoop mem).Fits stop stop turns pos := by
  induction turns generalizing pos with
  | zero => exact .spent
  | succ turns ih =>
    by_cases room : (ofp131FlowStatsSz : Int) ≤ (stop : Int) - pos
    · by_cases long : (stop : Int) - pos < ntohsAt mem pos
      · exact (fits_refused (decide_eq_true room) (if_pos long)).mpr (by omega)
      · have inside : pos + max ofp131FlowStatsSz (ntohsAt mem pos) ≤ stop := by omega
        by_cases failed : of131ProcOneFlowStats mem pos < 0
        · exact (fits_refused (decide_eq_true room) ((if_neg long).trans (if_pos failed))).mpr
            inside
        · have taken : (flowStatsLoop mem).turn pos ((stop : Int) - pos) =
              .on (max ofp131FlowStatsSz (ntohsAt mem pos)) [] (ntohsAt mem pos) :=
            (if_neg long).trans (if_neg failed)
          apply (fits_taken (decide_eq_true room) taken).mpr
          refine ⟨⟨inside, List.Pairwise.nil, forall_mem_nil _⟩, Or.inl ?_, ih⟩
          exact Nat.lt_of_lt_of_le (by decide) (flowStats_taken failed)
    · exact .done (decide_eq_false room)

theorem bucketLoop_fits (reach : stop ≤ bound) : (bucketLoop mem).Fits stop bound turns pos := by
  induction turns generalizing pos with
  | zero => exact .spent
  | succ turns ih =>
    by_cases room : (ofpBucketSz : Int) ≤ (stop : Int) - pos
    · by_cases refused : (stop : Int) - pos < ntohsAt mem pos ∨ ntohsAt mem pos < ofpBucketSz
      · exact (fits_refused (decide_eq_true room) (if_pos refused)).mpr (by omega)
      · have taken : (bucketLoop mem).turn pos ((stop : Int) - pos) =
            .on (ntohsAt mem pos) [] (ntohsAt mem pos) := if_neg refused
        have least : ofpBucketSz = 16 := rfl
        apply (fits_taken (decide_eq_true room) taken).mpr
        refine ⟨⟨?_, List.Pairwise.nil, forall_mem_nil _⟩, Or.inl (by omega), ih⟩
        show pos + ntohsAt mem pos ≤ bound
        omega
    · exact .done (decide_eq_false room)

/-- Bands are looked at inside their meter, so only their lengths matter. -/
theorem meterBands_inside_iff (reach : pos + ntohsAt mem pos ≤ bound) :
    LengthsFit true ofpMeterBandHeaderSz (fun band => ntohsAt mem (band + 2)) (fun _ => True)
        (pos + ntohsAt mem pos) turns (pos + ofpMeterConfigSz) ↔
      PartsInside bound (partsOf ((meterBandLoop mem).walk turns (pos + ofpMeterConfigSz)
        ((ntohsAt mem pos : Int) - ofpMeterConfigSz))) := by
  have plain : ∀ pos left, (((meterBandLoop mem).turn pos left).visit pos).parts = [] := by
    intro pos left
    simp only [meterBandLoop, lengthLoop, lengthTurn]
    split <;> rfl
  have rest : (ntohsAt mem pos : Int) - ofpMeterConfigSz =
      ((pos + ntohsAt mem pos : Nat) : Int) - (pos + ofpMeterConfigSz : Nat) := by omega
  rw [partsInside_partsOf (walk_plain plain _ _ _), rest, RecordLoop.walk_orderly_iff]
  symm
  by_cases within : pos + ofpMeterConfigSz ≤ pos + ntohsAt mem pos
  · apply lengthLoop_fits_iff _ rfl reach (Or.inl rfl) _ within
    · intro band _
      apply decide_eq_decide.mpr
      omega
    · intro band _
      exact ⟨fun _ => partsInside_nil _, fun _ => trivial⟩
  · -- A meter shorter than its header has no bands.
    cases turns with
    | zero => exact ⟨fun _ => .spent, fun _ => .spent⟩
    | succ turns =>
      have ended : (meterBandLoop mem).enters
          (((pos + ntohsAt mem pos : Nat) : Int) - (pos + ofpMeterConfigSz : Nat)) = false :=
        decide_eq_false (by omega)
      exact ⟨fun _ => .short (by omega), fun _ => .done ended⟩

/-- The length of a property with its padding. -/
def propLenAt (mem : List Byte) (pos : Nat) : Nat := cAlign8bLen (ntohsAt mem (pos + 2))

/-- Properties that lead to `stop`, each of them inside `bound`. -/
inductive PropsFit (mem : List Byte) (stop bound : Nat) : Nat → Nat → Prop where
  | spent {pos : Nat} : PropsFit mem stop bound 0 pos
  | short {turns pos : Nat} (cut : stop < pos + 8) : PropsFit mem stop bound (turns + 1) pos
  | refused {turns pos : Nat} (room : pos + 8 ≤ stop)
      (bad : stop < pos + propLenAt mem pos ∨ propLenAt mem pos < 8) (inside : pos + 8 ≤ bound) :
      PropsFit mem stop bound (turns + 1) pos
  | stopped {turns pos : Nat} (long : 8 ≤ propLenAt mem pos) (ends : pos + propLenAt mem pos ≤ stop)
      (unknown : tblFeatPropKnown (ntohsAt mem pos) = false)
        (inside : pos + propLenAt mem pos ≤ bound) :
      PropsFit mem stop bound (turns + 1) pos
  | next {turns pos : Nat} (long : 8 ≤ propLenAt mem pos) (ends : pos + propLenAt mem pos ≤ stop)
      (known : tblFeatPropKnown (ntohsAt mem pos) = true) (inside : pos + propLenAt mem pos ≤ bound)
      (rest : PropsFit mem stop bound turns (pos + propLenAt mem pos)) :
      PropsFit mem stop bound (turns + 1) pos

/-- The rest of a loop, compared as a `size_t`. -/
theorem sizeT_rest (within : pos ≤ stop) (small : stop < 2 ^ 64) :
    decide (least ≤ sizeT ((stop : Int) - pos)) = decide (pos + least ≤ stop) := by
  have rest : sizeT ((stop : Int) - pos) = stop - pos := sizeT_of_nat (by omega) (by omega)
  apply decide_eq_decide.mpr
  omega

theorem tblFeatPropLoop_fits_iff (within : pos ≤ stop) (small : stop < 2 ^ 64) :
    (tblFeatPropLoop mem).Fits stop bound turns pos ↔ PropsFit mem stop bound turns pos := by
  induction turns generalizing pos with
  | zero => exact ⟨fun _ => .spent, fun _ => .spent⟩
  | succ turns ih =>
    have entered : (tblFeatPropLoop mem).enters ((stop : Int) - pos) = decide (pos + 8 ≤ stop) :=
      sizeT_rest within small
    by_cases room : pos + 8 ≤ stop
    · rw [decide_eq_true room] at entered
      by_cases bad : stop < pos + propLenAt mem pos ∨ propLenAt mem pos < 8
      · have turned : (tblFeatPropLoop mem).turn pos ((stop : Int) - pos) = .refuse 8 :=
          if_pos (bad.imp_left fun long => by unfold propLenAt at long; omega)
        rw [fits_refused entered turned]
        constructor
        · intro inside
          exact .refused room bad inside
        · intro fits
          cases fits with
          | short cut => exact absurd room (Nat.not_le.mpr cut)
          | refused _ _ inside => exact inside
          | stopped long ends | next long ends => exact absurd bad (by omega)
      · have good : ¬((stop : Int) - pos < propLenAt mem pos ∨ propLenAt mem pos < 8) := by omega
        cases known : tblFeatPropKnown (ntohsAt mem pos) with
        | false =>
          have turned : (tblFeatPropLoop mem).turn pos ((stop : Int) - pos) =
              .refuse (propLenAt mem pos) :=
            (if_neg good).trans (if_neg (by simp [known]))
          rw [fits_refused entered turned]
          constructor
          · intro inside
            exact .stopped (by omega) (by omega) known inside
          · intro fits
            cases fits with
            | short cut => exact absurd room (Nat.not_le.mpr cut)
            | refused _ refused => exact absurd refused bad
            | stopped _ _ _ inside => exact inside
            | next _ _ other => simp [known] at other
        | true =>
          have turned : (tblFeatPropLoop mem).turn pos ((stop : Int) - pos) =
              .on (propLenAt mem pos) [] (propLenAt mem pos) := (if_neg good).trans (if_pos known)
          rw [fits_taken entered turned, ih (by omega)]
          constructor
          · intro ⟨inside, _, rest⟩
            exact .next (by omega) (by omega) known inside.record rest
          · intro fits
            cases fits with
            | short cut => exact absurd room (Nat.not_le.mpr cut)
            | refused _ refused => exact absurd refused bad
            | stopped _ _ other => simp [known] at other
            | next long _ _ inside rest =>
              exact ⟨⟨inside, List.Pairwise.nil, forall_mem_nil _⟩, Or.inl (by omega), rest⟩
    · rw [decide_eq_false room] at entered
      exact ⟨fun _ => .short (Nat.lt_of_not_le room), fun _ => .done entered⟩

/-- The properties of a table end up to a header's size behind their record. -/
theorem tblFeatProps_inside_iff (small : pos + ofpTableFeaturesSz + ntohsAt mem pos < 2 ^ 64) :
    PropsFit mem (pos + ofpTableFeaturesSz + ntohsAt mem pos) bound ofpMaxTableProps
        (pos + ofpTableFeaturesSz) ↔ PartsInside bound
    (partsOf (of131ProcOneTblFeature mem pos)) := by
  have plain : ∀ pos left, (((tblFeatPropLoop mem).turn pos left).visit pos).parts = [] := by
    intro pos left
    simp only [tblFeatPropLoop]
    split
    · rfl
    · split <;> rfl
  have rest : (ntohsAt mem pos : Int) =
      ((pos + ofpTableFeaturesSz + ntohsAt mem pos : Nat) : Int) -
        (pos + ofpTableFeaturesSz : Nat) := by
    omega
  unfold of131ProcOneTblFeature
  rw [partsInside_partsOf (walk_plain plain _ _ _),
    ← tblFeatPropLoop_fits_iff (Nat.le_add_right _ _) small, ← RecordLoop.walk_orderly_iff, ← rest]

end Loops

end OpenMul
