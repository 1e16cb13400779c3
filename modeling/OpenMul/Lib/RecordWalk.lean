import Mathlib.Data.List.Basic

namespace OpenMul.Lib

section Tiling

/-- Records from one offset to another, with the list of their offsets. -/
inductive Tiles (size : Nat → Nat) : Nat → Nat → List Nat → Prop where
  | nil (pos : Nat) : Tiles size pos pos []
  | cons {pos stop : Nat} {rest : List Nat} (positive : 0 < size pos)
      (more : Tiles size (pos + size pos) stop rest) : Tiles size pos stop (pos :: rest)

variable {size : Nat → Nat} {pos stop : Nat} {starts : List Nat}

theorem Tiles.le (tiles : Tiles size pos stop starts) : pos ≤ stop := by
  induction tiles with
  | nil => exact Nat.le_refl _
  | cons _ _ ih => omega

theorem Tiles.inside (tiles : Tiles size pos stop starts) :
    ∀ start ∈ starts, start + size start ≤ stop := by
  induction tiles with
  | nil => exact List.forall_mem_nil _
  | cons _ more ih =>
    intro start member
    rcases List.mem_cons.mp member with rfl | later
    · exact more.le
    · exact ih start later

theorem Tiles.unique (tiles : Tiles size pos stop starts) (again : Tiles size pos stop others) :
    starts = others := by
  induction tiles generalizing others with
  | nil =>
    cases again with
    | nil => rfl
    | cons positive more => exact absurd more.le (by omega)
  | cons positive more ih =>
    cases again with
    | nil => exact absurd more.le (by omega)
    | cons _ rest => rw [ih rest]

end Tiling

open List

/-- A record a loop looked at, with the parts of it that were walked. -/
structure Visit where
  ofs : Nat
  size : Nat
  parts : List (Nat × Nat) := []
  taken : Bool := true
  deriving DecidableEq, Repr

/-- What a loop does with a record: refuse it and stop, take it and stop, or go on,
having taken it or not. -/
inductive Turn where
  | refuse (size : Nat)
  | last (size : Nat) (parts : List (Nat × Nat))
  | on (size : Nat) (parts : List (Nat × Nat)) (step : Nat) (taken : Bool := true)

def Turn.visit (pos : Nat) : Turn → Visit
  | refuse size => { ofs := pos, size, taken := false }
  | last size parts => { ofs := pos, size, parts }
  | on size parts _ taken => { ofs := pos, size, parts, taken }

def Turn.step : Turn → Option Nat
  | on _ _ step _ => some step
  | _ => none

@[simp] theorem Turn.visit_ofs (pos : Nat) (turn : Turn) : (turn.visit pos).ofs = pos := by
  cases turn <;> rfl

/-- The test of a loop on the bytes left, and its body on a position. -/
structure RecordLoop where
  enters : Int → Bool
  turn : Nat → Int → Turn

/-- The records looked at in a number of turns. -/
def RecordLoop.walk (loop : RecordLoop) : Nat → Nat → Int → List Visit
  | 0, _, _ => []
  | turns + 1, pos, left =>
    if loop.enters left then
      (loop.turn pos left).visit pos ::
        match (loop.turn pos left).step with
        | none => []
        | some step => loop.walk turns (pos + step) (left - step)
    else []

/-- A visit and its parts end by `stop`, the parts in increasing order. -/
structure Visit.Inside (stop : Nat) (visit : Visit) : Prop where
  record : visit.ofs + visit.size ≤ stop
  increasing : (visit.parts.map Prod.fst).Pairwise (· < ·)
  parts : ∀ part ∈ visit.parts, part.1 + part.2 ≤ stop

/-- Visits at increasing offsets, all inside. -/
structure Orderly (stop : Nat) (visits : List Visit) : Prop where
  increasing : (visits.map Visit.ofs).Pairwise (· < ·)
  inside : ∀ visit ∈ visits, visit.Inside stop

/-- Every record on the way to `stop` ends by `bound`, with a positive step. -/
inductive RecordLoop.Fits (loop : RecordLoop) (stop bound : Nat) : Nat → Nat → Prop where
  | spent {pos : Nat} : loop.Fits stop bound 0 pos
  | done {turns pos : Nat} (ended : loop.enters ((stop : Int) - pos) = false) :
      loop.Fits stop bound (turns + 1) pos
  | stopped {turns pos : Nat} (entered : loop.enters ((stop : Int) - pos) = true)
      (inside : ((loop.turn pos ((stop : Int) - pos)).visit pos).Inside bound)
      (stops : (loop.turn pos ((stop : Int) - pos)).step = none) :
        loop.Fits stop bound (turns + 1) pos
  | stepped {turns pos step : Nat} (entered : loop.enters ((stop : Int) - pos) = true)
      (inside : ((loop.turn pos ((stop : Int) - pos)).visit pos).Inside bound)
      (steps : (loop.turn pos ((stop : Int) - pos)).step = some step)
      (progress : 0 < step ∨ turns = 0) (rest : loop.Fits stop bound turns (pos + step)) :
      loop.Fits stop bound (turns + 1) pos

/-- Where a record starts, by the sizes of those before it. -/
def recordStart (size : Nat → Nat) : Nat → Nat → Nat
  | start, 0 => start
  | start, count + 1 => recordStart size (start + size start) count

theorem recordStart_const (size start count : Nat) :
    recordStart (fun _ => size) start count = start + size * count := by
  induction count generalizing start with
  | zero => rfl
  | succ count ih =>
    rw [recordStart, ih, Nat.mul_succ]
    omega

namespace RecordLoop

variable {loop : RecordLoop} {stop bound turns pos step : Nat} {left : Int}

theorem walk_done (ended : loop.enters left = false) : loop.walk turns pos left = [] := by
  cases turns with
  | zero => rfl
  | succ turns => simp [walk, ended]

theorem walk_stopped (entered : loop.enters left = true)
    (stops : (loop.turn pos left).step = none) :
    loop.walk (turns + 1) pos left = [(loop.turn pos left).visit pos] := by
  simp [walk, entered, stops]

theorem walk_stepped (entered : loop.enters ((stop : Int) - pos) = true)
    (steps : (loop.turn pos ((stop : Int) - pos)).step = some step) :
    loop.walk (turns + 1) pos ((stop : Int) - pos) =
      (loop.turn pos ((stop : Int) - pos)).visit pos ::
        loop.walk turns (pos + step) ((stop : Int) - (pos + step : Nat)) := by
  simp only [walk, entered, if_true, steps]
  rw [Int.natCast_add, Int.sub_sub]

theorem le_ofs (member : visit ∈ loop.walk turns pos left) : pos ≤ visit.ofs := by
  induction turns generalizing pos left with
  | zero => cases member
  | succ turns ih =>
    cases entered : loop.enters left with
    | false => simp [walk, entered] at member
    | true =>
      simp only [walk, entered, if_true, mem_cons] at member
      rcases member with rfl | later
      · exact Nat.le_of_eq (Turn.visit_ofs _ _).symm
      · cases steps : (loop.turn pos left).step with
        | none => simp [steps] at later
        | some step =>
          rw [steps] at later
          exact Nat.le_trans (Nat.le_add_right _ _) (ih later)

theorem orderly_nil : Orderly bound [] := ⟨List.Pairwise.nil, forall_mem_nil _⟩

theorem orderly_cons {visit : Visit} : Orderly bound (visit :: visits) ↔
      visit.Inside bound ∧ (∀ later ∈ visits, visit.ofs < later.ofs) ∧ Orderly bound visits := by
  constructor
  · intro orderly
    have increasing := pairwise_cons.mp orderly.increasing
    refine ⟨orderly.inside _ mem_cons_self, ?_, increasing.2, ?_⟩
    · intro later member
      exact increasing.1 _ (mem_map_of_mem member)
    · intro later member
      exact orderly.inside _ (mem_cons_of_mem _ member)
  · intro ⟨inside, before, rest⟩
    refine ⟨pairwise_cons.mpr ⟨?_, rest.increasing⟩, ?_⟩
    · intro ofs member
      obtain ⟨later, found, rfl⟩ := mem_map.mp member
      exact before later found
    · intro later member
      rcases mem_cons.mp member with rfl | found
      · exact inside
      · exact rest.inside later found

/-- A loop that stays where it is comes to the same record again. -/
theorem not_before_of_stuck (entered : loop.enters left = true) (turns : Nat) :
    ¬∀ later ∈ loop.walk (turns + 1) pos left, pos < later.ofs := by
  intro before
  have again := before ((loop.turn pos left).visit pos) (by simp [walk, entered])
  rw [Turn.visit_ofs] at again
  exact Nat.lt_irrefl _ again

/-- The visits of a loop are orderly if each record it comes to fits, and only then. -/
theorem walk_orderly_iff :
    Orderly bound (loop.walk turns pos ((stop : Int) - pos)) ↔ loop.Fits stop bound turns pos := by
  constructor
  · intro orderly
    induction turns generalizing pos with
    | zero => exact .spent
    | succ turns ih =>
      cases entered : loop.enters ((stop : Int) - pos) with
      | false => exact .done entered
      | true =>
        cases steps : (loop.turn pos ((stop : Int) - pos)).step with
        | none =>
          rw [walk_stopped entered steps] at orderly
          exact .stopped entered (orderly_cons.mp orderly).1 steps
        | some step =>
          rw [walk_stepped entered steps] at orderly
          obtain ⟨inside, before, rest⟩ := orderly_cons.mp orderly
          refine .stepped entered inside steps ?_ (ih rest)
          rw [Turn.visit_ofs] at before
          rcases Nat.eq_zero_or_pos step with rfl | positive
          · cases turns with
            | zero => exact Or.inr rfl
            | succ turns => exact absurd before (not_before_of_stuck entered turns)
          · exact Or.inl positive
  · intro fits
    induction fits with
    | spent => exact orderly_nil
    | done ended =>
      rw [walk_done ended]
      exact orderly_nil
    | stopped entered inside stops =>
      rw [walk_stopped entered stops]
      exact orderly_cons.mpr ⟨inside, forall_mem_nil _, orderly_nil⟩
    | stepped entered inside steps progress _ ih =>
      rw [walk_stepped entered steps]
      refine orderly_cons.mpr ⟨inside, ?_, ih⟩
      intro later member
      rw [Turn.visit_ofs]
      rcases progress with positive | rfl
      · exact Nat.lt_of_lt_of_le (Nat.lt_add_of_pos_right positive) (le_ofs member)
      · cases member

/-- Records are taken one after the other, and only the last may stop the loop. -/
structure Covers (loop : RecordLoop) (stop turns : Nat) (starts : List Nat) : Prop where
  enough : starts.length ≤ turns
  entered : ∀ start ∈ starts, loop.enters ((stop : Int) - start) = true
  taken : ∀ start ∈ starts, ((loop.turn start ((stop : Int) - start)).visit start).taken = true
  goes : ∀ start ∈ starts.dropLast, (loop.turn start ((stop : Int) - start)).step.isSome = true

theorem covers_nil : loop.Covers stop turns [] :=
  ⟨Nat.zero_le _, forall_mem_nil _, forall_mem_nil _, forall_mem_nil _⟩

theorem covers_cons :
    loop.Covers stop (turns + 1) (start :: starts) ↔ loop.enters ((stop : Int) - start) = true ∧
        ((loop.turn start ((stop : Int) - start)).visit start).taken = true ∧
        (starts = [] ∨ (loop.turn start ((stop : Int) - start)).step.isSome = true) ∧
        loop.Covers stop turns starts := by
  constructor
  · intro covers
    refine ⟨covers.entered _ mem_cons_self, covers.taken _ mem_cons_self, ?_, ?_⟩
    · cases starts with
      | nil => exact Or.inl rfl
      | cons next rest => exact Or.inr (covers.goes _ mem_cons_self)
    · refine ⟨Nat.le_of_succ_le_succ covers.enough, ?_, ?_, ?_⟩
      · intro later member
        exact covers.entered _ (mem_cons_of_mem _ member)
      · intro later member
        exact covers.taken _ (mem_cons_of_mem _ member)
      · intro later member
        apply covers.goes
        cases starts with
        | nil => cases member
        | cons next rest => exact mem_cons_of_mem _ member
  · intro ⟨entered, taken, goes, rest⟩
    refine ⟨Nat.succ_le_succ rest.enough, ?_, ?_, ?_⟩
    · intro later member
      rcases mem_cons.mp member with rfl | found
      · exact entered
      · exact rest.entered _ found
    · intro later member
      rcases mem_cons.mp member with rfl | found
      · exact taken
      · exact rest.taken _ found
    · intro later member
      rcases goes with rfl | steps
      · cases member
      · cases starts with
        | nil => cases member
        | cons next more =>
          rcases mem_cons.mp member with rfl | found
          · exact steps
          · exact rest.goes _ found

/-- A loop takes each record once exactly if it covers them. -/
theorem walk_covers_iff
    (steps : ∀ pos left step, (loop.turn pos left).step = some step → step = size pos)
    (ends : loop.enters 0 = false) (tiles : Tiles size pos stop starts) :
    (loop.walk turns pos ((stop : Int) - pos)).map (fun visit => (visit.ofs, visit.taken)) =
        starts.map (fun start => (start, true)) ↔ loop.Covers stop turns starts := by
  induction tiles generalizing turns with
  | nil pos =>
    rw [Int.sub_self, walk_done ends]
    exact ⟨fun _ => covers_nil, fun _ => rfl⟩
  | @cons pos stop rest positive more ih =>
    cases turns with
    | zero =>
      constructor
      · intro same
        cases same
      · intro covers
        exact absurd covers.enough (Nat.not_succ_le_zero _)
    | succ turns =>
      rw [covers_cons]
      cases entered : loop.enters ((stop : Int) - pos) with
      | false => simp [walk_done entered]
      | true =>
        cases stepped : (loop.turn pos ((stop : Int) - pos)).step with
        | none =>
          rw [walk_stopped entered stepped]
          cases rest with
          | nil => simp [covers_nil]
          | cons next rest => simp
        | some step =>
          rw [walk_stepped entered stepped, steps _ _ _ stepped, map_cons, map_cons,
            cons.injEq, ih]
          simp

/-- The loop looks at a record if it enters at it and goes on at all before. -/
theorem exists_mem_walk_iff {goal : Visit → Prop}
    (steps : ∀ pos left step, (loop.turn pos left).step = some step → step = size pos) :
    (∃ visit ∈ loop.walk turns pos ((stop : Int) - pos), goal visit) ↔
      ∃ count < turns, let start := recordStart size pos
        (∀ earlier < count, loop.enters ((stop : Int) - start earlier) = true ∧
          (loop.turn (start earlier) ((stop : Int) - start earlier)).step.isSome = true) ∧
        loop.enters ((stop : Int) - start count) = true ∧
        goal ((loop.turn (start count) ((stop : Int) - start count)).visit (start count)) := by
  induction turns generalizing pos with
  | zero => simp [walk]
  | succ turns ih =>
    simp only [Nat.exists_lt_succ_left, Nat.forall_lt_succ_left, recordStart]
    cases entered : loop.enters ((stop : Int) - pos) with
    | false => simp [walk_done entered]
    | true =>
      cases stepped : (loop.turn pos ((stop : Int) - pos)).step with
      | none => simp [walk_stopped entered stepped]
      | some step =>
        rw [walk_stepped entered stepped, steps _ _ _ stepped, exists_mem_cons_iff, ih]
        simp

end RecordLoop

end OpenMul.Lib
