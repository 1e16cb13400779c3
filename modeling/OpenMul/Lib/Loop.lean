import Mathlib.Logic.Function.Basic
import Mathlib.Order.Basic

namespace OpenMul.Lib

universe u v

/-- One iteration continues with a new state or returns. -/
inductive Step (State : Type u) (Result : Type v) where
  | next (state : State)
  | done (result : Result)
  deriving DecidableEq

namespace Step

variable {State : Type u} {Result : Type v} (step : State → Step State Result)

def run : Nat → State → Option Result
  | 0, _ => none
  | fuel + 1, state =>
    match step state with
    | .next state => run fuel state
    | .done result => some result

/-- The states at which the loop starts an iteration. -/
inductive Visits : State → State → Prop where
  | here (state : State) : Visits state state
  | later {state middle last : State} (first : step state = .next middle)
      (rest : Visits middle last) : Visits state last

/-- The states of the first iterations. -/
def trace : Nat → State → List State
  | 0, _ => []
  | fuel + 1, state =>
    state ::
      match step state with
      | .next state => trace fuel state
      | .done _ => []

def Returns (state : State) (result : Result) : Prop := ∃ fuel, run step fuel state = some result

variable {step} {state next : State} {result : Result}

theorem run_next (continues : step state = .next next) (fuel : Nat) :
    run step (fuel + 1) state = run step fuel next := by
  simp [run, continues]

theorem run_done (returns : step state = .done result) (fuel : Nat) :
    run step (fuel + 1) state = some result := by
  simp [run, returns]

theorem returns_next (continues : step state = .next next) :
    Returns step state result ↔ Returns step next result := by
  constructor
  · rintro ⟨fuel, returned⟩
    cases fuel with
    | zero => cases returned
    | succ fuel => exact ⟨fuel, by rwa [run_next continues] at returned⟩
  · rintro ⟨fuel, returned⟩
    exact ⟨fuel + 1, by rwa [run_next continues]⟩

theorem returns_done (returns : step state = .done result) : Returns step state result :=
  ⟨1, run_done returns 0⟩

/-- A loop that returns does so from every state it visits. -/
theorem Visits.returns (visited : Visits step state last) (returned : Returns step state result) :
    Returns step last result := by
  induction visited with
  | here => exact returned
  | later first _ ih => exact ih ((returns_next first).mp returned)

/-- An invariant of the iterations holds at every visited state. -/
theorem Visits.invariant (inv : State → Prop)
    (preserved : ∀ state next, inv state → step state = .next next → inv next)
    (visited : Visits step state last) (holds : inv state) : inv last := by
  induction visited with
  | here => exact holds
  | later first _ ih => exact ih (preserved _ _ holds first)

/-- A result comes from the last state the loop visits. -/
theorem Returns.last (returned : Returns step state result) :
    ∃ last, Visits step state last ∧ step last = .done result := by
  obtain ⟨fuel, returned⟩ := returned
  induction fuel generalizing state with
  | zero => cases returned
  | succ fuel ih =>
    cases stepped : step state with
    | done last =>
      rw [run_done stepped] at returned
      cases returned
      exact ⟨state, .here state, stepped⟩
    | next after =>
      rw [run_next stepped] at returned
      obtain ⟨last, visited, ends⟩ := ih returned
      exact ⟨last, .later stepped visited, ends⟩

/-- An invariant of the iterations holds where the loop returns. -/
theorem Returns.of_invariant (inv : State → Prop) {goal : Result → Prop}
    (preserved : ∀ state next, inv state → step state = .next next → inv next)
    (final : ∀ state result, inv state → step state = .done result → goal result)
    (returned : Returns step state result) (holds : inv state) : goal result := by
  obtain ⟨last, visited, ends⟩ := returned.last
  exact final last result (visited.invariant inv preserved holds) ends

theorem Returns.unique (first : Returns step state result) (second : Returns step state other) :
    result = other := by
  obtain ⟨last, visited, ends⟩ := first.last
  obtain ⟨fuel, returned⟩ := visited.returns second
  cases fuel with
  | zero => cases returned
  | succ fuel =>
    rw [run_done ends] at returned
    exact Option.some.inj returned

section Outcome

variable {outcome : Step State Result} {inv : State → Prop} {goal : Result → Prop}

/-- An outcome that continues has only to keep the invariant, and one that returns only to reach the
goal. -/
theorem next_only (continues : outcome = .next state) (holds : inv state) :
    (∀ next, outcome = .next next → inv next) ∧ ∀ result, outcome = .done result → goal result := by
  subst continues
  exact ⟨fun _ same => by cases same; exact holds, nofun⟩

theorem done_only (returns : outcome = .done result) (holds : goal result) :
    (∀ next, outcome = .next next → inv next) ∧ ∀ result, outcome = .done result → goal result := by
  subst returns
  exact ⟨nofun, fun _ same => by cases same; exact holds⟩

end Outcome

/-- Under an invariant that makes every iteration smaller the loop returns. -/
theorem exists_returns (inv : State → Prop) (size : State → Nat)
    (shrinks : ∀ state next, inv state → step state = .next next → inv next ∧
      size next < size state) (holds : inv state) : ∃ result, Returns step state result := by
  induction bound : size state using Nat.strongRecOn generalizing state with
  | ind bound ih =>
    subst bound
    cases stepped : step state with
    | done result => exact ⟨result, returns_done stepped⟩
    | next after =>
      obtain ⟨holds, smaller⟩ := shrinks _ _ holds stepped
      obtain ⟨result, returned⟩ := ih _ smaller holds rfl
      exact ⟨result, (returns_next stepped).mpr returned⟩

/-- A decreasing loop returns exactly when it never visits a stalled state. -/
theorem exists_returns_iff (size : State → Nat) (stalled : State → Prop)
    (shrinks : ∀ state next, ¬ stalled state → step state = .next next → size next < size state)
    (stays : ∀ state, stalled state → ∃ next, step state = .next next ∧ stalled next)
    (state : State) :
    (∃ result, Returns step state result) ↔ ∀ last, Visits step state last → ¬ stalled last := by
  constructor
  · rintro ⟨result, returned⟩ last visited stuck
    -- A stalled state stays stalled up to the one that returns, and that one does not continue.
    apply (visited.returns returned).of_invariant stalled _ _ stuck
    · intro state next stuck stepped
      obtain ⟨after, continues, still⟩ := stays state stuck
      rw [continues] at stepped
      cases stepped
      exact still
    · intro state result stuck ends
      obtain ⟨after, continues, -⟩ := stays state stuck
      rw [continues] at ends
      cases ends
  · intro moving
    apply exists_returns (fun state => ∀ last, Visits step state last →
      ¬ stalled last) size _ moving
    intro state next moving stepped
    refine ⟨fun last visited => moving last (.later stepped visited), ?_⟩
    exact shrinks _ _ (moving _ (.here state)) stepped

theorem Visits.trans (first : Visits step state middle) (rest : Visits step middle last) :
    Visits step state last := by
  induction first with
  | here => exact rest
  | later stepped _ ih => exact .later stepped (ih rest)

theorem exists_mem_trace_iff : (∃ fuel, last ∈ trace step fuel state) ↔ Visits step state last := by
  constructor
  · rintro ⟨fuel, member⟩
    induction fuel generalizing state with
    | zero => cases member
    | succ fuel ih =>
      rcases List.mem_cons.mp member with rfl | later
      · exact .here _
      · cases stepped : step state with
        | done => simp [stepped] at later
        | next after =>
          rw [stepped] at later
          exact .later stepped (ih later)
  · intro visited
    induction visited with
    | here => exact ⟨1, List.mem_cons_self⟩
    | later stepped _ ih =>
      obtain ⟨fuel, member⟩ := ih
      refine ⟨fuel + 1, List.mem_cons_of_mem _ ?_⟩
      rw [stepped]
      exact member
section Places

variable {Place : Type*} (place : State → Place)

variable (step) in
/-- The loop starts at most one iteration at each place. -/
def OnceEach (state : State) : Prop :=
  ∀ now next later, Visits step state now → step now = .next next → Visits step next later →
    place later ≠ place now

variable (step) in
/-- On the way from a state the rank of the place falls. -/
def Ranked (rank : Place → Nat) (state : State) : Prop :=
  ∀ now next, Visits step state now → step now = .next next → rank (place next) < rank (place now)

variable {place}

theorem Ranked.later (ranked : Ranked step place rank state) (stepped : step state = .next next) :
    Ranked step place rank next :=
  fun now after visited => ranked now after (.later stepped visited)

theorem Ranked.le (visited : Visits step state last) (ranked : Ranked step place rank state) :
    rank (place last) ≤ rank (place state) := by
  induction visited with
  | here => exact Nat.le_refl _
  | later first _ ih =>
    exact Nat.le_trans (ih (ranked.later first)) (Nat.le_of_lt (ranked _ _ (.here _) first))

theorem OnceEach.later (once : OnceEach step place state) (stepped : step state = .next next) :
    OnceEach step place next :=
  fun now after last visited => once now after last (.later stepped visited)

end Places

end Step

section Traversal

variable {State Item : Type}

/-- A relation that every visit keeps relates the two ends of a traversal. -/
theorem foldl_related {rel : State → State → Prop} (refl : ∀ state, rel state state)
    (trans : ∀ {first second third}, rel first second → rel second third → rel first third)
    (items : List Item) (each : ∀ state, ∀ item ∈ items, rel state (step state item))
    (state : State) : rel state (items.foldl step state) := by
  induction items generalizing state with
  | nil => exact refl state
  | cons item rest ih =>
    exact trans (each state item List.mem_cons_self)
      (ih (fun state other member => each state other (List.mem_cons_of_mem item member)) _)

/-- An invariant that knows what was visited. Every item leaves its marks. -/
theorem foldl_visits (step : State → Item → State) (mark : Item → Mark → Prop)
    (inv : (Mark → Prop) → State → Prop) (items : List Item)
    (each : ∀ seen state, ∀ item ∈ items, inv seen state →
      inv (fun place => seen place ∨ mark item place) (step state item)) (seen : Mark →
        Prop) (state : State) (holds : inv seen state) :
    inv (fun place => seen place ∨ ∃ item ∈ items, mark item place) (items.foldl step state) := by
  induction items generalizing seen state with
  | nil => simpa using holds
  | cons item rest ih =>
    have later :=
      ih (fun seen state other member => each seen state other (List.mem_cons_of_mem item member))
      _ _ (each seen state item List.mem_cons_self holds)
    simpa only [List.foldl_cons, List.mem_cons, or_and_right, exists_or, exists_eq_left, or_assoc]
      using later

end Traversal

end OpenMul.Lib
