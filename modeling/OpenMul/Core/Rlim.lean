import Mathlib.Data.List.Basic

namespace OpenMul

/-- `struct timeval`, with the microseconds in their range. -/
structure Timeval where
  tvSec : Int
  tvUsec : Int
  normal : 0 ≤ tvUsec ∧ tvUsec < 1000000
deriving DecidableEq

namespace Timeval

/-- `SET_ZERO_TS`. -/
def zero : Timeval := ⟨0, 0, by decide⟩

/-- `ZERO_TS`. -/
def isZero (ts : Timeval) : Bool := ts.tvSec == 0 && ts.tvUsec == 0

/-- `c_timeval_diff`. -/
def diff (t2 t1 : Timeval) : Timeval :=
  if enough : t2.tvUsec ≥ t1.tvUsec then
    ⟨t2.tvSec - t1.tvSec, t2.tvUsec - t1.tvUsec, by have := t1.normal; have := t2.normal; omega⟩
  else
    ⟨t2.tvSec - t1.tvSec - 1, 1000000 - t1.tvUsec + t2.tvUsec,
      by have := t1.normal; have := t2.normal; omega⟩

/-- `c_timeval_a_more_b`. -/
def aMoreB (a b : Timeval) : Bool :=
  if a.tvSec - b.tvSec > 0 then true
  else if a.tvSec - b.tvSec < 0 then false
  else decide (a.tvUsec > b.tvUsec)

def micros (ts : Timeval) : Int := ts.tvSec * 1000000 + ts.tvUsec

theorem micros_diff (t2 t1 : Timeval) : (t2.diff t1).micros = t2.micros - t1.micros := by
  unfold diff
  split <;> simp only [micros] <;> omega

theorem aMoreB_iff (a b : Timeval) : a.aMoreB b = true ↔ b.micros < a.micros := by
  have := a.normal
  have := b.normal
  unfold aMoreB
  split
  · simp only [micros, true_iff]
    omega
  · split
    · simp only [micros, Bool.false_eq_true, false_iff]
      omega
    · simp only [micros, decide_eq_true_eq]
      omega

end Timeval

/-- `struct c_rlim_dat`. The counters start at zero and only grow. -/
structure RlimDat where
  limitTs : Timeval
  startTs : Timeval := .zero
  max : Int
  pass : Nat := 0
  skip : Nat := 0

/-- The clock readings of one call; the first is made only when no window is
open. -/
structure RlimCall where
  first : Timeval
  curr : Timeval

namespace RlimDat

/-- Start of the window, set by the first call after a reset. -/
def started (rs : RlimDat) (call : RlimCall) : Timeval :=
  if rs.startTs.isZero then call.first else rs.startTs

/-- The call closes the window. -/
def resets (rs : RlimDat) (call : RlimCall) : Bool :=
  !rs.limitTs.isZero && (call.curr.diff (rs.started call)).aMoreB rs.limitTs

/-- The last decision of a call, on the window it finds or has just opened. -/
def decideCall (rs : RlimDat) : RlimDat × Bool :=
  if rs.max ≠ 0 ∧ rs.max > rs.pass then ({ rs with pass := rs.pass + 1 }, false)
  else ({ rs with skip := rs.skip + 1 }, true)

/-- `c_rlim`; `true` means that the limit is exceeded. -/
def cRlim (rs : RlimDat) (call : RlimCall) : RlimDat × Bool :=
  if rs.limitTs.isZero then (rs, true)
  else
    let rs := { rs with startTs := rs.started call }
    let rs :=
      if (call.curr.diff rs.startTs).aMoreB rs.limitTs then
        { rs with startTs := .zero, pass := 0, skip := 0 }
      else rs
    rs.decideCall

end RlimDat

/-- One call as seen from outside: its time in microseconds, whether it passed
and whether it closed a window. -/
structure RlimEvent where
  time : Int
  passed : Bool
  reset : Bool
deriving DecidableEq, Repr

def rlimTrace : RlimDat → List RlimCall → List RlimEvent
  | _, [] => []
  | rs, call :: rest =>
    ⟨call.curr.micros, !(rs.cRlim call).2, rs.resets call⟩ :: rlimTrace (rs.cRlim call).1 rest

/-- The readings of all calls, in the order they are made, never go back. -/
def ClockNondecreasing (calls : List RlimCall) : Prop :=
  (calls.flatMap fun call => [call.first.micros, call.curr.micros]).Pairwise (· ≤ ·)

def passes (events : List RlimEvent) : Nat := events.countP RlimEvent.passed

/-- The passes in a closed interval of time. -/
def passesIn (low high : Int) (events : List RlimEvent) : Nat :=
  events.countP fun event => event.passed && decide (low ≤ event.time ∧ event.time ≤ high)

variable {rs : RlimDat}

namespace RlimDat

/-- Passes that are left in a window when it begins with this count. -/
def base (rs : RlimDat) (call : RlimCall) : Nat :=
  if rs.resets call then 0 else rs.pass

/-- What one call does to the limits, the count and the window. -/
structure Called (rs : RlimDat) (call : RlimCall) : Prop where
  sameLimit : (rs.cRlim call).1.limitTs = rs.limitTs
  sameMax : (rs.cRlim call).1.max = rs.max
  passed : (rs.cRlim call).2 = false →
    rs.base call < rs.max.toNat ∧ (rs.cRlim call).1.pass = rs.base call + 1
  limited : (rs.cRlim call).2 = true → (rs.cRlim call).1.pass = rs.base call
  closed : rs.resets call = true → (rs.cRlim call).1.startTs = .zero ∧
    (rs.started call).micros + rs.limitTs.micros < call.curr.micros
  opened : rs.resets call = false → (rs.cRlim call).1.startTs = rs.startTs ∨
    (rs.cRlim call).1.startTs = rs.started call

theorem decideCall_spec (rs : RlimDat) :
    rs.decideCall.1.limitTs = rs.limitTs ∧ rs.decideCall.1.max = rs.max ∧
    rs.decideCall.1.startTs = rs.startTs ∧
    (rs.decideCall.2 = false → rs.pass < rs.max.toNat ∧ rs.decideCall.1.pass = rs.pass + 1) ∧
    (rs.decideCall.2 = true → rs.decideCall.1.pass = rs.pass) := by
  unfold decideCall
  split
  · refine ⟨rfl, rfl, rfl, fun _ => ⟨?_, rfl⟩, by simp⟩
    omega
  · exact ⟨rfl, rfl, rfl, by simp, fun _ => rfl⟩

theorem called (rs : RlimDat) (call : RlimCall) : rs.Called call := by
  cases unlimited : rs.limitTs.isZero with
  | true =>
    have same : rs.cRlim call = (rs, true) := by simp [cRlim, unlimited]
    have never : rs.resets call = false := by simp [resets, unlimited]
    constructor <;> simp [same, never, base]
  | false =>
    cases reset : rs.resets call with
    | true =>
      have late : (call.curr.diff (rs.started call)).aMoreB rs.limitTs = true := by
        simpa [resets, unlimited] using reset
      have decided : rs.cRlim call =
          { rs with startTs := .zero, pass := 0, skip := 0 }.decideCall := by
        simp [cRlim, unlimited, late]
      obtain ⟨limit, max, start, passed, limited⟩ :=
        { rs with startTs := .zero, pass := 0, skip := 0 }.decideCall_spec
      rw [← decided] at limit max start passed limited
      rw [Timeval.aMoreB_iff, Timeval.micros_diff] at late
      refine ⟨limit, max, ?_, ?_, fun _ => ⟨start, by omega⟩, by simp [reset]⟩
      · simpa [base, reset] using passed
      · simpa [base, reset] using limited
    | false =>
      have early : (call.curr.diff (rs.started call)).aMoreB rs.limitTs = false := by
        simpa [resets, unlimited] using reset
      have decided : rs.cRlim call = { rs with startTs := rs.started call }.decideCall := by
        simp [cRlim, unlimited, early]
      obtain ⟨limit, max, start, passed, limited⟩ :=
        { rs with startTs := rs.started call }.decideCall_spec
      rw [← decided] at limit max start passed limited
      refine ⟨limit, max, ?_, ?_, by simp [reset], fun _ => .inr start⟩
      · simpa [base, reset] using passed
      · simpa [base, reset] using limited

/-- A call and the passes after it fit in what the window has left. -/
theorem Called.fits (called : rs.Called call) {later : Nat}
    (bound : later ≤ (rs.cRlim call).1.max.toNat - (rs.cRlim call).1.pass) :
    (!(rs.cRlim call).2).toNat + later ≤ rs.max.toNat - rs.base call := by
  rw [called.sameMax] at bound
  cases decided : (rs.cRlim call).2 with
  | true =>
    rw [called.limited decided] at bound
    simpa using bound
  | false =>
    obtain ⟨below, counted⟩ := called.passed decided
    simp only [Bool.not_false, Bool.toNat_true]
    omega

end RlimDat

theorem passes_cons (event : RlimEvent) (events : List RlimEvent) :
    passes (event :: events) = event.passed.toNat + passes events := by
  cases passed : event.passed <;> simp [passes, passed, Nat.add_comm]

theorem passes_le_of_no_reset (rs : RlimDat) (calls : List RlimCall)
    (noReset : ∀ event ∈ rlimTrace rs calls, event.reset = false) :
    passes (rlimTrace rs calls) ≤ rs.max.toNat - rs.pass := by
  induction calls generalizing rs with
  | nil => simp [rlimTrace, passes]
  | cons call rest ih =>
    have called := rs.called call
    have open_ : rs.resets call = false := noReset _ List.mem_cons_self
    have later := ih _ fun event member => noReset event (List.mem_cons_of_mem _ member)
    have fits := called.fits later
    rw [RlimDat.base, open_] at fits
    rwa [rlimTrace, passes_cons]

/-- A window with the call that opens it: only later calls may not reset. -/
theorem passes_window_le (rs : RlimDat) (calls : List RlimCall)
    (oneWindow : ∀ event ∈ (rlimTrace rs calls).tail, event.reset = false) :
    passes (rlimTrace rs calls) ≤ rs.max.toNat := by
  cases calls with
  | nil => simp [rlimTrace, passes]
  | cons call rest =>
    have later := passes_le_of_no_reset _ rest oneWindow
    have := (rs.called call).fits later
    rw [rlimTrace, passes_cons]
    exact Nat.le_trans this (Nat.sub_le ..)

/-- The state after some calls. -/
def rlimAfter (rs : RlimDat) (calls : List RlimCall) : RlimDat :=
  calls.foldl (fun rs call => (rs.cRlim call).1) rs

theorem max_rlimAfter (rs : RlimDat) (calls : List RlimCall) :
    (rlimAfter rs calls).max = rs.max := by
  induction calls generalizing rs with
  | nil => rfl
  | cons call rest ih => exact (ih _).trans (rs.called call).sameMax

theorem rlimTrace_append (rs : RlimDat) (front back : List RlimCall) :
    rlimTrace rs (front ++ back) = rlimTrace rs front ++ rlimTrace (rlimAfter rs front) back := by
  induction front generalizing rs with
  | nil => rfl
  | cons call rest ih => exact congrArg _ (ih _)

theorem length_rlimTrace (rs : RlimDat) (calls : List RlimCall) :
    (rlimTrace rs calls).length = calls.length := by
  induction calls generalizing rs with
  | nil => rfl
  | cons call rest ih => exact congrArg (· + 1) (ih _)

/-- Any calls in a row that reset at most with the first of them. -/
theorem passes_between_resets_le
    (parts : rlimTrace rs calls = before ++ (window ++ after))
    (oneWindow : ∀ event ∈ window.tail, event.reset = false) : passes window ≤ rs.max.toNat := by
  have cut : calls = calls.take before.length ++
      ((calls.drop before.length).take window.length ++
        (calls.drop before.length).drop window.length) := by
    rw [List.take_append_drop, List.take_append_drop]
  have total := congrArg List.length parts
  rw [length_rlimTrace, List.length_append, List.length_append] at total
  rw [cut, rlimTrace_append, rlimTrace_append] at parts
  obtain ⟨-, rest⟩ := List.append_inj parts (by rw [length_rlimTrace, List.length_take]; omega)
  obtain ⟨same, -⟩ := List.append_inj rest
    (by rw [length_rlimTrace, List.length_take, List.length_drop]; omega)
  rw [← same] at oneWindow ⊢
  have := passes_window_le _ _ oneWindow
  rwa [max_rlimAfter] at this

theorem passesIn_cons (low high : Int) (event : RlimEvent) (events : List RlimEvent) :
    passesIn low high (event :: events) =
      (event.passed && decide (low ≤ event.time ∧ event.time ≤ high)).toNat + passesIn low high
        events := by
  unfold passesIn
  rw [List.countP_cons, Nat.add_comm]
  split <;> simp_all

variable {low high : Int}

theorem passesIn_le_of_late (late : ∀ event ∈ events, high < event.time) :
    passesIn low high events = 0 := by
  apply List.countP_eq_zero.mpr
  intro event member
  have := late event member
  simp only [Bool.and_eq_true, decide_eq_true_eq, not_and]
  omega

namespace ClockNondecreasing

variable {call : RlimCall} {rest : List RlimCall}

section

variable (clock : ClockNondecreasing (call :: rest))
include clock

theorem tail : ClockNondecreasing rest :=
  (List.pairwise_append.mp clock).2.1

theorem head : call.first.micros ≤ call.curr.micros :=
  (List.pairwise_cons.mp (List.pairwise_append.mp clock).1).1 _ (by simp)

theorem later :
    ∀ next ∈ rest, call.curr.micros ≤ next.first.micros ∧ call.curr.micros ≤ next.curr.micros := by
  intro next member
  have across := (List.pairwise_append.mp clock).2.2 call.curr.micros (by simp)
  constructor <;> apply across <;> exact List.mem_flatMap.mpr ⟨next, member, by simp⟩

end

end ClockNondecreasing

theorem time_of_mem_rlimTrace
    (member : event ∈ rlimTrace rs calls) : ∃ call ∈ calls, event.time = call.curr.micros := by
  induction calls generalizing rs with
  | nil => cases member
  | cons call rest ih =>
    rcases List.mem_cons.mp member with rfl | member
    · exact ⟨call, List.mem_cons_self, rfl⟩
    · obtain ⟨next, inside, same⟩ := ih member
      exact ⟨next, List.mem_cons_of_mem _ inside, same⟩

/-- No window is open, or it was opened at or after a time. -/
def OpenedSince (low : Int) (rs : RlimDat) : Prop :=
  rs.startTs.isZero = true ∨ low ≤ rs.startTs.micros

theorem OpenedSince.started (since : OpenedSince low rs) {call : RlimCall}
    (reading : low ≤ call.first.micros) : low ≤ (rs.started call).micros := by
  unfold RlimDat.started
  split
  · exact reading
  · exact since.resolve_left ‹_›

theorem passesIn_rlimTrace_cons_le (low high : Int) (rs : RlimDat) (call : RlimCall)
    (rest : List RlimCall) :
    passesIn low high (rlimTrace rs (call :: rest)) ≤
      (!(rs.cRlim call).2).toNat + passesIn low high (rlimTrace (rs.cRlim call).1 rest) := by
  rw [rlimTrace, passesIn_cons]
  cases (rs.cRlim call).2 <;> simp [Bool.toNat_le]

section

variable (rs : RlimDat) (calls : List RlimCall) (clock : ClockNondecreasing calls)
    (short : high - low ≤ rs.limitTs.micros)
include clock short

/-- In a window opened inside the interval no reset comes before its end. -/
theorem passesIn_le_of_openedSince
    (since : OpenedSince low rs) (readings : ∀ call ∈ calls, low ≤ call.first.micros) :
    passesIn low high (rlimTrace rs calls) ≤ rs.max.toNat - rs.pass := by
  induction calls generalizing rs with
  | nil => simp [rlimTrace, passesIn]
  | cons call rest ih =>
    have called := rs.called call
    have opened := since.started (readings call List.mem_cons_self)
    cases reset : rs.resets call with
    | true =>
      have beyond : high < call.curr.micros := by
        have := (called.closed reset).2
        omega
      have late : ∀ event ∈ rlimTrace rs (call :: rest), high < event.time := by
        intro event member
        obtain ⟨next, inside, time⟩ := time_of_mem_rlimTrace member
        rw [time]
        rcases List.mem_cons.mp inside with rfl | inside
        · exact beyond
        · exact Int.lt_of_lt_of_le beyond (clock.later next inside).2
      rw [passesIn_le_of_late late]
      exact Nat.zero_le _
    | false =>
      have since' : OpenedSince low (rs.cRlim call).1 := by
        rcases called.opened reset with same | set
        · rwa [OpenedSince, same]
        · exact .inr (set ▸ opened)
      have later := ih _ clock.tail (by rwa [called.sameLimit]) since'
        fun next inside => readings next (List.mem_cons_of_mem _ inside)
      have fits := called.fits later
      rw [RlimDat.base, reset] at fits
      exact Nat.le_trans (passesIn_rlimTrace_cons_le ..) fits

/-- The passes of the open window count, and those of the window after the first reset. -/
theorem passesIn_le_of_begun (begun : ∀ call ∈ calls, low ≤ call.curr.micros) :
    passesIn low high (rlimTrace rs calls) ≤ (rs.max.toNat - rs.pass) + rs.max.toNat := by
  induction calls generalizing rs with
  | nil => simp [rlimTrace, passesIn]
  | cons call rest ih =>
    have called := rs.called call
    have short' : high - low ≤ (rs.cRlim call).1.limitTs.micros := by rwa [called.sameLimit]
    cases reset : rs.resets call with
    | true =>
      have since : OpenedSince low (rs.cRlim call).1 := by
        rw [OpenedSince, (called.closed reset).1]
        exact .inl rfl
      have later := passesIn_le_of_openedSince _ rest clock.tail short' since fun next inside =>
        Int.le_trans (begun call List.mem_cons_self) (clock.later next inside).1
      have fits := called.fits later
      rw [RlimDat.base, reset, if_pos rfl] at fits
      exact Nat.le_trans (Nat.le_trans (passesIn_rlimTrace_cons_le ..) fits) (Nat.le_add_left ..)
    | false =>
      have later := ih _ clock.tail short' fun next inside =>
        begun next (List.mem_cons_of_mem _ inside)
      rw [called.sameMax] at later
      have fits := called.fits (Nat.le_of_eq (congrArg (·.toNat - _) called.sameMax.symm))
      rw [RlimDat.base, reset, if_neg Bool.false_ne_true] at fits
      have := passesIn_rlimTrace_cons_le low high rs call rest
      omega

theorem passesIn_le : passesIn low high (rlimTrace rs calls) ≤ 2 * rs.max.toNat := by
  induction calls generalizing rs with
  | nil => simp [rlimTrace, passesIn]
  | cons call rest ih =>
    have called := rs.called call
    by_cases begun : low ≤ call.curr.micros
    · have all : ∀ next ∈ call :: rest, low ≤ next.curr.micros := by
        intro next inside
        rcases List.mem_cons.mp inside with rfl | inside
        · exact begun
        · exact Int.le_trans begun (clock.later next inside).2
      have := passesIn_le_of_begun rs (call :: rest) clock short all
      omega
    · have later := ih _ clock.tail (by rwa [called.sameLimit])
      rw [called.sameMax] at later
      rw [rlimTrace, passesIn_cons]
      simpa [begun] using later

end

/-- At most twice the maximum passes in an interval, and the maximum between two resets. -/
theorem cRlim_bound (rs : RlimDat) (calls : List RlimCall) (clock : ClockNondecreasing calls) :
    (∀ low high : Int, high - low ≤ rs.limitTs.micros →
      passesIn low high (rlimTrace rs calls) ≤ 2 * rs.max.toNat) ∧
    ∀ before window after, rlimTrace rs calls = before ++ (window ++ after) →
      (∀ event ∈ window.tail, event.reset = false) → passes window ≤ rs.max.toNat :=
  ⟨fun _ _ short => passesIn_le rs calls clock short,
    fun _ _ _ parts oneWindow => passes_between_resets_le parts oneWindow⟩

/-- Two passes a second; the last two of these calls fall into a new window. -/
def burstCalls : List RlimCall :=
  [⟨⟨10, 0, by decide⟩, ⟨10, 0, by decide⟩⟩,
    ⟨⟨10, 900000, by decide⟩, ⟨10, 900000, by decide⟩⟩,
    ⟨⟨11, 100000, by decide⟩, ⟨11, 100000, by decide⟩⟩,
    ⟨⟨11, 200000, by decide⟩, ⟨11, 200000, by decide⟩⟩]

theorem cRlim_bound_burst :
    passesIn 10500000 11500000
        (rlimTrace { limitTs := ⟨1, 0, by decide⟩, max := 2 } burstCalls) = 3 ∧
      passesIn 10500000 11500000
        (rlimTrace { limitTs := ⟨1, 0, by decide⟩, max := 2 } burstCalls) ≤
      2 * (2 : Int).toNat := by
  have clock : ClockNondecreasing burstCalls := by
    unfold ClockNondecreasing
    decide
  exact ⟨by decide, (cRlim_bound _ burstCalls clock).1 10500000 11500000 (by decide)⟩

end OpenMul
