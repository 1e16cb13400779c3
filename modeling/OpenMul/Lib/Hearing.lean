import Mathlib.Algebra.Order.Group.Nat

namespace OpenMul.Lib

inductive Side where
  | left
  | right
  deriving DecidableEq, Repr

namespace Side

def peer : Side → Side
  | left => right
  | right => left

@[simp] theorem peer_peer (side : Side) : side.peer.peer = side := by cases side <;> rfl

theorem peer_ne (side : Side) : side.peer ≠ side := by cases side <;> decide

theorem eq_or_eq_peer (side other : Side) : other = side ∨ other = side.peer := by
  cases side <;> cases other <;> simp [peer]

end Side

namespace Hearing

variable {State : Type}

/-- A state with the number of changes that led to it. -/
structure Stay (State : Type) where
  count : Nat
  state : State

/-- A party went on from one stay to another, or is still in it. -/
def Evolves (before after : Stay State) : Prop := before.count < after.count ∨ before = after

theorem Evolves.refl (stay : Stay State) : Evolves stay stay := .inr rfl

theorem Evolves.trans (one : Evolves first second) (two : Evolves second third) :
    Evolves first third := by
  rcases one with less | rfl
  · rcases two with more | rfl
    · exact .inl (less.trans more)
    · exact .inl less
  · exact two

theorem Evolves.count_le {after : Stay State} (evolves : Evolves before after) :
    before.count ≤ after.count := by
  rcases evolves with less | rfl
  · exact less.le
  · exact le_rfl

theorem Evolves.eq_of_count {after : Stay State} (evolves : Evolves before after)
    (same : before.count = after.count) : before = after :=
  evolves.resolve_left fun less => absurd same less.ne

/-- What the two parties are, what is on its way to each and what each heard:
the stays of the other one, by number. -/
structure World (State : Type) where
  current : Side → Stay State
  pending : Side → List (Stay State)
  heard : Side → List Nat

/-- Each party heard of the stay that the other one is in. -/
def World.Mutual (world : World State) : Prop :=
  ∀ who, (world.current who.peer).count ∈ world.heard who

variable (critical : State → Prop)

structure Safe (world : World State) : Prop where
  pending : ∀ who, ∀ told ∈ world.pending who, Evolves told (world.current who.peer)
  heard : ∀ who, ∀ count ∈ world.heard who, count ≤ (world.current who.peer).count
  exclusive : (∀ who, critical (world.current who).state) → ¬world.Mutual

/-- A party goes on and tells of some of the stays it passes. -/
structure Acts (who : Side) (before after : World State) : Prop where
  evolves : Evolves (before.current who) (after.current who)
  other : after.current who.peer = before.current who.peer
  told : ∀ stay ∈ after.pending who.peer, stay ∈ before.pending who.peer ∨
    Evolves stay (after.current who)
  pending : ∀ stay ∈ after.pending who, stay ∈ before.pending who
  heard : after.heard = before.heard

/-- A party hears of a stay that the other one told it of. -/
structure Hears (who : Side) (told : Stay State) (before after : World State) : Prop where
  evolves : Evolves (before.current who) (after.current who)
  other : after.current who.peer = before.current who.peer
  known : told ∈ before.pending who
  pending : ∀ side, ∀ stay ∈ after.pending side, stay ∈ before.pending side
  heard : after.heard who = before.heard who ++ [told.count]
  unheard : after.heard who.peer = before.heard who.peer

variable {critical}

/-- A party that changed its state is not yet known in the new one. -/
private theorem not_heard_of_changed {after : World State} (safe : Safe critical before)
    (less : (before.current who).count < (after.current who).count)
    (heard : after.heard who.peer = before.heard who.peer) : ¬after.Mutual := by
  intro informed
  have known := informed who.peer
  rw [heard] at known
  have bound := safe.heard who.peer _ known
  rw [Side.peer_peer] at bound
  omega

theorem Safe.acts (safe : Safe critical before) (acts : Acts who before after) :
    Safe critical after where
  pending := by
    intro side stay member
    rcases Side.eq_or_eq_peer who side with rfl | rfl
    · rw [acts.other]
      exact safe.pending side stay (acts.pending stay member)
    · rw [Side.peer_peer]
      rcases acts.told stay member with old | new
      · have known := safe.pending who.peer stay old
        rw [Side.peer_peer] at known
        exact known.trans acts.evolves
      · exact new
  heard := by
    intro side count member
    rw [acts.heard] at member
    have bound := safe.heard side count member
    rcases Side.eq_or_eq_peer who side with rfl | rfl
    · rwa [acts.other]
    · rw [Side.peer_peer] at bound ⊢
      exact bound.trans acts.evolves.count_le
  exclusive := by
    intro both informed
    rcases acts.evolves with less | same
    · exact not_heard_of_changed safe less (congrFun acts.heard who.peer) informed
    · have still : after.current = before.current := by
        funext side
        rcases Side.eq_or_eq_peer who side with rfl | rfl
        · exact same.symm
        · exact acts.other
      apply safe.exclusive
      · rwa [still] at both
      · intro side
        rw [← still, ← acts.heard]
        exact informed side

/-- Hearing is safe if a party gives up a critical state on hearing of one. -/
theorem Safe.hears {before after : World State} (safe : Safe critical before)
    (hears : Hears who told before after)
    (yields : critical (before.current who).state → critical told.state →
      before.current who ≠ after.current who) :
    Safe critical after where
  pending := by
    intro side stay member
    have known := safe.pending side stay (hears.pending side stay member)
    rcases Side.eq_or_eq_peer who side with rfl | rfl
    · rwa [hears.other]
    · rw [Side.peer_peer] at known ⊢
      exact known.trans hears.evolves
  heard := by
    intro side count member
    rcases Side.eq_or_eq_peer who side with rfl | rfl
    · rw [hears.heard] at member
      rw [hears.other]
      rcases List.mem_append.mp member with old | new
      · exact safe.heard side count old
      · rw [List.mem_singleton.mp new]
        exact (safe.pending side told hears.known).count_le
    · rw [hears.unheard] at member
      have bound := safe.heard who.peer count member
      rw [Side.peer_peer] at bound ⊢
      exact bound.trans hears.evolves.count_le
  exclusive := by
    intro both informed
    rcases hears.evolves with less | same
    · exact not_heard_of_changed safe less hears.unheard informed
    · have still : after.current = before.current := by
        funext side
        rcases Side.eq_or_eq_peer who side with rfl | rfl
        · exact same.symm
        · exact hears.other
      rw [still] at both
      have known := informed who
      rw [still, hears.heard] at known
      rcases List.mem_append.mp known with old | new
      · -- Nothing new was heard.
        apply safe.exclusive both
        intro side
        rcases Side.eq_or_eq_peer who side with rfl | rfl
        · exact old
        · have other := informed who.peer
          rwa [still, hears.unheard] at other
      · -- The other party is still in the stay just heard of, which is critical.
        have current :=
          (safe.pending who told hears.known).eq_of_count (List.mem_singleton.mp new).symm
        exact yields (both who) (current ▸ both who.peer) same

end Hearing

end OpenMul.Lib
