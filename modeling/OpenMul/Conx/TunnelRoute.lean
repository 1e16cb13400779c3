import Mathlib.Data.List.Perm.Basic
import Mathlib.Logic.Function.Basic

namespace OpenMul.Conx

/-- `rt_path_elem_t`: the output port and the bytes that are only compared. -/
structure PathElem where
  la : BitVec 16
  body : List (BitVec 8) := []
  deriving DecidableEq

/-- A path: the element with `RT_PELEM_FIRST_HOP` and those behind it. -/
structure Path where
  fhop : PathElem
  next : List PathElem := []
  deriving DecidableEq

/-- `conx_route_eq`. Each turn of its loop compares the first elements. -/
def routeEq : Option Path → Option Path → Bool
  | none, none => true
  | some one, some two => one.next.length == two.next.length && one.fhop == two.fhop
  | _, _ => false

structure ConxRoute where
  route : Option Path := none
  valid : Bool := false

/-- `conx_ent_t` of a tunnel that is no loopback; `ecmpGrp` has the output ports of the
buckets while there is a group. -/
structure ConxEnt where
  tunnelOf : Bool := true
  routes : Fin 2 → ConxRoute := fun _ => {}
  ecmpGrp : Option (List (BitVec 16)) := none

/-- The test of `conx_routes_neq_install`. -/
def ConxRoute.differs (slot : ConxRoute) (route : Path) : Bool :=
  !slot.valid || !routeEq slot.route (some route)

namespace ConxEnt

variable (useGroups : Bool) (ent : ConxEnt)

def grouped : Bool := ent.tunnelOf && useGroups

/-- `conx_route_uninstall`, which destroys the route. -/
def routeUninstall (pos : Fin 2) : ConxEnt :=
  if pos ≠ 0 ∧ useGroups = false then ent
  else match (ent.routes pos).route with
    | none => ent
    | some _ => { ent with
      routes := Function.update ent.routes pos {}
      ecmpGrp := if ent.grouped useGroups then none else ent.ecmpGrp }

/-- `conx_route_install`, with all requests accepted. -/
def routeInstall (route : Path) (pos : Fin 2) : ConxEnt :=
  if pos ≠ 0 ∧ useGroups = false then ent
  else { ent with
    routes := Function.update ent.routes pos ⟨some route, true⟩
    ecmpGrp := if ent.grouped useGroups then some (ent.ecmpGrp.getD [] ++ [route.fhop.la])
      else ent.ecmpGrp }

def replace (pos : Fin 2) (route : Path) : ConxEnt :=
  if (ent.routes pos).differs route then
    (ent.routeUninstall useGroups pos).routeInstall useGroups route pos else ent

/-- The inner loop: the first route that is not skipped is compared and then skipped. -/
def slotInstall (pos : Fin 2) : Nat → List (Path × Bool) → ConxEnt × List (Path × Bool)
  | turns + 1, (route, true) :: rest =>
    let (after, list) := slotInstall pos turns rest
    (after, (route, true) :: list)
  | _ + 1, (route, false) :: rest => (ent.replace useGroups pos route, (route, true) :: rest)
  | _, list => (ent, list)

/-- `conx_routes_neq_install`. -/
def routesNeqInstall (new : List Path) : ConxEnt :=
  let (ent, list) := ent.slotInstall useGroups 0 2 (new.map fun route => (route, false))
  (ent.slotInstall useGroups 1 2 list).1

def validRoutes : List (Option Path) :=
  (List.finRange 2).filterMap fun pos =>
    if (ent.routes pos).valid then some (ent.routes pos).route else none

def buckets : List (BitVec 16) := ent.ecmpGrp.getD []

/-- The valid routes are the new ones, and each has its bucket. -/
def Updated (new : List Path) : Prop :=
  ent.validRoutes = new.map some ∧
    (ent.grouped useGroups = true → ent.buckets.Perm (new.map fun route => route.fhop.la))

/-- The place has the route, or lets go of another one for it. -/
def Takes (pos : Fin 2) (route : Path) : Prop :=
  if (ent.routes pos).differs route then pos = 0 ∨ useGroups = true
  else (ent.routes pos).route = some route

/-- The first place adds the bucket of its route to `rest`. -/
def Leaves (route : Path) (rest : List (BitVec 16)) : Prop :=
  if (ent.routes 0).differs route then
    (if (ent.routes 0).route = none then ent.buckets else []).Perm rest
  else ent.buckets.Perm (route.fhop.la :: rest)

/-- Each route is taken where it stands in the list and the other places are free. A
route that is let go of takes all buckets with it. -/
def Meets : List Path → Prop
  | [] =>
    (∀ pos, (ent.routes pos).valid = false) ∧ (ent.grouped useGroups = true → ent.buckets = [])
  | [one] => ent.Takes useGroups 0 one ∧ (ent.routes 1).valid = false ∧
      (ent.grouped useGroups = true → ent.Leaves one [])
  | [one, two] =>
    ent.Takes useGroups 0 one ∧ ent.Takes useGroups 1 two ∧ (ent.grouped useGroups = true →
      if (ent.routes 1).differs two then (ent.routes 1).route = none ∧ ent.Leaves one []
      else ent.Leaves one [two.fhop.la])
  | _ => False

variable {useGroups ent} {pos : Fin 2} {route : Path}

theorem validRoutes_eq (ent : ConxEnt) :
    ent.validRoutes = (if (ent.routes 0).valid then [(ent.routes 0).route] else []) ++
      if (ent.routes 1).valid then [(ent.routes 1).route] else [] := by
  cases first : (ent.routes 0).valid <;> cases second : (ent.routes 1).valid <;>
    simp [validRoutes, List.finRange, first, second]

/-- What becomes of the places and of the group. -/
structure Replaced (ent : ConxEnt) (useGroups : Bool) (pos : Fin 2) (route : Path)
    (after : ConxEnt) : Prop where
  grouped : after.grouped useGroups = ent.grouped useGroups
  here : (after.routes pos).valid = true ∧ (after.routes pos).route = some route ↔
    ent.Takes useGroups pos route
  valid : pos = 0 → (after.routes pos).valid = true
  other : ∀ place ≠ pos, after.routes place = ent.routes place
  buckets : ent.grouped useGroups = true → after.buckets = if (ent.routes pos).differs route
    then (if (ent.routes pos).route = none then ent.buckets else []) ++ [route.fhop.la]
      else ent.buckets

theorem replaced : Replaced ent useGroups pos route (ent.replace useGroups pos route) := by
  unfold replace
  split
  · rename_i differs
    by_cases closed : pos ≠ 0 ∧ useGroups = false
    · rw [routeUninstall, if_pos closed, routeInstall, if_pos closed]
      refine ⟨rfl, iff_of_false ?_ (by simp [Takes, differs, closed]),
        fun first => absurd first closed.1, fun _ _ => rfl, fun grouped => by
          simp [ConxEnt.grouped, closed] at grouped⟩
      rintro ⟨valid, same⟩
      simp [ConxRoute.differs, valid, same, routeEq] at differs
    · have takes : ent.Takes useGroups pos route := by
        rw [Takes, if_pos differs]
        simpa [Decidable.or_iff_not_imp_left] using closed
      rw [routeInstall, if_neg closed, routeUninstall, if_neg closed]
      cases held : (ent.routes pos).route <;>
        exact ⟨rfl, iff_of_true (by simp) takes, fun _ => by simp, fun _ apart => by simp [apart],
          fun grouped => by simp_all [buckets, ConxEnt.grouped]⟩
  · rename_i same
    have valid : (ent.routes pos).valid = true := by
      simp only [ConxRoute.differs, Bool.or_eq_true, not_or] at same
      simpa using same.1
    exact ⟨rfl, by simp [Takes, same, valid], fun _ => valid, fun _ _ => rfl, fun _ => by
      rw [if_neg same]⟩

theorem Replaced.leaves (step : Replaced ent useGroups 0 route after)
    (grouped : ent.grouped useGroups = true) (rest : List (BitVec 16)) :
    after.buckets.Perm (route.fhop.la :: rest) ↔ ent.Leaves route rest := by
  rw [step.buckets grouped, Leaves]
  split
  · exact (List.perm_append_singleton _ _).congr_left _ |>.trans (List.perm_cons _)
  · rfl

/-- The new routes are the valid ones exactly where each is taken. -/
theorem routesNeqInstall_updated_iff (useGroups : Bool) (ent : ConxEnt) {new : List Path}
    (short : new.length ≤ 2) :
    (ent.routesNeqInstall useGroups new).Updated useGroups new ↔ ent.Meets useGroups new := by
  match new with
  | [] =>
    change ent.Updated useGroups [] ↔ _
    rw [Updated, validRoutes_eq, Meets]
    simp
  | [one] =>
    have step : Replaced ent useGroups 0 one _ := replaced
    change (ent.replace useGroups 0 one).Updated useGroups [one] ↔ _
    rw [Updated, Meets, step.grouped, validRoutes_eq, ← step.here, step.valid rfl,
      step.other 1 (by decide), ← and_assoc]
    refine and_congr ?_ (forall_congr' fun grouped => step.leaves grouped [])
    simp
  | [one, two] =>
    have step : Replaced ent useGroups 0 one _ := replaced
    have last : Replaced (ent.replace useGroups 0 one) useGroups 1 two _ := replaced
    have kept := step.other 1 (by decide)
    have takes : (ent.replace useGroups 0 one).Takes useGroups 1 two ↔
        ent.Takes useGroups 1 two := by
      rw [Takes, Takes, kept]
    change ((ent.replace useGroups 0 one).replace useGroups 1 two).Updated useGroups [one, two] ↔ _
    rw [Updated, Meets, last.grouped, step.grouped, validRoutes_eq, last.other 0 (by decide),
      ← step.here, step.valid rfl, ← takes, ← last.here, ← and_assoc]
    refine and_congr ?_ (forall_congr' fun grouped => ?_)
    · cases ((ConxEnt.replace useGroups (ent.replace useGroups 0 one) 1 two).routes 1).valid <;>
        simp
    · rw [last.buckets (step.grouped.trans grouped), kept]
      split
      · rw [← step.leaves grouped]
        change List.Perm _ ([one.fhop.la] ++ [two.fhop.la]) ↔ _
        rw [List.perm_append_right_iff]
        split <;> simp [*]
      · exact step.leaves grouped _

/-- A fresh entry takes two routes. -/
theorem routesNeqInstall_updated_fresh :
    (routesNeqInstall true {} [⟨⟨1, []⟩, []⟩, ⟨⟨2, []⟩, []⟩]).Updated true
    [⟨⟨1, []⟩, []⟩, ⟨⟨2, []⟩, []⟩] :=
  (routesNeqInstall_updated_iff true {} (by decide)).2 ⟨.inl rfl, .inr rfl, fun _ => ⟨rfl, .nil⟩⟩

/-- A route that is changed behind its first element stays as it was. -/
theorem changed_route_not_taken :
    let old : ConxEnt := routesNeqInstall true {} [⟨⟨1, []⟩, [⟨2, []⟩]⟩]
    old.Updated true [⟨⟨1, []⟩, [⟨2, []⟩]⟩] ∧
      ¬(old.routesNeqInstall true [⟨⟨1, []⟩, [⟨3, []⟩]⟩]).Updated true [⟨⟨1, []⟩, [⟨3, []⟩]⟩] :=
  ⟨⟨by decide, fun _ => .refl _⟩, fun updated => absurd updated.1 (by decide)⟩

end ConxEnt

end OpenMul.Conx
