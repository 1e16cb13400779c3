import OpenMul.Core.Flow

namespace OpenMul.Fabric

/-- `rt_path_elem_t`, with its two flags apart. -/
structure PathElem where
  swAlias : Nat
  firstHop : Bool
  lastHop : Bool
  inPort : BitVec 16
  la : BitVec 16
  deriving DecidableEq

/-- `fab_port_t`. -/
structure FabPort where
  config : BitVec 32
  state : BitVec 32

/-- `sw_list`: the ports of every known switch, by alias. -/
abbrev SwList := Nat → Option (BitVec 16 → Option FabPort)

/-- `fab_hkey_t`. The bytes of the address are those of the array, the first one lowest. -/
structure HKey where
  hostIp : BitVec 32
  tnId : BitVec 32
  hostMac : BitVec 48
  deriving DecidableEq

/-- `fab_host_t` under its address. -/
structure Host where
  ptr : Nat := 0
  hkey : HKey
  swid : BitVec 64
  swAlias : Nat
  port : BitVec 16
  dflGw : Bool := false
  deriving DecidableEq

/-- `fab_route_t`; without a path `iroute` is empty. -/
structure Route where
  src : Host
  dst : Host
  prio : BitVec 16
  flow : Flow
  mask : Flow
  iroute : List PathElem
  deriving DecidableEq

/-- The fabric: the routes that wait for a path. -/
structure Fab where
  pending : List Route := []
  deriving DecidableEq

/-- `fab_port_up`. -/
def portUp (ports : BitVec 16 → Option FabPort) (portNo : BitVec 16) : Bool :=
  (ports portNo).any fun port => port.config &&& 1 = 0 && port.state &&& 1 = 0

/-- `fab_route_elem_valid`. -/
def routeElemValid (swList : SwList) (dst : Host) (elem : PathElem) : Bool :=
  (swList elem.swAlias).any fun ports =>
    if elem.lastHop then (ports dst.port).isSome else portUp ports elem.la

/-- `fab_route_get`, given what the route service answers. -/
def routeGet (swList : SwList) (dst : Host) (answer : Option (List PathElem)) :
    Option (List PathElem) :=
  answer.filter fun route => (route.find? (routeElemValid swList dst)).isSome

def flPrioFwd : BitVec 16 := 2

/-- The route between two hosts before it has a path. -/
def newRoute (src dst : Host) : Route where
  src := src
  dst := dst
  prio := if src.dflGw || dst.dflGw then flPrioFwd + 1 else flPrioFwd + 2
  flow :=
    { dlType := 0x0800
      nwSrc6 := (if src.dflGw then 0 else src.hkey.hostIp) ++
        ((if dst.dflGw then 0 else dst.hkey.hostIp) ++ 0#64) }
  mask :=
    { dlType := 0xffff
      nwSrc6 := (if src.dflGw then 0 else BitVec.allOnes 32) ++
        ((if dst.dflGw then 0 else BitVec.allOnes 32) ++ 0#64) }
  iroute := []

/-- `fab_mkroute` with what `fab_route_get` returned. -/
def Fab.mkroute (fab : Fab) (src dst : Host) (got : Option (List PathElem)) : Fab × Option Route :=
  match got with
  | some iroute => (fab, some { newRoute src dst with iroute })
  | none => ({ fab with pending := fab.pending ++ [newRoute src dst] }, none)

/-- A known switch with an output port that is up, or the host's port on the last one. -/
def Usable (swList : SwList) (dst : Host) (elem : PathElem) : Prop :=
  ∃ ports, swList elem.swAlias = some ports ∧
    if elem.lastHop then (ports dst.port).isSome else portUp ports elem.la

theorem routeElemValid_iff : routeElemValid swList dst elem = true ↔ Usable swList dst elem := by
  simp [routeElemValid, Option.any_eq_true, Usable]

/-- The search stops at the first element in order, so one of them is enough. -/
theorem routeGet_eq_some_iff : routeGet swList dst answer = some route ↔
      answer = some route ∧ ∃ elem ∈ route, Usable swList dst elem := by
  simp [routeGet, routeElemValid_iff]

/-- The returned route is usable as a whole exactly if the answer is, or has no usable element;
without a route the pair waits. -/
theorem routeGet_usable_iff (fab : Fab) (swList : SwList) (src dst : Host)
    (answer : Option (List PathElem)) :
    ((∀ route, routeGet swList dst answer = some route → ∀ elem ∈ route, Usable swList dst elem) ↔
      ∀ route, answer = some route →
        (∀ elem ∈ route, Usable swList dst elem) ∨ ∀ elem ∈ route, ¬Usable swList dst elem) ∧
    (routeGet swList dst answer = none → fab.mkroute src dst (routeGet swList dst answer) =
        ({ fab with pending := fab.pending ++ [newRoute src dst] }, none)) := by
  refine ⟨⟨?_, ?_⟩, fun refused => by rw [refused, Fab.mkroute]⟩
  · intro sound route answered
    by_cases one : ∃ elem ∈ route, Usable swList dst elem
    · exact .inl (sound route (routeGet_eq_some_iff.2 ⟨answered, one⟩))
    · exact .inr fun elem member usable => one ⟨elem, member, usable⟩
  · intro whole route got
    obtain ⟨answered, elem, member, usable⟩ := routeGet_eq_some_iff.1 got
    rcases whole route answered with every | no
    · exact every
    · exact absurd usable (no elem member)

/-- Switches 0 and 1 with one port each, the port of switch 0 down. -/
def twoSwitches : SwList
  | 0 => some fun portNo => if portNo = 1 then some ⟨1, 0⟩ else none
  | 1 => some fun portNo => if portNo = 2 then some ⟨0, 0⟩ else none
  | _ => none

def farHost : Host := { hkey := ⟨0x0a000002, 0, 0⟩, swid := 1, swAlias := 1, port := 2 }

/-- The same switches with the port of switch 0 up. -/
def linkedSwitches : SwList
  | 0 => some fun portNo => if portNo = 1 then some ⟨0, 0⟩ else none
  | other => twoSwitches other

theorem routeGet_usable_linked :
    let src : Host := { farHost with swid := 0, swAlias := 0, port := 9 }
    let route : List PathElem := [⟨0, true, false, 0, 1⟩, ⟨1, false, true, 3, 0⟩]
    routeGet linkedSwitches farHost (some route) = some route ∧
      (∀ elem ∈ route, Usable linkedSwitches farHost elem) ∧
      (Fab.mkroute {} src farHost (routeGet linkedSwitches farHost none)).1.pending =
        [newRoute src farHost] := by
  intro src route
  have usable : ∀ elem ∈ route, Usable linkedSwitches farHost elem := by
    intro elem member
    rw [← routeElemValid_iff]
    revert elem
    decide
  have found : routeGet linkedSwitches farHost (some route) = some route := by decide
  refine ⟨found, ?_, ?_⟩
  · apply (routeGet_usable_iff {} linkedSwitches src farHost (some route)).1.2 _ route found
    intro other answered
    cases answered
    exact .inl usable
  · rw [(routeGet_usable_iff {} linkedSwitches src farHost none).2 rfl]
    rfl

/-- A route out of a port that is down is returned, because its last hop is in order. -/
theorem down_port_routed :
    let route : List PathElem := [⟨0, true, false, 0, 1⟩, ⟨1, false, true, 3, 0⟩]
    routeGet twoSwitches farHost (some route) = some route ∧
      ¬Usable twoSwitches farHost ⟨0, true, false, 0, 1⟩ := by
  rw [← routeElemValid_iff]
  decide

end OpenMul.Fabric
