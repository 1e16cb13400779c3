import OpenMul.Lib.Flags
import OpenMul.Lib.FloydWarshall
import OpenMul.Topo.Topology

namespace OpenMul.Topo

open Lib

/-- `lweight_pair_t`. The weight `NEIGH_NO_PATH` is `⊤`; a path has fewer than
512 links, so no sum of weights comes near that number. -/
structure LweightPair where
  la : PortNo
  lb : PortNo
  weight : ℕ∞
  flags : BitVec 32 := 0

def neighNoLink : PortNo := 0xffff

def neighDflWeight : ℕ∞ := 100

def neighFlOnlink : BitVec 32 := 0x1

def neighFlBlock : BitVec 32 := 0x2

def rtMaxAdjPairs : Nat := 4

def rtMaxEqPaths : Nat := 4

/-- One element of `adj_matrix` with the element of `paths` at the same place.
The used slots of `sw_alias` are the list `swAlias`, of length `n_paths`. -/
structure RtElem where
  pairs : Nat
  adjPairs : Nat → LweightPair
  swAlias : List Nat

/-- `rt_apsp_t`; its state bits are one field each. -/
structure RtApsp where
  init : Bool := false
  adjInit : Bool := false
  run : Bool := false
  isConverged : Bool := false
  nodes : Nat := 0
  elems : Nat × Nat → RtElem

/-- `rt_init_adj_pairs_disconnected`. -/
def disconnected : RtElem where
  pairs := 0
  adjPairs := fun _ => ⟨neighNoLink, neighNoLink, ⊤, 0⟩
  swAlias := []

namespace RtApsp

/-- `rt_apsp_get_pair`: the first pair stands for all of them. -/
def getPair (rt : RtApsp) (src dst : Nat) : LweightPair := (rt.elems (src, dst)).adjPairs 0

def getWeight (rt : RtApsp) (src dst : Nat) : ℕ∞ := (rt.getPair src dst).weight

/-- `rt_apsp_onlink_neigh`. -/
def onlinkNeigh (rt : RtApsp) (src dst : Nat) : Bool :=
  hasFlag (rt.getPair src dst).flags neighFlOnlink && !hasFlag (rt.getPair src dst).flags
    neighFlBlock

/-- `rt_apsp_converged`. -/
def converged (rt : RtApsp) : Bool := rt.init && rt.adjInit && rt.isConverged

end RtApsp

/-- The first used pair between the same two ports. -/
def RtElem.findPair (elem : RtElem) (new : LweightPair) : Option Nat :=
  (List.range elem.pairs).find? fun index =>
    (elem.adjPairs index).la == new.la && (elem.adjPairs index).lb == new.lb

def RtElem.setPair (elem : RtElem) (index : Nat) (pair : LweightPair) : RtElem :=
  { elem with adjPairs := Function.update elem.adjPairs index pair }

/-- `mul_route_apsp_add_neigh_conn`. With `update` a known pair is only a reason
to calculate again. -/
def routeApspAddNeighConn (rt : RtApsp) (swA swB : Nat) (new : LweightPair) (update : Bool) :
    RtApsp :=
  let elem := rt.elems (swA, swB)
  if !rt.init || decide (rt.nodes ≤ swA) || decide (rtMaxAdjPairs - 1 ≤ elem.pairs) then rt
  else
    match elem.findPair new with
    | some index =>
      let old := elem.adjPairs index
      if old.weight ≠ new.weight ∨ old.flags ≠ new.flags then
        if update then { rt with adjInit := false }
        else
          let changed := elem.setPair index { old with weight := new.weight, flags := new.flags }
          { rt with elems := Function.update rt.elems (swA, swB) changed, adjInit := false }
      else rt
    | none =>
      if update then rt
      else
        let added := { elem.setPair elem.pairs new with pairs := elem.pairs + 1 }
        { rt with elems := Function.update rt.elems (swA, swB) added, adjInit := false }

/-- The pair `lldp_send_rt_neigh_conn` sends for a port. -/
def rtNeighPair (sw : LldpSwitch) (port : LldpPort) (loopStatus : PortId → LoopPortStatus)
    (sendPortState : Bool) : LweightPair :=
  let status := loopStatus (sw.dpid, port.portNo)
  let blocked := sendPortState && (status == .ndp || status == .dpN)
  { la := port.portNo
    lb := port.neighborPort
    weight := if blocked then 100 * neighDflWeight else neighDflWeight
    flags := if blocked then setFlag neighFlOnlink neighFlBlock else neighFlOnlink }

section Init

variable (topo : Topology) (loopStatus : PortId → LoopPortStatus) (sendPortState : Bool)

/-- `__lldp_init_neigh_pair_adjacencies`. -/
def initNeighPairAdjacencies (rt : RtApsp) (src dst : Nat) : RtApsp :=
  match topo.switchFromImap src, topo.switchFromImap dst with
  | some fromSw, some toSw =>
    (fromSw.portsTo toSw.dpid).foldl (fun rt port =>
      routeApspAddNeighConn rt src dst (rtNeighPair fromSw port loopStatus sendPortState) false) rt
  | _, _ => rt

/-- All pairs of aliases below a bound, row by row. -/
def aliasPairs (nodes : Nat) : List (Nat × Nat) := List.range nodes ×ˢ List.range nodes

/-- `mul_route_apsp_init_state`; without a switch the state is only cleaned. -/
def routeApspInitState : RtApsp :=
  match topo.maxSwAlias with
  | none => { elems := fun _ => disconnected }
  | some last =>
    let clear : RtApsp := { init := true, nodes := last + 1, elems := fun _ => disconnected }
    let filled := (aliasPairs (last + 1)).foldl (fun rt place =>
      initNeighPairAdjacencies topo loopStatus sendPortState rt place.1 place.2) clear
    { filled with adjInit := true }

end Init

/-- The body of the three loops of `mul_route_apsp_calc`, on one element. -/
def fwElem (mid : Nat) (elems : Nat × Nat → RtElem) (place : Nat × Nat) : RtElem :=
  let elem := elems place
  let weightIk := ((elems (place.1, mid)).adjPairs 0).weight
  let weightKj := ((elems (mid, place.2)).adjPairs 0).weight
  let weightIj := (elem.adjPairs 0).weight
  if place.1 = place.2 then elem
  else if weightIk ≠ ⊤ ∧ weightKj ≠ ⊤ then
    if weightIk + weightKj < weightIj then
      { elem.setPair 0 { elem.adjPairs 0 with weight := weightIk + weightKj } with
          swAlias := [mid] }
    else if weightIk + weightKj = weightIj ∧ mid ≠ place.1 ∧ mid ≠ place.2 ∧
        elem.swAlias.length < rtMaxEqPaths then
      { elem with swAlias := elem.swAlias ++ [mid] }
    else elem
  else elem

def fwStage (nodes : Nat) (elems : Nat × Nat → RtElem) (mid : Nat) : Nat × Nat → RtElem :=
  (aliasPairs nodes).foldl (fun elems place => Function.update elems place (fwElem mid elems place))
    elems

/-- `mul_route_apsp_calc`. -/
def routeApspCalc (rt : RtApsp) : RtApsp :=
  if rt.init && rt.adjInit then
    { rt with
      elems := (List.range rt.nodes).foldl (fwStage rt.nodes) rt.elems
      run := false, isConverged := true }
  else rt

/-- `mul_route_apsp_recalc`. -/
def routeApspRecalc (topo : Topology) (loopStatus : PortId → LoopPortStatus) (rt : RtApsp) :
    RtApsp :=
  if rt.adjInit then rt else routeApspCalc (routeApspInitState topo loopStatus true)

/-- The matrices `__tr_invoke_routing` leaves. -/
def trInvokeRouting (topo : Topology) (loopStatus : PortId → LoopPortStatus) : RtApsp :=
  routeApspCalc (routeApspInitState topo loopStatus false)

end OpenMul.Topo
