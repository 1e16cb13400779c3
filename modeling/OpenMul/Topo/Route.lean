import OpenMul.Topo.Apsp

namespace OpenMul.Topo

/-- `rt_path_elem_t`, as far as loop detection reads it. -/
structure RtPathElem where
  swAlias : Nat
  link : LweightPair

abbrev Route := List RtPathElem

/-- `mul_route_list_merge`. Only the first route of the first leg is used: the
inner loop leaves nothing for the others. New routes go to the front. -/
def routeListMerge (path ik kj : List Route) : List Route :=
  match ik with
  | [] => path
  | first :: _ => kj.foldl (fun path route => (first ++ route) :: path) path

/-- The loop of `mul_route_apsp_get_subp` over the transit slots from slot `n`
on, with the recursive call as a parameter. An unused slot ends it: a direct
link then replaces whatever was collected. -/
def routeApspSubpLoop (rt : RtApsp) (subp : Nat → Nat → Nat → List Route × Nat) (src dest : Nat) :
    Nat → List Nat → List Route → Nat → List Route × Nat
  | n, [], path, maxHops =>
    (if decide (n < rtMaxEqPaths) && rt.onlinkNeigh src dest then [[⟨src, rt.getPair src dest⟩]]
      else path,
      maxHops)
  | n, transit :: rest, path, maxHops =>
    if rtMaxEqPaths ≤ n ∨ src = transit ∨ dest = transit then (path, maxHops)
    else
      let ik := subp src transit maxHops
      let kj := subp transit dest ik.2
      routeApspSubpLoop rt subp src dest (n + 1) rest (routeListMerge path ik.1 kj.1) kj.2

/-- `mul_route_apsp_get_subp`, with the hops that are left. Every call takes
one, so with as much fuel as hops the fuel does not end it. -/
def routeApspGetSubp (rt : RtApsp) : Nat → Nat → Nat → Nat → List Route × Nat
  | 0, _, _, maxHops => ([], maxHops)
  | fuel + 1, src, dest, maxHops =>
    if maxHops = 0 then ([], maxHops)
    else routeApspSubpLoop rt (routeApspGetSubp rt fuel) src dest 0
      (rt.elems (src, dest)).swAlias [] (maxHops - 1)

/-- The check of `mul_route_prep_out`: every hop but the last leaves by a port. -/
def routePrepOut (route : Route) : Bool := route.dropLast.all fun elem =>
    elem.link.la != neighNoLink

/-- `c_app_switch_get_dpid_with_alias`. -/
def appSwitchGetDpidWithAlias (topo : Topology) (node : Nat) : Dpid :=
  ((topo.switchFromImap node).map LldpSwitch.dpid).getD 0

def maxHopsPerRoute : Nat := maxSwitchesPerCluster * rtMaxEqPaths

/-- `mul_route_apsp_get_sp`, undisturbed by writers. Between a switch and
itself it returns no route. -/
def routeApspGetSp (topo : Topology) (rt : RtApsp) (src dest : Nat) : Option Route :=
  if src = dest || appSwitchGetDpidWithAlias topo dest == 0 || !rt.converged ||
      rt.getWeight src dest == ⊤ then none
  else
    let found := routeApspGetSubp rt maxHopsPerRoute src dest maxHopsPerRoute
    if found.2 = 0 then none
    else
      match found.1 with
      | [] | [] :: _ => none
      | route :: _ =>
        let full := route ++ [⟨dest, ⟨neighNoLink, neighNoLink, ⊤, 0⟩⟩]
        if routePrepOut full then some full else none

/-- `__tr_get_route`. A single switch with alias 0 has no routes. -/
def trGetRoute (topo : Topology) (rt : RtApsp) (src dst : Nat) : Option Route :=
  match topo.maxSwAlias with
  | none | some 0 => none
  | some last => if last < src ∨ last < dst then none else routeApspGetSp topo rt src dst

end OpenMul.Topo
