import OpenMul.Core.AppDeparture
import OpenMul.Core.RegistrationRun

namespace OpenMul

open Lib RefTable

@[simp] theorem Switch.withRef_holders (sw : Switch) (appRef : App → Int) :
    (sw.withRef appRef).holders = sw.holders := rfl

/-- All that holds a reference to an application on some switches. -/
def holdersOf (nodes : List RegSwitch) : List App := nodes.flatMap fun node => node.sw.holders

/-- Counts and holders of a registry changed by the same amount. -/
def Registry.Kept (reg next : Registry) : Prop :=
  ∀ app, next.appRef app - reg.appRef app =
    ((holdersOf next.switches).count app : Int) - (holdersOf reg.switches).count app

/-- Every holder has its reference. -/
def Registry.Enough (reg : Registry) : Prop :=
  ∀ app, ((holdersOf reg.switches).count app : Int) ≤ reg.appRef app

section Kept

variable {reg middle next : Registry} {select : RegSwitch → Bool} {change : Switch → Switch}

theorem Registry.Kept.refl (reg : Registry) : reg.Kept reg := by
  intro app
  simp

theorem Registry.Kept.trans (first : reg.Kept middle) (second : middle.Kept next) :
    reg.Kept next := by
  intro app
  have early := first app
  have late := second app
  omega

theorem Registry.Kept.enough (kept : reg.Kept next) (enough : reg.Enough) : next.Enough := by
  intro app
  have before := enough app
  have moved := kept app
  omega

theorem visitSwitches_kept (list : List RegSwitch)
    (step : ∀ node ∈ list, select node = true → ∀ appRef, Enough (node.sw.withRef appRef) →
      Settled (node.sw.withRef appRef) (change (node.sw.withRef appRef)))
    (appRef : App → Int) (enough : ∀ app, ((holdersOf list).count app : Int) ≤ appRef app)
    (app : App) :
    let visited := visitSwitches select change appRef list
    visited.2 app - appRef app = ((holdersOf visited.1).count app : Int) - (holdersOf list).count
      app := by
  induction list generalizing appRef with
  | nil => simp [visitSwitches]
  | cons node rest ih =>
    have later := ih fun node member => step node (List.mem_cons_of_mem _ member)
    simp only [holdersOf, List.flatMap_cons, List.count_append] at enough later
    cases chosen : select node with
    | false =>
      have tail := later appRef fun app => by
        have all := enough app
        omega
      simp only [visitSwitches, chosen, Bool.false_eq_true, if_false, holdersOf, List.flatMap_cons,
        List.count_append] at tail ⊢
      omega
    | true =>
      have here : Enough (node.sw.withRef appRef) := by
        intro app
        have all := enough app
        simp only [Switch.withRef_holders, Switch.withRef_appRef]
        omega
      have settled := step node List.mem_cons_self chosen appRef here
      have tail := later (change (node.sw.withRef appRef)).appRef fun app => by
        have all := enough app
        have moved := settled app
        simp only [Switch.withRef_holders, Switch.withRef_appRef] at moved
        omega
      have moved := settled app
      simp only [Switch.withRef_holders, Switch.withRef_appRef] at moved
      simp only [visitSwitches, chosen, if_true, holdersOf, List.flatMap_cons, List.count_append]
        at tail ⊢
      omega

theorem Registry.visit_kept (enough : reg.Enough)
    (step : ∀ node ∈ reg.switches, select node = true →
      ∀ appRef, OpenMul.Enough (node.sw.withRef appRef) →
      Settled (node.sw.withRef appRef) (change (node.sw.withRef appRef))) :
    reg.Kept (reg.visit select change) :=
  visitSwitches_kept reg.switches step reg.appRef enough

end Kept

theorem perSwitchAppRegisterLocked_settled (sw : Switch) (app : App) :
    Settled sw (perSwitchAppRegisterLocked sw app) := by
  have settled := perSwitchAppRegister_settled sw app
  simp only [perSwitchAppRegisterLocked, perSwitchAppRegister] at settled ⊢
  split at settled
  all_goals
    rename_i known
    simp only [known]
    exact settled

namespace Registry

variable {reg : Registry}

theorem perAppSwitchRegister_settled (reg : Registry) (dpid : BitVec 64) (sw : Switch) (app : App) :
    Settled sw (reg.perAppSwitchRegister dpid sw app) := by
  unfold perAppSwitchRegister
  split
  · exact perSwitchAppRegisterLocked_settled sw app
  · exact .refl sw

private theorem foldl_register_settled (reg : Registry) (dpid : BitVec 64) (apps : List App)
    (sw : Switch) : Settled sw (apps.foldl (reg.perAppSwitchRegister dpid) sw) := by
  induction apps generalizing sw with
  | nil => exact .refl sw
  | cons app rest ih => exact (reg.perAppSwitchRegister_settled dpid sw app).trans (ih _)

theorem switchAppListExp_kept (enough : reg.Enough) (dpid : BitVec 64) :
    reg.Kept (reg.switchAppListExp dpid) := by
  apply reg.visit_kept enough
  intro node _ _ appRef _
  exact reg.foldl_register_settled dpid reg.appList _

theorem visit_register_kept (enough : reg.Enough) (select : RegSwitch → Bool) (app : App) :
    reg.Kept (reg.visit select fun sw => perSwitchAppRegister sw app) := by
  apply reg.visit_kept enough
  intro node _ _ appRef _
  exact perSwitchAppRegister_settled _ app

theorem registerDpid_kept (enough : reg.Enough) (order : ByteOrder) (app : App) (word : BitVec 64) :
    reg.Kept (reg.registerDpid order app word) := by
  simp only [registerDpid]
  split
  · exact .refl reg
  · let noted := reg.setInfo app { reg.info app with
      dpidHlist := some (order.swap word :: (reg.info app).dpidHlist.getD []) }
    have still : noted.Enough := enough
    exact visit_register_kept still _ app

private theorem registerDpids_kept (order : ByteOrder) (app : App) (words : List (BitVec 64))
    (reg : Registry) (enough : reg.Enough) :
    reg.Kept (words.foldl (fun reg => reg.registerDpid order app) reg) := by
  induction words generalizing reg with
  | nil => exact .refl reg
  | cons word rest ih =>
    have first := reg.registerDpid_kept enough order app word
    exact first.trans (ih _ (first.enough enough))

private theorem replay_kept (app : App) (dpids : List (BitVec 64)) (reg : Registry)
    (enough : reg.Enough) :
    reg.Kept (dpids.foldl (fun now dpid =>
      if (now.info app).covers dpid then now.switchAppListExp dpid else now) reg) := by
  induction dpids generalizing reg with
  | nil => exact .refl reg
  | cons dpid rest ih =>
    rw [List.foldl_cons]
    split
    · have first := reg.switchAppListExp_kept enough dpid
      exact first.trans (ih _ (first.enough enough))
    · exact ih reg enough

theorem switchReplayAll_kept (enough : reg.Enough) (app : App) :
    reg.Kept (reg.switchReplayAll app) :=
  replay_kept app _ reg enough

theorem writeRecord_eq (cleared : remote = false → reg.appRef app = 0) (appName : List Byte)
    (appFlags evMask : BitVec 32) : reg.writeRecord remote app appName appFlags evMask =
      reg.setInfo app ((reg.writeRecord remote app appName appFlags evMask).info app) := by
  cases remote with
  | true => simp [writeRecord, setInfo]
  | false =>
    have counts : Function.update reg.appRef app 0 = reg.appRef := by
      rw [← cleared rfl, Function.update_eq_self]
    simp [writeRecord, setInfo, counts]

theorem registered_kept (enough : reg.Enough) (order : ByteOrder)
    (cleared : remote = false → reg.appRef app = 0) (appName : List Byte)
    (appFlags evMask nDpid : BitVec 32) (dpidList : Nat → BitVec 64) :
    reg.Kept (reg.registered order remote app appName appFlags evMask nDpid dpidList) := by
  have written : reg.Kept (reg.writeRecord remote app appName appFlags evMask) := by
    rw [writeRecord_eq cleared]
    exact .refl reg
  have still := written.enough enough
  simp only [registered]
  split
  · exact written.trans (visit_register_kept still _ app)
  · let noted := (reg.writeRecord remote app appName appFlags evMask).setInfo app
      { (reg.writeRecord remote app appName appFlags evMask).info app with
          dpidHlist := some [], nDpid }
    have again : noted.Enough := still
    exact written.trans (registerDpids_kept order app _ noted again)

end Registry

/-- The list of a switch names registered applications that cover it, each once. -/
structure NodeBooked (reg : Registry) (node : RegSwitch) : Prop where
  listed : ∀ app ∈ node.sw.appList, app ∈ reg.appList ∧ (reg.info app).covers node.dpid = true
  covering : node.published = true → ∀ app ∈ reg.appList, (reg.info app).covers node.dpid = true →
    app ∈ node.sw.appList
  once : node.sw.appList.Nodup
  sound : OwnersSound node.sw

structure RegInv (reg : Registry) : Prop where
  nodes : ∀ node ∈ reg.switches, NodeBooked reg node
  apps : reg.appList.Nodup
  direct : ∀ app ∈ reg.appList, hasFlag (reg.info app).appFlags cAppAuxRemote = false
  counted : ∀ app, reg.appRef app = (holdersOf reg.switches).count app

theorem forall_of_related {Item : Type} {related : Item → Item → Prop} {holds : Item → Prop}
    {list after : List Item} (all : List.Forall₂ related list after)
    (step : ∀ item ∈ list, ∀ next, related item next → holds next) :
    ∀ next ∈ after, holds next := by
  induction all with
  | nil => exact nofun
  | cons head _ ih =>
    rw [List.forall_mem_cons]
    exact ⟨step _ List.mem_cons_self _ head,
      ih fun item member => step item (List.mem_cons_of_mem _ member)⟩

/-- What the owners rest on does not depend on lists, locks and counts. -/
theorem OwnersSound.of_same (sound : OwnersSound sw)
    (tbls : next.ruleFlowTbls = sw.ruleFlowTbls) (groups : next.groups = sw.groups)
    (meters : next.meters = sw.meters) : OwnersSound next := by
  refine ⟨?_, ?_, ?_, ?_, ?_⟩
  · intro table
    rw [Switch.rules, tbls]
    exact sound.rules table
  · exact groups ▸ sound.groupPtrs
  · exact groups ▸ sound.groupKeys
  · exact meters ▸ sound.meterPtrs
  · exact meters ▸ sound.meterKeys

namespace RegInv

variable {reg next : Registry}

section

variable (inv : RegInv reg)
include inv

theorem enough : reg.Enough := by
  intro app
  rw [inv.counted app]

theorem counted_of_kept (kept : reg.Kept next) (app : App) :
    next.appRef app = (holdersOf next.switches).count app := by
  have before := inv.counted app
  have moved := kept app
  omega

theorem count_unregistered (unregistered : app ∉ reg.appList)
    (nothing : ∀ node ∈ reg.switches, app ∉ node.sw.owners) : reg.appRef app = 0 := by
  rw [inv.counted app, List.count_eq_zero_of_not_mem]
  · rfl
  · intro held
    obtain ⟨node, member, holds⟩ := List.mem_flatMap.mp held
    rcases List.mem_append.mp holds with listed | owner
    · exact unregistered ((inv.nodes node member).listed app listed).1
    · exact nothing node member owner

theorem joined (switches : List.Forall₂ (Joined joins) reg.switches next.switches)
    (kept : reg.Kept next) (apps : next.appList.Nodup)
    (direct : ∀ app ∈ next.appList, hasFlag (next.info app).appFlags cAppAuxRemote = false)
    (into : ∀ node ∈ reg.switches, ∀ app, app ∈ node.sw.appList ∨ joins app node.dpid →
      app ∈ next.appList ∧ (next.info app).covers node.dpid = true)
    (everyone : ∀ node ∈ reg.switches, node.published = true → ∀ app ∈ next.appList,
      (next.info app).covers node.dpid = true → app ∈ node.sw.appList ∨ joins app node.dpid) :
    RegInv next := by
  refine ⟨?_, apps, direct, inv.counted_of_kept kept⟩
  refine forall_of_related switches ?_
  intro node member after here
  have before := inv.nodes node member
  refine ⟨?_, ?_, here.nodup before.once, before.sound.of_same here.tbls here.groups here.meters⟩
  · intro app listed
    rw [here.dpid]
    exact into node member app ((here.mem app).mp listed)
  · intro published app registered covers
    rw [here.dpid] at covers
    exact (here.mem app).mpr
      (everyone node member (here.published ▸ published) app registered covers)

theorem filled (joined : JoinedAll joins reg next) (kept : reg.Kept next)
    (info : next.info = reg.info)
    (into : ∀ app dpid, joins app dpid → app ∈ reg.appList ∧ (reg.info app).covers dpid = true) :
    RegInv next := by
  have apps := joined.appList
  apply inv.joined joined.switches kept
  · rw [apps]
    exact inv.apps
  · rw [apps, info]
    exact inv.direct
  · rw [apps, info]
    rintro node member app (listed | joins)
    · exact (inv.nodes node member).listed app listed
    · exact into app _ joins
  · rw [apps, info]
    intro node member published app registered covers
    exact .inl ((inv.nodes node member).covering published app registered covers)

theorem switchAppListExp (dpid : BitVec 64) : RegInv (reg.switchAppListExp dpid) := by
  apply inv.filled (reg.switchAppListExp_joined dpid)
    (Registry.switchAppListExp_kept inv.enough dpid) rfl
  rintro app _ ⟨rfl, registered, covers⟩
  exact ⟨registered, (Bool.and_eq_true _ _ ▸ covers).2⟩

theorem switchReplayAll (app : App) : RegInv (reg.switchReplayAll app) := by
  obtain ⟨joined, info⟩ := reg.switchReplayAll_joined app
  apply inv.filled joined (Registry.switchReplayAll_kept inv.enough app) info
  rintro other dpid ⟨-, registered, covers⟩
  exact ⟨registered, (Bool.and_eq_true _ _ ▸ covers).2⟩

theorem registered (order : ByteOrder) (unregistered : app ∉ reg.appList)
    (cleared : remote = false → reg.appRef app = 0) (appName : List Byte)
    (plain : hasFlag appFlags cAppAuxRemote = false) (evMask nDpid : BitVec 32)
    (dpidList : Nat → BitVec 64) :
    let walked := reg.registered order remote app appName appFlags evMask nDpid dpidList
    RegInv { walked with appList := walked.appList ++ [app] } := by
  intro walked
  obtain ⟨joined, -, aux, others, -⟩ :=
    reg.registered_spec order remote app appName appFlags evMask nDpid dpidList
  have apps : walked.appList = reg.appList := joined.appList
  have older : ∀ {other}, other ∈ reg.appList → walked.info other = reg.info other := by
    intro other member
    apply others
    rintro rfl
    exact unregistered member
  have kept : reg.Kept { walked with appList := walked.appList ++ [app] } :=
    Registry.registered_kept inv.enough order cleared appName appFlags evMask nDpid dpidList
  refine inv.joined joined.switches kept ?_ ?_ ?_ ?_
  · simp only [apps]
    exact inv.apps.append (List.nodup_singleton app) (by simpa using unregistered)
  · simp only [apps, List.mem_append, List.mem_singleton]
    rintro other (member | rfl)
    · rw [older member]
      exact inv.direct other member
    · exact aux.trans plain
  · simp only [apps, List.mem_append, List.mem_singleton]
    rintro node member other (listed | ⟨rfl, covers⟩)
    · obtain ⟨registered, covers⟩ := (inv.nodes node member).listed other listed
      exact ⟨.inl registered, older registered ▸ covers⟩
    · exact ⟨.inr rfl, covers⟩
  · simp only [apps, List.mem_append, List.mem_singleton]
    rintro node member published other (registered | rfl) covers
    · rw [older registered] at covers
      exact .inl ((inv.nodes node member).covering published other registered covers)
    · exact .inr ⟨rfl, covers⟩

theorem setInfo (unregistered : app ∉ reg.appList) (info : AppInfo) :
    RegInv (reg.setInfo app info) := by
  have older : ∀ {other}, other ∈ reg.appList →
      (reg.setInfo app info).info other = reg.info other := by
    intro other member
    refine Function.update_of_ne ?_ ..
    rintro rfl
    exact unregistered member
  refine ⟨?_, inv.apps, ?_, inv.counted⟩
  · intro node member
    obtain ⟨listed, covering, once, sound⟩ := inv.nodes node member
    refine ⟨?_, ?_, once, sound⟩
    · intro other here
      obtain ⟨registered, covers⟩ := listed other here
      exact ⟨registered, older registered ▸ covers⟩
    · intro published other registered covers
      exact covering published other registered (older registered ▸ covers)
  · intro other registered
    rw [older registered]
    exact inv.direct other registered

theorem registerSwitch (dpid : BitVec 64) (ctors : OfpCtors) :
    RegInv (reg.registerSwitch dpid ctors) := by
  unfold Registry.registerSwitch
  split
  · exact inv
  refine ⟨?_, inv.apps, inv.direct, ?_⟩
  · intro node member
    rcases List.mem_append.mp member with old | new
    · exact { inv.nodes node old with }
    · rw [List.mem_singleton.mp new]
      exact ⟨nofun, nofun, List.nodup_nil, fun _ => nofun, List.nodup_nil, List.nodup_nil,
        List.nodup_nil, List.nodup_nil⟩
  · intro app
    have none : (bootSwitch ctors).holders = [] := by
      simp [Switch.holders, Switch.owners, Switch.held, Switch.allRules, Switch.rules, bootSwitch,
        ownersOf]
    simp only [holdersOf, List.flatMap_append, List.flatMap_cons, List.flatMap_nil, none,
      List.append_nil]
    exact inv.counted app

theorem publish (dpid : BitVec 64) : RegInv (reg.publish dpid) := by
  unfold Registry.publish
  split
  swap
  · exact inv
  have after := inv.switchAppListExp dpid
  have complete : ∀ node ∈ (reg.switchAppListExp dpid).switches, node.dpid = dpid →
      ∀ app ∈ reg.appList, (reg.info app).covers dpid = true → app ∈ node.sw.appList := by
    refine forall_of_related (reg.switchAppListExp_joined dpid).switches ?_
    intro node member next joined same app registered covers
    have here : node.dpid = dpid := joined.dpid.symm.trans same
    apply (joined.mem app).mpr
    refine .inr ⟨here, registered, ?_⟩
    rw [AppInfo.perSwitch, inv.direct app registered, covers]
    rfl
  refine ⟨?_, after.apps, after.direct, ?_⟩
  · intro node member
    obtain ⟨old, inside, rfl⟩ := List.mem_map.mp member
    have booked := after.nodes old inside
    split
    · rename_i chosen
      refine ⟨booked.listed, ?_, booked.once, booked.sound⟩
      intro _ app registered covers
      have same : old.dpid = dpid := beq_iff_eq.mp chosen
      exact complete old inside same app registered (same ▸ covers)
    · exact { booked with }
  · intro app
    have same : holdersOf ((reg.switchAppListExp dpid).switches.map fun node =>
        if node.dpid == dpid then { node with published := true } else node) =
        holdersOf (reg.switchAppListExp dpid).switches := by
      simp only [holdersOf, List.flatMap_map]
      apply List.flatMap_congr
      intro node _
      split <;> rfl
    rw [same]
    exact after.counted app

end

end RegInv

end OpenMul
