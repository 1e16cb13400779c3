import OpenMul.Core.Outcome
import OpenMul.Core.System

namespace OpenMul

open Lib RefTable List

/-- All rules of a switch, table by table. -/
def Switch.allRules (sw : Switch) : List FlEntry := (List.range maxRuleFlowTbls).flatMap sw.rules

section Sweep

variable (keep : FlEntry → Option FlEntry) (msgs : FlEntry → List OfpMsg)

/-- The entries a sweep frees. -/
def freed (list : List FlEntry) : List FlEntry := list.filter fun ent => (keep ent).isNone

/-- The swept tables, less the freed entries. Their counters stay. -/
def sweptTbls (tables : List Nat) (tbls : Nat → FlowTbl) (table : Nat) : FlowTbl :=
  if table ∈ tables then
    { tbls table with ruleFlTbl := (tbls table).ruleFlTbl.filterMap keep }
  else tbls table

/-- A switch after a sweep of some tables: kept entries as the verdict leaves
them, references of freed entries given back. -/
def swept (sw : Switch) (tables : List Nat) (appRef : App → Int) : Switch :=
  { sw with
    groups := release sw.groups ((freed keep (tables.flatMap sw.rules)).flatMap FlEntry.groups)
    meters := release sw.meters ((freed keep (tables.flatMap sw.rules)).flatMap FlEntry.meters)
    ruleFlowTbls := sweptTbls keep tables sw.ruleFlowTbls
    txQ := sw.txQ ++ (freed keep (tables.flatMap sw.rules)).flatMap msgs
    appRef }

theorem release_append (table : List (Counted (BitVec 32) Body)) (first second : List Nat) :
    release (release table first) second = release table (first ++ second) := by
  simp [release]

theorem rules_swept (sw : Switch) (tables : List Nat) (appRef : App → Int) (table : Nat) :
    (swept keep msgs sw tables appRef).rules table =
      if table ∈ tables then (sw.rules table).filterMap keep else sw.rules table := by
  by_cases member : table ∈ tables <;> simp [swept, Switch.rules, sweptTbls, member]

theorem sweptTbls_cons (table : Nat) (rest : List Nat) (absent : table ∉ rest)
    (tbls : Nat → FlowTbl) :
    sweptTbls keep rest (sweptTbls keep [table] tbls) = sweptTbls keep (table :: rest) tbls := by
  funext other
  by_cases same : other = table
  · subst other
    simp [sweptTbls, absent]
  · by_cases member : other ∈ rest <;> simp [sweptTbls, member, same]

theorem swept_cons (sw : Switch) (table : Nat) (rest : List Nat) (absent : table ∉ rest)
    (middle appRef : App → Int) : swept keep msgs (swept keep msgs sw [table] middle) rest appRef =
      swept keep msgs sw (table :: rest) appRef := by
  have others : rest.flatMap (swept keep msgs sw [table] middle).rules = rest.flatMap sw.rules := by
    apply flatMap_congr
    intro other member
    have different : other ≠ table := fun same => absent (same ▸ member)
    simp [rules_swept, different]
  rw [swept, others]
  simp [swept, freed, release_append, sweptTbls_cons keep table rest absent]

/-- A loop over distinct tables whose body sweeps one table sweeps them all. -/
theorem foldl_swept (body : Switch → Nat → Switch) (inv : Switch → Prop)
    (step : ∀ sw table, inv sw → ∃ appRef, body sw table = swept keep msgs sw [table] appRef)
    (stable : ∀ sw tables appRef, inv sw → inv (swept keep msgs sw tables appRef))
    (tables : List Nat) (distinct : tables.Nodup) (sw : Switch) (holds : inv sw) :
    ∃ appRef, tables.foldl body sw = swept keep msgs sw tables appRef := by
  induction tables generalizing sw with
  | nil =>
    have same : sweptTbls keep [] sw.ruleFlowTbls = sw.ruleFlowTbls := by
      funext table
      simp [sweptTbls]
    exact ⟨sw.appRef, by simp [swept, freed, release, same]⟩
  | cons table rest ih =>
    obtain ⟨absent, distinctRest⟩ := nodup_cons.mp distinct
    obtain ⟨middle, head⟩ := step sw table holds
    obtain ⟨appRef, tail⟩ := ih distinctRest _ (stable sw [table] middle holds)
    exact ⟨appRef, by rw [foldl_cons, head, tail, swept_cons keep msgs sw table rest absent]⟩

end Sweep

/-- What one entry becomes when an application leaves. -/
def keepOwned (app : App) (ent : FlEntry) : Option FlEntry :=
  if app ∈ ent.appOwnerList then
    if ent.appRef - 1 = 0 then none else some (withoutOwner app ent)
  else some ent

/-- An entry stays as it is, or less one of several owners. -/
theorem keepOwned_cases (keeps : keepOwned app ent = some kept) :
    kept = ent ∨ app ∈ ent.appOwnerList ∧ ¬ent.appRef - 1 = 0 ∧ kept = withoutOwner app ent := by
  unfold keepOwned at keeps
  split at keeps
  · rename_i owned
    split at keeps
    · cases keeps
    · rename_i others
      exact .inr ⟨owned, others, (Option.some.inj keeps).symm⟩
  · exact .inl (Option.some.inj keeps).symm

/-- What is written when the last owner of an entry leaves. -/
def sweepMsgs (ctors : OfpCtors) (master : Bool) (ent : FlEntry) : List OfpMsg :=
  if ent.clonedList.isEmpty && !hasFlag ent.flags flEntLocal then
    ({ ofpCtors := ctors, master } : Switch).flowDelMsgs ent false
  else []

theorem delAppFlowRule_eq (sw : Switch) (app : App) (list : List FlEntry) :
    ∃ appRef, delAppFlowRule sw app list = ({ sw with
        groups := release sw.groups ((freed (keepOwned app) list).flatMap FlEntry.groups)
        meters := release sw.meters ((freed (keepOwned app) list).flatMap FlEntry.meters)
        txQ := sw.txQ ++ (freed (keepOwned app) list).flatMap (sweepMsgs sw.ofpCtors sw.master)
        appRef }, list.filterMap (keepOwned app)) := by
  induction list generalizing sw with
  | nil => exact ⟨sw.appRef, by simp [delAppFlowRule, freed, release]⟩
  | cons ent rest ih =>
    by_cases owned : app ∈ ent.appOwnerList
    · by_cases last : ent.appRef - 1 = 0
      · obtain ⟨appRef, tail⟩ := ih (flowRuleFree
          (if ent.clonedList.isEmpty && !hasFlag ent.flags flEntLocal
            then { sw with appRef := (flowDelAppOwner sw.appRef ent app).1 }.sendFlowDel ent false
            else { sw with appRef := (flowDelAppOwner sw.appRef ent app).1 }) ent)
        have gone : freed (keepOwned app) (ent :: rest) = ent :: freed (keepOwned app) rest := by
          simp [freed, keepOwned, owned, last]
        have kept : (ent :: rest).filterMap (keepOwned app) = rest.filterMap (keepOwned app) := by
          simp [keepOwned, owned, last]
        have run : delAppFlowRule sw app (ent :: rest) = delAppFlowRule (flowRuleFree
            (if ent.clonedList.isEmpty && !hasFlag ent.flags flEntLocal
              then { sw with appRef := (flowDelAppOwner sw.appRef ent app).1 }.sendFlowDel ent false
              else { sw with appRef := (flowDelAppOwner sw.appRef ent app).1 }) ent) app rest := by
          rw [delAppFlowRule, if_pos owned]
          simp only [flowDelAppOwner, last, if_true]
          rfl
        rw [run, tail, gone, kept]
        cases sends : ent.clonedList.isEmpty && !hasFlag ent.flags flEntLocal <;>
          simp [flowRuleFree, release_append, sweepMsgs, sends, Switch.sendFlowDel, Switch.switchTx,
            Switch.flowDelMsgs]
      · obtain ⟨appRef, tail⟩ := ih { sw with appRef := (flowDelAppOwner sw.appRef ent app).1 }
        simp only [flowDelAppOwner] at tail
        simp [delAppFlowRule, owned, flowDelAppOwner, last, tail, freed, keepOwned, withoutOwner]
    · obtain ⟨appRef, tail⟩ := ih sw
      simp [delAppFlowRule, owned, tail, freed, keepOwned]

/-- `__c_per_switch_del_app_flow_owner` sweeps every rule table. -/
theorem delAppFlowOwner_eq (sw : Switch) (app : App) : ∃ appRef, delAppFlowOwner sw app =
      swept (keepOwned app) (sweepMsgs sw.ofpCtors sw.master) sw (range maxRuleFlowTbls)
        appRef := by
  refine foldl_swept (keepOwned app) (sweepMsgs sw.ofpCtors sw.master) _
    (fun other => other.ofpCtors = sw.ofpCtors ∧ other.master = sw.master) ?_ ?_ _ nodup_range sw
    ⟨rfl, rfl⟩
  · rintro other table ⟨ctors, master⟩
    obtain ⟨appRef, eq⟩ := delAppFlowRule_eq other app (other.rules table)
    refine ⟨appRef, ?_⟩
    simp only [eq, ctors, master]
    simp only [Switch.setRules, swept, flatMap_cons, flatMap_nil, append_nil,
      ctors, master, Switch.mk.injEq, true_and, and_true]
    funext query
    by_cases same : query = table
    · subst query
      simp [sweptTbls, Switch.rules]
    · simp [sweptTbls, same]
  · rintro other tables appRef ⟨ctors, master⟩
    exact ⟨ctors, master⟩

private theorem foldl_flowRuleFree (sw : Switch) (list : List FlEntry) :
    list.foldl flowRuleFree sw = { sw with
        groups := release sw.groups (list.flatMap FlEntry.groups)
        meters := release sw.meters (list.flatMap FlEntry.meters) } := by
  induction list generalizing sw with
  | nil => simp [release]
  | cons ent rest ih => simp [ih, flowRuleFree, release_append]

theorem flowTblClear_eq (sw : Switch) : ∃ appRef, flowTblClear sw =
      { swept (fun _ => none) (fun _ => []) sw (range maxRuleFlowTbls) appRef with
        lock := false } := by
  obtain ⟨appRef, eq⟩ := foldl_swept (fun _ => none) (fun _ => [])
    (fun sw table => ((sw.rules table).foldl flowRuleFree sw).setRules table []) (fun _ => True)
    (by
      rintro other table -
      refine ⟨other.appRef, ?_⟩
      have gone : freed (fun _ => none) (other.rules table) = other.rules table := by simp [freed]
      simp only [foldl_flowRuleFree, Switch.setRules, swept, flatMap_cons, flatMap_nil,
        append_nil, gone, Switch.mk.injEq, true_and]
      refine ⟨?_, by simp⟩
      funext query
      by_cases same : query = table
      · subst query
        simp [sweptTbls]
      · simp [sweptTbls, same])
    (fun _ _ _ _ => trivial) (range maxRuleFlowTbls) nodup_range sw trivial
  exact ⟨appRef, by simp [flowTblClear, eq]⟩

end OpenMul
