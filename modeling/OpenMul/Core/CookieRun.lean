import OpenMul.Core.CookieIndex

namespace OpenMul

open Lib

/-- The keys of all rules, as they were linked. -/
def Switch.cookieKeys (sw : Switch) : List CookieKey := sw.allRules.map FlEntry.cookieKey

/-- The cookie an add gives to a new entry. -/
def nextCookie (sw : Switch) (p : FlowModParams) : BitVec 64 :=
  let cookie : BitVec 64 := p.cookie ++ if p.seqCookie = 0 then sw.flIdxCookie + 1 else p.seqCookie
  if hasFlag p.flags flEntResStale then setFlag cookie flResStaleFlag else cookie

/-- A new entry as an add links it. -/
def nextKey (sw : Switch) (p : FlowModParams) : CookieKey where
  cookie := nextCookie sw p
  fl := p.flow
  flMask := p.mask
  prio := p.prio

section Keys

variable {sw : Switch} {p : FlowModParams} {now : Nat}

@[simp] theorem cookieKey_ownedEntry (ent : FlEntry) (p : FlowModParams) :
    (ownedEntry ent p).cookieKey = ent.cookieKey := by
  unfold ownedEntry
  split <;> rfl

@[simp] theorem cookieKey_modEntry (ent : FlEntry) (p : FlowModParams) (grps mets : List Nat)
    (now : Nat) : (modEntry ent p grps mets now).cookieKey = ent.cookieKey :=
  cookieKey_ownedEntry ent p

@[simp] theorem cookieKey_flowAddAppOwner (appRef : App → Int) (ent : FlEntry) (app : App) :
    (flowAddAppOwner appRef ent app).2.cookieKey = ent.cookieKey := by
  unfold flowAddAppOwner flowAddAppOwnerLocked
  split <;> rfl

theorem cookieKey_addedEntry (grps mets : List Nat) :
    (addedEntry sw p grps mets now).cookieKey = nextKey sw p := rfl

theorem cookieKeys_replaced {next : Switch} {ent changed : FlEntry}
    (valid : flowModValidateParms sw p = true)
    (found : FirstAt test (sw.rules (tableOf p)) before ent after) (tbls :
      next.ruleFlowTbls = (sw.setRules (tableOf p) (before ++ changed :: after)).ruleFlowTbls)
    (same : changed.cookieKey = ent.cookieKey) : next.cookieKeys = sw.cookieKeys := by
  obtain ⟨lower, higher, old, new⟩ := Rewritten.of_setRules (tableOf_lt valid) found tbls
  simp [Switch.cookieKeys, old, new, same]

theorem cookieKeys_linked (rewritten : Rewritten sw next [] [ent]) :
    next.cookieKeys.Perm (ent.cookieKey :: sw.cookieKeys) := by
  obtain ⟨lower, higher, old, new⟩ := rewritten
  rw [Switch.cookieKeys, Switch.cookieKeys, old, new]
  simp only [List.append_nil, List.map_append, List.append_assoc]
  exact List.perm_middle

theorem cookieKeys_unlinked (rewritten : Rewritten sw next [ent] []) :
    sw.cookieKeys.Perm (ent.cookieKey :: next.cookieKeys) := by
  obtain ⟨lower, higher, old, new⟩ := rewritten
  exact cookieKeys_linked ⟨lower, higher, new, old⟩

/-- An accepted add of a rule that is not there, with all it depends on. -/
structure Creates (sw : Switch) (p : FlowModParams) : Prop where
  valid : flowModValidateParms sw p = true
  missing : ruleAt sw p = none
  groups : (RefTable.resolve sw.groups p.grpDep).isSome
  meters : (RefTable.resolve sw.meters p.meterDep).isSome

/-- An add keeps the keys, or it links one new entry. -/
inductive AddKeys (sw next : Switch) (p : FlowModParams) : Prop where
  | kept (keys : next.cookieKeys = sw.cookieKeys) (still : ruleAt sw p = none →
    ruleAt next p = none)
  | linked {ent : FlEntry} (creates : Creates sw p) (found : ruleAt next p = some ent)
      (key : ent.cookieKey = nextKey sw p)
        (keys : next.cookieKeys.Perm (nextKey sw p :: sw.cookieKeys))

theorem addKeys_replaced {ent changed : FlEntry} (valid : flowModValidateParms sw p = true)
    (found : AddFound sw p before ent after)
    (tbls : next.ruleFlowTbls = (sw.setRules (tableOf p) (before ++ changed :: after)).ruleFlowTbls)
    (same : changed.cookieKey = ent.cookieKey) : AddKeys sw next p := by
  refine .kept (cookieKeys_replaced valid found tbls same) ?_
  intro missing
  rw [ruleAt, found.find?_eq] at missing
  cases missing

theorem flowRuleAdd_cookieKeys : AddKeys sw (flowRuleAdd sw p now).1 p := by
  have outcome := @flowRuleAdd_outcome sw p now
  generalize flowRuleAdd sw p now = result at outcome ⊢
  cases outcome with
  | invalid | refused | unresolved => exact .kept rfl id
  | shared valid found => exact addKeys_replaced valid found rfl (cookieKey_flowAddAppOwner ..)
  | existing valid found | dropped valid found => exact addKeys_replaced valid found rfl rfl
  | missing valid found => exact addKeys_replaced valid found rfl (cookieKey_ownedEntry ..)
  | modified valid found => exact addKeys_replaced valid found rfl (cookieKey_modEntry ..)
  | @inserted grps mets valid fresh groups meters =>
    have creates : Creates sw p := {
      valid
      missing := List.find?_eq_none.mpr fun ent member => by simp [fresh ent member]
      groups := by rw [groups]; rfl
      meters := by rw [meters]; rfl }
    refine .linked creates (find?_unique ?_ ?_ ?_) (@cookieKey_addedEntry sw p now grps mets) ?_
    · simp [Switch.rules, mem_insertBefore]
    · simp [sameRule_iff, FlowModParams.ruleKey]
    · intro other member passes
      simp only [Switch.rules, Function.update_self, mem_insertBefore] at member
      rcases member with same | known
      · exact same
      · rw [fresh other known] at passes
        cases passes
    · exact @cookieKeys_linked sw _ (addedEntry sw p grps mets now) (.of_inserted valid rfl)

/-- A delete keeps the keys, or it unlinks the entry it frees. -/
inductive DelKeys (sw next : Switch) (p : FlowModParams) : Prop where
  | kept (keys : next.cookieKeys = sw.cookieKeys) (none : freedRule sw p = none)
  | freed {ent : FlEntry} (freed : freedRule sw p = some ent)
      (keys : sw.cookieKeys.Perm (ent.cookieKey :: next.cookieKeys))

theorem flowRuleDel_cookieKeys : DelKeys sw (flowRuleDel sw p).1 p := by
  have outcome := @flowRuleDel_outcome sw p
  generalize flowRuleDel sw p = result at outcome ⊢
  cases outcome with
  | invalid rejected => exact .kept rfl (by simp [freedRule, rejected])
  | missing valid none =>
    have absent : (sw.rules (tableOf p)).find? (delStrictMatch p.flow p.mask p.prio p.appOwner) =
        Option.none := List.find?_eq_none.mpr fun ent member => by simp [none ent member]
    exact .kept rfl (by simp [freedRule, valid, absent])
  | kept valid found others =>
    refine .kept (cookieKeys_replaced valid found rfl rfl) ?_
    rw [freedRule, found.find?_eq]
    simp [others]
  | @removed before ent after valid found last =>
    have freed : freedRule sw p = some ent := by
      rw [freedRule, if_pos valid, found.find?_eq]
      simp [last]
    exact .freed freed (cookieKeys_unlinked
      (.of_update before [ent] [] after (tableOf_lt valid) rfl (found.split.trans (by simp))
        (by simp)))

end Keys

/-- Requests that keep the cookies of the rules apart. -/
def CookieSafe (st : CookieSwitch) : RuleOp → Prop
  | .add p _ _ _ _ => Creates st.sw p → Separate st.sw.cookieKeys (nextKey st.sw p)
  | .del p => ∀ ent, freedRule st.sw p = some ent → OwnXid st st.sw.cookieKeys ent.cookieKey
  | .other _ => True

theorem Indexed.agrees (indexed : Indexed st.sw.cookieKeys st) : IndexAgrees st := by
  constructor
  · have values := indexed.nodes.map Prod.snd
    rw [Switch.cookieKeys, List.map_map, List.map_map] at values
    exact values
  · intro ent member
    exact indexed.finds (List.mem_map_of_mem member)

section Step

variable {st : CookieSwitch}

theorem cookieRuleAdd_sw (p : FlowModParams) (now ptr slot : Nat) (xid : BitVec 32) :
    (cookieRuleAdd st p now ptr slot xid).sw = (flowRuleAdd st.sw p now).1 := by
  unfold cookieRuleAdd
  dsimp only
  split <;> split <;> rfl

theorem cookieRuleDel_sw (p : FlowModParams) :
    (cookieRuleDel st p).sw = (flowRuleDel st.sw p).1 := by
  unfold cookieRuleDel
  split <;> rfl

theorem Indexed.add (indexed : Indexed st.sw.cookieKeys st) (reached : switchRuns.Reaches st.sw)
    (unused : ∀ ent ∈ st.sw.allRules, st.addr ent.ruleKey ≠ ptr)
    (safe : Creates st.sw p → Separate st.sw.cookieKeys (nextKey st.sw p)) (slot : Nat)
    (xid : BitVec 32) :
    Indexed (flowRuleAdd st.sw p now).1.cookieKeys (cookieRuleAdd st p now ptr slot xid) := by
  have reaches : switchRuns.Reaches (flowRuleAdd st.sw p now).1 :=
    @Machine.Reaches.step _ _ switchRuns st.sw (.flowAdd p now) reached trivial
  have distinct := reaches_allKeys_nodup reaches
  have change := @flowRuleAdd_cookieKeys st.sw p now
  unfold cookieRuleAdd
  generalize (flowRuleAdd st.sw p now).1 = next at distinct change ⊢
  have noted : ∀ linked : CookieSwitch, Indexed next.cookieKeys linked →
      Indexed next.cookieKeys
        (if next.txQ = st.sw.txQ then linked else linked.setXid (linked.addr p.ruleKey) xid) := by
    intro linked ready
    split
    · exact ready
    · exact ready.setXid _ _
  apply noted
  cases change with
  | kept keys still =>
    have same : Indexed next.cookieKeys { st with sw := next } := by
      rw [keys]
      exact { indexed with }
    split
    · rename_i missing found
      rw [still missing] at found
      cases found
    · exact same
  | linked creates found key keys =>
    have names :=
      (keys.map CookieKey.ruleKey).nodup_iff.mp (by rwa [Switch.cookieKeys, List.map_map])
    rw [creates.missing, found]
    dsimp only
    rw [key]
    refine Indexed.perm ?_ keys.symm
    have moved : Indexed st.sw.cookieKeys { st with sw := next } := { indexed with }
    apply moved.link (safe creates) rfl
    · intro other member same
      exact (List.nodup_cons.mp names).1 (List.mem_map.mpr ⟨other, member, same⟩)
    · intro other member
      obtain ⟨ent, present, rfl⟩ := List.mem_map.mp member
      exact unused ent present

theorem Indexed.del (indexed : Indexed st.sw.cookieKeys st)
    (safe : ∀ ent, freedRule st.sw p = some ent → OwnXid st st.sw.cookieKeys ent.cookieKey) :
    Indexed (flowRuleDel st.sw p).1.cookieKeys (cookieRuleDel st p) := by
  cases @flowRuleDel_cookieKeys st.sw p with
  | kept keys none =>
    rw [cookieRuleDel, none, keys]
    exact { indexed with }
  | @freed ent freed keys =>
    rw [cookieRuleDel, freed]
    have own : OwnXid st (ent.cookieKey :: (flowRuleDel st.sw p).1.cookieKeys) ent.cookieKey := by
      intro sent other member
      exact safe ent freed sent other (keys.mem_iff.mpr member)
    exact { (indexed.perm keys).unlink own with }

end Step

theorem indexed_of_reaches (reached : (cookieRuns.restrict CookieSafe).Reaches st) :
    switchRuns.Reaches st.sw ∧ Indexed st.sw.cookieKeys st := by
  refine Machine.Reaches.invariant
    (fun st => switchRuns.Reaches st.sw ∧ Indexed st.sw.cookieKeys st) ?_ ?_ reached
  · intro st initial
    have empty : st.sw.cookieKeys = [] := by
      simp [Switch.cookieKeys, Switch.allRules, Switch.rules, initial.1.1]
    refine ⟨.start initial.1, ?_⟩
    rw [empty]
    exact ⟨by rw [initial.2]; exact .refl _, by simp, by simp, .nil, by simp, by simp⟩
  · intro st op _ earlier admitted
    obtain ⟨reaches, indexed⟩ := earlier
    cases op with
    | add p now ptr slot xid =>
      change switchRuns.Reaches (cookieRuleAdd st p now ptr slot xid).sw ∧
        Indexed (cookieRuleAdd st p now ptr slot xid).sw.cookieKeys
          (cookieRuleAdd st p now ptr slot xid)
      rw [cookieRuleAdd_sw]
      exact ⟨@Machine.Reaches.step _ _ switchRuns st.sw (.flowAdd p now) reaches trivial,
        indexed.add reaches admitted.1 admitted.2 slot xid⟩
    | del p =>
      change switchRuns.Reaches (cookieRuleDel st p).sw ∧
        Indexed (cookieRuleDel st p).sw.cookieKeys (cookieRuleDel st p)
      rw [cookieRuleDel_sw]
      exact ⟨@Machine.Reaches.step _ _ switchRuns st.sw (.flowDel p) reaches trivial,
        indexed.del admitted.2⟩
    | other op =>
      obtain ⟨⟨off, allowed⟩, -⟩ := admitted
      have rules : (exec st.sw op).rules = st.sw.rules := by
        funext table
        rw [Switch.rules, exec_offTables st.sw off]
        rfl
      have keys : (exec st.sw op).cookieKeys = st.sw.cookieKeys := by
        rw [Switch.cookieKeys, Switch.allRules, rules]
        rfl
      refine ⟨.step reaches allowed, ?_⟩
      change Indexed (exec st.sw op).cookieKeys { st with sw := exec st.sw op }
      rw [keys]
      exact { indexed with }

/-- In every run whose rules keep their cookies apart, the index agrees with the tables. -/
theorem cookie_index_agrees {st : CookieSwitch}
    (reached : (cookieRuns.restrict CookieSafe).Reaches st) : IndexAgrees st :=
  (indexed_of_reaches reached).2.agrees

/-- A switch before its first request, with an empty index. -/
def bootCookies : CookieSwitch where
  sw := bootSwitch .of131
  addr := fun _ => 0
  mem := fun _ => { cookie := 0, fl := {}, flMask := {}, prio := 0 }

/-- A rule for one port under the cookie of the application's choice. -/
def portRule (table : BitVec 8) (port : BitVec 32) : FlowModParams where
  appOwner := 7
  flow := { tableId := table, inPort := port }
  mask := { inPort := 0xffffffff }
  seqCookie := 9

/-- Two rules of one table for different ports share a cookie. -/
theorem cookie_index_agrees_two_ports :
    let st := cookieRuns.execAll bootCookies
      [.add (portRule 0 4) 0 1 0 11, .add (portRule 0 5) 0 2 0 12]
    st.sw.allRules.map FlEntry.cookie = [9, 9] ∧ IndexAgrees st := by
  intro st
  have start : (cookieRuns.restrict CookieSafe).Reaches bootCookies :=
    .start ⟨⟨rfl, rfl, rfl, rfl, rfl⟩, rfl⟩
  have admitted : (cookieRuns.restrict CookieSafe).AdmitsAll bootCookies
      [.add (portRule 0 4) 0 1 0 11, .add (portRule 0 5) 0 2 0 12] := by
    refine ⟨⟨?_, fun _ => ?_⟩, ⟨?_, fun _ => ?_⟩, trivial⟩
    · change ∀ ent ∈ Switch.allRules _, CookieSwitch.addr _ ent.ruleKey ≠ _
      decide +kernel
    · decide +kernel
    · change ∀ ent ∈ Switch.allRules _, CookieSwitch.addr _ ent.ruleKey ≠ _
      decide +kernel
    · decide +kernel
  exact ⟨by decide +kernel, cookie_index_agrees (start.execAll admitted)⟩

/-- The key does not name the table: the rule in table 1 replaces the one in table 0. -/
theorem second_table_replaces_node :
    let st := cookieRuns.execAll bootCookies
      [.add (portRule 0 4) 0 1 0 11, .add (portRule 1 4) 0 2 0 12]
    st.sw.allRules.length = 2 ∧ st.flCookies = [(1, 2)] ∧ ¬IndexAgrees st := by
  intro st
  have nodes : st.flCookies = [(1, 2)] := by decide
  have rules : st.sw.allRules.length = 2 := by decide +kernel
  refine ⟨rules, nodes, ?_⟩
  intro agrees
  have lengths := agrees.holds.length_eq
  rw [List.length_map, List.length_map] at lengths
  cases lengths

/-- A rule whose address has bits outside its mask is not found by its own key. -/
theorem unmasked_address_not_found :
    let rule : FlowModParams :=
      { appOwner := 7
        flow := { dlType := ethTypeIp, nwSrc6 := 0x0a000007 <<< 96 }
        mask := { dlType := 0xffff, nwSrc6 := 0xffffff00 <<< 96 } }
    let st := cookieRuns.execAll bootCookies [.add rule 0 1 0 11]
    st.flCookies = [(1, 1)] ∧ ¬IndexAgrees st := by
  intro rule st
  refine ⟨by decide, ?_⟩
  intro agrees
  have missed : ∃ ent ∈ st.sw.allRules,
      st.doFlowLookupWithCookie ent.fl ent.flMask ent.prio ent.cookie 0 = none := by decide
  obtain ⟨ent, member, none⟩ := missed
  rw [agrees.finds ent member] at none
  cases none

end OpenMul
