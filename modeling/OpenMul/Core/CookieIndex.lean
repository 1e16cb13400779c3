import OpenMul.Core.MatchFlows
import OpenMul.Core.RefInvariant
import OpenMul.Lib.HashTable

namespace OpenMul

open Lib List Function

/-- What `c_fl_cookie_hash` and `c_fl_cookie_match` read of an entry. -/
structure CookieKey where
  cookie : BitVec 64
  xid : BitVec 32 := 0
  fl : Flow
  flMask : Flow
  prio : BitVec 16
  deriving DecidableEq, Repr

def CookieKey.ruleKey (key : CookieKey) : Flow × Flow × BitVec 16 :=
  (key.fl, key.flMask.sansPad, key.prio)

/-- An entry as it is linked, before a flow-mod was sent for it. -/
def FlEntry.cookieKey (ent : FlEntry) : CookieKey where
  cookie := ent.cookie
  fl := ent.fl
  flMask := ent.flMask
  prio := ent.prio

/-- `c_fl_cookie_hash`. -/
def flCookieHash (key : CookieKey) : BitVec 32 := key.cookie.truncate 32

/-- Two entries match as flows, the stored one first. -/
def CookieKey.matches (ent1 ent2 : CookieKey) : Bool :=
  ofMatchFlowsPrio ent1.fl ent1.flMask ent2.fl ent2.flMask ent1.prio ent2.prio

/-- `c_fl_cookie_match`: the first entry is the stored one. -/
def flCookieMatch (ent1 ent2 : CookieKey) : Bool :=
  if ent2.xid ≠ 0 then ent1.cookie == ent2.cookie && ent1.xid == ent2.xid
  else ent1.cookie == ent2.cookie && ent1.matches ent2

/-- A switch with its index. `addr` is where the entry of a rule was allocated
and `mem` the entry at an address; freed memory keeps what it had. -/
structure CookieSwitch where
  sw : Switch
  addr : Flow × Flow × BitVec 16 → Nat
  mem : Nat → CookieKey
  flCookies : List (Nat × Nat) := []

/-- The comparison a search makes. -/
def sameCookie (mem : Nat → CookieKey) (stored : Nat) (key : CookieKey) : Bool :=
  flCookieHash (mem stored) == flCookieHash key && flCookieMatch (mem stored) key

namespace CookieSwitch

/-- `__c_do_flow_lookup_with_cookie`. -/
def doFlowLookupWithCookie (st : CookieSwitch) (fl mask : Flow) (prio : BitVec 16)
    (cookie : BitVec 64) (xid : BitVec 32) : Option Nat :=
  HashTable.lookup (sameCookie st.mem) st.flCookies { cookie, xid, fl, flMask := mask, prio }

/-- A new entry at an address of its own enters the index. -/
def link (st : CookieSwitch) (key : CookieKey) (ptr slot : Nat) : CookieSwitch :=
  let mem := Function.update st.mem ptr key
  { st with
    addr := Function.update st.addr key.ruleKey ptr
    mem
    flCookies := HashTable.insert (sameCookie mem) st.flCookies slot ptr key ptr }

/-- The part of `c_flow_rule_free` for the index. -/
def unlink (st : CookieSwitch) (ptr : Nat) : CookieSwitch :=
  { st with flCookies := HashTable.remove (sameCookie st.mem) st.flCookies (st.mem ptr) }

/-- `of_send_flow_add` notes the transaction of the flow-mod it writes. -/
def setXid (st : CookieSwitch) (ptr : Nat) (xid : BitVec 32) : CookieSwitch :=
  { st with mem := Function.update st.mem ptr { st.mem ptr with xid } }

end CookieSwitch

/-- The entry an add finds. -/
def ruleAt (sw : Switch) (p : FlowModParams) : Option FlEntry :=
  (sw.rules (tableOf p)).find? (sameRule p.flow p.mask p.prio)

/-- The entry a delete frees: the one it finds, when no owner is left. -/
def freedRule (sw : Switch) (p : FlowModParams) : Option FlEntry :=
  if flowModValidateParms sw p then
    ((sw.rules (tableOf p)).find? (delStrictMatch p.flow p.mask p.prio p.appOwner)).filter
      fun ent => ent.appRef - 1 = 0
  else none

/-- `c_flow_rule_add` with its index. A new entry is allocated at `ptr` and its
node comes to lie at `slot`; `xid` is the transaction of the flow-mod, if the
call writes one. -/
def cookieRuleAdd (st : CookieSwitch) (p : FlowModParams) (now ptr slot : Nat) (xid : BitVec 32) :
    CookieSwitch :=
  let sw := (flowRuleAdd st.sw p now).1
  let next := { st with sw }
  let linked := match ruleAt st.sw p, ruleAt sw p with
    | none, some ent => next.link ent.cookieKey ptr slot
    | _, _ => next
  if sw.txQ = st.sw.txQ then linked else linked.setXid (linked.addr p.ruleKey) xid

/-- `c_flow_rule_del` with its index. -/
def cookieRuleDel (st : CookieSwitch) (p : FlowModParams) : CookieSwitch :=
  let next := { st with sw := (flowRuleDel st.sw p).1 }
  match freedRule st.sw p with
  | some ent => next.unlink (st.addr ent.ruleKey)
  | none => next

/-- Rule requests, where an add also modifies, and requests that leave the rule
tables alone. -/
inductive RuleOp where
  | add (p : FlowModParams) (now ptr slot : Nat) (xid : BitVec 32)
  | del (p : FlowModParams)
  | other (op : Op)
  deriving DecidableEq, Repr

/-- The runs of a switch under rule requests. The allocator never hands out the
address of an entry that is in a table. -/
def cookieRuns : Machine CookieSwitch RuleOp where
  start st := Started st.sw ∧ st.flCookies = []
  admits st op := match op with
    | .add _ _ ptr _ _ => ∀ ent ∈ st.sw.allRules, st.addr ent.ruleKey ≠ ptr
    | .del _ => True
    | .other op => op.offTables = true ∧ admits st.sw op
  exec st op := match op with
    | .add p now ptr slot xid => cookieRuleAdd st p now ptr slot xid
    | .del p => cookieRuleDel st p
    | .other op => { st with sw := exec st.sw op }

/-- The index holds the entries of the rule tables, each once and found by its own key. -/
structure IndexAgrees (st : CookieSwitch) : Prop where
  holds : (st.flCookies.map Prod.snd).Perm (st.sw.allRules.map fun ent => st.addr ent.ruleKey)
  finds : ∀ ent ∈ st.sw.allRules,
    st.doFlowLookupWithCookie ent.fl ent.flMask ent.prio ent.cookie 0 = some (st.addr ent.ruleKey)

/-- The index has one node for every key, and tells any two keys apart. -/
structure Indexed (keys : List CookieKey) (st : CookieSwitch) : Prop where
  nodes : st.flCookies.Perm (keys.map fun key => (st.addr key.ruleKey, st.addr key.ruleKey))
  stored : ∀ key ∈ keys, ∃ xid, st.mem (st.addr key.ruleKey) = { key with xid := xid }
  plain : ∀ key ∈ keys, key.xid = 0
  distinct : (keys.map fun key => st.addr key.ruleKey).Nodup
  own : ∀ key ∈ keys, key.matches key = true
  apart : ∀ key ∈ keys, ∀ other ∈ keys, key ≠ other → key.cookie = other.cookie →
    key.matches other = false

section Indexed

variable {keys : List CookieKey} {st : CookieSwitch} {key : CookieKey}

variable {mem : Nat → CookieKey} {stored : Nat}

theorem sameCookie_plain (plain : key.xid = 0) : sameCookie mem stored key = true ↔
      (mem stored).cookie = key.cookie ∧ (mem stored).matches key = true := by
  simp only [sameCookie, flCookieMatch, plain, ne_eq, not_true_eq_false, if_false, Bool.and_eq_true,
    beq_iff_eq, flCookieHash]
  refine ⟨And.right, fun both => ⟨?_, both⟩⟩
  rw [both.1]

theorem sameCookie_sent (sent : key.xid ≠ 0) : sameCookie mem stored key = true ↔
      (mem stored).cookie = key.cookie ∧ (mem stored).xid = key.xid := by
  simp only [sameCookie, flCookieMatch, sent, ne_eq, not_false_eq_true, if_true, Bool.and_eq_true,
    beq_iff_eq, flCookieHash]
  refine ⟨And.right, fun both => ⟨?_, both⟩⟩
  rw [both.1]

theorem Indexed.perm (indexed : Indexed keys st) (perm : keys.Perm list) : Indexed list st where
  nodes := indexed.nodes.trans (perm.map _)
  stored key member := indexed.stored key (perm.mem_iff.mpr member)
  plain key member := indexed.plain key (perm.mem_iff.mpr member)
  distinct := (perm.map _).nodup_iff.mp indexed.distinct
  own key member := indexed.own key (perm.mem_iff.mpr member)
  apart key member other present :=
    indexed.apart key (perm.mem_iff.mpr member) other (perm.mem_iff.mpr present)

theorem Indexed.mem_nodes (indexed : Indexed keys st) (member : node ∈ st.flCookies) :
    ∃ key ∈ keys, node = (st.addr key.ruleKey, st.addr key.ruleKey) := by
  obtain ⟨key, present, same⟩ := mem_map.mp (indexed.nodes.mem_iff.mp member)
  exact ⟨key, present, same.symm⟩

/-- A stored entry is compared by the fields it was linked with. -/
theorem Indexed.compared (indexed : Indexed keys st) (member : key ∈ keys) :
    (st.mem (st.addr key.ruleKey)).cookie = key.cookie ∧
      ∀ other, (st.mem (st.addr key.ruleKey)).matches other = key.matches other := by
  obtain ⟨xid, stored⟩ := indexed.stored key member
  rw [stored]
  exact ⟨rfl, fun _ => rfl⟩

theorem Indexed.finds (indexed : Indexed keys st) (member : key ∈ keys) :
    HashTable.lookup (sameCookie st.mem) st.flCookies key = some (st.addr key.ruleKey) := by
  have plain := indexed.plain key member
  obtain ⟨cookie, matched⟩ := indexed.compared member
  apply @HashTable.lookup_unique _ _ _ (sameCookie st.mem) _ _ (st.addr key.ruleKey,
    st.addr key.ruleKey)
  · exact indexed.nodes.mem_iff.mpr (mem_map_of_mem member)
  · exact (sameCookie_plain plain).mpr ⟨cookie, (matched key).trans (indexed.own key member)⟩
  · intro node present passes
    obtain ⟨other, known, rfl⟩ := indexed.mem_nodes present
    obtain ⟨cookies, agrees⟩ := (sameCookie_plain plain).mp passes
    obtain ⟨otherCookie, otherMatched⟩ := indexed.compared known
    by_cases same : other = key
    · rw [same]
    · rw [otherMatched, indexed.apart other known key member same (otherCookie ▸ cookies)] at agrees
      cases agrees

theorem Indexed.setXid (indexed : Indexed keys st) (ptr : Nat) (xid : BitVec 32) :
    Indexed keys (st.setXid ptr xid) := by
  refine ⟨indexed.nodes, ?_, indexed.plain, indexed.distinct, indexed.own, indexed.apart⟩
  intro key member
  obtain ⟨old, stored⟩ := indexed.stored key member
  by_cases here : st.addr key.ruleKey = ptr
  · refine ⟨xid, ?_⟩
    simp only [CookieSwitch.setXid, here, update_self]
    rw [← here, stored]
  · refine ⟨old, ?_⟩
    simp only [CookieSwitch.setXid, update_of_ne here]
    exact stored

/-- A new key clashes with no known key of the same cookie. -/
structure Separate (keys : List CookieKey) (key : CookieKey) : Prop where
  own : key.matches key = true
  known : ∀ other ∈ keys, other.cookie = key.cookie →
    other.matches key = false ∧ key.matches other = false

instance (keys : List CookieKey) (key : CookieKey) : Decidable (Separate keys key) :=
  decidable_of_iff (key.matches key = true ∧ ∀ other ∈ keys, other.cookie = key.cookie →
    other.matches key = false ∧ key.matches other = false)
    ⟨fun both => ⟨both.1, both.2⟩, fun separate => ⟨separate.own, separate.known⟩⟩

theorem Indexed.link (indexed : Indexed keys st) (separate : Separate keys key)
    (plain : key.xid = 0) (fresh : ∀ other ∈ keys, other.ruleKey ≠ key.ruleKey) {ptr : Nat}
    (unused : ∀ other ∈ keys, st.addr other.ruleKey ≠ ptr) (slot : Nat) :
    Indexed (key :: keys) (st.link key ptr slot) := by
  have here : (st.link key ptr slot).addr key.ruleKey = ptr := update_self ..
  have addr : ∀ other ∈ keys, (st.link key ptr slot).addr other.ruleKey = st.addr other.ruleKey :=
    fun other member => update_of_ne (fresh other member) ..
  have own : (st.link key ptr slot).mem ptr = key := update_self ..
  have mem : ∀ other ∈ keys,
      (st.link key ptr slot).mem (st.addr other.ruleKey) = st.mem (st.addr other.ruleKey) :=
    fun other member => update_of_ne (unused other member) ..
  have absent : ∀ node ∈ st.flCookies,
      sameCookie (st.link key ptr slot).mem node.1 key = false := by
    intro node member
    obtain ⟨other, known, rfl⟩ := indexed.mem_nodes member
    obtain ⟨cookie, matched⟩ := indexed.compared known
    rw [Bool.eq_false_iff]
    intro passes
    rw [sameCookie_plain plain, mem other known, cookie, matched] at passes
    rw [(separate.known other known passes.1).1] at passes
    cases passes.2
  refine ⟨?_, ?_, ?_, ?_, ?_, ?_⟩
  · refine (HashTable.insert_fresh absent slot ptr ptr).trans ?_
    rw [map_cons, here]
    have kept : keys.map (fun other => ((st.link key ptr slot).addr other.ruleKey,
        (st.link key ptr slot).addr other.ruleKey)) =
        keys.map fun other => (st.addr other.ruleKey, st.addr other.ruleKey) :=
      map_congr_left fun other member => by rw [addr other member]
    rw [kept]
    exact indexed.nodes.cons _
  · intro other member
    rcases mem_cons.mp member with rfl | known
    · exact ⟨0, by rw [here, own, ← plain]⟩
    · rw [addr other known, mem other known]
      exact indexed.stored other known
  · intro other member
    rcases mem_cons.mp member with rfl | known
    · exact plain
    · exact indexed.plain other known
  · rw [map_cons, here, nodup_cons, map_congr_left addr]
    refine ⟨?_, indexed.distinct⟩
    intro member
    obtain ⟨other, known, same⟩ := mem_map.mp member
    exact unused other known same
  · intro other member
    rcases mem_cons.mp member with rfl | known
    · exact separate.own
    · exact indexed.own other known
  · intro first member second present different cookies
    rcases mem_cons.mp member with rfl | known
    · rcases mem_cons.mp present with rfl | other
      · exact absurd rfl different
      · exact (separate.known second other cookies.symm).2
    · rcases mem_cons.mp present with rfl | other
      · exact (separate.known first known cookies).1
      · exact indexed.apart first known second other different cookies

/-- No other stored entry of the same cookie has the transaction of this one. -/
def OwnXid (st : CookieSwitch) (keys : List CookieKey) (key : CookieKey) : Prop :=
  (st.mem (st.addr key.ruleKey)).xid ≠ 0 → ∀ other ∈ keys, other ≠ key → other.cookie = key.cookie →
    (st.mem (st.addr other.ruleKey)).xid ≠ (st.mem (st.addr key.ruleKey)).xid

/-- Only its own node answers to an entry as it is stored. -/
theorem Indexed.answers_iff (indexed : Indexed (key :: keys) st) (own : OwnXid st (key :: keys) key)
    {other : CookieKey} (known : other ∈ key :: keys) :
    sameCookie st.mem (st.addr other.ruleKey) (st.mem (st.addr key.ruleKey)) = true ↔
      other = key := by
  obtain ⟨cookie, matched⟩ := indexed.compared known
  obtain ⟨xid, stored⟩ := indexed.stored key mem_cons_self
  by_cases sent : (st.mem (st.addr key.ruleKey)).xid = 0
  · rw [sameCookie_plain sent, cookie, matched, stored]
    constructor
    · rintro ⟨cookies, agrees⟩
      apply Classical.byContradiction
      intro different
      have apart := indexed.apart other known key mem_cons_self different cookies
      exact absurd (agrees.symm.trans apart) (by decide)
    · rintro rfl
      exact ⟨rfl, indexed.own other known⟩
  · rw [sameCookie_sent sent]
    constructor
    · rintro ⟨cookies, xids⟩
      apply Classical.byContradiction
      intro different
      rw [cookie, stored] at cookies
      exact own sent other known different cookies xids
    · rintro rfl
      exact ⟨rfl, rfl⟩

theorem Indexed.unlink (indexed : Indexed (key :: keys) st) (own : OwnXid st (key :: keys) key) :
    Indexed keys (st.unlink (st.addr key.ruleKey)) := by
  have removed : st.flCookies.Perm ((st.addr key.ruleKey, st.addr key.ruleKey) ::
      (st.unlink (st.addr key.ruleKey)).flCookies) := by
    apply HashTable.remove_unique
    · exact indexed.nodes.mem_iff.mpr (mem_map_of_mem mem_cons_self)
    · exact (indexed.answers_iff own mem_cons_self).mpr rfl
    · intro node present passes
      obtain ⟨other, known, rfl⟩ := indexed.mem_nodes present
      rw [(indexed.answers_iff own known).mp passes]
  have later : ∀ {other}, other ∈ keys → other ∈ key :: keys := mem_cons_of_mem _
  exact {
    nodes := (perm_cons _).mp (removed.symm.trans indexed.nodes)
    stored := fun other member => indexed.stored other (later member)
    plain := fun other member => indexed.plain other (later member)
    distinct := (nodup_cons.mp indexed.distinct).2
    own := fun other member => indexed.own other (later member)
    apart := fun one member two present => indexed.apart one (later member) two (later present) }

end Indexed

end OpenMul
