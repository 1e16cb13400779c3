import OpenMul.Lib.HashTable
import OpenMul.Topo.AliasMap
import OpenMul.Topo.ShortestPath

namespace OpenMul.Topo

open Lib List Function

namespace SwitchRec

theorem aliasId_portAdd (sw : SwitchRec) (portNo : PortNo) (addr : Addr) :
    (sw.portAdd portNo addr).aliasId = sw.aliasId := by
  unfold portAdd
  split <;> rfl

theorem aliasId_portDisconnect (sw : SwitchRec) (port : PortRec) :
    (sw.portDisconnect port).aliasId = sw.aliasId := by
  unfold portDisconnect
  split <;> rfl

theorem aliasId_portConnectToNeigh (sw : SwitchRec) (port : PortRec) (otherId : Dpid)
    (otherPortId : PortNo) (ttl : Nat) :
    (sw.portConnectToNeigh port otherId otherPortId ttl).aliasId = sw.aliasId := by
  unfold portConnectToNeigh
  split <;> rfl

theorem aliasId_removePort (sw : SwitchRec) (portNo : PortNo) :
    (sw.removePort portNo).aliasId = sw.aliasId := rfl

end SwitchRec

variable {addr : Addr} {old new sw : SwitchObj} {dpid : Dpid} {aliasId : Int} {hdl : CountedHdl}
    {held : List Addr}

namespace CountedHdl

/-- Every switch is referenced by the table and its holders, and is in the index map. -/
structure Registered (hdl : CountedHdl) (held : List Addr) : Prop where
  stored : ∀ dpid addr, hdl.switches.lookup dpid = some addr → ∃ sw, hdl.heap addr = some sw ∧
    sw.dpid = dpid
  retained : ∀ addr ∈ held, (hdl.heap addr).isSome = true
  refs : ∀ addr sw, hdl.heap addr = some sw →
    sw.ref = (if hdl.switches.lookup sw.dpid = some addr then 1 else 0) + (held.count addr : Int) ∧
      0 < sw.ref
  imap : ∀ node addr, hdl.swImap node = some addr ↔ ∃ sw, hdl.heap addr = some sw ∧
    sw.aliasId = node
  range : ∀ addr sw, hdl.heap addr = some sw → 0 ≤ sw.aliasId ∧ sw.aliasId < maxSwitchesPerCluster

theorem Registered.setSwitch (registered : hdl.Registered held)
    (found : hdl.heap addr = some old) (dpid : new.dpid = old.dpid)
    (aliasId : new.aliasId = old.aliasId)
    (ref : new.ref =
      (if hdl.switches.lookup old.dpid = some addr then 1 else 0) + (now.count addr : Int))
    (positive : 0 < new.ref) (others : ∀ other, other ≠ addr → now.count other = held.count other) :
    (hdl.setSwitch addr new).Registered now where
  stored key other stored := by
    obtain ⟨sw, allocated, keyed⟩ := registered.stored key other stored
    by_cases here : other = addr
    · subst here
      obtain rfl := Option.some.inj (found.symm.trans allocated)
      exact ⟨new, update_self .., dpid.trans keyed⟩
    · exact ⟨sw, (update_of_ne here ..).trans allocated, keyed⟩
  retained other member := by
    by_cases here : other = addr
    · simp [CountedHdl.setSwitch, here]
    · have before : other ∈ held := by
        rw [← count_pos_iff, ← others other here]
        exact count_pos_iff.mpr member
      simpa [CountedHdl.setSwitch, here] using registered.retained other before
  refs other sw allocated := by
    rcases update_some_iff.mp allocated with ⟨rfl, rfl⟩ | ⟨apart, before⟩
    · rw [dpid]
      exact ⟨ref, positive⟩
    · rw [others other apart]
      exact registered.refs other sw before
  imap node other := by
    rw [show (hdl.setSwitch addr new).swImap = hdl.swImap from rfl, registered.imap]
    by_cases here : other = addr
    · subst here
      simp [CountedHdl.setSwitch, found, aliasId]
    · simp [CountedHdl.setSwitch, here]
  range other sw allocated := by
    rcases update_some_iff.mp allocated with ⟨rfl, rfl⟩ | ⟨-, before⟩
    · rw [aliasId]
      exact registered.range other old found
    · exact registered.range other sw before

theorem switchRef_eq (found : hdl.heap addr = some sw) :
    hdl.switchRef addr = hdl.setSwitch addr { sw with ref := sw.ref + 1 } := by
  rw [switchRef, found]

theorem modify_eq (found : hdl.heap addr = some sw) (write : SwitchRec → SwitchRec) :
    hdl.modify addr write = hdl.setSwitch addr { sw with toSwitchRec := write sw.toSwitchRec } := by
  rw [CountedHdl.modify, found]

theorem Registered.retain (registered : hdl.Registered held) (found : hdl.heap addr = some sw) :
    (hdl.setSwitch addr { sw with ref := sw.ref + 1 }).Registered (addr :: held) := by
  obtain ⟨ref, positive⟩ := registered.refs addr sw found
  refine registered.setSwitch found rfl rfl ?_ ?_ ?_
  · rw [count_cons_self, ref, Nat.cast_succ, Int.add_assoc]
  · exact Int.lt_add_one_of_le positive.le
  · exact fun another apart => count_cons_of_ne apart.symm

theorem Registered.write (registered : hdl.Registered held) (found : hdl.heap addr = some sw)
    {body : SwitchRec} (same : body.aliasId = sw.aliasId) :
    (hdl.setSwitch addr { sw with toSwitchRec := body }).Registered held := by
  obtain ⟨ref, positive⟩ := registered.refs addr sw found
  exact registered.setSwitch found rfl same ref positive fun _ _ => rfl

theorem Registered.apart_of_unlisted (registered : hdl.Registered held)
    (found : hdl.heap addr = some sw) (unlisted : hdl.switches.lookup sw.dpid ≠ some addr)
    (listed : hdl.switches.lookup dpid = some other) : other ≠ addr := by
  intro here
  subst here
  obtain ⟨new, allocated, keyed⟩ := registered.stored dpid other listed
  obtain rfl := Option.some.inj (found.symm.trans allocated)
  exact unlisted (keyed ▸ listed)

/-- The last reference frees a switch, and only then is its alias given back. -/
theorem Registered.free (registered : hdl.Registered (addr :: held))
    (found : hdl.heap addr = some sw) (last : sw.ref - 1 = 0) :
    hdl.switches.lookup sw.dpid ≠ some addr ∧
      { hdl.delSwitchFromImap sw.aliasId with heap := update hdl.heap addr none }.Registered
        held := by
  obtain ⟨ref, -⟩ := registered.refs addr sw found
  rw [count_cons_self] at ref
  have unlisted : hdl.switches.lookup sw.dpid ≠ some addr := by
    intro listed
    rw [if_pos listed] at ref
    omega
  have unheld : addr ∉ held := by
    rw [← count_eq_zero]
    omega
  obtain ⟨low, high⟩ := registered.range addr sw found
  have deleted : hdl.delSwitchFromImap sw.aliasId =
      { hdl with swImap := update hdl.swImap sw.aliasId.toNat none } := by
    rw [delSwitchFromImap, if_neg (by omega)]
  rw [deleted]
  refine ⟨unlisted, ⟨?_, ?_, ?_, ?_, ?_⟩⟩
  · intro dpid other stored
    obtain ⟨new, allocated, keyed⟩ := registered.stored dpid other stored
    exact ⟨new, update_none_iff.mpr ⟨registered.apart_of_unlisted found unlisted stored, allocated⟩,
      keyed⟩
  · intro other member
    have apart : other ≠ addr := fun here => unheld (here ▸ member)
    have allocated := registered.retained other (mem_cons_of_mem addr member)
    simpa [apart] using allocated
  · intro other new allocated
    obtain ⟨apart, allocated⟩ := update_none_iff.mp allocated
    rw [← count_cons_of_ne apart.symm]
    exact registered.refs other new allocated
  · intro node other
    have old := registered.imap node other
    dsimp only
    by_cases slot : node = sw.aliasId.toNat
    · subst slot
      rw [update_self]
      constructor
      · nofun
      · -- No other switch has the alias: the slot was that of the switch freed.
        rintro ⟨new, allocated, same⟩
        obtain ⟨apart, allocated⟩ := update_none_iff.mp allocated
        have mine := (registered.imap sw.aliasId.toNat addr).mpr ⟨sw, found, by omega⟩
        have theirs := old.mpr ⟨new, allocated, same⟩
        exact absurd (Option.some.inj (theirs.symm.trans mine)) apart
    · rw [update_of_ne slot, old]
      constructor
      · rintro ⟨new, allocated, same⟩
        refine ⟨new, update_none_iff.mpr ⟨?_, allocated⟩, same⟩
        intro here
        subst here
        obtain rfl := Option.some.inj (found.symm.trans allocated)
        exact slot (by omega)
      · rintro ⟨new, allocated, same⟩
        exact ⟨new, (update_none_iff.mp allocated).2, same⟩
  · intro other new allocated
    exact registered.range other new (update_none_iff.mp allocated).2

theorem Registered.perm (registered : hdl.Registered held) (same : held.Perm now) :
    hdl.Registered now where
  stored := registered.stored
  retained addr member := registered.retained addr (same.mem_iff.mpr member)
  refs addr sw allocated := by
    rw [← same.count_eq]
    exact registered.refs addr sw allocated
  imap := registered.imap
  range := registered.range

theorem Registered.erase (registered : hdl.Registered held)
    (listed : hdl.switches.lookup dpid = some addr) :
    { hdl with switches := hdl.switches.erase dpid }.Registered (addr :: held) := by
  obtain ⟨sw, found, keyed⟩ := registered.stored dpid addr listed
  refine ⟨?_, ?_, ?_, registered.imap, registered.range⟩
  · intro key other stored
    have apart : key ≠ dpid := by
      intro same
      subst same
      simp at stored
    exact registered.stored key other (by simpa [AList.lookup_erase_ne apart] using stored)
  · intro other member
    rcases mem_cons.mp member with rfl | before
    · simp [found]
    · exact registered.retained other before
  · intro other new allocated
    obtain ⟨ref, positive⟩ := registered.refs other new allocated
    refine ⟨?_, positive⟩
    by_cases here : other = addr
    · subst here
      obtain rfl := Option.some.inj (found.symm.trans allocated)
      rw [keyed, if_pos listed] at ref
      rw [ref, keyed]
      simp [Int.add_comm]
    · rw [count_cons_of_ne (Ne.symm here), ref]
      by_cases key : new.dpid = dpid
      · have absent : hdl.switches.lookup new.dpid ≠ some other := by
          rw [key, listed]
          exact fun same => here (Option.some.inj same).symm
        rw [if_neg absent, key]
        simp
      · rw [AList.lookup_erase_ne key]

theorem apart_of_fresh (fresh : hdl.heap addr = none) (allocated : hdl.heap other = some sw) :
    other ≠ addr := by
  intro here
  subst here
  exact absurd (fresh.symm.trans allocated) nofun

theorem addSwitchToImap_some (taken : hdl.addSwitchToImap aliasId addr = some mapped) :
    0 ≤ aliasId ∧ aliasId < maxSwitchesPerCluster ∧ hdl.swImap aliasId.toNat = none ∧
      mapped = { hdl with swImap := update hdl.swImap aliasId.toNat (some addr) } := by
  unfold addSwitchToImap at taken
  split at taken
  · cases taken
  split at taken
  · cases taken
  rename_i unused
  rw [Option.not_isSome_iff_eq_none] at unused
  exact ⟨by omega, by omega, unused, (Option.some.inj taken).symm⟩

def newSwitch (dpid : Dpid) (aliasId : Int) : SwitchObj :=
  { dpid := dpid, aliasId := aliasId, ref := 0 + 1 }

/-- The state after a switch was added. -/
def withSwitch (hdl : CountedHdl) (dpid : Dpid) (aliasId : Int) (addr : Addr) (largest : Int) :
    CountedHdl :=
  { hdl with
    heap := Function.update hdl.heap addr (some (newSwitch dpid aliasId))
    switches := hdl.switches.insert dpid addr
    swImap := Function.update hdl.swImap aliasId.toNat (some addr)
    maxSwAlias := largest }

theorem Registered.insert (registered : hdl.Registered held) (fresh : hdl.heap addr = none)
    (absent : hdl.switches.lookup dpid = none)
    (low : 0 ≤ aliasId) (high : aliasId < maxSwitchesPerCluster)
    (unused : hdl.swImap aliasId.toNat = none) (largest : Int) :
    (hdl.withSwitch dpid aliasId addr largest).Registered held := by
  have keep : ∀ other sw, hdl.heap other = some sw →
      (hdl.withSwitch dpid aliasId addr largest).heap other = some sw := fun other sw allocated =>
    update_some_iff.mpr (.inr ⟨apart_of_fresh fresh allocated, allocated⟩)
  refine ⟨?_, ?_, ?_, ?_, ?_⟩
  · intro key other stored
    by_cases same : key = dpid
    · subst same
      have here : addr = other := by simpa [withSwitch] using stored
      subst here
      exact ⟨newSwitch key aliasId, by simp [withSwitch], rfl⟩
    · have before : hdl.switches.lookup key = some other := by
        simpa [withSwitch, AList.lookup_insert_ne same] using stored
      obtain ⟨sw, allocated, keyed⟩ := registered.stored key other before
      exact ⟨sw, keep other sw allocated, keyed⟩
  · intro other member
    obtain ⟨sw, allocated⟩ := Option.isSome_iff_exists.mp (registered.retained other member)
    rw [keep other sw allocated]
    rfl
  · intro other sw allocated
    rcases update_some_iff.mp allocated with ⟨rfl, rfl⟩ | ⟨apart, before⟩
    · have unheld : other ∉ held := by
        intro member
        have retained := registered.retained other member
        rw [fresh] at retained
        cases retained
      simp [withSwitch, newSwitch, count_eq_zero.mpr unheld]
    · obtain ⟨ref, positive⟩ := registered.refs other sw before
      refine ⟨?_, positive⟩
      rw [ref]
      by_cases same : sw.dpid = dpid
      · rw [same, absent]
        simp [withSwitch, apart.symm]
      · simp [withSwitch, AList.lookup_insert_ne same]
  · intro node other
    by_cases slot : node = aliasId.toNat
    · subst slot
      constructor
      · intro here
        obtain rfl : addr = other := by simpa [withSwitch] using here
        exact ⟨newSwitch dpid aliasId, by simp [withSwitch], (Int.toNat_of_nonneg low).symm⟩
      · rintro ⟨sw, allocated, same⟩
        rcases update_some_iff.mp allocated with ⟨rfl, -⟩ | ⟨-, before⟩
        · simp [withSwitch]
        · have taken := (registered.imap aliasId.toNat other).mpr ⟨sw, before, same⟩
          exact absurd (unused.symm.trans taken) nofun
    · have old := registered.imap node other
      rw [show (hdl.withSwitch dpid aliasId addr largest).swImap node = hdl.swImap node by
        simp [withSwitch, slot], old]
      constructor
      · rintro ⟨sw, allocated, same⟩
        exact ⟨sw, keep other sw allocated, same⟩
      · rintro ⟨sw, allocated, same⟩
        rcases update_some_iff.mp allocated with ⟨-, rfl⟩ | ⟨-, before⟩
        · have alias_eq : aliasId = node := same
          omega
        · exact ⟨sw, before, same⟩
  · intro other sw allocated
    rcases update_some_iff.mp allocated with ⟨-, rfl⟩ | ⟨-, before⟩
    · exact ⟨low, high⟩
    · exact registered.range other sw before

def aliasAt (hdl : CountedHdl) (dpid : Dpid) : Option Int := (hdl.switchAt dpid).map fun sw =>
    sw.aliasId

/-- The largest alias that is used, or -1. -/
structure LargestAlias (aliasAt : Dpid → Option Int) (largest : Int) : Prop where
  upper : ∀ dpid aliasId, aliasAt dpid = some aliasId → aliasId ≤ largest
  attained : largest = -1 ∨ ∃ dpid, aliasAt dpid = some largest

theorem aliasAt_eq : hdl.aliasAt dpid = some aliasId ↔
      ∃ addr sw, hdl.switches.lookup dpid = some addr ∧ hdl.heap addr = some sw ∧
        sw.aliasId = aliasId := by
  simp [aliasAt, switchAt, Option.bind_eq_some_iff]

theorem aliasAt_setSwitch (found : hdl.heap addr = some old)
    (same : new.aliasId = old.aliasId) : (hdl.setSwitch addr new).aliasAt = hdl.aliasAt := by
  funext dpid
  have heap : ∀ other, ((hdl.setSwitch addr new).heap other).map (fun sw => sw.aliasId) =
      (hdl.heap other).map fun sw => sw.aliasId := by
    intro other
    by_cases here : other = addr
    · subst here
      simp [CountedHdl.setSwitch, found, same]
    · simp [CountedHdl.setSwitch, here]
  unfold aliasAt switchAt
  rw [show (hdl.setSwitch addr new).switches = hdl.switches from rfl]
  cases hdl.switches.lookup dpid with
  | none => rfl
  | some other => exact heap other

theorem LargestAlias.setSwitch (largest : LargestAlias hdl.aliasAt hdl.maxSwAlias)
    (found : hdl.heap addr = some old) (same : new.aliasId = old.aliasId) :
    LargestAlias (hdl.setSwitch addr new).aliasAt (hdl.setSwitch addr new).maxSwAlias := by
  rw [aliasAt_setSwitch found same]
  exact largest

theorem Registered.aliasAt_insert (registered : hdl.Registered held) (fresh : hdl.heap addr = none)
    (dpid : Dpid) (aliasId largest : Int) :
    (hdl.withSwitch dpid aliasId addr largest).aliasAt = update hdl.aliasAt dpid
    (some aliasId) := by
  funext key
  unfold aliasAt switchAt withSwitch
  dsimp only
  by_cases same : key = dpid
  · subst same
    simp [newSwitch]
  · rw [AList.lookup_insert_ne same, update_of_ne same]
    cases listed : hdl.switches.lookup key with
    | none => rfl
    | some other =>
      obtain ⟨sw, allocated, -⟩ := registered.stored key other listed
      rw [Option.bind_some, Option.bind_some, update_of_ne (apart_of_fresh fresh allocated)]

theorem LargestAlias.insert {aliasAt : Dpid → Option Int} {largest : Int}
    (before : LargestAlias aliasAt largest) (absent : aliasAt dpid = none) (aliasId : Int) :
    LargestAlias (update aliasAt dpid (some aliasId)) (if largest < aliasId then aliasId
      else largest) := by
  have limit : aliasId ≤ (if largest < aliasId then aliasId else largest) ∧
      largest ≤ (if largest < aliasId then aliasId else largest) := by
    split <;> omega
  constructor
  · intro key used found
    rcases update_some_iff.mp found with ⟨-, rfl⟩ | ⟨-, earlier⟩
    · exact limit.1
    · exact (before.upper key used earlier).trans limit.2
  · split
    · exact .inr ⟨dpid, update_self ..⟩
    · rcases before.attained with none | ⟨key, found⟩
      · exact .inl none
      · have apart : key ≠ dpid := by
          intro same
          subst same
          exact absurd (absent.symm.trans found) nofun
        exact .inr ⟨key, (update_of_ne apart ..).trans found⟩

/-- Freeing a switch that the table does not have changes no alias of the table. -/
theorem Registered.aliasAt_free (registered : hdl.Registered held) (found : hdl.heap addr = some sw)
    (unlisted : hdl.switches.lookup sw.dpid ≠ some addr) :
    { hdl.delSwitchFromImap sw.aliasId with heap := update hdl.heap addr none }.aliasAt =
      hdl.aliasAt := by
  have table : (hdl.delSwitchFromImap sw.aliasId).switches = hdl.switches := by
    unfold delSwitchFromImap
    split <;> rfl
  funext dpid
  unfold aliasAt switchAt
  dsimp only
  rw [table]
  cases listed : hdl.switches.lookup dpid with
  | none => rfl
  | some other =>
    rw [Option.bind_some, Option.bind_some,
      update_of_ne (registered.apart_of_unlisted found unlisted listed)]

theorem delSwitchFromImap_kept (hdl : CountedHdl) (aliasId : Int) :
    (hdl.delSwitchFromImap aliasId).crashed = hdl.crashed ∧
      (hdl.delSwitchFromImap aliasId).maxSwAlias = hdl.maxSwAlias := by
  unfold delSwitchFromImap
  split <;> exact ⟨rfl, rfl⟩

theorem switchUnref_alive (alive : (hdl.switchUnref addr).crashed = false) :
    hdl.crashed = false := by
  unfold switchUnref at alive
  split at alive
  · cases alive
  split at alive
  · exact (hdl.delSwitchFromImap_kept _).1.symm.trans alive
  · exact alive

/-- Releasing a reference, be it the last one or not. -/
theorem Registered.unref (registered : hdl.Registered (addr :: held)) :
    (hdl.switchUnref addr).Registered held ∧ (hdl.switchUnref addr).aliasAt = hdl.aliasAt ∧
      (hdl.switchUnref addr).maxSwAlias = hdl.maxSwAlias := by
  obtain ⟨sw, found⟩ := Option.isSome_iff_exists.mp (registered.retained addr mem_cons_self)
  unfold switchUnref
  rw [found]
  dsimp only
  split
  · rename_i last
    obtain ⟨unlisted, freed⟩ := registered.free found last
    exact ⟨freed, registered.aliasAt_free found unlisted, (hdl.delSwitchFromImap_kept _).2⟩
  · obtain ⟨ref, positive⟩ := registered.refs addr sw found
    rw [count_cons_self] at ref
    refine ⟨registered.setSwitch found rfl rfl ?_ ?_ ?_, aliasAt_setSwitch found rfl, rfl⟩
    · dsimp only
      omega
    · dsimp only
      omega
    · exact fun another apart => (count_cons_of_ne apart.symm).symm

/-- What the loop over the table leaves: the state but for the largest alias. -/
theorem foldl_maxAliasFinder (entries : List (Sigma fun _ : Dpid => Addr))
    (allocated : ∀ entry ∈ entries, (hdl.heap entry.2).isSome = true) :
    ∃ largest, entries.foldl (fun hdl entry => hdl.maxAliasFinder entry.2) hdl =
      { hdl with maxSwAlias := largest } ∧
      hdl.maxSwAlias ≤ largest ∧
      (∀ entry ∈ entries, ∀ sw, hdl.heap entry.2 = some sw → sw.aliasId ≤ largest) ∧
      (largest = hdl.maxSwAlias ∨ ∃ entry ∈ entries, ∃ sw, hdl.heap entry.2 = some sw ∧
        sw.aliasId = largest) := by
  induction entries generalizing hdl with
  | nil => exact ⟨hdl.maxSwAlias, rfl, le_rfl, nofun, .inl rfl⟩
  | cons entry rest ih =>
    obtain ⟨sw, found⟩ := Option.isSome_iff_exists.mp (allocated entry mem_cons_self)
    have step :
        hdl.maxAliasFinder entry.2 = { hdl with maxSwAlias := max hdl.maxSwAlias sw.aliasId } := by
      unfold maxAliasFinder
      rw [found]
      dsimp only
      split
      · rename_i less
        rw [max_eq_right less.le]
      · rename_i more
        rw [max_eq_left (not_lt.mp more)]
    obtain ⟨largest, run, above, upper, attained⟩ :=
      @ih { hdl with maxSwAlias := max hdl.maxSwAlias sw.aliasId } fun other member =>
        allocated other (mem_cons_of_mem entry member)
    refine ⟨largest, ?_, (le_max_left _ _).trans above, ?_, ?_⟩
    · rw [foldl_cons, step, run]
    · intro other member new here
      rcases mem_cons.mp member with rfl | later
      · obtain rfl := Option.some.inj (found.symm.trans here)
        exact (le_max_right _ _).trans above
      · exact upper other later new here
    · rcases attained with start | ⟨other, later, new, here, same⟩
      · rcases max_choice hdl.maxSwAlias sw.aliasId with old | now
        · exact .inl (start.trans old)
        · exact .inr ⟨entry, mem_cons_self, sw, found, (start.trans now).symm⟩
      · exact .inr ⟨other, mem_cons_of_mem entry later, new, here, same⟩

theorem maxAliasFinder_crashed (crashed : hdl.crashed = true) (addr : Addr) :
    (hdl.maxAliasFinder addr).crashed = true := by
  unfold maxAliasFinder
  split
  · rfl
  · split <;> exact crashed

theorem maxAliasidReset_alive (alive : hdl.maxAliasidReset.crashed = false) :
    hdl.crashed = false := by
  by_contra crashed
  rw [Bool.not_eq_false] at crashed
  have stays : hdl.maxAliasidReset.crashed = true :=
    @foldlRecOn _ _ (fun hdl : CountedHdl => hdl.crashed = true) hdl.switches.entries _ _ crashed
      fun _ crashed entry _ => maxAliasFinder_crashed crashed entry.2
  exact absurd (stays.symm.trans alive) (by decide)

/-- Only the largest alias is written, to the one of the table. -/
theorem Registered.maxAliasidReset_eq (registered : hdl.Registered held) :
    ∃ largest, hdl.maxAliasidReset = { hdl with maxSwAlias := largest } ∧
      LargestAlias hdl.aliasAt largest := by
  have lists : ∀ entry, entry ∈ hdl.switches.entries ↔ hdl.switches.lookup entry.1 = some entry.2 :=
    fun entry => AList.mem_lookup_iff.symm
  obtain ⟨largest, run, above, upper, attained⟩ :=
    @foldl_maxAliasFinder { hdl with maxSwAlias := -1 } hdl.switches.entries fun entry member => by
      obtain ⟨sw, found, -⟩ := registered.stored entry.1 entry.2 ((lists entry).mp member)
      simp [found]
  refine ⟨largest, run, ?_, ?_⟩
  · intro dpid aliasId used
    obtain ⟨addr, sw, listed, found, rfl⟩ := aliasAt_eq.mp used
    exact upper ⟨dpid, addr⟩ ((lists ⟨dpid, addr⟩).mpr listed) sw found
  · rcases attained with none | ⟨entry, member, sw, found, same⟩
    · exact .inl none
    · exact .inr ⟨entry.1, aliasAt_eq.mpr ⟨entry.2, sw, (lists entry).mp member, found, same⟩⟩

theorem Registered.maxAliasidReset (registered : hdl.Registered held) :
    hdl.maxAliasidReset.Registered held ∧
      LargestAlias hdl.maxAliasidReset.aliasAt hdl.maxAliasidReset.maxSwAlias := by
  obtain ⟨largest, reset, maximal⟩ := registered.maxAliasidReset_eq
  rw [reset]
  exact ⟨{ registered with }, maximal⟩

/-- What holds as long as the process runs. -/
def Tracked (hdl : CountedHdl) (held : List Addr) : Prop :=
  hdl.crashed = false → hdl.Registered held ∧ LargestAlias hdl.aliasAt hdl.maxSwAlias

theorem Tracked.crash (hdl : CountedHdl) (held : List Addr) :
    { hdl with crashed := true }.Tracked held :=
  nofun

theorem Tracked.unref (tracked : hdl.Tracked (addr :: held)) :
    (hdl.switchUnref addr).Tracked held := by
  intro alive
  obtain ⟨registered, largest⟩ := tracked (switchUnref_alive alive)
  obtain ⟨released, aliases, same⟩ := registered.unref
  rw [aliases, same]
  exact ⟨released, largest⟩

section Tracked

variable (tracked : hdl.Tracked held)
include tracked

theorem Tracked.retain
    (fetched : hdl.fetchAndRetainSwitch dpid = some (addr, kept)) :
    kept.Tracked (addr :: held) := by
  obtain ⟨other, listed, same⟩ := Option.map_eq_some_iff.mp fetched
  obtain ⟨rfl, rfl⟩ := Prod.mk.inj same
  intro alive
  cases found : hdl.heap other with
  | none =>
    rw [switchRef, found] at alive
    cases alive
  | some sw =>
    rw [switchRef_eq found] at alive ⊢
    obtain ⟨registered, largest⟩ := tracked alive
    exact ⟨registered.retain found, largest.setSwitch found rfl⟩

theorem Tracked.modify (addr : Addr) (same : ∀ sw, (write sw).aliasId = sw.aliasId) :
    (hdl.modify addr write).Tracked held := by
  cases found : hdl.heap addr with
  | none =>
    rw [CountedHdl.modify, found]
    exact tracked
  | some sw =>
    rw [modify_eq found]
    intro alive
    obtain ⟨registered, largest⟩ := tracked alive
    exact ⟨registered.write found (same _), largest.setSwitch found (same _)⟩

theorem Tracked.portAdd (dpid : Dpid) (portNo : PortNo) (port : Addr) :
    (hdl.portAdd dpid portNo port).Tracked held := by
  unfold CountedHdl.portAdd
  split
  · exact tracked
  · rename_i addr kept fetched
    exact ((tracked.retain fetched).modify addr fun sw => sw.aliasId_portAdd portNo port).unref

theorem Tracked.portDisconnectToNeigh (addr : Addr) (port : PortRec) :
    (hdl.portDisconnectToNeigh addr port).Tracked held := by
  unfold CountedHdl.portDisconnectToNeigh
  split
  · exact tracked
  have torn := tracked.modify addr fun sw => sw.aliasId_portDisconnect port
  dsimp only
  split
  · exact torn
  · rename_i peer kept fetched
    split
    · exact .crash kept held
    · rename_i peerPort _
      exact ((torn.retain fetched).modify peer fun sw => sw.aliasId_portDisconnect peerPort).unref

theorem Tracked.portMod (dpid : Dpid) (portNo : PortNo) (upDown : Bool) :
    (hdl.portMod dpid portNo upDown).Tracked held := by
  unfold CountedHdl.portMod
  split
  · exact tracked
  split
  · exact tracked
  · rename_i addr kept fetched
    have retained := tracked.retain fetched
    split
    · exact retained.unref
    · rename_i port _
      cases upDown with
      | true => exact retained.unref
      | false => exact (retained.portDisconnectToNeigh addr port).unref

theorem Tracked.portDelete (dpid : Dpid) (portNo : PortNo) :
    (hdl.portDelete dpid portNo).Tracked held := by
  unfold CountedHdl.portDelete
  split
  · exact tracked
  split
  · exact .crash hdl held
  · rename_i addr kept fetched
    have retained := tracked.retain fetched
    split
    · exact retained.unref
    · rename_i port _
      have torn := retained.portDisconnectToNeigh addr port
      dsimp only
      split
      · rename_i crashed
        exact fun alive => absurd (crashed.symm.trans alive) (by decide)
      · exact (torn.modify addr fun sw => sw.aliasId_removePort portNo).unref

theorem Tracked.packetIn (dpid : Dpid) (inport : BitVec 32) (pkt : LldpPkt) (now : Nat) :
    (hdl.packetIn dpid inport pkt now).Tracked held := by
  unfold CountedHdl.packetIn connectNeighPair
  split
  · split
    · exact tracked
    · rename_i addr kept fetched
      have retained := tracked.retain fetched
      split
      · exact retained.unref
      · rename_i port _
        exact (retained.modify addr fun sw => sw.aliasId_portConnectToNeigh port _ _ _).unref
  · exact tracked

theorem Tracked.perPortTimer (now : Nat) (visit : Dpid × PortNo) :
    (hdl.perPortTimer now visit).Tracked held := by
  unfold CountedHdl.perPortTimer
  split
  · exact tracked
  split
  · exact tracked
  split
  · exact tracked
  split
  · exact tracked.portDisconnectToNeigh _ _
  · exact tracked

theorem Tracked.updateTimer (now : Nat) (visits : List (Dpid × PortNo)) :
    (hdl.updateTimer now visits).Tracked held := by
  induction visits generalizing hdl with
  | nil => exact tracked
  | cons visit rest ih => exact ih (tracked.perPortTimer now visit)

theorem Tracked.switchDelete (dpid : Dpid) : (hdl.switchDelete dpid).Tracked held := by
  intro alive
  have before := maxAliasidReset_alive alive
  apply Registered.maxAliasidReset
  cases listed : hdl.switches.lookup dpid with
  | none =>
    rw [listed] at before
    exact (tracked before).1
  | some addr =>
    rw [listed] at before
    have running : hdl.crashed = false :=
      @switchUnref_alive addr { hdl with switches := hdl.switches.erase dpid } before
    exact ((tracked running).1.erase listed).unref.1

theorem Tracked.switchAdd (dpid : Dpid) (aliasId : Int)
    (fresh : hdl.heap addr = none) : (hdl.switchAdd dpid aliasId addr).Tracked held := by
  unfold CountedHdl.switchAdd
  split
  · exact tracked
  rename_i absent
  rw [Option.not_isSome_iff_eq_none] at absent
  split
  · exact tracked
  rename_i mapped taken
  obtain ⟨low, high, unused, rfl⟩ := addSwitchToImap_some taken
  intro alive
  obtain ⟨registered, largest⟩ := tracked alive
  refine ⟨registered.insert fresh absent low high unused _, ?_⟩
  have added :=
    largest.insert (show hdl.aliasAt dpid = none by simp [aliasAt, switchAt, absent]) aliasId
  rw [← registered.aliasAt_insert fresh dpid aliasId] at added
  exact added

end Tracked

end CountedHdl

theorem tracked_start : ({} : CountedHdl).Tracked [] := by
  intro _
  refine ⟨⟨?_, ?_, ?_, ?_, ?_⟩, ?_, .inl rfl⟩
  · intro dpid addr listed
    simp at listed
  · nofun
  · nofun
  · intro node addr
    simp
  · nofun
  · intro dpid aliasId used
    simp [CountedHdl.aliasAt, CountedHdl.switchAt] at used

variable {run : CountedRun}

theorem CountedRun.tracked_retain (tracked : run.hdl.Tracked run.held) (dpid : Dpid) :
    (run.retain dpid).hdl.Tracked (run.retain dpid).held := by
  unfold CountedRun.retain
  split
  · exact tracked
  · rename_i fetched
    exact tracked.retain fetched

theorem CountedRun.tracked_exec (tracked : run.hdl.Tracked run.held)
    (possible : run.Possible event) : (run.exec event).hdl.Tracked (run.exec event).held := by
  cases event with
  | switchAdd dpid aliasId addr => exact tracked.switchAdd dpid aliasId possible
  | switchDelete dpid => exact tracked.switchDelete dpid
  | portAdd dpid portNo port => exact tracked.portAdd dpid portNo port
  | portMod dpid portNo upDown => exact tracked.portMod dpid portNo upDown
  | portDelete dpid portNo => exact tracked.portDelete dpid portNo
  | packetIn dpid inport pkt now => exact tracked.packetIn dpid inport pkt now
  | updateTimer now visits => exact tracked.updateTimer now visits
  | retain dpid => exact CountedRun.tracked_retain tracked dpid
  | release addr =>
    have perm : run.held.Perm (addr :: run.held.erase addr) := perm_cons_erase possible
    have held : run.hdl.Tracked (addr :: run.held.erase addr) :=
      fun alive => ⟨(tracked alive).1.perm perm, (tracked alive).2⟩
    exact held.unref

theorem tracked_of_reaches (reached : countedMachine.Reaches run) : run.hdl.Tracked run.held := by
  refine reached.invariant (fun run => run.hdl.Tracked run.held) ?_ ?_
  · intro run initial
    obtain rfl : run = {} := initial
    exact tracked_start
  · intro run event _ tracked admitted
    exact CountedRun.tracked_exec tracked admitted.2

/-- The index map, the table and the largest alias agree. -/
structure AliasExact (hdl : CountedHdl) : Prop where
  imap : ∀ node addr, hdl.swImap node = some addr ↔
    ∃ dpid sw, hdl.switches.lookup dpid = some addr ∧ hdl.heap addr = some sw ∧ sw.aliasId = node
  distinct : ∀ first second one two, hdl.switchAt first = some one →
    hdl.switchAt second = some two →
    one.aliasId = two.aliasId → first = second
  upper : ∀ dpid sw, hdl.switchAt dpid = some sw → sw.aliasId ≤ hdl.maxSwAlias
  attained : (∃ dpid sw, hdl.switchAt dpid = some sw) →
    ∃ dpid sw, hdl.switchAt dpid = some sw ∧ sw.aliasId = hdl.maxSwAlias
  empty : (∀ dpid, hdl.switches.lookup dpid = none) → hdl.maxSwAlias = -1
  /-- Whatever else the routing module reads, it has a row for each switch. -/
  nodes : ∀ dpid sw, hdl.switchAt dpid = some sw → 0 ≤ sw.aliasId ∧
    ∀ (imap : SwImap) loopStatus sendPortState, imap.maxSwAlias = hdl.maxSwitchAlias →
      sw.aliasId < (imap.initState loopStatus sendPortState).nodes

theorem SwImap.nodes_initState (imap : SwImap) (loopStatus : PortId → LoopPortStatus)
    (sendPortState : Bool) (found : imap.maxSwAlias = some last) :
    (imap.initState loopStatus sendPortState).nodes = last + 1 := by
  unfold SwImap.initState
  rw [found]
  refine @foldlRecOn _ _ (fun rt : RtApsp => rt.nodes = last + 1) (aliasPairs (last + 1)) _ _ rfl ?_
  intro rt size place _
  unfold SwImap.initNeighPair
  split
  · refine @foldlRecOn _ _ (fun rt : RtApsp => rt.nodes = last + 1) _ _ _ size ?_
    intro rt size port _
    exact (routeApspAddNeighConn_spec rt _ _ _).2.1.trans size
  · exact size

/-- With no reference held, every switch that is allocated is in the table. -/
theorem CountedHdl.Registered.listed (registered : hdl.Registered [])
    (found : hdl.heap addr = some sw) : hdl.switches.lookup sw.dpid = some addr := by
  obtain ⟨ref, positive⟩ := registered.refs addr sw found
  by_contra unlisted
  rw [if_neg unlisted, count_nil] at ref
  omega

theorem CountedHdl.switchAt_eq :
    hdl.switchAt dpid = some sw ↔ ∃ addr, hdl.switches.lookup dpid = some addr ∧
      hdl.heap addr = some sw :=
  Option.bind_eq_some_iff

/-- Once no reference is held, the index map has exactly the switches of the table,
and the largest alias is the table's. -/
theorem aliasExact_of_reaches {run : CountedRun} (reached : countedMachine.Reaches run)
    (alive : run.hdl.crashed = false) (released : run.held = []) : AliasExact run.hdl := by
  obtain ⟨registered, largest⟩ := tracked_of_reaches reached alive
  rw [released] at registered
  have used : ∀ dpid sw, run.hdl.switchAt dpid = some sw →
      run.hdl.aliasAt dpid = some sw.aliasId := by
    intro dpid sw found
    rw [CountedHdl.aliasAt, found]
    rfl
  have range : ∀ dpid sw, run.hdl.switchAt dpid = some sw → 0 ≤ sw.aliasId := by
    intro dpid sw found
    obtain ⟨addr, -, allocated⟩ := CountedHdl.switchAt_eq.mp found
    exact (registered.range addr sw allocated).1
  refine ⟨?_, ?_, ?_, ?_, ?_, ?_⟩
  · intro node addr
    rw [registered.imap]
    constructor
    · rintro ⟨sw, found, same⟩
      exact ⟨sw.dpid, sw, registered.listed found, found, same⟩
    · rintro ⟨-, sw, -, found, same⟩
      exact ⟨sw, found, same⟩
  · intro first second one two foundOne foundTwo same
    obtain ⟨addr, listed, allocated⟩ := CountedHdl.switchAt_eq.mp foundOne
    obtain ⟨other, otherListed, otherAllocated⟩ := CountedHdl.switchAt_eq.mp foundTwo
    obtain ⟨low, -⟩ := registered.range addr one allocated
    -- Both are what the index map has under the alias.
    have mine := (registered.imap one.aliasId.toNat addr).mpr ⟨one, allocated, by omega⟩
    have theirs := (registered.imap one.aliasId.toNat other).mpr ⟨two, otherAllocated, by omega⟩
    obtain rfl := Option.some.inj (mine.symm.trans theirs)
    obtain ⟨sw, found, firstKey⟩ := registered.stored first addr listed
    obtain ⟨again, foundAgain, secondKey⟩ := registered.stored second addr otherListed
    obtain rfl := Option.some.inj (found.symm.trans foundAgain)
    exact firstKey.symm.trans secondKey
  · exact fun dpid sw found => largest.upper dpid sw.aliasId (used dpid sw found)
  · rintro ⟨dpid, sw, found⟩
    rcases largest.attained with none | ⟨key, attained⟩
    · have low := range dpid sw found
      have high := largest.upper dpid sw.aliasId (used dpid sw found)
      omega
    · obtain ⟨other, here, same⟩ := Option.map_eq_some_iff.mp attained
      exact ⟨key, other, here, same⟩
  · intro none
    rcases largest.attained with none | ⟨key, attained⟩
    · exact none
    · obtain ⟨addr, sw, listed, -⟩ := CountedHdl.aliasAt_eq.mp attained
      exact absurd ((none key).symm.trans listed) nofun
  · intro dpid sw found
    have low := range dpid sw found
    have high := largest.upper dpid sw.aliasId (used dpid sw found)
    refine ⟨low, fun imap loopStatus sendPortState same => ?_⟩
    rw [CountedHdl.maxSwitchAlias, if_neg (by omega)] at same
    rw [imap.nodes_initState loopStatus sendPortState same]
    omega

/-- The alias of a deleted switch is refused until its holder releases it. -/
def heldOver : List CountedEvent :=
  [.switchAdd 1 3 10, .switchAdd 2 0 11, .portAdd 1 1 5, .retain 1, .switchDelete 1,
    .switchAdd 3 3 12, .release 10, .switchAdd 4 3 12]

theorem aliasExact_heldOver : ((countedMachine.execAll {} heldOver).hdl.swImap 3 = some 12 ∧
      (countedMachine.execAll {} heldOver).hdl.maxSwAlias = 3) ∧
    AliasExact (countedMachine.execAll {} heldOver).hdl :=
  ⟨by decide, aliasExact_of_reaches (.execAll (.start rfl) (by decide)) (by decide)
    (by decide)⟩

end OpenMul.Topo
