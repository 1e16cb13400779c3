import OpenMul.Core.MeterFlags

namespace OpenMul

open Lib List Function

/-- What a meter was last told: its flags, and whether it is stale or expired. -/
structure MeterTold where
  flags : BitVec 16 := 0
  stale : Bool := false
  expired : Bool := false
  deriving DecidableEq, Repr

/-- A meter as it was given to the switch. -/
def MeterTold.given (flags : BitVec 16) (cflags : BitVec 8) : MeterTold :=
  { flags, stale := hasFlag cflags grpStale, expired := hasFlag cflags grpExpired }

/-- The master gives up the meters whose deletion it queues. -/
def MeterTold.scan (told : MeterTold) (master expires : Bool) : MeterTold :=
  if !master then { told with stale := false }
  else if expires then { told with expired := true }
  else told

/-- The two flag words say what the meter was told. -/
def MeterBody.Says (body : MeterBody) (told : MeterTold) : Prop :=
  body.flags = told.flags ∧ hasFlag body.cflags grpStale = told.stale ∧
    hasFlag body.cflags grpExpired = told.expired

instance (body : MeterBody) (told : MeterTold) : Decidable (body.Says told) :=
  inferInstanceAs (Decidable (_ ∧ _))

/-- A switch with the history of its meters, by their addresses. -/
structure MeterRun where
  sys : MeterSys
  told : Nat → MeterTold

namespace MeterRun

/-- Tell every meter something. -/
def tellAll (run : MeterRun) (tell : Meter → MeterTold → MeterTold) (ptr : Nat) : MeterTold :=
  (run.sys.meterAt ptr).elim (run.told ptr) fun meter => tell meter (run.told ptr)

def toldAfter (run : MeterRun) : MeterEvent → Nat → MeterTold
  | .add p ptr now =>
    match RefTable.lookup run.sys.sw.meters p.meter with
    | none => Function.update run.told ptr (.given p.flags (meterInit p ptr now).body.cflags)
    | some meter =>
      Function.update run.told meter.ptr <|
        if (meterAdd run.sys.sw p ptr now).2 = 0 then .given p.flags p.cflags
        else { run.told meter.ptr with stale := false }
  | .stale appCookie _ => run.tellAll fun meter told =>
    if meterAppCookie meter = appCookie then { told with stale := true } else told
  | .scan now => run.tellAll fun meter told =>
    told.scan run.sys.sw.master (run.sys.scanned now meter).expires
  | _ => run.told

def exec (run : MeterRun) (event : MeterEvent) : MeterRun :=
  ⟨run.sys.exec event, run.toldAfter event⟩

def Separated (run : MeterRun) : Prop :=
  ∀ meter ∈ run.sys.sw.meters, meter.body.Says (run.told meter.ptr)

end MeterRun

/-- The runs of a switch that starts without meters. A new meter is at a fresh address. -/
def meterRuns : Machine MeterRun MeterEvent where
  start run := run.sys.sw.meters = [] ∧ run.sys.sw.ofpCtors ≠ .of10
  admits run
    | .add _ ptr _ => ∀ meter ∈ run.sys.sw.meters, meter.ptr ≠ ptr
    | _ => True
  exec := MeterRun.exec

/-- Whether the scan of a master gives a meter up because the switch did not confirm it. -/
def givesUp (bulk : Bool) (time : Nat) (meter : MeterBody) : Bool :=
  !keepsStats meter && !meter.installed && unconfirmed time (bulkScanned bulk time meter)

/-- The scan touches no flag it should not. -/
def CleanScan (master bulk : Bool) (time : Nat) (meter : MeterBody) : Prop :=
  if !master then hasFlag meter.flags (widened grpStale) = false ∧
    hasFlag meter.cflags grpStale = false
  else givesUp bulk time meter = true →
    hasFlag meter.flags (widened grpExpired) = true ∧ hasFlag meter.cflags grpExpired = true

/-- No event is one that takes the OpenFlow flags for the controller's. -/
def MeterRun.Clean (run : MeterRun) : MeterEvent → Prop
  | .add p _ _ => ∀ meter, RefTable.lookup run.sys.sw.meters p.meter = some meter →
      modVerdict meter.body.cflags p.cflags (meter.body.appOwner == p.appOwner)
        (meter.body.meterBands == p.meterBands) = none →
      hasFlag meter.body.flags (widened grpStale) = false ∧
        hasFlag meter.body.cflags grpStale = false
  | .stale appCookie _ => ∀ meter ∈ run.sys.sw.meters, meterAppCookie meter = appCookie →
      hasFlag meter.body.flags (widened grpStale) = true ∧ hasFlag meter.body.cflags grpStale = true
  | .scan now =>
    ∀ meter ∈ run.sys.sw.meters, CleanScan run.sys.sw.master run.sys.bulk now meter.body
  | _ => True

section Body

variable {body : MeterBody} {told : MeterTold} {time lastExpired : Nat}

theorem scanKept_says (apart : body.Says told) :
    (scanKept time body lastExpired).body.Says
    (told.scan true (scanKept time body lastExpired).expires) := by
  unfold scanKept
  dsimp only
  split
  · split
    · exact apart
    · refine ⟨apart.1, ?_, ?_⟩
      · exact (hasFlag_setFlag body.cflags grpExpired grpStale (by decide)).trans apart.2.1
      · exact hasFlag_setFlag_same body.cflags grpExpired
  split
  · exact apart
  · exact apart

theorem scanUnconfirmed_says_iff (apart : body.Says told) :
    (scanUnconfirmed time body lastExpired).body.Says
        (told.scan true (scanUnconfirmed time body lastExpired).expires) ↔
          (unconfirmed time body = true →
        hasFlag body.flags (widened grpExpired) = true ∧
          hasFlag body.cflags grpExpired = true) := by
  unfold scanUnconfirmed
  split
  · rename_i given
    have bit : widened grpExpired = BitVec.twoPow 16 2 := by decide
    have kept := setFlag_eq_iff body.flags (show 2 < 16 by decide)
    rw [← bit, apart.1] at kept
    simp only [given, forall_const, apart.1, ← kept]
    exact ⟨fun after => ⟨after.1, after.2.2⟩, fun both => ⟨both.1, apart.2.1, both.2⟩⟩
  · rename_i waiting
    split
    · exact ⟨fun _ beyond => absurd beyond waiting, fun _ => apart⟩
    · exact ⟨fun _ beyond => absurd beyond waiting, fun _ => apart⟩

theorem scan_says_iff (apart : body.Says told) (master bulk : Bool) :
    (perMeterVerifyStatsScan master bulk time body lastExpired).body.Says
        (told.scan master (perMeterVerifyStatsScan master bulk time body lastExpired).expires) ↔
      CleanScan master bulk time body := by
  unfold perMeterVerifyStatsScan CleanScan
  cases master with
  | false =>
    have kept := clearFlag_eq_iff body.flags (widened grpStale)
    rw [apart.1] at kept
    simp only [Bool.not_false, if_true, apart.1, ← kept]
    exact ⟨fun after => ⟨after.1, after.2.1⟩, fun both => ⟨both.1, both.2, apart.2.2⟩⟩
  | true =>
    simp only [Bool.not_true, Bool.false_eq_true, if_false]
    have same : (bulkScanned bulk time body).Says told := by
      unfold bulkScanned
      split <;> exact apart
    have words : (bulkScanned bulk time body).flags = body.flags ∧
        (bulkScanned bulk time body).cflags = body.cflags ∧
        (bulkScanned bulk time body).installed = body.installed := by
      unfold bulkScanned
      split <;> exact ⟨rfl, rfl, rfl⟩
    unfold givesUp
    cases kept : keepsStats body with
    | true =>
      simp only [if_true, Bool.not_true, Bool.false_and, Bool.false_eq_true, false_implies,
        iff_true]
      exact scanKept_says apart
    | false =>
      simp only [Bool.false_eq_true, if_false, words.2.2]
      cases installed : body.installed with
      | true => exact ⟨fun _ beyond => absurd beyond (by simp), fun _ => same⟩
      | false =>
        simp only [Bool.not_false, if_true, Bool.true_and]
        rw [scanUnconfirmed_says_iff same, words.1, words.2.1]

end Body

theorem stale_says_iff {meter : Meter} (apart : meter.body.Says told) (appCookie : BitVec 32)
    (now : Nat) :
    (appPerMeterStale appCookie now meter).body.Says
        (if meterAppCookie meter = appCookie then { told with stale := true } else told) ↔
      (meterAppCookie meter = appCookie →
        hasFlag meter.body.flags (widened grpStale) = true ∧
          hasFlag meter.body.cflags grpStale = true) := by
  unfold appPerMeterStale
  split
  · rename_i own
    simp only [own, forall_const]
    cases marked : hasFlag meter.body.flags (widened grpStale) with
    | true =>
      simp only [Bool.not_true, Bool.false_eq_true, if_false, true_and]
      exact ⟨fun after => after.2.1, fun stale => ⟨apart.1, stale, apart.2.2⟩⟩
    | false =>
      have bit : widened grpStale = BitVec.twoPow 16 6 := by decide
      have kept := setFlag_eq_iff meter.body.flags (show 6 < 16 by decide)
      rw [← bit, marked] at kept
      simp only [Bool.not_false, if_true, Bool.false_eq_true, false_and, iff_false]
      intro after
      exact absurd (kept.mp (after.1.trans apart.1.symm)) (by decide)
  · rename_i other
    exact ⟨fun _ own => absurd own other, fun _ => apart⟩

namespace MeterRun

/-- The meters are at different addresses, and the switch has meters at all. -/
structure Sound (run : MeterRun) : Prop where
  distinct : (run.sys.sw.meters.map Counted.ptr).Nodup
  supported : run.sys.sw.ofpCtors ≠ .of10

variable {run : MeterRun}

theorem meterAt_mem (sound : run.Sound) {meter : Meter} (member : meter ∈ run.sys.sw.meters) :
    run.sys.meterAt meter.ptr = some meter := by
  unfold MeterSys.meterAt
  cases found : run.sys.sw.meters.find? fun other => other.ptr == meter.ptr with
  | none =>
    have absent := find?_eq_none.mp found meter member
    simp at absent
  | some other =>
    have same : other.ptr = meter.ptr := by simpa using find?_some found
    rw [inj_on_of_nodup_map sound.distinct (mem_of_find?_eq_some found) member same]

theorem tellAll_mem (sound : run.Sound) {meter : Meter} (member : meter ∈ run.sys.sw.meters)
    (tell : Meter → MeterTold → MeterTold) :
    run.tellAll tell meter.ptr = tell meter (run.told meter.ptr) := by
  rw [tellAll, meterAt_mem sound member]
  rfl

theorem separated_map_iff (sound : run.Sound) (separated : run.Separated) {after : MeterRun}
    {change : Meter → Meter} {tell : Meter → MeterTold → MeterTold} {clean : Meter → Prop}
    (meters : after.sys.sw.meters = run.sys.sw.meters.map change)
    (told : after.told = run.tellAll tell) (kept : ∀ meter, (change meter).ptr = meter.ptr)
    (each : ∀ meter, meter.body.Says (run.told meter.ptr) →
      ((change meter).body.Says (tell meter (run.told meter.ptr)) ↔ clean meter)) :
    after.Separated ↔ ∀ meter ∈ run.sys.sw.meters, clean meter := by
  unfold Separated
  rw [meters, forall_mem_map, told]
  apply forall₂_congr
  intro meter member
  rw [kept, tellAll_mem sound member]
  exact each meter (separated meter member)

theorem separated_setBody_iff (separated : run.Separated) {after : MeterRun} {meter : Meter}
    (member : meter ∈ run.sys.sw.meters) {body : MeterBody} {told : MeterTold}
    (meters : after.sys.sw.meters = setBody run.sys.sw.meters meter.ptr body)
    (tells : after.told = update run.told meter.ptr told) : after.Separated ↔ body.Says told := by
  unfold Separated
  rw [meters, tells]
  constructor
  · intro apart
    have changed : { meter with body } ∈ setBody run.sys.sw.meters meter.ptr body :=
      mem_map.mpr ⟨meter, member, if_pos rfl⟩
    simpa using apart _ changed
  · intro apart object there
    obtain ⟨other, present, rfl⟩ := mem_map.mp there
    split
    · rename_i same
      simpa [same] using apart
    · rename_i differs
      rw [update_of_ne differs]
      exact separated other present

theorem separated_sublist (separated : run.Separated) {after : MeterRun}
    (fewer : after.sys.sw.meters.Sublist run.sys.sw.meters) (told : after.told = run.told) :
    after.Separated := by
  intro meter member
  rw [told]
  exact separated meter (fewer.subset member)

end MeterRun

theorem meterDel_frame (sw : Switch) (p : MeterModParams) :
    (meterDel sw p).1.meters.Sublist sw.meters ∧ (meterDel sw p).1.ofpCtors = sw.ofpCtors := by
  unfold meterDel
  split
  · exact ⟨.refl _, rfl⟩
  split
  · exact ⟨.refl _, rfl⟩
  split
  · exact ⟨.refl _, rfl⟩
  split
  · exact ⟨filter_sublist, rfl⟩
  · exact ⟨.refl _, rfl⟩

theorem expiry_frame (sys : MeterSys) :
    sys.swTriggerExpiry.sw.meters.Sublist sys.sw.meters ∧
      sys.swTriggerExpiry.sw.ofpCtors = sys.sw.ofpCtors := by
  have deletions : ∀ (entries : List (App × BitVec 32)) (sw : Switch),
      let deleted := entries.foldl
        (fun sw entry => (meterDel sw { appOwner := entry.1, meter := entry.2 }).1) sw
      deleted.meters.Sublist sw.meters ∧ deleted.ofpCtors = sw.ofpCtors := by
    intro entries
    induction entries with
    | nil => exact fun sw => ⟨.refl _, rfl⟩
    | cons entry entries ih =>
      intro sw
      obtain ⟨fewer, same⟩ := meterDel_frame sw { appOwner := entry.1, meter := entry.2 }
      obtain ⟨later, still⟩ := ih (meterDel sw { appOwner := entry.1, meter := entry.2 }).1
      exact ⟨later.trans fewer, still.trans same⟩
  exact deletions sys.expList sys.sw

namespace MeterRun

variable {run : MeterRun}

/-- What an add does to the meters, and what they are told. -/
inductive Added (run : MeterRun) (p : MeterModParams) (ptr now : Nat) : Prop where
  | fresh (absent : RefTable.lookup run.sys.sw.meters p.meter = none)
      (meters : (run.exec (.add p ptr now)).sys.sw.meters =
        meterInit p ptr now :: run.sys.sw.meters)
      (told : (run.exec (.add p ptr now)).told =
        Function.update run.told ptr (.given p.flags (meterInit p ptr now).body.cflags))
  | changed {meter : Meter} {body : MeterBody}
      (found : RefTable.lookup run.sys.sw.meters p.meter = some meter)
      (allowed : modVerdict meter.body.cflags p.cflags (meter.body.appOwner == p.appOwner)
        (meter.body.meterBands == p.meterBands) ≠ none)
      (words : body.flags = p.flags ∧ body.cflags = p.cflags)
      (meters : (run.exec (.add p ptr now)).sys.sw.meters =
        setBody run.sys.sw.meters meter.ptr body)
      (told : (run.exec (.add p ptr now)).told =
        Function.update run.told meter.ptr (.given p.flags p.cflags))
  | refused {meter : Meter} (found : RefTable.lookup run.sys.sw.meters p.meter = some meter)
      (refused : modVerdict meter.body.cflags p.cflags (meter.body.appOwner == p.appOwner)
        (meter.body.meterBands == p.meterBands) = none)
      (meters : (run.exec (.add p ptr now)).sys.sw.meters = setBody run.sys.sw.meters meter.ptr
        { meter.body with flags := clearFlag meter.body.flags (widened grpStale) })
      (told : (run.exec (.add p ptr now)).told =
        Function.update run.told meter.ptr { run.told meter.ptr with stale := false })

theorem added (sound : run.Sound) (p : MeterModParams) (ptr now : Nat) : run.Added p ptr now := by
  cases found : RefTable.lookup run.sys.sw.meters p.meter with
  | none =>
    refine .fresh found ?_ ?_
    · simp only [exec, MeterSys.exec, meterAdd, if_neg sound.supported, found]
      rfl
    · simp [exec, toldAfter, found]
  | some meter =>
    cases verdict : modVerdict meter.body.cflags p.cflags (meter.body.appOwner == p.appOwner)
        (meter.body.meterBands == p.meterBands) with
    | none =>
      refine .refused found verdict ?_ ?_
      · simp only [exec, MeterSys.exec, meterAdd, if_neg sound.supported, found, verdict]
        rfl
      · simp only [exec, toldAfter, meterAdd, if_neg sound.supported, found, verdict]
        rfl
    | some decision =>
      have allowed := (Option.some_ne_none decision).symm
      rw [← verdict] at allowed
      let body : MeterBody := { meter.body with
        appOwner := if decision.1 then p.appOwner else meter.body.appOwner
        flags := p.flags, cflags := p.cflags, meterBands := p.meterBands
        installed := false, lastScan := 0, lastSeen := now }
      refine @Added.changed run p ptr now meter body found allowed.symm ⟨rfl, rfl⟩ ?_ ?_
      · simp only [exec, MeterSys.exec, meterAdd, if_neg sound.supported, found, verdict]
        rfl
      · simp only [exec, toldAfter, meterAdd, if_neg sound.supported, found, verdict]
        rfl

theorem add_separated_iff (sound : run.Sound) (separated : run.Separated)
    (fresh : ∀ meter ∈ run.sys.sw.meters, meter.ptr ≠ ptr) :
    (run.exec (.add p ptr now)).Separated ↔ run.Clean (.add p ptr now) := by
  cases added sound p ptr now with
  | fresh absent meters told =>
    have clean : run.Clean (.add p ptr now) := by
      intro meter found
      rw [absent] at found
      cases found
    refine iff_of_true (fun meter member => ?_) clean
    rw [meters] at member
    rw [told]
    rcases mem_cons.mp member with rfl | earlier
    · rw [show (meterInit p ptr now).ptr = ptr from rfl, update_self]
      exact ⟨rfl, rfl, rfl⟩
    · rw [update_of_ne (fresh meter earlier)]
      exact separated meter earlier
  | @changed meter body found allowed words meters told =>
    rw [separated_setBody_iff separated (mem_of_find?_eq_some found) meters told]
    refine ⟨fun _ other same refused => ?_, fun _ => ?_⟩
    · rw [found] at same
      cases same
      exact absurd refused allowed
    · obtain ⟨flags, cflags⟩ := words
      exact ⟨flags, by rw [cflags]; rfl, by rw [cflags]; rfl⟩
  | @refused meter found refused meters told =>
    have member := mem_of_find?_eq_some found
    have apart := separated meter member
    rw [separated_setBody_iff separated member meters told]
    have kept := clearFlag_eq_iff meter.body.flags (widened grpStale)
    have clean : run.Clean (.add p ptr now) ↔
        hasFlag meter.body.flags (widened grpStale) = false ∧
          hasFlag meter.body.cflags grpStale = false := by
      refine ⟨fun all => all meter found refused, fun both other same _ => ?_⟩
      rw [found] at same
      cases same
      exact both
    rw [clean, ← kept]
    exact ⟨fun after => ⟨after.1.trans apart.1.symm, after.2.1⟩,
      fun both => ⟨both.1.trans apart.1, both.2, apart.2.2⟩⟩

theorem exec_separated_iff (sound : run.Sound) (separated : run.Separated) {event : MeterEvent}
    (admitted : meterRuns.admits run event) : (run.exec event).Separated ↔ run.Clean event := by
  cases event with
  | add p ptr now => exact add_separated_iff sound separated admitted
  | del p =>
    exact iff_of_true (separated_sublist separated (meterDel_frame run.sys.sw p).1 rfl) trivial
  | stale appCookie now =>
    have told : (run.exec (.stale appCookie now)).told = run.tellAll fun meter told =>
      if meterAppCookie meter = appCookie then { told with stale := true } else told := rfl
    apply separated_map_iff sound separated rfl told
    · intro meter
      unfold appPerMeterStale
      split
      · split <;> rfl
      · rfl
    · exact fun meter apart => stale_says_iff apart appCookie now
  | scan now =>
    have told : (run.exec (.scan now)).told = run.tellAll fun meter told =>
      told.scan run.sys.sw.master (run.sys.scanned now meter).expires := rfl
    apply separated_map_iff sound separated rfl told
    · exact fun _ => rfl
    · exact fun meter apart => scan_says_iff apart run.sys.sw.master run.sys.bulk
  | seen id now =>
    refine iff_of_true ?_ trivial
    cases found : RefTable.lookup run.sys.sw.meters id with
    | none =>
      have same : (run.exec (.seen id now)).sys = run.sys := by
        simp [exec, MeterSys.exec, found]
      refine separated_sublist separated ?_ rfl
      rw [same]
    | some meter =>
      have member := mem_of_find?_eq_some found
      apply (@separated_setBody_iff run separated (run.exec (.seen id now)) meter member
        { meter.body with installed := true, lastSeen := now } (run.told meter.ptr) _ _).mpr
      · exact separated meter member
      · simp [exec, MeterSys.exec, found]
      · exact (update_eq_self meter.ptr run.told).symm
  | expire => exact iff_of_true (separated_sublist separated (expiry_frame run.sys).1 rfl) trivial
  | role master | setBulk bulk => exact iff_of_true separated trivial

theorem Sound.exec (sound : run.Sound) (admitted : meterRuns.admits run event) :
    (run.exec event).Sound := by
  cases event with
  | add p ptr now =>
    have same : (run.exec (.add p ptr now)).sys.sw.ofpCtors = run.sys.sw.ofpCtors := by
      obtain ⟨meters, -, lock, appRef, msgs, after, -⟩ := meterAdd_outcome run.sys.sw p ptr now
      simp [MeterRun.exec, MeterSys.exec, after]
    refine ⟨?_, same ▸ sound.supported⟩
    cases added sound p ptr now with
    | fresh absent meters told =>
      rw [meters, map_cons, nodup_cons]
      refine ⟨fun taken => ?_, sound.distinct⟩
      obtain ⟨meter, member, at_ptr⟩ := mem_map.mp taken
      exact admitted meter member at_ptr
    | changed found allowed words meters told | refused found refused meters told =>
      rw [meters, map_setBody _ fun _ _ => rfl]
      exact sound.distinct
  | del p =>
    obtain ⟨fewer, same⟩ := meterDel_frame run.sys.sw p
    exact ⟨sound.distinct.sublist (fewer.map _), same ▸ sound.supported⟩
  | stale appCookie now =>
    refine ⟨?_, sound.supported⟩
    have same : (run.exec (.stale appCookie now)).sys.sw.meters.map Counted.ptr =
        run.sys.sw.meters.map Counted.ptr := by
      simp only [MeterRun.exec, MeterSys.exec, map_map]
      apply map_congr_left
      intro meter _
      simp only [comp, appPerMeterStale]
      split
      · split <;> rfl
      · rfl
    rw [same]
    exact sound.distinct
  | scan now =>
    refine ⟨?_, sound.supported⟩
    have same : (run.exec (.scan now)).sys.sw.meters.map Counted.ptr =
        run.sys.sw.meters.map Counted.ptr := by
      simp only [MeterRun.exec, MeterSys.exec, MeterSys.perSwitchStatsScan, map_map]
      rfl
    rw [same]
    exact sound.distinct
  | seen id now =>
    simp only [MeterRun.exec, MeterSys.exec]
    split
    · exact ⟨sound.distinct, sound.supported⟩
    · refine ⟨?_, sound.supported⟩
      rw [map_setBody _ fun _ _ => rfl]
      exact sound.distinct
  | expire =>
    obtain ⟨fewer, same⟩ := expiry_frame run.sys
    exact ⟨sound.distinct.sublist (fewer.map _), same ▸ sound.supported⟩
  | role master | setBulk bulk => exact ⟨sound.distinct, sound.supported⟩

end MeterRun

theorem meterRuns_sound (reached : meterRuns.Reaches run) : run.Sound := by
  induction reached with
  | start initial => exact ⟨by rw [initial.1]; exact nodup_nil, initial.2⟩
  | step earlier admitted ih => exact ih.exec admitted

/-- The flag words stay apart in every run of clean events, and up to the first other one. -/
theorem meterRuns_separated (run : MeterRun) :
    ((meterRuns.restrict MeterRun.Clean).Reaches run → run.Separated) ∧
    ∀ event, meterRuns.Reaches run → run.Separated → meterRuns.admits run event →
      ((meterRuns.exec run event).Separated ↔ run.Clean event) := by
  constructor
  · intro reached
    induction reached with
    | start initial =>
      intro meter member
      rw [initial.1] at member
      cases member
    | step earlier admitted ih =>
      have sound := meterRuns_sound earlier.of_restrict
      exact (MeterRun.exec_separated_iff sound ih admitted.1).mpr admitted.2
  · intro event reached separated admitted
    exact MeterRun.exec_separated_iff (meterRuns_sound reached) separated admitted

/-- A master without meters. -/
def noMeters : MeterRun := ⟨{ sw := { ofpCtors := .of131, master := true } }, fun _ => {}⟩

/-- A meter of the application with cookie 5. -/
def rateMeter : MeterEvent := .add { appOwner := 7, meter := 0x50001, flags := 1 } 1 10

private theorem noMeters_starts : meterRuns.start noMeters := ⟨rfl, nofun⟩

private theorem rateMeter_admitted : meterRuns.admits noMeters rateMeter := fun _ member =>
    nomatch member

theorem rateMeter_separated :
    (meterRuns.restrict MeterRun.Clean).Reaches ((noMeters.exec rateMeter).exec (.scan 12)) ∧
      ((noMeters.exec rateMeter).exec (.scan 12)).Separated := by
  have added : (meterRuns.restrict MeterRun.Clean).Reaches (noMeters.exec rateMeter) :=
    .step (.start noMeters_starts) ⟨rateMeter_admitted, fun _ found => nomatch found⟩
  have clean : (noMeters.exec rateMeter).Clean (.scan 12) := by
    intro meter member
    cases mem_singleton.mp member
    exact fun given => absurd given (by decide)
  have reached :
      (meterRuns.restrict MeterRun.Clean).Reaches ((noMeters.exec rateMeter).exec (.scan 12)) :=
    .step added ⟨trivial, clean⟩
  exact ⟨reached, (meterRuns_separated _).1 reached⟩

/-- Marking a meter stale writes the mark into its OpenFlow flags. -/
theorem rateMeter_marked_stale : ¬∀ run, meterRuns.Reaches run → run.Separated := by
  intro separated
  have reached : meterRuns.Reaches ((noMeters.exec rateMeter).exec (.stale 5 20)) :=
    .step (.step (.start noMeters_starts) rateMeter_admitted) trivial
  have apart := separated _ reached _ mem_cons_self
  exact absurd apart (by decide)

end OpenMul
