import Mathlib.Data.List.ReduceOption
import OpenMul.Core.ObjectDecode

namespace OpenMul

open Lib
open List hiding elem

/-- `mul_app_prep_group_add`; `slots` are the entries of `act_vectors`. -/
def mulAppPrepGroupAdd (dpid : BitVec 64) (p : GroupModParams) (slots : List (Option ActVecElem)) :
    GroupModMsg where
  datapathId := dpid
  command := .add
  groupId := p.group
  type := p.type
  flags := p.flags
  buckets := slots.flatMap fun slot => slot.elim [] fun elem => elem.encode [0, 0, 0, 0]

/-- A band with its length in the header, as it is put in the message. -/
def putBand (band : List Byte) : List Byte := band.take 2 ++ (toBytes 2 band.length ++ band.drop 4)

/-- `mul_app_prep_meter_add`, for bands that have a type and a length. -/
def mulAppPrepMeterAdd (dpid : BitVec 64) (p : MeterModParams) (slots : List (Option (List Byte))) :
    MeterModMsg where
  datapathId := dpid
  command := .add
  meterId := p.meter
  flags := p.flags
  cFlags := p.cflags
  bands := slots.flatMap fun slot => slot.elim [] putBand

/-- The parameters `c_app_group_mod_command` decodes, unless it refuses a bucket. -/
def groupModParms (node : CtrlSwitch) (app : App) (msg : GroupModMsg) : Option GroupModParams :=
  groupModBuckets node ofMaxActVectors msg.buckets
    { appOwner := app, group := msg.groupId, type := msg.type, flags := msg.flags }

/-- The parameters `c_app_meter_mod_command` decodes. -/
def meterModParms (app : App) (msg : MeterModMsg) : Option MeterModParams :=
  (meterModBands ofMaxMeterVectors msg.bands []).map fun meterBands =>
    { appOwner := app, meter := msg.meterId, flags := msg.flags, cflags := msg.cFlags, meterBands }

/-- The handlers go on with these parameters. -/
theorem onSwitch_parms (node : CtrlSwitch) (app : App) (ptr now : Nat) (sw : Switch) :
    (∀ msg, groupModOnSwitch node msg true app ptr now sw =
      match groupModParms node app msg with
      | none => (sw, -1)
      | some p =>
        let verdict := featVerdict node node.cmd.groupValidateFeat p
        if verdict ≠ 0 then (sw, verdict) else groupAdd sw p ptr now) ∧
    ∀ msg, meterModOnSwitch node msg true app ptr now sw =
      match meterModParms app msg with
      | none => (sw, -1)
      | some p =>
        let verdict := featVerdict node node.cmd.meterValidateFeat p
        if verdict ≠ 0 then (sw, verdict) else meterAdd sw p ptr now := by
  refine ⟨fun _ => rfl, fun msg => ?_⟩
  unfold meterModOnSwitch meterModParms
  cases meterModBands ofMaxMeterVectors msg.bands [] <;> rfl

/-- A bucket in front of other bytes, as the loop reads it. -/
theorem read_encode (short : elem.actions.length < 2 ^ 16) {pad : List Byte}
    (padded : pad.length = 4) (rest : List Byte) :
    ActVecElem.read (elem.encode pad ++ rest) = elem ∧
      (wordAt 16 ((elem.encode pad ++ rest).drop 2)).toNat = elem.actions.length ∧
      (elem.encode pad ++ rest).drop (16 + elem.actions.length) = rest ∧
      (elem.encode pad ++ rest).length = 16 + elem.actions.length + rest.length := by
  have at2 : (elem.encode pad ++ rest).drop 2 = toBytes 2 elem.actions.length ++
      (toBytes 4 elem.ffPort.toNat ++
      (toBytes 4 elem.ffGroup.toNat ++ (pad ++ (elem.actions ++ rest)))) := by
    simp only [ActVecElem.encode, append_assoc]
    exact drop_left' (length_toBytes ..)
  have told : (wordAt 16 ((elem.encode pad ++ rest).drop 2)).toNat = elem.actions.length := by
    rw [at2, wordAt_toBytes (show 16 = 8 * 2 from rfl), BitVec.toNat_ofNat, Nat.mod_eq_of_lt short]
  have length : (elem.encode pad ++ rest).length = 16 + elem.actions.length + rest.length := by
    simp only [ActVecElem.encode, length_append, length_toBytes, padded]
    omega
  -- the bytes are those of the bucket that is read, and only one bucket has them
  have again := @encode_read (elem.encode pad ++ rest) (by omega) (by omega)
  obtain ⟨same, behind⟩ := encode_inj (by simp [length]; omega) padded
    (Nat.lt_of_le_of_lt (length_take_le _ _) (BitVec.isLt _)) short again
  exact ⟨same, told, told ▸ behind, length⟩

section Group

variable {node : CtrlSwitch} (versioned : node.Versioned) (supported : node.sw.ofpCtors ≠ .of10)
include versioned supported

/-- The bucket loop on buckets it has room for. -/
theorem groupModBuckets_encoded {elems : List ActVecElem}
    (short : ∀ elem ∈ elems, elem.actions.length < 2 ^ 16) (few : elems.length ≤ room)
    (p : GroupModParams) :
    groupModBuckets node room (elems.flatMap (·.encode [0, 0, 0, 0])) p =
      if ∀ elem ∈ elems, (node.validateBucket elem.actions).ret = 0 then
        some { p with
          actVectors := p.actVectors ++ elems
          flags := if elems.any fun elem => (node.validateBucket elem.actions).args.instLocal then
            setFlag p.flags grpLocal else p.flags }
      else none := by
  induction elems generalizing room p with
  | nil => cases room <;> simp [groupModBuckets]
  | cons elem rest ih =>
    obtain ⟨room, rfl⟩ : ∃ less, room = less + 1 := ⟨room - 1, by simp at few; omega⟩
    obtain ⟨here, later⟩ := forall_mem_cons.1 short
    obtain ⟨read, told, behind, length⟩ := @read_encode elem here [0, 0, 0, 0] rfl
      (rest.flatMap (·.encode [0, 0, 0, 0]))
    rw [flatMap_cons]
    generalize elem.encode [0, 0, 0, 0] ++ rest.flatMap (·.encode [0, 0, 0, 0]) = bytes
      at read told behind length ⊢
    have actions : (bytes.drop 16).take elem.actions.length = elem.actions := by
      rw [← told]
      exact congrArg ActVecElem.actions read
    have weight : wordAt 16 bytes = elem.weight := congrArg ActVecElem.weight read
    have ffPort : wordAt 32 (bytes.drop 4) = elem.ffPort := congrArg ActVecElem.ffPort read
    have ffGroup : wordAt 32 (bytes.drop 8) = elem.ffGroup := congrArg ActVecElem.ffGroup read
    rw [groupModBuckets, if_neg (by omega)]
    simp only [told, actions, behind, validateBucket_actions versioned supported, weight, ffPort,
      ffGroup]
    rw [if_neg (by omega)]
    by_cases passed : (node.validateBucket elem.actions).ret = 0
    · rw [ih later (by simpa using few)]
      have twice : setFlag (setFlag p.flags grpLocal) grpLocal = setFlag p.flags grpLocal := by
        simp [setFlag, BitVec.or_assoc]
      cases toController : (node.validateBucket elem.actions).args.instLocal <;>
        simp [passed, toController, twice]
    · rw [if_pos passed, if_neg]
      intro all
      exact passed (all elem (by simp))

end Group

theorem flatMap_slots {Slot : Type} (put : Slot → List Byte) (slots : List (Option Slot)) :
    slots.flatMap (fun slot => slot.elim [] put) = slots.reduceOption.flatMap put := by
  induction slots with
  | nil => rfl
  | cons slot rest ih => cases slot <;> simp [reduceOption, ih]

private theorem length_le_flatMap {Slot : Type} (put : Slot → List Byte) {slots : List Slot}
    {slot : Slot} (member : slot ∈ slots) : (put slot).length ≤ (slots.flatMap put).length := by
  exact (sublist_flatten_of_mem (mem_map_of_mem member)).length_le

theorem putBand_whole (header : 12 ≤ band.length) (short : band.length < 2 ^ 16) :
    BandWhole (putBand band) := by
  have length : (putBand band).length = band.length := by
    simp [putBand]
    omega
  have told : (putBand band).drop 2 = toBytes 2 band.length ++ band.drop 4 :=
    drop_left' (by simp; omega)
  refine ⟨by omega, ?_⟩
  rw [told, wordAt_toBytes (show 16 = 8 * 2 from rfl), BitVec.toNat_ofNat, Nat.mod_eq_of_lt short,
    length]

/-- What is decoded from the messages of the client library. -/
theorem prepared_decoded {node : CtrlSwitch} (versioned : node.Versioned)
    (supported : node.sw.ofpCtors ≠ .of10) (dpid : BitVec 64) (app : App) :
    (∀ (p : GroupModParams) (slots : List (Option ActVecElem)), slots.length ≤ ofMaxActVectors →
      48 + (mulAppPrepGroupAdd dpid p slots).buckets.length ≤ 65535 →
      groupModParms node app (mulAppPrepGroupAdd dpid p slots) =
        if ∀ elem ∈ slots.reduceOption, (node.validateBucket elem.actions).ret = 0 then
          some { p with
            appOwner := app
            actVectors := slots.reduceOption
            flags := if slots.reduceOption.any fun elem =>
              (node.validateBucket elem.actions).args.instLocal then
              setFlag p.flags grpLocal else p.flags }
        else none) ∧
    ∀ (p : MeterModParams) (slots : List (Option (List Byte))), slots.length ≤ ofMaxMeterVectors →
      56 + (mulAppPrepMeterAdd dpid p slots).bands.length ≤ 65535 →
      (∀ band ∈ slots.reduceOption, 12 ≤ band.length) →
      meterModParms app (mulAppPrepMeterAdd dpid p slots) =
        some { p with appOwner := app, meterBands := slots.reduceOption.map putBand } := by
  constructor
  · intro p slots few fits
    have payload : (mulAppPrepGroupAdd dpid p slots).buckets =
        slots.reduceOption.flatMap (·.encode [0, 0, 0, 0]) :=
      flatMap_slots ..
    have short : ∀ elem ∈ slots.reduceOption, elem.actions.length < 2 ^ 16 := by
      intro elem member
      have inside := length_le_flatMap (·.encode [0, 0, 0, 0]) member
      rw [← payload] at inside
      simp only [ActVecElem.encode, length_append] at inside
      omega
    rw [groupModParms, payload,
      groupModBuckets_encoded versioned supported short ((reduceOption_length_le _).trans few)]
    rfl
  · intro p slots few fits headers
    have payload : (mulAppPrepMeterAdd dpid p slots).bands = slots.reduceOption.flatMap putBand :=
      flatMap_slots ..
    have whole : ∀ band ∈ slots.reduceOption.map putBand, BandWhole band := by
      intro put mapped
      obtain ⟨band, member, rfl⟩ := mem_map.1 mapped
      have inside := length_le_flatMap putBand member
      rw [← payload] at inside
      have header := headers band member
      apply putBand_whole header
      simp only [putBand, length_append, length_take, length_drop, length_toBytes] at inside
      omega
    rw [meterModParms, payload, flatMap_def,
      meterModBands_whole whole (by simpa using (reduceOption_length_le _).trans few)]
    rfl

/-- A bucket that sends to the controller, and one with a port. -/
def controllerBucket : ActVecElem :=
  ⟨1, 2, 3, [0, 0, 0, 16, 255, 255, 255, 253, 0, 0, 0, 0, 0, 0, 0, 0]⟩

def portBucket : ActVecElem := ⟨5, 1, 0, [0, 0, 0, 16, 0, 0, 0, 1, 0, 0, 0, 0, 0, 0, 0, 0]⟩

def clientNode : CtrlSwitch :=
  { sw := { ofpCtors := .of131 }, cmd := of131CmdCtors, ports := fun _ => true }

/-- Two buckets and two bands, with slots between them that are not used. -/
theorem prepared_decoded_two :
    groupModParms clientNode 7
        (mulAppPrepGroupAdd 1 { group := 5 } [none, some controllerBucket, none, some portBucket]) =
      some { appOwner := 7, group := 5, flags := grpLocal
             actVectors := [controllerBucket, portBucket] } ∧
    meterModParms 7 (mulAppPrepMeterAdd 1 { meter := 3 }
        [some (List.replicate 12 0), none,
          some ([0, 1, 0, 16, 0, 0, 0, 9] ++ List.replicate 8 0)]) =
      some { appOwner := 7, meter := 3, meterBands := [[0, 0, 0, 12] ++ List.replicate 8 0,
        [0, 1, 0, 16, 0, 0, 0, 9] ++ List.replicate 8 0] } := by
  have versioned : clientNode.Versioned := fun _ => rfl
  obtain ⟨groups, meters⟩ := prepared_decoded versioned (by decide) 1 7
  exact ⟨(groups { group := 5 } _ (by decide) (by decide)).trans (by decide),
    (meters { meter := 3 } _ (by decide) (by decide) (by decide)).trans (by decide)⟩

/-- A bucket to the controller marks its group, a band gets its length, and one that is
shorter than its header is lost. -/
theorem prepared_not_equal :
    (groupModParms clientNode 7 (mulAppPrepGroupAdd 1 { group := 5 } [some controllerBucket])).map
    (·.flags) = some grpLocal ∧
      (meterModParms 7 (mulAppPrepMeterAdd 1 {} [some (List.replicate 12 0)])).map (·.meterBands) =
        some [[0, 0, 0, 12] ++ List.replicate 8 0] ∧
      (meterModParms 7 (mulAppPrepMeterAdd 1 {} [some (List.replicate 8 0)])).map (·.meterBands) =
        some [] := by
  decide

end OpenMul
