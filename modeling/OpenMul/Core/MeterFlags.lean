import OpenMul.Core.Group
import OpenMul.Lib.Machine

namespace OpenMul

open Lib

def meterGstats : BitVec 8 := 0x2

def meterStatTimeo : Nat := 3
def meterStaleTimeo : Nat := 20
def meterExpTimeo : Nat := 10

/-- A controller flag as the code writes it into the OpenFlow flags. -/
def widened (flag : BitVec 8) : BitVec 16 := flag.zeroExtend 16

/-- `METER_APP_COOKIE`. -/
def meterAppCookie (meter : Meter) : BitVec 32 := (meter.key >>> 16) &&& 0x7fff

/-- What the scan asks the switch for. -/
inductive MeterAsk where
  | stats
  | config
  deriving DecidableEq, Repr

/-- What the scan leaves of a meter, and whether it queued its deletion. -/
structure MeterScan where
  body : MeterBody
  lastExpired : Nat
  expires : Bool := false
  asks : Option MeterAsk := none
  deriving DecidableEq, Repr

/-- The first part of the scan, of meters that are stale or whose statistics are kept. -/
def scanKept (time : Nat) (meter : MeterBody) (lastExpired : Nat) : MeterScan :=
  let stale := hasFlag meter.cflags grpStale
  if (!stale && decide (5 * meterStatTimeo < time - meter.lastSeen)) ||
      (stale && decide (meterStaleTimeo < time - meter.staleTime)) then
    if hasFlag meter.cflags grpExpired && decide (time - lastExpired < meterExpTimeo) then
      { body := meter, lastExpired }
    else
      { body := { meter with cflags := setFlag meter.cflags grpExpired }
        lastExpired := time, expires := true }
  else if !stale && decide (meterStatTimeo < time - meter.lastScan) then
    { body := { meter with lastScan := time }, lastExpired, asks := some .stats }
  else { body := meter, lastExpired }

/-- Whether a meter the switch did not confirm has had its time. -/
def unconfirmed (time : Nat) (meter : MeterBody) : Bool :=
  decide (meter.lastScan ≠ 0) && decide (5 * meterStatTimeo < time - meter.lastSeen)

/-- The second part of the scan, of meters that are not installed. -/
def scanUnconfirmed (time : Nat) (meter : MeterBody) (lastExpired : Nat) : MeterScan :=
  if unconfirmed time meter then
    { body := { meter with flags := setFlag meter.flags (widened grpExpired) }, lastExpired,
      expires := true }
  else if decide (meter.lastScan = 0) || decide (meterStatTimeo < time - meter.lastScan) then
    { body := { meter with
        lastSeen := if meter.lastScan = 0 then time else meter.lastSeen
        lastScan := time }
      lastExpired, asks := some .config }
  else { body := meter, lastExpired }

/-- Whether the scan of a master comes to its first part. -/
def keepsStats (meter : MeterBody) : Bool :=
  (meter.installed && hasFlag meter.cflags meterGstats) || hasFlag meter.cflags grpStale

/-- `SW_BULK_METER_CONF_STATS` counts as a scan of every meter. -/
def bulkScanned (bulk : Bool) (time : Nat) (meter : MeterBody) : MeterBody :=
  if bulk then { meter with lastScan := time } else meter

/-- `c_per_meter_verify_stats_scan`. -/
def perMeterVerifyStatsScan (master bulk : Bool) (time : Nat) (meter : MeterBody)
    (lastExpired : Nat) : MeterScan :=
  if !master then
    { body := { meter with
        installed := true, flags := clearFlag meter.flags (widened grpStale)
        lastScan := time, lastSeen := time }
      lastExpired }
  else if keepsStats meter then scanKept time meter lastExpired
  else
    let meter := bulkScanned bulk time meter
    if !meter.installed then scanUnconfirmed time meter lastExpired
    else { body := meter, lastExpired }

/-- `c_app_per_meter_stale`. -/
def appPerMeterStale (appCookie : BitVec 32) (time : Nat) (meter : Meter) : Meter :=
  if meterAppCookie meter = appCookie then
    if !hasFlag meter.body.flags (widened grpStale) then
      { meter with
        body := { meter.body with
          staleTime := time, flags := setFlag meter.body.flags (widened grpStale), lastScan := 0 } }
    else meter
  else meter

/-- A switch with the last expiry of each meter and the queued deletions. -/
structure MeterSys where
  sw : Switch
  bulk : Bool := false
  lastExpired : Nat → Nat := fun _ => 0
  expList : List (App × BitVec 32) := []

namespace MeterSys

def scanned (sys : MeterSys) (time : Nat) (meter : Meter) : MeterScan :=
  perMeterVerifyStatsScan sys.sw.master sys.bulk time meter.body (sys.lastExpired meter.ptr)

def meterAt (sys : MeterSys) (ptr : Nat) : Option Meter := sys.sw.meters.find? fun meter =>
    meter.ptr == ptr

/-- The meters' part of `c_per_switch_stats_scan`. Each deletion that is queued holds
its application. -/
def perSwitchStatsScan (sys : MeterSys) (time : Nat) : MeterSys :=
  let expired := sys.sw.meters.filter fun meter => (sys.scanned time meter).expires
  { sys with
    sw := { sys.sw with
      meters := sys.sw.meters.map fun meter => { meter with body := (sys.scanned time meter).body }
      appRef :=
        expired.foldl (fun counts meter => countApp counts meter.body.appOwner 1) sys.sw.appRef }
    lastExpired := fun ptr =>
      (sys.meterAt ptr).elim (sys.lastExpired ptr) fun meter => (sys.scanned time meter).lastExpired
    expList := sys.expList ++ expired.map fun meter => (meter.body.appOwner, meter.key) }

/-- `c_sw_trigger_expiry`: the queued deletions are commands of their applications. -/
def swTriggerExpiry (sys : MeterSys) : MeterSys :=
  let deleted := sys.expList.foldl
    (fun sw entry => (meterDel sw { appOwner := entry.1, meter := entry.2 }).1) sys.sw
  { sys with
    sw := { deleted with
      appRef := sys.expList.foldl (fun counts entry => appPut counts entry.1) deleted.appRef }
    expList := [] }

end MeterSys

/-- What happens to the meters of a switch. -/
inductive MeterEvent where
  | add (p : MeterModParams) (ptr now : Nat)
  | del (p : MeterModParams)
  | stale (appCookie : BitVec 32) (now : Nat)
  | scan (now : Nat)
  /-- The switch reports a meter. -/
  | seen (meter : BitVec 32) (now : Nat)
  | expire
  | role (master : Bool)
  | setBulk (bulk : Bool)
  deriving DecidableEq, Repr

/-- The switch after an event. -/
def MeterSys.exec (sys : MeterSys) : MeterEvent → MeterSys
  | .add p ptr now =>
    { sys with
      sw := (meterAdd sys.sw p ptr now).1
      lastExpired := if (RefTable.lookup sys.sw.meters p.meter).isNone
        then Function.update sys.lastExpired ptr 0 else sys.lastExpired }
  | .del p => { sys with sw := (meterDel sys.sw p).1 }
  | .stale appCookie now =>
    { sys with sw := { sys.sw with meters := sys.sw.meters.map (appPerMeterStale appCookie now) } }
  | .scan now => sys.perSwitchStatsScan now
  | .seen meter now =>
    match RefTable.lookup sys.sw.meters meter with
    | none => sys
    | some found =>
      { sys with
        sw := { sys.sw with
          meters := setBody sys.sw.meters found.ptr
            { found.body with installed := true, lastSeen := now } } }
  | .expire => sys.swTriggerExpiry
  | .role master => { sys with sw := { sys.sw with master } }
  | .setBulk bulk => { sys with bulk }

end OpenMul
