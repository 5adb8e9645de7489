import Mathlib
import TbsMedia.Lib.SortedTable

/-!
# The remote control core

A driver or a decoder reports scancodes.  The core looks the scancode up in the key table of the
device and reports the key to the input layer: pressed, held, and released by the driver, by the next
key or by a timer.  User space changes the table entry by entry.

* `irSetkeycode`: one change of the table, as of `rc-main.c`.
* `RcEvent`, `RcDev.step`: what can happen to a device, one call after the other.
-/

namespace TbsMedia
namespace Rc

open Lib Function

/-! ## Protocols -/

/-- `enum rc_proto`. -/
inductive RcProto where
  | unknown | other | rc5 | rc5x20 | rc5Sz | jvc | sony12 | sony15 | sony20 | nec | necx | nec32
  | sanyo | mcir2Kbd | mcir2Mse | rc6_0 | rc6_6a20 | rc6_6a24 | rc6_6a32 | rc6Mce | sharp | xmp | cec
  | imon | rcmm12 | rcmm24 | rcmm32 | xboxDvd
  deriving DecidableEq, Repr

/-- An entry of `protocols`. -/
structure ProtocolInfo where
  repeatPeriod : ℕ
  scancodeBits : ℕ

/-- `protocols`. -/
def protocols : RcProto → ProtocolInfo
  | .unknown => ⟨125, 0⟩
  | .other => ⟨125, 0⟩
  | .rc5 => ⟨114, 0x1f7f⟩
  | .rc5x20 => ⟨114, 0x1f7f3f⟩
  | .rc5Sz => ⟨114, 0x2fff⟩
  | .jvc => ⟨125, 0xffff⟩
  | .sony12 => ⟨100, 0x1f007f⟩
  | .sony15 => ⟨100, 0xff007f⟩
  | .sony20 => ⟨100, 0x1fff7f⟩
  | .nec => ⟨110, 0xffff⟩
  | .necx => ⟨110, 0xffffff⟩
  | .nec32 => ⟨110, 0xffffffff⟩
  | .sanyo => ⟨125, 0x1fffff⟩
  | .mcir2Kbd => ⟨100, 0xffffff⟩
  | .mcir2Mse => ⟨100, 0x1fffff⟩
  | .rc6_0 => ⟨114, 0xffff⟩
  | .rc6_6a20 => ⟨114, 0xfffff⟩
  | .rc6_6a24 => ⟨114, 0xffffff⟩
  | .rc6_6a32 => ⟨114, 0xffffffff⟩
  | .rc6Mce => ⟨114, 0xffff7fff⟩
  | .sharp => ⟨125, 0x1fff⟩
  | .xmp => ⟨125, 0⟩
  | .cec => ⟨0, 0⟩
  | .imon => ⟨114, 0x7fffffff⟩
  | .rcmm12 => ⟨114, 0x00000fff⟩
  | .rcmm24 => ⟨114, 0x00ffffff⟩
  | .rcmm32 => ⟨114, 0xffffffff⟩
  | .xboxDvd => ⟨64, 0⟩

/-- The scancode has only bits that the protocol has. -/
def InScancodeBits (protocol : RcProto) (scancode : ℕ) : Prop :=
  scancode &&& (protocols protocol).scancodeBits = scancode

instance (protocol : RcProto) (scancode : ℕ) : Decidable (InScancodeBits protocol scancode) :=
  inferInstanceAs (Decidable (_ = _))

/-- `rc_validate_scancode`. -/
def rcValidateScancode (protocol : RcProto) (scancode : ℕ) : Bool :=
  match protocol with
  | .necx => ((scancode >>> 16) ^^^ ((scancode >>> 8) ^^^ 0xffffffff)) &&& 0xff != 0
  | .nec32 => ((scancode >>> 8) ^^^ (scancode ^^^ 0xffffffff)) &&& 0xff != 0
  | .rc6Mce => scancode &&& 0xffff0000 == 0x800f0000
  | .rc6_6a32 => scancode &&& 0xffff0000 != 0x800f0000
  | _ => true

/-- `repeat_period`. -/
def repeatPeriod (protocol : RcProto) : ℕ := (protocols protocol).repeatPeriod

/-! ## The key table -/

def KEY_RESERVED : ℕ := 0
def KEY_UNKNOWN : ℕ := 240

def IR_TAB_MIN_SIZE : ℕ := 256
def IR_TAB_MAX_SIZE : ℕ := 8192

/-- `sizeof(struct rc_map_table)`. -/
def RC_MAP_TABLE_SIZE : ℕ := 8

/-- `-1U`. -/
def NO_INDEX : ℕ := 2 ^ 32 - 1

/-- `struct rc_map_table`. -/
structure RcMapTable where
  scancode : ℕ
  keycode : ℕ
  deriving DecidableEq, Repr

/-- `struct rc_map`: the entries in use, and the room there is for entries. -/
structure RcMap where
  scan : List RcMapTable
  size : ℕ
  alloc : ℕ
  deriving DecidableEq, Repr

/-- `rc_map->len`. -/
def RcMap.len (rcMap : RcMap) : ℕ := rcMap.scan.length

/-- `rc_map->scan[index]`. -/
def RcMap.entry (rcMap : RcMap) (index : ℕ) : RcMapTable :=
  (rcMap.scan[index]?).getD ⟨0, KEY_RESERVED⟩

/-- `roundup_pow_of_two`. -/
def roundupPowOfTwo (n : ℕ) : ℕ := 2 ^ Nat.clog 2 n

/-- `ir_create_table`: an empty table with room for `size` entries, or `-ENOMEM`. -/
def irCreateTable (size : ℕ) (kmalloc : Bool) : Option RcMap :=
  let alloc := roundupPowOfTwo (size * RC_MAP_TABLE_SIZE) % 2 ^ 32
  if kmalloc then some ⟨[], alloc / RC_MAP_TABLE_SIZE, alloc⟩ else none

/-- `ir_resize_table`: a full table doubles, one with less than a third in use is halved.  `none` is
`-ENOMEM`, with the table as it was. -/
def irResizeTable (rcMap : RcMap) (kmalloc : Bool) : Option RcMap :=
  let oldalloc := rcMap.alloc
  if rcMap.size = rcMap.len ∧ IR_TAB_MAX_SIZE ≤ oldalloc then none
  else
    let newalloc := if rcMap.size = rcMap.len then oldalloc * 2 else oldalloc
    let newalloc :=
      if rcMap.len * 3 < rcMap.size ∧ IR_TAB_MIN_SIZE < oldalloc then newalloc / 2 else newalloc
    if newalloc = oldalloc then some rcMap
    else if kmalloc then
      some { rcMap with alloc := newalloc, size := newalloc / RC_MAP_TABLE_SIZE }
    else none

/-! ## The device -/

/-- What the input layer is told. -/
inductive InputEvent where
  | scan (scancode : ℕ)
  | key (code : ℕ) (value : ℕ)
  | sync
  deriving DecidableEq, Repr

/-- `struct rc_dev`, its key table and its input device.  `input` are the events that have been
reported, `timerRepeat` is that the timer is pending. -/
structure RcDev where
  rcMap : RcMap
  scancodeMask : ℕ
  keybit : ℕ → Bool
  keypressed : Bool
  keyupJiffies : UInt64
  timerRepeat : Bool
  lastKeycode : ℕ
  lastProtocol : RcProto
  lastScancode : ℕ
  lastToggle : ℕ
  timeout : ℕ
  allowedProtocols : ℕ
  repDelay : ℕ
  repPeriod : ℕ
  input : List InputEvent

/-- `RC_PROTO_BIT_CEC`. -/
def RC_PROTO_BIT_CEC : ℕ := 2 ^ 22

/-- A device that has been registered with a key table, and that knows the protocol RC-5. -/
def RcDev.new (rcMap : RcMap) : RcDev where
  rcMap := rcMap
  scancodeMask := 0
  keybit := fun _ => false
  keypressed := false
  keyupJiffies := 0
  timerRepeat := false
  lastKeycode := 0
  lastProtocol := .unknown
  lastScancode := 0
  lastToggle := 0
  timeout := 125000000
  allowedProtocols := 2 ^ 2
  repDelay := 500
  repPeriod := 125
  input := []

/-- `ir_update_mapping`: the device behind the update, and the keycode that was there. -/
def irUpdateMapping (dev : RcDev) (index newKeycode : ℕ) (kmalloc : Bool) : RcDev × ℕ :=
  let oldKeycode := (dev.rcMap.entry index).keycode
  let dev₁ : RcDev :=
    if newKeycode = KEY_RESERVED ∨ newKeycode = KEY_UNKNOWN then
      { dev with rcMap := { dev.rcMap with scan := dev.rcMap.scan.eraseIdx index } }
    else
      { dev with
        rcMap := { dev.rcMap with
          scan := dev.rcMap.scan.set index ⟨(dev.rcMap.entry index).scancode, newKeycode⟩ }
        keybit := update dev.keybit newKeycode true }
  if oldKeycode ≠ KEY_RESERVED then
    -- another scancode might use the same keycode
    let used := dev₁.rcMap.scan.any fun e => e.keycode == oldKeycode
    ({ dev₁ with
      keybit := update dev₁.keybit oldKeycode used
      rcMap := (irResizeTable dev₁.rcMap kmalloc).getD dev₁.rcMap }, oldKeycode)
  else (dev₁, oldKeycode)

/-- The scan of `ir_establish_scancode`: the index at which it stops, and whether the scancode is
there. -/
def irScan : List RcMapTable → ℕ → ℕ × Bool
  | [], _ => (0, false)
  | e :: scan, scancode =>
    if e.scancode = scancode then (0, true)
    else if scancode ≤ e.scancode then (0, false)
    else ((irScan scan scancode).1 + 1, (irScan scan scancode).2)

/-- The scancode without the bits that the device does not provide. -/
def RcDev.masked (dev : RcDev) (scancode : ℕ) : ℕ :=
  if dev.scancodeMask ≠ 0 then scancode &&& dev.scancodeMask else scancode

/-- `ir_establish_scancode`: the index of the scancode, with a new entry where there was none, or
`-1U`. -/
def irEstablishScancode (dev : RcDev) (scancode : ℕ) (resize kmalloc : Bool) : RcDev × ℕ :=
  let i := (irScan dev.rcMap.scan (dev.masked scancode)).1
  if (irScan dev.rcMap.scan (dev.masked scancode)).2 then (dev, i)
  else
    let grown :=
      if dev.rcMap.size = dev.rcMap.len then
        if resize then irResizeTable dev.rcMap kmalloc else none
      else some dev.rcMap
    match grown with
    | none => (dev, NO_INDEX)
    | some rcMap =>
      ({ dev with rcMap := { rcMap with
          scan := rcMap.scan.insertIdx i ⟨dev.masked scancode, KEY_RESERVED⟩ } }, i)

inductive Errno where
  | EINVAL | ENOMEM | ENOBUFS
  deriving DecidableEq, Repr

/-- What an entry of `EVIOCSKEYCODE` or `EVIOCGKEYCODE` names: an index of the table, or a scancode.
A scancode that is not of one, two or four bytes is none. -/
inductive KeymapRef where
  | byIndex (index : ℕ)
  | byScancode (scancode : Option ℕ)
  deriving DecidableEq, Repr

/-- `ir_setkeycode`: the device behind the call, and the keycode that was there.  `kmalloc₁` and
`kmalloc₂` say whether an allocation for a new entry and one behind the update succeed. -/
def irSetkeycode (dev : RcDev) (ref : KeymapRef) (keycode : ℕ) (kmalloc₁ kmalloc₂ : Bool) :
    RcDev × Except Errno ℕ :=
  match ref with
  | .byIndex index =>
    if dev.rcMap.len ≤ index then (dev, .error .EINVAL)
    else
      let (dev, old) := irUpdateMapping dev index keycode kmalloc₂
      (dev, .ok old)
  | .byScancode none => (dev, .error .EINVAL)
  | .byScancode (some scancode) =>
    let (dev, index) := irEstablishScancode dev scancode true kmalloc₁
    if dev.rcMap.len ≤ index then (dev, .error .ENOMEM)
    else
      let (dev, old) := irUpdateMapping dev index keycode kmalloc₂
      (dev, .ok old)

/-- `ir_lookup_by_scancode`: the index in the table, or `-1U`. -/
def irLookupByScancode (rcMap : RcMap) (scancode : ℕ) : ℕ :=
  (bsearch (fun e : RcMapTable => compare scancode e.scancode) rcMap.scan).getD NO_INDEX

/-- `rc_g_keycode_from_table`. -/
def rcGKeycodeFromTable (dev : RcDev) (scancode : ℕ) : ℕ :=
  let index := irLookupByScancode dev.rcMap scancode
  if index < dev.rcMap.len then (dev.rcMap.entry index).keycode else KEY_RESERVED

/-! ## Keys -/

/-- `input_event`. -/
def RcDev.report (dev : RcDev) (e : InputEvent) : RcDev := { dev with input := dev.input ++ [e] }

/-- `ir_do_keyup`. -/
def irDoKeyup (dev : RcDev) (sync : Bool) : RcDev :=
  if dev.keypressed then
    let dev := { dev with timerRepeat := false }.report (.key dev.lastKeycode 0)
    let dev := if sync then dev.report .sync else dev
    { dev with keypressed := false }
  else dev

/-- `rc_keyup`. -/
def rcKeyup (dev : RcDev) : RcDev := irDoKeyup dev true

/-- `time_is_before_eq_jiffies`. -/
def timeIsBeforeEq (t jiffies : UInt64) : Bool := (jiffies - t).toNat < 2 ^ 63

/-- `ir_timer_keyup`. -/
def irTimerKeyup (dev : RcDev) (jiffies : UInt64) : RcDev :=
  if timeIsBeforeEq dev.keyupJiffies jiffies then irDoKeyup dev true else dev

/-- `ir_timer_repeat`. -/
def irTimerRepeat (dev : RcDev) : RcDev :=
  let dev := { dev with timerRepeat := false }
  if dev.keypressed then
    let dev := (dev.report (.key dev.lastKeycode 2)).report .sync
    { dev with timerRepeat := decide (dev.repPeriod ≠ 0) }
  else dev

/-- The kernel's conversions to its own unit of time. -/
structure Clock where
  nsecsToJiffies : ℕ → UInt64
  msecsToJiffies : ℕ → UInt64

variable (clock : Clock)

/-- `rc_repeat`. -/
def rcRepeat (dev : RcDev) (jiffies : UInt64) : RcDev :=
  let timeout := (clock.nsecsToJiffies dev.timeout +
    clock.msecsToJiffies (repeatPeriod dev.lastProtocol)).toUInt32.toUInt64
  let dev := (dev.report (.scan dev.lastScancode)).report .sync
  if dev.keypressed then { dev with keyupJiffies := jiffies + timeout } else dev

/-- The frame is not one more of the key that is held. -/
def RcDev.newEvent (dev : RcDev) (protocol : RcProto) (scancode toggle : ℕ) : Bool :=
  !dev.keypressed || dev.lastProtocol != protocol || dev.lastScancode != scancode ||
    dev.lastToggle != toggle

/-- `ir_do_keydown`. -/
def irDoKeydown (dev : RcDev) (protocol : RcProto) (scancode keycode toggle : ℕ) : RcDev :=
  let newEvent := dev.newEvent protocol scancode toggle
  let dev := if newEvent && dev.keypressed then irDoKeyup dev false else dev
  let dev := dev.report (.scan scancode)
  let dev := { dev with
    lastProtocol := protocol
    lastScancode := scancode
    lastToggle := toggle
    lastKeycode := keycode }
  let dev :=
    if newEvent && keycode != KEY_RESERVED then
      { dev with keypressed := true }.report (.key keycode 1)
    else dev
  let dev :=
    if !newEvent && keycode != KEY_RESERVED && dev.allowedProtocols == RC_PROTO_BIT_CEC &&
        !dev.timerRepeat && dev.repPeriod != 0 && dev.repDelay == 0 then
      { dev.report (.key keycode 2) with timerRepeat := true }
    else dev
  dev.report .sync

/-- `rc_keydown`. -/
def rcKeydown (dev : RcDev) (protocol : RcProto) (scancode toggle : ℕ) (jiffies : UInt64) : RcDev :=
  let keycode := rcGKeycodeFromTable dev scancode
  let dev := irDoKeydown dev protocol scancode keycode toggle
  if dev.keypressed then
    { dev with keyupJiffies := jiffies + clock.nsecsToJiffies dev.timeout +
        clock.msecsToJiffies (repeatPeriod protocol) }
  else dev

/-- `rc_keydown_notimeout`. -/
def rcKeydownNotimeout (dev : RcDev) (protocol : RcProto) (scancode toggle : ℕ) : RcDev :=
  irDoKeydown dev protocol scancode (rcGKeycodeFromTable dev scancode) toggle

/-! ## Runs -/

/-- What happens to a device. -/
inductive RcEvent where
  | keydown (protocol : RcProto) (scancode toggle : ℕ) (jiffies : UInt64)
  | keydownNotimeout (protocol : RcProto) (scancode toggle : ℕ)
  | keyup
  | repeat (jiffies : UInt64)
  | timerKeyup (jiffies : UInt64)
  | timerRepeat
  | setkeycode (ref : KeymapRef) (keycode : ℕ) (kmalloc₁ kmalloc₂ : Bool)

/-- One call. -/
def RcDev.step (dev : RcDev) : RcEvent → RcDev
  | .keydown protocol scancode toggle jiffies => rcKeydown clock dev protocol scancode toggle jiffies
  | .keydownNotimeout protocol scancode toggle => rcKeydownNotimeout dev protocol scancode toggle
  | .keyup => rcKeyup dev
  | .repeat jiffies => rcRepeat clock dev jiffies
  | .timerKeyup jiffies => irTimerKeyup dev jiffies
  | .timerRepeat => irTimerRepeat dev
  | .setkeycode ref keycode kmalloc₁ kmalloc₂ => (irSetkeycode dev ref keycode kmalloc₁ kmalloc₂).1

end Rc
end TbsMedia
