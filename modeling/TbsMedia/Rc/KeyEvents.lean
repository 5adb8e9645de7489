import TbsMedia.Rc.RcMain
import TbsMedia.Lib.Runs

/-!
# Keys that are pressed and released

What the input layer is told about a key is a press, repeats and a release.  The release is reported
with the keycode of the last frame, the press with that of the first one, and the table can change
between the two.

* `Steady`: a frame of the key that is held has the keycode it was pressed with.
* `keys_balanced`: as long as the frames are steady, presses and releases alternate key by key, and
  a frame that is not puts the next release out of step.
-/

namespace TbsMedia
namespace Rc

open Lib Function

/-! ## The input layer -/

/-- The key that is pressed behind an event, if there is one; `none` for a press on top of a press and
for a release of a key that is not pressed. -/
def press : Option ℕ → InputEvent → Option (Option ℕ)
  | none, .key code 1 => some (some code)
  | some held, .key code 0 => if code = held then some none else none
  | _, .key _ 1 => none
  | _, .key _ 0 => none
  | held, _ => some held

/-- The key that the events of a device leave pressed. -/
def RcDev.pressed (dev : RcDev) : Option (Option ℕ) := run press none dev.input

theorem pressed_report (dev : RcDev) (e : InputEvent) :
    (dev.report e).pressed = dev.pressed.bind fun held => press held e :=
  run_concat press none dev.input e

theorem pressed_report_scan (dev : RcDev) (scancode : ℕ) :
    (dev.report (.scan scancode)).pressed = dev.pressed := by
  rw [pressed_report]
  cases dev.pressed with
  | none => rfl
  | some held => cases held <;> rfl

theorem pressed_report_sync (dev : RcDev) : (dev.report .sync).pressed = dev.pressed := by
  rw [pressed_report]
  cases dev.pressed with
  | none => rfl
  | some held => cases held <;> rfl

theorem pressed_report_repeat (dev : RcDev) (code : ℕ) :
    (dev.report (.key code 2)).pressed = dev.pressed := by
  rw [pressed_report]
  cases dev.pressed with
  | none => rfl
  | some held => cases held <;> rfl

/-! ## What the device believes -/

/-- The key that the device takes to be pressed. -/
def RcDev.held (dev : RcDev) : Option ℕ := if dev.keypressed then some dev.lastKeycode else none

/-- The input layer and the device agree. -/
def Balanced (dev : RcDev) : Prop := dev.pressed = some dev.held

/-- A frame of the key that is held has the keycode of the press. -/
def SteadyFrame (dev : RcDev) (protocol : RcProto) (scancode toggle : ℕ) : Prop :=
  dev.newEvent protocol scancode toggle = false →
    rcGKeycodeFromTable dev scancode = dev.lastKeycode

/-- The frame of the event, if it has one, is steady. -/
def Steady (dev : RcDev) : RcEvent → Prop
  | .keydown protocol scancode toggle _ => SteadyFrame dev protocol scancode toggle
  | .keydownNotimeout protocol scancode toggle => SteadyFrame dev protocol scancode toggle
  | _ => True

/-- The keys are as they were, and so is what has been reported. -/
structure SameKeys (dev dev' : RcDev) : Prop where
  input : dev'.input = dev.input
  keypressed : dev'.keypressed = dev.keypressed
  lastKeycode : dev'.lastKeycode = dev.lastKeycode

theorem SameKeys.refl (dev : RcDev) : SameKeys dev dev := ⟨rfl, rfl, rfl⟩

theorem SameKeys.trans {dev dev' dev'' : RcDev} (h : SameKeys dev dev') (h' : SameKeys dev' dev'') :
    SameKeys dev dev'' :=
  ⟨h'.input.trans h.input, h'.keypressed.trans h.keypressed, h'.lastKeycode.trans h.lastKeycode⟩

theorem SameKeys.balanced {dev dev' : RcDev} (h : SameKeys dev dev') (hbal : Balanced dev) :
    Balanced dev' := by
  unfold Balanced RcDev.pressed RcDev.held at *
  rw [h.input, h.keypressed, h.lastKeycode]
  exact hbal

/-! ## Releases -/

theorem pressed_irDoKeyup {dev : RcDev} (h : Balanced dev) (sync : Bool) :
    (irDoKeyup dev sync).pressed = some none := by
  unfold Balanced RcDev.held at h
  unfold irDoKeyup
  cases hkey : dev.keypressed with
  | false =>
    rw [hkey] at h
    exact h
  | true =>
    rw [hkey] at h
    have hup : (RcDev.report { dev with timerRepeat := false } (.key dev.lastKeycode 0)).pressed =
        some none := by
      rw [pressed_report]
      change dev.pressed.bind _ = _
      rw [h]
      exact if_pos rfl
    cases sync with
    | false => exact hup
    | true => exact (pressed_report_sync _).trans hup

theorem keypressed_irDoKeyup (dev : RcDev) (sync : Bool) :
    (irDoKeyup dev sync).keypressed = false := by
  unfold irDoKeyup
  cases hkey : dev.keypressed with
  | false => exact hkey
  | true => rfl

theorem balanced_irDoKeyup {dev : RcDev} (h : Balanced dev) (sync : Bool) :
    Balanced (irDoKeyup dev sync) := by
  unfold Balanced RcDev.held
  rw [pressed_irDoKeyup h, keypressed_irDoKeyup]
  rfl

/-- The release of a key that is not the one that is pressed. -/
theorem pressed_irDoKeyup_of_ne {dev : RcDev} {code : ℕ} (h : dev.pressed = some (some code))
    (hkey : dev.keypressed = true) (hne : dev.lastKeycode ≠ code) :
    (rcKeyup dev).pressed = none := by
  unfold rcKeyup irDoKeyup
  rw [if_pos hkey]
  have hup : (RcDev.report { dev with timerRepeat := false } (.key dev.lastKeycode 0)).pressed =
      none := by
    rw [pressed_report]
    change dev.pressed.bind _ = _
    rw [h]
    exact if_neg hne
  exact (pressed_report_sync _).trans hup

/-! ## Presses -/

theorem keypressed_of_not_newEvent {dev : RcDev} {protocol : RcProto} {scancode toggle : ℕ}
    (h : dev.newEvent protocol scancode toggle = false) : dev.keypressed = true := by
  unfold RcDev.newEvent at h
  cases hkey : dev.keypressed with
  | true => rfl
  | false =>
    rw [hkey] at h
    exact nomatch h

/-- A frame of the held key presses and releases nothing. -/
theorem irDoKeydown_held {dev : RcDev} {protocol : RcProto} {scancode toggle : ℕ}
    (h : dev.newEvent protocol scancode toggle = false) (keycode : ℕ) :
    (irDoKeydown dev protocol scancode keycode toggle).pressed = dev.pressed ∧
      (irDoKeydown dev protocol scancode keycode toggle).keypressed = true ∧
      (irDoKeydown dev protocol scancode keycode toggle).lastKeycode = keycode := by
  have hkey := keypressed_of_not_newEvent h
  unfold irDoKeydown
  rw [h]
  dsimp only
  rw [Bool.false_and, Bool.false_and, if_neg Bool.false_ne_true, if_neg Bool.false_ne_true]
  rw [pressed_report_sync]
  split_ifs
  · exact ⟨(pressed_report_repeat _ keycode).trans (pressed_report_scan dev scancode), hkey, rfl⟩
  · exact ⟨pressed_report_scan dev scancode, hkey, rfl⟩

/-- A frame of another key releases the one that is held, and presses its own. -/
theorem balanced_irDoKeydown_new {dev : RcDev} (hbal : Balanced dev) {protocol : RcProto}
    {scancode toggle : ℕ} (h : dev.newEvent protocol scancode toggle = true) (keycode : ℕ) :
    Balanced (irDoKeydown dev protocol scancode keycode toggle) := by
  unfold irDoKeydown
  rw [h]
  dsimp only
  rw [Bool.true_and, Bool.true_and, Bool.not_true, Bool.false_and, Bool.false_and, Bool.false_and,
    Bool.false_and, Bool.false_and, if_neg Bool.false_ne_true]
  have hfree : (if dev.keypressed = true then irDoKeyup dev false else dev).pressed = some none ∧
      (if dev.keypressed = true then irDoKeyup dev false else dev).keypressed = false := by
    split_ifs with hkey
    · exact ⟨pressed_irDoKeyup hbal false, keypressed_irDoKeyup dev false⟩
    · refine ⟨?_, Bool.eq_false_iff.mpr hkey⟩
      exact hbal.trans (congrArg some (if_neg hkey))
  obtain ⟨hpressed, hkeypressed⟩ := hfree
  generalize (if dev.keypressed = true then irDoKeyup dev false else dev) = dev₁ at *
  unfold Balanced
  rw [pressed_report_sync]
  have hscan := (pressed_report_scan dev₁ scancode).trans hpressed
  by_cases hcode : (keycode != KEY_RESERVED) = true
  · rw [if_pos hcode, pressed_report]
    change (dev₁.report (.scan scancode)).pressed.bind _ = _
    rw [hscan]
    rfl
  · rw [if_neg hcode]
    refine Eq.trans hscan ?_
    exact congrArg some (if_neg (Bool.eq_false_iff.mp hkeypressed)).symm

theorem balanced_irDoKeydown {dev : RcDev} (h : Balanced dev) {protocol : RcProto}
    {scancode toggle : ℕ} (hsteady : SteadyFrame dev protocol scancode toggle) :
    Balanced (irDoKeydown dev protocol scancode (rcGKeycodeFromTable dev scancode) toggle) := by
  cases hnew : dev.newEvent protocol scancode toggle with
  | true => exact balanced_irDoKeydown_new h hnew _
  | false =>
    obtain ⟨hpressed, hkey, hlast⟩ := irDoKeydown_held hnew (rcGKeycodeFromTable dev scancode)
    unfold Balanced RcDev.held
    rw [hpressed, hkey, hlast, hsteady hnew, h, RcDev.held, keypressed_of_not_newEvent hnew]

/-- The release behind a frame that is not steady. -/
theorem pressed_rcKeyup_of_not_steady {dev dev' : RcDev} (h : Balanced dev) {protocol : RcProto}
    {scancode toggle : ℕ} (hsteady : ¬ SteadyFrame dev protocol scancode toggle)
    (hsame : SameKeys (rcKeydownNotimeout dev protocol scancode toggle) dev') :
    (rcKeyup dev').pressed = none := by
  obtain ⟨hnew, hne⟩ := Classical.not_imp.mp hsteady
  obtain ⟨hpressed, hkey, hlast⟩ := irDoKeydown_held hnew (rcGKeycodeFromTable dev scancode)
  have hold : dev'.pressed = some (some dev.lastKeycode) := by
    rw [RcDev.pressed, hsame.input]
    refine hpressed.trans ?_
    rw [h, RcDev.held, if_pos (keypressed_of_not_newEvent hnew)]
  refine pressed_irDoKeyup_of_ne hold (hsame.keypressed.trans hkey) fun heq => hne ?_
  exact (hsame.lastKeycode.trans hlast).symm.trans heq

/-! ## The other calls -/

theorem sameKeys_irUpdateMapping (dev : RcDev) (index keycode : ℕ) (kmalloc : Bool) :
    SameKeys dev (irUpdateMapping dev index keycode kmalloc).1 := by
  unfold irUpdateMapping
  dsimp only
  split_ifs <;> exact ⟨rfl, rfl, rfl⟩

theorem sameKeys_irEstablishScancode (dev : RcDev) (scancode : ℕ) (resize kmalloc : Bool) :
    SameKeys dev (irEstablishScancode dev scancode resize kmalloc).1 := by
  unfold irEstablishScancode
  dsimp only
  by_cases hfound : (irScan dev.rcMap.scan (dev.masked scancode)).2 = true
  · rw [if_pos hfound]
    exact SameKeys.refl dev
  · rw [if_neg hfound]
    generalize (if dev.rcMap.size = dev.rcMap.len then
      if resize then irResizeTable dev.rcMap kmalloc else none else some dev.rcMap) = grown
    cases grown <;> exact ⟨rfl, rfl, rfl⟩

/-- A change of the table reports nothing. -/
theorem sameKeys_irSetkeycode (dev : RcDev) (ref : KeymapRef) (keycode : ℕ)
    (kmalloc₁ kmalloc₂ : Bool) :
    SameKeys dev (irSetkeycode dev ref keycode kmalloc₁ kmalloc₂).1 := by
  unfold irSetkeycode
  cases ref with
  | byIndex index =>
    dsimp only
    split_ifs
    · exact SameKeys.refl dev
    · exact sameKeys_irUpdateMapping dev index keycode kmalloc₂
  | byScancode scancode =>
    cases scancode with
    | none => exact SameKeys.refl dev
    | some scancode =>
      dsimp only
      have hestablish := sameKeys_irEstablishScancode dev scancode true kmalloc₁
      split_ifs
      · exact hestablish
      · exact hestablish.trans (sameKeys_irUpdateMapping _ _ keycode kmalloc₂)

theorem balanced_irTimerRepeat {dev : RcDev} (h : Balanced dev) : Balanced (irTimerRepeat dev) := by
  unfold irTimerRepeat
  dsimp only
  split_ifs with hkey
  · unfold Balanced
    refine Eq.trans ((pressed_report_sync _).trans (pressed_report_repeat _ _)) ?_
    exact h
  · exact h

theorem balanced_rcRepeat (clock : Clock) {dev : RcDev} (h : Balanced dev) (jiffies : UInt64) :
    Balanced (rcRepeat clock dev jiffies) := by
  have hreport : Balanced ((dev.report (.scan dev.lastScancode)).report .sync) :=
    ((pressed_report_sync _).trans (pressed_report_scan _ _)).trans h
  unfold rcRepeat
  dsimp only
  split_ifs
  · exact hreport
  · exact hreport

/-! ## Runs -/

variable (clock : Clock)

/-- One event, which never goes wrong. -/
def RcDev.next (dev : RcDev) (e : RcEvent) : Option RcDev := some (dev.step clock e)

/-- The key of `rc_keydown` is that of `ir_do_keydown`. -/
theorem sameKeys_rcKeydown (dev : RcDev) (protocol : RcProto) (scancode toggle : ℕ)
    (jiffies : UInt64) :
    SameKeys (rcKeydownNotimeout dev protocol scancode toggle)
      (rcKeydown clock dev protocol scancode toggle jiffies) := by
  unfold rcKeydown
  dsimp only
  split_ifs <;> exact ⟨rfl, rfl, rfl⟩

/-- One step with a steady frame. -/
theorem balanced_step {dev : RcDev} (h : Balanced dev) {e : RcEvent} (hsteady : Steady dev e) :
    Balanced (dev.step clock e) := by
  cases e with
  | keydown protocol scancode toggle jiffies =>
    exact (sameKeys_rcKeydown clock dev protocol scancode toggle jiffies).balanced
      (balanced_irDoKeydown h hsteady)
  | keydownNotimeout protocol scancode toggle => exact balanced_irDoKeydown h hsteady
  | keyup => exact balanced_irDoKeyup h true
  | «repeat» jiffies => exact balanced_rcRepeat clock h jiffies
  | timerKeyup jiffies =>
    change Balanced (irTimerKeyup dev jiffies)
    unfold irTimerKeyup
    split_ifs
    · exact balanced_irDoKeyup h true
    · exact h
  | timerRepeat => exact balanced_irTimerRepeat h
  | setkeycode ref keycode kmalloc₁ kmalloc₂ =>
    exact (sameKeys_irSetkeycode dev ref keycode kmalloc₁ kmalloc₂).balanced h

/-- The release behind a step with a frame that is not steady. -/
theorem pressed_rcKeyup_step {dev : RcDev} (h : Balanced dev) {e : RcEvent}
    (hsteady : ¬ Steady dev e) : (rcKeyup (dev.step clock e)).pressed = none := by
  cases e with
  | keydown protocol scancode toggle jiffies =>
    exact pressed_rcKeyup_of_not_steady h hsteady
      (sameKeys_rcKeydown clock dev protocol scancode toggle jiffies)
  | keydownNotimeout protocol scancode toggle =>
    exact pressed_rcKeyup_of_not_steady h hsteady (SameKeys.refl _)
  | _ => exact absurd trivial hsteady

/-- **Presses and releases balance** in every run whose frames are steady: they alternate, each release
is that of the key that is pressed, and a release leaves none.  Behind a frame that is not steady the
next release is that of another key. -/
theorem keys_balanced {dev dev' : RcDev} {es : List RcEvent} (hkeypressed : dev.keypressed = false)
    (hinput : dev.input = []) (hsteady : Along (RcDev.next clock) Steady dev es)
    (hrun : run (RcDev.next clock) dev es = some dev') :
    dev'.pressed = some dev'.held ∧ (∀ sync, (irDoKeyup dev' sync).pressed = some none) ∧
      ∀ e, ((rcKeyup (dev'.step clock e)).pressed.isSome ↔ Steady dev' e) := by
  have hstart : Balanced dev := by
    unfold Balanced RcDev.pressed RcDev.held
    rw [hkeypressed, hinput]
    rfl
  have hbal : Balanced dev' := by
    refine run_inv_along (fun s e t hs he ht => ?_) hstart hsteady hrun
    obtain rfl := Option.some.inj ht
    exact balanced_step clock hs he
  refine ⟨hbal, pressed_irDoKeyup hbal, fun e => ⟨fun hsome => ?_, fun he => ?_⟩⟩
  · by_contra he
    rw [pressed_rcKeyup_step clock hbal he] at hsome
    exact nomatch hsome
  · have hup := pressed_irDoKeyup (balanced_step clock hbal he) true
    exact Option.isSome_iff_exists.mpr ⟨none, hup⟩

/-- A key is held for two frames and released. -/
def holdKey : List RcEvent :=
  [.setkeycode (.byScancode (some 1)) 30 true true, .keydown .rc5 1 0 0, .keydown .rc5 1 0 7]

theorem keys_balanced_holdKey :
    ∃ dev, run (RcDev.next ⟨fun _ => 5, fun _ => 5⟩) (RcDev.new ⟨[], 4, 32⟩) holdKey = some dev ∧
      dev.pressed = some dev.held ∧ (irDoKeyup dev true).pressed = some none := by
  have hsteady : Along (RcDev.next ⟨fun _ => 5, fun _ => 5⟩) Steady (RcDev.new ⟨[], 4, 32⟩) holdKey := by
    refine ⟨trivial, fun t ht => ?_⟩
    obtain rfl := Option.some.inj ht
    refine ⟨fun hnew => (nomatch hnew), fun t ht => ?_⟩
    obtain rfl := Option.some.inj ht
    refine ⟨fun _ => ?_, fun t ht => trivial⟩
    decide +kernel
  obtain ⟨hpressed, hup, -⟩ := keys_balanced ⟨fun _ => 5, fun _ => 5⟩ rfl rfl hsteady rfl
  exact ⟨_, rfl, hpressed, hup true⟩

/-- A scancode is moved to another key while its key is held. -/
def moveHeldKey : List RcEvent :=
  [.setkeycode (.byScancode (some 1)) 30 true true, .setkeycode (.byScancode (some 2)) 30 true true,
    .keydown .rc5 1 0 0, .setkeycode (.byScancode (some 1)) 48 true true, .keydown .rc5 1 0 7, .keyup]

/-- The key that has been pressed is not the one that is released. -/
theorem not_keys_balanced_moveHeldKey :
    ∃ dev, run (RcDev.next ⟨fun _ => 5, fun _ => 5⟩) (RcDev.new ⟨[], 4, 32⟩) moveHeldKey = some dev ∧
      dev.input = [.scan 1, .key 30 1, .sync, .scan 1, .sync, .key 48 0, .sync] ∧
      dev.pressed = none := by
  refine ⟨_, rfl, ?_, ?_⟩ <;> decide +kernel

end Rc
end TbsMedia
