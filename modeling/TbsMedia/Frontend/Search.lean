import TbsMedia.Frontend.Swzigzag
import TbsMedia.Lib.Runs

/-!
# The software zigzag

`dvb_frontend_swzigzag` of `dvb_frontend.c` is one iteration of the tuning loop: it looks for a lock, begins a fast
search after a tune request or a lost lock, and makes the next attempt of the search.

* `dvbFrontendSwzigzag`: the function, with what it has done to the search.
* `Watch`: the search together with the attempts that have been made since it began.
-/

namespace TbsMedia
namespace Frontend

def FESTATE_IDLE : UInt32 := 1
def FESTATE_RETUNE : UInt32 := 2
def FESTATE_TUNING_FAST : UInt32 := 4
def FESTATE_TUNING_SLOW : UInt32 := 8
def FESTATE_TUNED : UInt32 := 16
def FESTATE_ZIGZAG_FAST : UInt32 := 32
def FESTATE_ZIGZAG_SLOW : UInt32 := 64
def FESTATE_DISEQC : UInt32 := 128

def FESTATE_WAITFORLOCK : UInt32 :=
  FESTATE_TUNING_FAST ||| FESTATE_TUNING_SLOW ||| FESTATE_ZIGZAG_FAST ||| FESTATE_ZIGZAG_SLOW ||| FESTATE_DISEQC

def FESTATE_SEARCHING_FAST : UInt32 := FESTATE_TUNING_FAST ||| FESTATE_ZIGZAG_FAST
def FESTATE_SEARCHING_SLOW : UInt32 := FESTATE_TUNING_SLOW ||| FESTATE_ZIGZAG_SLOW
def FESTATE_LOSTLOCK : UInt32 := FESTATE_ZIGZAG_FAST ||| FESTATE_ZIGZAG_SLOW

def FE_HAS_LOCK : UInt32 := 0x10
def FE_CAN_RECOVER : UInt32 := 0x40000000
def FE_TUNE_MODE_ONESHOT : UInt32 := 0x01

variable {ρ : Type*}

/-- The frontend, with the values of `struct dvb_frontend_private` that only the tuning loop has. -/
structure Swzigzag (ρ : Type*) where
  fe : DvbFrontend ρ
  checkWrapped : Bool
  tuneModeFlags : UInt32

/-- What the driver does in an iteration: the status it reads, and what its `set_frontend` leaves and returns. -/
structure Answers (ρ : Type*) where
  readStatus : Option UInt32
  setFrontend : Option (DtvFrontendProperties ρ × ℤ)

/-- What an iteration has done to the fast search. -/
inductive Progress (ρ : Type*) where
  | idle
  | set (p : DtvFrontendProperties ρ)
  | failed
  | completed
  deriving DecidableEq

namespace Swzigzag

def is (z : Swzigzag ρ) (states : UInt32) : Bool := z.fe.fepriv.state &&& states ≠ 0

def setState (z : Swzigzag ρ) (state : UInt32) : Swzigzag ρ :=
  { z with fe := { z.fe with fepriv := { z.fe.fepriv with state := state } } }

end Swzigzag

open Swzigzag

/-- The properties that the attempt hands to the driver. -/
def handed (fe : DvbFrontend ρ) : DtvFrontendProperties ρ :=
  { fe.dtvPropertyCache with
    frequency := fe.dtvPropertyCache.frequency + (attempt (autoinversion fe) fe.fepriv).lnbDrift
    inversion :=
      if autoinversion fe then (attempt (autoinversion fe) fe.fepriv).inversion else fe.dtvPropertyCache.inversion }

/-- In SCAN mode the frontend is set when asked and left alone. -/
def oneshot (z : Swzigzag ρ) : Swzigzag ρ :=
  if z.is FESTATE_RETUNE then
    if (z.fe.setFrontend.map Prod.snd).getD 0 < 0 then z.setState FESTATE_ERROR else z.setState FESTATE_TUNED
  else z

/-- The correct inversion is known with the lock. -/
def locked (z : Swzigzag ρ) : Swzigzag ρ :=
  let z := z.setState FESTATE_TUNED
  if autoinversion z.fe then
    { z with
      fe := { z.fe with dtvPropertyCache := { z.fe.dtvPropertyCache with inversion := z.fe.fepriv.inversion } } }
  else z

def lostLock (z : Swzigzag ρ) : Swzigzag ρ :=
  { z with
    fe :=
      { z.fe with
        fepriv := { z.fe.fepriv with state := FESTATE_ZIGZAG_FAST, startedAutoStep := z.fe.fepriv.autoStep } }
    checkWrapped := false }

/-- Everything is set up for a brand new scan. -/
def brandNew (z : Swzigzag ρ) : Swzigzag ρ :=
  { z with
    fe :=
      { z.fe with
        fepriv := { z.fe.fepriv with lnbDrift := 0, autoStep := 0, autoSubStep := 0, startedAutoStep := 0 } }
    checkWrapped := false }

/-- One trial of the fast zigzag. -/
def fastZigzag (z : Swzigzag ρ) : Swzigzag ρ × Progress ρ :=
  match dvbFrontendSwzigzagAutotune z.fe z.checkWrapped with
  | none => (z, .idle)
  | some (retval, fe) =>
    if retval < 0 then ({ z with fe := fe }, .failed)
    else if retval ≠ 0 then
      let fepriv := { fe.fepriv with state := FESTATE_SEARCHING_SLOW, startedAutoStep := fe.fepriv.autoStep }
      ({ z with fe := { fe with fepriv := fepriv } }, .completed)
    else
      let z' := { z with fe := fe, checkWrapped := true }
      (if z'.is FESTATE_RETUNE then z'.setState FESTATE_TUNING_FAST else z', .set (handed z.fe))

def slowZigzag (z : Swzigzag ρ) : Swzigzag ρ :=
  if z.is FESTATE_SEARCHING_SLOW then
    match dvbFrontendSwzigzagAutotune z.fe false with
    | none => z
    | some (_, fe) => { z with fe := fe }
  else z

/-- The fast and the slow zigzag; an error and the end of the fast one leave the function. -/
def zigzags (z : Swzigzag ρ) : Swzigzag ρ × Progress ρ :=
  if z.is FESTATE_SEARCHING_FAST ∨ z.is FESTATE_RETUNE then
    match fastZigzag z with
    | (z', .set p) => (slowZigzag z', .set p)
    | r => r
  else (slowZigzag z, .idle)

/-- The function behind the test of the lock, which may have begun a search. -/
def behindLock (z : Swzigzag ρ) (begun : Bool) : Swzigzag ρ × Bool × Progress ρ :=
  if z.is FESTATE_LOSTLOCK ∧ z.fe.caps &&& FE_CAN_RECOVER ≠ 0 ∧ z.fe.fepriv.maxDrift = 0 then (z, begun, .idle)
  else if z.is FESTATE_DISEQC then (z, begun, .idle)
  else if z.is FESTATE_RETUNE then
    let r := zigzags (brandNew z)
    (r.1, true, r.2)
  else
    let r := zigzags z
    (r.1, begun, r.2)

/-- The status that the iteration goes by has a lock. -/
def hasLock (z : Swzigzag ρ) (answers : Answers ρ) : Bool :=
  let s := if z.is FESTATE_RETUNE then 0 else answers.readStatus.getD 0
  s &&& FE_HAS_LOCK ≠ 0

/-- `dvb_frontend_swzigzag`, and whether it has begun a fast search and what it has done to it. -/
def dvbFrontendSwzigzag (z : Swzigzag ρ) (answers : Answers ρ) : Swzigzag ρ × Bool × Progress ρ :=
  let z := { z with fe := { z.fe with setFrontend := answers.setFrontend } }
  if z.is FESTATE_IDLE then (z, false, .idle)
  else if z.tuneModeFlags &&& FE_TUNE_MODE_ONESHOT ≠ 0 then (oneshot z, false, .idle)
  else if z.is FESTATE_WAITFORLOCK ∧ hasLock z answers then (locked z, false, .idle)
  else if z.is FESTATE_TUNED then
    if hasLock z answers then (z, false, .idle) else behindLock (lostLock z) true
  else behindLock z false

/-! ## Runs -/

/-- A tune request: the properties, and the settings that go with them. -/
structure TuneRequest (ρ : Type*) where
  properties : DtvFrontendProperties ρ
  maxDrift : UInt32
  stepSize : UInt32

/-- The state that a tune request leaves, as `dtv_set_frontend` does. -/
def dtvSetFrontend (z : Swzigzag ρ) (r : TuneRequest ρ) : Swzigzag ρ :=
  { z with
    fe :=
      { z.fe with
        fepriv := { z.fe.fepriv with state := FESTATE_RETUNE, maxDrift := r.maxDrift, stepSize := r.stepSize }
        dtvPropertyCache := r.properties } }

/-- What happens to the frontend: an iteration of the loop, a tune request, a DiSEqC command, another tune mode. -/
inductive FrontendEvent (ρ : Type*) where
  | iteration (answers : Answers ρ)
  | tune (r : TuneRequest ρ)
  | diseqc
  | tuneMode (flags : UInt32)

/-- The search, and the attempts since it began. -/
structure Watch (ρ : Type*) where
  z : Swzigzag ρ
  tried : List (DtvFrontendProperties ρ)

def Progress.attempts : Progress ρ → List (DtvFrontendProperties ρ)
  | .set p => [p]
  | _ => []

def Watch.step (w : Watch ρ) : FrontendEvent ρ → Option (Watch ρ)
  | .iteration answers =>
    let r := dvbFrontendSwzigzag w.z answers
    some ⟨r.1, (if r.2.1 then [] else w.tried) ++ r.2.2.attempts⟩
  | .tune r => some ⟨dtvSetFrontend w.z r, w.tried⟩
  | .diseqc => some ⟨w.z.setState FESTATE_DISEQC, w.tried⟩
  | .tuneMode flags => some ⟨{ w.z with tuneModeFlags := flags }, w.tried⟩

end Frontend
end TbsMedia
