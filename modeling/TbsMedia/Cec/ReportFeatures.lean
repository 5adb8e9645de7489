import TbsMedia.Cec.Mode
import TbsMedia.Cec.Operands
import TbsMedia.Lib.Terminated

/-!
# Report Features

A device tells its RC profile and its device features in two sequences of bytes, each of which ends with the
first byte that lacks `CEC_OP_FEAT_EXT`.

* `cecSLogAddrs`: `__cec_s_log_addrs`, which admits twelve bytes of features that hold both sequences.
* `cecFillMsgReportFeatures`: `cec_fill_msg_report_features`, which puts them into the message.
* `cecOpsReportFeatures`: `cec_ops_report_features`, which finds them again.
* `reportFeatures_iff`: what is configured is what is read.  But the reader takes the end of the first sequence for
  the end of the second one, and so returns a second sequence that does not end.
-/

namespace TbsMedia
namespace Cec

open Lib

/-! ## The addresses that a device asks for -/

def ENODEV : ℤ := 19

abbrev CEC_MAX_LOG_ADDRS : ℕ := 4
abbrev FEATURE_SZ : ℕ := 12

def CEC_LOG_ADDR_INVALID : UInt8 := 0xff
def CEC_VENDOR_ID_NONE : UInt32 := 0xffffffff
def CEC_LOG_ADDRS_FL_CDC_ONLY : UInt32 := 4
def CEC_LOG_ADDR_TYPE_TV : UInt8 := 0
def CEC_LOG_ADDR_TYPE_RECORD : UInt8 := 1
def CEC_LOG_ADDR_TYPE_PLAYBACK : UInt8 := 3
def CEC_LOG_ADDR_TYPE_AUDIOSYSTEM : UInt8 := 4
def CEC_LOG_ADDR_TYPE_UNREGISTERED : UInt8 := 6
def CEC_OP_PRIM_DEVTYPE_SWITCH : UInt8 := 6
def CEC_OP_PRIM_DEVTYPE_PROCESSOR : UInt8 := 7
def CEC_OP_FEAT_EXT : UInt8 := 0x80

/-- A `struct cec_log_addrs`. -/
structure LogAddrs where
  logAddr : Fin CEC_MAX_LOG_ADDRS → UInt8
  logAddrMask : UInt16
  cecVersion : UInt8
  numLogAddrs : UInt8
  vendorId : UInt32
  flags : UInt32
  osdName : Fin 15 → UInt8
  primaryDeviceType : Fin CEC_MAX_LOG_ADDRS → UInt8
  logAddrType : Fin CEC_MAX_LOG_ADDRS → UInt8
  allDeviceTypes : Fin CEC_MAX_LOG_ADDRS → UInt8
  features : Fin CEC_MAX_LOG_ADDRS → Fin FEATURE_SZ → UInt8

/-- The adapter, as far as its addresses are concerned.  `cec_allocate_adapter` bounds their number. -/
structure LogAddrAdap where
  unregistered : Bool
  availableLogAddrs : ℕ
  available_le : availableLogAddrs ≤ CEC_MAX_LOG_ADDRS
  logAddrs : LogAddrs

/-- A device without addresses. -/
def clearLogAddrs (las : LogAddrs) : LogAddrs :=
  { las with
    logAddrMask := 0
    numLogAddrs := 0
    logAddr := fun _ => CEC_LOG_ADDR_INVALID
    osdName := Function.update las.osdName 0 0
    vendorId := CEC_VENDOR_ID_NONE
    cecVersion := CEC_OP_CEC_VERSION_2_0 }

/-- The fields that a CDC-Only device does not choose. -/
def sanitizeCdcOnly (las : LogAddrs) : LogAddrs :=
  if las.flags &&& CEC_LOG_ADDRS_FL_CDC_ONLY ≠ 0 then
    { las with
      numLogAddrs := 1
      osdName := Function.update las.osdName 0 0
      vendorId := CEC_VENDOR_ID_NONE
      logAddrType := Function.update las.logAddrType 0 CEC_LOG_ADDR_TYPE_UNREGISTERED
      primaryDeviceType := Function.update las.primaryDeviceType 0 CEC_OP_PRIM_DEVTYPE_SWITCH
      allDeviceTypes := Function.update las.allDeviceTypes 0 0
      features := Function.update las.features 0
        (Function.update (Function.update (las.features 0) 0 0) 1 0) }
  else las

/-- The loop over the features: how far it comes, and `op_is_dev_features`. -/
def scanFeatures : Bool → List UInt8 → ℕ × Bool
  | op, [] => (0, op)
  | op, f :: fs =>
    if f &&& 0x80 = 0 then
      if op then (0, op) else ((scanFeatures true fs).1 + 1, (scanFeatures true fs).2)
    else ((scanFeatures op fs).1 + 1, (scanFeatures op fs).2)

/-- `1 << log_addr_type` in the mask of the types. -/
def typeBit (type : UInt8) : ℕ := 1 <<< type.toNat % 65536

/-- The checks of one address, with the mask of the types so far. -/
def checkLogAddr (mask : ℕ) (las : LogAddrs) (i : Fin CEC_MAX_LOG_ADDRS) : Except ℤ (ℕ × LogAddrs) :=
  let bit := typeBit (las.logAddrType i)
  let mask' := mask ||| bit
  let (j, op) := scanFeatures false (List.ofFn (las.features i))
  if mask &&& bit ≠ 0 then .error EINVAL
  else if mask' &&& typeBit CEC_LOG_ADDR_TYPE_RECORD ≠ 0 ∧ mask' &&& typeBit CEC_LOG_ADDR_TYPE_PLAYBACK ≠ 0 then
    .error EINVAL
  else if CEC_OP_PRIM_DEVTYPE_PROCESSOR < las.primaryDeviceType i then .error EINVAL
  else if las.primaryDeviceType i = 2 then .error EINVAL
  else if CEC_LOG_ADDR_TYPE_UNREGISTERED < las.logAddrType i then .error EINVAL
  else if op = false ∨ j = FEATURE_SZ then .error EINVAL
  else
    .ok (mask',
      { las with
        logAddr := Function.update las.logAddr i CEC_LOG_ADDR_INVALID
        features := Function.update las.features i fun k => if k.val ≤ j then las.features i k else 0 })

/-- The checks of the addresses, one after the other. -/
def checkLogAddrs : List (Fin CEC_MAX_LOG_ADDRS) → ℕ → LogAddrs → Except ℤ (ℕ × LogAddrs)
  | [], mask, las => .ok (mask, las)
  | i :: rest, mask, las =>
    match checkLogAddr mask las i with
    | .error e => .error e
    | .ok (mask', las') => checkLogAddrs rest mask' las'

/-- The addresses that are asked for. -/
def LogAddrs.claimed (las : LogAddrs) : List (Fin CEC_MAX_LOG_ADDRS) :=
  (List.finRange CEC_MAX_LOG_ADDRS).filter fun i => i.val < las.numLogAddrs.toNat

/-- The rule of CEC 2.0 for more than one address. -/
def tooManyFor20 (las : LogAddrs) (mask : ℕ) : Bool :=
  CEC_OP_CEC_VERSION_2_0 ≤ las.cecVersion ∧
    (2 < las.numLogAddrs ∨
      las.numLogAddrs = 2 ∧
        (mask &&& (typeBit CEC_LOG_ADDR_TYPE_AUDIOSYSTEM ||| typeBit CEC_LOG_ADDR_TYPE_TV) = 0 ∨
          mask &&& (typeBit CEC_LOG_ADDR_TYPE_PLAYBACK ||| typeBit CEC_LOG_ADDR_TYPE_RECORD) = 0))

/-- The addresses that are not asked for are cleared. -/
def zeroUnused (las : LogAddrs) : LogAddrs :=
  let used := fun i : Fin CEC_MAX_LOG_ADDRS => i.val < las.numLogAddrs.toNat
  { las with
    primaryDeviceType := fun i => if used i then las.primaryDeviceType i else 0
    logAddrType := fun i => if used i then las.logAddrType i else 0
    allDeviceTypes := fun i => if used i then las.allDeviceTypes i else 0
    features := fun i => if used i then las.features i else fun _ => 0 }

/-- `__cec_s_log_addrs`: an error, or the addresses of the adapter. -/
def cecSLogAddrs (adap : LogAddrAdap) (req : Option LogAddrs) : Except ℤ LogAddrs :=
  if adap.unregistered then .error ENODEV
  else
    match req with
    | none => .ok (clearLogAddrs adap.logAddrs)
    | some req =>
      if req.numLogAddrs = 0 then .ok (clearLogAddrs adap.logAddrs)
      else
        let las := sanitizeCdcOnly req
        let las := { las with osdName := Function.update las.osdName 14 0 }
        if adap.availableLogAddrs < las.numLogAddrs.toNat then .error EINVAL
        else if las.vendorId ≠ CEC_VENDOR_ID_NONE ∧ las.vendorId &&& 0xff000000 ≠ 0 then .error EINVAL
        else if las.cecVersion ≠ CEC_OP_CEC_VERSION_1_4 ∧ las.cecVersion ≠ CEC_OP_CEC_VERSION_2_0 then .error EINVAL
        else if 1 < las.numLogAddrs ∧
            las.claimed.any (fun i => las.logAddrType i = CEC_LOG_ADDR_TYPE_UNREGISTERED) then .error EINVAL
        else
          match checkLogAddrs las.claimed 0 las with
          | .error e => .error e
          | .ok (mask, las) =>
            if tooManyFor20 las mask then .error EINVAL
            else .ok { zeroUnused las with logAddrMask := adap.logAddrs.logAddrMask }

/-! ## The message -/

/-- The loop that puts the features behind the message. -/
def pushFeatures : Bool → List UInt8 → CecMsg → CecMsg
  | _, [], msg => msg
  | op, f :: fs, msg =>
    if f &&& CEC_OP_FEAT_EXT = 0 then
      if op then msg.push f else pushFeatures true fs (msg.push f)
    else pushFeatures op fs (msg.push f)

/-- `cec_fill_msg_report_features`. -/
def cecFillMsgReportFeatures (las : LogAddrs) (msg : CecMsg) (i : Fin CEC_MAX_LOG_ADDRS) : CecMsg :=
  pushFeatures false (List.ofFn (las.features i))
    ((msg.write 0 [las.logAddr i <<< 4 ||| 0x0f, CEC_MSG_REPORT_FEATURES, las.cecVersion,
      las.allDeviceTypes i]).setLen 4)

/-- The byte at a pointer into the message. -/
def CecMsg.deref (msg : CecMsg) (p : ℕ) : UInt8 :=
  msg.msg (Fin.ofNat CEC_MAX_MSG_SIZE p)

/-- The byte at the pointer says that another one follows. -/
def CecMsg.Ext (msg : CecMsg) (p : ℕ) : Prop :=
  msg.deref p &&& CEC_OP_FEAT_EXT ≠ 0

instance (msg : CecMsg) (p : ℕ) : Decidable (msg.Ext p) :=
  inferInstanceAs (Decidable (_ ≠ _))

/-- `while (p < limit && (*p & CEC_OP_FEAT_EXT)) p++`, with `limit - p` bytes left. -/
def skipExt (msg : CecMsg) : ℕ → ℕ → ℕ
  | 0, p => p
  | left + 1, p => if msg.Ext p then skipExt msg left (p + 1) else p

/-- What `cec_ops_report_features` returns; the pointers are indices into the message. -/
structure ReportFeatures where
  cecVersion : UInt8
  allDeviceTypes : UInt8
  rcProfile : Option ℕ
  devFeatures : Option ℕ
deriving DecidableEq

/-- `cec_ops_report_features`. -/
def cecOpsReportFeatures (msg : CecMsg) : ReportFeatures :=
  let p := skipExt msg 10 4
  let devFeatures := if ¬ msg.Ext p then some (p + 1) else none
  let p := if ¬ msg.Ext p then skipExt msg (15 - p) p else p
  if msg.Ext p then ⟨msg.msg 2, msg.msg 3, none, none⟩
  else ⟨msg.msg 2, msg.msg 3, some 4, devFeatures⟩

/-! ## What is to come back -/

/-- A byte of a sequence that is not its last one. -/
def More (f : UInt8) : Prop := f &&& CEC_OP_FEAT_EXT ≠ 0

instance (f : UInt8) : Decidable (More f) :=
  inferInstanceAs (Decidable (_ ≠ _))

/-- The two sequences of twelve bytes of features. -/
def HoldsFeatures (features : Fin FEATURE_SZ → UInt8) (rcProfile devFeatures : List UInt8) : Prop :=
  Terminated More rcProfile ∧ Terminated More devFeatures ∧
    ∃ rest, List.ofFn features = rcProfile ++ (devFeatures ++ rest)

/-- The pointer leads to the sequence, which ends inside the message. -/
def CecMsg.HasSequence (msg : CecMsg) (p : ℕ) (s : List UInt8) : Prop :=
  Terminated More s ∧ p + s.length ≤ CEC_MAX_MSG_SIZE ∧ msg.read p s.length = s

/-- The message has the two sequences behind its header and nothing else, and they are read as they are. -/
def ReportsFeatures (msg : CecMsg) (rcProfile devFeatures : List UInt8) : Prop :=
  msg.len = 4 + rcProfile.length + devFeatures.length ∧ msg.len ≤ CEC_MAX_MSG_SIZE ∧
    ∃ p q, (cecOpsReportFeatures msg).rcProfile = some p ∧ (cecOpsReportFeatures msg).devFeatures = some q ∧
      msg.HasSequence p rcProfile ∧ msg.HasSequence q devFeatures

/-- The pointers that are returned lead to sequences that end. -/
def ReadsSequences (msg : CecMsg) : Prop :=
  ∀ p q, (cecOpsReportFeatures msg).rcProfile = some p → (cecOpsReportFeatures msg).devFeatures = some q →
    (∃ s, msg.HasSequence p s) ∧ ∃ s, msg.HasSequence q s

/-- No byte of an RC profile that leaves room for device features is the only one without an extension. -/
def EndsTwice (msg : CecMsg) : Prop :=
  ∀ k, 4 ≤ k → k ≤ 14 → ¬ msg.Ext k → ∃ e, 4 ≤ e ∧ e ≤ 15 ∧ e ≠ k ∧ ¬ msg.Ext e

/-! ## The twelve bytes of features -/

theorem not_more_iff {f : UInt8} : ¬ More f ↔ f &&& CEC_OP_FEAT_EXT = 0 :=
  not_not

namespace HoldsFeatures

variable {f g : Fin FEATURE_SZ → UInt8} {rcProfile devFeatures : List UInt8}

theorem length_le (h : HoldsFeatures f rcProfile devFeatures) : rcProfile.length + devFeatures.length ≤ FEATURE_SZ := by
  obtain ⟨_, _, rest, hf⟩ := h
  have hlen := congrArg List.length hf
  rw [List.length_ofFn, List.length_append, List.length_append] at hlen
  omega

/-- Only the bytes of the two sequences count. -/
theorem congr (h : HoldsFeatures f rcProfile devFeatures)
    (hfg : ∀ k : Fin FEATURE_SZ, k.val < rcProfile.length + devFeatures.length → g k = f k) :
    HoldsFeatures g rcProfile devFeatures := by
  obtain ⟨hrc, hdev, rest, hf⟩ := h
  refine ⟨hrc, hdev, (List.ofFn g).drop (rcProfile.length + devFeatures.length), ?_⟩
  have htake : (List.ofFn g).take (rcProfile.length + devFeatures.length) = rcProfile ++ devFeatures := by
    have hprefix : (List.ofFn f).take (rcProfile.length + devFeatures.length) = rcProfile ++ devFeatures := by
      rw [hf, ← List.append_assoc, ← List.length_append, List.take_left']
      rfl
    rw [← hprefix]
    refine List.ext_getElem (by rw [List.length_take, List.length_take, List.length_ofFn, List.length_ofFn])
      fun k hk _ => ?_
    rw [List.getElem_take, List.getElem_take, List.getElem_ofFn, List.getElem_ofFn]
    rw [List.length_take] at hk
    exact hfg _ (hk.trans_le (Nat.min_le_left _ _))
  rw [← List.append_assoc, ← htake, List.take_append_drop]

/-- The two sequences are determined. -/
theorem unique (h : HoldsFeatures f rcProfile devFeatures) {rcProfile' devFeatures' : List UInt8}
    (h' : HoldsFeatures f rcProfile' devFeatures') : rcProfile = rcProfile' ∧ devFeatures = devFeatures' := by
  obtain ⟨hrc, hdev, rest, hf⟩ := h
  obtain ⟨hrc', hdev', rest', hf'⟩ := h'
  obtain ⟨rfl, hbehind⟩ := hrc.append_eq hrc' (hf.symm.trans hf')
  exact ⟨rfl, (hdev.append_eq hdev' hbehind).1⟩

end HoldsFeatures

theorem scanFeatures_le (op : Bool) (fs : List UInt8) : (scanFeatures op fs).1 ≤ fs.length := by
  induction fs generalizing op with
  | nil => exact Nat.le_refl 0
  | cons f fs ih =>
    rw [scanFeatures]
    split_ifs
    · exact Nat.zero_le _
    · exact Nat.succ_le_succ (ih true)
    · exact Nat.succ_le_succ (ih op)

/-- The second sequence is scanned up to its end. -/
theorem scanFeatures_true (fs : List UInt8) :
    (scanFeatures true fs).2 = true ∧
      ((scanFeatures true fs).1 < fs.length →
        ∃ dev rest, fs = dev ++ rest ∧ Terminated More dev ∧ dev.length = (scanFeatures true fs).1 + 1) := by
  induction fs with
  | nil => exact ⟨rfl, fun h => absurd h (Nat.lt_irrefl 0)⟩
  | cons f fs ih =>
    rw [scanFeatures]
    by_cases hend : f &&& 0x80 = 0
    · rw [if_pos hend, if_pos rfl]
      exact ⟨rfl, fun _ => ⟨[f], fs, rfl, .last (not_more_iff.mpr hend), rfl⟩⟩
    · rw [if_neg hend]
      refine ⟨ih.1, fun hlt => ?_⟩
      obtain ⟨dev, rest, hfs, hdev, hlen⟩ := ih.2 (Nat.lt_of_succ_lt_succ hlt)
      exact ⟨f :: dev, rest, congrArg (f :: ·) hfs, .cons hend hdev, congrArg (· + 1) hlen⟩

/-- Features that pass the checks hold two sequences, and are scanned to the end of the second one. -/
theorem scanFeatures_false (fs : List UInt8) (hop : (scanFeatures false fs).2 ≠ false)
    (hlt : (scanFeatures false fs).1 < fs.length) :
    ∃ rc dev rest, fs = rc ++ (dev ++ rest) ∧ Terminated More rc ∧ Terminated More dev ∧
      rc.length + dev.length = (scanFeatures false fs).1 + 1 := by
  induction fs with
  | nil => exact absurd hlt (Nat.lt_irrefl 0)
  | cons f fs ih =>
    rw [scanFeatures] at hop hlt ⊢
    by_cases hend : f &&& 0x80 = 0
    · rw [if_pos hend, if_neg Bool.false_ne_true] at hlt ⊢
      obtain ⟨dev, rest, hfs, hdev, hlen⟩ := (scanFeatures_true fs).2 (Nat.lt_of_succ_lt_succ hlt)
      refine ⟨[f], dev, rest, congrArg (f :: ·) hfs, .last (not_more_iff.mpr hend), hdev, ?_⟩
      show 1 + dev.length = (scanFeatures true fs).1 + 1 + 1
      omega
    · rw [if_neg hend] at hop hlt ⊢
      obtain ⟨rc, dev, rest, hfs, hrc, hdev, hlen⟩ := ih hop (Nat.lt_of_succ_lt_succ hlt)
      refine ⟨f :: rc, dev, rest, congrArg (f :: ·) hfs, .cons hend hrc, hdev, ?_⟩
      show rc.length + 1 + dev.length = (scanFeatures false fs).1 + 1 + 1
      omega

/-! ## The checks keep the features -/

/-- An address that passes its checks holds two sequences, and keeps them. -/
theorem checkLogAddr_ok {mask mask' : ℕ} {las las' : LogAddrs} {i : Fin CEC_MAX_LOG_ADDRS}
    (h : checkLogAddr mask las i = .ok (mask', las')) :
    las'.numLogAddrs = las.numLogAddrs ∧
    (∃ rc dev, HoldsFeatures (las.features i) rc dev) ∧
      ∀ k rc dev, HoldsFeatures (las'.features k) rc dev ↔ HoldsFeatures (las.features k) rc dev := by
  unfold checkLogAddr at h
  dsimp only at h
  split_ifs at h with _ _ _ _ _ hscan
  rw [not_or] at hscan
  obtain ⟨rfl, rfl⟩ : _ ∧ _ := Prod.mk.inj (Except.ok.inj h)
  have hlt : (scanFeatures false (List.ofFn (las.features i))).1 < (List.ofFn (las.features i)).length := by
    have hle := scanFeatures_le false (List.ofFn (las.features i))
    rw [List.length_ofFn] at hle ⊢
    exact Nat.lt_of_le_of_ne hle hscan.2
  obtain ⟨rc, dev, rest, hfs, hrc, hdev, hlen⟩ := scanFeatures_false _ hscan.1 hlt
  have hholds : HoldsFeatures (las.features i) rc dev := ⟨hrc, hdev, rest, hfs⟩
  have hkept : HoldsFeatures (fun k : Fin FEATURE_SZ =>
      if k.val ≤ (scanFeatures false (List.ofFn (las.features i))).1 then las.features i k else 0) rc dev :=
    hholds.congr fun n hn => if_pos (by omega)
  refine ⟨rfl, ⟨rc, dev, hholds⟩, fun k rc' dev' => ?_⟩
  by_cases hki : k = i
  · subst hki
    show HoldsFeatures (Function.update las.features k _ k) rc' dev' ↔ _
    rw [Function.update_self]
    constructor
    · intro h'
      obtain ⟨rfl, rfl⟩ := hkept.unique h'
      exact hholds
    · intro h'
      obtain ⟨rfl, rfl⟩ := hholds.unique h'
      exact hkept
  · show HoldsFeatures (Function.update las.features i _ k) rc' dev' ↔ _
    rw [Function.update_of_ne hki]

/-- Addresses that pass their checks hold two sequences each, and keep them. -/
theorem checkLogAddrs_ok {is : List (Fin CEC_MAX_LOG_ADDRS)} {mask mask' : ℕ} {las las' : LogAddrs}
    (h : checkLogAddrs is mask las = .ok (mask', las')) :
    las'.numLogAddrs = las.numLogAddrs ∧
    (∀ i ∈ is, ∃ rc dev, HoldsFeatures (las.features i) rc dev) ∧
      ∀ k rc dev, HoldsFeatures (las'.features k) rc dev ↔ HoldsFeatures (las.features k) rc dev := by
  induction is generalizing mask las with
  | nil =>
    obtain ⟨rfl, rfl⟩ : _ ∧ _ := Prod.mk.inj (Except.ok.inj h)
    exact ⟨rfl, fun i hi => absurd hi List.not_mem_nil, fun _ _ _ => Iff.rfl⟩
  | cons i is ih =>
    rw [checkLogAddrs] at h
    rcases hstep : checkLogAddr mask las i with e | ⟨mask₁, las₁⟩
    · rw [hstep] at h
      exact absurd h (by simp)
    · rw [hstep] at h
      obtain ⟨hnum, hheld, hkept⟩ := checkLogAddr_ok hstep
      obtain ⟨hnum', hheld', hkept'⟩ := ih h
      refine ⟨hnum'.trans hnum, fun k hk => ?_, fun k rc dev => (hkept' k rc dev).trans (hkept k rc dev)⟩
      rcases List.mem_cons.mp hk with rfl | hk
      · exact hheld
      · obtain ⟨rc, dev, hholds⟩ := hheld' k hk
        exact ⟨rc, dev, (hkept k rc dev).mp hholds⟩

/-- Every address that the adapter takes keeps the two sequences it was asked for with. -/
theorem cecSLogAddrs_ok {adap : LogAddrAdap} {req las : LogAddrs} (h : cecSLogAddrs adap (some req) = .ok las)
    {i : Fin CEC_MAX_LOG_ADDRS} (hi : i.val < las.numLogAddrs.toNat) :
    ∃ rc dev, HoldsFeatures ((sanitizeCdcOnly req).features i) rc dev ∧ HoldsFeatures (las.features i) rc dev := by
  unfold cecSLogAddrs at h
  dsimp only at h
  split_ifs at h
  · rw [← Except.ok.inj h] at hi
    exact absurd hi (Nat.not_lt_zero _)
  · rcases hcheck : checkLogAddrs _ _ _ with e | ⟨mask, las₁⟩
    · rw [hcheck] at h
      exact absurd h (by simp)
    · rw [hcheck] at h
      dsimp only at h
      split_ifs at h
      obtain rfl := Except.ok.inj h
      obtain ⟨hnum, hheld, hkept⟩ := checkLogAddrs_ok hcheck
      replace hi : i.val < las₁.numLogAddrs.toNat := hi
      rw [hnum] at hi
      obtain ⟨rc, dev, hholds⟩ := hheld i
        (List.mem_filter.mpr ⟨List.mem_finRange i, decide_eq_true hi⟩)
      refine ⟨rc, dev, hholds, ?_⟩
      show HoldsFeatures (if i.val < las₁.numLogAddrs.toNat then las₁.features i else fun _ => 0) rc dev
      rw [hnum, if_pos hi]
      exact (hkept i rc dev).mpr hholds

/-! ## Writing the sequences -/

/-- The features are put into the message up to the end of the second sequence. -/
theorem pushFeatures_true {dev : List UInt8} (hdev : Terminated More dev) (rest : List UInt8) (m : CecMsg) (i : ℕ)
    (bs : List UInt8) :
    pushFeatures true (dev ++ rest) ((m.write i bs).setLen (i + bs.length)) =
      (m.write i (bs ++ dev)).setLen (i + bs.length + dev.length) := by
  induction hdev generalizing bs with
  | last hlast =>
    rw [List.singleton_append, pushFeatures, if_pos (not_more_iff.mp hlast), if_pos rfl, CecMsg.push_write]
    rfl
  | @cons f s hmore hs ih =>
    rw [List.cons_append, pushFeatures, if_neg hmore, CecMsg.push_write]
    have hrest := ih (bs ++ [f])
    rw [List.length_append, List.append_assoc] at hrest
    rw [List.length_cons, Nat.add_comm s.length 1, ← Nat.add_assoc]
    exact hrest

/-- The features are put into the message. -/
theorem pushFeatures_false {rc dev : List UInt8} (hrc : Terminated More rc) (hdev : Terminated More dev)
    (rest : List UInt8) (m : CecMsg) (i : ℕ) (bs : List UInt8) :
    pushFeatures false (rc ++ (dev ++ rest)) ((m.write i bs).setLen (i + bs.length)) =
      (m.write i (bs ++ (rc ++ dev))).setLen (i + bs.length + rc.length + dev.length) := by
  induction hrc generalizing bs with
  | @last f hlast =>
    rw [List.singleton_append, pushFeatures, if_pos (not_more_iff.mp hlast), if_neg Bool.false_ne_true,
      CecMsg.push_write]
    have hrest := pushFeatures_true hdev rest m i (bs ++ [f])
    rw [List.length_append, List.append_assoc] at hrest
    exact hrest
  | @cons f s hmore hs ih =>
    rw [List.cons_append, pushFeatures, if_neg hmore, CecMsg.push_write]
    have hrest := ih (bs ++ [f])
    rw [List.length_append, List.append_assoc] at hrest
    rw [List.length_cons, Nat.add_comm s.length 1, ← Nat.add_assoc]
    exact hrest

/-! ## Reading the sequences -/

namespace CecMsg

theorem read_succ (msg : CecMsg) (p n : ℕ) : msg.read p (n + 1) = msg.deref p :: msg.read (p + 1) n := by
  rw [read, read, List.range_succ_eq_map, List.map_cons, List.map_map]
  refine congrArg (_ :: ·) (List.map_congr_left fun k _ => ?_)
  show msg.msg (Fin.ofNat CEC_MAX_MSG_SIZE (p + (k + 1))) = _
  rw [Nat.add_comm k 1, ← Nat.add_assoc]

theorem skipExt_end {msg : CecMsg} {p : ℕ} (hend : ¬ msg.Ext p) (left : ℕ) : skipExt msg left p = p := by
  cases left with
  | zero => rfl
  | succ left => exact if_neg hend

/-- The pointer stops at the end of a sequence that ends within its reach. -/
theorem skipExt_sequence {msg : CecMsg} {s : List UInt8} (hs : Terminated More s) {p left : ℕ}
    (hread : msg.read p s.length = s) (hleft : s.length ≤ left + 1) :
    skipExt msg left p + 1 = p + s.length ∧ ¬ msg.Ext (skipExt msg left p) := by
  induction hs generalizing p left with
  | @last f hlast =>
    have hend : ¬ msg.Ext p := by
      rw [Ext, (List.cons.inj ((read_succ msg p 0).symm.trans hread)).1]
      exact hlast
    rw [skipExt_end hend]
    exact ⟨rfl, hend⟩
  | @cons f s hmore hs ih =>
    rw [List.length_cons, read_succ] at hread
    obtain ⟨hf, hread⟩ := List.cons.inj hread
    have hext : msg.Ext p := by
      rw [Ext, hf]
      exact hmore
    have hpos := hs.length_pos
    rw [List.length_cons] at hleft ⊢
    obtain ⟨left, rfl⟩ : ∃ n, left = n + 1 := ⟨left - 1, by omega⟩
    rw [skipExt, if_pos hext]
    obtain ⟨hstop, hend⟩ := @ih (p + 1) left hread (by omega)
    exact ⟨by omega, hend⟩

/-- The pointer passes bytes with an extension only, and stops at one without, or at its limit. -/
theorem skipExt_spec (msg : CecMsg) (left p : ℕ) :
    p ≤ skipExt msg left p ∧ skipExt msg left p ≤ p + left ∧
      (∀ k, p ≤ k → k < skipExt msg left p → msg.Ext k) ∧
      (skipExt msg left p < p + left → ¬ msg.Ext (skipExt msg left p)) := by
  induction left generalizing p with
  | zero =>
    exact ⟨Nat.le_refl p, Nat.le_refl p, fun k h h' => absurd h (Nat.not_le.mpr h'),
      fun h => absurd h (Nat.lt_irrefl p)⟩
  | succ left ih =>
    rw [skipExt]
    split_ifs with hext
    · obtain ⟨hge, hle, hpassed, hend⟩ := ih (p + 1)
      refine ⟨by omega, by omega, fun k hk hlt => ?_, fun h => hend (by omega)⟩
      rcases Nat.eq_or_lt_of_le hk with rfl | hk
      · exact hext
      · exact hpassed k hk hlt
    · exact ⟨Nat.le_refl p, Nat.le_add_right p _, fun k h h' => absurd h (Nat.not_le.mpr h'), fun _ => hext⟩

/-- Up to a byte without an extension there is a sequence. -/
theorem exists_sequence {msg : CecMsg} {e : ℕ} (he : e < CEC_MAX_MSG_SIZE) (hend : ¬ msg.Ext e) (d : ℕ) {p : ℕ}
    (hp : p + d = e) : ∃ s, msg.HasSequence p s := by
  have hone : ∀ q, q ≤ e → ¬ msg.Ext q → msg.HasSequence q [msg.deref q] := fun q hq hlast =>
    ⟨.last hlast, Nat.succ_le_of_lt (hq.trans_lt he), read_succ msg q 0⟩
  induction d generalizing p with
  | zero =>
    obtain rfl : p = e := hp
    exact ⟨_, hone p (Nat.le_refl p) hend⟩
  | succ d ih =>
    by_cases hext : msg.Ext p
    · obtain ⟨s, hs, hfits, hread⟩ := @ih (p + 1) (by omega)
      refine ⟨msg.deref p :: s, .cons hext hs, ?_, ?_⟩
      · rw [List.length_cons]
        omega
      · rw [List.length_cons, read_succ, hread]
    · exact ⟨_, hone p (by omega) hext⟩

/-- A pointer leads to a sequence if one of the bytes from there on has no extension. -/
theorem hasSequence_iff {msg : CecMsg} {p : ℕ} :
    (∃ s, msg.HasSequence p s) ↔ ∃ e, p ≤ e ∧ e < CEC_MAX_MSG_SIZE ∧ ¬ msg.Ext e := by
  constructor
  · rintro ⟨s, hs, hfits, hread⟩
    have hpos := hs.length_pos
    obtain ⟨hstop, hend⟩ := skipExt_sequence hs hread (Nat.le_add_right s.length 1)
    exact ⟨_, by omega, by omega, hend⟩
  · rintro ⟨e, hge, he, hend⟩
    exact exists_sequence he hend (e - p) (by omega)

end CecMsg

/-- Where the RC profile ends within its reach, the device features are taken to be behind it. -/
theorem cecOpsReportFeatures_eq (msg : CecMsg) :
    ((cecOpsReportFeatures msg).rcProfile, (cecOpsReportFeatures msg).devFeatures) =
      if msg.Ext (skipExt msg 10 4) then (none, none) else (some 4, some (skipExt msg 10 4 + 1)) := by
  unfold cecOpsReportFeatures
  dsimp only
  by_cases hext : msg.Ext (skipExt msg 10 4)
  · rw [if_neg (not_not.mpr hext), if_neg (not_not.mpr hext), if_pos hext, if_pos hext]
  · rw [if_pos hext, if_pos hext, CecMsg.skipExt_end hext, if_neg hext, if_neg hext]

/-- The pointers lead to sequences that end unless the message has one end only, and has it early enough. -/
theorem readsSequences_iff (msg : CecMsg) : ReadsSequences msg ↔ EndsTwice msg := by
  obtain ⟨hge, hle, hpassed, hend⟩ := CecMsg.skipExt_spec msg 10 4
  have hread := Prod.ext_iff.mp (cecOpsReportFeatures_eq msg)
  by_cases hext : msg.Ext (skipExt msg 10 4)
  · rw [if_pos hext] at hread
    have hnone : ∀ k, 4 ≤ k → k ≤ 14 → msg.Ext k := by
      intro k hk hk'
      have hlimit : skipExt msg 10 4 = 14 := by
        by_contra hlt
        exact hend (by omega) hext
      rcases Nat.eq_or_lt_of_le (hlimit ▸ hk') with rfl | hlt
      · exact hext
      · exact hpassed k hk hlt
    exact ⟨fun _ k hk hk' hend => absurd (hnone k hk hk') hend,
      fun _ p q hp _ => absurd (hp.symm.trans hread.1) (Option.some_ne_none p)⟩
  · rw [if_neg hext] at hread
    have hfirst : ∃ s, msg.HasSequence 4 s :=
      CecMsg.hasSequence_iff.mpr ⟨_, hge, hle.trans_lt (by decide), hext⟩
    constructor
    · intro h k hk hk' hlast
      obtain ⟨e, hpe, he, hlast'⟩ := CecMsg.hasSequence_iff.mp (h _ _ hread.1 hread.2).2
      by_cases hke : e = k
      · exact ⟨_, hge, by omega, by omega, hext⟩
      · exact ⟨e, by omega, Nat.le_of_lt_succ he, hke, hlast'⟩
    · intro h p q hp hq
      obtain rfl := Option.some.inj (hp.symm.trans hread.1)
      obtain rfl := Option.some.inj (hq.symm.trans hread.2)
      obtain ⟨e, he, he', hne, hlast⟩ := h _ hge hle hext
      have hbehind : skipExt msg 10 4 < e := by
        by_contra hlt
        exact hlast (hpassed e he (by omega))
      exact ⟨hfirst, CecMsg.hasSequence_iff.mpr ⟨e, hbehind, Nat.lt_succ_of_le he', hlast⟩⟩

/-- The two sequences of the features come back from the message they are put into. -/
theorem reportsFeatures_fill {las : LogAddrs} {i : Fin CEC_MAX_LOG_ADDRS} {rc dev : List UInt8}
    (h : HoldsFeatures (las.features i) rc dev) (msg : CecMsg) :
    ReportsFeatures (cecFillMsgReportFeatures las msg i) rc dev := by
  have hroom : rc.length + dev.length ≤ 12 := h.length_le
  obtain ⟨hrc, hdev, rest, hf⟩ := h
  have hpos := hdev.length_pos
  have hfill : cecFillMsgReportFeatures las msg i =
      (msg.write 0 ([las.logAddr i <<< 4 ||| 0x0f, CEC_MSG_REPORT_FEATURES, las.cecVersion,
        las.allDeviceTypes i] ++ (rc ++ dev))).setLen (4 + rc.length + dev.length) := by
    rw [cecFillMsgReportFeatures, hf]
    exact pushFeatures_false hrc hdev rest msg 0 _
  rw [hfill]
  generalize hhdr : [las.logAddr i <<< 4 ||| 0x0f, CEC_MSG_REPORT_FEATURES, las.cecVersion,
    las.allDeviceTypes i] = hdr
  have hlen : hdr.length = 4 := by rw [← hhdr]; rfl
  have hat4 : (msg.write 0 (hdr ++ (rc ++ dev))).read 4 rc.length = rc := by
    have hread := msg.read_write 0 hdr rc dev (show _ ≤ 16 by omega)
    rwa [Nat.zero_add, hlen] at hread
  have hatDev : (msg.write 0 (hdr ++ (rc ++ dev))).read (4 + rc.length) dev.length = dev := by
    have hread := msg.read_write 0 (hdr ++ rc) dev [] (show _ ≤ 16 by rw [List.length_append]; omega)
    rwa [Nat.zero_add, List.length_append, hlen, List.append_nil, List.append_assoc] at hread
  generalize hmsg : (msg.write 0 (hdr ++ (rc ++ dev))).setLen (4 + rc.length + dev.length) = m
  have hrcSeq : m.HasSequence 4 rc := ⟨hrc, show _ ≤ 16 by omega, hmsg ▸ hat4⟩
  have hdevSeq : m.HasSequence (4 + rc.length) dev := ⟨hdev, show _ ≤ 16 by omega, hmsg ▸ hatDev⟩
  obtain ⟨hstop, hend⟩ := CecMsg.skipExt_sequence hrc hrcSeq.2.2 (show rc.length ≤ 10 + 1 by omega)
  have hread := Prod.ext_iff.mp (cecOpsReportFeatures_eq m)
  rw [if_neg hend, hstop] at hread
  have hlenMsg : m.len = 4 + rc.length + dev.length := by rw [← hmsg]; rfl
  exact ⟨hlenMsg, show m.len ≤ 16 by omega, 4, 4 + rc.length, hread.1, hread.2, hrcSeq, hdevSeq⟩

/-- **The features that a device is configured with are the ones that are read from its message**, whatever the
addresses are that it has claimed since.  A message of someone else is read as two sequences that end exactly if
no byte that may end the RC profile is the only one without an extension. -/
theorem reportFeatures_iff {adap : LogAddrAdap} {req las : LogAddrs} (h : cecSLogAddrs adap (some req) = .ok las)
    (i : Fin CEC_MAX_LOG_ADDRS) (hi : i.val < las.numLogAddrs.toNat) (cur : LogAddrs)
    (hcur : cur.features = las.features) (msg received : CecMsg) :
    (∃ rc dev, HoldsFeatures ((sanitizeCdcOnly req).features i) rc dev ∧
      ReportsFeatures (cecFillMsgReportFeatures cur msg i) rc dev) ∧
      (ReadsSequences received ↔ EndsTwice received) := by
  obtain ⟨rc, dev, hconfigured, hholds⟩ := cecSLogAddrs_ok h hi
  rw [← hcur] at hholds
  exact ⟨⟨rc, dev, hconfigured, reportsFeatures_fill hholds msg⟩, readsSequences_iff received⟩

/-- A television with two bytes of features. -/
def tvLogAddrs : LogAddrs where
  logAddr := fun _ => CEC_LOG_ADDR_INVALID
  logAddrMask := 0
  cecVersion := CEC_OP_CEC_VERSION_2_0
  numLogAddrs := 1
  vendorId := CEC_VENDOR_ID_NONE
  flags := 0
  osdName := fun _ => 0
  primaryDeviceType := fun _ => 0
  logAddrType := fun _ => CEC_LOG_ADDR_TYPE_TV
  allDeviceTypes := fun _ => 0x80
  features := fun _ k => if k.val = 0 then 0x42 else 0x10

/-- An adapter with room for one address. -/
def tvAdap : LogAddrAdap where
  unregistered := false
  availableLogAddrs := 1
  available_le := by decide
  logAddrs := clearLogAddrs tvLogAddrs

theorem reportFeatures_tv :
    ∃ las, cecSLogAddrs tvAdap (some tvLogAddrs) = .ok las ∧
      (∃ rc dev, HoldsFeatures ((sanitizeCdcOnly tvLogAddrs).features 0) rc dev ∧
        ReportsFeatures (cecFillMsgReportFeatures las .blank 0) rc dev) ∧
      (ReadsSequences .blank ↔ EndsTwice .blank) := by
  obtain ⟨las, hlas, hnum⟩ : ∃ las, cecSLogAddrs tvAdap (some tvLogAddrs) = .ok las ∧ las.numLogAddrs = 1 :=
    ⟨_, rfl, rfl⟩
  have hi : (0 : Fin CEC_MAX_LOG_ADDRS).val < las.numLogAddrs.toNat := by
    rw [hnum]
    decide
  exact ⟨las, hlas, reportFeatures_iff hlas 0 hi las rfl .blank .blank⟩

/-- A report whose RC profile is one byte, and whose device features do not end. -/
def endlessReport : CecMsg :=
  (CecMsg.blank.write 0 (0x0f :: CEC_MSG_REPORT_FEATURES :: CEC_OP_CEC_VERSION_2_0 :: 0x80 :: 0x42 ::
    List.replicate 11 0x80)).setLen 16

/-- The device features that are returned run off the end of the message. -/
theorem endlessReport_runs_on : ¬ ReadsSequences endlessReport := by
  intro h
  have hread : (cecOpsReportFeatures endlessReport).rcProfile = some 4 ∧
      (cecOpsReportFeatures endlessReport).devFeatures = some 5 := by decide +kernel
  obtain ⟨e, hge, he, hend⟩ := CecMsg.hasSequence_iff.mp (h 4 5 hread.1 hread.2).2
  have hext : ∀ k : Fin CEC_MAX_MSG_SIZE, 5 ≤ k.val → endlessReport.Ext k.val := by decide +kernel
  exact hend (hext ⟨e, he⟩ hge)

end Cec
end TbsMedia
