import TbsMedia.DvbCa.Ca

/-!
# Writing a message to a module

`dvb_ca_en50221_io_write` cuts a message into fragments of the size that `dvb_ca_en50221_link_init` has
stored, less the two bytes in front of each.  That size is what the module asks for.  From three bytes
on, every fragment takes something of the message with it.  With two bytes there is no room for
anything, and the loop does not get on.  With less, it is left at once, and what follows it reports
the whole message as written.

* `ioWrite_iff`: when a message is written as it should be.
-/

namespace TbsMedia
namespace Ca

open Lib Function Ringbuffer

variable {ca ca' : DvbCaPrivate} {s : ℕ} {connectionId : UInt8} {msg : List UInt8}
  {tries : ℕ → List WriteTry}

/-! ## The link -/

/-- A try that meets a free module. -/
def freeTry : WriteTry where
  running := true
  link :=
    { direct := fun n => n, direct_le := fun n => Int.le_refl n, status := 0, hc := 0
      statusFree := 0x40, statusAgain := 0, sizeHigh := 0, sizeLow := 0, data := fun _ => 0
      statusAfter := 0 }

/-- A module that offers a link buffer of `hi * 256 + lo` bytes. -/
def offer (hi lo : UInt8) : LinkAnswers where
  commandSr := 0
  waitDa := 0
  read :=
    { direct := 0, directData := fun _ => 0, status := 0x80, sizeHigh := 0, sizeLow := 2
      data := fun i => if i = 0 then hi.toNat else lo.toNat, statusAfter := 0 }
  command := 0
  commandSw := 0
  waitFr := 0
  write := freeTry.link
  commandDone := 0

/-- The link gets at most what it is given, and is to be initialised again only after an error. -/
theorem writeRegisters_spec (ans : CamWrite) (n : ℕ) :
    (writeRegisters ans n).1 ≤ n ∧
      ((writeRegisters ans n).2 = true → (writeRegisters ans n).1 = - EIO) := by
  let P : ℤ × Bool → Prop := fun r => r.1 ≤ n ∧ (r.2 = true → r.1 = - EIO)
  have hneg : ∀ status ≤ (0 : ℤ), P (status, false) := fun status h =>
    ⟨Int.le_trans h (Int.natCast_nonneg n), fun h => absurd h Bool.false_ne_true⟩
  have herror : ∀ e : ℕ, P (-e, false) := fun e => hneg _ (by omega)
  have hagain : P (-EAGAIN, false) := hneg _ (by decide)
  change P (writeRegisters ans n)
  unfold writeRegisters
  refine iteInduction (fun h => hneg _ (Int.le_of_lt h)) fun _ => ?_
  refine iteInduction (fun _ => hagain) fun _ => ?_
  refine iteInduction (fun _ => herror _) fun _ => ?_
  refine iteInduction (fun h => hneg _ (Int.le_of_lt h)) fun _ => ?_
  refine iteInduction (fun _ => hagain) fun _ => ?_
  refine iteInduction (fun h => hneg _ (Int.le_of_lt h)) fun _ => ?_
  refine iteInduction (fun _ => hagain) fun _ => ?_
  refine iteInduction (fun _ => herror _) fun _ => ?_
  refine iteInduction (fun _ => herror _) fun _ => ?_
  split
  · exact herror _
  · refine iteInduction (fun h => hneg _ (Int.le_of_lt h)) fun _ => ?_
    refine iteInduction (fun _ => ?_) fun _ => ?_
    · exact ⟨Int.le_trans (by decide : - EIO ≤ 0) (Int.natCast_nonneg n), fun _ => rfl⟩
    · exact ⟨Int.le_refl _, fun h => absurd h Bool.false_ne_true⟩

theorem writeData_le (ca : DvbCaPrivate) (s : ℕ) (ans : CamWrite) (buf : List UInt8) :
    (dvbCaEn50221WriteData ca s ans buf).1 ≤ buf.length := by
  unfold dvbCaEn50221WriteData
  dsimp only
  split_ifs
  · exact Int.le_trans (by decide : -EINVAL ≤ 0) (Int.natCast_nonneg _)
  · exact ans.direct_le _
  · exact (writeRegisters_spec ans _).1
  · exact (writeRegisters_spec ans _).1

/-- What is not an `- EIO` leaves the interface alone. -/
theorem writeData_same {ans : CamWrite} {buf : List UInt8}
    (h : (dvbCaEn50221WriteData ca s ans buf).1 ≠ - EIO) :
    (dvbCaEn50221WriteData ca s ans buf).2 = ca := by
  revert h
  unfold dvbCaEn50221WriteData
  dsimp only
  split_ifs with hlen hdirect hlink
  · exact fun _ => rfl
  · exact fun _ => rfl
  · exact fun h => absurd ((writeRegisters_spec ans _).2 hlink) h
  · exact fun _ => rfl

/-- A status that is no error: the fragment has been written, and the interface is as before. -/
theorem writeFragment_spec (ca : DvbCaPrivate) (s : ℕ) (frag : List UInt8) (ts : List WriteTry) :
    (writeFragment ca s frag ts).1 ≤ frag.length ∧
      ((writeFragment ca s frag ts).1 = frag.length → (writeFragment ca s frag ts).2 = ca) := by
  have hneg : ∀ n : ℕ, (- EIO : ℤ) < n := fun n =>
    Int.lt_of_lt_of_le (by decide : - EIO < 0) (Int.natCast_nonneg n)
  induction ts with
  | nil => exact ⟨Int.le_of_lt (hneg _), fun h => absurd h (Int.ne_of_lt (hneg _))⟩
  | cons t ts ih =>
    unfold writeFragment
    by_cases hrun : (!t.running) = true ∨ (ca.slotInfo s).slotState ≠ .RUNNING
    · rw [if_pos hrun]
      exact ⟨Int.le_of_lt (hneg _), fun h => absurd h (Int.ne_of_lt (hneg _))⟩
    · rw [if_neg hrun]
      have hle := writeData_le ca s t.link frag
      have hsame : (dvbCaEn50221WriteData ca s t.link frag).1 ≠ - EIO →
          (dvbCaEn50221WriteData ca s t.link frag).2 = ca := writeData_same
      rcases hw : dvbCaEn50221WriteData ca s t.link frag with ⟨status, ca₁⟩
      rw [hw] at hle hsame
      dsimp only at hle hsame ⊢
      split_ifs with hall hagain
      · refine ⟨hle, fun _ => hsame ?_⟩
        rw [hall]
        exact Int.ne_of_gt (hneg _)
      · exact ⟨hle, fun h => absurd h hall⟩
      · obtain rfl := hsame (by rw [not_not.mp hagain]; decide)
        exact ih

/-! ## Fragments -/

/-- The fragment says that there is more to come. -/
def moreFollows (frag : List UInt8) : Bool := frag.getD 1 0 &&& 0x80 != 0

/-- The fragments are those of the message `msg`. -/
structure Fragmented (connectionId : UInt8) (msg : List UInt8) (frags : List (List UInt8)) : Prop where
  connection : ∀ frag ∈ frags, frag.head? = some connectionId
  more : ∀ frag ∈ frags.dropLast, moreFollows frag = true
  last : ∀ frag ∈ frags.getLast?, moreFollows frag = false
  payload : (frags.map (List.drop 2)).flatten = msg

theorem Fragmented.nil (connectionId : UInt8) : Fragmented connectionId [] [] where
  connection := fun _ h => absurd h List.not_mem_nil
  more := fun _ h => absurd h List.not_mem_nil
  last := fun _ h => absurd h (Option.not_mem_none _)
  payload := rfl

/-- The only fragment of a message. -/
theorem Fragmented.single (connectionId : UInt8) (payload : List UInt8) :
    Fragmented connectionId payload [connectionId :: 0x00 :: payload] where
  connection frag h := by
    rw [List.mem_singleton.mp h]
    rfl
  more := fun _ h => absurd h List.not_mem_nil
  last frag h := by
    obtain rfl : connectionId :: 0x00 :: payload = frag := by simpa using h
    exact (by decide : ((0x00 : UInt8) &&& 0x80 != 0) = false)
  payload := List.append_nil payload

/-- A fragment in front of the others. -/
theorem Fragmented.cons {rest : List UInt8} {frags : List (List UInt8)}
    (h : Fragmented connectionId rest frags) (hrest : rest ≠ []) (payload : List UInt8) :
    Fragmented connectionId (payload ++ rest) ((connectionId :: 0x80 :: payload) :: frags) := by
  have hne : frags ≠ [] := by
    rintro rfl
    exact hrest h.payload.symm
  refine ⟨fun frag hmem => ?_, fun frag hmem => ?_, fun frag hmem => h.last frag ?_, ?_⟩
  · rcases List.mem_cons.mp hmem with rfl | hmem
    · rfl
    · exact h.connection frag hmem
  · rw [List.dropLast_cons_of_ne_nil hne] at hmem
    rcases List.mem_cons.mp hmem with rfl | hmem
    · exact (by decide : ((0x80 : UInt8) &&& 0x80 != 0) = true)
    · exact h.more frag hmem
  · rwa [List.getLast?_cons_of_ne_nil hne] at hmem
  · rw [List.map_cons, List.flatten_cons, h.payload]
    rfl

/-! ## The loop -/

/-- The length of the fragment at `fragpos`. -/
def fragmentLength (size fragpos len : ℕ) : ℕ := min (min (size - 2) 510) (len - fragpos)

/-- The fragment at `fragpos`. -/
def fragmentAt (connectionId : UInt8) (msg : List UInt8) (size fragpos : ℕ) : List UInt8 :=
  let fraglen := fragmentLength size fragpos msg.length
  connectionId :: (if fragpos + fraglen < msg.length then 0x80 else 0x00) ::
    (msg.drop fragpos).take fraglen

theorem length_fragmentAt (connectionId : UInt8) (msg : List UInt8) (size fragpos : ℕ) :
    (fragmentAt connectionId msg size fragpos).length =
      fragmentLength size fragpos msg.length + 2 := by
  unfold fragmentAt
  rw [List.length_cons, List.length_cons, List.length_take, List.length_drop]
  unfold fragmentLength
  omega

/-- One turn of the loop. -/
theorem writeLoop_succ (hsize : 2 ≤ (ca.slotInfo s).linkBufSize) {fuel n fragpos : ℕ}
    (hpos : fragpos < msg.length) :
    writeLoop s connectionId msg tries (fuel + 1) n fragpos ca =
      let frag := fragmentAt connectionId msg (ca.slotInfo s).linkBufSize fragpos
      let r := writeFragment ca s frag (tries n)
      if r.1 ≠ frag.length then some (r.1, [], r.2)
      else
        (writeLoop s connectionId msg tries fuel (n + 1)
          (fragpos + fragmentLength (ca.slotInfo s).linkBufSize fragpos msg.length) r.2).map
            fun t => (t.1, frag :: t.2.1, t.2.2) := by
  have hlen : (if msg.length - fragpos <
      min ((((ca.slotInfo s).linkBufSize : ℤ) - 2).toNat) (HOST_LINK_BUF_SIZE - 2)
      then msg.length - fragpos
      else min ((((ca.slotInfo s).linkBufSize : ℤ) - 2).toNat) (HOST_LINK_BUF_SIZE - 2)) =
      fragmentLength (ca.slotInfo s).linkBufSize fragpos msg.length := by
    unfold fragmentLength HOST_LINK_BUF_SIZE
    split_ifs <;> omega
  rw [writeLoop, if_pos hpos]
  dsimp only
  rw [if_neg (by omega), hlen]
  rfl

/-- The end of the loop. -/
theorem writeLoop_end {fuel n fragpos : ℕ} (hpos : msg.length ≤ fragpos) :
    writeLoop s connectionId msg tries (fuel + 1) n fragpos ca =
      some ((msg.length : ℤ) + 2, [], ca) := by
  rw [writeLoop, if_neg (Nat.not_lt.mpr hpos)]

/-- A fragment takes something of the message with it. -/
theorem fragmentLength_spec {size fragpos len : ℕ} (hsize : 3 ≤ size) (hpos : fragpos < len) :
    0 < fragmentLength size fragpos len ∧ fragpos + fragmentLength size fragpos len ≤ len := by
  unfold fragmentLength
  omega

/-- The fragment at `fragpos`, and those behind it. -/
theorem Fragmented.fragmentAt {size fragpos : ℕ} {frags : List (List UInt8)}
    (h : Fragmented connectionId
      (msg.drop (fragpos + fragmentLength size fragpos msg.length)) frags)
    (hlast : msg.length ≤ fragpos + fragmentLength size fragpos msg.length → frags = []) :
    Fragmented connectionId (msg.drop fragpos)
      (Ca.fragmentAt connectionId msg size fragpos :: frags) := by
  unfold Ca.fragmentAt
  dsimp only
  generalize fragmentLength size fragpos msg.length = fraglen at h hlast ⊢
  have hsplit : msg.drop fragpos =
      (msg.drop fragpos).take fraglen ++ msg.drop (fragpos + fraglen) := by
    rw [← List.drop_drop, List.take_append_drop]
  rcases Nat.lt_or_ge (fragpos + fraglen) msg.length with hmore | hge
  · rw [if_pos hmore]
    have hcons := h.cons (fun hnil => absurd (List.drop_eq_nil_iff.mp hnil) (by omega))
      ((msg.drop fragpos).take fraglen)
    rwa [← hsplit] at hcons
  · rw [if_neg (by omega), hlast hge]
    have hnil : msg.drop (fragpos + fraglen) = [] := List.drop_eq_nil_iff.mpr hge
    rw [hnil, List.append_nil] at hsplit
    rw [← hsplit]
    exact .single connectionId _

/-- A loop that reports the whole message has written it. -/
theorem writeLoop_fragmented (hsize : 3 ≤ (ca.slotInfo s).linkBufSize) {fuel n fragpos : ℕ}
    {frags : List (List UInt8)} (hpos : fragpos ≤ msg.length)
    (h : writeLoop s connectionId msg tries fuel n fragpos ca =
      some ((msg.length : ℤ) + 2, frags, ca')) :
    Fragmented connectionId (msg.drop fragpos) frags := by
  induction fuel generalizing n fragpos frags with
  | zero => cases h
  | succ fuel ih =>
    rcases Nat.lt_or_ge fragpos msg.length with hlt | hge
    · rw [writeLoop_succ (by omega) hlt] at h
      dsimp only at h
      obtain ⟨hle, hsame⟩ := writeFragment_spec ca s
        (fragmentAt connectionId msg (ca.slotInfo s).linkBufSize fragpos) (tries n)
      have hlen := length_fragmentAt connectionId msg (ca.slotInfo s).linkBufSize fragpos
      have hfl := fragmentLength_spec hsize hlt
      by_cases hall : (writeFragment ca s
          (fragmentAt connectionId msg (ca.slotInfo s).linkBufSize fragpos) (tries n)).1 =
          (fragmentAt connectionId msg (ca.slotInfo s).linkBufSize fragpos).length
      · rw [if_neg (not_not.mpr hall), hsame hall, Option.map_eq_some_iff] at h
        obtain ⟨⟨status, frags', ca''⟩, hrest, heq⟩ := h
        obtain ⟨rfl, rfl, rfl⟩ : status = (msg.length : ℤ) + 2 ∧ _ = frags ∧ ca'' = ca' := by
          simpa using heq
        refine (ih hfl.2 hrest).fragmentAt fun hend => ?_
        cases fuel with
        | zero => cases hrest
        | succ fuel =>
          rw [writeLoop_end hend] at hrest
          obtain ⟨rfl, -⟩ : [] = frags' ∧ _ := by simpa using hrest
          rfl
      · rw [if_pos hall] at h
        obtain ⟨hstatus, -⟩ : _ = ((msg.length : ℤ) + 2) ∧ _ := by simpa using h
        omega
    · rw [writeLoop_end hge] at h
      obtain ⟨rfl, -⟩ : [] = frags ∧ _ := by simpa using h
      rw [List.drop_eq_nil_iff.mpr hge]
      exact .nil connectionId

/-- Each fragment is written, possibly at a second try or a later one. -/
def Succeeds (tries : ℕ → List WriteTry) : Prop :=
  ∀ n (ca : DvbCaPrivate) s frag, (ca.slotInfo s).slotState = .RUNNING →
    frag.length ≤ (ca.slotInfo s).linkBufSize →
    (writeFragment ca s frag (tries n)).1 = frag.length

/-- The loop ends. -/
theorem writeLoop_ends (hrun : (ca.slotInfo s).slotState = .RUNNING)
    (hsize : 3 ≤ (ca.slotInfo s).linkBufSize) (htries : Succeeds tries) {fuel n fragpos : ℕ}
    (hfuel : msg.length - fragpos < fuel) :
    ∃ frags, writeLoop s connectionId msg tries fuel n fragpos ca =
      some ((msg.length : ℤ) + 2, frags, ca) := by
  induction fuel generalizing n fragpos with
  | zero => exact absurd hfuel (Nat.not_lt_zero _)
  | succ fuel ih =>
    rcases Nat.lt_or_ge fragpos msg.length with hlt | hge
    · have hfl := fragmentLength_spec hsize hlt
      have hlen := length_fragmentAt connectionId msg (ca.slotInfo s).linkBufSize fragpos
      have hall := htries n ca s (fragmentAt connectionId msg (ca.slotInfo s).linkBufSize fragpos)
        hrun (by rw [hlen]; unfold fragmentLength; omega)
      have hsame := (writeFragment_spec ca s
        (fragmentAt connectionId msg (ca.slotInfo s).linkBufSize fragpos) (tries n)).2 hall
      obtain ⟨frags, hrest⟩ := @ih (n + 1)
        (fragpos + fragmentLength (ca.slotInfo s).linkBufSize fragpos msg.length) (by omega)
      rw [writeLoop_succ (by omega) hlt]
      dsimp only
      rw [if_neg (not_not.mpr hall), hsame, hrest]
      exact ⟨_, rfl⟩
    · exact ⟨[], writeLoop_end hge⟩

theorem succeeds_freeTry : Succeeds fun _ => [freeTry] := by
  intro n ca s frag hrun hlen
  have hregisters : writeRegisters freeTry.link frag.length = ((frag.length : ℤ), false) := by
    have hnone : ((List.range frag.length).find? fun i => freeTry.link.data i ≠ 0) = none :=
      List.find?_eq_none.mpr fun i _ => (by decide : ¬decide ((0 : ℕ) ≠ 0) = true)
    unfold writeRegisters
    rw [hnone]
    rfl
  have hwrite : dvbCaEn50221WriteData ca s freeTry.link frag = ((frag.length : ℤ), ca) := by
    unfold dvbCaEn50221WriteData
    dsimp only
    rw [if_neg (Nat.not_lt.mpr hlen), hregisters]
    dsimp only
    rw [if_neg Bool.false_ne_true]
    split_ifs
    · rfl
    · rfl
  unfold writeFragment
  rw [if_neg (by rw [hrun]; decide), hwrite]
  dsimp only
  rw [if_pos rfl]

/-- With two bytes the loop does not get on. -/
theorem writeLoop_stuck (hrun : (ca.slotInfo s).slotState = .RUNNING)
    (hsize : (ca.slotInfo s).linkBufSize = 2) (htries : Succeeds tries) {fragpos : ℕ}
    (hpos : fragpos < msg.length) (fuel n : ℕ) :
    writeLoop s connectionId msg tries fuel n fragpos ca = none := by
  induction fuel generalizing n with
  | zero => rfl
  | succ fuel ih =>
    have hfl : fragmentLength 2 fragpos msg.length = 0 := by
      unfold fragmentLength
      omega
    have hlen := length_fragmentAt connectionId msg 2 fragpos
    have hall := htries n ca s (fragmentAt connectionId msg 2 fragpos) hrun (by omega)
    have hsame := (writeFragment_spec ca s (fragmentAt connectionId msg 2 fragpos) (tries n)).2 hall
    rw [writeLoop_succ (by omega) hpos]
    dsimp only
    rw [hsize, if_neg (not_not.mpr hall), hsame, hfl]
    exact congrArg (Option.map _) (ih (n + 1))

/-- With less, it is left at once. -/
theorem writeLoop_left (hsize : (ca.slotInfo s).linkBufSize < 2) (fuel n fragpos : ℕ) :
    writeLoop s connectionId msg tries (fuel + 1) n fragpos ca =
      some ((msg.length : ℤ) + 2, [], ca) := by
  rw [writeLoop]
  dsimp only
  rw [if_pos (by omega : ((ca.slotInfo s).linkBufSize : ℤ) - 2 < 0), ite_self]

/-! ## Messages -/

/-- The message `msg` for slot `slot` is written as it should be: the call ends if the link does its
part, and when it reports the whole message, the fragments are those of the message. -/
structure Writes (ca : DvbCaPrivate) (slot connectionId : UInt8) (msg : List UInt8) : Prop where
  ends : ∀ tries, Succeeds tries →
    ∃ fuel r, dvbCaEn50221IoWrite fuel tries ca (slot :: connectionId :: msg) = some r
  complete : ∀ fuel tries frags ca',
    dvbCaEn50221IoWrite fuel tries ca (slot :: connectionId :: msg) =
      some (((slot :: connectionId :: msg).length : ℤ), frags, ca') →
    Fragmented connectionId msg frags

theorem ioWrite_eq {slot : UInt8} (hslot : slot.toNat < ca.slotCount)
    (hrun : (ca.slotInfo slot.toNat).slotState = .RUNNING) (fuel : ℕ) (tries : ℕ → List WriteTry)
    (connectionId : UInt8) (msg : List UInt8) :
    dvbCaEn50221IoWrite fuel tries ca (slot :: connectionId :: msg) =
      writeLoop slot.toNat connectionId msg tries fuel 0 0 ca := by
  unfold dvbCaEn50221IoWrite
  dsimp only
  rw [if_neg (Nat.not_le.mpr hslot), if_neg (not_not.mpr hrun)]

/-- **When a message is written**: to a slot that is running, exactly if the message is empty or the
link buffer has three bytes at least. -/
theorem ioWrite_iff {slot : UInt8} (hslot : slot.toNat < ca.slotCount)
    (hrun : (ca.slotInfo slot.toNat).slotState = .RUNNING) (connectionId : UInt8)
    (msg : List UInt8) :
    Writes ca slot connectionId msg ↔
      msg = [] ∨ 3 ≤ (ca.slotInfo slot.toNat).linkBufSize := by
  have hcount : ∀ frags ca', (some (((slot :: connectionId :: msg).length : ℤ), frags, ca') :
      Option (ℤ × List (List UInt8) × DvbCaPrivate)) = some ((msg.length : ℤ) + 2, frags, ca') :=
    fun _ _ => by rw [List.length_cons, List.length_cons, Nat.cast_add, Nat.cast_add]; rfl
  constructor
  · intro h
    by_contra hno
    obtain ⟨hmsg, hsize⟩ := not_or.mp hno
    have hpos : 0 < msg.length := List.length_pos_of_ne_nil hmsg
    rcases Nat.lt_or_ge (ca.slotInfo slot.toNat).linkBufSize 2 with hlt | hge
    · have hleft : writeLoop slot.toNat connectionId msg (fun _ => [freeTry]) 1 0 0 ca =
          some ((msg.length : ℤ) + 2, [], ca) := writeLoop_left hlt 0 0 0
      have hfrag := h.complete 1 (fun _ => [freeTry]) [] ca
        (by rw [ioWrite_eq hslot hrun, hleft, hcount])
      exact hmsg hfrag.payload.symm
    · obtain ⟨fuel, r, hr⟩ := h.ends _ succeeds_freeTry
      rw [ioWrite_eq hslot hrun, writeLoop_stuck hrun (by omega) succeeds_freeTry hpos] at hr
      cases hr
  · rintro (rfl | hsize)
    · refine ⟨fun tries _ => ⟨1, _, (ioWrite_eq hslot hrun ..).trans (writeLoop_end (Nat.le_refl _))⟩,
        fun fuel tries frags ca' h => ?_⟩
      rw [ioWrite_eq hslot hrun] at h
      cases fuel with
      | zero => cases h
      | succ fuel =>
        have hend : writeLoop slot.toNat connectionId [] tries (fuel + 1) 0 0 ca =
            some ((([] : List UInt8).length : ℤ) + 2, [], ca) := writeLoop_end (Nat.le_refl _)
        rw [hend] at h
        obtain ⟨rfl, -⟩ : [] = frags ∧ _ := by simpa using h
        exact .nil connectionId
    · refine ⟨fun tries htries => ?_, fun fuel tries frags ca' h => ?_⟩
      · obtain ⟨frags, hfrags⟩ : ∃ frags, writeLoop slot.toNat connectionId msg tries
            (msg.length + 1) 0 0 ca = some ((msg.length : ℤ) + 2, frags, ca) :=
          writeLoop_ends hrun hsize htries (Nat.lt_succ_self _)
        exact ⟨_, _, (ioWrite_eq hslot hrun ..).trans hfrags⟩
      · rw [ioWrite_eq hslot hrun, hcount] at h
        exact writeLoop_fragmented hsize (Nat.zero_le _) h

/-- An interface with one slot, in which a link is to be initialised. -/
def linkinitCa : DvbCaPrivate where
  slotCount := 1
  slotInfo _ :=
    { slotState := .LINKINIT, camchangeCount := 0, camchangeType := .INSERTED, linkBufSize := 0
      rxBuffer := none }
  «open» := true
  nextReadSlot := 0
  irqCamchange := true
  readData := false
  writeData := false
  pollSlotStatus := false

/-- The interface once the link to a module has been initialised that offers `hi * 256 + lo` bytes. -/
def linkedCa (hi lo : UInt8) : DvbCaPrivate :=
  let ca := (dvbCaEn50221LinkInit linkinitCa 0 (offer hi lo)).2
  ca.setSlot 0 { ca.slotInfo 0 with slotState := .RUNNING }

/-- A module that asks for three bytes gets a message of four bytes, in as many fragments. -/
theorem ioWrite_linked :
    (0 : UInt8).toNat < (linkedCa 0 3).slotCount ∧
      ((linkedCa 0 3).slotInfo (0 : UInt8).toNat).slotState = .RUNNING ∧
      (Writes (linkedCa 0 3) 0 1 [2, 3, 5, 7] ↔ ([2, 3, 5, 7] : List UInt8) = [] ∨
        3 ≤ ((linkedCa 0 3).slotInfo (0 : UInt8).toNat).linkBufSize) :=
  ⟨by decide, by decide, ioWrite_iff (by decide) (by decide) 1 [2, 3, 5, 7]⟩

/-- A module that asks for two bytes gets a message of one byte never: the link is initialised, and
writes of empty fragments succeed without an end. -/
theorem not_writes_linked :
    (dvbCaEn50221LinkInit linkinitCa 0 (offer 0 2)).1 = 0 ∧ ¬ Writes (linkedCa 0 2) 0 1 [0x42] := by
  refine ⟨by decide, fun h => ?_⟩
  obtain ⟨fuel, r, hr⟩ := h.ends _ succeeds_freeTry
  rw [ioWrite_eq (by decide) (by decide)] at hr
  have hstuck : writeLoop (0 : UInt8).toNat 1 [0x42] (fun _ => [freeTry]) fuel 0 0 (linkedCa 0 2) =
      none := writeLoop_stuck (by decide) (by decide) succeeds_freeTry (by decide) fuel 0
  rw [hstuck] at hr
  cases hr

end Ca
end TbsMedia
