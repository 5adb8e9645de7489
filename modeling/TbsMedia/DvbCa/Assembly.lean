import TbsMedia.DvbRingbuffer.PacketQueue
import TbsMedia.DvbCa.Ca

/-!
# A client reads a message

The fragments of several connections are in the receive buffer of a slot, interleaved, and so are
fragments that have been read already.  `dvb_ca_en50221_io_read_condition` finds a slot, and
`dvb_ca_en50221_io_read` takes the message of the first connection of that slot.  It does so whenever
the last fragment of that message is there.  The predicate however takes the connection of the first
slot that it comes to along to the slots behind, and there it is satisfied with a last fragment of that
connection, whichever connection is the first of the slot.

* `takeMessage`: the message of a connection, and the fragments that are left.
* `readLoop_spec`: the reader assembles it.
* `Picks`: the slot that the predicate finds, in terms of the fragments of the slots.
* `ioRead_iff`: when all is well.
-/

namespace TbsMedia
namespace Ca

open Lib Function Ringbuffer

variable {ca : DvbCaPrivate} {rbuf : DvbRingbuffer UInt8} {pre post ds : List Pkt} {q : Pkt}
  {idx count fuel : ℕ} {c : UInt8}

/-! ## Fragments -/

/-- The header of a fragment: the connection, and whether there is more. -/
def hdr (q : Pkt) : UInt8 × UInt8 := (q.bytes.getD 0 0, q.bytes.getD 1 0)

/-- The piece of the message. -/
def payload (q : Pkt) : List UInt8 := q.bytes.drop 2

/-- A header is of the last fragment of a message of connection `c`. -/
def Ends (c : UInt8) (h : UInt8 × UInt8) : Prop := h.1 = c ∧ h.2 &&& 0x80 = 0

instance (c : UInt8) (h : UInt8 × UInt8) : Decidable (Ends c h) := inferInstanceAs (Decidable (_ ∧ _))

/-- The message of connection `c`, up to its first last fragment, and the fragments that are left. -/
def takeMessage (c : UInt8) : List Pkt → Option (List UInt8 × List Pkt)
  | [] => none
  | q :: qs =>
    if (hdr q).1 ≠ c then (takeMessage c qs).map fun (msg, rest) => (msg, q :: rest)
    else if (hdr q).2 &&& 0x80 = 0 then some (payload q, qs)
    else (takeMessage c qs).map fun (msg, rest) => (payload q ++ msg, rest)

/-- The first connection has its last fragment there. -/
def FirstComplete (pkts : List Pkt) : Prop :=
  ∃ q qs, pending pkts = q :: qs ∧ ∃ q' ∈ pending pkts, Ends (hdr q).1 (hdr q')

theorem takeMessage_of_ne (h : (hdr q).1 ≠ c) (qs : List Pkt) :
    takeMessage c (q :: qs) = (takeMessage c qs).map fun (msg, rest) => (msg, q :: rest) := if_pos h

theorem takeMessage_of_ends (h : Ends c (hdr q)) (qs : List Pkt) :
    takeMessage c (q :: qs) = some (payload q, qs) :=
  (if_neg (not_not.mpr h.1)).trans (if_pos h.2)

theorem takeMessage_of_more (h : (hdr q).1 = c) (hmore : ¬ (hdr q).2 &&& 0x80 = 0) (qs : List Pkt) :
    takeMessage c (q :: qs) = (takeMessage c qs).map fun (msg, rest) => (payload q ++ msg, rest) :=
  (if_neg (not_not.mpr h)).trans (if_neg hmore)

/-- There is a message exactly if there is a last fragment. -/
theorem takeMessage_isSome (c : UInt8) (qs : List Pkt) :
    (∃ msg rest, takeMessage c qs = some (msg, rest)) ↔ ∃ q ∈ qs, Ends c (hdr q) := by
  induction qs with
  | nil =>
    constructor
    · rintro ⟨_, _, h⟩
      cases h
    · rintro ⟨_, h, -⟩
      cases h
  | cons q qs ih =>
    have hmap : ∀ f : List UInt8 × List Pkt → List UInt8 × List Pkt,
        (∃ msg rest, (takeMessage c qs).map f = some (msg, rest)) ↔ ∃ q ∈ qs, Ends c (hdr q) := by
      intro f
      rw [← ih]
      cases takeMessage c qs with
      | none => exact ⟨fun ⟨_, _, h⟩ => (nomatch h), fun ⟨_, _, h⟩ => (nomatch h)⟩
      | some r => exact ⟨fun _ => ⟨r.1, r.2, rfl⟩, fun _ => ⟨(f r).1, (f r).2, rfl⟩⟩
    rw [List.exists_mem_cons_iff]
    by_cases hends : Ends c (hdr q)
    · rw [takeMessage_of_ends hends]
      exact ⟨fun _ => Or.inl hends, fun _ => ⟨_, _, rfl⟩⟩
    · rw [or_iff_right hends]
      by_cases hc : (hdr q).1 = c
      · rw [takeMessage_of_more hc fun hlast => hends ⟨hc, hlast⟩]
        exact hmap _
      · rw [takeMessage_of_ne hc]
        exact hmap _

theorem payload_length (q : Pkt) : (payload q).length + 2 = q.bytes.length := by
  have htwo := q.two_le
  unfold payload
  rw [List.length_drop]
  omega

/-! ## What is read of a fragment -/

theorem readHdr_spec (h : At rbuf pre q post idx) (old : UInt8 × UInt8) :
    readHdr rbuf idx old = hdr q := by
  have htwo := q.two_le
  unfold readHdr hdr
  rw [pktRead_spec h (by omega : 0 + 2 ≤ q.bytes.length), List.drop_zero]
  rcases hbytes : q.bytes with _ | ⟨b, _ | ⟨b', bs⟩⟩
  · rw [hbytes] at htwo
    cases htwo
  · rw [hbytes, List.length_singleton] at htwo
    omega
  · rfl

theorem pktRead_payload (h : At rbuf pre q post idx) :
    dvbRingbufferPktRead rbuf idx 2 (payload q).length = some (payload q) := by
  have hlen := payload_length q
  rw [pktRead_spec h (by omega)]
  exact congrArg some (List.take_of_length_le (Nat.le_refl _))

/-! ## The reader -/

/-- One fragment of another connection is passed. -/
theorem readLoop_pass (h : At rbuf pre q post idx) (hne : (hdr q).1 ≠ c) (old : UInt8 × UInt8)
    (pktlen : ℕ) (out : List UInt8) :
    readLoop count (fuel + 1) rbuf (some (idx, q.bytes.length)) (some c) old pktlen out =
      readLoop count fuel rbuf (dvbRingbufferPktNext rbuf (some idx)) (some c) (hdr q) pktlen out := by
  rw [readLoop, readHdr_spec h]
  exact if_pos hne

/-- One fragment of the connection is taken. -/
theorem readLoop_take {rbuf' : DvbRingbuffer UInt8} (h : At rbuf pre q post idx)
    (hc : (hdr q).1 = c) (hdispose : dvbRingbufferPktDispose rbuf idx = some rbuf')
    (old : UInt8 × UInt8) {pktlen : ℕ} (hcount : pktlen + (payload q).length ≤ count)
    (out : List UInt8) :
    readLoop count (fuel + 1) rbuf (some (idx, q.bytes.length)) (some c) old pktlen out =
      if (hdr q).2 &&& 0x80 = 0 then
        some (((pktlen + (payload q).length : ℕ) : ℤ), some c, out ++ payload q, rbuf')
      else
        readLoop count fuel rbuf' (dvbRingbufferPktNext rbuf (some idx)) (some c) (hdr q)
          (pktlen + (payload q).length) (out ++ payload q) := by
  have hlen := payload_length q
  have hpart : (if pktlen < count then
      if pktlen + q.bytes.length - 2 > count then count - pktlen else q.bytes.length - 2
      else 0) = (payload q).length := by
    split_ifs <;> omega
  have hread : (if pktlen < count then dvbRingbufferPktRead rbuf idx 2 (payload q).length
      else some []) = some (payload q) := by
    by_cases hlt : pktlen < count
    · rw [if_pos hlt, pktRead_payload h]
    · have hnil : payload q = [] := List.length_eq_zero_iff.mp (by omega)
      rw [if_neg hlt, hnil]
  rw [readLoop, readHdr_spec h]
  dsimp only
  rw [Option.getD_some, if_neg (not_not.mpr hc), hpart, hread]
  dsimp only
  rw [hdispose]

/-- The first connection is that of the first fragment. -/
theorem readLoop_first (h : At rbuf pre q post idx) (old : UInt8 × UInt8) (pktlen : ℕ)
    (out : List UInt8) :
    readLoop count fuel rbuf (some (idx, q.bytes.length)) none old pktlen out =
      readLoop count fuel rbuf (some (idx, q.bytes.length)) (some (hdr q).1) old pktlen out := by
  cases fuel with
  | zero => rfl
  | succ fuel =>
    unfold readLoop
    rw [readHdr_spec h]
    rfl

/-- **The reader** assembles the message of its connection, and what it leaves are the other
fragments. -/
theorem readLoop_spec {msg : List UInt8} {rest : List Pkt} {old : UInt8 × UInt8} {pktlen : ℕ}
    {out : List UInt8} (hq : q.ready = true) (hfuel : post.length < fuel)
    (h : At rbuf pre q post idx) (hmsg : takeMessage c (q :: pending post) = some (msg, rest))
    (hcount : pktlen + msg.length ≤ count) :
    ∃ rbuf' pkts',
      readLoop count fuel rbuf (some (idx, q.bytes.length)) (some c) old pktlen out =
        some (((pktlen + msg.length : ℕ) : ℤ), some c, out ++ msg, rbuf') ∧
      Holds rbuf' pkts' ∧ pending pkts' = pending pre ++ rest := by
  induction fuel generalizing rbuf pre q post idx msg rest old pktlen out with
  | zero => exact absurd hfuel (Nat.not_lt_zero _)
  | succ fuel ih =>
    by_cases hends : Ends c (hdr q)
    · rw [takeMessage_of_ends hends] at hmsg
      obtain ⟨rfl, rfl⟩ : payload q = msg ∧ pending post = rest := by simpa using hmsg
      obtain ⟨rbuf', hdispose, hholds, -⟩ := pktDispose_spec h
      refine ⟨rbuf', _, ?_, hholds, ?_⟩
      · rw [readLoop_take h hends.1 hdispose old hcount out]
        exact if_pos hends.2
      · rw [pending_trim, pending_append, pending_dispose]
    · -- there is a fragment behind, since the last one is still to come
      have hmore : ∃ msg' rest', takeMessage c (pending post) = some (msg', rest') := by
        rw [takeMessage_isSome]
        obtain ⟨q', hq', hends'⟩ := (takeMessage_isSome c _).mp ⟨msg, rest, hmsg⟩
        rcases List.mem_cons.mp hq' with rfl | hq'
        · exact absurd hends' hends
        · exact ⟨q', hq', hends'⟩
      obtain ⟨msg', rest', hmsg'⟩ := hmore
      obtain ⟨q', qs, hqs⟩ : ∃ q' qs, pending post = q' :: qs := by
        cases hpost : pending post with
        | nil => rw [hpost] at hmsg'; cases hmsg'
        | cons q' qs => exact ⟨q', qs, rfl⟩
      obtain ⟨ds, post', rfl, hds, hq', rfl⟩ := pending_eq_cons hqs
      obtain ⟨idx', hnext, hat'⟩ := pktNext_some h hds hq'
      have hfuel' : post'.length < fuel := by
        rw [List.length_append, List.length_cons] at hfuel
        omega
      have hds' : pending ds = [] := pending_eq_nil.mpr hds
      rw [hqs] at hmsg hmsg'
      by_cases hc : (hdr q).1 = c
      · have hlast : ¬ (hdr q).2 &&& 0x80 = 0 := fun hlast => hends ⟨hc, hlast⟩
        rw [takeMessage_of_more hc hlast, hmsg'] at hmsg
        obtain ⟨rfl, rfl⟩ : payload q ++ msg' = msg ∧ rest' = rest := by simpa using hmsg
        rw [List.length_append, ← Nat.add_assoc] at hcount
        obtain ⟨rbuf', hdispose, hat''⟩ := h.dispose hat' hq'
        obtain ⟨rbuf'', pkts'', hread, hholds, hpending⟩ := @ih rbuf' _ post' q' idx' msg' rest'
          (hdr q) _ (out ++ payload q) hq' hfuel' hat'' hmsg' hcount
        refine ⟨rbuf'', pkts'', ?_, hholds, ?_⟩
        · rw [readLoop_take h hc hdispose old (by omega) out, if_neg hlast, hnext, hread,
            List.append_assoc, List.length_append, Nat.add_assoc]
        · rw [hpending, pending_trim, pending_append, pending_dispose, hds', List.append_nil]
      · rw [takeMessage_of_ne hc, hmsg'] at hmsg
        obtain ⟨rfl, rfl⟩ : msg' = msg ∧ q :: rest' = rest := by simpa using hmsg
        obtain ⟨rbuf'', pkts'', hread, hholds, hpending⟩ := @ih rbuf _ post' q' idx' msg' rest'
          (hdr q) pktlen out hq' hfuel' hat' hmsg' hcount
        refine ⟨rbuf'', pkts'', ?_, hholds, ?_⟩
        · rw [readLoop_pass h hc, hnext, hread]
        · rw [hpending, pending_append, pending_cons hq, hds', List.append_assoc]
          rfl

/-! ## The predicate in a slot -/

/-- From `idx` on, `pkt_next` comes upon the header `h`.  `old` is the header before. -/
inductive Sees (rbuf : DvbRingbuffer UInt8) : Option ℕ → UInt8 × UInt8 → UInt8 × UInt8 → Prop
  | here (idx : ℕ) (old : UInt8 × UInt8) : Sees rbuf (some idx) old (readHdr rbuf idx old)
  | next {idx : ℕ} {old h : UInt8 × UInt8}
      (hnext : Sees rbuf ((dvbRingbufferPktNext rbuf (some idx)).map Prod.fst)
        (readHdr rbuf idx old) h) : Sees rbuf (some idx) old h

/-- From `idx` on, `pkt_next` comes to an end without a last fragment of connection `c`. -/
inductive Stops (rbuf : DvbRingbuffer UInt8) (c : UInt8) : Option ℕ → UInt8 × UInt8 → Prop
  | done (old : UInt8 × UInt8) : Stops rbuf c none old
  | next {idx : ℕ} {old : UInt8 × UInt8} (hends : ¬ Ends c (readHdr rbuf idx old))
      (hnext : Stops rbuf c ((dvbRingbufferPktNext rbuf (some idx)).map Prod.fst)
        (readHdr rbuf idx old)) : Stops rbuf c (some idx) old

theorem scanSlot_succ (c : UInt8) (old : UInt8 × UInt8) (fuel idx : ℕ) :
    scanSlot rbuf (fuel + 1) (some c) old (some idx) =
      if Ends c (readHdr rbuf idx old) then some (true, some c, readHdr rbuf idx old)
      else
        scanSlot rbuf fuel (some c) (readHdr rbuf idx old)
          ((dvbRingbufferPktNext rbuf (some idx)).map Prod.fst) := rfl

/-- The first connection that the predicate comes upon is its connection. -/
theorem scanSlot_first (h : At rbuf pre q post idx) (old : UInt8 × UInt8) (conn : Option UInt8)
    (fuel : ℕ) :
    scanSlot rbuf fuel conn old (some idx) =
      scanSlot rbuf fuel (some (conn.getD (hdr q).1)) old (some idx) := by
  cases fuel with
  | zero => rfl
  | succ fuel =>
    rw [scanSlot_succ, scanSlot, readHdr_spec h]
    rfl

/-- More steps do not change the outcome. -/
theorem scanSlot_mono {conn : Option UInt8} {old : UInt8 × UInt8} {idx : Option ℕ}
    {r : Bool × Option UInt8 × (UInt8 × UInt8)} (h : scanSlot rbuf fuel conn old idx = some r)
    {fuel' : ℕ} (hle : fuel ≤ fuel') : scanSlot rbuf fuel' conn old idx = some r := by
  induction fuel generalizing fuel' conn old idx with
  | zero => cases h
  | succ fuel ih =>
    obtain ⟨k, rfl⟩ : ∃ k, fuel' = k + 1 := ⟨fuel' - 1, by omega⟩
    cases idx with
    | none => exact h
    | some idx =>
      unfold scanSlot at h ⊢
      dsimp only at h ⊢
      split_ifs at h ⊢
      · exact h
      · exact ih h (by omega)

/-- The predicate is satisfied in a slot if it comes upon a last fragment. -/
theorem scanSlot_true_iff {idx : Option ℕ} {old : UInt8 × UInt8} :
    (∃ fuel r, scanSlot rbuf fuel (some c) old idx = some (true, r)) ↔
      ∃ h, Sees rbuf idx old h ∧ Ends c h := by
  constructor
  · rintro ⟨fuel, r, h⟩
    induction fuel generalizing idx old with
    | zero => cases h
    | succ fuel ih =>
      cases idx with
      | none => cases h
      | some idx =>
        rw [scanSlot_succ] at h
        by_cases hends : Ends c (readHdr rbuf idx old)
        · exact ⟨_, .here idx old, hends⟩
        · rw [if_neg hends] at h
          obtain ⟨h', hsees, hends'⟩ := ih h
          exact ⟨h', .next hsees, hends'⟩
  · rintro ⟨h, hsees, hends⟩
    induction hsees with
    | here idx old => exact ⟨1, _, (scanSlot_succ c old 0 idx).trans (if_pos hends)⟩
    | @next idx old h _ ih =>
      obtain ⟨fuel, r, hscan⟩ := ih hends
      by_cases hends' : Ends c (readHdr rbuf idx old)
      · exact ⟨1, _, (scanSlot_succ c old 0 idx).trans (if_pos hends')⟩
      · exact ⟨fuel + 1, r, (scanSlot_succ c old fuel idx).trans ((if_neg hends').trans hscan)⟩

/-- The predicate is not satisfied in a slot, and keeps its connection. -/
theorem scanSlot_false_iff {idx : Option ℕ} {old : UInt8 × UInt8} :
    (∃ fuel conn old', scanSlot rbuf fuel (some c) old idx = some (false, conn, old')) ↔
      Stops rbuf c idx old := by
  constructor
  · rintro ⟨fuel, conn, old', h⟩
    induction fuel generalizing idx old with
    | zero => cases h
    | succ fuel ih =>
      cases idx with
      | none => exact .done old
      | some idx =>
        rw [scanSlot_succ] at h
        by_cases hends : Ends c (readHdr rbuf idx old)
        · rw [if_pos hends] at h
          cases h
        · rw [if_neg hends] at h
          exact .next hends (ih h)
  · intro hstops
    induction hstops with
    | done old => exact ⟨1, some c, old, rfl⟩
    | @next idx old hends _ ih =>
      obtain ⟨fuel, conn, old', hscan⟩ := ih
      exact ⟨fuel + 1, conn, old',
        (scanSlot_succ c old fuel idx).trans ((if_neg hends).trans hscan)⟩

theorem scanSlot_conn {idx : Option ℕ} {old old' : UInt8 × UInt8} {b : Bool} {conn : Option UInt8}
    (h : scanSlot rbuf fuel (some c) old idx = some (b, conn, old')) : conn = some c := by
  induction fuel generalizing idx old with
  | zero => cases h
  | succ fuel ih =>
    cases idx with
    | none =>
      obtain ⟨-, rfl, -⟩ : false = b ∧ some c = conn ∧ old = old' := by simpa [scanSlot] using h
      rfl
    | some idx =>
      rw [scanSlot_succ] at h
      split_ifs at h
      · obtain ⟨-, rfl, -⟩ : true = b ∧ some c = conn ∧ readHdr rbuf idx old = old' := by
          simpa using h
        rfl
      · exact ih h

/-- The last packet that is still to be read, `q`, is at `idx`. -/
def LastAt (rbuf : DvbRingbuffer UInt8) (pkts : List Pkt) (q : Pkt) (idx : ℕ) : Prop :=
  ∃ pre ds, pkts = pre ++ q :: ds ∧ q.ready = true ∧ (∀ d ∈ ds, d.ready = false) ∧
    idx = (rbuf.pread + (stream pre).length) % 65535

/-- The predicate is satisfied in a slot: there is a last fragment of the connection, or `pkt_next`
takes what is behind the last fragment for one. -/
def Meets (rbuf : DvbRingbuffer UInt8) (pkts : List Pkt) (c : UInt8) : Prop :=
  (∃ q ∈ pending pkts, Ends c (hdr q)) ∨
    ∃ q idx, LastAt rbuf pkts q idx ∧
      ∃ h, Sees rbuf ((dvbRingbufferPktNext rbuf (some idx)).map Prod.fst) (hdr q) h ∧ Ends c h

/-- The predicate comes to the end of a slot. -/
def Passes (rbuf : DvbRingbuffer UInt8) (pkts : List Pkt) (c : UInt8) : Prop :=
  (∀ q ∈ pending pkts, ¬ Ends c (hdr q)) ∧
    ∀ q idx, LastAt rbuf pkts q idx →
      Stops rbuf c ((dvbRingbufferPktNext rbuf (some idx)).map Prod.fst) (hdr q)

theorem lastAt_iff (h : At rbuf pre q ds idx) (hq : q.ready = true)
    (hds : ∀ d ∈ ds, d.ready = false) {q' : Pkt} {idx' : ℕ} :
    LastAt rbuf (pre ++ q :: ds) q' idx' ↔ q' = q ∧ idx' = idx := by
  have hdrop : ∀ (pre ds : List Pkt) (q : Pkt), q.ready = true → (∀ d ∈ ds, d.ready = false) →
      (pre ++ q :: ds).reverse.dropWhile (fun q => !q.ready) = q :: pre.reverse := by
    intro pre ds q hq hds
    rw [List.reverse_append, List.reverse_cons, List.append_assoc, List.singleton_append,
      List.dropWhile_append_of_pos fun d hd => by simp [hds d (List.mem_reverse.mp hd)],
      List.dropWhile_cons_of_neg (by simp [hq])]
  constructor
  · rintro ⟨pre', ds', heq, hq', hds', rfl⟩
    have hcons := congrArg (fun l => l.reverse.dropWhile fun q => !q.ready) heq
    rw [hdrop pre ds q hq hds, hdrop pre' ds' q' hq' hds'] at hcons
    obtain ⟨rfl, hpre⟩ := List.cons.inj hcons
    rw [List.reverse_injective hpre] at h
    exact ⟨rfl, h.idx.symm⟩
  · rintro ⟨rfl, rfl⟩
    exact ⟨pre, ds, rfl, hq, hds, h.idx⟩

theorem sees_step (h : At rbuf pre q post idx) {old x : UInt8 × UInt8} :
    Sees rbuf (some idx) old x ↔
      hdr q = x ∨ Sees rbuf ((dvbRingbufferPktNext rbuf (some idx)).map Prod.fst) (hdr q) x := by
  have hread := readHdr_spec h old
  constructor
  · rintro (_ | hnext)
    · exact Or.inl hread.symm
    · rw [hread] at hnext
      exact Or.inr hnext
  · rintro (rfl | hnext)
    · rw [← hread]
      exact .here idx old
    · rw [← hread] at hnext
      exact .next hnext

theorem stops_step (h : At rbuf pre q post idx) {old : UInt8 × UInt8} :
    Stops rbuf c (some idx) old ↔ ¬ Ends c (hdr q) ∧
      Stops rbuf c ((dvbRingbufferPktNext rbuf (some idx)).map Prod.fst) (hdr q) := by
  have hread := readHdr_spec h old
  constructor
  · rintro (_ | ⟨hends, hnext⟩)
    rw [hread] at hends hnext
    exact ⟨hends, hnext⟩
  · rintro ⟨hends, hnext⟩
    rw [← hread] at hends hnext
    exact .next hends hnext

theorem exists_sees_step (h : At rbuf pre q post idx) (old : UInt8 × UInt8) :
    (∃ x, Sees rbuf (some idx) old x ∧ Ends c x) ↔ Ends c (hdr q) ∨
      ∃ x, Sees rbuf ((dvbRingbufferPktNext rbuf (some idx)).map Prod.fst) (hdr q) x ∧ Ends c x := by
  constructor
  · rintro ⟨x, hsees, hends⟩
    rcases (sees_step h).mp hsees with rfl | hnext
    · exact Or.inl hends
    · exact Or.inr ⟨x, hnext, hends⟩
  · rintro (hends | ⟨x, hnext, hends⟩)
    · exact ⟨_, (sees_step h).mpr (Or.inl rfl), hends⟩
    · exact ⟨x, (sees_step h).mpr (Or.inr hnext), hends⟩

/-- Behind a fragment the predicate comes upon the fragments that follow, and then upon what is behind
the last one. -/
theorem sees_behind (h : At rbuf pre q post idx) (hq : q.ready = true) :
    (∃ x, Sees rbuf ((dvbRingbufferPktNext rbuf (some idx)).map Prod.fst) (hdr q) x ∧ Ends c x) ↔
      (∃ q' ∈ pending post, Ends c (hdr q')) ∨
        ∃ q' idx', LastAt rbuf (pre ++ q :: post) q' idx' ∧
          ∃ x, Sees rbuf ((dvbRingbufferPktNext rbuf (some idx')).map Prod.fst) (hdr q') x ∧
            Ends c x := by
  generalize hqs : pending post = qs
  induction qs generalizing pre q post idx with
  | nil =>
    have hds := pending_eq_nil.mp hqs
    constructor
    · exact fun hsees => Or.inr ⟨q, idx, (lastAt_iff h hq hds).mpr ⟨rfl, rfl⟩, hsees⟩
    · rintro (⟨_, hmem, -⟩ | ⟨q', idx', hlast, hsees⟩)
      · cases hmem
      · obtain ⟨rfl, rfl⟩ := (lastAt_iff h hq hds).mp hlast
        exact hsees
  | cons q' qs ih =>
    obtain ⟨ds, post', rfl, hds, hq', hpost⟩ := pending_eq_cons hqs
    obtain ⟨idx', hnext, hat⟩ := pktNext_some h hds hq'
    have hassoc : pre ++ q :: (ds ++ q' :: post') = pre ++ q :: ds ++ q' :: post' := by
      rw [List.append_assoc, List.cons_append]
    rw [hnext, Option.map_some, exists_sees_step hat, ih hat hq' hpost, List.exists_mem_cons_iff,
      or_assoc, hassoc]

theorem stops_behind (h : At rbuf pre q post idx) (hq : q.ready = true) :
    Stops rbuf c ((dvbRingbufferPktNext rbuf (some idx)).map Prod.fst) (hdr q) ↔
      (∀ q' ∈ pending post, ¬ Ends c (hdr q')) ∧
        ∀ q' idx', LastAt rbuf (pre ++ q :: post) q' idx' →
          Stops rbuf c ((dvbRingbufferPktNext rbuf (some idx')).map Prod.fst) (hdr q') := by
  generalize hqs : pending post = qs
  induction qs generalizing pre q post idx with
  | nil =>
    have hds := pending_eq_nil.mp hqs
    constructor
    · intro hstops
      refine ⟨fun _ hmem => (nomatch hmem), fun q' idx' hlast => ?_⟩
      obtain ⟨rfl, rfl⟩ := (lastAt_iff h hq hds).mp hlast
      exact hstops
    · exact fun hstops => hstops.2 q idx ((lastAt_iff h hq hds).mpr ⟨rfl, rfl⟩)
  | cons q' qs ih =>
    obtain ⟨ds, post', rfl, hds, hq', hpost⟩ := pending_eq_cons hqs
    obtain ⟨idx', hnext, hat⟩ := pktNext_some h hds hq'
    have hassoc : pre ++ q :: (ds ++ q' :: post') = pre ++ q :: ds ++ q' :: post' := by
      rw [List.append_assoc, List.cons_append]
    rw [hnext, Option.map_some, stops_step hat, ih hat hq' hpost, List.forall_mem_cons, and_assoc,
      hassoc]

/-! ## The predicate -/

theorem first_none (h : Holds rbuf pkts) (hnone : pending pkts = []) :
    (dvbRingbufferPktNext rbuf none).map Prod.fst = none := by
  rw [pktNext_none h (pending_eq_nil.mp hnone)]
  rfl

/-- The connection of the predicate in a slot, `conn` being what it has from the slots before. -/
def connection (conn : Option UInt8) (q : Pkt) : UInt8 := conn.getD (hdr q).1

/-- Whether the predicate is satisfied in a slot. -/
theorem scanSlot_meets (h : Holds rbuf pkts) {qs : List Pkt} (hfirst : pending pkts = q :: qs)
    (conn : Option UInt8) (old : UInt8 × UInt8) :
    (∃ fuel r, scanSlot rbuf fuel conn old ((dvbRingbufferPktNext rbuf none).map Prod.fst) =
      some (true, r)) ↔ Meets rbuf pkts (connection conn q) := by
  unfold Meets
  rw [hfirst]
  obtain ⟨ds, post, rfl, hds, hq, rfl⟩ := pending_eq_cons hfirst
  obtain ⟨idx, hnext, hat⟩ := pktNext_first h hds hq
  rw [hnext, Option.map_some, List.exists_mem_cons_iff, or_assoc, ← sees_behind hat hq,
    ← exists_sees_step hat old, ← scanSlot_true_iff]
  exact exists_congr fun fuel => exists_congr fun r => by
    rw [scanSlot_first hat old conn fuel]
    rfl

/-- The predicate goes on with its connection. -/
theorem scanSlot_connection (h : Holds rbuf pkts) {qs : List Pkt} (hfirst : pending pkts = q :: qs)
    {conn conn' : Option UInt8} {old old' : UInt8 × UInt8} {b : Bool}
    (hscan : scanSlot rbuf fuel conn old ((dvbRingbufferPktNext rbuf none).map Prod.fst) =
      some (b, conn', old')) : conn' = some (connection conn q) := by
  obtain ⟨ds, post, rfl, hds, hq, -⟩ := pending_eq_cons hfirst
  obtain ⟨idx, hnext, hat⟩ := pktNext_first h hds hq
  rw [hnext, Option.map_some, scanSlot_first hat] at hscan
  exact scanSlot_conn hscan

theorem scanSlot_passes (h : Holds rbuf pkts) {qs : List Pkt} (hfirst : pending pkts = q :: qs)
    (conn : Option UInt8) (old : UInt8 × UInt8) :
    (∃ fuel conn' old', scanSlot rbuf fuel conn old
      ((dvbRingbufferPktNext rbuf none).map Prod.fst) = some (false, conn', old')) ↔
        Passes rbuf pkts (connection conn q) := by
  unfold Passes
  rw [hfirst]
  obtain ⟨ds, post, rfl, hds, hq, rfl⟩ := pending_eq_cons hfirst
  obtain ⟨idx, hnext, hat⟩ := pktNext_first h hds hq
  rw [hnext, Option.map_some, List.forall_mem_cons, and_assoc, ← stops_behind hat hq,
    ← stops_step hat, ← scanSlot_false_iff]
  exact exists_congr fun fuel => exists_congr fun conn' => exists_congr fun old' => by
    rw [scanSlot_first hat old conn fuel]
    rfl

/-- The slot that the predicate finds among `n` slots from `slot` on, with a connection from the slots
before. -/
inductive Picks (ca : DvbCaPrivate) (pkts : ℕ → List Pkt) : ℕ → ℕ → Option UInt8 → ℕ → Prop
  | idle {n slot s : ℕ} {conn : Option UInt8} (hidle : (ca.slotInfo slot).slotState ≠ .RUNNING)
      (hnext : Picks ca pkts n ((slot + 1) % ca.slotCount) conn s) :
      Picks ca pkts (n + 1) slot conn s
  | empty {n slot s : ℕ} {conn : Option UInt8} {rbuf : DvbRingbuffer UInt8}
      (hrun : (ca.slotInfo slot).slotState = .RUNNING)
      (hbuf : (ca.slotInfo slot).rxBuffer = some rbuf) (hnone : pending (pkts slot) = [])
      (hnext : Picks ca pkts n ((slot + 1) % ca.slotCount) conn s) :
      Picks ca pkts (n + 1) slot conn s
  | pass {n slot s : ℕ} {conn : Option UInt8} {rbuf : DvbRingbuffer UInt8} {q : Pkt}
      {qs : List Pkt} (hrun : (ca.slotInfo slot).slotState = .RUNNING)
      (hbuf : (ca.slotInfo slot).rxBuffer = some rbuf) (hfirst : pending (pkts slot) = q :: qs)
      (hpass : Passes rbuf (pkts slot) (connection conn q))
      (hnext : Picks ca pkts n ((slot + 1) % ca.slotCount) (some (connection conn q)) s) :
      Picks ca pkts (n + 1) slot conn s
  | meets {n slot : ℕ} {conn : Option UInt8} {rbuf : DvbRingbuffer UInt8} {q : Pkt}
      {qs : List Pkt} (hrun : (ca.slotInfo slot).slotState = .RUNNING)
      (hbuf : (ca.slotInfo slot).rxBuffer = some rbuf) (hfirst : pending (pkts slot) = q :: qs)
      (hmeets : Meets rbuf (pkts slot) (connection conn q)) :
      Picks ca pkts (n + 1) slot conn slot

/-- The receive buffers hold the fragments `pkts`. -/
def HoldsAll (ca : DvbCaPrivate) (pkts : ℕ → List Pkt) : Prop :=
  ∀ ⦃s rbuf⦄, (ca.slotInfo s).rxBuffer = some rbuf → Holds rbuf (pkts s)

theorem scanSlots_idle {n slot : ℕ} (hidle : (ca.slotInfo slot).slotState ≠ .RUNNING)
    (conn : Option UInt8) (old : UInt8 × UInt8) :
    scanSlots fuel ca (n + 1) slot conn old =
      scanSlots fuel ca n ((slot + 1) % ca.slotCount) conn old := if_pos hidle

theorem scanSlots_run {n slot : ℕ} (hrun : (ca.slotInfo slot).slotState = .RUNNING)
    (hbuf : (ca.slotInfo slot).rxBuffer = some rbuf) (conn : Option UInt8) (old : UInt8 × UInt8) :
    scanSlots fuel ca (n + 1) slot conn old =
      match scanSlot rbuf fuel conn old ((dvbRingbufferPktNext rbuf none).map Prod.fst) with
      | none => none
      | some (true, _) => some (some slot, some ((slot + 1) % ca.slotCount))
      | some (false, conn', old') =>
        scanSlots fuel ca n ((slot + 1) % ca.slotCount) conn' old' := by
  rw [scanSlots, if_neg (not_not.mpr hrun)]
  exact hbuf ▸ rfl

/-- A slot that is running without a receive buffer ends the search. -/
theorem scanSlots_unready {n slot : ℕ} (hrun : (ca.slotInfo slot).slotState = .RUNNING)
    (hbuf : (ca.slotInfo slot).rxBuffer = none) (conn : Option UInt8) (old : UInt8 × UInt8) :
    scanSlots fuel ca (n + 1) slot conn old = some (none, none) := by
  rw [scanSlots, if_neg (not_not.mpr hrun), hbuf]

theorem scanSlots_mono {n slot : ℕ} {conn : Option UInt8} {old : UInt8 × UInt8}
    {r : Option ℕ × Option ℕ} (h : scanSlots fuel ca n slot conn old = some r) {fuel' : ℕ}
    (hle : fuel ≤ fuel') : scanSlots fuel' ca n slot conn old = some r := by
  induction n generalizing slot conn old with
  | zero => exact h
  | succ n ih =>
    by_cases hrun : (ca.slotInfo slot).slotState = .RUNNING
    · cases hbuf : (ca.slotInfo slot).rxBuffer with
      | none =>
        rw [scanSlots_unready hrun hbuf] at h ⊢
        exact h
      | some rbuf =>
        rw [scanSlots_run hrun hbuf] at h ⊢
        cases hscan : scanSlot rbuf fuel conn old
            ((dvbRingbufferPktNext rbuf none).map Prod.fst) with
        | none => rw [hscan] at h; cases h
        | some r' =>
          rw [hscan] at h
          rw [scanSlot_mono hscan hle]
          obtain ⟨_ | _, conn', old'⟩ := r'
          · exact ih h
          · exact h
    · rw [scanSlots_idle hrun] at h ⊢
      exact ih h

/-- **The predicate finds** the slot that `Picks` names. -/
theorem scanSlots_iff (hall : HoldsAll ca pkts) {n slot s : ℕ} {conn : Option UInt8}
    (old : UInt8 × UInt8) :
    (∃ fuel next, scanSlots fuel ca n slot conn old = some (some s, next)) ↔
      Picks ca pkts n slot conn s := by
  constructor
  · rintro ⟨fuel, next, h⟩
    induction n generalizing slot conn old with
    | zero => cases h
    | succ n ih =>
      by_cases hrun : (ca.slotInfo slot).slotState = .RUNNING
      · cases hbuf : (ca.slotInfo slot).rxBuffer with
        | none =>
          rw [scanSlots_unready hrun hbuf] at h
          cases h
        | some rbuf =>
          have hholds := hall hbuf
          rw [scanSlots_run hrun hbuf] at h
          cases hfirst : pending (pkts slot) with
          | nil =>
            rw [first_none hholds hfirst] at h
            cases fuel with
            | zero => cases h
            | succ fuel => exact .empty hrun hbuf hfirst (ih _ h)
          | cons q qs =>
            cases hscan : scanSlot rbuf fuel conn old
                ((dvbRingbufferPktNext rbuf none).map Prod.fst) with
            | none => rw [hscan] at h; cases h
            | some r =>
              rw [hscan] at h
              obtain ⟨_ | _, conn', old'⟩ := r
              · rw [scanSlot_connection hholds hfirst hscan] at h
                exact .pass hrun hbuf hfirst
                  ((scanSlot_passes hholds hfirst conn old).mp ⟨_, _, _, hscan⟩) (ih _ h)
              · obtain rfl : slot = s := by simpa using congrArg (Option.map Prod.fst) h
                exact .meets hrun hbuf hfirst
                  ((scanSlot_meets hholds hfirst conn old).mp ⟨_, _, hscan⟩)
      · rw [scanSlots_idle hrun] at h
        exact .idle hrun (ih _ h)
  · intro h
    induction h generalizing old with
    | idle hidle _ ih =>
      obtain ⟨fuel, next, hscan⟩ := ih old
      exact ⟨fuel, next, (scanSlots_idle hidle _ old).trans hscan⟩
    | @empty n slot s conn rbuf hrun hbuf hnone _ ih =>
      obtain ⟨fuel, next, hscan⟩ := ih old
      refine ⟨fuel + 1, next, ?_⟩
      rw [scanSlots_run hrun hbuf, first_none (hall hbuf) hnone]
      exact scanSlots_mono hscan (Nat.le_succ fuel)
    | @pass n slot s conn rbuf q qs hrun hbuf hfirst hpass _ ih =>
      have hholds := hall hbuf
      obtain ⟨fuel₁, conn', old', hscan₁⟩ := (scanSlot_passes hholds hfirst conn old).mpr hpass
      obtain ⟨fuel₂, next, hscan₂⟩ := ih old'
      have hconn := scanSlot_connection hholds hfirst hscan₁
      refine ⟨max fuel₁ fuel₂, next, ?_⟩
      rw [scanSlots_run hrun hbuf, scanSlot_mono hscan₁ (Nat.le_max_left ..), hconn]
      exact scanSlots_mono hscan₂ (Nat.le_max_right ..)
    | @meets n slot conn rbuf q qs hrun hbuf hfirst hmeets =>
      obtain ⟨fuel, r, hscan⟩ := (scanSlot_meets (hall hbuf) hfirst conn old).mpr hmeets
      refine ⟨fuel, some ((slot + 1) % ca.slotCount), ?_⟩
      rw [scanSlots_run hrun hbuf, hscan]

/-! ## A message is read -/

/-- The predicate reports a message in slot `s`. -/
def Reports (ca : DvbCaPrivate) (old : UInt8 × UInt8) (s : ℕ) : Prop :=
  ∃ fuel ca', dvbCaEn50221IoReadCondition fuel ca old = some (some s, ca')

/-- A client whose buffer is large enough gets the message of the first connection of slot `s`, and
takes no other fragments out of the receive buffers. -/
def Reads (ca : DvbCaPrivate) (pkts : ℕ → List Pkt) (old : UInt8 × UInt8) (s : ℕ) : Prop :=
  ∃ q qs msg rest, pending (pkts s) = q :: qs ∧
    takeMessage (hdr q).1 (q :: qs) = some (msg, rest) ∧
    ∀ nonblock count, msg.length + 2 ≤ count →
      ∃ fuel ca' rbuf' pkts',
        dvbCaEn50221IoRead fuel nonblock old ca count =
          some (((2 + msg.length : ℕ) : ℤ), UInt8.ofNat s :: (hdr q).1 :: msg, ca') ∧
        (ca'.slotInfo s).rxBuffer = some rbuf' ∧ Holds rbuf' pkts' ∧ pending pkts' = rest ∧
        ∀ s' ≠ s, ca'.slotInfo s' = ca.slotInfo s'

/-- What is left of the other connections is all of it. -/
theorem takeMessage_others {qs rest : List Pkt} {msg : List UInt8}
    (h : takeMessage c qs = some (msg, rest)) :
    rest.filter (fun q => (hdr q).1 ≠ c) = qs.filter fun q => (hdr q).1 ≠ c := by
  induction qs generalizing msg rest with
  | nil => cases h
  | cons q qs ih =>
    by_cases hc : (hdr q).1 = c
    · have hdrop : (q :: qs).filter (fun q => (hdr q).1 ≠ c) = qs.filter fun q => (hdr q).1 ≠ c :=
        List.filter_cons_of_neg (by simp [hc])
      rw [hdrop]
      by_cases hlast : (hdr q).2 &&& 0x80 = 0
      · rw [takeMessage_of_ends ⟨hc, hlast⟩] at h
        obtain ⟨-, rfl⟩ : payload q = msg ∧ qs = rest := by simpa using h
        rfl
      · rw [takeMessage_of_more hc hlast] at h
        obtain ⟨⟨msg', rest'⟩, htake, heq⟩ := Option.map_eq_some_iff.mp h
        obtain ⟨-, rfl⟩ : payload q ++ msg' = msg ∧ rest' = rest := by simpa using heq
        exact ih htake
    · rw [takeMessage_of_ne hc] at h
      obtain ⟨⟨msg', rest'⟩, htake, heq⟩ := Option.map_eq_some_iff.mp h
      obtain ⟨-, rfl⟩ : msg' = msg ∧ q :: rest' = rest := by simpa using heq
      rw [List.filter_cons_of_pos (by simpa using hc), List.filter_cons_of_pos (by simpa using hc),
        ih htake]

theorem reports_iff (hall : HoldsAll ca pkts) (old : UInt8 × UInt8) (s : ℕ) :
    Reports ca old s ↔ Picks ca pkts ca.slotCount ca.nextReadSlot none s := by
  rw [← scanSlots_iff hall old]
  constructor
  · rintro ⟨fuel, ca', h⟩
    obtain ⟨⟨r, next⟩, hscan, heq⟩ := Option.map_eq_some_iff.mp h
    obtain ⟨rfl, -⟩ := Prod.mk.inj heq
    exact ⟨fuel, next, hscan⟩
  · rintro ⟨fuel, next, hscan⟩
    exact ⟨fuel, _, congrArg (Option.map _) hscan⟩

/-- A slot that is found has a receive buffer. -/
theorem Picks.buffer {n slot s : ℕ} {conn : Option UInt8} (h : Picks ca pkts n slot conn s) :
    ∃ rbuf, (ca.slotInfo s).rxBuffer = some rbuf := by
  induction h with
  | idle _ _ ih => exact ih
  | empty _ _ _ _ ih => exact ih
  | pass _ _ _ _ _ ih => exact ih
  | meets _ hbuf _ _ => exact ⟨_, hbuf⟩

/-- The predicate looks at the slots, and does not change them. -/
theorem ioReadCondition_slotInfo {old : UInt8 × UInt8} {r : Option ℕ} {ca' : DvbCaPrivate}
    (h : dvbCaEn50221IoReadCondition fuel ca old = some (r, ca')) : ca'.slotInfo = ca.slotInfo := by
  obtain ⟨r', -, heq⟩ := Option.map_eq_some_iff.mp h
  rw [← (Prod.mk.inj heq).2]

theorem ioReadCondition_mono {old : UInt8 × UInt8} {r : Option ℕ × DvbCaPrivate}
    (h : dvbCaEn50221IoReadCondition fuel ca old = some r) {fuel' : ℕ} (hle : fuel ≤ fuel') :
    dvbCaEn50221IoReadCondition fuel' ca old = some r := by
  obtain ⟨r', hscan, heq⟩ := Option.map_eq_some_iff.mp h
  rw [← heq]
  exact congrArg (Option.map _) (scanSlots_mono hscan hle)

/-- The call when the predicate has found a slot and the loop has ended. -/
theorem ioRead_eq {old : UInt8 × UInt8} {s : ℕ} {ca' : DvbCaPrivate} (hcount : 2 ≤ count)
    (hcond : dvbCaEn50221IoReadCondition fuel ca old = some (some s, ca'))
    (hbuf : (ca'.slotInfo s).rxBuffer = some rbuf) {status : ℤ} {conn : Option UInt8}
    {out : List UInt8} {rbuf' : DvbRingbuffer UInt8}
    (hread : readLoop count fuel rbuf (dvbRingbufferPktNext rbuf none) none old 2 [] =
      some (status, conn, out, rbuf')) (nonblock : Bool) :
    dvbCaEn50221IoRead fuel nonblock old ca count =
      some (status, if status < 0 then out else UInt8.ofNat s :: conn.getD 0 :: out,
        ca'.setSlot s { ca'.slotInfo s with rxBuffer := some rbuf' }) := by
  unfold dvbCaEn50221IoRead
  rw [if_neg (Nat.not_lt.mpr hcount), hcond]
  dsimp only
  rw [hbuf]
  dsimp only
  rw [hread]
  rfl

/-- **The message is read** if its last fragment is there. -/
theorem reads_of_complete (hall : HoldsAll ca pkts) {old : UInt8 × UInt8} {s : ℕ}
    (hreports : Reports ca old s) (hfirst : FirstComplete (pkts s)) : Reads ca pkts old s := by
  obtain ⟨rbuf, hbuf⟩ := ((reports_iff hall old s).mp hreports).buffer
  obtain ⟨fuel, ca', hcond⟩ := hreports
  have hslots := ioReadCondition_slotInfo hcond
  obtain ⟨q, qs, hpending, hends⟩ := hfirst
  rw [hpending] at hends
  obtain ⟨msg, rest, hmsg⟩ := (takeMessage_isSome _ _).mpr hends
  refine ⟨q, qs, msg, rest, hpending, hmsg, fun nonblock count hcount => ?_⟩
  have hholds := hall hbuf
  obtain ⟨ds, post, heq, hds, hq, hpost⟩ := pending_eq_cons hpending
  rw [heq] at hholds
  obtain ⟨idx, hnext, hat⟩ := pktNext_first hholds hds hq
  have hds' : pending ds = [] := pending_eq_nil.mpr hds
  rw [← hpost] at hmsg
  obtain ⟨rbuf', pkts', hread, hholds', hleft⟩ := @readLoop_spec rbuf ds post q idx count
    (max fuel (post.length + 1)) (hdr q).1 msg rest old 2 [] hq (by omega) hat hmsg (by omega)
  rw [hds', List.nil_append] at hleft
  have hfirst : readLoop count (max fuel (post.length + 1)) rbuf (dvbRingbufferPktNext rbuf none)
      none old 2 [] = some (((2 + msg.length : ℕ) : ℤ), some (hdr q).1, msg, rbuf') := by
    rw [hnext, readLoop_first hat, hread]
    rfl
  refine ⟨_, _, rbuf', pkts', ioRead_eq (by omega)
    (ioReadCondition_mono hcond (Nat.le_max_left ..)) (by rw [hslots]; exact hbuf) hfirst nonblock,
    congrArg DvbCaSlot.rxBuffer (slotInfo_setSlot_self ..), hholds', hleft, fun s' hne => ?_⟩
  rw [slotInfo_setSlot_of_ne hne, hslots]

theorem complete_of_reads {old : UInt8 × UInt8} {s : ℕ} (h : Reads ca pkts old s) :
    FirstComplete (pkts s) := by
  obtain ⟨q, qs, msg, rest, hpending, hmsg, -⟩ := h
  refine ⟨q, qs, hpending, ?_⟩
  rw [hpending]
  exact (takeMessage_isSome _ _).mp ⟨msg, rest, hmsg⟩

/-- **When the messages that are reported are read**: exactly if the slot that the predicate picks has
the last fragment of its first connection. -/
theorem ioRead_iff (hall : HoldsAll ca pkts) (old : UInt8 × UInt8) :
    (∀ s, Reports ca old s → Reads ca pkts old s) ↔
      ∀ s, Picks ca pkts ca.slotCount ca.nextReadSlot none s → FirstComplete (pkts s) := by
  refine forall_congr' fun s => ?_
  rw [reports_iff hall old s]
  exact imp_congr_right fun hpicks =>
    ⟨complete_of_reads, reads_of_complete hall ((reports_iff hall old s).mpr hpicks)⟩

/-- A fragment with one byte of a message. -/
def fragment (connectionId more byte : UInt8) : Pkt where
  ready := true
  bytes := [connectionId, more, byte]
  two_le := (by decide : 2 ≤ 3)
  lt := (by decide : 3 < 65536)

/-- A receive buffer into which fragments have been written. -/
def received (frags : List Pkt) : DvbRingbuffer UInt8 :=
  frags.foldl (fun rbuf q => dvbRingbufferPktWrite rbuf q.bytes)
    (dvbRingbufferInit (fun _ => 0) RX_BUFFER_SIZE)

/-- An interface with two slots that are running. -/
def twoSlots (frags : ℕ → List Pkt) : DvbCaPrivate where
  slotCount := 2
  slotInfo s :=
    { slotState := .RUNNING, camchangeCount := 0, camchangeType := .INSERTED, linkBufSize := 16
      rxBuffer := some (received (frags s)) }
  «open» := true
  nextReadSlot := 0
  irqCamchange := true
  readData := false
  writeData := false
  pollSlotStatus := false

theorem holds_received {frags pkts : List Pkt} {rbuf : DvbRingbuffer UInt8} (h : Holds rbuf pkts)
    (hready : ∀ q ∈ frags, q.ready = true)
    (hroom : (stream pkts).length + (stream frags).length < 65535) :
    Holds (frags.foldl (fun rbuf q => dvbRingbufferPktWrite rbuf q.bytes) rbuf) (pkts ++ frags) := by
  induction frags generalizing rbuf pkts with
  | nil => rw [List.append_nil]; exact h
  | cons q frags ih =>
    have hone : (stream [q]).length = q.bytes.length + 3 := length_stream_cons q []
    rw [length_stream_cons] at hroom
    have hwrite := pktWrite_spec h (hready q List.mem_cons_self) (by omega)
    rw [← List.singleton_append, ← List.append_assoc]
    exact ih hwrite (fun q' hq' => hready q' (List.mem_cons_of_mem _ hq'))
      (by rw [length_stream_append]; omega)

theorem holdsAll_twoSlots {frags : ℕ → List Pkt} (hready : ∀ s, ∀ q ∈ frags s, q.ready = true)
    (hroom : ∀ s, (stream (frags s)).length < 65535) : HoldsAll (twoSlots frags) frags := by
  intro s rbuf hbuf
  have hreceived : received (frags s) = rbuf := Option.some.inj hbuf
  rw [← hreceived]
  refine holds_received (holds_init _) (hready s) ?_
  exact (Nat.zero_add _).symm ▸ hroom s

/-- The fragments of two connections, interleaved. -/
def interleaved : List Pkt := [fragment 1 0x80 0x61, fragment 2 0x80 0x62, fragment 1 0 0x63]

/-- In two slots with the same fragments, of which the first and the third are a message, that message
is read. -/
theorem ioRead_interleaved :
    HoldsAll (twoSlots fun _ => interleaved) (fun _ => interleaved) ∧
      ∀ s, Reports (twoSlots fun _ => interleaved) (0, 0) s →
        Reads (twoSlots fun _ => interleaved) (fun _ => interleaved) (0, 0) s := by
  have hall : HoldsAll (twoSlots fun _ => interleaved) (fun _ => interleaved) :=
    holdsAll_twoSlots (fun _ => by decide) fun _ => by decide
  exact ⟨hall, (ioRead_iff hall (0, 0)).mpr fun _ _ =>
    ⟨_, _, rfl, fragment 1 0 0x63, by simp [interleaved, pending, fragment], by decide⟩⟩

/-- The fragments of two slots: connection 1 has begun a message in slot 0, and in slot 1 connection 2
has begun one and connection 1 has ended one. -/
def staggered (s : ℕ) : List Pkt :=
  if s = 0 then [fragment 1 0x80 0x61] else [fragment 2 0x80 0x62, fragment 1 0 0x63]

/-- The predicate reports slot 1, since connection 1 has a last fragment there.  The call takes the
fragment of connection 2, and ends with an error. -/
theorem not_reads_staggered :
    HoldsAll (twoSlots staggered) staggered ∧
      (dvbCaEn50221IoRead 8 true (0, 0) (twoSlots staggered) 4096).map (fun r => r.1) =
        some (- EIO) ∧
      ¬ ∀ s, Reports (twoSlots staggered) (0, 0) s → Reads (twoSlots staggered) staggered (0, 0) s := by
  refine ⟨holdsAll_twoSlots (fun s => ?_) fun s => ?_, by decide +kernel, fun h => ?_⟩
  · unfold staggered
    split <;> decide
  · unfold staggered
    split <;> decide
  · have hcond : (dvbCaEn50221IoReadCondition 8 (twoSlots staggered) (0, 0)).map Prod.fst =
        some (some 1) := by decide +kernel
    obtain ⟨⟨r, ca'⟩, hreports, rfl⟩ := Option.map_eq_some_iff.mp hcond
    obtain ⟨q, qs, hpending, hends⟩ := complete_of_reads (h 1 ⟨8, ca', hreports⟩)
    have hq : fragment 2 0x80 0x62 = q := (List.cons.inj hpending).1
    rw [← hq] at hends
    revert hends
    decide

end Ca
end TbsMedia
