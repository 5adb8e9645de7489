import TbsMedia.Cec.Message
import TbsMedia.Lib.Octets

/-!
# Building and reading CEC messages

The `cec_msg_*` functions fill in the length, the opcode and the operands of a message whose header is
already there, and the `cec_ops_*` functions read the operands again.

* `CecMsg.write`, `CecMsg.push`: operands at given places, and behind the last one.
* `CecMsg.word`, `CecMsg.read`: an operand of 16 bits, and a row of bytes.
* `msg_write`, `read_write`: what stands where after writing.
* `push_write`: pushing a byte behind what was written.
-/

namespace TbsMedia
namespace Cec

open Lib.Octets

namespace CecMsg

/-- A message of zeros. -/
def blank : CecMsg where
  txTs := 0
  rxTs := 0
  len := 1
  timeout := 0
  sequence := 0
  flags := 0
  msg := fun _ => 0
  reply := 0
  rxStatus := 0
  txStatus := 0
  txArbLostCnt := 0
  txNackCnt := 0
  txLowDriveCnt := 0
  txErrorCnt := 0

/-- `msg->len = len`. -/
def setLen (m : CecMsg) (len : ℕ) : CecMsg :=
  { m with len := len }

/-- The bytes `bs` from byte `i` on. -/
def write (m : CecMsg) (i : ℕ) (bs : List UInt8) : CecMsg :=
  { m with msg := fun j => if i ≤ j.val ∧ j.val < i + bs.length then bs.getD (j.val - i) 0 else m.msg j }

/-- `msg->msg[msg->len++] = b`. -/
def push (m : CecMsg) (b : UInt8) : CecMsg :=
  (m.write m.len [b]).setLen (m.len + 1)

/-- `msg->msg[0] |= 0xf`: the message is sent to everyone. -/
def toAll (m : CecMsg) : CecMsg :=
  m.write 0 [m.msg 0 ||| 0xf]

/-- `msg->reply = reply ? opcode : 0`. -/
def setReply (m : CecMsg) (reply : Bool) (opcode : UInt8) : CecMsg :=
  { m with reply := if reply then opcode else 0 }

/-- The `n` bytes from byte `i` on. -/
def read (m : CecMsg) (i n : ℕ) : List UInt8 :=
  (List.range n).map fun k => m.msg (Fin.ofNat CEC_MAX_MSG_SIZE (i + k))

/-- An operand of 16 bits, the upper byte first. -/
def word (m : CecMsg) (i : Fin CEC_MAX_MSG_SIZE) : UInt16 :=
  be16 (m.msg i) (m.msg (i + 1))

@[simp] theorem len_setLen (m : CecMsg) (len : ℕ) : (m.setLen len).len = len := rfl

@[simp] theorem msg_setLen (m : CecMsg) (len : ℕ) : (m.setLen len).msg = m.msg := rfl

/-- What was written stands where it was written, and nothing else moved. -/
theorem msg_write (m : CecMsg) (i : ℕ) (bs : List UInt8) (j : Fin CEC_MAX_MSG_SIZE) :
    (m.write i bs).msg j =
      if i ≤ j.val ∧ j.val < i + bs.length then bs.getD (j.val - i) 0 else m.msg j := rfl

/-- A part of what was written is read again. -/
theorem read_write (m : CecMsg) (i : ℕ) (before bs after : List UInt8)
    (h : i + before.length + bs.length ≤ CEC_MAX_MSG_SIZE) :
    (m.write i (before ++ (bs ++ after))).read (i + before.length) bs.length = bs := by
  refine List.ext_getElem (by rw [read, List.length_map, List.length_range]) fun k hk hk' => ?_
  have hval : (Fin.ofNat CEC_MAX_MSG_SIZE (i + before.length + k)).val = i + before.length + k :=
    Nat.mod_eq_of_lt (by omega)
  have hin : i + before.length + k < i + (before ++ (bs ++ after)).length := by
    rw [List.length_append, List.length_append]
    omega
  simp only [read, List.getElem_map, List.getElem_range]
  rw [msg_write, hval, if_pos ⟨by omega, hin⟩, show i + before.length + k - i = before.length + k by omega,
    List.getD_append_right _ _ _ _ (by omega), Nat.add_sub_cancel_left, List.getD_append _ _ _ _ hk',
    List.getD_eq_getElem _ _ hk']

/-- A byte pushed behind what was written is written with it. -/
theorem push_write (m : CecMsg) (i : ℕ) (bs : List UInt8) (b : UInt8) :
    ((m.write i bs).setLen (i + bs.length)).push b = (m.write i (bs ++ [b])).setLen (i + bs.length + 1) := by
  have hmsg : ((m.write i bs).write (i + bs.length) [b]).msg = (m.write i (bs ++ [b])).msg := by
    funext j
    rw [msg_write, msg_write, msg_write, List.length_append, List.length_singleton]
    by_cases hb : j.val = i + bs.length
    · rw [if_pos ⟨by omega, by omega⟩, if_pos ⟨by omega, by omega⟩, hb, Nat.sub_self, Nat.add_sub_cancel_left,
        List.getD_append_right _ _ _ _ (Nat.le_refl _), Nat.sub_self]
    · rw [if_neg (by omega)]
      by_cases hbs : i ≤ j.val ∧ j.val < i + bs.length
      · rw [if_pos hbs, if_pos ⟨hbs.1, by omega⟩, List.getD_append _ _ _ _ (by omega)]
      · rw [if_neg hbs, if_neg (by omega)]
  show ({ m with len := _, msg := _ } : CecMsg) = { m with len := _, msg := _ }
  exact congrArg (fun bytes => ({ m with len := i + bs.length + 1, msg := bytes } : CecMsg)) hmsg

end CecMsg

end Cec
end TbsMedia
