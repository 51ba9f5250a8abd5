import LoginServer.Network.BufferBounds
import LoginServer.Verified.BoundedReader

/-!
# What the getters read

The getters of `NetworkMessage` over a payload, against the reader they are
meant to be: `ReadCall.spec` says what a getter returns from a byte string,
`ReadCall.run` is the getter.  The two agree as long as `canRead` measures
from the place where the payload starts, and that is what `Views` says of a
message: cursor and length count from `base`, with `canRead`'s constant eight
folded in.

## Main results

* `Views.run`, `Views.runAll` — the getters simulate the reader.
-/

namespace LoginServer.Network

open LoginServer.Verified
open LoginServer.Verified.ByteMemory
open LoginServer.Verified.BoundedReader
open LoginServer.Utils (NETWORKMESSAGE_MAXSIZE)

/-- A call of one of the getters. -/
inductive ReadCall where
  | getByte
  | get (w : Width)
  | getString (stringLen : BitVec 16)

/-- What a getter returns. -/
inductive ReadValue where
  | byte (value : UInt8)
  | int (w : Width) (value : w.Value)
  | chars (value : Bytes)

namespace ReadCall

def run : ReadCall → NetworkMessage → ReadValue × NetworkMessage
  | .getByte, m => (.byte m.getByte.1, m.getByte.2)
  | .get w, m => (.int w (m.get w).1, (m.get w).2)
  | .getString n, m => (.chars (m.getString n).1, (m.getString n).2)

def runAll : List ReadCall → NetworkMessage → List ReadValue × NetworkMessage
  | [], m => ([], m)
  | call :: calls, m =>
      ((call.run m).1 :: (runAll calls (call.run m).2).1, (runAll calls (call.run m).2).2)

/-- A string whose length is given, or is read first. -/
def takeString (n : BitVec 16) (r : Reader) : Bytes × Reader :=
  if n = 0 then
    let head := r.take (Width.bytes .u16)
    head.2.take (Width.decode .u16 head.1).toNat
  else r.take n.toNat

/-- The getter over a byte string; a refused take counts as zero. -/
def spec : ReadCall → Reader → ReadValue × Reader
  | .getByte, r => (.byte ((r.take 1).1.headD 0), (r.take 1).2)
  | .get w, r => (.int w (w.decode (r.take w.bytes).1), (r.take w.bytes).2)
  | .getString n, r => (.chars (takeString n r).1, (takeString n r).2)

def specAll : List ReadCall → Reader → List ReadValue × Reader
  | [], r => ([], r)
  | call :: calls, r =>
      ((call.spec r).1 :: (specAll calls (call.spec r).2).1,
        (specAll calls (call.spec r).2).2)

end ReadCall

/-! ## The simulation -/

/-- The message reads like the reader over the bytes from `base` on. -/
structure Views (m : NetworkMessage) (base : Nat) (r : Reader) : Prop where
  window : Window m.buffer base r
  pos : m.pos = base + r.offset
  len : m.len + 8 = base + r.data.length
  overrun : m.overrun = r.overrun
  room : base + r.data.length < NETWORKMESSAGE_MAXSIZE

section
variable {m : NetworkMessage} {base : Nat} {r : Reader}

/-- `canRead` grants what the reader has. -/
theorem Views.readable_iff (h : Views m base r) (n : Nat) : m.Readable n ↔ r.Has n := by
  have hpos := h.pos
  have hlen := h.len
  have hroom := h.room
  unfold NetworkMessage.Readable Reader.Has
  omega

theorem Views.advance (h : Views m base r) {n : Nat} (hhas : r.Has n) :
    Views (m.advance n) base (r.take n).2 := by
  have hpos := h.pos
  have hroom := h.room
  unfold Reader.Has at hhas
  simp only [NETWORKMESSAGE_MAXSIZE] at hroom
  have hwindow := (h.window.take hhas).2
  rw [Reader.take_of_has hhas] at hwindow ⊢
  constructor
  · exact hwindow
  · rw [NetworkMessage.advance_pos (by omega), hpos]
    exact Nat.add_assoc _ _ _
  · exact h.len
  · exact h.overrun
  · exact h.room

theorem Views.refuse (h : Views m base r) {n : Nat} (hhas : ¬ r.Has n) :
    Views m.refuse base (r.take n).2 := by
  rw [Reader.take_of_not_has hhas]
  constructor
  · exact h.window.refuse
  · exact h.pos
  · exact h.len
  · rfl
  · exact h.room

theorem Views.get (h : Views m base r) (w : Width) :
    (m.get w).1 = w.decode (r.take w.bytes).1 ∧ Views (m.get w).2 base (r.take w.bytes).2 := by
  by_cases hhas : r.Has w.bytes
  · rw [NetworkMessage.get_of_readable ((h.readable_iff _).mpr hhas)]
    constructor
    · rw [(h.window.take hhas).1, ← h.pos]
    · exact h.advance hhas
  · rw [NetworkMessage.get_of_not_readable (fun hr => hhas ((h.readable_iff _).mp hr))]
    constructor
    · rw [Reader.take_of_not_has hhas]
      rfl
    · exact h.refuse hhas

theorem Views.getByte (h : Views m base r) :
    m.getByte.1 = (r.take 1).1.headD 0 ∧ Views m.getByte.2 base (r.take 1).2 := by
  by_cases hhas : r.Has 1
  · rw [NetworkMessage.getByte_of_readable ((h.readable_iff _).mpr hhas)]
    constructor
    · rw [(h.window.take hhas).1, ← h.pos]
      rfl
    · exact h.advance hhas
  · rw [NetworkMessage.getByte_of_not_readable (fun hr => hhas ((h.readable_iff _).mp hr))]
    constructor
    · rw [Reader.take_of_not_has hhas]
      rfl
    · exact h.refuse hhas

theorem Views.getChars (h : Views m base r) (n : Nat) :
    (m.getChars n).1 = (r.take n).1 ∧ Views (m.getChars n).2 base (r.take n).2 := by
  unfold NetworkMessage.getChars
  by_cases hhas : r.Has n
  · rw [if_pos ((h.readable_iff _).mpr hhas)]
    constructor
    · rw [(h.window.take hhas).1, ← h.pos]
    · exact h.advance hhas
  · rw [if_neg (fun hr => hhas ((h.readable_iff _).mp hr))]
    constructor
    · rw [Reader.take_of_not_has hhas]
    · exact h.refuse hhas

theorem Views.getString (h : Views m base r) (n : BitVec 16) :
    (m.getString n).1 = (ReadCall.takeString n r).1 ∧
      Views (m.getString n).2 base (ReadCall.takeString n r).2 := by
  rw [NetworkMessage.getString_eq, ReadCall.takeString]
  by_cases hzero : n = 0
  · rw [if_pos hzero, if_pos hzero]
    obtain ⟨hlength, hviews⟩ := h.get .u16
    rw [hlength]
    exact hviews.getChars _
  · rw [if_neg hzero, if_neg hzero]
    exact h.getChars _

/-- One getter. -/
theorem Views.run (h : Views m base r) (call : ReadCall) :
    (call.run m).1 = (call.spec r).1 ∧ Views (call.run m).2 base (call.spec r).2 := by
  cases call with
  | getByte =>
      obtain ⟨hvalue, hviews⟩ := h.getByte
      exact ⟨congrArg ReadValue.byte hvalue, hviews⟩
  | get w =>
      obtain ⟨hvalue, hviews⟩ := h.get w
      exact ⟨congrArg (ReadValue.int w) hvalue, hviews⟩
  | getString n =>
      obtain ⟨hvalue, hviews⟩ := h.getString n
      exact ⟨congrArg ReadValue.chars hvalue, hviews⟩

end

/-- Any sequence of getters. -/
theorem Views.runAll {m : NetworkMessage} {base : Nat} {r : Reader}
    (calls : List ReadCall) (h : Views m base r) :
    (ReadCall.runAll calls m).1 = (ReadCall.specAll calls r).1 ∧
      Views (ReadCall.runAll calls m).2 base (ReadCall.specAll calls r).2 := by
  induction calls generalizing m r with
  | nil => exact ⟨rfl, h⟩
  | cons call calls ih =>
      obtain ⟨hvalue, hviews⟩ := h.run call
      obtain ⟨hvalues, hviews⟩ := ih hviews
      constructor
      · exact congrArg₂ List.cons hvalue hvalues
      · exact hviews

end LoginServer.Network
