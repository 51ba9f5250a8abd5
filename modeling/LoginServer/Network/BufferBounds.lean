import LoginServer.Script.LuaMessage

/-!
# The two guards keep the buffer

`canRead` and `canAdd` are all that stands between a script and the bytes
behind `m_buffer`.  `Bounded` is what they maintain: the recorded accesses
are in bounds, the cursor is inside the buffer, and the length is at most
one buffer ahead of the cursor, so that neither counter can pass 65535
however often it is moved.

## Main results

* `Bounded.get`, `Bounded.getByte`, `Bounded.getString` — the getters.
* `Bounded.add`, `Bounded.addByte`, `Bounded.addBytes`, `Bounded.addString` —
  the adders.
* `Bounded.onAll` — any calls a script makes, in any order.
-/

namespace LoginServer.Network

open LoginServer.Utils (NETWORKMESSAGE_MAXSIZE)
open LoginServer.Script (MessageCall)

/-- An access inside `m_buffer`, a counter value that fits 16 bits, an
assertion that holds. -/
def Access.Safe : Access → Prop
  | .read lo size => lo + size ≤ NETWORKMESSAGE_MAXSIZE
  | .write lo size => lo + size ≤ NETWORKMESSAGE_MAXSIZE
  | .counter value => 0 ≤ value ∧ value < 65536
  | .assertion holds => holds = true

instance : DecidablePred Access.Safe := fun access => by
  cases access <;> unfold Access.Safe <;> infer_instance

namespace NetworkMessage

/-- Every access so far was safe. -/
def Safe (m : NetworkMessage) : Prop := ∀ access ∈ m.accesses, access.Safe

theorem Safe.log {m : NetworkMessage} {access : Access} (h : m.Safe)
    (haccess : access.Safe) : (m.log access).Safe :=
  List.forall_mem_cons.mpr ⟨haccess, h⟩

theorem Safe.setPosition {m : NetworkMessage} {value : Int} (h : m.Safe)
    (h0 : 0 ≤ value) (h1 : value < 65536) : (m.setPosition value).Safe :=
  List.forall_mem_cons.mpr ⟨⟨h0, h1⟩, h⟩

theorem Safe.setLength {m : NetworkMessage} {value : Int} (h : m.Safe)
    (h0 : 0 ≤ value) (h1 : value < 65536) : (m.setLength value).Safe :=
  List.forall_mem_cons.mpr ⟨⟨h0, h1⟩, h⟩

theorem Safe.put {m : NetworkMessage} {lo : Nat} {bytes : Bytes} (h : m.Safe)
    (hhi : lo + bytes.length ≤ NETWORKMESSAGE_MAXSIZE) : (m.put lo bytes).Safe :=
  List.forall_mem_cons.mpr ⟨hhi, h⟩

/-- What the guards keep of a message, whoever moves its cursor. -/
structure Bounded (m : NetworkMessage) : Prop where
  safe : m.Safe
  pos_lt : m.pos < NETWORKMESSAGE_MAXSIZE
  len_le : m.len ≤ m.pos + NETWORKMESSAGE_MAXSIZE

theorem Bounded.advance {m : NetworkMessage} {size : Nat} (h : m.Bounded)
    (hsize : m.pos + size < NETWORKMESSAGE_MAXSIZE) : (m.advance size).Bounded := by
  have hlen := h.len_le
  simp only [NETWORKMESSAGE_MAXSIZE] at hsize hlen
  have hpos : (m.advance size).pos = m.pos + size := advance_pos (by omega)
  refine
    { safe := ?_
      pos_lt := ?_
      len_le := ?_ }
  · refine Safe.setPosition (h.safe.log ?_) (by omega) (by omega)
    simp only [Access.Safe, NETWORKMESSAGE_MAXSIZE]
    omega
  · simp only [hpos, NETWORKMESSAGE_MAXSIZE]
    omega
  · simp only [advance_len, hpos, NETWORKMESSAGE_MAXSIZE]
    omega

theorem Bounded.refuse {m : NetworkMessage} (h : m.Bounded) : m.refuse.Bounded :=
  ⟨h.safe, h.pos_lt, h.len_le⟩

/-- An add keeps the distance between length and cursor. -/
theorem Bounded.append {m : NetworkMessage} {bytes : Bytes} (h : m.Bounded)
    (hroom : m.pos + bytes.length < MAX_BODY_LENGTH) : (m.append bytes).Bounded := by
  have hlen := h.len_le
  simp only [MAX_BODY_LENGTH_eq, NETWORKMESSAGE_MAXSIZE] at hroom hlen
  have hpos : (m.append bytes).pos = m.pos + bytes.length := append_pos (by omega)
  have hlen' : (m.append bytes).len = m.len + bytes.length := append_len (by omega)
  refine
    { safe := ?_
      pos_lt := ?_
      len_le := ?_ }
  · refine Safe.setLength (Safe.setPosition (h.safe.put ?_) ?_ ?_) ?_ ?_
    · simp only [NETWORKMESSAGE_MAXSIZE]
      omega
    all_goals omega
  · simp only [hpos, NETWORKMESSAGE_MAXSIZE]
    omega
  · simp only [hpos, hlen', NETWORKMESSAGE_MAXSIZE]
    omega

/-! ## Getters -/

theorem Bounded.getByte {m : NetworkMessage} (h : m.Bounded) : m.getByte.2.Bounded := by
  by_cases hread : m.Readable 1
  · rw [getByte_of_readable hread]
    exact h.advance hread.2
  · rw [getByte_of_not_readable hread]
    exact h.refuse

theorem Bounded.get {m : NetworkMessage} (h : m.Bounded) (w : Width) :
    (m.get w).2.Bounded := by
  by_cases hread : m.Readable w.bytes
  · rw [get_of_readable hread]
    exact h.advance hread.2
  · rw [get_of_not_readable hread]
    exact h.refuse

theorem Bounded.getChars {m : NetworkMessage} (h : m.Bounded) (size : Nat) :
    (m.getChars size).2.Bounded := by
  unfold NetworkMessage.getChars
  split
  · rename_i hread
    exact h.advance hread.2
  · exact h.refuse

theorem Bounded.getString {m : NetworkMessage} (h : m.Bounded)
    (stringLen : BitVec 16) : (m.getString stringLen).2.Bounded := by
  rw [getString_eq]
  split
  · exact (h.get .u16).getChars _
  · exact h.getChars _

/-! ## Adders -/

theorem Bounded.addByte {m : NetworkMessage} (h : m.Bounded) (value : UInt8) :
    (m.addByte value).Bounded := by
  rw [addByte_eq]
  split
  · rename_i hadd
    exact h.append (canAdd_iff.mp hadd)
  · exact h

theorem Bounded.add {m : NetworkMessage} (h : m.Bounded) (w : Width)
    (value : w.Value) : (m.add w value).Bounded := by
  rw [add_eq]
  split
  · rename_i hadd
    rw [canAdd_iff] at hadd
    exact h.append (by rwa [Width.length_encode])
  · exact h

theorem Bounded.addBytes {m : NetworkMessage} (h : m.Bounded) (bytes : Bytes) :
    (m.addBytes bytes).Bounded := by
  rw [addBytes_eq]
  split
  · rename_i hadd
    exact h.append (canAdd_iff.mp hadd.1)
  · exact h

theorem Bounded.addString {m : NetworkMessage} (h : m.Bounded) (value : Bytes) :
    (m.addString value).Bounded := by
  rw [addString_eq]
  split
  · rename_i hadd
    have hroom := canAdd_iff.mp hadd.1
    have hheadLen : (Width.encode .u16 (BitVec.ofNat _ value.length)).length = 2 :=
      Width.length_encode _ _
    rw [MAX_BODY_LENGTH_eq] at hroom
    -- the room for the prefix is part of the room for both
    refine (h.append ?_).append ?_
    · rw [hheadLen, MAX_BODY_LENGTH_eq]
      omega
    · rw [append_pos (by omega), hheadLen, MAX_BODY_LENGTH_eq]
      omega
  · exact h

/-! ## Scripts -/

theorem Bounded.on {m : NetworkMessage} (h : m.Bounded) (call : MessageCall) :
    (call.on m).Bounded := by
  cases call with
  | getU8 => exact h.getByte
  | getU16 => exact h.get .u16
  | getU32 => exact h.get .u32
  | getU64 => exact h.get .u64
  | getString => exact h.getString 0
  | addU8 value => exact h.addByte value
  | addU16 value => exact h.add .u16 value
  | addU32 value => exact h.add .u32 value
  | addU64 value => exact h.add .u64 value
  | addString value => exact h.addString value

/-- Whatever a script calls, in whatever order, the message stays bounded. -/
theorem Bounded.onAll {m : NetworkMessage} (h : m.Bounded)
    (calls : List MessageCall) : (MessageCall.onAll calls m).Bounded := by
  induction calls generalizing m with
  | nil => exact h
  | cons call calls ih => exact ih (h.on call)

end NetworkMessage

end LoginServer.Network
