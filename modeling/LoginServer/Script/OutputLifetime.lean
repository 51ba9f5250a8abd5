import LoginServer.Network.EncryptedFrame

/-!
# An `OutputMessage` in the hands of a script

A script creates the object, fills it, sends it to any number of clients and
may delete it.  Two things about it are not tracked anywhere.  A message that
was sent has used up the eight bytes in front of its body, and nothing marks
it; `luaProtocolSend` tests the client it is called on and not the message.

The object goes through three phases.  `Unsent` and `Bounded` with no room in
front are the invariants of the first two, and deletion is the third; what
breaks is exactly a second transmission and a transmission after `delete`.

## Main results

* `Unsent.on` — filling and reading keep a message sendable.
* `unbroken_run_iff` — the phases over a whole script.
* `script_unbroken_iff` — which scripts are harmless.
-/

namespace LoginServer.Script

open LoginServer.Verified.ByteMemory
open LoginServer.Network
open LoginServer.Utils

/-- What `Pop<Protocol>` finds in the userdata a script passes. -/
inductive Receiver where
  | null
  /-- the weak pointer to the connection has expired -/
  | disconnected
  | connected (key : Xtea.Key)

/-- The operations on an output message that Lua sees. -/
inductive OutputCall where
  | message (call : MessageCall)
  | send (receiver : Receiver)
  | delete

/-- The userdata and the object behind it; the last two fields are ghosts. -/
structure OutputObject where
  /-- the object, or what it held when it was deleted -/
  message : OutputMessage
  /-- the userdata holds `nullptr` -/
  deleted : Bool := false
  usedDeleted : Bool := false

namespace OutputObject

def userdata (o : OutputObject) : Option NetworkMessage :=
  if o.deleted then none else some o.message.toNetworkMessage

def luaOutputMessageCreate (memory : Memory) : OutputObject :=
  { message := .create memory }

def luaOutputMessageDelete (o : OutputObject) : OutputObject :=
  if o.deleted then o else { o with deleted := true }

/-- `protocol->send(*msg)`: the message is dereferenced before anything is
known about the connection. -/
def luaProtocolSend (receiver : Receiver) (o : OutputObject) : LuaValue × OutputObject :=
  match receiver with
  | .null => (.boolean false, o)
  | .disconnected => (.boolean true, { o with usedDeleted := o.usedDeleted || o.deleted })
  | .connected key =>
      (.boolean true,
        { o with
          message := if o.deleted then o.message else encryptMessage key o.message
          usedDeleted := o.usedDeleted || o.deleted })

/-- A getter or an adder through the userdata. -/
def luaNetworkMessage (call : MessageCall) (o : OutputObject) : LuaValue × OutputObject :=
  match call.run o.userdata with
  | (value, none) => (value, o)
  | (value, some msg) =>
      (value, { o with message := { o.message with toNetworkMessage := msg } })

/-- One operation of a script. -/
def step (o : OutputObject) : OutputCall → OutputObject
  | .message call => (o.luaNetworkMessage call).2
  | .send receiver => (o.luaProtocolSend receiver).2
  | .delete => o.luaOutputMessageDelete

def run (o : OutputObject) (calls : List OutputCall) : OutputObject :=
  calls.foldl step o

/-- No assertion of `add_header` failed, nothing was written outside
`m_buffer`, and the object was not used after it was deleted. -/
structure Unbroken (o : OutputObject) : Prop where
  assertions : ∀ holds, Access.assertion holds ∈ o.message.accesses → holds = true
  writes : ∀ lo size, Access.write lo size ∈ o.message.accesses →
    lo + size ≤ NETWORKMESSAGE_MAXSIZE
  alive : o.usedDeleted = false

theorem unbroken_of_safe {o : OutputObject} (hsafe : o.message.Safe)
    (halive : o.usedDeleted = false) : o.Unbroken := by
  constructor
  · intro holds hmem
    exact hsafe _ hmem
  · intro lo size hmem
    exact hsafe _ hmem
  · exact halive

end OutputObject

namespace OutputCall

def isDelete : OutputCall → Bool
  | .delete => true
  | _ => false

/-- A send that reaches a connection. -/
def transmits : OutputCall → Bool
  | .send (.connected _) => true
  | _ => false

/-- A send on a client that is there. -/
def dereferences : OutputCall → Bool
  | .send .null => false
  | .send _ => true
  | _ => false

end OutputCall

/-- At most `budget` transmissions before the object is deleted, and no send
from then on. -/
def UsedAtMost (budget : Nat) (calls : List OutputCall) : Prop :=
  (calls.takeWhile fun call => !call.isDelete).countP OutputCall.transmits ≤ budget ∧
    ∀ call ∈ calls.dropWhile fun call => !call.isDelete, call.dereferences = false

section
variable {budget : Nat} {calls : List OutputCall}

theorem usedAtMost_skip {call : OutputCall} (hdelete : call.isDelete = false)
    (htransmit : call.transmits = false) :
    UsedAtMost budget (call :: calls) ↔ UsedAtMost budget calls := by
  unfold UsedAtMost
  rw [List.takeWhile_cons_of_pos (by rw [hdelete]; rfl),
    List.dropWhile_cons_of_pos (by rw [hdelete]; rfl),
    List.countP_cons_of_neg (by rw [htransmit]; decide)]

theorem usedAtMost_transmit {key : Xtea.Key} :
    UsedAtMost (budget + 1) (.send (.connected key) :: calls) ↔
      UsedAtMost budget calls := by
  unfold UsedAtMost
  rw [List.takeWhile_cons_of_pos rfl, List.dropWhile_cons_of_pos rfl,
    List.countP_cons_of_pos rfl, Nat.add_le_add_iff_right]

theorem not_usedAtMost_zero {key : Xtea.Key} :
    ¬ UsedAtMost 0 (.send (.connected key) :: calls) := by
  intro h
  have hcount := h.1
  rw [List.takeWhile_cons_of_pos rfl, List.countP_cons_of_pos rfl] at hcount
  omega

theorem usedAtMost_delete :
    UsedAtMost budget (.delete :: calls) ↔
      ∀ call ∈ calls, call.dereferences = false := by
  unfold UsedAtMost
  rw [List.takeWhile_cons_of_neg (by decide), List.dropWhile_cons_of_neg (by decide),
    List.forall_mem_cons]
  constructor
  · rintro ⟨-, -, h⟩
    exact h
  · intro h
    exact ⟨Nat.zero_le _, rfl, h⟩

end

/-! ## Filling and reading -/

/-- A message whose body ends at the cursor, with its eight bytes in front. -/
structure Unsent (m : OutputMessage) : Prop where
  start : m.start = 8
  pos : m.pos = 8 + m.len
  room : m.pos < MAX_BODY_LENGTH

theorem unsent_create (memory : Memory) : Unsent (.create memory) :=
  ⟨rfl, rfl, show (8 : Nat) < MAX_BODY_LENGTH by decide⟩

theorem Unsent.holds {m : OutputMessage} (h : Unsent m) :
    m.Holds (read m.buffer 8 m.len) := by
  have hpos := h.pos
  have hroom := h.room
  constructor
  · exact h.start
  · rw [length_read, hpos]
  · rw [length_read]
  · rw [length_read]
  · rw [length_read]
    omega

theorem Unsent.append {m : OutputMessage} (h : Unsent m) (bytes : Bytes)
    (hroom : m.pos + bytes.length < MAX_BODY_LENGTH) :
    Unsent { m with toNetworkMessage := m.toNetworkMessage.append bytes } := by
  have hpos := h.pos
  rw [MAX_BODY_LENGTH_eq] at hroom
  have hpos' : (m.toNetworkMessage.append bytes).pos = m.pos + bytes.length :=
    NetworkMessage.append_pos (by omega)
  have hlen' : (m.toNetworkMessage.append bytes).len = m.len + bytes.length :=
    NetworkMessage.append_len (by omega)
  constructor
  · exact h.start
  · show (m.toNetworkMessage.append bytes).pos = 8 + (m.toNetworkMessage.append bytes).len
    omega
  · show (m.toNetworkMessage.append bytes).pos < MAX_BODY_LENGTH
    rw [MAX_BODY_LENGTH_eq]
    omega

theorem Unsent.add {m : OutputMessage} (h : Unsent m) (w : Width) (value : w.Value) :
    Unsent { m with toNetworkMessage := m.toNetworkMessage.add w value } := by
  rw [NetworkMessage.add_eq]
  split
  · rename_i hadd
    apply h.append (w.encode value)
    rw [Width.length_encode]
    exact NetworkMessage.canAdd_iff.mp hadd
  · exact h

/-- Nothing can be read from a message that is being filled: the cursor
stands at the end of the body. -/
theorem Unsent.not_readable {m : OutputMessage} (h : Unsent m) {size : Nat}
    (hsize : 0 < size) : ¬ m.Readable size := by
  have hpos := h.pos
  intro hread
  have := hread.1
  omega

theorem Unsent.get {m : OutputMessage} (h : Unsent m) (w : Width) :
    Unsent { m with toNetworkMessage := (m.toNetworkMessage.get w).2 } := by
  rw [NetworkMessage.get_of_not_readable (h.not_readable w.bytes_pos)]
  exact ⟨h.start, h.pos, h.room⟩

/-- An empty string is read, and moves nothing. -/
theorem Unsent.getString {m : OutputMessage} (h : Unsent m) :
    Unsent { m with toNetworkMessage := m.toNetworkMessage.getString.2 } := by
  have hroom := h.room
  rw [MAX_BODY_LENGTH_eq] at hroom
  rw [NetworkMessage.getString_eq, if_pos rfl,
    NetworkMessage.get_of_not_readable (h.not_readable (Width.bytes_pos .u16))]
  show Unsent { m with toNetworkMessage := (m.refuse.getChars 0).2 }
  unfold NetworkMessage.getChars
  split
  · have hpos : (m.refuse.advance 0).pos = m.pos := by
      apply NetworkMessage.advance_pos
      show m.pos + 0 < 65536
      omega
    constructor
    · exact h.start
    · exact hpos.trans h.pos
    · show (m.refuse.advance 0).pos < _
      rw [hpos]
      exact h.room
  · exact ⟨h.start, h.pos, h.room⟩

/-- No getter and no adder ends the first phase. -/
theorem Unsent.on {m : OutputMessage} (h : Unsent m) (call : MessageCall) :
    Unsent { m with toNetworkMessage := call.on m.toNetworkMessage } := by
  cases call with
  | getU8 =>
      show Unsent { m with toNetworkMessage := m.toNetworkMessage.getByte.2 }
      rw [NetworkMessage.getByte_of_not_readable (h.not_readable Nat.one_pos)]
      exact ⟨h.start, h.pos, h.room⟩
  | getU16 => exact h.get .u16
  | getU32 => exact h.get .u32
  | getU64 => exact h.get .u64
  | getString => exact h.getString
  | addU8 value =>
      show Unsent { m with toNetworkMessage := m.toNetworkMessage.addByte value }
      rw [NetworkMessage.addByte_eq]
      split
      · rename_i hadd
        exact h.append [value] (NetworkMessage.canAdd_iff.mp hadd)
      · exact h
  | addU16 value => exact h.add .u16 value
  | addU32 value => exact h.add .u32 value
  | addU64 value => exact h.add .u64 value
  | addString value =>
      show Unsent { m with toNetworkMessage := m.toNetworkMessage.addString value }
      rw [NetworkMessage.addString_eq]
      split
      · rename_i hadd
        have hroom := NetworkMessage.canAdd_iff.mp hadd.1
        have hheadLen :
            (Width.encode .u16 (BitVec.ofNat _ value.length)).length = 2 :=
          Width.length_encode _ _
        rw [MAX_BODY_LENGTH_eq] at hroom
        have hfirst := h.append (Width.encode .u16 (BitVec.ofNat _ value.length))
          (by rw [hheadLen, MAX_BODY_LENGTH_eq]; omega)
        apply hfirst.append value
        show (m.toNetworkMessage.append _).pos + value.length < MAX_BODY_LENGTH
        rw [NetworkMessage.append_pos (by omega), hheadLen, MAX_BODY_LENGTH_eq]
        omega
      · exact h

/-! ## The record only grows -/

/-- What was recorded stays recorded. -/
def Extends (m m' : NetworkMessage) : Prop := m.accesses ⊆ m'.accesses

theorem Extends.trans {m m' m'' : NetworkMessage} (h : Extends m m')
    (h' : Extends m' m'') : Extends m m'' := fun _ hmem => h' (h hmem)

theorem extends_advance (m : NetworkMessage) (size : Nat) : Extends m (m.advance size) :=
  fun _ hmem => List.mem_cons_of_mem _ (List.mem_cons_of_mem _ hmem)

theorem extends_append (m : NetworkMessage) (bytes : Bytes) : Extends m (m.append bytes) :=
  fun _ hmem => List.mem_cons_of_mem _ (List.mem_cons_of_mem _ (List.mem_cons_of_mem _ hmem))

theorem extends_get (m : NetworkMessage) (w : Width) : Extends m (m.get w).2 := by
  by_cases hread : m.Readable w.bytes
  · rw [NetworkMessage.get_of_readable hread]
    exact extends_advance m _
  · rw [NetworkMessage.get_of_not_readable hread]
    exact fun _ hmem => hmem

theorem extends_getChars (m : NetworkMessage) (size : Nat) :
    Extends m (m.getChars size).2 := by
  unfold NetworkMessage.getChars
  split
  · exact extends_advance m _
  · exact fun _ hmem => hmem

theorem extends_add (m : NetworkMessage) (w : Width) (value : w.Value) :
    Extends m (m.add w value) := by
  rw [NetworkMessage.add_eq]
  split
  · exact extends_append m _
  · exact fun _ hmem => hmem

theorem extends_on (call : MessageCall) (m : NetworkMessage) : Extends m (call.on m) := by
  cases call with
  | getU8 =>
      show Extends m m.getByte.2
      by_cases hread : m.Readable 1
      · rw [NetworkMessage.getByte_of_readable hread]
        exact extends_advance m 1
      · rw [NetworkMessage.getByte_of_not_readable hread]
        exact fun _ hmem => hmem
  | getU16 => exact extends_get m .u16
  | getU32 => exact extends_get m .u32
  | getU64 => exact extends_get m .u64
  | getString =>
      show Extends m m.getString.2
      rw [NetworkMessage.getString_eq, if_pos rfl]
      exact (extends_get m .u16).trans (extends_getChars _ _)
  | addU8 value =>
      show Extends m (m.addByte value)
      rw [NetworkMessage.addByte_eq]
      split
      · exact extends_append m _
      · exact fun _ hmem => hmem
  | addU16 value => exact extends_add m .u16 value
  | addU32 value => exact extends_add m .u32 value
  | addU64 value => exact extends_add m .u64 value
  | addString value =>
      show Extends m (m.addString value)
      rw [NetworkMessage.addString_eq]
      split
      · exact (extends_append m _).trans (extends_append _ _)
      · exact fun _ hmem => hmem

theorem extends_addHeader (m : OutputMessage) (w : Width) (value : w.Value) :
    Extends m.toNetworkMessage (m.addHeader w value).toNetworkMessage :=
  fun _ hmem => List.mem_cons_of_mem _ (List.mem_cons_of_mem _ (List.mem_cons_of_mem _ hmem))

theorem extends_padded (m : OutputMessage) :
    Extends m.toNetworkMessage (Xtea.padded m).toNetworkMessage := by
  unfold Xtea.padded
  split
  · show Extends _ (m.toNetworkMessage.addPaddingBytes _)
    rw [NetworkMessage.addPaddingBytes_eq]
    split
    · exact fun _ hmem => List.mem_cons_of_mem _ (List.mem_cons_of_mem _ hmem)
    · exact fun _ hmem => hmem
  · exact fun _ hmem => hmem

/-- Everything after the first header of `encryptMessage`. -/
theorem extends_encryptMessage (key : Xtea.Key) (m : OutputMessage) :
    Extends m.writeMessageLength.toNetworkMessage (encryptMessage key m).toNetworkMessage := by
  have hcipher : Extends m.writeMessageLength.toNetworkMessage
      (Xtea.encrypt key m.writeMessageLength).toNetworkMessage := by
    rw [Xtea.encrypt_eq]
    exact fun _ hmem => List.mem_cons_of_mem _
      (List.mem_cons_of_mem _ (extends_padded _ hmem))
  have hload : ∀ m : OutputMessage, Extends m.toNetworkMessage
      m.addCryptoHeader.toNetworkMessage := by
    intro m
    have hfirst := extends_addHeader { m with toNetworkMessage := m.log (.read m.start m.len) }
      .u32 (adlerChecksum (read m.buffer m.start m.len))
    intro access hmem
    exact extends_addHeader _ _ _ (hfirst (List.mem_cons_of_mem _ hmem))
  exact hcipher.trans (hload _)

/-- With no room in front of the body the assertion of the first header
fails. -/
theorem assertion_encryptMessage (key : Xtea.Key) {m : OutputMessage} (h : m.start = 0) :
    Access.assertion false ∈ (encryptMessage key m).accesses := by
  apply extends_encryptMessage
  have hfails : decide (m.start ≥ Width.bytes .u16) = false := by
    rw [h]
    decide
  apply List.mem_cons_of_mem
  apply List.mem_cons_of_mem
  rw [← hfails]
  exact List.mem_cons_self

/-! ## The phases -/

namespace OutputObject

/-- A live object that `budget` more transmissions do no harm to. -/
structure Live (o : OutputObject) (budget : Nat) : Prop where
  deleted : o.deleted = false
  usedDeleted : o.usedDeleted = false
  bounded : o.message.Bounded
  phase : (budget = 1 ∧ Unsent o.message) ∨ (budget = 0 ∧ o.message.start = 0)

theorem live_create (memory : Memory) : (luaOutputMessageCreate memory).Live 1 :=
  { deleted := rfl
    usedDeleted := rfl
    bounded :=
      { safe := List.forall_mem_nil _
        pos_lt := show (8 : Nat) < NETWORKMESSAGE_MAXSIZE by decide
        len_le := Nat.zero_le _ }
    phase := Or.inl ⟨rfl, unsent_create memory⟩ }

theorem step_message (o : OutputObject) (call : MessageCall) (h : o.deleted = false) :
    o.step (.message call) =
      { o with
        message := { o.message with toNetworkMessage := call.on o.message.toNetworkMessage } } := by
  show (o.luaNetworkMessage call).2 = _
  unfold luaNetworkMessage userdata
  rw [h]
  cases call <;> rfl

/-- On a deleted object the getters and adders do nothing. -/
theorem step_message_deleted (o : OutputObject) (call : MessageCall)
    (h : o.deleted = true) : o.step (.message call) = o := by
  show (o.luaNetworkMessage call).2 = _
  unfold luaNetworkMessage userdata
  rw [h]
  cases call <;> rfl

/-- A transmission of a message that has its eight bytes. -/
theorem live_sent (key : Xtea.Key) {m : OutputMessage} (h : Unsent m) (hb : m.Bounded) :
    (encryptMessage key m).Bounded ∧ (encryptMessage key m).start = 0 := by
  have hholds := h.holds
  obtain ⟨cipher, -, hsent, -, -⟩ := OutputMessage.encryptMessage_wire key hholds
  have hroom := hholds.room
  have hlength := OutputMessage.length_innerBytes (read m.buffer 8 m.len)
  have hpad := paddingLength_le (read m.buffer 8 m.len).length
  rw [MAX_BODY_LENGTH_eq] at hroom
  constructor
  · constructor
    · exact OutputMessage.safe_encryptMessage key hholds hb.safe
    · rw [hsent.pos]
      simp only [NETWORKMESSAGE_MAXSIZE]
      omega
    · rw [hsent.pos, hsent.len]
      simp only [NETWORKMESSAGE_MAXSIZE]
      omega
  · exact hsent.start

theorem Live.message {o : OutputObject} {budget : Nat} (h : o.Live budget)
    (call : MessageCall) :
    ({ o with
      message := { o.message with
        toNetworkMessage := call.on o.message.toNetworkMessage } } : OutputObject).Live
      budget := by
  constructor
  · exact h.deleted
  · exact h.usedDeleted
  · exact h.bounded.on call
  · rcases h.phase with ⟨hbudget, hunsent⟩ | ⟨hbudget, hstart⟩
    · exact Or.inl ⟨hbudget, hunsent.on call⟩
    · exact Or.inr ⟨hbudget, hstart⟩

theorem Live.transmit {o : OutputObject} {budget : Nat} (h : o.Live budget)
    (key : Xtea.Key) (hunsent : Unsent o.message) :
    ({ o with message := encryptMessage key o.message } : OutputObject).Live 0 := by
  obtain ⟨hbounded, hstart⟩ := live_sent key hunsent h.bounded
  constructor
  · exact h.deleted
  · exact h.usedDeleted
  · exact hbounded
  · exact Or.inr ⟨rfl, hstart⟩

/-- A broken object stays broken. -/
theorem unbroken_of_step {o : OutputObject} {call : OutputCall}
    (h : (o.step call).Unbroken) : o.Unbroken := by
  have hextends : Extends o.message.toNetworkMessage (o.step call).message.toNetworkMessage ∧
      ((o.step call).usedDeleted = false → o.usedDeleted = false) := by
    cases call with
    | message call =>
        cases hdeleted : o.deleted with
        | false =>
            rw [step_message o call hdeleted]
            exact ⟨extends_on call _, id⟩
        | true =>
            rw [step_message_deleted o call hdeleted]
            exact ⟨fun _ hmem => hmem, id⟩
    | send receiver =>
        cases receiver with
        | null => exact ⟨fun _ hmem => hmem, id⟩
        | disconnected =>
            exact ⟨fun _ hmem => hmem, fun hused => (Bool.or_eq_false_iff.mp hused).1⟩
        | connected key =>
            refine ⟨?_, fun hused => (Bool.or_eq_false_iff.mp hused).1⟩
            show Extends _ (if o.deleted then o.message
              else encryptMessage key o.message).toNetworkMessage
            split
            · exact fun _ hmem => hmem
            · exact (extends_addHeader _ _ _).trans (extends_encryptMessage key _)
    | delete =>
        show Extends _ (o.luaOutputMessageDelete).message.toNetworkMessage ∧ _
        unfold luaOutputMessageDelete step luaOutputMessageDelete
        split <;> exact ⟨fun _ hmem => hmem, id⟩
  constructor
  · intro holds hmem
    exact h.assertions holds (hextends.1 hmem)
  · intro lo size hmem
    exact h.writes lo size (hextends.1 hmem)
  · exact hextends.2 h.alive

theorem unbroken_of_run {o : OutputObject} {calls : List OutputCall}
    (h : (o.run calls).Unbroken) : o.Unbroken := by
  induction calls generalizing o with
  | nil => exact h
  | cons call calls ih => exact unbroken_of_step (ih h)

/-- After the deletion a script may do anything but send. -/
theorem unbroken_run_deleted (calls : List OutputCall) (o : OutputObject)
    (hdeleted : o.deleted = true) (hused : o.usedDeleted = false) (hsafe : o.message.Safe) :
    (o.run calls).Unbroken ↔ ∀ call ∈ calls, call.dereferences = false := by
  induction calls generalizing o with
  | nil =>
      constructor
      · intro _ call hmem
        simp at hmem
      · intro _
        exact unbroken_of_safe hsafe hused
  | cons call calls ih =>
      show ((o.step call).run calls).Unbroken ↔ _
      rw [List.forall_mem_cons]
      have hsame : call.dereferences = false → o.step call = o := by
        intro hcall
        cases call with
        | message call => exact step_message_deleted o call hdeleted
        | send receiver =>
            cases receiver with
            | null => rfl
            | disconnected => cases hcall
            | connected key => cases hcall
        | delete =>
            show o.luaOutputMessageDelete = o
            rw [luaOutputMessageDelete, if_pos hdeleted]
      constructor
      · intro h
        have hcall : call.dereferences = false := by
          by_contra hne
          have halive := (unbroken_of_run h).alive
          cases call with
          | message call => exact hne rfl
          | send receiver =>
              cases receiver with
              | null => exact hne rfl
              | disconnected =>
                  change (o.usedDeleted || o.deleted) = false at halive
                  rw [hdeleted, Bool.or_true] at halive
                  cases halive
              | connected key =>
                  change (o.usedDeleted || o.deleted) = false at halive
                  rw [hdeleted, Bool.or_true] at halive
                  cases halive
          | delete => exact hne rfl
        rw [hsame hcall] at h
        exact ⟨hcall, (ih o hdeleted hused hsafe).mp h⟩
      · rintro ⟨hcall, hrest⟩
        rw [hsame hcall]
        exact (ih o hdeleted hused hsafe).mpr hrest

/-- A whole script on a live object. -/
theorem unbroken_run_iff (calls : List OutputCall) (o : OutputObject) (budget : Nat)
    (h : o.Live budget) : (o.run calls).Unbroken ↔ UsedAtMost budget calls := by
  induction calls generalizing o budget with
  | nil =>
      constructor
      · intro _
        exact ⟨Nat.zero_le _, by simp⟩
      · intro _
        exact unbroken_of_safe h.bounded.safe h.usedDeleted
  | cons call calls ih =>
      show ((o.step call).run calls).Unbroken ↔ _
      cases call with
      | message call =>
          rw [step_message o call h.deleted]
          rw [ih _ budget (h.message call), usedAtMost_skip rfl rfl]
      | send receiver =>
          have hused : (o.usedDeleted || o.deleted) = o.usedDeleted := by
            rw [h.deleted, Bool.or_false]
          cases receiver with
          | null =>
              rw [show o.step (.send .null) = o from rfl, ih o budget h,
                usedAtMost_skip rfl rfl]
          | disconnected =>
              have hstep : o.step (.send .disconnected) = o := by
                show { o with usedDeleted := o.usedDeleted || o.deleted } = o
                rw [hused]
              rw [hstep, ih o budget h, usedAtMost_skip rfl rfl]
          | connected key =>
              have hstep : o.step (.send (.connected key)) =
                  { o with message := encryptMessage key o.message } := by
                show { o with
                  message := if o.deleted then o.message else encryptMessage key o.message
                  usedDeleted := o.usedDeleted || o.deleted } = _
                rw [hused, if_neg (by rw [h.deleted]; decide)]
              rw [hstep]
              rcases h.phase with ⟨rfl, hunsent⟩ | ⟨rfl, hstart⟩
              · -- the first transmission uses the budget up
                rw [ih _ 0 (h.transmit key hunsent), usedAtMost_transmit]
              · -- the second one fails its assertion
                constructor
                · intro hrun
                  have := (unbroken_of_run hrun).assertions false
                    (assertion_encryptMessage key hstart)
                  cases this
                · intro hused
                  exact absurd hused not_usedAtMost_zero
      | delete =>
          have hstep : o.step .delete = { o with deleted := true } := by
            show o.luaOutputMessageDelete = _
            rw [luaOutputMessageDelete, if_neg (by rw [h.deleted]; decide)]
          rw [hstep, unbroken_run_deleted calls { o with deleted := true } rfl
            h.usedDeleted h.bounded.safe, usedAtMost_delete]

end OutputObject

/-- A script does no harm to a message it created exactly when it transmits
it at most once and does not send it after deleting it. -/
theorem script_unbroken_iff (memory : Memory) (calls : List OutputCall) :
    ((OutputObject.luaOutputMessageCreate memory).run calls).Unbroken ↔
      UsedAtMost 1 calls :=
  OutputObject.unbroken_run_iff calls _ 1 (OutputObject.live_create memory)

/-- Sending one message to two clients breaks it. -/
theorem broadcast_breaks :
    ¬ ((OutputObject.luaOutputMessageCreate fun _ => 0).run
      [.send (.connected (Vector.replicate 4 0)),
       .send (.connected (Vector.replicate 4 1))]).Unbroken := by
  intro h
  have hlive := (OutputObject.live_create fun _ => 0).transmit (Vector.replicate 4 0)
    (unsent_create fun _ => 0)
  rcases hlive.phase with ⟨hbudget, -⟩ | ⟨-, hstart⟩
  · cases hbudget
  · have := h.assertions false (assertion_encryptMessage (Vector.replicate 4 1) hstart)
    cases this

end LoginServer.Script
