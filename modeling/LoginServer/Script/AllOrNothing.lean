import LoginServer.Script.LuaMessage

/-!
# Operations on a message, all or nothing

An operation on a message should do all of its work or none.  For an adder
that is: the whole encoding at the cursor, and cursor and length moved past
it; or the message as it was.  For a getter: the whole field, and the cursor
behind it; or the cursor where it was.  A Lua adder should say which.

`addString` tests the room for its two parts before it writes the first.
`addDouble` has two parts and a test for each, and so has `getString`; the
bindings of the adders answer `true` without asking whether anything was
added.

## Main results

* `AddOp.allOrNothing_iff`, `GetOp.allOrNothing_iff` — one operation on any
  message.
* `LuaAdder.tellsTruth_iff` — one binding on any pointer.
* `operations_iff_fit` — all of them.
-/

namespace LoginServer.Script

open LoginServer.Network
open LoginServer.Network.NetworkMessage
open LoginServer.Verified.ByteMemory (read write write_append)

/-- The message after all of `bytes` went in at the cursor. -/
structure Wrote (bytes : Bytes) (m m' : NetworkMessage) : Prop where
  buffer : m'.buffer = write m.buffer m.pos bytes
  pos : m'.pos = m.pos + bytes.length
  len : m'.len = m.len + bytes.length

/-- Buffer, cursor and length as they were. -/
structure Untouched (m m' : NetworkMessage) : Prop where
  buffer : m'.buffer = m.buffer
  pos : m'.pos = m.pos
  len : m'.len = m.len

theorem Untouched.refl (m : NetworkMessage) : Untouched m m := ⟨rfl, rfl, rfl⟩

theorem Untouched.refuse (m : NetworkMessage) : Untouched m m.refuse := ⟨rfl, rfl, rfl⟩

theorem Wrote.trans {xs ys : Bytes} {m m' m'' : NetworkMessage} (h : Wrote xs m m')
    (h' : Wrote ys m' m'') : Wrote (xs ++ ys) m m'' := by
  refine ⟨?_, ?_, ?_⟩
  · rw [h'.buffer, h.buffer, h.pos, write_append]
  · rw [h'.pos, h.pos, List.length_append, Nat.add_assoc]
  · rw [h'.len, h.len, List.length_append, Nat.add_assoc]

theorem wrote_append {m : NetworkMessage} {bytes : Bytes} (hpos : m.pos + bytes.length < 65536)
    (hlen : m.len + bytes.length < 65536) : Wrote bytes m (m.append bytes) :=
  ⟨rfl, append_pos hpos, append_len hlen⟩

/-- A length that counts the bytes did not wrap. -/
theorem Wrote.len_lt {bytes : Bytes} {m m' : NetworkMessage} (h : Wrote bytes m m') :
    m.len + bytes.length < 65536 := by
  have hlt := m'.len_lt
  rwa [h.len] at hlt

/-- Nothing was written, so the bytes are not there. -/
theorem not_wrote_self {bytes : Bytes} (hne : bytes ≠ []) (m : NetworkMessage) :
    ¬ Wrote bytes m m := by
  intro h
  have hpos := h.pos
  have hlength := List.length_pos_of_ne_nil hne
  omega

/-! ## The adders -/

/-- A call of an adder. -/
inductive AddOp (Double : Type) where
  | addByte (value : UInt8)
  | add (w : Width) (value : w.Value)
  | addBytes (bytes : Bytes)
  | addString (value : Bytes)
  | addDouble (value : Double) (precision : UInt8)

namespace AddOp

variable {Double : Type} (scaled : Double → UInt8 → BitVec 32)

def run : AddOp Double → NetworkMessage → NetworkMessage
  | .addByte value, m => m.addByte value
  | .add w value, m => m.add w value
  | .addBytes bytes, m => m.addBytes bytes
  | .addString value, m => m.addString value
  | .addDouble value precision, m => m.addDouble scaled value precision

/-- The bytes the call stands for. -/
def encoding : AddOp Double → Bytes
  | .addByte value => [value]
  | .add w value => w.encode value
  | .addBytes bytes => bytes
  | .addString value => Width.encode .u16 (BitVec.ofNat _ value.length) ++ value
  | .addDouble value precision => precision :: Width.encode .u32 (scaled value precision)

/-- The guard in front of the first write. -/
def Accepts (m : NetworkMessage) : AddOp Double → Prop
  | .addByte _ => m.canAdd 1 = true
  | .add w _ => m.canAdd w.bytes = true
  | .addBytes bytes => m.canAdd bytes.length = true ∧ bytes.length ≤ 8192
  | .addString value => m.canAdd (value.length + 2) = true ∧ value.length ≤ 8192
  | .addDouble _ _ => m.canAdd 1 = true

instance (op : AddOp Double) (m : NetworkMessage) : Decidable (op.Accepts m) :=
  match op with
  | .addByte _ => inferInstanceAs (Decidable (_ = _))
  | .add _ _ => inferInstanceAs (Decidable (_ = _))
  | .addBytes _ => inferInstanceAs (Decidable (_ ∧ _))
  | .addString _ => inferInstanceAs (Decidable (_ ∧ _))
  | .addDouble _ _ => inferInstanceAs (Decidable (_ = _))

/-- The call writes everything and counts it, or nothing. -/
def AllOrNothing (op : AddOp Double) (m : NetworkMessage) : Prop :=
  Wrote (op.encoding scaled) m (op.run scaled m) ∨ Untouched m (op.run scaled m)

/-- A call that writes has room for its whole encoding, and the 16-bit length
can count it. -/
def Fits (op : AddOp Double) (m : NetworkMessage) : Prop :=
  op.Accepts m →
    m.canAdd (op.encoding scaled).length = true ∧
      m.len + (op.encoding scaled).length < 65536

end AddOp

/-- Where the whole encoding went in, all that is left to ask is whether the
length could count it. -/
theorem wrote_or_untouched_iff {m m' : NetworkMessage} {bytes : Bytes}
    (hwrote : m.len + bytes.length < 65536 → Wrote bytes m m')
    (hpos : m'.pos = m.pos + bytes.length) :
    Wrote bytes m m' ∨ Untouched m m' ↔ m.len + bytes.length < 65536 := by
  constructor
  · rintro (h | h)
    · exact h.len_lt
    · -- nothing moved, so there was nothing to write
      have hlt := m.len_lt
      have hsame := h.pos
      omega
  · intro h
    exact Or.inl (hwrote h)

theorem canAdd_lt {m : NetworkMessage} {size : Nat} (h : m.canAdd size = true) :
    m.pos + size < 24576 := by
  have hlt := canAdd_iff.mp h
  rwa [MAX_BODY_LENGTH_eq] at hlt

/-- One append behind one guard. -/
theorem append_iff {m m' : NetworkMessage} {bytes : Bytes} {p : Prop} [Decidable p]
    (hp : p → m.canAdd bytes.length = true) (hm' : m' = if p then m.append bytes else m) :
    Wrote bytes m m' ∨ Untouched m m' ↔
      (p → m.canAdd bytes.length = true ∧ m.len + bytes.length < 65536) := by
  by_cases h : p
  · have hroom := canAdd_lt (hp h)
    have hpos : m.pos + bytes.length < 65536 := by omega
    rw [hm', if_pos h, wrote_or_untouched_iff (wrote_append hpos) (append_pos hpos)]
    exact ⟨fun hlen _ => ⟨hp h, hlen⟩, fun hfits => (hfits h).2⟩
  · rw [hm', if_neg h]
    exact ⟨fun _ hyes => absurd hyes h, fun _ => Or.inr (Untouched.refl m)⟩

/-- Two appends in a row are one write of both. -/
theorem wrote_two_appends {m : NetworkMessage} {xs ys : Bytes}
    (hroom : m.canAdd (xs ++ ys).length = true) (hlen : m.len + (xs ++ ys).length < 65536) :
    Wrote (xs ++ ys) m ((m.append xs).append ys) := by
  have hlt := canAdd_lt hroom
  rw [List.length_append] at hlt hlen
  have hwrote : Wrote xs m (m.append xs) := wrote_append (by omega) (by omega)
  have hpos' := hwrote.pos
  have hlen' := hwrote.len
  exact hwrote.trans (wrote_append (by omega) (by omega))

theorem two_appends_iff {m : NetworkMessage} {xs ys : Bytes}
    (hroom : m.canAdd (xs ++ ys).length = true) :
    Wrote (xs ++ ys) m ((m.append xs).append ys) ∨
        Untouched m ((m.append xs).append ys) ↔
      m.len + (xs ++ ys).length < 65536 := by
  have hlt := canAdd_lt hroom
  rw [List.length_append] at hlt
  have hfirst : (m.append xs).pos = m.pos + xs.length := append_pos (by omega)
  have hsecond : ((m.append xs).append ys).pos = m.pos + (xs ++ ys).length := by
    rw [append_pos (by omega), hfirst, List.length_append, Nat.add_assoc]
  exact wrote_or_untouched_iff (wrote_two_appends hroom) hsecond

/-- The length of a string with its length in front. -/
theorem length_encodeString (value : Bytes) :
    (Width.encode .u16 (BitVec.ofNat _ value.length) ++ value).length = value.length + 2 := by
  rw [List.length_append, Width.length_encode]
  exact Nat.add_comm 2 _

namespace AddOp

variable {Double : Type} (scaled : Double → UInt8 → BitVec 32)

/-- `addString`: the guard in front covers both parts. -/
theorem addString_iff (value : Bytes) (m : NetworkMessage) :
    (AddOp.addString value : AddOp Double).AllOrNothing scaled m ↔
      (AddOp.addString value : AddOp Double).Fits scaled m := by
  have hlength := length_encodeString value
  unfold AllOrNothing Fits
  simp only [run, encoding, Accepts, addString_eq]
  by_cases h : m.canAdd (value.length + 2) = true ∧ value.length ≤ 8192
  · have hroom := h.1
    rw [← hlength] at hroom
    rw [if_pos h, two_appends_iff hroom]
    exact ⟨fun hlen _ => ⟨hroom, hlen⟩, fun hfits => (hfits h).2⟩
  · rw [if_neg h]
    exact ⟨fun _ hyes => absurd hyes h, fun _ => Or.inr (Untouched.refl m)⟩

/-- `addDouble`: where there is room for the precision and none for the number,
the precision stays behind alone. -/
theorem addDouble_iff (value : Double) (precision : UInt8) (m : NetworkMessage) :
    (AddOp.addDouble value precision).AllOrNothing scaled m ↔
      (AddOp.addDouble value precision).Fits scaled m := by
  let word := Width.encode .u32 (scaled value precision)
  have hword : word.length = 4 := Width.length_encode .u32 _
  have hencoding : (AddOp.addDouble value precision).encoding scaled = [precision] ++ word := rfl
  have hlength : ([precision] ++ word).length = 5 := by
    rw [List.length_append, hword]
    rfl
  have hrun : (AddOp.addDouble value precision).run scaled m =
      (m.addByte precision).add .u32 (scaled value precision) := rfl
  unfold AllOrNothing Fits
  rw [hencoding, hrun, addByte_eq]
  show _ ↔ (m.canAdd 1 = true → _)
  by_cases hone : m.canAdd 1 = true
  · have hlt := canAdd_lt hone
    have hpos : (m.append [precision]).pos = m.pos + 1 :=
      append_pos (by simp only [List.length_singleton]; omega)
    rw [if_pos hone, add_eq]
    have hfour : (m.append [precision]).canAdd (Width.bytes .u32) = true ↔
        m.canAdd ([precision] ++ word).length = true := by
      rw [canAdd_iff, canAdd_iff, hpos, hlength, Nat.add_assoc]
      exact Iff.rfl
    by_cases hall : m.canAdd ([precision] ++ word).length = true
    · rw [if_pos (hfour.mpr hall), two_appends_iff hall]
      exact ⟨fun hlen _ => ⟨hall, hlen⟩, fun hfits => (hfits hone).2⟩
    · rw [if_neg (fun h => hall (hfour.mp h))]
      constructor
      · rintro (h | h)
        · have hmoved := h.pos
          omega
        · have hmoved := h.pos
          omega
      · intro hfits
        exact absurd (hfits hone).1 hall
  · rw [if_neg hone, add_eq, if_neg]
    · exact ⟨fun _ hyes => absurd hyes hone, fun _ => Or.inr (Untouched.refl m)⟩
    · intro h
      rw [canAdd_iff] at h hone
      simp only [Width.bytes] at h
      omega

/-- Every adder on every message. -/
theorem allOrNothing_iff (op : AddOp Double) (m : NetworkMessage) :
    op.AllOrNothing scaled m ↔ op.Fits scaled m := by
  cases op with
  | addByte value => exact append_iff (p := m.canAdd 1 = true) id (addByte_eq m value)
  | add w value =>
      refine append_iff (p := m.canAdd w.bytes = true) (fun h => ?_) (add_eq m w value)
      show m.canAdd (w.encode value).length = true
      rw [Width.length_encode]
      exact h
  | addBytes bytes =>
      exact append_iff (p := m.canAdd bytes.length = true ∧ bytes.length ≤ 8192)
        And.left (addBytes_eq m bytes)
  | addString value => exact addString_iff scaled value m
  | addDouble value precision => exact addDouble_iff scaled value precision m

end AddOp

/-! ## The getters -/

/-- A read took `field`, of `size` bytes, and nothing else changed; or it took
nothing. -/
def Took {α : Type} (field : α) (size : Nat) (m : NetworkMessage)
    (result : α × NetworkMessage) : Prop :=
  (result.1 = field ∧ result.2.buffer = m.buffer ∧ result.2.pos = m.pos + size ∧
      result.2.len = m.len) ∨
    Untouched m result.2

theorem took_advance {α : Type} (field : α) {size : Nat} {m : NetworkMessage}
    (h : m.Readable size) : Took field size m (field, m.advance size) := by
  have hlt := h.2
  unfold Utils.NETWORKMESSAGE_MAXSIZE at hlt
  exact Or.inl ⟨rfl, rfl, advance_pos (by omega), rfl⟩

/-- A call of a getter. -/
inductive GetOp where
  | getByte
  | get (w : Width)
  | getString (stringLen : BitVec 16)
  deriving DecidableEq, Repr

namespace GetOp

/-- The number in front of the characters of a string. -/
def charsLength (m : NetworkMessage) : Nat :=
  (Width.decode .u16 (read m.buffer m.pos (Width.bytes .u16))).toNat

/-- The call takes the complete field at the cursor, or leaves the cursor. -/
def AllOrNothing (m : NetworkMessage) : GetOp → Prop
  | .getByte => Took (m.buffer m.pos) 1 m m.getByte
  | .get w => Took (w.decode (read m.buffer m.pos w.bytes)) w.bytes m (m.get w)
  | .getString stringLen =>
      if stringLen = 0 then
        Took (read m.buffer (m.pos + 2) (charsLength m)) (2 + charsLength m) m
          (m.getString stringLen)
      else
        Took (read m.buffer m.pos stringLen.toNat) stringLen.toNat m (m.getString stringLen)

/-- A string that is read with its length can be read whole, if its length
can. -/
def Fits (m : NetworkMessage) : GetOp → Prop
  | .getString stringLen =>
      stringLen = 0 → m.Readable (Width.bytes .u16) → m.Readable (2 + charsLength m)
  | _ => True

theorem took_getChars (m : NetworkMessage) (size : Nat) :
    Took (read m.buffer m.pos size) size m (m.getChars size) := by
  unfold getChars
  by_cases h : m.Readable size
  · rw [if_pos h]
    exact took_advance _ h
  · rw [if_neg h]
    exact Or.inr (Untouched.refuse m)

theorem took_get (m : NetworkMessage) (w : Width) :
    Took (w.decode (read m.buffer m.pos w.bytes)) w.bytes m (m.get w) := by
  by_cases h : m.Readable w.bytes
  · rw [get_of_readable h]
    exact took_advance _ h
  · rw [get_of_not_readable h]
    exact Or.inr (Untouched.refuse m)

theorem took_getByte (m : NetworkMessage) : Took (m.buffer m.pos) 1 m m.getByte := by
  by_cases h : m.Readable 1
  · rw [getByte_of_readable h]
    exact took_advance _ h
  · rw [getByte_of_not_readable h]
    exact Or.inr (Untouched.refuse m)

/-- `getString()`: where the length can be read and the characters cannot, the
cursor stays behind the length. -/
theorem getString_iff (m : NetworkMessage) :
    Took (read m.buffer (m.pos + 2) (charsLength m)) (2 + charsLength m) m (m.getString) ↔
      (m.Readable (Width.bytes .u16) → m.Readable (2 + charsLength m)) := by
  rw [getString_eq, if_pos rfl]
  by_cases h : m.Readable (Width.bytes .u16)
  · have hpos : (m.advance 2).pos = m.pos + 2 := by
      have hlt := h.2
      simp only [Width.bytes, Utils.NETWORKMESSAGE_MAXSIZE] at hlt
      exact advance_pos (by omega)
    have hchars : (m.advance 2).Readable (charsLength m) ↔ m.Readable (2 + charsLength m) := by
      unfold Readable
      rw [hpos, advance_len, Nat.add_assoc]
    rw [get_of_readable h]
    show Took _ _ m ((m.advance 2).getChars (charsLength m)) ↔ _
    unfold getChars
    by_cases hall : m.Readable (2 + charsLength m)
    · have hlt := hall.2
      unfold Utils.NETWORKMESSAGE_MAXSIZE at hlt
      refine ⟨fun _ _ => hall, fun _ => Or.inl ?_⟩
      rw [if_pos (hchars.mpr hall)]
      refine ⟨?_, rfl, ?_, rfl⟩
      · show read m.buffer (m.advance 2).pos _ = _
        rw [hpos]
      · show ((m.advance 2).advance _).pos = _
        rw [advance_pos (by omega), hpos, Nat.add_assoc]
    · rw [if_neg (fun hyes => hall (hchars.mp hyes))]
      have hmoved : (m.advance 2).refuse.pos = m.pos + 2 := hpos
      constructor
      · rintro (htook | hsame)
        · -- then there were no characters, and the string was complete
          have hzero : charsLength m = 0 := by
            have hpos' : (m.advance 2).refuse.pos = m.pos + (2 + charsLength m) := htook.2.2.1
            omega
          rw [hzero] at hall
          exact absurd h hall
        · have hpos' : (m.advance 2).refuse.pos = m.pos := hsame.pos
          omega
      · intro hfits
        exact absurd (hfits h) hall
  · rw [get_of_not_readable h]
    refine ⟨fun _ hyes => absurd hyes h, fun _ => Or.inr ?_⟩
    -- the length read as zero, and reading no characters moves nothing
    show Untouched m (m.refuse.getChars 0).2
    unfold getChars
    by_cases hzero : m.refuse.Readable 0
    · rw [if_pos hzero]
      have hlt := hzero.2
      unfold Utils.NETWORKMESSAGE_MAXSIZE at hlt
      exact ⟨rfl, advance_pos (m := m.refuse) (by omega), rfl⟩
    · rw [if_neg hzero]
      exact ⟨rfl, rfl, rfl⟩

/-- Every getter on every message. -/
theorem allOrNothing_iff (op : GetOp) (m : NetworkMessage) :
    op.AllOrNothing m ↔ op.Fits m := by
  cases op with
  | getByte => exact ⟨fun _ => trivial, fun _ => took_getByte m⟩
  | get w => exact ⟨fun _ => trivial, fun _ => took_get m w⟩
  | getString stringLen =>
      simp only [AllOrNothing, Fits]
      by_cases hzero : stringLen = 0
      · subst hzero
        simp only [if_true, forall_const]
        exact getString_iff m
      · rw [if_neg hzero, getString_eq, if_neg hzero]
        exact ⟨fun _ hyes => absurd hyes hzero, fun _ => took_getChars m stringLen.toNat⟩

end GetOp

/-! ## The bindings -/

/-- A call of one of the adders from Lua. -/
inductive LuaAdder where
  | addU8 (value : UInt8)
  | addU16 (value : BitVec 16)
  | addU32 (value : BitVec 32)
  | addU64 (value : BitVec 64)
  | addString (value : Bytes)
  deriving DecidableEq, Repr

namespace LuaAdder

def call : LuaAdder → MessageCall
  | .addU8 value => .addU8 value
  | .addU16 value => .addU16 value
  | .addU32 value => .addU32 value
  | .addU64 value => .addU64 value
  | .addString value => .addString value

/-- The adder behind the binding. -/
def op : LuaAdder → AddOp Unit
  | .addU8 value => .addByte value
  | .addU16 value => .add .u16 value
  | .addU32 value => .add .u32 value
  | .addU64 value => .add .u64 value
  | .addString value => .addString value

/-- No binding adds a floating-point number. -/
def noDouble : Unit → UInt8 → BitVec 32 := fun _ _ => 0

/-- The message behind the pointer has the whole encoding in it. -/
def Appended (adder : LuaAdder) (p : Option NetworkMessage) : Prop :=
  ∃ m m', p = some m ∧ (adder.call.run p).2 = some m' ∧
    Wrote (adder.op.encoding noDouble) m m'

/-- The answer is `true` exactly when the value was appended. -/
def TellsTruth (adder : LuaAdder) (p : Option NetworkMessage) : Prop :=
  (adder.call.run p).1 = .boolean true ↔ adder.Appended p

/-- The pointer is null, or the message accepts the value and its length can
count it. -/
def Fits (adder : LuaAdder) (p : Option NetworkMessage) : Prop :=
  ∀ m, p = some m →
    adder.op.Accepts m ∧ m.len + (adder.op.encoding noDouble).length < 65536

theorem run_some (adder : LuaAdder) (m : NetworkMessage) :
    adder.call.run (some m) = (.boolean true, some (adder.op.run noDouble m)) := by
  cases adder <;> rfl

theorem run_none (adder : LuaAdder) : adder.call.run none = (.boolean false, none) := by
  cases adder <;> rfl

/-- What is appended behind one guard, and when. -/
theorem append_wrote_iff {m m' : NetworkMessage} {bytes : Bytes} {p : Prop} [Decidable p]
    (hne : bytes ≠ []) (hp : p → m.canAdd bytes.length = true)
    (hm' : m' = if p then m.append bytes else m) :
    Wrote bytes m m' ↔ p ∧ m.len + bytes.length < 65536 := by
  by_cases h : p
  · have hroom := canAdd_lt (hp h)
    rw [hm', if_pos h]
    exact ⟨fun hwrote => ⟨h, hwrote.len_lt⟩, fun hfits => wrote_append (by omega) hfits.2⟩
  · rw [hm', if_neg h]
    exact ⟨fun hwrote => absurd hwrote (not_wrote_self hne m), fun hfits => absurd hfits.1 h⟩

theorem add_wrote_iff (m : NetworkMessage) (w : Width) (value : w.Value) :
    Wrote (w.encode value) m (m.add w value) ↔
      m.canAdd w.bytes = true ∧ m.len + (w.encode value).length < 65536 := by
  refine append_wrote_iff (p := m.canAdd w.bytes = true) (w.encode_ne_nil value)
    (fun h => ?_) (add_eq m w value)
  rw [Width.length_encode]
  exact h

theorem addString_wrote_iff (m : NetworkMessage) (value : Bytes) :
    Wrote (Width.encode .u16 (BitVec.ofNat _ value.length) ++ value) m (m.addString value) ↔
      (m.canAdd (value.length + 2) = true ∧ value.length ≤ 8192) ∧
        m.len + (Width.encode .u16 (BitVec.ofNat _ value.length) ++ value).length < 65536 := by
  have hlength := length_encodeString value
  rw [addString_eq]
  by_cases h : m.canAdd (value.length + 2) = true ∧ value.length ≤ 8192
  · have hroom := h.1
    rw [← hlength] at hroom
    rw [if_pos h]
    exact ⟨fun hwrote => ⟨h, hwrote.len_lt⟩, fun hfits => wrote_two_appends hroom hfits.2⟩
  · rw [if_neg h]
    have hne : Width.encode .u16 (BitVec.ofNat _ value.length) ++ value ≠ [] :=
      List.append_ne_nil_of_left_ne_nil (Width.encode_ne_nil .u16 _) value
    exact ⟨fun hwrote => absurd hwrote (not_wrote_self hne m), fun hfits => absurd hfits.1 h⟩

/-- What a binding appends, and when. -/
theorem wrote_iff (adder : LuaAdder) (m : NetworkMessage) :
    Wrote (adder.op.encoding noDouble) m (adder.op.run noDouble m) ↔
      adder.op.Accepts m ∧ m.len + (adder.op.encoding noDouble).length < 65536 := by
  cases adder with
  | addU8 value =>
      exact append_wrote_iff (p := m.canAdd 1 = true) (List.cons_ne_nil _ _) id
        (addByte_eq m value)
  | addU16 value => exact add_wrote_iff m .u16 value
  | addU32 value => exact add_wrote_iff m .u32 value
  | addU64 value => exact add_wrote_iff m .u64 value
  | addString value => exact addString_wrote_iff m value

/-- Every binding on every pointer. -/
theorem tellsTruth_iff (adder : LuaAdder) (p : Option NetworkMessage) :
    adder.TellsTruth p ↔ adder.Fits p := by
  cases p with
  | none =>
      have hanswer : ¬ (adder.call.run none).1 = .boolean true := by
        rw [run_none]
        exact fun h => by cases h
      have hnothing : ¬ adder.Appended none := by
        rintro ⟨m, m', hm, -, -⟩
        cases hm
      exact ⟨fun _ m hm => (nomatch hm),
        fun _ => ⟨fun h => absurd h hanswer, fun h => absurd h hnothing⟩⟩
  | some m =>
      have hanswer : (adder.call.run (some m)).1 = .boolean true := by rw [run_some]
      have happended : adder.Appended (some m) ↔
          Wrote (adder.op.encoding noDouble) m (adder.op.run noDouble m) := by
        unfold Appended
        rw [run_some]
        constructor
        · rintro ⟨m₁, m', hm, hm', hwrote⟩
          cases hm
          cases hm'
          exact hwrote
        · intro hwrote
          exact ⟨m, _, rfl, rfl, hwrote⟩
      constructor
      · intro h m₁ hm
        cases hm
        exact (wrote_iff adder m).mp (happended.mp (h.mp hanswer))
      · intro h
        have hwrote := (wrote_iff adder m).mpr (h m rfl)
        exact ⟨fun _ => happended.mpr hwrote, fun _ => hanswer⟩

end LuaAdder

/-! ## All operations -/

/-- For every message, pointer and argument, whatever the floating-point
expression gives: each operation is all or nothing where it fits, and only
there. -/
theorem operations_iff_fit {Double : Type} (scaled : Double → UInt8 → BitVec 32) :
    (∀ (op : AddOp Double) (m : NetworkMessage), op.AllOrNothing scaled m ↔
      op.Fits scaled m) ∧
      (∀ (op : GetOp) (m : NetworkMessage), op.AllOrNothing m ↔ op.Fits m) ∧
      ∀ (adder : LuaAdder) (p : Option NetworkMessage), adder.TellsTruth p ↔ adder.Fits p :=
  ⟨AddOp.allOrNothing_iff scaled, GetOp.allOrNothing_iff, LuaAdder.tellsTruth_iff⟩

/-- A message with four bytes of room left. -/
def almostFull : NetworkMessage := { length := 24563, position := 24571, buffer := fun _ => 0 }

/-- A message that announces five characters and has three. -/
def cutString : NetworkMessage :=
  { length := 5, buffer := fun i => if i = 8 then 5 else 0 }

/-- `addDouble` leaves its precision behind, `getString` the cursor behind the
length, and a binding answers `true` for what it did not add. -/
theorem operations_half_done :
    ¬ (AddOp.addDouble () 2).AllOrNothing (fun _ _ => 0) almostFull ∧
      ¬ (GetOp.getString 0).AllOrNothing cutString ∧
      ¬ (LuaAdder.addU64 7).TellsTruth (some almostFull) := by
  refine ⟨?_, ?_, ?_⟩
  · rw [AddOp.allOrNothing_iff]
    intro h
    exact absurd (h (by decide)).1 (by decide)
  · rw [GetOp.allOrNothing_iff]
    intro h
    exact absurd (h rfl (by decide)) (by decide)
  · rw [LuaAdder.tellsTruth_iff]
    intro h
    exact absurd (h almostFull rfl).1 (by decide)

end LoginServer.Script
