import LoginServer.Network.AuthenticationGate
import LoginServer.Network.WireRoundTrip
import LoginServer.Verified.Codec

/-!
# The login reply

`addMOTD`, `addSessionKey` and `addCharacterList` write one body.  An adder
whose field does not fit leaves the field out and says nothing, and the
number of characters is cut to one byte; the reply is sent in any case.

The body reads back when every field went in and the count is the number of
characters, and only then: a body with a field missing is shorter than any
body with these texts in it.

## Main results

* `allAccepted_iff` — when every field goes in.
* `loginReply_eq` — the reply is its fields, added one after another.
* `reply_well_formed_iff` — which replies read back.
-/

namespace LoginServer.Network

open LoginServer.Verified
open LoginServer.Verified.ByteMemory

/-! ## The fields that go in -/

namespace Field

instance (m : OutputMessage) (field : Field) : Decidable (field.Accepted m) :=
  match field with
  | .byte _ => inferInstanceAs (Decidable (_ = true))
  | .int _ _ => inferInstanceAs (Decidable (_ = true))
  | .bytes _ => inferInstanceAs (Decidable (_ ∧ _))
  | .string _ => inferInstanceAs (Decidable (_ ∧ _))

/-- The text of a field is one that `addString` and `addBytes` take. -/
def Small : Field → Prop
  | .byte _ => True
  | .int _ _ => True
  | .bytes value => value.length ≤ 8192
  | .string value => value.length ≤ 8192

/-- The fields whose adder did not refuse them. -/
def kept : List Field → OutputMessage → List Field
  | [], _ => []
  | field :: fields, m =>
      if field.Accepted m then field :: kept fields (field.addTo m)
      else kept fields (field.addTo m)

theorem length_encode_string (value : Bytes) :
    (encode (.string value)).length = value.length + 2 := by
  rw [encode, List.length_append, OutputMessage.length_lengthBytes]
  omega

/-- The guards of an adder, for a message that holds a body. -/
theorem accepted_iff {m : OutputMessage} {body : Bytes} (h : m.Holds body) (field : Field) :
    field.Accepted m ↔
      field.Small ∧ 8 + body.length + field.encode.length < MAX_BODY_LENGTH := by
  have hpos := h.pos
  cases field with
  | byte value =>
      show m.canAdd 1 = true ↔ True ∧ 8 + body.length + 1 < MAX_BODY_LENGTH
      rw [NetworkMessage.canAdd_iff, hpos, true_and]
  | int w value =>
      show m.canAdd w.bytes = true ↔ True ∧ 8 + body.length + (w.encode value).length < _
      rw [NetworkMessage.canAdd_iff, hpos, true_and, Width.length_encode]
  | bytes value =>
      show m.canAdd value.length = true ∧ value.length ≤ 8192 ↔ _
      rw [NetworkMessage.canAdd_iff, hpos, And.comm]
      rfl
  | string value =>
      show m.canAdd (value.length + 2) = true ∧ value.length ≤ 8192 ↔ _
      rw [NetworkMessage.canAdd_iff, hpos, And.comm, length_encode_string]
      rfl

/-- An adder that refuses its field leaves the message alone. -/
theorem addTo_of_not_accepted {m : OutputMessage} {field : Field}
    (hrefused : ¬ field.Accepted m) : field.addTo m = m := by
  cases field with
  | byte value =>
      have hguard : ¬ m.canAdd 1 = true := hrefused
      show { m with toNetworkMessage := m.toNetworkMessage.addByte value } = m
      rw [NetworkMessage.addByte_eq, if_neg hguard]
  | int w value =>
      have hguard : ¬ m.canAdd w.bytes = true := hrefused
      show { m with toNetworkMessage := m.toNetworkMessage.add w value } = m
      rw [NetworkMessage.add_eq, if_neg hguard]
  | bytes value =>
      have hguard : ¬ (m.canAdd value.length = true ∧ value.length ≤ 8192) := hrefused
      show { m with toNetworkMessage := m.toNetworkMessage.addBytes value } = m
      rw [NetworkMessage.addBytes_eq, if_neg hguard]
  | string value =>
      have hguard : ¬ (m.canAdd (value.length + 2) = true ∧ value.length ≤ 8192) := hrefused
      show { m with toNetworkMessage := m.toNetworkMessage.addString value } = m
      rw [NetworkMessage.addString_eq, if_neg hguard]

/-- The body is what went in, end to end. -/
theorem addAll_holds_kept (fields : List Field) {m : OutputMessage} {body : Bytes}
    (h : m.Holds body) :
    (addAll fields m).Holds (body ++ encodeAll (kept fields m)) := by
  induction fields generalizing m body with
  | nil =>
      rw [kept, encodeAll, List.flatMap_nil, List.append_nil]
      exact h
  | cons field fields ih =>
      unfold kept
      by_cases haccepted : field.Accepted m
      · have hrest := ih (addTo_holds h field haccepted)
        rw [if_pos haccepted, encodeAll, List.flatMap_cons, ← List.append_assoc]
        exact hrest
      · have hsame : (field.addTo m).Holds body := by rwa [addTo_of_not_accepted haccepted]
        have hrest := ih hsame
        rw [if_neg haccepted]
        exact hrest

/-- Every field goes in when the texts are small and the body has room for
the sum of them. -/
theorem allAccepted_iff (fields : List Field) {m : OutputMessage} {body : Bytes}
    (h : m.Holds body) :
    AllAccepted fields m ↔
      (∀ field ∈ fields, field.Small) ∧
        8 + body.length + (encodeAll fields).length < MAX_BODY_LENGTH := by
  induction fields generalizing m body with
  | nil =>
      have hroom := h.room
      simp only [AllAccepted, encodeAll, List.flatMap_nil, List.length_nil, Nat.add_zero, hroom,
        List.not_mem_nil, false_imp_iff, implies_true, and_self]
  | cons field fields ih =>
      have hlength : (encodeAll (field :: fields)).length =
          field.encode.length + (encodeAll fields).length := by
        rw [encodeAll, List.flatMap_cons, List.length_append]
        rfl
      rw [AllAccepted, List.forall_mem_cons, hlength]
      constructor
      · rintro ⟨haccepted, hrest⟩
        have hsmall := ((accepted_iff h field).mp haccepted).1
        obtain ⟨hall, hroom⟩ := (ih (addTo_holds h field haccepted)).mp hrest
        rw [List.length_append] at hroom
        exact ⟨⟨hsmall, hall⟩, by omega⟩
      · rintro ⟨⟨hsmall, hall⟩, hroom⟩
        have haccepted := (accepted_iff h field).mpr ⟨hsmall, by omega⟩
        refine ⟨haccepted, (ih (addTo_holds h field haccepted)).mpr ⟨hall, ?_⟩⟩
        rw [List.length_append]
        omega

/-- A list of fields that are not empty loses bytes when it loses a field. -/
theorem kept_eq_of_length {fields : List Field} {m : OutputMessage}
    (hnonempty : ∀ field ∈ fields, field.encode ≠ [])
    (hlength : (encodeAll fields).length ≤ (encodeAll (kept fields m)).length) :
    AllAccepted fields m ∧ kept fields m = fields := by
  have hle : ∀ (fields : List Field) (m : OutputMessage),
      (encodeAll (kept fields m)).length ≤ (encodeAll fields).length := by
    intro fields
    induction fields with
    | nil => exact fun _ => Nat.le_refl _
    | cons field fields ih =>
        intro m
        have hrest := ih (field.addTo m)
        unfold kept
        split <;> simp only [encodeAll, List.flatMap_cons, List.length_append] at hrest ⊢ <;>
          omega
  induction fields generalizing m with
  | nil => exact ⟨trivial, rfl⟩
  | cons field fields ih =>
      have hpositive := List.length_pos_iff.mpr (hnonempty field List.mem_cons_self)
      have hrest := hle fields (field.addTo m)
      by_cases haccepted : field.Accepted m
      · rw [kept, if_pos haccepted] at hlength ⊢
        simp only [encodeAll, List.flatMap_cons, List.length_append] at hlength
        obtain ⟨hall, heq⟩ := ih (m := field.addTo m)
          (fun f hf => hnonempty f (List.mem_cons_of_mem _ hf))
          (by simp only [encodeAll]; omega)
        exact ⟨⟨haccepted, hall⟩, by rw [heq]⟩
      · rw [kept, if_neg haccepted] at hlength
        simp only [encodeAll, List.flatMap_cons, List.length_append] at hlength hrest
        omega

end Field

/-! ## The fields of the reply -/

/-- The string `addMOTD` adds. -/
def motdString (env : Env) : Bytes :=
  toSignedDecimal env.motdNumber ++ text "\n" ++ env.motdMessage

/-- The string `addSessionKey` adds. -/
def sessionKeyString (now : Nat) (account : Account) : Bytes :=
  account.email ++ text "\n" ++ account.password ++ text "\n\n" ++
    toDecimal (now / AUTHENTICATOR_PERIOD % 2 ^ 32)

def Character.fields (character : Character) : List Field :=
  [.string character.name, .string character.instanceName, .string character.instanceId,
    .int .u16 character.level, .int .u8 (if character.autoReconnect then 1 else 0)]

/-- What the three producers add, in order. -/
def replyFields (env : Env) (now : Nat) (account : Account) : List Field :=
  [.byte Opcode.motd.toByte, .string (motdString env),
    .byte Opcode.sessionKey.toByte, .string (sessionKeyString now account),
    .byte Opcode.characterList.toByte, .byte (UInt8.ofNat account.characters.length)] ++
  account.characters.flatMap Character.fields ++
  [.byte 0, .byte (if account.premiumEnd.toNat > now then 1 else 0),
    .int .u32 (BitVec.setWidth 32 account.premiumEnd)]

theorem loginReply_eq (env : Env) (now : Nat) (stack : Memory) (account : Account) :
    loginReply env now stack account =
      Field.addAll (replyFields env now account) (OutputMessage.create stack) := by
  have hcharacters : ∀ (characters : List Character) (m : OutputMessage),
      characters.foldl addCharacter m =
        Field.addAll (characters.flatMap Character.fields) m := by
    intro characters
    induction characters with
    | nil => exact fun _ => rfl
    | cons character characters ih =>
        intro m
        rw [List.foldl_cons, ih, List.flatMap_cons, Field.addAll, Field.addAll,
          List.foldl_append]
        rfl
  unfold loginReply addMOTD addSessionKey addCharacterList
  dsimp only
  rw [hcharacters]
  unfold replyFields Field.addAll
  rw [List.foldl_append, List.foldl_append]
  rfl

/-! ## The reply as it is read -/

/-- An entry of the character list, as its five fields are read. -/
structure Entry where
  name : Bytes
  instanceName : Bytes
  instanceId : Bytes
  level : BitVec 16
  autoReconnect : UInt8

structure Reply where
  motdOpcode : UInt8
  motd : Bytes
  sessionKeyOpcode : UInt8
  sessionKey : Bytes
  listOpcode : UInt8
  entries : List Entry
  unused : UInt8
  premium : UInt8
  premiumEnd : BitVec 32

def widthCodec (w : Width) : Codec UInt8 w.Value :=
  .block w.bytes (fun _ => True) w.encode w.decode w.length_encode
    (fun value _ => w.decode_encode value)
    (fun _ hlength => ⟨trivial, w.encode_decode hlength⟩)

/-- The length of a string. -/
def lengthCodec : Codec UInt8 Nat :=
  .block 2 (· < 65536) OutputMessage.lengthBytes (fun bytes => (Width.decode .u16 bytes).toNat)
    OutputMessage.length_lengthBytes (fun _ hlt => Field.toNat_decode_lengthBytes hlt)
    (fun bytes hlength => by
      refine ⟨(Width.decode .u16 bytes).isLt, ?_⟩
      rw [OutputMessage.lengthBytes, BitVec.ofNat_toNat, BitVec.setWidth_eq]
      exact Width.encode_decode .u16 hlength)

/-- The number of characters. -/
def countCodec : Codec UInt8 Nat :=
  .block 1 (· < 256) (fun n => [UInt8.ofNat n]) (fun bytes => (bytes.headD 0).toNat)
    (fun _ => rfl)
    (fun n hlt => by
      show (UInt8.ofNat n).toNat = n
      rw [UInt8.toNat_ofNat', Nat.mod_eq_of_lt hlt])
    (fun bytes hlength => by
      obtain ⟨byte, rfl⟩ := List.length_eq_one_iff.mp hlength
      exact ⟨byte.toNat_lt, by simp⟩)

def stringCodec : Codec UInt8 Bytes := .counted lengthCodec .letter

def entryCodec : Codec UInt8 Entry :=
  (stringCodec.pair (stringCodec.pair (stringCodec.pair
    ((widthCodec .u16).pair .letter)))).iso
    (fun (name, instanceName, instanceId, level, autoReconnect) =>
      { name, instanceName, instanceId, level, autoReconnect })
    (fun entry =>
      (entry.name, entry.instanceName, entry.instanceId, entry.level, entry.autoReconnect))
    (fun _ => rfl) (fun _ => rfl)

def replyCodec : Codec UInt8 Reply :=
  (Codec.letter.pair (stringCodec.pair (Codec.letter.pair (stringCodec.pair
    (Codec.letter.pair ((Codec.counted countCodec entryCodec).pair
      (Codec.letter.pair (Codec.letter.pair (widthCodec .u32))))))))).iso
    (fun (motdOpcode, motd, sessionKeyOpcode, sessionKey, listOpcode, entries, unused,
        premium, premiumEnd) =>
      { motdOpcode, motd, sessionKeyOpcode, sessionKey, listOpcode, entries, unused,
        premium, premiumEnd })
    (fun reply =>
      (reply.motdOpcode, reply.motd, reply.sessionKeyOpcode, reply.sessionKey,
        reply.listOpcode, reply.entries, reply.unused, reply.premium, reply.premiumEnd))
    (fun _ => rfl) (fun _ => rfl)

def Character.entry (character : Character) : Entry where
  name := character.name
  instanceName := character.instanceName
  instanceId := character.instanceId
  level := character.level
  autoReconnect := if character.autoReconnect then 1 else 0

/-- The reply the producers mean. -/
def replyOf (env : Env) (now : Nat) (account : Account) : Reply where
  motdOpcode := Opcode.motd.toByte
  motd := motdString env
  sessionKeyOpcode := Opcode.sessionKey.toByte
  sessionKey := sessionKeyString now account
  listOpcode := Opcode.characterList.toByte
  entries := account.characters.map Character.entry
  unused := 0
  premium := if account.premiumEnd.toNat > now then 1 else 0
  premiumEnd := BitVec.setWidth 32 account.premiumEnd

theorem stringCodec_encode (value : Bytes) :
    stringCodec.encode value = Field.encode (.string value) := by
  show OutputMessage.lengthBytes value.length ++ value.flatMap (fun byte => [byte]) = _
  rw [List.flatMap_singleton']
  rfl

theorem entryCodec_encode (character : Character) :
    entryCodec.encode character.entry = Field.encodeAll character.fields := by
  show stringCodec.encode _ ++ (stringCodec.encode _ ++ (stringCodec.encode _ ++
    (Width.encode .u16 _ ++ [_]))) = _
  rw [stringCodec_encode, stringCodec_encode, stringCodec_encode]
  unfold Field.encodeAll Character.fields Character.entry
  cases character.autoReconnect <;> rfl

/-- The reply, encoded, is its fields end to end. -/
theorem replyCodec_encode (env : Env) (now : Nat) (account : Account) :
    replyCodec.encode (replyOf env now account) =
      Field.encodeAll (replyFields env now account) := by
  have hentries : (account.characters.map Character.entry).flatMap entryCodec.encode =
      Field.encodeAll (account.characters.flatMap Character.fields) := by
    rw [Field.encodeAll, List.flatMap_assoc, List.flatMap_map]
    exact List.flatMap_congr fun character _ => entryCodec_encode character
  show [_] ++ (stringCodec.encode _ ++ ([_] ++ (stringCodec.encode _ ++ ([_] ++
    (([UInt8.ofNat (account.characters.map Character.entry).length] ++
      (account.characters.map Character.entry).flatMap entryCodec.encode) ++
      ([_] ++ ([_] ++ Width.encode .u32 _))))))) = _
  rw [stringCodec_encode, stringCodec_encode, hentries, List.length_map]
  unfold replyFields
  simp only [Field.encodeAll, List.flatMap_append, List.flatMap_cons, List.flatMap_nil,
    List.append_assoc, List.append_nil]
  rfl

/-- The bytes of an entry: three lengths, their texts, the level and the flag. -/
def Entry.size (entry : Entry) : Nat :=
  entry.name.length + entry.instanceName.length + entry.instanceId.length + 9

def Reply.size (reply : Reply) : Nat :=
  reply.motd.length + reply.sessionKey.length + (reply.entries.map Entry.size).sum + 14

theorem length_entryCodec (entry : Entry) : (entryCodec.encode entry).length = entry.size := by
  show (stringCodec.encode _ ++ (stringCodec.encode _ ++ (stringCodec.encode _ ++
    (Width.encode .u16 _ ++ [_])))).length = _
  rw [stringCodec_encode, stringCodec_encode, stringCodec_encode]
  simp only [List.length_append, Field.length_encode_string, Width.length_encode,
    List.length_singleton, Width.bytes, Entry.size]
  omega

/-- How long a body is depends on its texts only. -/
theorem length_replyCodec (reply : Reply) :
    (replyCodec.encode reply).length = reply.size := by
  have hentries : (reply.entries.flatMap entryCodec.encode).length =
      (reply.entries.map Entry.size).sum := by
    rw [List.length_flatMap]
    exact congrArg List.sum (List.map_congr_left fun entry _ => length_entryCodec entry)
  show ([_] ++ (stringCodec.encode _ ++ ([_] ++ (stringCodec.encode _ ++ ([_] ++
    (([_] ++ reply.entries.flatMap entryCodec.encode) ++
      ([_] ++ ([_] ++ Width.encode .u32 _)))))))).length = _
  rw [stringCodec_encode, stringCodec_encode]
  simp only [List.length_append, Field.length_encode_string, Width.length_encode,
    List.length_singleton, Width.bytes, hentries, Reply.size]
  omega

/-! ## Which replies read back -/

/-- The body of the message that is sent. -/
def replyBody (env : Env) (now : Nat) (stack : Memory) (account : Account) : Bytes :=
  let m := loginReply env now stack account
  read m.buffer INITIAL_BUFFER_POSITION m.len

/-- **The reply is well formed.**  Read field by field, its body gives back
the two strings and one entry for each character, and nothing is left. -/
def ReadsBack (env : Env) (now : Nat) (stack : Memory) (account : Account) : Prop :=
  ∃ reply, replyCodec.decode (replyBody env now stack account) = some (reply, []) ∧
    reply.motd = motdString env ∧ reply.sessionKey = sessionKeyString now account ∧
    reply.entries = account.characters.map Character.entry

/-- The count fits its byte, every text is one `addString` takes, and all of
it fits the buffer. -/
structure Representable (env : Env) (now : Nat) (account : Account) : Prop where
  count : account.characters.length ≤ 255
  motd : (motdString env).length ≤ 8192
  sessionKey : (sessionKeyString now account).length ≤ 8192
  texts : ∀ character ∈ account.characters, character.name.length ≤ 8192 ∧
    character.instanceName.length ≤ 8192 ∧ character.instanceId.length ≤ 8192
  room : 8 + (replyOf env now account).size < MAX_BODY_LENGTH

theorem replyBody_eq (env : Env) (now : Nat) (stack : Memory) (account : Account) :
    replyBody env now stack account =
      Field.encodeAll
        (Field.kept (replyFields env now account) (OutputMessage.create stack)) := by
  have hholds := Field.addAll_holds_kept (replyFields env now account)
    (OutputMessage.holds_create stack)
  rw [← loginReply_eq, List.nil_append] at hholds
  show read _ 8 (loginReply env now stack account).len = _
  rw [hholds.len]
  exact hholds.bytes

/-- Every field of the reply has bytes to lose. -/
theorem replyFields_nonempty (env : Env) (now : Nat) (account : Account) :
    ∀ field ∈ replyFields env now account, field.encode ≠ [] := by
  intro field hfield hnil
  cases field with
  | byte value => cases hnil
  | int w value => exact w.encode_ne_nil value hnil
  | string value =>
      have hlength := congrArg List.length hnil
      rw [Field.length_encode_string] at hlength
      cases hlength
  | bytes value =>
      simp [replyFields, Character.fields] at hfield

/-- The texts of the reply are those of its fields. -/
theorem small_replyFields (env : Env) (now : Nat) (account : Account) :
    (∀ field ∈ replyFields env now account, field.Small) ↔
      (motdString env).length ≤ 8192 ∧ (sessionKeyString now account).length ≤ 8192 ∧
        ∀ character ∈ account.characters, character.name.length ≤ 8192 ∧
          character.instanceName.length ≤ 8192 ∧ character.instanceId.length ≤ 8192 := by
  unfold replyFields
  simp only [List.forall_mem_append, List.forall_mem_cons, List.forall_mem_flatMap,
    Character.fields, Field.Small]
  simp [and_assoc]

theorem fits_replyOf {env : Env} {now : Nat} {account : Account}
    (h : Representable env now account) : replyCodec.Fits (replyOf env now account) := by
  have hstring : ∀ value : Bytes, value.length ≤ 8192 → stringCodec.Fits value := by
    intro value hlength
    exact ⟨show value.length < 65536 by omega, fun _ _ => trivial⟩
  have hcount : countCodec.Fits (account.characters.map Character.entry).length := by
    have hle := h.count
    show (account.characters.map Character.entry).length < 256
    rw [List.length_map]
    omega
  have hentries : ∀ entry ∈ account.characters.map Character.entry, entryCodec.Fits entry := by
    intro entry hentry
    obtain ⟨character, hcharacter, rfl⟩ := List.mem_map.mp hentry
    obtain ⟨hname, hinstanceName, hinstanceId⟩ := h.texts character hcharacter
    exact ⟨hstring _ hname, hstring _ hinstanceName, hstring _ hinstanceId, trivial, trivial⟩
  exact ⟨trivial, hstring _ h.motd, trivial, hstring _ h.sessionKey, trivial,
    ⟨hcount, hentries⟩, trivial, trivial, trivial⟩

/-- The reply that is read is the one that was meant, to its last field. -/
theorem decode_replyBody {env : Env} {now : Nat} {account : Account} (stack : Memory)
    (h : Representable env now account) :
    replyCodec.decode (replyBody env now stack account) =
      some (replyOf env now account, []) := by
  have haccepted : Field.AllAccepted (replyFields env now account)
      (OutputMessage.create stack) := by
    apply (Field.allAccepted_iff _ (OutputMessage.holds_create stack)).mpr
    rw [← replyCodec_encode, length_replyCodec]
    exact ⟨(small_replyFields env now account).mpr ⟨h.motd, h.sessionKey, h.texts⟩, h.room⟩
  have hholds := Field.addAll_holds _ (OutputMessage.holds_create stack) haccepted
  rw [← loginReply_eq, List.nil_append] at hholds
  apply (replyCodec.decode_eq_nil_iff).mpr
  refine ⟨fits_replyOf h, ?_⟩
  rw [replyCodec_encode]
  show read _ 8 (loginReply env now stack account).len = _
  rw [hholds.len]
  exact hholds.bytes

/-- A body with these texts has the length of the whole reply, so no field is
missing from it. -/
theorem representable_of_readsBack {env : Env} {now : Nat} {stack : Memory}
    {account : Account} (h : ReadsBack env now stack account) :
    Representable env now account := by
  obtain ⟨reply, hdecode, hmotd, hsessionKey, hentries⟩ := h
  obtain ⟨hfits, hbody⟩ := replyCodec.decode_eq_nil_iff.mp hdecode
  have hsize : reply.size = (replyOf env now account).size := by
    unfold Reply.size
    rw [hmotd, hsessionKey, hentries]
    rfl
  have hlength := congrArg List.length hbody
  rw [replyBody_eq, length_replyCodec, hsize, ← length_replyCodec, replyCodec_encode] at hlength
  obtain ⟨haccepted, -⟩ := Field.kept_eq_of_length (replyFields_nonempty env now account)
    (Nat.le_of_eq hlength.symm)
  obtain ⟨hsmall, hroom⟩ :=
    (Field.allAccepted_iff _ (OutputMessage.holds_create stack)).mp haccepted
  rw [← replyCodec_encode, length_replyCodec] at hroom
  obtain ⟨hmotdSmall, hsessionKeySmall, htexts⟩ := (small_replyFields env now account).mp hsmall
  refine ⟨?_, hmotdSmall, hsessionKeySmall, htexts, hroom⟩
  have hcount : reply.entries.length < 256 := hfits.2.2.2.2.2.1.1
  rw [hentries, List.length_map] at hcount
  omega

/-- **Exactly which replies are well formed.** -/
theorem reply_well_formed_iff (env : Env) (now : Nat) (stack : Memory) (account : Account) :
    ReadsBack env now stack account ↔ Representable env now account := by
  constructor
  · exact representable_of_readsBack
  · intro h
    exact ⟨_, decode_replyBody stack h, rfl, rfl, rfl⟩

/-- An account with one character more than the count can say. -/
def manyCharacters : Account where
  id := 7
  premiumEnd := 0
  characters :=
    List.replicate 256
      { name := [65], instanceName := [], instanceId := [], level := 1, autoReconnect := false }

/-- Its reply announces no character at all. -/
theorem many_characters_misread :
    ¬ ReadsBack sampleEnv 0 (fun _ => 0) manyCharacters := by
  intro h
  have hcount := (representable_of_readsBack h).count
  rw [manyCharacters, List.length_replicate] at hcount
  exact absurd hcount (by decide)

end LoginServer.Network
