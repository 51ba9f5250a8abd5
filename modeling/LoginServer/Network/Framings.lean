import LoginServer.Network.LoginResidue
import LoginServer.Network.PayloadBounds

/-!
# With and without a checksum

`Connection::parsePacket` takes a body whose first four bytes are not the sum
of the rest for one without a checksum, and steps back over them.  The same
content framed both ways reaches `authenticate` and `parsePacket` with the
cursor at index 6 or at index 2.  The offsets on the way to the RSA block are
relative to the cursor, so a login is the same function of the content and of
the eight bytes behind the frame.  `XTEA::decrypt` takes six bytes off the
length whatever the cursor is, so a later packet passes in one of the two
framings at most.

## Main results

* `loginFrom_checked` — a login does not depend on the framing.
* `decrypt_fst_iff` — what `decrypt` accepts, by the length of the body.
* `framings_agree_iff` — the contents whose two framings are treated alike.
-/

namespace LoginServer.Network

open LoginServer.Verified
open LoginServer.Verified.ByteMemory
open LoginServer.Verified.BlockLoop
open LoginServer.Verified.BoundedReader
open LoginServer.Utils

/-- The content behind its checksum. -/
def checked (content : Bytes) : Bytes := Width.encode .u32 (adlerChecksum content) ++ content

theorem length_sum (content : Bytes) :
    (Width.encode .u32 (adlerChecksum content)).length = 4 :=
  Width.length_encode _ _

theorem length_checked (content : Bytes) : (checked content).length = content.length + 4 := by
  rw [checked, List.length_append, length_sum, Nat.add_comm]

theorem drop_checked (content : Bytes) (n : Nat) :
    (checked content).drop (n + 4) = content.drop n := by
  rw [checked, Nat.add_comm, ← List.drop_drop, List.drop_left' (length_sum content)]

theorem bodyChecksum_checked (content : Bytes) : BodyChecksum (checked content) := by
  unfold BodyChecksum
  rw [checked, List.take_left' (length_sum content), List.drop_left' (length_sum content),
    Width.decode_encode]

/-! ## The two frames -/

/-- `F`: the content with its checksum. -/
def checkedFrame (content : Bytes) (h : content.length + 4 < 65536) : Frame where
  body := checked content
  fits := by
    rw [length_checked]
    exact h

/-- `G`: the same content without it. -/
def plainFrame (content : Bytes) (h : content.length + 4 < 65536) : Frame where
  body := content
  fits := by omega

/-- What becomes of a frame. -/
inductive Decoded where
  /-- `parseHeader` closes the connection -/
  | refused
  /-- the first packet, and what `authenticate` made of it -/
  | authenticated (login : Login)
  /-- a later packet `decrypt` refuses -/
  | dropped
  /-- a later packet that is handed on, with what any sequence of getters
  reads from it and the overrun flag they leave -/
  | dispatched (reads : List ReadCall → List ReadValue × Bool)

/-- What `m_protocol` makes of a stripped message. -/
def decodedMessage (env : Env) (c : Connection) (msg : NetworkMessage) : Decoded :=
  if c.receivedFirst then
    match Xtea.decrypt c.protocol.key msg with
    | (false, _) => .dropped
    | (true, msg) =>
        .dispatched fun calls =>
          ((ReadCall.runAll calls msg).1, (ReadCall.runAll calls msg).2.overrun)
  else .authenticated (readLogin env (msg.skipBytes 1)).1

/-- What a connection makes of a frame. -/
def decoded (env : Env) (c : Connection) (frame : Frame) : Decoded :=
  if AcceptedSize frame.body.length then
    decodedMessage env c (strippedMessage c frame.body)
  else .refused

/-- What the run of a first frame records is its decoding. -/
theorem Connection.history_decoded (env : Env) (memory : Memory) (frame : Frame) {t1 : Turn}
    (t2 : Turn) (hturn : t1.readArmThrows = false) :
    (run env (clientInputs (frame.header ++ frame.body) t1 t2) (accept memory)).map history =
      match decoded env (fresh memory) frame with
      | .authenticated login => some [.authenticated login]
      | _ => some [] := by
  rw [clientInputs_frame, decoded]
  by_cases hsize : AcceptedSize frame.body.length
  · rw [if_neg (by rw [hturn]; simpa using hsize), if_pos hsize,
      history_frame env memory frame t2 hturn hsize]
    rfl
  · rw [if_pos (Or.inl hsize), if_neg hsize, history_header]

/-- A packet that is dropped changes nothing but the message. -/
theorem Connection.dispatch_dropped (env : Env) (c : Connection) (frame : Frame) (turn : Turn)
    (h : decoded env c frame = .dropped) :
    ∃ msg, ({ c with msg := strippedMessage c frame.body } : Connection).dispatch turn =
      { c with history := c.history ++ [.dispatched], msg } := by
  have hsize : AcceptedSize frame.body.length := by
    by_contra hsize
    rw [decoded, if_neg hsize] at h
    cases h
  have hfirst : c.receivedFirst = true := by
    by_contra hfirst
    rw [decoded, if_pos hsize, decodedMessage, if_neg hfirst] at h
    cases h
  rw [decoded, if_pos hsize, decodedMessage, if_pos hfirst] at h
  cases hresult : Xtea.decrypt c.protocol.key (strippedMessage c frame.body) with
  | mk accepted msg =>
      rw [hresult] at h
      cases accepted with
      | true => cases h
      | false =>
          refine ⟨msg, ?_⟩
          unfold dispatch
          dsimp only
          rw [hresult]

/-! ## The login of both framings -/

theorem takeKey_after (xs : Bytes) (r : Reader) :
    takeKey (r.after xs) = ((takeKey r).1, (takeKey r).2.after xs) := by
  simp only [takeKey, Reader.take_after]

theorem takeString_after (xs : Bytes) (n : BitVec 16) (r : Reader) :
    ReadCall.takeString n (r.after xs) =
      ((ReadCall.takeString n r).1, (ReadCall.takeString n r).2.after xs) := by
  unfold ReadCall.takeString
  split <;> simp only [Reader.take_after]

theorem takeCredentials_after (env : Env) (version : BitVec 16) (key : Xtea.Key) (xs : Bytes)
    (r : Reader) :
    takeCredentials env version key (r.after xs) = takeCredentials env version key r := by
  simp only [takeCredentials, takeString_after]

section
variable {content : Bytes} (hno : ¬ BodyChecksum content)
include hno

theorem fieldStart_plain : fieldStart content = 0 := by
  rw [fieldStart, if_neg hno]

theorem blockStart_plain : blockStart content = 22 := by
  rw [blockStart, fieldStart_plain hno]

omit hno in
theorem fieldStart_checked : fieldStart (checked content) = 4 := by
  rw [fieldStart, if_pos (bodyChecksum_checked content)]

omit hno in
theorem blockStart_checked : blockStart (checked content) = 22 + 4 := by
  rw [blockStart, fieldStart_checked]

theorem versionOf_checked : versionOf (checked content) = versionOf content := by
  rw [versionOf, versionOf, fieldStart_checked, fieldStart_plain hno, drop_checked content 3]

theorem blockOf_checked (h : blockStart content + 128 ≤ content.length)
    (h' : blockStart (checked content) + 128 ≤ (checked content).length) :
    blockOf (checked content) h' = blockOf content h := by
  apply Subtype.ext
  show rsaBlockOf (checked content) = rsaBlockOf content
  rw [rsaBlockOf, rsaBlockOf, blockStart_checked, blockStart_plain hno, drop_checked]

/-- The decrypted body behind its checksum. -/
theorem opened_checked (plain : Rsa.Block) :
    opened (checked content) plain =
      Width.encode .u32 (adlerChecksum content) ++ opened content plain := by
  have htake : (checked content).take (22 + 4) =
      Width.encode .u32 (adlerChecksum content) ++ content.take 22 := by
    rw [checked, List.take_append, length_sum,
      List.take_of_length_le (by rw [length_sum]; decide)]
  rw [opened, opened, blockStart_checked, blockStart_plain hno, htake,
    drop_checked content (22 + 128)]
  simp only [List.append_assoc]

theorem openedReader_checked (plain : Rsa.Block) (residue : Bytes) (overrun : Bool) :
    openedReader (checked content) plain residue overrun =
      (openedReader content plain residue overrun).after
        (Width.encode .u32 (adlerChecksum content)) := by
  simp only [openedReader, Reader.after, opened_checked hno, blockStart_checked,
    blockStart_plain hno, length_sum, List.append_assoc, Nat.add_comm]

/-- The login is the same function of the content and of the eight bytes
behind the frame. -/
theorem loginFrom_checked (env : Env) (residue : Bytes) (overrun : Bool) :
    loginFrom env (checked content) residue overrun = loginFrom env content residue overrun := by
  have hlen := length_checked content
  have hstart := blockStart_plain hno
  have hstart' : blockStart (checked content) = 22 + 4 := blockStart_checked
  unfold loginFrom
  rw [versionOf_checked hno]
  by_cases hfits : blockStart content + 128 ≤ content.length
  · rw [dif_pos hfits, dif_pos (show blockStart (checked content) + 128 ≤ _ by omega),
      blockOf_checked hno hfits]
    cases env.rsaBlock (blockOf content hfits) with
    | none => rfl
    | some plain =>
        dsimp only
        rw [openedReader_checked hno, Reader.take_after]
        dsimp only
        rw [takeKey_after]
        dsimp only
        rw [takeCredentials_after]
  · rw [dif_neg hfits, dif_neg (by omega)]

end

/-! ## The first packet -/

/-- A first packet whose version is inside. -/
theorem decoded_first (env : Env) (memory : Memory) {frame : Frame}
    (hsize : AcceptedSize frame.body.length)
    (hversion : fieldStart frame.body + 5 ≤ frame.body.length) :
    decoded env (.fresh memory) frame =
      .authenticated (loginFrom env frame.body (residueOf memory frame.body) false) := by
  have hdelivered := Connection.delivered_deliver (.fresh memory) hsize
  rw [decoded, if_pos hsize]
  show Decoded.authenticated (readLogin env _).1 = _
  rw [strippedMessage, readLogin_delivered env hdelivered hsize hversion]
  rfl

/-- A function of eight bytes that may be moved on by four is constant. -/
theorem constant_of_slide {β : Type} {f : Bytes → β}
    (h : ∀ a b c : Bytes, a.length = 4 → b.length = 4 → c.length = 4 →
      f (a ++ b) = f (b ++ c))
    {t t' : Bytes} (ht : t.length = 8) (ht' : t'.length = 8) : f t = f t' := by
  have htake : (t'.take 4).length = 4 ∧ (t.take 4).length = 4 := by
    simp only [List.length_take]
    omega
  have hdrop : (t'.drop 4).length = 4 ∧ (t.drop 4).length = 4 := by
    simp only [List.length_drop]
    omega
  calc f t = f (t.take 4 ++ t.drop 4) := by rw [List.take_append_drop]
    _ = f (t.drop 4 ++ t'.take 4) := h _ _ _ htake.2 hdrop.2 htake.1
    _ = f (t'.take 4 ++ t'.drop 4) := h _ _ _ hdrop.2 htake.1 hdrop.1
    _ = f t' := by rw [List.take_append_drop]

/-- The residues of the two framings in a memory with twelve given bytes
behind the shorter one. -/
theorem residues_behindFrame (content : Bytes) {a b c : Bytes} (ha : a.length = 4)
    (hb : b.length = 4) (hc : c.length = 4) :
    residueOf (behindFrame content (a ++ b ++ c)) content = a ++ b ∧
      residueOf (behindFrame content (a ++ b ++ c)) (checked content) = b ++ c := by
  have hlen : (a ++ b ++ c).length = 12 := by
    simp only [List.length_append]
    omega
  have hread : read (behindFrame content (a ++ b ++ c)) (content.length + 2) 12 = a ++ b ++ c :=
    read_write_of_length hlen
  have hhead : (a ++ b).length = 8 := by
    rw [List.length_append]
    omega
  constructor
  · have hsub := read_sub (behindFrame content (a ++ b ++ c)) (content.length + 2)
      (show 0 + 8 ≤ 12 by decide)
    rw [hread, List.drop_zero, List.take_left' hhead] at hsub
    exact hsub
  · have htail : ((a ++ b ++ c).drop 4).take 8 = b ++ c := by
      rw [List.append_assoc, List.drop_left' ha,
        List.take_of_length_le (by rw [List.length_append]; omega)]
    have hsub := read_sub (behindFrame content (a ++ b ++ c)) (content.length + 2)
      (show 4 + 8 ≤ 12 by decide)
    rw [hread, htail] at hsub
    rw [residueOf, length_checked, Nat.add_right_comm, hsub]

/-- The version `authenticate` reads, wherever `stripChecksum` left the cursor. -/
theorem version_delivered (env : Env) {old m : NetworkMessage} {body : Bytes}
    (h : Connection.Delivered old m body) (hpos : 0 < body.length)
    (hlt : body.length < 65534) :
    (readLogin env (m.stripChecksum.skipBytes 1)).1.version =
      Width.decode .u16
        [m.buffer (m.stripChecksum.pos + 3), m.buffer (m.stripChecksum.pos + 4)] := by
  have hle : m.stripChecksum.pos ≤ 6 := by
    rw [NetworkMessage.stripChecksum_pos h.pos]
    split <;> decide
  have hlen : m.stripChecksum.len = body.length + 2 := by
    rw [NetworkMessage.stripChecksum_len h.pos, h.len]
  rw [readLogin_eq hle env (by omega), afterRsa_version, NetworkMessage.stripChecksum_buffer h.pos]
  rfl

/-- A byte of a delivered body. -/
theorem delivered_byte {old m : NetworkMessage} {body : Bytes}
    (h : Connection.Delivered old m body) {i : Nat} (hi : i < body.length) :
    [m.buffer (2 + i)] = (body.drop i).take 1 := by
  have hsub := read_sub m.buffer 2 (show i + 1 ≤ body.length by omega)
  rw [h.bytes] at hsub
  exact hsub

/-- Four zero bytes are what decodes to zero. -/
theorem last_of_decode_zero {mem : Memory}
    (h : Width.decode .u32 (read mem 2 4) = 0) : mem 5 = 0 := by
  have hbytes : read mem 2 4 = Width.encode .u32 0 := by
    rw [← h, Width.encode_decode .u32 (length_read _ _ _)]
  have hzero : Width.encode .u32 0 = [0, 0, 0, 0] := by decide
  rw [hzero] at hbytes
  have htail := congrArg (List.drop 3) hbytes
  exact (List.cons.inj htail).1

/-- A content that ends before its version takes the version from behind the
frame, and the two framings take it from different places. -/
theorem first_differs_of_short (env : Env) {content : Bytes} (hpos : 0 < content.length)
    (hshort : content.length < 5) (h : content.length + 4 < 65536) :
    decoded env (.fresh fun i => UInt8.ofNat i) (checkedFrame content h) ≠
      decoded env (.fresh fun i => UInt8.ofNat i) (plainFrame content h) := by
  have hsize : AcceptedSize content.length := by
    refine ⟨hpos, ?_⟩
    simp only [NETWORKMESSAGE_MAXSIZE]
    omega
  have hlen := length_checked content
  have hsize' : AcceptedSize (checked content).length := by
    refine ⟨by omega, ?_⟩
    simp only [NETWORKMESSAGE_MAXSIZE]
    omega
  intro heq
  unfold decoded at heq
  rw [if_pos (show AcceptedSize (checkedFrame content h).body.length from hsize'),
    if_pos (show AcceptedSize (plainFrame content h).body.length from hsize)] at heq
  have hversion := congrArg Login.version (Decoded.authenticated.inj heq)
  have hchecked := Connection.delivered_deliver (.fresh fun i => UInt8.ofNat i) hsize'
  have hplain := Connection.delivered_deliver (.fresh fun i => UInt8.ofNat i) hsize
  simp only [strippedMessage, checkedFrame, plainFrame] at hversion
  rw [version_delivered env hchecked (by omega) (by omega),
    version_delivered env hplain (by omega) (by omega)] at hversion
  generalize ((Connection.fresh fun i => UInt8.ofNat i).deliver
    (OutputMessage.lengthBytes (checked content).length ++ checked content)).msg = m at *
  generalize ((Connection.fresh fun i => UInt8.ofNat i).deliver
    (OutputMessage.lengthBytes content.length ++ content)).msg = m' at *
  have hm : m.stripChecksum.pos = 6 := by
    rw [stripChecksum_pos_of_long hchecked (by omega), fieldStart_checked]
  have hbehind : m.buffer 10 = 10 := hchecked.behind 10 (by omega)
  have hbehind' : ∀ i, content.length + 2 ≤ i → m'.buffer i = UInt8.ofNat i := hplain.behind
  rw [hm, NetworkMessage.stripChecksum_pos hplain.pos] at hversion
  have hvalue := congrArg BitVec.toNat hversion
  rw [toNat_decode_two, toNat_decode_two, hbehind] at hvalue
  have hten : (10 : UInt8).toNat = 10 := rfl
  by_cases hmatch : m'.ChecksumMatches
  · -- four zero bytes: the code compares them with zero, not with a sum
    rw [if_pos hmatch, hbehind' 9 (by omega), hbehind' 10 (by omega)] at hvalue
    unfold NetworkMessage.ChecksumMatches NetworkMessage.bodyChecksum at hmatch
    rw [if_neg (by rw [hplain.len]; omega)] at hmatch
    have hlast := last_of_decode_zero hmatch
    have hfour : content.length = 4 := by
      by_contra hne
      rw [hbehind' 5 (by omega)] at hlast
      cases hlast
    have hbyte := delivered_byte hchecked (show 3 + 4 < (checked content).length by omega)
    rw [drop_checked, ← delivered_byte hplain (show 3 < content.length by omega)] at hbyte
    have hnine : m.buffer 9 = 0 := (List.cons.inj hbyte).1.trans hlast
    rw [hnine] at hvalue
    revert hvalue
    decide
  · rw [if_neg hmatch, hbehind' 6 (by omega)] at hvalue
    have hlo := (m.buffer (6 + 3)).toNat_lt
    have hlo' := (m'.buffer (2 + 3)).toNat_lt
    have hsix : (UInt8.ofNat 6).toNat = 6 := rfl
    omega

section
variable (env : Env) {content : Bytes} (h : content.length + 4 < 65536)
  (hno : ¬ BodyChecksum content) (hsize : AcceptedSize content.length)
  (hsize' : AcceptedSize (content.length + 4))
include hno hsize hsize'

/-- The two framings of a content whose version is inside. -/
theorem first_eq_iff (memory : Memory) (hversion : 5 ≤ content.length) :
    decoded env (.fresh memory) (checkedFrame content h) =
        decoded env (.fresh memory) (plainFrame content h) ↔
      loginFrom env content (residueOf memory (checked content)) false =
        loginFrom env content (residueOf memory content) false := by
  have hlen := length_checked content
  have hstart := fieldStart_plain hno
  have hstart' : fieldStart (checked content) = 4 := fieldStart_checked
  have hF : AcceptedSize (checkedFrame content h).body.length := by
    show AcceptedSize (checked content).length
    rwa [hlen]
  rw [decoded_first env memory hF (show fieldStart (checked content) + 5 ≤ _ by
      show _ ≤ (checked content).length
      omega),
    decoded_first env memory hsize (show fieldStart content + 5 ≤ content.length by omega)]
  show Decoded.authenticated (loginFrom env (checked content) _ _) =
    .authenticated (loginFrom env content _ _) ↔ _
  rw [loginFrom_checked hno]
  constructor
  · exact Decoded.authenticated.inj
  · exact congrArg Decoded.authenticated

theorem first_agrees_iff :
    (∀ memory, decoded env (.fresh memory) (checkedFrame content h) =
        decoded env (.fresh memory) (plainFrame content h)) ↔
      ResidueFree env content := by
  constructor
  · intro hagree
    by_cases hversion : 5 ≤ content.length
    · by_contra hresidue
      have hinside : fieldStart content + 5 ≤ content.length := by
        rwa [fieldStart_plain hno, Nat.zero_add]
      obtain ⟨r, hr, hne⟩ : ∃ r : Bytes, r.length ≤ 2 ∧
          loginFrom env content (padded r 1) false ≠ loginFrom env content (padded r 2) false :=
        loginFrom_unsafe hinside hresidue
      have hslide : ∀ a b c : Bytes, a.length = 4 → b.length = 4 → c.length = 4 →
          loginFrom env content (a ++ b) false = loginFrom env content (b ++ c) false := by
        intro a b c ha hb hc
        obtain ⟨hplain, hchecked⟩ := residues_behindFrame content ha hb hc
        have heq := (first_eq_iff env h hno hsize hsize' _ hversion).mp
          (hagree (behindFrame content (a ++ b ++ c)))
        rw [hplain, hchecked] at heq
        exact heq.symm
      apply hne
      exact constant_of_slide (f := fun t => loginFrom env content t false) hslide
        (length_padded 1 (by omega)) (length_padded 2 (by omega))
    · exact absurd (hagree _) (first_differs_of_short env hsize.1 (by omega) h)
  · intro hresidue memory
    have hversion := hresidue.1
    rw [fieldStart_plain hno, Nat.zero_add] at hversion
    rw [first_eq_iff env h hno hsize hsize' memory hversion]
    exact loginFrom_safe hresidue (length_read _ _ _) (length_read _ _ _)

end

/-! ## Every later packet -/

/-- The inner length a content announces, from its first block. -/
def announcedInner (key : Xtea.Key) (content : Bytes) : Nat :=
  LittleEndian.decode ((Xtea.decryptBlock key (content.take 8)).take 2)

/-- The bodies of a content that `decrypt` accepts: `size` is four more than
a multiple of eight, whether or not four bytes of it are a checksum. -/
def Passes (key : Xtea.Key) (content : Bytes) (size : Nat) : Prop :=
  size % 8 = 4 ∧ announcedInner key content + 6 ≤ size

instance (key : Xtea.Key) (content : Bytes) (size : Nat) :
    Decidable (Passes key content size) :=
  inferInstanceAs (Decidable (_ ∧ _))

/-- The inner length is in the first block. -/
theorem innerLength_eq {key : Xtea.Key} {m : NetworkMessage} (h : 14 ≤ m.len) :
    Xtea.innerLength key m =
      LittleEndian.decode ((Xtea.decryptBlock key (read m.buffer m.pos 8)).take 2) := by
  obtain ⟨blocks, hblocks⟩ : ∃ blocks, (m.len - 6) / 8 = blocks + 1 :=
    ⟨(m.len - 14) / 8, by omega⟩
  have hblock : (Xtea.decryptBlock key (read m.buffer m.pos 8)).length = 8 :=
    Xtea.length_decryptBlock key _ (length_read _ _ _)
  have hfirst : (read m.buffer m.pos (m.len - 6)).take 8 = read m.buffer m.pos 8 := by
    have hsub := read_sub m.buffer m.pos (show 0 + 8 ≤ m.len - 6 by omega)
    exact hsub.symm
  have hplain : (Xtea.plaintext key m).take 2 =
      (Xtea.decryptBlock key (read m.buffer m.pos 8)).take 2 := by
    rw [Xtea.plaintext, hblocks, mapBlocks, hfirst, List.take_append_of_le_length (by omega)]
  have hlen : 2 ≤ (Xtea.plaintext key m).length := by
    rw [Xtea.plaintext, hblocks, mapBlocks, hfirst, List.length_append]
    omega
  have hread : read (write m.buffer m.pos (Xtea.plaintext key m)) m.pos 2 =
      (Xtea.plaintext key m).take 2 := by
    have hsub := read_sub (write m.buffer m.pos (Xtea.plaintext key m)) m.pos
      (show 0 + 2 ≤ (Xtea.plaintext key m).length by omega)
    rw [read_write_self] at hsub
    exact hsub
  rw [Xtea.innerLength, ← hplain, ← hread]
  rfl

/-- What `decrypt` accepts of a stripped message. -/
theorem decrypt_fst_iff {key : Xtea.Key} {m : NetworkMessage} {content : Bytes} {size : Nat}
    (hpos : m.pos ≤ 6) (hlen : m.len = size + 2)
    (hblock : 12 ≤ size → read m.buffer m.pos 8 = content.take 8) :
    (Xtea.decrypt key m).1 = true ↔ Passes key content size := by
  rw [Xtea.decrypt_eq hpos, Passes]
  by_cases hmod : m.len % 8 ≠ 6
  · rw [if_pos hmod]
    constructor
    · exact Bool.noConfusion
    · omega
  · rw [if_neg hmod]
    by_cases hlong : 12 ≤ size
    · have hinner : Xtea.innerLength key m = announcedInner key content := by
        rw [innerLength_eq (by omega), hblock hlong, announcedInner]
      rw [hinner]
      split
      · constructor
        · exact Bool.noConfusion
        · omega
      · constructor
        · omega
        · exact fun _ => rfl
    · rw [if_pos (by omega)]
      constructor
      · exact Bool.noConfusion
      · omega

section
variable (env : Env) {key : Xtea.Key} {c : Connection} (hfirst : c.receivedFirst = true)
  (frame : Frame) (hsize : AcceptedSize frame.body.length)
include hfirst hsize

theorem decoded_later_true
    (hpasses : (Xtea.decrypt c.protocol.key (strippedMessage c frame.body)).1 = true) :
    ∃ reads, decoded env c frame = .dispatched reads := by
  rw [decoded, if_pos hsize, decodedMessage, if_pos hfirst]
  generalize Xtea.decrypt c.protocol.key (strippedMessage c frame.body) = result at hpasses ⊢
  obtain ⟨accepted, msg⟩ := result
  cases hpasses
  exact ⟨_, rfl⟩

theorem decoded_later_false
    (hpasses : ¬ (Xtea.decrypt c.protocol.key (strippedMessage c frame.body)).1 = true) :
    decoded env c frame = .dropped := by
  rw [decoded, if_pos hsize, decodedMessage, if_pos hfirst]
  generalize Xtea.decrypt c.protocol.key (strippedMessage c frame.body) = result at hpasses ⊢
  obtain ⟨accepted, msg⟩ := result
  cases accepted with
  | true => exact absurd rfl hpasses
  | false => rfl

end

/-- A later packet, framed with its checksum. -/
theorem passes_checked (c : Connection) {content : Bytes} (hpos : 0 < content.length)
    (hsize : AcceptedSize (content.length + 4)) :
    (Xtea.decrypt c.protocol.key (strippedMessage c (checked content))).1 = true ↔
      Passes c.protocol.key content (content.length + 4) := by
  have hlen := length_checked content
  have hdelivered := Connection.delivered_deliver c
    (show AcceptedSize (checked content).length by rwa [hlen])
  have hstart : (strippedMessage c (checked content)).pos = 6 := by
    rw [strippedMessage, stripChecksum_pos_of_long hdelivered (by omega), fieldStart_checked]
  have hbuffer : (strippedMessage c (checked content)).buffer =
      (c.deliver (OutputMessage.lengthBytes (checked content).length ++
        checked content)).msg.buffer :=
    NetworkMessage.stripChecksum_buffer hdelivered.pos
  apply decrypt_fst_iff
  · omega
  · rw [strippedMessage, NetworkMessage.stripChecksum_len hdelivered.pos, hdelivered.len, hlen]
  · intro _
    have hsub := read_sub (strippedMessage c (checked content)).buffer 2
      (show 4 + 8 ≤ (checked content).length by omega)
    rw [hbuffer, hdelivered.bytes, drop_checked content 0] at hsub
    rw [hstart, hbuffer]
    exact hsub

/-- The same packet without it. -/
theorem passes_plain (c : Connection) {content : Bytes} (hno : ¬ BodyChecksum content)
    (hsize : AcceptedSize content.length) :
    (Xtea.decrypt c.protocol.key (strippedMessage c content)).1 = true ↔
      Passes c.protocol.key content content.length := by
  have hdelivered := Connection.delivered_deliver c hsize
  have hbuffer : (strippedMessage c content).buffer =
      (c.deliver (OutputMessage.lengthBytes content.length ++ content)).msg.buffer :=
    NetworkMessage.stripChecksum_buffer hdelivered.pos
  apply decrypt_fst_iff
  · rw [strippedMessage, NetworkMessage.stripChecksum_pos hdelivered.pos]
    split <;> decide
  · rw [strippedMessage, NetworkMessage.stripChecksum_len hdelivered.pos, hdelivered.len]
  · intro hlong
    have hstart : (strippedMessage c content).pos = 2 := by
      rw [strippedMessage, stripChecksum_pos_of_long hdelivered (by omega), fieldStart_plain hno]
    have hsub := read_sub (strippedMessage c content).buffer 2
      (show 0 + 8 ≤ content.length by omega)
    rw [hbuffer, hdelivered.bytes] at hsub
    rw [hstart, hbuffer]
    exact hsub

/-! ## The two framings -/

/-- The two kinds of packets `parsePacket` tells apart. -/
inductive PacketKind where
  | first
  | later

/-- The connections such a packet arrives at. -/
def PacketKind.Receiver (key : Xtea.Key) : PacketKind → Connection → Prop
  | .first, c => ∃ memory, c = .fresh memory
  | .later, c => c.receivedFirst = true ∧ c.closed = false ∧ c.protocol.key = key

/-- The content is decoded and dispatched alike in both framings. -/
def FramingsAgree (env : Env) (key : Xtea.Key) (kind : PacketKind) (content : Bytes)
    (h : content.length + 4 < 65536) : Prop :=
  ∀ c, kind.Receiver key c →
    decoded env c (checkedFrame content h) = decoded env c (plainFrame content h)

/-- The packets whose treatment does not depend on the framing, of those whose
size both framings may have. -/
def PacketKind.Unframed (env : Env) (key : Xtea.Key) (content : Bytes) : PacketKind → Prop
  | .first => ResidueFree env content
  | .later =>
      ¬ Passes key content (content.length + 4) ∧ ¬ Passes key content content.length

/-- When the two framings agree. -/
def AgreeWhen (env : Env) (key : Xtea.Key) (kind : PacketKind) (content : Bytes) : Prop :=
  (¬ AcceptedSize content.length ∧ ¬ AcceptedSize (content.length + 4)) ∨
    (AcceptedSize content.length ∧ AcceptedSize (content.length + 4) ∧
      kind.Unframed env key content)

/-- A frame that is refused is not treated like one that is read. -/
theorem decoded_refused_iff (env : Env) (c : Connection) (frame : Frame) :
    decoded env c frame = .refused ↔ ¬ AcceptedSize frame.body.length := by
  unfold decoded decodedMessage
  constructor
  · intro h hsize
    rw [if_pos hsize] at h
    split at h
    · split at h <;> cases h
    · cases h
  · exact fun h => if_neg h

theorem exists_receiver (key : Xtea.Key) (kind : PacketKind) : ∃ c, kind.Receiver key c := by
  cases kind with
  | first => exact ⟨_, fun _ => 0, rfl⟩
  | later =>
      exact ⟨{ Connection.fresh (fun _ => 0) with receivedFirst := true, protocol := { key } },
        rfl, rfl, rfl⟩

/-- The later packets of a content whose two framings have accepted sizes. -/
theorem later_agrees_iff (env : Env) (key : Xtea.Key) {content : Bytes}
    (h : content.length + 4 < 65536) (hno : ¬ BodyChecksum content)
    (hsize : AcceptedSize content.length) (hsize' : AcceptedSize (content.length + 4)) :
    FramingsAgree env key .later content h ↔ PacketKind.later.Unframed env key content := by
  have hF : AcceptedSize (checkedFrame content h).body.length := by
    show AcceptedSize (checked content).length
    rwa [length_checked]
  constructor
  · intro hagree
    obtain ⟨c, hfirst, hclosed, rfl⟩ := exists_receiver key .later
    have heq := hagree c ⟨hfirst, hclosed, rfl⟩
    have hchecked := passes_checked c hsize.1 hsize'
    have hplain := passes_plain c hno hsize
    have htrue := decoded_later_true env hfirst
    have hfalse := decoded_later_false env hfirst
    -- the lengths differ by four, so `decrypt` accepts one of them at most
    constructor
    · intro hpasses
      have hother : ¬ Passes c.protocol.key content content.length := by
        intro hpasses'
        have hmod := hpasses.1
        have hmod' := hpasses'.1
        omega
      obtain ⟨reads, hreads⟩ := htrue (checkedFrame content h) hF (hchecked.mpr hpasses)
      rw [hreads, hfalse (plainFrame content h) hsize (fun hp => hother (hplain.mp hp))] at heq
      cases heq
    · intro hpasses
      have hother : ¬ Passes c.protocol.key content (content.length + 4) := by
        intro hpasses'
        have hmod := hpasses.1
        have hmod' := hpasses'.1
        omega
      obtain ⟨reads, hreads⟩ := htrue (plainFrame content h) hsize (hplain.mpr hpasses)
      rw [hreads, hfalse (checkedFrame content h) hF (fun hp => hother (hchecked.mp hp))] at heq
      cases heq
  · rintro ⟨hnot, hnot'⟩ c ⟨hfirst, -, rfl⟩
    rw [decoded_later_false env hfirst (checkedFrame content h) hF
        (fun hp => hnot ((passes_checked c hsize.1 hsize').mp hp)),
      decoded_later_false env hfirst (plainFrame content h) hsize
        (fun hp => hnot' ((passes_plain c hno hsize).mp hp))]

/-- The contents that are decoded and dispatched alike with a checksum and
without: a login in which no field reaches behind the frame, and a later
packet that `decrypt` refuses in both framings. -/
theorem framings_agree_iff (env : Env) (key : Xtea.Key) (kind : PacketKind) (content : Bytes)
    (h : content.length + 4 < 65536) (hno : ¬ BodyChecksum content) :
    FramingsAgree env key kind content h ↔ AgreeWhen env key kind content := by
  have hbody : (checkedFrame content h).body.length = content.length + 4 := length_checked content
  unfold AgreeWhen
  by_cases hsize : AcceptedSize content.length
  · by_cases hsize' : AcceptedSize (content.length + 4)
    · have hcases : FramingsAgree env key kind content h ↔ kind.Unframed env key content := by
        cases kind with
        | first =>
            show _ ↔ ResidueFree env content
            rw [← first_agrees_iff env h hno hsize hsize']
            constructor
            · exact fun hagree memory => hagree _ ⟨memory, rfl⟩
            · rintro hagree c ⟨memory, rfl⟩
              exact hagree memory
        | later => exact later_agrees_iff env key h hno hsize hsize'
      rw [hcases]
      tauto
    · constructor
      · intro hagree
        obtain ⟨c, hc⟩ := exists_receiver key kind
        have heq := hagree c hc
        rw [(decoded_refused_iff env c _).mpr (by rwa [hbody])] at heq
        exact absurd hsize ((decoded_refused_iff env c _).mp heq.symm)
      · tauto
  · by_cases hsize' : AcceptedSize (content.length + 4)
    · constructor
      · intro hagree
        obtain ⟨c, hc⟩ := exists_receiver key kind
        have heq := hagree c hc
        rw [(decoded_refused_iff env c (plainFrame content h)).mpr hsize] at heq
        have hrefused := (decoded_refused_iff env c _).mp heq
        rw [hbody] at hrefused
        exact absurd hsize' hrefused
      · tauto
    · constructor
      · exact fun _ => Or.inl ⟨hsize, hsize'⟩
      · intro _ c _
        rw [(decoded_refused_iff env c _).mpr (by rwa [hbody]),
          (decoded_refused_iff env c (plainFrame content h)).mpr hsize]

/-- One encrypted block with two payload bytes, under the zero key. -/
def oneBlock : Bytes :=
  Xtea.encryptBlock (Vector.replicate 4 0) [2, 0, 104, 105, 51, 51, 51, 51]

/-- It is handed on with its checksum and dropped without. -/
theorem one_block_differs :
    ¬ BodyChecksum oneBlock ∧
      ¬ FramingsAgree sampleEnv (Vector.replicate 4 0) .later oneBlock (by decide +kernel) := by
  have hno : ¬ BodyChecksum oneBlock := by decide +kernel
  have hsize : AcceptedSize oneBlock.length ∧ AcceptedSize (oneBlock.length + 4) := by
    decide +kernel
  have hpasses : Passes (Vector.replicate 4 0) oneBlock (oneBlock.length + 4) := by
    decide +kernel
  refine ⟨hno, fun hagree => ?_⟩
  exact ((later_agrees_iff sampleEnv _ _ hno hsize.1 hsize.2).mp hagree).1 hpasses

/-- A login that fits its frame is the same in both. -/
theorem framings_agree_sample :
    FramingsAgree sampleEnv (Vector.replicate 4 0) .first sampleLoginBody (by decide +kernel) := by
  have hno : ¬ BodyChecksum sampleLoginBody := by decide +kernel
  refine (framings_agree_iff sampleEnv _ .first sampleLoginBody _ hno).mpr (Or.inr ?_)
  refine ⟨by decide +kernel, by decide +kernel, by decide +kernel, ?_⟩
  intro h plain hplain _ _
  obtain rfl := Option.some.inj hplain
  have hsafe : CredentialsSafe
      (opened sampleLoginBody (blockOf sampleLoginBody (by decide +kernel)))
      (blockStart sampleLoginBody + 17) := by
    decide +kernel
  exact hsafe

end LoginServer.Network
