import LoginServer.Network.FirstFrame
import LoginServer.Network.PayloadReads

/-!
# The fields of a login, as a function of the frame

`canRead` allows eight bytes more than the length, and on the login path the
length counts the whole frame.  So what `authenticate` extracts is a function
of the frame and of the eight bytes of `m_buffer` behind it: `loginFrom` is
that function, written over byte strings, and `readLogin_delivered` says that
the code computes it.

## Main results

* `Views.readCredentials` — the part after the RSA block over a reader.
* `views_decrypted` — the frame with its block decrypted, and eight bytes more.
* `readLogin_delivered` — `authenticate` extracts `loginFrom`.
-/

namespace LoginServer.Network

open LoginServer.Verified
open LoginServer.Verified.ByteMemory
open LoginServer.Verified.BoundedReader
open LoginServer.Utils

/-! ## Key, email and password over a reader -/

/-- `readKey` over a reader. -/
def takeKey (r : Reader) : Xtea.Key × Reader :=
  let (k0, r) := r.take 4
  let (k1, r) := r.take 4
  let (k2, r) := r.take 4
  let (k3, r) := r.take 4
  (#v[Width.decode .u32 k0, Width.decode .u32 k1, Width.decode .u32 k2,
    Width.decode .u32 k3], r)

/-- `readCredentials` over a reader. -/
def takeCredentials (env : Env) (version : BitVec 16) (key : Xtea.Key) (r : Reader) : Login :=
  if version < env.versionMin then
    { version, key := some key, branch := .versionRejected }
  else
    let (email, r) := ReadCall.takeString 0 r
    if email.isEmpty then
      { version, key := some key, email := some email, branch := .emptyEmail }
    else
      let (password, _) := ReadCall.takeString 0 r
      if password.isEmpty then
        { version, key := some key, email := some email, password := some password,
          branch := .emptyPassword }
      else
        let account := env.getAccount email password
        { version, key := some key, email := some email, password := some password,
          account := some account,
          branch := if account.id = 0 then .badAccount else .accepted }

section
variable {m : NetworkMessage} {base : Nat} {r : Reader}

theorem Views.readKey (h : Views m base r) :
    (readKey m).1 = (takeKey r).1 ∧ Views (readKey m).2 base (takeKey r).2 := by
  obtain ⟨h0, hviews0⟩ := h.get .u32
  obtain ⟨h1, hviews1⟩ := hviews0.get .u32
  obtain ⟨h2, hviews2⟩ := hviews1.get .u32
  obtain ⟨h3, hviews3⟩ := hviews2.get .u32
  unfold LoginServer.Network.readKey takeKey
  dsimp only
  rw [h0, h1, h2, h3]
  exact ⟨rfl, hviews3⟩

theorem Views.readCredentials (h : Views m base r) (env : Env) (version : BitVec 16)
    (key : Xtea.Key) :
    (readCredentials env version key m).1 = takeCredentials env version key r := by
  obtain ⟨hemail, hviews⟩ := h.getString 0
  obtain ⟨hpassword, -⟩ := hviews.getString 0
  unfold LoginServer.Network.readCredentials takeCredentials
  dsimp only
  rw [hemail, hpassword]
  split
  · rfl
  · split
    · rfl
    · split <;> rfl

end

/-! ## The decrypted frame -/

/-- The version field of a body. -/
def versionOf (body : Bytes) : BitVec 16 :=
  Width.decode .u16 ((body.drop (fieldStart body + 3)).take 2)

/-- The body with its RSA block decrypted to `plain`. -/
def opened (body : Bytes) (plain : Rsa.Block) : Bytes :=
  body.take (blockStart body) ++ plain.1 ++ body.drop (blockStart body + 128)

theorem length_opened {body : Bytes} (plain : Rsa.Block)
    (h : blockStart body + 128 ≤ body.length) : (opened body plain).length = body.length := by
  rw [opened, List.length_append, List.length_append, List.length_take, List.length_drop,
    plain.2]
  omega

/-- The RSA block of a body that has one. -/
def blockOf (body : Bytes) (h : blockStart body + 128 ≤ body.length) : Rsa.Block :=
  ⟨rsaBlockOf body, by
    rw [rsaBlockOf, List.length_take, List.length_drop]
    omega⟩

/-- A reader on the decrypted block, with `residue` behind the frame. -/
def openedReader (body : Bytes) (plain : Rsa.Block) (residue : Bytes) (overrun : Bool) :
    Reader :=
  ⟨opened body plain ++ residue, blockStart body, overrun⟩

/-- The eight bytes behind a frame. -/
def residueOf (buffer : Memory) (body : Bytes) : Bytes := read buffer (body.length + 2) 8

/-- What `authenticate` extracts from a frame with eight more bytes behind it. -/
def loginFrom (env : Env) (body residue : Bytes) (overrun : Bool) : Login :=
  if h : blockStart body + 128 ≤ body.length then
    match env.rsaBlock (blockOf body h) with
    | none => { version := versionOf body, branch := .threw }
    | some plain =>
        let (byte, r) := (openedReader body plain residue overrun).take 1
        if byte.headD 0 = 0 then
          let (key, r) := takeKey r
          takeCredentials env (versionOf body) key r
        else { version := versionOf body, branch := .rsaRejected }
  else { version := versionOf body, branch := .rsaRejected }

/-- The buffer with the block decrypted: the frame, and what was behind it. -/
theorem read_opened {old m : NetworkMessage} {body : Bytes}
    (h : Connection.Delivered old m body) (hfits : blockStart body + 128 ≤ body.length)
    (plain : Rsa.Block) :
    read (write m.buffer (blockStart body + 2) plain.1) 2 (body.length + 8) =
      opened body plain ++ residueOf old.buffer body := by
  have hplain := plain.2
  have hsplit : body.length + 8 =
      blockStart body + (128 + (body.length - (blockStart body + 128) + 8)) := by omega
  have hhead : read (write m.buffer (blockStart body + 2) plain.1) 2 (blockStart body) =
      body.take (blockStart body) := by
    rw [read_write_disjoint (by omega)]
    have hsub := read_sub m.buffer 2 (show 0 + blockStart body ≤ body.length by omega)
    rw [h.bytes] at hsub
    exact hsub
  have hblock : read (write m.buffer (blockStart body + 2) plain.1) (2 + blockStart body) 128 =
      plain.1 := by
    rw [Nat.add_comm 2, read_write_of_length hplain]
  have htail : read (write m.buffer (blockStart body + 2) plain.1)
      (2 + blockStart body + 128) (body.length - (blockStart body + 128)) =
      body.drop (blockStart body + 128) := by
    rw [read_write_disjoint (by omega)]
    have hsub := read_sub m.buffer 2
      (show blockStart body + 128 + (body.length - (blockStart body + 128)) ≤ body.length by
        omega)
    rw [h.bytes, List.take_of_length_le (by rw [List.length_drop]), ← Nat.add_assoc] at hsub
    exact hsub
  have hresidue : read (write m.buffer (blockStart body + 2) plain.1)
      (2 + blockStart body + 128 + (body.length - (blockStart body + 128))) 8 =
      residueOf old.buffer body := by
    rw [read_write_disjoint (by omega), residueOf,
      show 2 + blockStart body + 128 + (body.length - (blockStart body + 128)) =
        body.length + 2 by omega]
    apply read_congr
    intro i hlo _
    exact h.behind i (by omega)
  rw [hsplit, read_append, read_append, read_append, hhead, hblock, htail, hresidue, opened]
  simp only [List.append_assoc]

theorem views_decrypted {old m : NetworkMessage} {body : Bytes}
    (h : Connection.Delivered old m body) (hsize : AcceptedSize body.length)
    (hfits : blockStart body + 128 ≤ body.length) (plain : Rsa.Block) :
    Views (decrypted (beforeRsa m.stripChecksum) plain) 2
      (openedReader body plain (residueOf old.buffer body) old.overrun) := by
  obtain ⟨hpos, hlen, -⟩ := atBlock_beforeRsa h hfits
  have hbuffer : (beforeRsa m.stripChecksum).buffer = m.buffer := by
    rw [beforeRsa_buffer, NetworkMessage.stripChecksum_buffer h.pos]
  have hoverrun : (beforeRsa m.stripChecksum).overrun = old.overrun := by
    rw [beforeRsa_overrun, NetworkMessage.stripChecksum_overrun h.pos, h.overrun]
  have hdata : (opened body plain ++ residueOf old.buffer body).length = body.length + 8 := by
    rw [List.length_append, length_opened plain hfits, residueOf, length_read]
  have hread := read_opened h hfits plain
  have hmax := hsize.2
  simp only [NETWORKMESSAGE_MAXSIZE] at hmax
  generalize beforeRsa m.stripChecksum = b at *
  rw [← hbuffer, ← hpos, ← hdata] at hread
  constructor
  · constructor
    · exact hread
    · show blockStart body ≤ (opened body plain ++ residueOf old.buffer body).length
      omega
  · show b.pos = 2 + blockStart body
    omega
  · show b.len + 8 = 2 + (opened body plain ++ residueOf old.buffer body).length
    omega
  · exact hoverrun
  · show 2 + (opened body plain ++ residueOf old.buffer body).length < NETWORKMESSAGE_MAXSIZE
    simp only [NETWORKMESSAGE_MAXSIZE]
    omega

/-- The fields `authenticate` extracts, as long as the version is in the frame. -/
theorem readLogin_delivered (env : Env) {old m : NetworkMessage} {body : Bytes}
    (h : Connection.Delivered old m body) (hsize : AcceptedSize body.length)
    (hversion : fieldStart body + 5 ≤ body.length) :
    (readLogin env (m.stripChecksum.skipBytes 1)).1 =
      loginFrom env body (residueOf old.buffer body) old.overrun := by
  have hlong : 4 < body.length := by omega
  have hstart := stripChecksum_pos_of_long h hlong
  have hle := fieldStart_le body
  have hlen : m.stripChecksum.len = body.length + 2 := by
    rw [NetworkMessage.stripChecksum_len h.pos, h.len]
  have hfield : Width.decode .u16 (read m.stripChecksum.buffer (m.stripChecksum.pos + 3) 2) =
      versionOf body := by
    have hsub := read_sub m.buffer 2 (show fieldStart body + 3 + 2 ≤ body.length by omega)
    rw [h.bytes] at hsub
    rw [NetworkMessage.stripChecksum_buffer h.pos, hstart, versionOf, ← hsub,
      show fieldStart body + 2 + 3 = 2 + (fieldStart body + 3) by omega]
  rw [readLogin_eq (by omega) env (by omega), hfield]
  unfold loginFrom
  by_cases hfits : blockStart body + 128 ≤ body.length
  · rw [dif_pos hfits]
    have hblock := atBlock_beforeRsa h hfits
    have hinput : rsaInput (beforeRsa m.stripChecksum) = blockOf body hfits :=
      Subtype.ext hblock.block
    have hpos := hblock.pos
    have hlen := hblock.len
    rw [rsaDecrypt_of_fits _ (by omega), hinput]
    cases env.rsaBlock (blockOf body hfits) with
    | none => rfl
    | some plain =>
        obtain ⟨hbyte, hviews⟩ := (views_decrypted h hsize hfits plain).getByte
        obtain ⟨hkey, hviews⟩ := hviews.readKey
        dsimp only
        rw [hbyte]
        by_cases hzero : (((openedReader body plain (residueOf old.buffer body)
            old.overrun).take 1).1.headD 0) = 0
        · rw [if_pos hzero, decide_eq_true hzero]
          show (readCredentials env _ (readKey _).1 (readKey _).2).1 = _
          rw [hkey, hviews.readCredentials]
        · rw [if_neg hzero, decide_eq_false hzero]
          rfl
  · rw [dif_neg hfits, rsaDecrypt_of_short _ (short_beforeRsa h hfits)]
    rfl

end LoginServer.Network
