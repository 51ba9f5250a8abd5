import LoginServer.Network.LoginFields
import LoginServer.Network.AuthenticationGate

/-!
# What a login depends on

Two runs of the first frame from two contents of `m_buffer` extract the same
fields if and only if nothing of the fields lies in the eight bytes behind
the frame that `canRead` lets through.  For a string that is a condition on
its length prefix, and the prefix itself may lie across the end.

## Main results

* `stringOf_safe`, `stringOf_unsafe` — one string.
* `credentials_safe`, `credentials_unsafe` — email and password.
* `same_login_iff` — the frames whose login does not depend on the residue.
-/

namespace LoginServer.Network

open LoginServer.Verified
open LoginServer.Verified.ByteMemory
open LoginServer.Verified.BoundedReader
open LoginServer.Utils
open OutputMessage (lengthBytes length_lengthBytes)

/-! ## One string -/

/-- The length prefix at an index, as far as it is there. -/
def stringLength (data : Bytes) (q : Nat) : Nat := LittleEndian.decode ((data.drop q).take 2)

/-- The string at an index; empty where it passes the end. -/
def stringOf (data : Bytes) (q : Nat) : Bytes :=
  if q + 2 + stringLength data q ≤ data.length then
    (data.drop (q + 2)).take (stringLength data q)
  else []

theorem stringLength_lt (data : Bytes) (q : Nat) : stringLength data q < 65536 := by
  have hlt := LittleEndian.decode_lt ((data.drop q).take 2)
  have hle : 256 ^ ((data.drop q).take 2).length ≤ 256 ^ 2 :=
    Nat.pow_le_pow_right (by decide) (List.length_take_le _ _)
  exact Nat.lt_of_lt_of_le hlt hle

theorem takeString_eq {data : Bytes} {q : Nat} {overrun : Bool} (h : q + 2 ≤ data.length) :
    ReadCall.takeString 0 ⟨data, q, overrun⟩ =
      (stringOf data q,
        if q + 2 + stringLength data q ≤ data.length then
          ⟨data, q + 2 + stringLength data q, overrun⟩
        else ⟨data, q + 2, true⟩) := by
  have hstringLen : (⟨data, q, overrun⟩ : Reader).take (Width.bytes .u16) =
      ((data.drop q).take 2, ⟨data, q + 2, overrun⟩) := Reader.take_of_has h
  have hvalue : (Width.decode .u16 ((data.drop q).take 2)).toNat = stringLength data q := by
    rw [Width.decode, BitVec.toNat_ofNat]
    exact Nat.mod_eq_of_lt (stringLength_lt data q)
  rw [ReadCall.takeString, if_pos rfl, hstringLen, stringOf]
  dsimp only
  rw [hvalue]
  by_cases hfits : q + 2 + stringLength data q ≤ data.length
  · have hhas : (⟨data, q + 2, overrun⟩ : Reader).Has (stringLength data q) := hfits
    rw [if_pos hfits, if_pos hfits, Reader.take_of_has hhas]
    rfl
  · have hhas : ¬ (⟨data, q + 2, overrun⟩ : Reader).Has (stringLength data q) := hfits
    rw [if_neg hfits, if_neg hfits, Reader.take_of_not_has hhas]

/-- A prefix that lies inside does not depend on what follows. -/
theorem stringLength_append {plain : Bytes} (t : Bytes) {q : Nat} (h : q + 2 ≤ plain.length) :
    stringLength (plain ++ t) q = stringLength plain q := by
  rw [stringLength, stringLength, List.drop_append_of_le_length (by omega),
    List.take_append_of_le_length (by rw [List.length_drop]; omega)]

/-- A prefix whose first byte is the last byte of the frame. -/
theorem stringLength_append_last {plain : Bytes} (b : UInt8) (t : Bytes) {q : Nat}
    (h : q + 1 = plain.length) :
    stringLength (plain ++ b :: t) q = stringLength plain q + 256 * b.toNat := by
  obtain ⟨lo, hlo⟩ : ∃ lo, plain.drop q = [lo] := by
    rw [← List.length_eq_one_iff, List.length_drop]
    omega
  rw [stringLength, stringLength, List.drop_append_of_le_length (by omega), hlo]
  simp [LittleEndian.decode]

/-- A prefix behind the frame. -/
theorem stringLength_append_end (plain t : Bytes) :
    stringLength (plain ++ t) plain.length = LittleEndian.decode (t.take 2) := by
  rw [stringLength, List.drop_left' rfl]

/-- The string at `q` of the frame `plain` takes nothing from the eight bytes
behind it: its prefix starts inside, and it is empty, or ends inside, or is
refused.  Where the second byte of the prefix is behind the frame, the first
one decides all the same. -/
def StringSafe (plain : Bytes) (q : Nat) : Prop :=
  q < plain.length ∧
    (stringLength plain q = 0 ∨ q + 2 + stringLength plain q ≤ plain.length ∨
      plain.length + 8 < q + 2 + stringLength plain q)

instance (plain : Bytes) (q : Nat) : Decidable (StringSafe plain q) :=
  inferInstanceAs (Decidable (_ ∧ _))

theorem stringOf_eq_nil {data : Bytes} {q : Nat}
    (h : stringLength data q = 0 ∨ data.length < q + 2 + stringLength data q) :
    stringOf data q = [] := by
  unfold stringOf
  rcases h with hzero | hbeyond
  · rw [hzero, List.take_zero, ite_self]
  · rw [if_neg (by omega)]

theorem stringOf_safe {plain t : Bytes} {q : Nat} (h : StringSafe plain q)
    (ht : t.length = 8) : stringOf (plain ++ t) q = stringOf plain q := by
  obtain ⟨hq, hstring⟩ := h
  have hlen : (plain ++ t).length = plain.length + 8 := by
    rw [List.length_append, ht]
  by_cases hinside : q + 2 ≤ plain.length
  · have hstringLen := stringLength_append t hinside
    rcases hstring with hzero | hends | hrefused
    · rw [stringOf_eq_nil (Or.inl (hstringLen.trans hzero)), stringOf_eq_nil (Or.inl hzero)]
    · rw [stringOf, stringOf, hstringLen, if_pos (by omega), if_pos hends,
        List.drop_append_of_le_length (by omega),
        List.take_append_of_le_length (by rw [List.length_drop]; omega)]
    · rw [stringOf_eq_nil (Or.inr (by omega)), stringOf_eq_nil (Or.inr (by omega))]
  · -- the second byte of the prefix is the first one behind the frame
    obtain ⟨b, t', rfl⟩ : ∃ b t', t = b :: t' := by
      cases t with
      | nil => cases ht
      | cons b t' => exact ⟨b, t', rfl⟩
    have hstringLen := stringLength_append_last b t' (show q + 1 = plain.length by omega)
    have hcut : stringOf plain q = [] := stringOf_eq_nil (Or.inr (by omega))
    rw [hcut]
    apply stringOf_eq_nil
    rw [hstringLen, hlen]
    omega

/-- The last byte of a nonempty string. -/
theorem stringOf_getLast? {data : Bytes} {q : Nat} (hpos : 0 < stringLength data q)
    (hfits : q + 2 + stringLength data q ≤ data.length) :
    (stringOf data q).getLast? = data[q + 1 + stringLength data q]? := by
  have hlen : ((data.drop (q + 2)).take (stringLength data q)).length = stringLength data q := by
    rw [List.length_take, List.length_drop]
    omega
  rw [stringOf, if_pos hfits, List.getLast?_eq_getElem?, hlen, List.getElem?_take_of_lt (by omega),
    List.getElem?_drop]
  congr 1
  omega

/-- The bytes `r` and then `x` throughout. -/
def padded (r : Bytes) (x : UInt8) : Bytes := r ++ List.replicate (8 - r.length) x

theorem length_padded {r : Bytes} (x : UInt8) (h : r.length ≤ 8) : (padded r x).length = 8 := by
  rw [padded, List.length_append, List.length_replicate]
  omega

theorem getElem?_padded {plain r : Bytes} (x : UInt8) {i : Nat}
    (hlo : plain.length + r.length ≤ i) (hhi : i < plain.length + 8) :
    (plain ++ padded r x)[i]? = some x := by
  rw [List.getElem?_append_right (by omega), padded, List.getElem?_append_right (by omega),
    List.getElem?_replicate, if_pos (by omega)]

theorem stringOf_unsafe {plain : Bytes} {q : Nat} (hq : q ≤ plain.length)
    (h : ¬ StringSafe plain q) :
    ∃ r : Bytes, r.length ≤ 2 ∧ ∀ x,
      (stringOf (plain ++ padded r x) q).getLast? = some x := by
  have hlt := stringLength_lt plain q
  -- it is enough to place a prefix that makes the string end behind `r`
  have key : ∀ r : Bytes, r.length ≤ 2 → (∀ x,
      0 < stringLength (plain ++ padded r x) q ∧
        plain.length + r.length ≤ q + 1 + stringLength (plain ++ padded r x) q ∧
        q + 2 + stringLength (plain ++ padded r x) q ≤ plain.length + 8) →
      ∃ r : Bytes, r.length ≤ 2 ∧
        ∀ x, (stringOf (plain ++ padded r x) q).getLast? = some x := by
    intro r hr hends
    refine ⟨r, hr, fun x => ?_⟩
    obtain ⟨hpos, hlo, hhi⟩ := hends x
    rw [stringOf_getLast? hpos (by rw [List.length_append, length_padded x (by omega)]; exact hhi)]
    exact getElem?_padded x hlo (by omega)
  unfold StringSafe at h
  rcases Nat.lt_or_ge (q + 1) plain.length with hinside | houtside
  · apply key []
    · exact Nat.zero_le _
    · intro x
      rw [stringLength_append _ (by omega), List.length_nil]
      omega
  · rcases Nat.lt_or_ge q plain.length with hlast | hend
    · apply key [0]
      · decide
      · intro x
        have hstringLen := stringLength_append_last 0 (List.replicate 7 x)
          (show q + 1 = plain.length by omega)
        have hpadded : padded [0] x = 0 :: List.replicate 7 x := rfl
        have hzero : (0 : UInt8).toNat = 0 := rfl
        rw [hpadded, hstringLen, hzero, List.length_singleton]
        omega
    · apply key [1, 0]
      · decide
      · intro x
        have hend' : q = plain.length := by omega
        have hstringLen := stringLength_append_end plain (padded [1, 0] x)
        have hone : LittleEndian.decode ((padded [1, 0] x).take 2) = 1 := rfl
        rw [hend', hstringLen, hone]
        simp only [List.length_cons, List.length_nil]
        omega

/-! ## Email and password -/

/-- What `authenticate` makes of an email and a password. -/
def credentialsOf (env : Env) (version : BitVec 16) (key : Xtea.Key) (email password : Bytes) :
    Login :=
  if version < env.versionMin then
    { version, key := some key, branch := .versionRejected }
  else if email.isEmpty then
    { version, key := some key, email := some email, branch := .emptyEmail }
  else if password.isEmpty then
    { version, key := some key, email := some email, password := some password,
      branch := .emptyPassword }
  else
    let account := env.getAccount email password
    { version, key := some key, email := some email, password := some password,
      account := some account,
      branch := if account.id = 0 then .badAccount else .accepted }

/-- Where the string behind the one at `q` starts. -/
def nextString (data : Bytes) (q : Nat) : Nat := q + 2 + stringLength data q

theorem nextString_le {data : Bytes} {q : Nat} (h : stringOf data q ≠ []) :
    nextString data q ≤ data.length := by
  by_contra hbeyond
  apply h
  unfold stringOf
  exact if_neg hbeyond

theorem takeCredentials_eq (env : Env) (version : BitVec 16) (key : Xtea.Key) {data : Bytes}
    {q : Nat} {overrun : Bool} (h : q + 2 ≤ data.length)
    (hnext : stringOf data q ≠ [] → nextString data q + 2 ≤ data.length) :
    takeCredentials env version key ⟨data, q, overrun⟩ =
      credentialsOf env version key (stringOf data q) (stringOf data (nextString data q)) := by
  unfold takeCredentials credentialsOf
  dsimp only
  rw [takeString_eq h]
  dsimp only
  by_cases hemail : stringOf data q = []
  · rw [hemail]
    rfl
  · have hfits := nextString_le hemail
    rw [nextString] at hfits
    rw [if_pos hfits, ← nextString, takeString_eq (hnext hemail)]

/-- Neither string takes anything from behind the frame. -/
def CredentialsSafe (plain : Bytes) (q : Nat) : Prop :=
  StringSafe plain q ∧ (stringOf plain q ≠ [] → StringSafe plain (nextString plain q))

instance (plain : Bytes) (q : Nat) : Decidable (CredentialsSafe plain q) :=
  inferInstanceAs (Decidable (_ ∧ _))

section
variable (env : Env) (version : BitVec 16) (key : Xtea.Key) (overrun : Bool) {plain : Bytes}
  {q : Nat} (hq : q + 2 ≤ plain.length)
include hq

/-- Up to the email nothing depends on what is behind the frame. -/
theorem takeCredentials_append {t : Bytes} (ht : t.length = 8)
    (hemail : stringOf (plain ++ t) q = stringOf plain q) :
    takeCredentials env version key ⟨plain ++ t, q, overrun⟩ =
      credentialsOf env version key (stringOf plain q)
        (stringOf (plain ++ t) (nextString plain q)) := by
  have hnext : nextString (plain ++ t) q = nextString plain q := by
    rw [nextString, nextString, stringLength_append t hq]
  have hlen : (plain ++ t).length = plain.length + 8 := by
    rw [List.length_append, ht]
  rw [takeCredentials_eq env version key (by omega), hemail, hnext]
  intro hne
  rw [hemail] at hne
  have hle := nextString_le hne
  omega

theorem credentials_safe {t : Bytes} (ht : t.length = 8) (h : CredentialsSafe plain q) :
    takeCredentials env version key ⟨plain ++ t, q, overrun⟩ =
      credentialsOf env version key (stringOf plain q)
        (stringOf plain (nextString plain q)) := by
  obtain ⟨hemail, hpassword⟩ := h
  rw [takeCredentials_append env version key overrun hq ht (stringOf_safe hemail ht)]
  by_cases hne : stringOf plain q = []
  · unfold credentialsOf
    rw [hne]
    rfl
  · rw [stringOf_safe (hpassword hne) ht]

/-- Where one of the strings does, two contents of the buffer show it. -/
theorem credentials_unsafe (hversion : ¬ version < env.versionMin)
    (h : ¬ CredentialsSafe plain q) :
    ∃ r : Bytes, r.length ≤ 2 ∧
      takeCredentials env version key ⟨plain ++ padded r 1, q, overrun⟩ ≠
        takeCredentials env version key ⟨plain ++ padded r 2, q, overrun⟩ := by
  by_cases hemail : StringSafe plain q
  · -- the email is inside, so both runs reach the password
    have hne : stringOf plain q ≠ [] ∧ ¬ StringSafe plain (nextString plain q) := by
      by_contra hcontra
      apply h
      refine ⟨hemail, fun hne => ?_⟩
      by_contra hpassword
      exact hcontra ⟨hne, hpassword⟩
    obtain ⟨r, hr, hlast⟩ := stringOf_unsafe (nextString_le hne.1) hne.2
    refine ⟨r, hr, fun heq => ?_⟩
    have hfield : ∀ x, ∃ password, password.getLast? = some x ∧
        (takeCredentials env version key ⟨plain ++ padded r x, q, overrun⟩).password =
          some password := by
      intro x
      have ht := length_padded x (show r.length ≤ 8 by omega)
      refine ⟨_, hlast x, ?_⟩
      rw [takeCredentials_append env version key overrun hq ht (stringOf_safe hemail ht),
        credentialsOf,
        if_neg hversion, if_neg (by simpa using hne.1)]
      split <;> rfl
    obtain ⟨password1, hlast1, hfield1⟩ := hfield 1
    obtain ⟨password2, hlast2, hfield2⟩ := hfield 2
    rw [heq, hfield2] at hfield1
    rw [← Option.some.inj hfield1, hlast2] at hlast1
    cases hlast1
  · obtain ⟨r, hr, hlast⟩ := stringOf_unsafe (by omega) hemail
    refine ⟨r, hr, fun heq => ?_⟩
    have hfield : ∀ x, ∃ email, email.getLast? = some x ∧
        (takeCredentials env version key ⟨plain ++ padded r x, q, overrun⟩).email =
          some email := by
      intro x
      have ht := length_padded x (show r.length ≤ 8 by omega)
      have hlen : (plain ++ padded r x).length = plain.length + 8 := by
        rw [List.length_append, ht]
      refine ⟨_, hlast x, ?_⟩
      unfold takeCredentials
      rw [if_neg hversion, takeString_eq (by omega)]
      dsimp only
      split
      · rfl
      · split <;> split <;> rfl
    obtain ⟨email1, hlast1, hfield1⟩ := hfield 1
    obtain ⟨email2, hlast2, hfield2⟩ := hfield 2
    rw [heq, hfield2] at hfield1
    rw [← Option.some.inj hfield1, hlast2] at hlast1
    cases hlast1

end

/-! ## The login of a frame -/

/-- Four words in a row. -/
def keyAt (data : Bytes) (q : Nat) : Xtea.Key :=
  #v[Width.decode .u32 ((data.drop q).take 4), Width.decode .u32 ((data.drop (q + 4)).take 4),
    Width.decode .u32 ((data.drop (q + 4 + 4)).take 4),
    Width.decode .u32 ((data.drop (q + 4 + 4 + 4)).take 4)]

theorem takeKey_left {plain : Bytes} (t : Bytes) {q : Nat} {overrun : Bool}
    (h : q + 16 ≤ plain.length) :
    takeKey ⟨plain ++ t, q, overrun⟩ = (keyAt plain q, ⟨plain ++ t, q + 16, overrun⟩) := by
  unfold takeKey keyAt
  dsimp only
  rw [Reader.take_left t (by omega)]
  dsimp only
  rw [Reader.take_left t (by omega)]
  dsimp only
  rw [Reader.take_left t (by omega)]
  dsimp only
  rw [Reader.take_left t (by omega)]

/-- The first byte of the decrypted block. -/
theorem openedReader_take {body : Bytes} (plain : Rsa.Block) (t : Bytes) {overrun : Bool}
    (h : blockStart body + 128 ≤ body.length) :
    (openedReader body plain t overrun).take 1 =
      (plain.1.take 1, ⟨opened body plain ++ t, blockStart body + 1, overrun⟩) := by
  have hlen := length_opened plain h
  have hplain := plain.2
  have hhead : (body.take (blockStart body)).length = blockStart body := by
    rw [List.length_take]
    omega
  rw [openedReader, Reader.take_left t (by omega), opened, List.append_assoc,
    List.drop_left' hhead, List.take_append_of_le_length (by omega)]

theorem loginFrom_opened (env : Env) {body t : Bytes} {overrun : Bool} {plain : Rsa.Block}
    (h : blockStart body + 128 ≤ body.length)
    (hplain : env.rsaBlock (blockOf body h) = some plain) :
    loginFrom env body t overrun =
      if (plain.1.take 1).headD 0 = 0 then
        takeCredentials env (versionOf body) (keyAt (opened body plain) (blockStart body + 1))
          ⟨opened body plain ++ t, blockStart body + 1 + 16, overrun⟩
      else { version := versionOf body, branch := .rsaRejected } := by
  have hlen := length_opened plain h
  unfold loginFrom
  rw [dif_pos h, hplain]
  dsimp only
  rw [openedReader_take plain t h]
  dsimp only
  rw [takeKey_left t (by omega)]

/-- The frames whose login does not depend on what is behind them: the
version is inside, and if `authenticate` gets to the strings, so are they. -/
def ResidueFree (env : Env) (body : Bytes) : Prop :=
  fieldStart body + 5 ≤ body.length ∧
    ∀ (h : blockStart body + 128 ≤ body.length) (plain : Rsa.Block),
      env.rsaBlock (blockOf body h) = some plain → (plain.1.take 1).headD 0 = 0 →
      env.versionMin ≤ versionOf body →
      CredentialsSafe (opened body plain) (blockStart body + 17)

theorem loginFrom_safe {env : Env} {body t t' : Bytes} {overrun : Bool}
    (h : ResidueFree env body) (ht : t.length = 8) (ht' : t'.length = 8) :
    loginFrom env body t overrun = loginFrom env body t' overrun := by
  by_cases hfits : blockStart body + 128 ≤ body.length
  · cases hplain : env.rsaBlock (blockOf body hfits) with
    | none =>
        unfold loginFrom
        rw [dif_pos hfits, dif_pos hfits, hplain]
    | some plain =>
        have hlen := length_opened plain hfits
        rw [loginFrom_opened env hfits hplain, loginFrom_opened env hfits hplain]
        by_cases hzero : (plain.1.take 1).headD 0 = 0
        · rw [if_pos hzero, if_pos hzero]
          by_cases hversion : versionOf body < env.versionMin
          · unfold takeCredentials
            rw [if_pos hversion, if_pos hversion]
          · have hsafe := h.2 hfits plain hplain hzero (BitVec.not_lt.mp hversion)
            rw [credentials_safe env _ _ _ (by omega) ht hsafe,
              credentials_safe env _ _ _ (by omega) ht' hsafe]
        · rw [if_neg hzero, if_neg hzero]
  · unfold loginFrom
    rw [dif_neg hfits, dif_neg hfits]

theorem loginFrom_unsafe {env : Env} {body : Bytes} {overrun : Bool}
    (hversion : fieldStart body + 5 ≤ body.length) (h : ¬ ResidueFree env body) :
    ∃ r : Bytes, r.length ≤ 2 ∧
      loginFrom env body (padded r 1) overrun ≠ loginFrom env body (padded r 2) overrun := by
  unfold ResidueFree at h
  push Not at h
  obtain ⟨hfits, plain, hplain, hzero, hmin, hunsafe⟩ := h hversion
  have hlen := length_opened plain hfits
  obtain ⟨r, hr, hne⟩ := credentials_unsafe env (versionOf body)
    (keyAt (opened body plain) (blockStart body + 1)) overrun
    (show blockStart body + 17 + 2 ≤ (opened body plain).length by omega)
    (BitVec.not_lt.mpr hmin) hunsafe
  refine ⟨r, hr, ?_⟩
  rw [loginFrom_opened env hfits hplain, loginFrom_opened env hfits hplain, if_pos hzero,
    if_pos hzero]
  exact hne

/-! ## The run -/

/-- The inputs of the client that sends a frame and nothing else. -/
theorem clientInputs_frame (frame : Frame) (t1 t2 : Turn) :
    clientInputs (frame.header ++ frame.body) t1 t2 =
      if ¬ AcceptedSize frame.body.length ∨ t1.readArmThrows = true then
        [.readDone 0 frame.header t1]
      else [.readDone 0 frame.header t1, .readDone 0 frame.body t2] := by
  have hheader : frame.header.length = 2 := length_lengthBytes _
  have hannounced : announced (frame.header ++ frame.body) = frame.body.length := by
    rw [announced, List.take_left' hheader]
    exact decode_lengthBytes frame.fits
  have hbody : sentBody (frame.header ++ frame.body) = frame.body := by
    rw [sentBody, hannounced, List.drop_left' hheader, List.take_of_length_le (Nat.le_refl _)]
  have hlong : ¬ (frame.header ++ frame.body).length < 2 := by
    rw [List.length_append]
    omega
  unfold clientInputs
  rw [if_neg hlong, hannounced, hbody, List.take_left' hheader, List.drop_left' hheader,
    if_neg (Nat.lt_irrefl frame.body.length)]

namespace Connection

/-- Whatever the memory was, a header alone extracts nothing. -/
theorem history_header (env : Env) (memory : Memory) (frame : Frame) (turn : Turn) :
    (run env [.readDone 0 frame.header turn] (accept memory)).map history = some [] := by
  show ((step env (.readDone 0 frame.header turn) (accept memory)).bind _).map history = _
  rw [step_readDone env turn rfl rfl (length_lengthBytes _)]
  show some (parseHeader ((fresh memory).receive .header frame.header) false turn).history = _
  rw [(parseHeader_sameGate _ false turn).history]
  rfl

/-- A whole frame extracts one login. -/
theorem history_frame (env : Env) (memory : Memory) (frame : Frame) {t1 : Turn} (t2 : Turn)
    (hturn : t1.readArmThrows = false) (hsize : AcceptedSize frame.body.length) :
    (run env [.readDone 0 frame.header t1, .readDone 0 frame.body t2] (accept memory)).map
        history =
      some [.authenticated (readLogin env
        ((firstBody memory frame).msg.stripChecksum.skipBytes 1)).1] := by
  obtain ⟨hclosed, hfirst, -, hhistory⟩ := firstBody_state memory frame hsize
  have hauth := (authenticate_gate env (firstBody memory frame).authenticating t2).1
  have hout : ((firstBody memory frame).parsePacket env false t2).history =
      ((firstBody memory frame).authenticating.authenticate env t2).history := by
    rw [parsePacket_first env t2 hclosed hfirst]
    split
    · rfl
    · exact (armHeaderRead_sameGate _ _).history
  rw [run_first_frame env memory frame t2 hturn hsize, Option.map_some, hout, hauth]
  show some ((firstBody memory frame).history ++ _) = _
  rw [hhistory]
  rfl

end Connection

/-- A memory with given bytes behind the frame. -/
def behindFrame (body residue : Bytes) : Memory :=
  write (fun _ => 0) (body.length + 2) residue

theorem residueOf_behindFrame {body residue : Bytes} (h : residue.length = 8) :
    residueOf (behindFrame body residue) body = residue :=
  read_write_of_length h

/-- The version of a login, wherever it was read. -/
theorem afterRsa_version (env : Env) (version : BitVec 16)
    (result : Option Bool × NetworkMessage) :
    (afterRsa env version result).1.version = version := by
  obtain ⟨answer, msg⟩ := result
  match answer with
  | none => rfl
  | some false => rfl
  | some true =>
      show (readCredentials env version (readKey msg).1 (readKey msg).2).1.version = version
      unfold readCredentials
      split
      · rfl
      · dsimp only
        split
        · rfl
        · split <;> rfl

theorem toNat_decode_two (b b' : UInt8) :
    (Width.decode .u16 [b, b']).toNat = b.toNat + 256 * b'.toNat := by
  have hlt := b.toNat_lt
  have hlt' := b'.toNat_lt
  have hvalue : LittleEndian.decode [b, b'] = b.toNat + 256 * b'.toNat := by
    simp only [LittleEndian.decode]
    omega
  have hmod : (b.toNat + 256 * b'.toNat) % 2 ^ 16 = b.toNat + 256 * b'.toNat :=
    Nat.mod_eq_of_lt (by omega)
  rw [Width.decode, BitVec.toNat_ofNat, hvalue]
  exact hmod

/-- A version that lies across the end has its high byte from behind it. -/
theorem version_residue (env : Env) (x : UInt8) (frame : Frame)
    (hsize : AcceptedSize frame.body.length)
    (h : ¬ fieldStart frame.body + 5 ≤ frame.body.length) :
    ∃ b : UInt8,
      (readLogin env ((Connection.firstBody (fun _ => x) frame).msg.stripChecksum.skipBytes
      1)).1.version = Width.decode .u16 [b, x] := by
  have hdelivered := Connection.delivered_firstBody (fun _ => x) frame hsize
  generalize (Connection.firstBody (fun _ => x) frame).msg = m at hdelivered
  have hpos := NetworkMessage.stripChecksum_pos hdelivered.pos
  have hle : m.stripChecksum.pos ≤ 6 ∧ 2 ≤ m.stripChecksum.pos := by
    rw [hpos]
    split <;> decide
  have hlen : m.stripChecksum.len = frame.body.length + 2 := by
    rw [NetworkMessage.stripChecksum_len hdelivered.pos, hdelivered.len]
  have hbeyond : frame.body.length + 2 ≤ m.stripChecksum.pos + 4 := by
    by_cases hlong : 4 < frame.body.length
    · have hstart := stripChecksum_pos_of_long hdelivered hlong
      omega
    · omega
  have hlo := hsize.1
  have hhigh : m.stripChecksum.buffer (m.stripChecksum.pos + 3 + 1) = x := by
    rw [NetworkMessage.stripChecksum_buffer hdelivered.pos]
    exact hdelivered.behind _ (by omega)
  refine ⟨m.stripChecksum.buffer (m.stripChecksum.pos + 3), ?_⟩
  rw [readLogin_eq hle.1 env (by omega), afterRsa_version, ← hhigh]
  rfl

/-- Two runs of one frame, from any two contents of `m_buffer`, extract the
same version, key, email and password and take the same branch. -/
def SameLogin (env : Env) (frame : Frame) (t1 t2 : Turn) : Prop :=
  ∀ memory memory' : Memory,
    (Connection.run env (clientInputs (frame.header ++ frame.body) t1 t2)
      (.accept memory)).map Connection.history =
    (Connection.run env (clientInputs (frame.header ++ frame.body) t1 t2)
      (.accept memory')).map Connection.history

theorem same_login_iff (env : Env) (frame : Frame) (t1 t2 : Turn) :
    SameLogin env frame t1 t2 ↔
      (¬ AcceptedSize frame.body.length ∨ t1.readArmThrows = true) ∨
        ResidueFree env frame.body := by
  unfold SameLogin
  rw [clientInputs_frame]
  by_cases hrefused : ¬ AcceptedSize frame.body.length ∨ t1.readArmThrows = true
  · rw [if_pos hrefused]
    constructor
    · intro _
      exact Or.inl hrefused
    · intro _ memory memory'
      rw [Connection.history_header, Connection.history_header]
  rw [if_neg hrefused]
  have hsize : AcceptedSize frame.body.length := by
    by_contra hsize
    exact hrefused (Or.inl hsize)
  have hturn : t1.readArmThrows = false := by
    cases hthrows : t1.readArmThrows with
    | false => rfl
    | true => exact absurd (Or.inr hthrows) hrefused
  constructor
  · intro hsame
    right
    by_contra hresidue
    have hlogin : ∀ memory memory' : Memory,
        (readLogin env ((Connection.firstBody memory frame).msg.stripChecksum.skipBytes 1)).1 =
          (readLogin env
            ((Connection.firstBody memory' frame).msg.stripChecksum.skipBytes 1)).1 := by
      intro memory memory'
      have h := hsame memory memory'
      rw [Connection.history_frame env memory frame t2 hturn hsize,
        Connection.history_frame env memory' frame t2 hturn hsize] at h
      exact Milestone.authenticated.inj (List.cons.inj (Option.some.inj h)).1
    by_cases hversion : fieldStart frame.body + 5 ≤ frame.body.length
    · obtain ⟨r, hr, hne⟩ := loginFrom_unsafe hversion hresidue
      apply hne
      have h := hlogin (behindFrame frame.body (padded r 1)) (behindFrame frame.body (padded r 2))
      rw [readLogin_delivered env (Connection.delivered_firstBody _ frame hsize) hsize hversion,
        readLogin_delivered env (Connection.delivered_firstBody _ frame hsize) hsize hversion] at h
      have hbuffer : ∀ memory : Memory, (Connection.fresh memory).msg.buffer = memory := by
        intro memory
        rfl
      have hoverrun : ∀ memory : Memory, (Connection.fresh memory).msg.overrun = false := by
        intro memory
        rfl
      rw [hbuffer, hbuffer, hoverrun, hoverrun,
        residueOf_behindFrame (length_padded 1 (by omega)),
        residueOf_behindFrame (length_padded 2 (by omega))] at h
      exact h
    · obtain ⟨b, hb⟩ := version_residue env 1 frame hsize hversion
      obtain ⟨b', hb'⟩ := version_residue env 2 frame hsize hversion
      rw [hlogin (fun _ => 1) (fun _ => 2), hb'] at hb
      have hvalue := congrArg BitVec.toNat hb
      rw [toNat_decode_two, toNat_decode_two] at hvalue
      have hlt := b.toNat_lt
      have hlt' := b'.toNat_lt
      have hone : (1 : UInt8).toNat = 1 := rfl
      have htwo : (2 : UInt8).toNat = 2 := rfl
      omega
  · intro h memory memory'
    have hfree : ResidueFree env frame.body := by
      rcases h with h | h
      · exact absurd h hrefused
      · exact h
    rw [Connection.history_frame env memory frame t2 hturn hsize,
      Connection.history_frame env memory' frame t2 hturn hsize,
      readLogin_delivered env (Connection.delivered_firstBody _ frame hsize) hsize hfree.1,
      readLogin_delivered env (Connection.delivered_firstBody _ frame hsize) hsize hfree.1]
    exact congrArg (fun login => some [Milestone.authenticated login])
      (loginFrom_safe hfree (length_read _ _ _) (length_read _ _ _))

/-- A login frame whose email claims one byte more than the frame has. -/
def longEmail : Frame where
  body := List.replicate 39 0 ++ [110, 0] ++ List.replicate 109 97
  fits := by decide +kernel

/-- Its email ends with a byte of the previous contents of the buffer. -/
theorem long_email_leaks : ¬ SameLogin sampleEnv longEmail {} {} := by
  intro h
  have heq := h (fun _ => 1) (fun _ => 2)
  revert heq
  decide +kernel

end LoginServer.Network
