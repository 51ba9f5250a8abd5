import LoginServer.Lib.JsonParse

/-!
# Unicode strings

A character may be spelled in several ways: its UTF-8 as it is, a short
escape, the escape of a UTF-16 code unit, or, beyond the first plane, the
escapes of a surrogate pair.  Whichever is used, `json.decode` makes UTF-8 of
it.

## Main results

* `codepointToUtf8_char` — `codepoint_to_utf8` is UTF-8.
* `Spells.isStringBody` — a spelling is read, whatever follows it.
* `decode_spelled` — every spelling of a text is read as its UTF-8.
-/

namespace LoginServer.Lib

open LoginServer.Network (Bytes text)

/-- No character is a surrogate. -/
theorem char_range (c : Char) :
    c.toNat < 0xd800 ∨ (0xdfff < c.toNat ∧ c.toNat < 0x110000) := c.valid

theorem byteOf_eq {n : Int} {m : Nat} (h : n = m) : byteOf n = UInt8.ofNat m := by
  rw [h]
  rfl

theorem codepointToUtf8_char (c : Char) :
    codepointToUtf8 c.toNat = .ok (String.utf8EncodeChar c) := by
  have hmax : c.toNat ≤ 0x10ffff := by
    have hrange := char_range c
    omega
  show codepointToUtf8 c.val.toNat = _
  change c.val.toNat ≤ _ at hmax
  unfold codepointToUtf8 String.utf8EncodeChar
  generalize c.val.toNat = n at hmax
  by_cases h₁ : n ≤ 0x7f
  · rw [if_pos (by omega), if_pos h₁, byteOf_eq rfl]
  by_cases h₂ : n ≤ 0x7ff
  · rw [if_neg (by omega), if_pos (by omega), if_neg h₁, if_pos h₂,
      byteOf_eq (m := n / 64 % 32 + 192) (by omega), byteOf_eq (m := n % 64 + 128) (by omega)]
  by_cases h₃ : n ≤ 0xffff
  · rw [if_neg (by omega), if_neg (by omega), if_pos (by omega), if_neg h₁, if_neg h₂,
      if_pos h₃,
      byteOf_eq (m := n / 4096 % 16 + 224) (by omega),
      byteOf_eq (m := n / 64 % 64 + 128) (by omega), byteOf_eq (m := n % 64 + 128) (by omega)]
  · rw [if_neg (by omega), if_neg (by omega), if_neg (by omega), if_pos (by omega), if_neg h₁,
      if_neg h₂, if_neg h₃, byteOf_eq (m := n / 262144 % 8 + 240) (by omega),
      byteOf_eq (m := n / 4096 % 64 + 128) (by omega),
      byteOf_eq (m := n / 64 % 64 + 128) (by omega), byteOf_eq (m := n % 64 + 128) (by omega)]

/-- `spelling`, between two quotes, spells the character. -/
inductive Spells (c : Char) : Bytes → Prop
  /-- as it is -/
  | plain (hcontrol : 32 ≤ c.toNat) (hquote : c ≠ '"') (hescape : c ≠ '\\') :
      Spells c (String.utf8EncodeChar c)
  /-- by a letter -/
  | short {d : UInt8} (h : escapeCharMapInv d = some c.toUInt8) (hascii : c.toNat < 128) :
      Spells c [92, d]
  /-- by its code unit -/
  | unit {hex : Bytes} (h : Hex4 hex c.toNat) : Spells c (text "\\u" ++ hex)
  /-- by its surrogates -/
  | pair {high low : Bytes} (hplane : 0x10000 ≤ c.toNat)
      (hhigh : Hex4 high (0xd800 + (c.toNat - 0x10000) / 0x400))
      (hlow : Hex4 low (0xdc00 + (c.toNat - 0x10000) % 0x400)) :
      Spells c (text "\\u" ++ (high ++ (text "\\u" ++ low)))

/-- Bytes above the ASCII range stand for themselves. -/
theorem IsStringBody.plain_append {s body t : Bytes}
    (hs : ∀ b ∈ s, 32 ≤ b ∧ b ≠ 34 ∧ b ≠ 92)
    (h : IsStringBody body t) : IsStringBody (s ++ body) (s ++ t) := by
  induction s with
  | nil => exact h
  | cons b s ih =>
      obtain ⟨hcontrol, hquote, hescape⟩ := hs b List.mem_cons_self
      exact IsStringBody.plain hcontrol hquote hescape
        (ih fun b' hb' => hs b' (List.mem_cons_of_mem _ hb'))

theorem ofNat_plain {m : Nat} (hlt : m < 256) (hcontrol : 32 ≤ m) (hquote : m ≠ 34)
    (hescape : m ≠ 92) :
    32 ≤ UInt8.ofNat m ∧ UInt8.ofNat m ≠ 34 ∧ UInt8.ofNat m ≠ 92 := by
  have hm : (UInt8.ofNat m).toNat = m := by
    rw [UInt8.toNat_ofNat']
    omega
  refine ⟨UInt8.le_iff_toNat_le.mpr (by rw [hm]; exact hcontrol), fun h => hquote ?_,
    fun h => hescape ?_⟩
  · rw [← hm, h]
    rfl
  · rw [← hm, h]
    rfl

theorem utf8EncodeChar_plain {c : Char} (hcontrol : 32 ≤ c.toNat) (hquote : c ≠ '"')
    (hescape : c ≠ '\\') :
    ∀ b ∈ String.utf8EncodeChar c, 32 ≤ b ∧ b ≠ 34 ∧ b ≠ 92 := by
  have hquote' : c.val.toNat ≠ 34 := fun h => hquote (Char.ext (UInt32.toNat_inj.mp h))
  have hescape' : c.val.toNat ≠ 92 := fun h => hescape (Char.ext (UInt32.toNat_inj.mp h))
  intro b hb
  unfold String.utf8EncodeChar at hb
  dsimp only at hb
  split_ifs at hb with h₁ h₂ h₃ <;>
    simp only [List.mem_cons, List.not_mem_nil, or_false] at hb
  · rw [hb]
    exact ofNat_plain (by omega) hcontrol hquote' hescape'
  · rcases hb with rfl | rfl <;> exact ofNat_plain (by omega) (by omega) (by omega) (by omega)
  · rcases hb with rfl | rfl | rfl <;>
      exact ofNat_plain (by omega) (by omega) (by omega) (by omega)
  · rcases hb with rfl | rfl | rfl | rfl <;>
      exact ofNat_plain (by omega) (by omega) (by omega) (by omega)

theorem not_isHigh_char (c : Char) : ¬ IsHigh c.toNat := by
  rintro ⟨hle, hlt⟩
  have hrange := char_range c
  omega

theorem Spells.isStringBody {c : Char} {spelling body s : Bytes} (h : Spells c spelling)
    (hbody : IsStringBody body s) :
    IsStringBody (spelling ++ body) (String.utf8EncodeChar c ++ s) := by
  cases h with
  | plain hcontrol hquote hescape =>
      exact IsStringBody.plain_append (utf8EncodeChar_plain hcontrol hquote hescape) hbody
  | short h hascii =>
      have hutf8 : String.utf8EncodeChar c = [c.toUInt8] := by
        unfold String.utf8EncodeChar
        exact if_pos (Nat.le_of_lt_succ hascii)
      rw [hutf8]
      exact IsStringBody.escape h hbody
  | unit h =>
      rw [List.append_assoc]
      exact IsStringBody.unicode h (fun hhigh => not_isHigh_char c hhigh.1)
        (codepointToUtf8_char c) hbody
  | pair hplane hhigh hlow =>
      have hrange := char_range c
      have hcodepoint : pairCodepoint (0xd800 + (c.toNat - 0x10000) / 0x400)
          (0xdc00 + (c.toNat - 0x10000) % 0x400) = c.toNat := by
        unfold pairCodepoint
        omega
      have hm : IsHigh (0xd800 + (c.toNat - 0x10000) / 0x400) := ⟨by omega, by omega⟩
      have hutf8 : codepointToUtf8 (pairCodepoint (0xd800 + (c.toNat - 0x10000) / 0x400)
          (0xdc00 + (c.toNat - 0x10000) % 0x400)) = .ok (String.utf8EncodeChar c) := by
        rw [hcodepoint]
        exact codepointToUtf8_char c
      simpa using IsStringBody.pair hhigh hm hlow hutf8 hbody

/-- However its characters are spelled, a text is read as its UTF-8. -/
theorem decode_spelled (numerals : Numerals) {s : List Char} {spellings : List Bytes}
    (h : List.Forall₂ Spells s spellings) :
    decode numerals (text "\"" ++ (spellings.flatten ++ text "\"")) =
      .ok (.string (s.flatMap String.utf8EncodeChar)) := by
  have hbody : IsStringBody spellings.flatten (s.flatMap String.utf8EncodeChar) := by
    induction h with
    | nil => exact IsStringBody.nil
    | cons hc _ ih => exact hc.isStringBody ih
  have hnil : Space [] := fun _ h => (List.not_mem_nil h).elim
  refine decode_complete ⟨[], _, [], hnil, IsValue.string hbody, hnil, ?_⟩
  rw [List.nil_append, List.append_nil]
  rfl

/-- A letter of the first plane and a character beyond it. -/
theorem decode_spelled_sample :
    decode ⟨fun _ => none, fun _ => []⟩
        (text "\"" ++
          ([text "\\u" ++ text "00E9",
            text "\\u" ++ (text "d83d" ++ (text "\\u" ++ text "de00"))].flatten ++
          text "\"")) =
      .ok (.string (['é', '😀'].flatMap String.utf8EncodeChar)) :=
  decode_spelled _ (List.Forall₂.cons (Spells.unit ⟨by decide, by decide⟩)
    (List.Forall₂.cons
      (Spells.pair (by decide) ⟨by decide, by decide⟩ ⟨by decide, by decide⟩)
      List.Forall₂.nil))

end LoginServer.Lib
