import Mathlib.Data.Bool.AllAny
import LoginServer.Lib.JsonGrammar

/-!
# String literals of `json.lua`

`parse_string` reads exactly the string literals of the grammar, and of two
readings of a `\u` escape it takes the longer one: a high surrogate pairs with
the escape behind it, whatever that escape is.

## Main results

* `parseString_sound` — what `parse_string` returns.
* `parseString_complete` — what it does not refuse.
-/

namespace LoginServer.Lib

open LoginServer.Network (Bytes text)
open LoginServer.Verified.OneBased

/-! ## Hexadecimal digits -/

theorem hexDigit?_eq_some_iff {c : UInt8} {d : Nat} :
    hexDigit? c = some d ↔ (d < 10 ∧ c.toNat = 48 + d) ∨
      (10 ≤ d ∧ d < 16 ∧ (c.toNat = 87 + d ∨ c.toNat = 55 + d)) := by
  simp only [hexDigit?, UInt8.le_iff_toNat_le, UInt8.reduceToNat]
  split_ifs <;> simp <;> omega

theorem hexDigit?_lt (c : UInt8) : ∀ d ∈ hexDigit? c, d < 16 := by
  intro d hd
  have := hexDigit?_eq_some_iff.mp hd
  omega

theorem mem_dD_iff (c : UInt8) : c ∈ text "dD" ↔ hexDigit? c = some 13 := by
  simp [hexDigit?_eq_some_iff, text, ← UInt8.toNat_inj]

theorem mem_high_iff (c : UInt8) :
    c ∈ text "89aAbB" ↔ ∃ d ∈ hexDigit? c, 8 ≤ d ∧ d < 12 := by
  have hmem :
      c ∈ text "89aAbB" ↔ c.toNat = 56 ∨ c.toNat = 57 ∨ c.toNat = 97 ∨ c.toNat = 65 ∨
      c.toNat = 98 ∨ c.toNat = 66 := by
    simp [text, ← UInt8.toNat_inj]
  simp only [hmem, Option.mem_def, hexDigit?_eq_some_iff]
  constructor
  · rintro (h | h | h | h | h | h)
    · exact ⟨8, by omega⟩
    · exact ⟨9, by omega⟩
    · exact ⟨10, by omega⟩
    · exact ⟨10, by omega⟩
    · exact ⟨11, by omega⟩
    · exact ⟨11, by omega⟩
  · rintro ⟨d, h⟩
    omega

theorem escapeChars_iff (c : UInt8) :
    escapeChars c = true ∧ c ≠ 'u'.toUInt8 ↔ (escapeCharMapInv c).isSome = true := by
  have hall :
      ∀ c ∈ text "\\/\"bfnrtu", c ≠ 'u'.toUInt8 → (escapeCharMapInv c).isSome = true :=
    List.all_iff_forall_prop.mp (by decide)
  constructor
  · rintro ⟨hmem, hne⟩
    exact hall c (of_decide_eq_true hmem) hne
  · intro h
    unfold escapeCharMapInv at h
    split_ifs at h <;> first | (subst c; decide) | cases h

theorem isHexDigit_iff {c : UInt8} : isHexDigit c = true ↔ ∃ d, hexDigit? c = some d :=
  Option.isSome_iff_exists

theorem tonumber16_four {c₀ c₁ c₂ c₃ : UInt8} {d₀ d₁ d₂ d₃ : Nat}
    (h₀ : hexDigit? c₀ = some d₀)
    (h₁ : hexDigit? c₁ = some d₁) (h₂ : hexDigit? c₂ = some d₂)
    (h₃ : hexDigit? c₃ = some d₃) :
    tonumber16 [c₀, c₁, c₂, c₃] = some (16 * (16 * (16 * d₀ + d₁) + d₂) + d₃) := by
  simp [tonumber16, h₀, h₁, h₂, h₃]

theorem hex4_iff {hex : Bytes} {n : Nat} :
    Hex4 hex n ↔ ∃ c₀ c₁ c₂ c₃ d₀ d₁ d₂ d₃, hex = [c₀, c₁, c₂, c₃] ∧
      hexDigit? c₀ = some d₀ ∧ hexDigit? c₁ = some d₁ ∧ hexDigit? c₂ = some d₂ ∧
      hexDigit? c₃ = some d₃ ∧ n = 16 * (16 * (16 * d₀ + d₁) + d₂) + d₃ := by
  unfold Hex4
  rw [matchFront_eq_some_iff]
  simp only [hexPattern, List.forall₂_cons_left_iff, List.forall₂_nil_left_iff, isHexDigit_iff]
  constructor
  · rintro ⟨⟨⟨c₀, -, ⟨d₀, h₀⟩,
      ⟨c₁, -, ⟨d₁, h₁⟩, ⟨c₂, -, ⟨d₂, h₂⟩, ⟨c₃, -, ⟨d₃, h₃⟩, rfl, rfl⟩,
      rfl⟩, rfl⟩, rfl⟩, -⟩, hn⟩
    refine ⟨c₀, c₁, c₂, c₃, d₀, d₁, d₂, d₃, rfl, h₀, h₁, h₂, h₃, ?_⟩
    exact Option.some.inj (hn.symm.trans (tonumber16_four h₀ h₁ h₂ h₃))
  · rintro ⟨c₀, c₁, c₂, c₃, d₀, d₁, d₂, d₃, rfl, h₀, h₁, h₂, h₃, rfl⟩
    refine ⟨⟨⟨c₀, _, ⟨d₀, h₀⟩,
      ⟨c₁, _, ⟨d₁, h₁⟩, ⟨c₂, _, ⟨d₂, h₂⟩, ⟨c₃, _, ⟨d₃, h₃⟩, rfl, rfl⟩,
      rfl⟩, rfl⟩, rfl⟩, List.prefix_refl _⟩, ?_⟩
    exact tonumber16_four h₀ h₁ h₂ h₃

theorem Hex4.length {hex : Bytes} {n : Nat} (h : Hex4 hex n) : hex.length = 4 := by
  obtain ⟨c₀, c₁, c₂, c₃, -, -, -, -, rfl, -⟩ := hex4_iff.mp h
  rfl

theorem Hex4.lt {hex : Bytes} {n : Nat} (h : Hex4 hex n) : n < 0x10000 := by
  obtain ⟨c₀, c₁, c₂, c₃, d₀, d₁, d₂, d₃, -, h₀, h₁, h₂, h₃, rfl⟩ :=
    hex4_iff.mp h
  have hd₀ := hexDigit?_lt c₀ d₀ h₀
  have hd₁ := hexDigit?_lt c₁ d₁ h₁
  have hd₂ := hexDigit?_lt c₂ d₂ h₂
  have hd₃ := hexDigit?_lt c₃ d₃ h₃
  omega

theorem matchFront_hexPattern_iff {s hex : Bytes} :
    matchFront hexPattern s = some hex ↔ (∃ n, Hex4 hex n) ∧ hex <+: s := by
  constructor
  · intro h
    obtain ⟨hclasses, hfront⟩ := matchFront_eq_some_iff.mp h
    refine ⟨?_, hfront⟩
    simp only [hexPattern, List.forall₂_cons_left_iff, List.forall₂_nil_left_iff,
      isHexDigit_iff] at hclasses
    obtain ⟨c₀, -, ⟨d₀, h₀⟩,
        ⟨c₁, -, ⟨d₁, h₁⟩, ⟨c₂, -, ⟨d₂, h₂⟩, ⟨c₃, -, ⟨d₃, h₃⟩, rfl, rfl⟩, rfl⟩,
      rfl⟩, rfl⟩ := hclasses
    exact ⟨_,
      hex4_iff.mpr ⟨c₀, c₁, c₂, c₃, d₀, d₁, d₂, d₃, rfl, h₀, h₁, h₂, h₃, rfl⟩⟩
  · rintro ⟨⟨n, hhex, -⟩, hfront⟩
    exact matchFront_eq_some_iff.mpr ⟨(matchFront_eq_some_iff.mp hhex).1, hfront⟩

/-- The classes of a high surrogate say that the number is one. -/
theorem highPattern_iff {hex : Bytes} {n : Nat} (h : Hex4 hex n) :
    List.Forall₂ (fun p c => p c = true) highPattern hex ↔ IsHigh n := by
  obtain ⟨c₀, c₁, c₂, c₃, d₀, d₁, d₂, d₃, rfl, h₀, h₁, h₂, h₃, rfl⟩ :=
    hex4_iff.mp h
  have hd₀ := hexDigit?_lt c₀ d₀ h₀
  have hd₁ := hexDigit?_lt c₁ d₁ h₁
  have hd₂ := hexDigit?_lt c₂ d₂ h₂
  have hd₃ := hexDigit?_lt c₃ d₃ h₃
  have hfirst := mem_dD_iff c₀
  have hsecond := mem_high_iff c₁
  rw [h₀, Option.some_inj] at hfirst
  simp only [h₁, Option.mem_some_iff, exists_eq_left'] at hsecond
  simp only [highPattern, List.forall₂_cons, List.forall₂_nil_left_iff, decide_eq_true_eq,
    hfirst,
    hsecond, isHexDigit_iff, h₂, h₃, IsHigh]
  constructor
  · rintro ⟨rfl, ⟨hle, hlt⟩, -⟩
    omega
  · rintro ⟨hle, hlt⟩
    exact ⟨by omega, by omega, ⟨d₂, rfl⟩, ⟨d₃, rfl⟩, trivial⟩

/-! ## Escapes of code units -/

theorem matchFront_highPattern_iff {s high : Bytes} :
    matchFront highPattern s = some high ↔ (∃ m, Hex4 high m ∧ IsHigh m) ∧ high <+: s := by
  constructor
  · intro h
    obtain ⟨hclasses, hfront⟩ := matchFront_eq_some_iff.mp h
    have hhex : ∃ m, Hex4 high m := by
      simp only [highPattern, List.forall₂_cons_left_iff, List.forall₂_nil_left_iff,
        decide_eq_true_eq, mem_dD_iff, mem_high_iff, isHexDigit_iff] at hclasses
      obtain ⟨c₀, -, h₀,
          ⟨c₁, -, ⟨d₁, h₁, -⟩, ⟨c₂, -, ⟨d₂, h₂⟩, ⟨c₃, -, ⟨d₃, h₃⟩, rfl, rfl⟩, rfl⟩,
        rfl⟩, rfl⟩ := hclasses
      exact ⟨_,
        hex4_iff.mpr ⟨c₀, c₁, c₂, c₃, 13, d₁, d₂, d₃, rfl, h₀, h₁, h₂, h₃, rfl⟩⟩
    obtain ⟨m, hm⟩ := hhex
    exact ⟨⟨m, hm, (highPattern_iff hm).mp hclasses⟩, hfront⟩
  · rintro ⟨⟨m, hhex, hm⟩, hfront⟩
    exact matchFront_eq_some_iff.mpr ⟨(highPattern_iff hhex).mpr hm, hfront⟩

theorem matchFront_escapePattern_iff {s t : Bytes} :
    matchFront escapePattern s = some t ↔ t = text "\\u" ∧ t <+: s := by
  have hclasses : ∀ t : Bytes, List.Forall₂ (fun p c => p c = true) escapePattern t ↔
      t = text "\\u" := by
    intro t
    simp only [escapePattern, List.forall₂_cons_left_iff, List.forall₂_nil_left_iff,
      decide_eq_true_eq]
    constructor
    · rintro ⟨c, -, rfl, ⟨d, -, rfl, rfl, rfl⟩, rfl⟩
      rfl
    · rintro rfl
      exact ⟨_, _, rfl, ⟨_, _, rfl, rfl, rfl⟩, rfl⟩
  rw [matchFront_eq_some_iff, hclasses]

/-- A pair is at the front. -/
theorem matchFront_pairPattern_iff {s t : Bytes} :
    matchFront pairPattern s = some t ↔
      ∃ high low m n rest, Hex4 high m ∧ IsHigh m ∧ Hex4 low n ∧
        t = high ++ (text "\\u" ++ low) ∧ s = high ++ (text "\\u" ++ (low ++ rest)) := by
  unfold pairPattern
  simp only [matchFront_append_iff, matchFront_highPattern_iff, matchFront_escapePattern_iff,
    matchFront_hexPattern_iff]
  constructor
  · rintro ⟨high, _, ⟨⟨m, hhigh, hm⟩, ⟨s₁, rfl⟩⟩,
      ⟨_, low, ⟨rfl, s₂, h₂⟩, ⟨⟨n, hlow⟩, s₃, h₃⟩, rfl⟩, rfl⟩
    rw [List.drop_left' rfl] at h₂ h₃
    rw [← h₂, List.drop_left' rfl] at h₃
    refine ⟨high, low, m, n, s₃, hhigh, hm, hlow, rfl, ?_⟩
    rw [← h₂, ← h₃]
  · rintro ⟨high, low, m, n, rest, hhigh, hm, hlow, rfl, rfl⟩
    refine ⟨high, _, ⟨⟨m, hhigh, hm⟩, ⟨_, rfl⟩⟩,
      ⟨text "\\u", low, ⟨rfl, low ++ rest, ?_⟩,
      ⟨⟨n, hlow⟩, rest, ?_⟩, rfl⟩, rfl⟩
    · rw [List.drop_left' rfl]
    · rw [List.drop_left' rfl, List.drop_left' rfl]

theorem parseUnicodeEscape_single {hex : Bytes} {n : Nat} (h : Hex4 hex n) :
    parseUnicodeEscape hex = codepointToUtf8 n := by
  have hvalue := h.2
  obtain ⟨c₀, c₁, c₂, c₃, -, -, -, -, rfl, -⟩ := hex4_iff.mp h
  unfold parseUnicodeEscape
  rw [show sub [c₀, c₁, c₂, c₃] 1 4 = [c₀, c₁, c₂, c₃] from rfl,
    show tonumber16 (sub [c₀, c₁, c₂, c₃] 7 10) = none from rfl, hvalue]
  rfl

theorem parseUnicodeEscape_pair {high low : Bytes} {m n : Nat} (hhigh : Hex4 high m)
    (hlow : Hex4 low n) :
    parseUnicodeEscape (high ++ (text "\\u" ++ low)) = codepointToUtf8 (pairCodepoint m n) := by
  have hm := hhigh.2
  have hn := hlow.2
  obtain ⟨c₀, c₁, c₂, c₃, -, -, -, -, rfl, -⟩ := hex4_iff.mp hhigh
  obtain ⟨e₀, e₁, e₂, e₃, -, -, -, -, rfl, -⟩ := hex4_iff.mp hlow
  have hfirst : sub ([c₀, c₁, c₂, c₃] ++ (text "\\u" ++ [e₀, e₁, e₂, e₃])) 1 4 =
      [c₀, c₁, c₂, c₃] := rfl
  have hsecond : sub ([c₀, c₁, c₂, c₃] ++ (text "\\u" ++ [e₀, e₁, e₂, e₃])) 7 10 =
      [e₀, e₁, e₂, e₃] := rfl
  unfold parseUnicodeEscape
  rw [hfirst, hsecond, hm, hn]
  rfl

/-- What the two calls of `str:match` find: a pair, or a single escape that is
not the first half of one. -/
theorem matchEscape_cases {str hex : Bytes} {init : Nat} (h : matchEscape str init = some hex) :
    (∃ high low m n rest, Hex4 high m ∧ IsHigh m ∧ Hex4 low n ∧
      hex = high ++ (text "\\u" ++ low) ∧ str.drop (init - 1) = hex ++ rest) ∨
    (∃ n rest, Hex4 hex n ∧ str.drop (init - 1) = hex ++ rest ∧
      ¬ (IsHigh n ∧ EscapeFollows rest)) := by
  unfold matchEscape at h
  cases hpair : matchFront pairPattern (str.drop (init - 1)) with
  | some t =>
      rw [hpair] at h
      cases h
      obtain ⟨high, low, m, n, rest, hhigh, hm, hlow, rfl, hrest⟩ :=
        matchFront_pairPattern_iff.mp hpair
      refine Or.inl ⟨high, low, m, n, rest, hhigh, hm, hlow, rfl, ?_⟩
      rw [hrest, List.append_assoc, List.append_assoc]
  | none =>
      rw [hpair] at h
      obtain ⟨⟨n, hhex⟩, rest, hrest⟩ := matchFront_hexPattern_iff.mp h
      refine Or.inr ⟨n, rest, hhex, hrest.symm, ?_⟩
      rintro ⟨hn, low, m, rest', hlow, rfl⟩
      have hsome := matchFront_pairPattern_iff.mpr
        ⟨hex, low, n, m, rest', hhex, hn, hlow, rfl, hrest.symm⟩
      rw [hpair] at hsome
      cases hsome

/-- A pair is taken whole. -/
theorem matchEscape_pair {str high low rest : Bytes} {init m n : Nat} (hhigh : Hex4 high m)
    (hm : IsHigh m) (hlow : Hex4 low n)
    (hrest : str.drop (init - 1) = high ++ (text "\\u" ++ (low ++ rest))) :
    matchEscape str init = some (high ++ (text "\\u" ++ low)) := by
  have hpair := matchFront_pairPattern_iff.mpr
    ⟨high, low, m, n, rest, hhigh, hm, hlow, rfl, hrest⟩
  unfold matchEscape
  rw [hpair]

theorem matchEscape_single {str hex rest : Bytes} {init n : Nat} (hhex : Hex4 hex n)
    (hlone : ¬ (IsHigh n ∧ EscapeFollows rest)) (hrest : str.drop (init - 1) = hex ++ rest) :
    matchEscape str init = some hex := by
  have hsingle := matchFront_hexPattern_iff.mpr ⟨⟨n, hhex⟩, rest, hrest.symm⟩
  unfold matchEscape
  cases hpair : matchFront pairPattern (str.drop (init - 1)) with
  | none => exact hsingle
  | some t =>
      obtain ⟨high, low, m, n', rest', hhigh, hm, hlow, -, hrest'⟩ :=
        matchFront_pairPattern_iff.mp hpair
      exfalso
      apply hlone
      rw [hrest] at hrest'
      obtain ⟨rfl, rfl⟩ := List.append_inj hrest' (hhex.length.trans hhigh.length.symm)
      refine ⟨?_, low, n', rest', hlow, rfl⟩
      rwa [Option.some.inj (hhex.2.symm.trans hhigh.2)]

/-! ## The loop -/

/-- An escape in the rest of the text is one in the body of the literal, whose
closing quote is no part of it. -/
theorem escapeFollows_append_iff {body rest : Bytes} :
    EscapeFollows (body ++ 34 :: rest) ↔ EscapeFollows body := by
  constructor
  · rintro ⟨hex, n, rest', hhex, heq⟩
    have hquote : (34 : UInt8) ∉ text "\\u" ++ hex := by
      obtain ⟨c₀, c₁, c₂, c₃, d₀, d₁, d₂, d₃, rfl, h₀, h₁, h₂, h₃, -⟩ :=
        hex4_iff.mp hhex
      intro hmem
      simp only [List.mem_append, List.mem_cons, List.not_mem_nil, or_false] at hmem
      have hnone : hexDigit? 34 = none := rfl
      rcases hmem with hmem | rfl | rfl | rfl | rfl
      · exact absurd hmem (by decide)
      · rw [hnone] at h₀; cases h₀
      · rw [hnone] at h₁; cases h₁
      · rw [hnone] at h₂; cases h₂
      · rw [hnone] at h₃; cases h₃
    rw [← List.append_assoc] at heq
    rcases List.append_eq_append_iff.mp heq with ⟨a, ha, hb⟩ | ⟨a, ha, -⟩
    · cases a with
      | nil =>
          refine ⟨hex, n, [], hhex, ?_⟩
          rw [List.append_nil] at ha
          rw [← ha, List.append_nil]
      | cons c a =>
          obtain ⟨rfl, -⟩ := List.cons.inj hb
          rw [ha] at hquote
          exact absurd (List.mem_append_right _ List.mem_cons_self) hquote
    · exact ⟨hex, n, a, hhex, by rw [ha, List.append_assoc]⟩
  · rintro ⟨hex, n, rest', hhex, rfl⟩
    refine ⟨hex, n, rest' ++ 34 :: rest, hhex, ?_⟩
    rw [List.append_assoc, List.append_assoc]

/-- The digits of an escape stand behind it. -/
theorem spans_matchEscape {str hex : Bytes} {i j : Nat} (hspan : Spans str i j (text "\\u"))
    (hmatch : matchEscape str j = some hex) : Spans str j (j + hex.length) hex := by
  have hreads : Reads str j (str.drop (j - 1)) := reads_drop hspan.end_pos hspan.le
  obtain ⟨high, low, m, n, rest, -, -, -, -, hdrop⟩ | ⟨n, rest, -, hdrop, -⟩ :=
    matchEscape_cases hmatch
  · rw [hdrop] at hreads
    exact hreads.spans
  · rw [hdrop] at hreads
    exact hreads.spans

/-- An escape of code units in front of the rest of a literal. -/
theorem unicode_sound {str hex utf8 body s : Bytes} {i j k : Nat}
    (hspan : Spans str i j (text "\\u")) (hmatch : matchEscape str j = some hex)
    (hutf8 : parseUnicodeEscape hex = .ok utf8)
    (hbody : Spans str (j + hex.length) k (body ++ [34])) (hstring : IsStringBody body s) :
    ∃ body', Spans str i k (body' ++ [34]) ∧ IsStringBody body' (utf8 ++ s) := by
  have hhex := spans_matchEscape hspan hmatch
  have hwhole := hspan.trans (hhex.trans hbody)
  obtain ⟨high, low, m, n, rest, hhigh, hm, hlow, rfl, -⟩ |
      ⟨n, rest, hsingle, hdrop, hlone⟩ :=
    matchEscape_cases hmatch
  · rw [parseUnicodeEscape_pair hhigh hlow] at hutf8
    refine ⟨_, ?_, .pair hhigh hm hlow hutf8 hstring⟩
    simpa only [List.append_assoc] using hwhole
  · rw [parseUnicodeEscape_single hsingle] at hutf8
    refine ⟨_, ?_, .unicode hsingle ?_ hutf8 hstring⟩
    · simpa only [List.append_assoc] using hwhole
    · rintro ⟨hn, hfollows⟩
      apply hlone
      obtain ⟨rest', hrest, -⟩ := (hhex.trans hbody).reads (reads_drop hspan.end_pos hspan.le)
      have hrest' : rest = body ++ 34 :: rest' := by
        rw [hdrop, List.append_assoc, List.append_assoc] at hrest
        exact List.append_cancel_left hrest
      rw [hrest', escapeFollows_append_iff]
      exact ⟨hn, hfollows⟩

/-- `plain` has been read and not yet copied. -/
theorem parseStringLoop_sound {str : Bytes} {i : Nat} (fuel : Nat) :
    ∀ {res plain s : Bytes} {j j' k : Nat}, Spans str k j plain →
      parseStringLoop str i fuel res j k = .ok (s, j') →
      ∃ body s', Spans str j j' (body ++ [34]) ∧ IsStringBody body s' ∧
        s = res ++ (plain ++ s') := by
  induction fuel with
  | zero =>
      intro res plain s j j' k _ h
      cases h
  | succ fuel ih =>
      intro res plain s j j' k hplain h
      have hj : 0 < j := hplain.end_pos
      unfold parseStringLoop at h
      cases hx : at? str j with
      | none =>
          rw [hx] at h
          cases h
      | some x =>
          have hspan := spans_single hj hx
          rw [hx, hplain.sub] at h
          dsimp only at h
          split at h
          · cases h
          · rename_i hcontrol
            split at h
            · rename_i hescape
              subst hescape
              split at h
              · rename_i hu
                have hspan' := hspan.trans (spans_single (Nat.succ_pos j) hu)
                cases hmatch : matchEscape str (j + 1 + 1) with
                | none =>
                    rw [hmatch] at h
                    cases h
                | some hex =>
                    rw [hmatch] at h
                    dsimp only at h
                    cases hutf8 : parseUnicodeEscape hex with
                    | error e =>
                        rw [hutf8] at h
                        cases h
                    | ok utf8 =>
                        rw [hutf8] at h
                        dsimp only at h
                        rw [show j + 1 + hex.length + 1 = j + 1 + 1 + hex.length by omega] at h
                        have hhex := spans_matchEscape hspan' hmatch
                        obtain ⟨body, s', hbody, hstring, rfl⟩ :=
                          ih (spans_nil (by omega) hhex.le) h
                        obtain ⟨body', hbody', hstring'⟩ :=
                          unicode_sound hspan' hmatch hutf8 hbody hstring
                        refine ⟨body', utf8 ++ s', hbody', hstring', ?_⟩
                        rw [List.nil_append, List.append_assoc, List.append_assoc]
              · rename_i hu
                split at h
                · rename_i hany
                  obtain ⟨c, hc, hchar⟩ := (Option.any_eq_true _ _).mp hany
                  have hspan' := hspan.trans (spans_single (Nat.succ_pos j) hc)
                  have hne : c ≠ 'u'.toUInt8 := by
                    rintro rfl
                    exact hu hc
                  obtain ⟨d, hd⟩ := Option.isSome_iff_exists.mp
                    ((escapeChars_iff c).mp ⟨hchar, hne⟩)
                  rw [hc, Option.bind_some, hd] at h
                  obtain ⟨body, s', hbody, hstring, rfl⟩ :=
                    ih (spans_nil (by omega) hspan'.le) h
                  refine ⟨92 :: c :: body, d :: s', hspan'.trans hbody, .escape hd hstring, ?_⟩
                  rw [List.nil_append, List.append_assoc, List.append_assoc]
                  rfl
                · cases h
            · rename_i hescape
              split at h
              · rename_i hquote
                subst hquote
                cases h
                exact ⟨[], [], hspan, .nil, by rw [List.append_nil]⟩
              · rename_i hquote
                obtain ⟨body, s', hbody, hstring, rfl⟩ := ih (hplain.trans hspan) h
                refine ⟨x :: body, x :: s', hspan.trans hbody, ?_, ?_⟩
                · exact .plain (UInt8.not_lt.mp hcontrol) hquote hescape hstring
                · rw [List.append_assoc]
                  rfl

/-- A round of the loop at an escape of code units. -/
theorem parseStringLoop_unicode {str hex utf8 res : Bytes} {i fuel j k : Nat}
    (hspan : Spans str j (j + 2) (text "\\u")) (hmatch : matchEscape str (j + 2) = some hex)
    (hutf8 : parseUnicodeEscape hex = .ok utf8) :
    parseStringLoop str i (fuel + 1) res j k =
      parseStringLoop str i fuel (res ++ sub str k (j - 1) ++ utf8) (j + 2 + hex.length)
        (j + 2 + hex.length) := by
  have hu : at? str (j + 1) = some 'u'.toUInt8 := (Spans.split (t := [92]) hspan).2.at?
  conv => left; unfold parseStringLoop
  rw [hspan.at?]
  dsimp only
  rw [if_neg (by decide), if_pos (by decide), hu, if_pos rfl, hmatch]
  dsimp only
  rw [hutf8]
  dsimp only
  rw [show j + 1 + hex.length + 1 = j + 2 + hex.length by omega]

theorem parseStringLoop_escape {str res : Bytes} {i fuel j k : Nat} {c d : UInt8}
    (hspan : Spans str j (j + 2) [92, c]) (hd : escapeCharMapInv c = some d) :
    parseStringLoop str i (fuel + 1) res j k =
      parseStringLoop str i fuel (res ++ sub str k (j - 1) ++ [d]) (j + 2) (j + 2) := by
  have hc : at? str (j + 1) = some c := (Spans.split (t := [92]) hspan).2.at?
  obtain ⟨hchar, hne⟩ := (escapeChars_iff c).mpr (Option.isSome_iff_exists.mpr ⟨d, hd⟩)
  conv => left; unfold parseStringLoop
  rw [hspan.at?]
  dsimp only
  rw [if_neg (by decide), if_pos (by decide), hc, if_neg (fun heq => hne (Option.some.inj heq)),
    if_pos (by rw [Option.any_some, hchar]), Option.bind_some, hd]
  rfl

theorem parseStringLoop_complete {str : Bytes} {i : Nat} {body s : Bytes}
    (hstring : IsStringBody body s) :
    ∀ {fuel : Nat} {res plain : Bytes} {j j' k : Nat}, body.length < fuel →
      Spans str k j plain →
      Spans str j j' (body ++ [34]) →
      parseStringLoop str i fuel res j k = .ok (res ++ (plain ++ s), j') := by
  induction hstring with
  | nil =>
      intro fuel res plain j j' k hfuel hplain hbody
      obtain ⟨fuel, rfl⟩ := Nat.exists_eq_succ_of_ne_zero (Nat.ne_of_gt hfuel)
      unfold parseStringLoop
      rw [hbody.at?, hplain.sub, hbody.index, List.append_nil]
      rfl
  | @plain c body s hcontrol hquote hescape hstring ih =>
      intro fuel res plain j j' k hfuel hplain hbody
      obtain ⟨fuel, rfl⟩ :=
        Nat.exists_eq_succ_of_ne_zero (Nat.ne_of_gt (Nat.zero_lt_of_lt hfuel))
      obtain ⟨hc, hrest⟩ : Spans str j (j + 1) [c] ∧ Spans str (j + 1) j' (body ++ [34]) :=
        Spans.split (t := [c]) hbody
      conv => left; unfold parseStringLoop
      rw [hc.at?]
      dsimp only
      rw [if_neg (UInt8.not_lt.mpr hcontrol), if_neg hescape, if_neg hquote,
        ih (Nat.lt_of_succ_lt_succ hfuel) (hplain.trans hc) hrest, List.append_assoc]
      rfl
  | @escape c d body s hd hstring ih =>
      intro fuel res plain j j' k hfuel hplain hbody
      obtain ⟨fuel, rfl⟩ :=
        Nat.exists_eq_succ_of_ne_zero (Nat.ne_of_gt (Nat.zero_lt_of_lt hfuel))
      obtain ⟨hc, hrest⟩ :
          Spans str j (j + 2) [92, c] ∧ Spans str (j + 2) j' (body ++ [34]) :=
        Spans.split (t := [92, c]) hbody
      have hlt : body.length < fuel := by
        simp only [List.length_cons] at hfuel
        omega
      rw [parseStringLoop_escape hc hd, hplain.sub,
        ih hlt (spans_nil hc.end_pos hc.le) hrest]
      simp only [List.append_assoc, List.nil_append, List.singleton_append]
  | @unicode hex body s utf8 n hhex hlone hutf8 hstring ih =>
      intro fuel res plain j j' k hfuel hplain hbody
      obtain ⟨fuel, rfl⟩ :=
        Nat.exists_eq_succ_of_ne_zero (Nat.ne_of_gt (Nat.zero_lt_of_lt hfuel))
      rw [List.append_assoc, List.append_assoc] at hbody
      obtain ⟨hu, hwhole⟩ : Spans str j (j + 2) (text "\\u") ∧
          Spans str (j + 2) j' (hex ++ (body ++ [34])) := Spans.split hbody
      obtain ⟨hdigits, hrest⟩ := hwhole.split
      obtain ⟨rest, hreads, -⟩ := hwhole
      rw [List.append_assoc, List.append_assoc, List.singleton_append] at hreads
      have hmatch : matchEscape str (j + 2) = some hex :=
        matchEscape_single hhex (by rwa [escapeFollows_append_iff]) hreads.drop
      have hlt : body.length < fuel := by
        have := hhex.length
        simp only [List.length_append] at hfuel
        omega
      rw [parseStringLoop_unicode hu hmatch ((parseUnicodeEscape_single hhex).trans hutf8),
        hplain.sub, ih hlt (spans_nil hdigits.end_pos hdigits.le) hrest]
      simp only [List.append_assoc, List.nil_append]
  | @pair high low body s utf8 m n hhigh hm hlow hutf8 hstring ih =>
      intro fuel res plain j j' k hfuel hplain hbody
      obtain ⟨fuel, rfl⟩ :=
        Nat.exists_eq_succ_of_ne_zero (Nat.ne_of_gt (Nat.zero_lt_of_lt hfuel))
      rw [List.append_assoc] at hbody
      obtain ⟨hu, hwhole⟩ : Spans str j (j + 2) (text "\\u") ∧ Spans str (j + 2) j'
          ((high ++ (text "\\u" ++ (low ++ body))) ++ [34]) := Spans.split hbody
      rw [show (high ++ (text "\\u" ++ (low ++ body))) ++ [34] =
        (high ++ (text "\\u" ++ low)) ++ (body ++ [34]) by simp only [List.append_assoc]] at hwhole
      obtain ⟨hdigits, hrest⟩ := hwhole.split
      obtain ⟨rest, hreads, -⟩ := hwhole
      have hdrop : str.drop (j + 2 - 1) =
          high ++ (text "\\u" ++ (low ++ (body ++ [34] ++ rest))) := by
        rw [hreads.drop]
        simp only [List.append_assoc]
      have hmatch := matchEscape_pair hhigh hm hlow hdrop
      have hlt : body.length < fuel := by
        have := hhigh.length
        simp only [List.length_append] at hfuel
        omega
      rw [parseStringLoop_unicode hu hmatch ((parseUnicodeEscape_pair hhigh hlow).trans hutf8),
        hplain.sub, ih hlt (spans_nil hdigits.end_pos hdigits.le) hrest]
      simp only [List.append_assoc, List.nil_append]

/-- What `parse_string` returns is the string of the literal it read. -/
theorem parseString_sound {str s : Bytes} {i j : Nat} (hi : 0 < i) (hquote : at? str i = some 34)
    (h : parseString str i = .ok (s, j)) :
    ∃ body, Spans str i j (34 :: (body ++ [34])) ∧ IsStringBody body s := by
  have hfirst := spans_single hi hquote
  obtain ⟨body, s', hbody, hstring, rfl⟩ :=
    parseStringLoop_sound (str.length + 1) (spans_nil hfirst.end_pos hfirst.le) h
  exact ⟨body, hfirst.trans hbody, hstring⟩

/-- A literal is read to its closing quote. -/
theorem parseString_complete {str body s : Bytes} {i j : Nat} (hstring : IsStringBody body s)
    (h : Spans str i j (34 :: (body ++ [34]))) : parseString str i = .ok (s, j) := by
  obtain ⟨hfirst, hrest⟩ : Spans str i (i + 1) [34] ∧ Spans str (i + 1) j (body ++ [34]) :=
    Spans.split (t := [34]) h
  have hlt : body.length < str.length + 1 := by
    have hindex := hrest.index
    have hle := hrest.le
    rw [List.length_append] at hindex
    omega
  exact parseStringLoop_complete hstring hlt (spans_nil hfirst.end_pos hfirst.le) hrest

end LoginServer.Lib
