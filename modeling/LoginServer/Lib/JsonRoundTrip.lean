import LoginServer.Database.Tables
import LoginServer.Lib.JsonDocument
import LoginServer.Lib.JsonParse

/-!
# `json.decode` of what `json.encode` wrote

The text of a tree is a text of the decoder's language, whatever bytes its
strings and keys have: quotes, escapes and control characters are escaped, and
all other bytes are read as they stand.  Numbers are read as far as
`string.format('%.14g', x)` says what they are.

## Main results

* `isStringBody_escaped` — a string is read back.
* `decode_render` — a tree is read back.
* `render_printable` — no control character is written, so a text is never cut
  at a zero.
-/

namespace LoginServer.Lib

open LoginServer.Network (Bytes text toDecimal toSignedDecimal)

/-! ## Strings -/

/-- The letters of `c` between the quotes. -/
def escaped (c : UInt8) : Bytes := if isEscaped c then escapeChar c else [c]

theorem encodeString_eq (s : Bytes) : encodeString s = 34 :: (s.flatMap escaped ++ [34]) := rfl

theorem escapeCharMapInv_of_escapeCharMap {c d : UInt8} (h : escapeCharMap c = some d) :
    escapeCharMapInv d = some c := by
  unfold escapeCharMap at h
  split_ifs at h <;> cases h <;> subst_vars <;> rfl

theorem hexDigit?_hexDigit : ∀ n < 16, hexDigit? (hexDigit n) = some n := by decide

theorem hex4_formatU04x {n : Nat} (h : n < 0x10000) :
    ∃ hex, formatU04x n = text "u" ++ hex ∧ Hex4 hex n := by
  refine ⟨_, rfl, hex4_iff.mpr ⟨_, _, _, _, _, _, _, _, rfl, hexDigit?_hexDigit _ (by omega),
    hexDigit?_hexDigit _ (by omega), hexDigit?_hexDigit _ (by omega),
    hexDigit?_hexDigit _ (by omega), by omega⟩⟩

theorem isStringBody_escaped_cons {c : UInt8} {body s : Bytes} (h : IsStringBody body s) :
    IsStringBody (escaped c ++ body) (c :: s) := by
  unfold escaped
  split
  · rename_i hescaped
    unfold escapeChar
    cases hmap : escapeCharMap c with
    | some d => exact IsStringBody.escape (escapeCharMapInv_of_escapeCharMap hmap) h
    | none =>
        have hcontrol : c.toNat < 32 := by
          have hmap' := hmap
          unfold escapeCharMap at hmap'
          split_ifs at hmap' with hbackslash hquote
          simpa [isEscaped, hbackslash, hquote, UInt8.lt_iff_toNat_lt] using hescaped
        obtain ⟨hex, heq, hhex⟩ := hex4_formatU04x (n := c.toNat) (by omega)
        have hutf8 : codepointToUtf8 c.toNat = .ok [c] := by
          rw [codepointToUtf8, if_pos (by omega)]
          simp [byteOf]
        have hlone : ¬ (IsHigh c.toNat ∧ EscapeFollows body) := by
          rintro ⟨hhigh, -⟩
          have := hhigh.1
          omega
        have hbody := IsStringBody.unicode hhex hlone hutf8 h
        have hsplit : text "\\u" = text "\\" ++ text "u" := rfl
        rw [hsplit] at hbody
        simpa [heq] using hbody
  · rename_i hplain
    simp only [isEscaped, Bool.or_eq_true, decide_eq_true_eq, not_or, UInt8.not_lt] at hplain
    exact IsStringBody.plain hplain.1.1 hplain.2 hplain.1.2 h

theorem isStringBody_escaped (s : Bytes) : IsStringBody (s.flatMap escaped) s := by
  induction s with
  | nil => exact IsStringBody.nil
  | cons c s ih =>
      rw [List.flatMap_cons]
      exact isStringBody_escaped_cons ih

/-- No byte is a control character. -/
def Printable (s : Bytes) : Prop := ∀ c ∈ s, 32 ≤ c

instance (s : Bytes) : Decidable (Printable s) := List.decidableBAll (32 ≤ ·) s

theorem hexDigit_printable : ∀ n < 16, 32 ≤ hexDigit n := by decide

theorem escapeCharMap_printable {c d : UInt8} (h : escapeCharMap c = some d) : 32 ≤ d := by
  unfold escapeCharMap at h
  split_ifs at h <;> cases h <;> decide

theorem escapeChar_printable (c : UInt8) : Printable (escapeChar c) := by
  intro d hd
  have hlt : c.toNat < 256 := c.toNat_lt
  rcases List.mem_append.mp hd with hd | hd
  · rw [List.mem_singleton.mp hd]
    decide
  cases hmap : escapeCharMap c with
  | some d' =>
      rw [hmap] at hd
      rw [List.mem_singleton.mp hd]
      exact escapeCharMap_printable hmap
  | none =>
      rw [hmap] at hd
      rcases List.mem_append.mp hd with hd | hd
      · rw [List.mem_singleton.mp hd]
        decide
      · simp only [List.mem_cons, List.not_mem_nil, or_false] at hd
        rcases hd with rfl | rfl | rfl | rfl <;> exact hexDigit_printable _ (by omega)

theorem encodeString_printable (s : Bytes) : Printable (encodeString s) := by
  intro d hd
  simp only [encodeString_eq, List.mem_cons, List.mem_append, List.mem_flatMap,
    List.not_mem_nil, or_false] at hd
  rcases hd with rfl | ⟨c, -, hc⟩ | rfl
  · decide
  · unfold escaped at hc
    split at hc
    · exact escapeChar_printable c d hc
    · rename_i hplain
      simp only [isEscaped, Bool.or_eq_true, decide_eq_true_eq, not_or, UInt8.not_lt] at hplain
      rw [List.mem_singleton.mp hc]
      exact hplain.1.1
  · decide

/-! ## Trees -/

/-- What `string.format('%.14g', x)` prints is a decimal numeral, and `tonumber`
reads it; a whole number of at most fourteen digits is printed digit by digit. -/
structure Numerals.Documented (numerals : Numerals) : Prop where
  chars : ∀ x, ∀ c ∈ numerals.format x, c ∈ text "0123456789+-.e"
  first : ∀ x, ∃ c ∈ (numerals.format x).head?, c ∈ text "0123456789-"
  reads : ∀ x, ∃ n, numerals.tonumber (numerals.format x) = some n
  whole : ∀ n : Nat, n < 10 ^ 14 → numerals.format n = toDecimal n
  tonumber_whole : ∀ n : Nat, n < 10 ^ 14 → numerals.tonumber (toDecimal n) = some (.finite n)

/-! ### Numerals of whole numbers -/

/-- The conversions, as far as they are about whole numbers. -/
def wholeNumerals : Numerals where
  tonumber s :=
    let negative := s.head? = some '-'.toUInt8
    let digits := if negative then s.tail else s
    if digits ≠ [] ∧ ∀ byte ∈ digits, isDigit byte then
      some (.finite (if negative then -(decimalValue digits : Rat) else decimalValue digits))
    else none
  format x := toSignedDecimal x.floor

theorem mem_digits {byte : UInt8} (h : isDigit byte) : byte ∈ text "0123456789" := by
  have hall : ∀ n < 58, 48 ≤ n → UInt8.ofNat n ∈ text "0123456789" := by decide
  have hmem := hall byte.toNat (Nat.lt_succ_of_le h.2) h.1
  rwa [UInt8.ofNat_toNat] at hmem

theorem head_of_decimal {digits : Bytes} {n : Nat} (h : Decimal digits n) :
    ∃ c ∈ digits.head?, isDigit c := by
  cases digits with
  | nil => exact absurd rfl h.nonempty
  | cons c digits => exact ⟨c, rfl, h.digits c List.mem_cons_self⟩

theorem wholeNumerals_tonumber {digits : Bytes} {n : Nat} (h : Decimal digits n) :
    wholeNumerals.tonumber digits = some (.finite n) := by
  obtain ⟨c, hc, hdigit⟩ := head_of_decimal h
  have hpositive : ¬ digits.head? = some '-'.toUInt8 := by
    intro hminus
    rw [Option.mem_def.mp hc] at hminus
    cases hminus
    exact absurd hdigit (by decide)
  simp only [wholeNumerals, if_neg hpositive]
  rw [if_pos ⟨h.nonempty, h.digits⟩, h.value]

theorem wholeNumerals_tonumber_neg {digits : Bytes} {n : Nat} (h : Decimal digits n) :
    wholeNumerals.tonumber (text "-" ++ digits) = some (.finite (-(n : Rat))) := by
  have hnegative : (text "-" ++ digits).head? = some '-'.toUInt8 := rfl
  simp only [wholeNumerals, if_pos hnegative]
  rw [show (text "-" ++ digits).tail = digits from rfl, if_pos ⟨h.nonempty, h.digits⟩, h.value]

theorem wholeNumerals_documented : wholeNumerals.Documented := by
  have hsigned : ∀ x : Rat, (∃ n, wholeNumerals.format x = toDecimal n) ∨
      ∃ n, wholeNumerals.format x = text "-" ++ toDecimal n := by
    intro x
    show (∃ n, toSignedDecimal x.floor = _) ∨ ∃ n, toSignedDecimal x.floor = _
    cases x.floor with
    | ofNat n => exact Or.inl ⟨n, rfl⟩
    | negSucc n => exact Or.inr ⟨n + 1, rfl⟩
  have hdigits : ∀ n, ∀ c ∈ toDecimal n, c ∈ text "0123456789" := fun n c hc =>
    mem_digits ((toDecimal_decimal n).digits c hc)
  have hsubset : ∀ c ∈ text "0123456789", c ∈ text "0123456789+-.e" :=
      List.all_iff_forall_prop.mp (by decide)
  have hsubset' : ∀ c ∈ text "0123456789", c ∈ text "0123456789-" :=
      List.all_iff_forall_prop.mp (by decide)
  constructor
  · intro x c hc
    rcases hsigned x with ⟨n, hn⟩ | ⟨n, hn⟩
    · exact hsubset c (hdigits n c (hn ▸ hc))
    · rw [hn] at hc
      rcases List.mem_append.mp hc with hc | hc
      · rw [List.mem_singleton.mp hc]
        decide
      · exact hsubset c (hdigits n c hc)
  · intro x
    rcases hsigned x with ⟨n, hn⟩ | ⟨n, hn⟩
    · obtain ⟨c, hc, hdigit⟩ := head_of_decimal (toDecimal_decimal n)
      exact ⟨c, hn ▸ hc, hsubset' c (mem_digits hdigit)⟩
    · exact ⟨'-'.toUInt8, by rw [hn]; rfl, by decide⟩
  · intro x
    rcases hsigned x with ⟨n, hn⟩ | ⟨n, hn⟩
    · exact ⟨_, hn ▸ wholeNumerals_tonumber (toDecimal_decimal n)⟩
    · exact ⟨_, hn ▸ wholeNumerals_tonumber_neg (toDecimal_decimal n)⟩
  · intro n _
    show toSignedDecimal (n : Rat).floor = toDecimal n
    have hfloor : (n : Rat).floor = Int.ofNat n := Rat.floor_intCast n
    rw [hfloor]
    rfl
  · exact fun n _ => wholeNumerals_tonumber (toDecimal_decimal n)

section
variable (numerals : Numerals)

/-- The number that is read for a number that was written. -/
def Numerals.reread (x : Rat) : Number := (numerals.tonumber (numerals.format x)).getD .nan

mutual

/-- What is read for a tree that was written. -/
def Document.read : Document → Tree
  | .null => .nil
  | .boolean value => .boolean value
  | .number value => .number (numerals.reread value)
  | .string value => .string value
  | .array items => .table (fillIndices [] 1 (Document.readItems items))
  | .object fields => .table (fillNames [] (Document.readFields fields))

def Document.readItems : List Document → List Tree
  | [] => []
  | item :: items => item.read :: Document.readItems items

def Document.readFields : List (Bytes × Document) → List (Bytes × Tree)
  | [] => []
  | (k, v) :: fields => (k, v.read) :: Document.readFields fields

end

theorem readItems_eq (items : List Document) :
    Document.readItems numerals items = items.map (Document.read numerals) := by
  induction items with
  | nil => rfl
  | cons item items ih => rw [Document.readItems, ih, List.map_cons]

theorem readFields_eq (fields : List (Bytes × Document)) :
    Document.readFields numerals fields =
      fields.map fun field => (field.1, field.2.read numerals) := by
  induction fields with
  | nil => rfl
  | cons field fields ih => rw [Document.readFields, ih, List.map_cons]

theorem concat_cons_cons (s s' : Bytes) (res : List Bytes) :
    concat (s :: s' :: res) = s ++ (text "," ++ concat (s' :: res)) := by
  simp [concat, List.intercalate]

theorem concat_single (s : Bytes) : concat [s] = s := by simp [concat, List.intercalate]

theorem space_nil : Space [] := fun _ h => (List.not_mem_nil h).elim

end

section
variable {numerals : Numerals}

theorem Numerals.Documented.isValue (h : numerals.Documented) (x : Rat) :
    IsValue numerals (numerals.format x) (.number (numerals.reread x)) := by
  obtain ⟨c, hhead, hc⟩ := h.first x
  obtain ⟨n, hn⟩ := h.reads x
  have hreread : numerals.reread x = n := by rw [Numerals.reread, hn, Option.getD_some]
  rw [hreread]
  have hnumber : ∀ c ∈ text "0123456789-", charFuncMap c = some .number :=
      List.all_iff_forall_prop.mp (by decide)
  have htoken : ∀ c ∈ text "0123456789+-.e", delimChars c = false :=
      List.all_iff_forall_prop.mp (by decide)
  refine IsValue.number ?_ (fun c hc => htoken c (h.chars x c hc)) hn
  rw [Option.mem_def.mp hhead]
  exact hnumber c hc

theorem isField_render {k t : Bytes} {x : Tree} (h : IsValue numerals t x) :
    IsField numerals (encodeString k ++ (text ":" ++ t)) (k, x) := by
  have hfield := IsField.mk space_nil (isStringBody_escaped k) space_nil space_nil h
  rw [encodeString_eq]
  simpa using hfield

mutual

/-- What was written for a tree is the text of a value. -/
theorem isValue_render (h : numerals.Documented) :
    ∀ d : Document, IsValue numerals (d.render numerals) (d.read numerals)
  | .null => IsValue.literal (show literals (text "null") = true from rfl)
  | .boolean true => IsValue.literal (show literals (text "true") = true from rfl)
  | .boolean false => IsValue.literal (show literals (text "false") = true from rfl)
  | .number value => h.isValue value
  | .string value => IsValue.string (isStringBody_escaped value)
  | .array items => IsValue.array (isArrayBody_renderItems h items)
  | .object fields => IsValue.object (isObjectBody_renderFields h fields)

theorem isArrayBody_renderItems (h : numerals.Documented) :
    ∀ items : List Document, IsArrayBody numerals
      (concat (Document.renderItems numerals items)) (Document.readItems numerals items)
  | [] => IsArrayBody.empty space_nil
  | [item] => by
      have hlast := IsArrayBody.last space_nil (isValue_render h item) space_nil
      rw [List.nil_append, List.append_nil] at hlast
      exact (concat_single _).symm ▸ hlast
  | item :: item' :: items => by
      have hcons := IsArrayBody.cons space_nil (isValue_render h item) space_nil
        (isArrayBody_renderItems h (item' :: items))
      rw [List.nil_append, List.nil_append] at hcons
      exact concat_cons_cons _ _ _ ▸ hcons

theorem isObjectBody_renderFields (h : numerals.Documented) :
    ∀ fields : List (Bytes × Document), IsObjectBody numerals
      (concat (Document.renderFields numerals fields)) (Document.readFields numerals fields)
  | [] => IsObjectBody.empty space_nil
  | [(k, v)] => by
      have hlast := IsObjectBody.last (isField_render (k := k) (isValue_render h v)) space_nil
      rw [List.append_nil] at hlast
      exact (concat_single _).symm ▸ hlast
  | (k, v) :: field :: fields => by
      have hcons := IsObjectBody.cons (isField_render (k := k) (isValue_render h v)) space_nil
        (isObjectBody_renderFields h (field :: fields))
      rw [List.nil_append] at hcons
      exact concat_cons_cons _ _ _ ▸ hcons

end

/-- A tree is read back. -/
theorem decode_render (h : numerals.Documented) (d : Document) :
    decode numerals (d.render numerals) = .ok (d.read numerals) := by
  apply decode_complete
  exact ⟨[], _, [], space_nil, isValue_render h d, space_nil,
    by rw [List.nil_append, List.append_nil]⟩

/-! ## No control characters -/

theorem mem_concat {res : List Bytes} {c : UInt8} (h : c ∈ concat res) :
    c ∈ text "," ∨ ∃ s ∈ res, c ∈ s := by
  induction res with
  | nil => exact (List.not_mem_nil h).elim
  | cons s res ih =>
      cases res with
      | nil =>
          rw [concat_single] at h
          exact Or.inr ⟨s, List.mem_cons_self, h⟩
      | cons s' res =>
          rw [concat_cons_cons, List.mem_append, List.mem_append] at h
          rcases h with h | h | h
          · exact Or.inr ⟨s, List.mem_cons_self, h⟩
          · exact Or.inl h
          · rcases ih h with h | ⟨u, hu, h⟩
            · exact Or.inl h
            · exact Or.inr ⟨u, List.mem_cons_of_mem _ hu, h⟩

theorem Printable.append {s t : Bytes} (hs : Printable s) (ht : Printable t) :
    Printable (s ++ t) := by
  intro c hc
  rcases List.mem_append.mp hc with hc | hc
  · exact hs c hc
  · exact ht c hc

theorem Printable.concat {res : List Bytes} (h : ∀ s ∈ res, Printable s) :
    Printable (concat res) := by
  intro c hc
  have hcomma : Printable (text ",") := by decide
  rcases mem_concat hc with hc | ⟨s, hs, hc⟩
  · exact hcomma c hc
  · exact h s hs c hc

theorem Numerals.Documented.printable (h : numerals.Documented) (x : Rat) :
    Printable (numerals.format x) := by
  have hchars : Printable (text "0123456789+-.e") := by decide
  exact fun c hc => hchars c (h.chars x c hc)

mutual

/-- A text that was written has no control characters. -/
theorem render_printable (h : numerals.Documented) :
    ∀ d : Document, Printable (d.render numerals)
  | .null => show Printable (text "null") by decide
  | .boolean true => show Printable (text "true") by decide
  | .boolean false => show Printable (text "false") by decide
  | .number value => h.printable value
  | .string value => encodeString_printable value
  | .array items =>
      Printable.append (show Printable (text "[") by decide)
        (Printable.append (Printable.concat (renderItems_printable h items))
          (show Printable (text "]") by decide))
  | .object fields =>
      Printable.append (show Printable (text "\x7b") by decide)
        (Printable.append (Printable.concat (renderFields_printable h fields))
          (show Printable (text "\x7d") by decide))

theorem renderItems_printable (h : numerals.Documented) :
    ∀ items : List Document, ∀ s ∈ Document.renderItems numerals items, Printable s
  | [], _, hs => (List.not_mem_nil hs).elim
  | item :: items, s, hs => by
      rcases List.mem_cons.mp hs with rfl | hs
      · exact render_printable h item
      · exact renderItems_printable h items s hs

theorem renderFields_printable (h : numerals.Documented) :
    ∀ fields : List (Bytes × Document), ∀ s ∈ Document.renderFields numerals fields,
      Printable s
  | [], _, hs => (List.not_mem_nil hs).elim
  | (k, v) :: fields, s, hs => by
      rcases List.mem_cons.mp hs with rfl | hs
      · exact Printable.append (encodeString_printable k)
          (Printable.append (show Printable (text ":") by decide) (render_printable h v))
      · exact renderFields_printable h fields s hs

end

/-- A text that was written is not cut at a zero. -/
theorem cString_render (h : numerals.Documented) (d : Document) :
    cString (d.render numerals) = d.render numerals := by
  apply cString_eq_iff.mpr
  intro hzero
  exact absurd (render_printable h d 0 hzero) (by decide)

theorem render_ne_nil (h : numerals.Documented) (d : Document) : d.render numerals ≠ [] := by
  obtain ⟨c, u, hstarts, -⟩ := (isValue_render h d).starts
  rw [hstarts]
  exact List.cons_ne_nil c u

end

end LoginServer.Lib
