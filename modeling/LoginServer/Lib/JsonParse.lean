import LoginServer.Lib.JsonStrings

/-!
# `json.decode` reads its language

The parsers of `json.lua` against the grammar: what they return has been
read, and what the grammar derives they do not refuse.  A value needs nothing
of what follows but that a number or a literal ends there, and in every place
the grammar has for a value it does.

## Main results

* `decode_eq_ok_iff` — the texts `json.decode` returns for, and its values.
* `parsers_sound`, `parsers_complete` — the same for the parsers inside a text.
-/

namespace LoginServer.Lib

open LoginServer.Network (Bytes text)
open LoginServer.Verified.OneBased

/-! ## Characters -/

theorem charFuncMap_string_iff (c : UInt8) : charFuncMap c = some .string ↔ c = 34 := by
  constructor
  · intro h
    unfold charFuncMap at h
    split_ifs at h <;> first | assumption | cases h
  · rintro rfl
    decide

theorem charFuncMap_array_iff (c : UInt8) : charFuncMap c = some .array ↔ c = '['.toUInt8 := by
  constructor
  · intro h
    unfold charFuncMap at h
    split_ifs at h <;> first | assumption | cases h
  · rintro rfl
    decide

theorem charFuncMap_object_iff (c : UInt8) : charFuncMap c = some .object ↔ c = '{'.toUInt8 := by
  constructor
  · intro h
    unfold charFuncMap at h
    split_ifs at h <;> first | assumption | cases h
  · rintro rfl
    decide

/-- A character a value starts with. -/
def StartsValue (c : UInt8) : Prop := (charFuncMap c).isSome = true

instance : DecidablePred StartsValue := fun _ => inferInstanceAs (Decidable (_ = true))

theorem startsValue_not_delim (c : UInt8) (h : StartsValue c) : delimChars c = false := by
  have hall : ∀ c ∈ text " \t\r\n]\x7d,", ¬ StartsValue c :=
    List.all_iff_forall_prop.mp (by decide)
  exact decide_eq_false fun hmem => hall c hmem h

theorem startsValue_not_space (c : UInt8) (h : StartsValue c) : spaceChars c = false := by
  have hall : ∀ c ∈ text " \t\r\n", ¬ StartsValue c := List.all_iff_forall_prop.mp (by decide)
  exact decide_eq_false fun hmem => hall c hmem h

theorem delimChars_of_space (c : UInt8) (h : spaceChars c = true) : delimChars c = true := by
  have hall : ∀ c ∈ text " \t\r\n", delimChars c = true :=
    List.all_iff_forall_prop.mp (by decide)
  exact hall c (of_decide_eq_true h)

section
variable {str : Bytes} {i j : Nat}

/-- `next_char` over white space. -/
theorem spans_space (hpos : 0 < i) (hle : i ≤ str.length + 1) :
    ∃ a, Spans str i (nextChar str i spaceChars true) a ∧ Space a := by
  obtain ⟨a, hspan, ha⟩ := spans_find (fun c => spaceChars c != true) hpos hle
  exact ⟨a, hspan, fun c hc => by simpa using ha c hc⟩

/-- `next_char` to the end of a token. -/
theorem spans_token {c : UInt8} (hpos : 0 < i) (hc : at? str i = some c)
    (hstart : delimChars c = false) :
    ∃ t, Spans str i (nextChar str i delimChars false) (c :: t) ∧
      ∀ d ∈ c :: t, delimChars d = false := by
  have hle : i ≤ str.length + 1 := by
    have := (spans_single hpos hc).le
    omega
  obtain ⟨t, hspan, ht⟩ := spans_find (fun c => delimChars c != false) hpos hle
  cases t with
  | nil =>
      have hstop := at_find (fun c => delimChars c != false) hpos hle
      rw [hspan.index] at hstop
      have := hstop c hc
      simp [hstart] at this
  | cons d t =>
      have hd : d = c := Option.some.inj (hspan.at?.symm.trans hc)
      subst hd
      exact ⟨t, hspan, fun c hc => by simpa using ht c hc⟩

theorem nextChar_space {a : Bytes} (h : Spans str i j a) (ha : Space a)
    (hnext : ∀ c ∈ at? str j, spaceChars c = false) : nextChar str i spaceChars true = j := by
  apply h.find
  · exact fun c hc => by simp [ha c hc]
  · exact fun c hc => by simp [hnext c hc]

theorem nextChar_token {t : Bytes} (h : Spans str i j t) (ht : ∀ c ∈ t, delimChars c = false)
    (hnext : ∀ c ∈ at? str j, delimChars c = true) : nextChar str i delimChars false = j := by
  apply h.find
  · exact fun c hc => by simp [ht c hc]
  · exact fun c hc => by simp [hnext c hc]

/-! ## Soundness -/

section
variable (numerals : Numerals)

theorem parseNumber_sound {c : UInt8} {x : Tree} (hpos : 0 < i) (hc : at? str i = some c)
    (hfirst : charFuncMap c = some .number) (h : parseNumber numerals str i = .ok (x, j)) :
    ∃ t, Spans str i j t ∧ IsValue numerals t x := by
  have hstart : StartsValue c := by rw [StartsValue, hfirst]; rfl
  obtain ⟨t, hspan, ht⟩ := spans_token hpos hc (startsValue_not_delim c hstart)
  unfold parseNumber at h
  dsimp only at h
  rw [hspan.sub] at h
  cases hvalue : numerals.tonumber (c :: t) with
  | none =>
      rw [hvalue] at h
      cases h
  | some n =>
      rw [hvalue] at h
      cases h
      exact ⟨c :: t, hspan, .number hfirst ht hvalue⟩

theorem parseLiteral_sound {c : UInt8} {x : Tree} (hpos : 0 < i) (hc : at? str i = some c)
    (hfirst : charFuncMap c = some .literal) (h : parseLiteral str i = .ok (x, j)) :
    ∃ t, Spans str i j t ∧ IsValue numerals t x := by
  have hstart : StartsValue c := by rw [StartsValue, hfirst]; rfl
  obtain ⟨t, hspan, -⟩ := spans_token hpos hc (startsValue_not_delim c hstart)
  unfold parseLiteral at h
  dsimp only at h
  rw [hspan.sub] at h
  split at h
  · rename_i hliteral
    cases h
    exact ⟨c :: t, hspan, .literal hliteral⟩
  · cases h

/-- What a run of `parse` with this much fuel returns. -/
def ValueSound (str : Bytes) (fuel : Nat) : Prop :=
  ∀ {i j : Nat} {x : Tree}, 0 < i → parse numerals str fuel i = .ok (x, j) →
    ∃ t, Spans str i j t ∧ IsValue numerals t x

def ArraySound (str : Bytes) (fuel : Nat) : Prop :=
  ∀ {i j n : Nat} {res : Entries} {x : Tree}, 0 < i → i ≤ str.length + 1 →
    parseArray numerals str fuel i res n = .ok (x, j) →
    ∃ t xs, Spans str i j (t ++ text "]") ∧ IsArrayBody numerals t xs ∧
      x = .table (fillIndices res n xs)

def ObjectSound (str : Bytes) (fuel : Nat) : Prop :=
  ∀ {i j : Nat} {res : Entries} {x : Tree}, 0 < i → i ≤ str.length + 1 →
    parseObject numerals str fuel i res = .ok (x, j) →
    ∃ t fields, Spans str i j (t ++ text "\x7d") ∧ IsObjectBody numerals t fields ∧
      x = .table (fillNames res fields)

variable {numerals} {fuel : Nat}

theorem valueSound_succ (harray : ArraySound numerals str fuel)
    (hobject : ObjectSound numerals str fuel) : ValueSound numerals str (fuel + 1) := by
  intro i j x hpos h
  unfold parse at h
  dsimp only at h
  cases hc : at? str i with
  | none =>
      rw [hc] at h
      cases h
  | some c =>
      have hspan := spans_single hpos hc
      rw [hc, Option.bind_some] at h
      cases hparser : charFuncMap c with
      | none =>
          rw [hparser] at h
          cases h
      | some parser =>
          rw [hparser] at h
          cases parser with
          | string =>
              dsimp only at h
              rw [(charFuncMap_string_iff c).mp hparser] at hc
              cases hs : parseString str i with
              | error e =>
                  rw [hs] at h
                  cases h
              | ok s =>
                  rw [hs] at h
                  cases h
                  obtain ⟨body, hbody, hstring⟩ := parseString_sound hpos hc hs
                  exact ⟨_, hbody, .string hstring⟩
          | number => exact parseNumber_sound numerals hpos hc hparser h
          | literal => exact parseLiteral_sound numerals hpos hc hparser h
          | array =>
              obtain ⟨t, xs, hbody, harr, rfl⟩ := harray hspan.end_pos hspan.le h
              rw [(charFuncMap_array_iff c).mp hparser] at hspan
              exact ⟨_, hspan.trans hbody, .array harr⟩
          | object =>
              obtain ⟨t, fields, hbody, hobj, rfl⟩ := hobject hspan.end_pos hspan.le h
              rw [(charFuncMap_object_iff c).mp hparser] at hspan
              exact ⟨_, hspan.trans hbody, .object hobj⟩

theorem arraySound_succ (hvalue : ValueSound numerals str fuel)
    (harray : ArraySound numerals str fuel) : ArraySound numerals str (fuel + 1) := by
  intro i j n res x hpos hle h
  obtain ⟨a, ha, hspace⟩ := spans_space hpos hle
  unfold parseArray at h
  dsimp only at h
  split at h
  · rename_i hclose
    cases h
    exact ⟨a, [], ha.trans (spans_single ha.end_pos hclose), .empty hspace, rfl⟩
  · cases hx : parse numerals str fuel (nextChar str i spaceChars true) with
    | error e =>
        rw [hx] at h
        cases h
    | ok result =>
        obtain ⟨y, k⟩ := result
        rw [hx] at h
        dsimp only at h
        obtain ⟨t, ht, hvalue⟩ := hvalue ha.end_pos hx
        obtain ⟨b, hb, hspace'⟩ := spans_space ht.end_pos ht.le
        split at h
        · rename_i hclose
          cases h
          refine ⟨a ++ (t ++ b), [y], ?_, .last hspace hvalue hspace', rfl⟩
          have hclose : Spans str _ _ (text "]") := spans_single hb.end_pos hclose
          have := ha.trans (ht.trans (hb.trans hclose))
          simpa only [List.append_assoc] using this
        · split at h
          · cases h
          · rename_i hcomma
            have hcomma : Spans str _ _ (text ",") := spans_single hb.end_pos (not_not.mp hcomma)
            obtain ⟨u, xs, hu, hrest, rfl⟩ := harray hcomma.end_pos hcomma.le h
            refine ⟨a ++ (t ++ (b ++ (text "," ++ u))), y :: xs, ?_,
              .cons hspace hvalue hspace' hrest, rfl⟩
            have := ha.trans (ht.trans (hb.trans (hcomma.trans hu)))
            simpa only [List.append_assoc] using this

theorem objectSound_succ (hvalue : ValueSound numerals str fuel)
    (hobject : ObjectSound numerals str fuel) : ObjectSound numerals str (fuel + 1) := by
  intro i j res x hpos hle h
  obtain ⟨a, ha, hspace⟩ := spans_space hpos hle
  unfold parseObject at h
  dsimp only at h
  split at h
  · rename_i hclose
    cases h
    exact ⟨a, [], ha.trans (spans_single ha.end_pos hclose), .empty hspace, rfl⟩
  · split at h
    · cases h
    · rename_i hquote
      cases hs : parseString str (nextChar str i spaceChars true) with
      | error e =>
          rw [hs] at h
          cases h
      | ok result =>
          obtain ⟨key, k⟩ := result
          rw [hs] at h
          dsimp only at h
          obtain ⟨body, hkey, hstring⟩ := parseString_sound ha.end_pos (not_not.mp hquote) hs
          obtain ⟨b, hb, hspace'⟩ := spans_space hkey.end_pos hkey.le
          split at h
          · cases h
          · rename_i hcolon
            have hcolon : Spans str _ _ (text ":") := spans_single hb.end_pos (not_not.mp hcolon)
            obtain ⟨c, hc, hspace''⟩ := spans_space hcolon.end_pos hcolon.le
            cases hx : parse numerals str fuel
                (nextChar str (nextChar str k spaceChars true + 1) spaceChars true) with
            | error e =>
                rw [hx] at h
                cases h
            | ok result =>
                obtain ⟨y, l⟩ := result
                rw [hx] at h
                dsimp only at h
                obtain ⟨t, ht, hvalue⟩ := hvalue hc.end_pos hx
                obtain ⟨d, hd, hspaced⟩ := spans_space ht.end_pos ht.le
                have hfield := ha.trans (hkey.trans (hb.trans (hcolon.trans (hc.trans ht))))
                have hmk : IsField numerals _ (key, y) :=
                  .mk hspace hstring hspace' hspace'' hvalue
                split at h
                · rename_i hclose
                  cases h
                  refine ⟨_, [(key, y)], ?_, .last hmk hspaced, rfl⟩
                  have hclose : Spans str _ _ (text "\x7d") := spans_single hd.end_pos hclose
                  have := hfield.trans (hd.trans hclose)
                  simpa only [List.append_assoc, List.cons_append, List.nil_append] using this
                · split at h
                  · cases h
                  · rename_i hcomma
                    have hcomma : Spans str _ _ (text ",") :=
                      spans_single hd.end_pos (not_not.mp hcomma)
                    obtain ⟨u, fields, hu, hrest, rfl⟩ := hobject hcomma.end_pos hcomma.le h
                    refine ⟨_, (key, y) :: fields, ?_, .cons hmk hspaced hrest, rfl⟩
                    have := hfield.trans (hd.trans (hcomma.trans hu))
                    simpa only [List.append_assoc, List.cons_append, List.nil_append] using this

/-- Every parser returns what it has read. -/
theorem parsers_sound (numerals : Numerals) (str : Bytes) (fuel : Nat) :
    ValueSound numerals str fuel ∧ ArraySound numerals str fuel ∧
      ObjectSound numerals str fuel := by
  induction fuel with
  | zero =>
      refine ⟨?_, ?_, ?_⟩
      · intro i j x _ h
        cases h
      · intro i j n res x _ _ h
        cases h
      · intro i j res x _ _ h
        cases h
  | succ fuel ih =>
      obtain ⟨hvalue, harray, hobject⟩ := ih
      exact ⟨valueSound_succ harray hobject, arraySound_succ hvalue harray,
        objectSound_succ hvalue hobject⟩

/-! ## Completeness -/

theorem literals_cases {word : Bytes} (h : literals word = true) :
    word = text "true" ∨ word = text "false" ∨ word = text "null" := of_decide_eq_true h

/-- A value is not empty, and its first character says which kind it is. -/
theorem IsValue.starts {t : Bytes} {x : Tree} (h : IsValue numerals t x) :
    ∃ c u, t = c :: u ∧ StartsValue c := by
  cases h with
  | string => exact ⟨34, _, rfl, by decide⟩
  | @number t n hfirst _ _ =>
      cases t with
      | nil => cases hfirst
      | cons c u =>
          have hc : charFuncMap c = some .number := hfirst
          exact ⟨c, u, rfl, by rw [StartsValue, hc]; rfl⟩
  | literal hword =>
      obtain rfl | rfl | rfl := literals_cases hword
      · exact ⟨_, _, rfl, by decide⟩
      · exact ⟨_, _, rfl, by decide⟩
      · exact ⟨_, _, rfl, by decide⟩
  | array => exact ⟨'['.toUInt8, _, rfl, by decide⟩
  | object => exact ⟨'{'.toUInt8, _, rfl, by decide⟩

/-- White space in front of a delimiter, or of the end. -/
theorem delim_of_space {a : Bytes} (h : Spans str i j a) (ha : Space a)
    (hnext : ∀ d ∈ at? str j, delimChars d = true) :
    ∀ d ∈ at? str i, delimChars d = true := by
  cases a with
  | nil =>
      have hindex : j = i := h.index
      rwa [hindex] at hnext
  | cons c a =>
      intro d hd
      rw [Option.some.inj (hd.symm.trans h.at?)]
      exact delimChars_of_space c (ha c List.mem_cons_self)

/-- What the parsers do with a word of the grammar and enough fuel. -/
def ValueComplete (numerals : Numerals) (str : Bytes) (fuel : Nat) : Prop :=
  ∀ {i j : Nat} {t : Bytes} {x : Tree}, IsValue numerals t x → Spans str i j t →
    (∀ c ∈ at? str j, delimChars c = true) → 2 * (str.length + 1 - i) + 1 ≤ fuel →
    parse numerals str fuel i = .ok (x, j)

def ArrayComplete (numerals : Numerals) (str : Bytes) (fuel : Nat) : Prop :=
  ∀ {i j n : Nat} {t : Bytes} {xs : List Tree} {res : Entries}, IsArrayBody numerals t xs →
    Spans str i j (t ++ text "]") → 2 * (str.length + 1 - i) + 2 ≤ fuel →
    parseArray numerals str fuel i res n = .ok (.table (fillIndices res n xs), j)

def ObjectComplete (numerals : Numerals) (str : Bytes) (fuel : Nat) : Prop :=
  ∀ {i j : Nat} {t : Bytes} {fields : List (Bytes × Tree)} {res : Entries},
    IsObjectBody numerals t fields → Spans str i j (t ++ text "\x7d") →
    2 * (str.length + 1 - i) + 2 ≤ fuel →
    parseObject numerals str fuel i res = .ok (.table (fillNames res fields), j)

theorem parseNumber_complete {t : Bytes} {n : Number} (hspan : Spans str i j t)
    (hnext : ∀ c ∈ at? str j, delimChars c = true) (htoken : ∀ c ∈ t, delimChars c = false)
    (hvalue : numerals.tonumber t = some n) : parseNumber numerals str i = .ok (.number n, j) := by
  unfold parseNumber
  dsimp only
  rw [nextChar_token hspan htoken hnext, hspan.sub, hvalue]

theorem parseLiteral_complete {word : Bytes} (hspan : Spans str i j word)
    (hnext : ∀ c ∈ at? str j, delimChars c = true) (hword : literals word = true) :
    parseLiteral str i = .ok (literalMap word, j) := by
  have htoken : ∀ c ∈ word, delimChars c = false := by
    obtain rfl | rfl | rfl := literals_cases hword <;>
      exact List.all_iff_forall_prop.mp (by decide)
  unfold parseLiteral
  dsimp only
  rw [nextChar_token hspan htoken hnext, hspan.sub, if_pos hword]

theorem valueComplete_succ (harray : ArrayComplete numerals str fuel)
    (hobject : ObjectComplete numerals str fuel) : ValueComplete numerals str (fuel + 1) := by
  intro i j t x h hspan hnext hfuel
  have hle := hspan.le
  have hindex := hspan.index
  unfold parse
  dsimp only
  cases h with
  | @string body s hstring =>
      rw [hspan.at?, Option.bind_some, show charFuncMap 34 = some .string from rfl]
      dsimp only
      rw [parseString_complete hstring hspan]
  | @number t n hfirst htoken hvalue =>
      cases t with
      | nil => cases hfirst
      | cons c u =>
          have hc : charFuncMap c = some .number := hfirst
          rw [hspan.at?, Option.bind_some, hc]
          exact parseNumber_complete hspan hnext htoken hvalue
  | literal hword =>
      have hparser : (at? str i).bind charFuncMap = some .literal := by
        obtain rfl | rfl | rfl := literals_cases hword
        · rw [Spans.at? hspan]; rfl
        · rw [Spans.at? hspan]; rfl
        · rw [Spans.at? hspan]; rfl
      rw [hparser]
      exact parseLiteral_complete hspan hnext hword
  | @array t xs hbody =>
      have hopen : at? str i = some '['.toUInt8 := Spans.at? hspan
      rw [hopen, Option.bind_some, show charFuncMap '['.toUInt8 = some .array from rfl]
      obtain ⟨hfirst, hrest⟩ :
          Spans str i (i + 1) (text "[") ∧ Spans str (i + 1) j (t ++ text "]") :=
        Spans.split hspan
      have hlt := hfirst.le
      exact harray hbody hrest (by omega)
  | @object t fields hbody =>
      have hopen : at? str i = some '{'.toUInt8 := Spans.at? hspan
      rw [hopen, Option.bind_some, show charFuncMap '{'.toUInt8 = some .object from rfl]
      obtain ⟨hfirst, hrest⟩ :
          Spans str i (i + 1) (text "\x7b") ∧ Spans str (i + 1) j (t ++ text "\x7d") :=
        Spans.split hspan
      have hlt := hfirst.le
      exact hobject hbody hrest (by omega)

/-- The white space in front of a character that is none. -/
theorem nextChar_front {a u : Bytes} {c : UInt8} {k : Nat} (h : Spans str i k (a ++ c :: u))
    (ha : Space a) (hc : spaceChars c = false) :
    ∃ i', i ≤ i' ∧ nextChar str i spaceChars true = i' ∧ at? str i' = some c ∧
      Spans str i' k (c :: u) := by
  obtain ⟨hfront, hrest⟩ := h.split
  refine ⟨_, Nat.le_add_right i a.length, nextChar_space hfront ha ?_, hrest.at?, hrest⟩
  intro d hd
  rw [Option.some.inj (hd.symm.trans hrest.at?)]
  exact hc

/-- No value starts with a delimiter. -/
theorem starts_ne_delim {c d : UInt8} (hc : StartsValue c) (hd : delimChars d = true) :
    some c ≠ some d := by
  intro heq
  have := startsValue_not_delim c hc
  rw [Option.some.inj heq, hd] at this
  cases this

/-- A value inside a bracket, and the character behind the white space that
follows it. -/
theorem value_front (hvalue : ValueComplete numerals str fuel) {t b u : Bytes} {x : Tree}
    {d : UInt8} {k : Nat} (ht : IsValue numerals t x) (hb : Space b) (hspace : spaceChars d = false)
    (hdelim : delimChars d = true) (hspan : Spans str i k (t ++ (b ++ d :: u)))
    (hfuel : 2 * (str.length + 1 - i) + 1 ≤ fuel) :
    ∃ j i', parse numerals str fuel i = .ok (x, j) ∧ i < i' ∧
      nextChar str j spaceChars true = i' ∧
      at? str i' = some d ∧ Spans str (i' + 1) k u := by
  obtain ⟨hspanx, hrest⟩ := hspan.split
  obtain ⟨i', hle, hnext, hat, hlast⟩ := nextChar_front hrest hb hspace
  obtain ⟨hspanb, hspand⟩ := hrest.split
  have hnextx : ∀ e ∈ at? str (i + t.length), delimChars e = true := by
    apply delim_of_space hspanb hb
    intro e he
    rwa [Option.some.inj (he.symm.trans hspand.at?)]
  obtain ⟨c, t', rfl, -⟩ := ht.starts
  refine ⟨_, i', hvalue ht hspanx hnextx hfuel, ?_, hnext, hat, ?_⟩
  · rw [List.length_cons] at hle
    omega
  · exact (Spans.split (t := [d]) hlast).2

theorem arrayComplete_succ (hvalue : ValueComplete numerals str fuel)
    (harray : ArrayComplete numerals str fuel) : ArrayComplete numerals str (fuel + 1) := by
  intro i j n t xs res h hspan hfuel
  have hle := hspan.le
  unfold parseArray
  dsimp only
  cases h with
  | empty ha =>
      obtain ⟨i', -, hnext, hat, hclose⟩ :=
        nextChar_front (c := ']'.toUInt8) hspan ha (by decide)
      rw [hnext, if_pos hat, hclose.index]
      rfl
  | @last a t b x ha ht hb =>
      obtain ⟨c, u, rfl, hc⟩ := ht.starts
      rw [List.append_assoc, List.append_assoc] at hspan
      obtain ⟨i', hi', hnext, hat, hrest⟩ :=
        nextChar_front hspan ha (startsValue_not_space c hc)
      obtain ⟨k, l, hparse, -, hnext', hat', hclose⟩ :=
        value_front hvalue (d := ']'.toUInt8) ht hb
        (by decide) (by decide) hrest (by omega)
      rw [hnext, hat, if_neg (starts_ne_delim hc (by decide)), hparse]
      dsimp only
      rw [hnext', hat', if_pos rfl, hclose.index]
      rfl
  | @cons a t b u x xs ha ht hb hu =>
      obtain ⟨c, u', rfl, hc⟩ := ht.starts
      rw [List.append_assoc, List.append_assoc, List.append_assoc, List.append_assoc] at hspan
      obtain ⟨i', hi', hnext, hat, hrest⟩ :=
        nextChar_front hspan ha (startsValue_not_space c hc)
      obtain ⟨k, l, hparse, hlt, hnext', hat', hrest'⟩ :=
        value_front hvalue (d := ','.toUInt8) ht hb (by decide) (by decide) hrest (by omega)
      have hl := hrest'.pos
      have hl' := hrest'.index
      rw [hnext, hat, if_neg (starts_ne_delim hc (by decide)), hparse]
      dsimp only
      rw [hnext', hat', if_neg (by decide), if_neg (by decide), harray hu hrest' (by omega)]
      rfl

/-- The same for a field: where the parsers are, piece by piece. -/
theorem field_front (hvalue : ValueComplete numerals str fuel) {t b u key : Bytes} {x : Tree}
    {d : UInt8} {k : Nat} (ht : IsField numerals t (key, x)) (hb : Space b)
    (hspace : spaceChars d = false) (hdelim : delimChars d = true)
    (hspan : Spans str i k (t ++ (b ++ d :: u))) (hfuel : 2 * (str.length + 1 - i) + 1 ≤ fuel) :
    ∃ i₁ i₂ i₃ i₄ j₁ j₂, nextChar str i spaceChars true = i₁ ∧
      at? str i₁ = some 34 ∧
      parseString str i₁ = .ok (key, j₁) ∧ nextChar str j₁ spaceChars true = i₂ ∧
      at? str i₂ = some ':'.toUInt8 ∧ nextChar str (i₂ + 1) spaceChars true = i₃ ∧
      parse numerals str fuel i₃ = .ok (x, j₂) ∧ nextChar str j₂ spaceChars true = i₄ ∧
      at? str i₄ = some d ∧ i < i₄ ∧ Spans str (i₄ + 1) k u := by
  obtain @⟨a, body, b', c', t, _, _, ha, hkey, hb', hc', hx⟩ := ht
  obtain ⟨c, u', rfl, hc⟩ := hx.starts
  have hwhole : Spans str i k (a ++ 34 :: (body ++ [34] ++ (b' ++ ':'.toUInt8 ::
      (c' ++ (c :: u' ++ (b ++ d :: u)))))) := by
    have htext : text ":" = [':'.toUInt8] := rfl
    simpa only [htext, List.append_assoc, List.cons_append, List.nil_append] using hspan
  obtain ⟨i₁, hi₁, hnext₁, hat₁, hrest₁⟩ := nextChar_front hwhole ha (by decide)
  obtain ⟨hspanKey, hrest₂⟩ := Spans.split (t := 34 :: (body ++ [34])) hrest₁
  obtain ⟨i₂, hi₂, hnext₂, hat₂, hrest₃⟩ := nextChar_front hrest₂ hb' (by decide)
  have hcolon : Spans str (i₂ + 1) k (c' ++ (c :: (u' ++ (b ++ d :: u)))) :=
    (Spans.split (t := [':'.toUInt8]) hrest₃).2
  obtain ⟨i₃, hi₃, hnext₃, -, hrest₄⟩ :=
    nextChar_front hcolon hc' (startsValue_not_space c hc)
  obtain ⟨j₂, i₄, hparse, hi₄, hnext₄, hat₄, hrest₅⟩ :=
    value_front hvalue hx hb hspace hdelim hrest₄ (by omega)
  refine ⟨i₁, i₂, i₃, i₄, _, j₂, hnext₁, hat₁, parseString_complete hkey hspanKey,
    hnext₂, hat₂,
    hnext₃, hparse, hnext₄, hat₄, by omega, hrest₅⟩

theorem objectComplete_succ (hvalue : ValueComplete numerals str fuel)
    (hobject : ObjectComplete numerals str fuel) : ObjectComplete numerals str (fuel + 1) := by
  intro i j t fields res h hspan hfuel
  have hle := hspan.le
  unfold parseObject
  dsimp only
  cases h with
  | empty ha =>
      obtain ⟨i', -, hnext, hat, hclose⟩ :=
        nextChar_front (c := '}'.toUInt8) hspan ha (by decide)
      rw [hnext, if_pos hat, hclose.index]
      rfl
  | @last t b field ht hb =>
      rw [List.append_assoc] at hspan
      obtain ⟨i₁, i₂, i₃, i₄, j₁, j₂, h₁, hat₁, hkey, h₂, hat₂, h₃, hparse,
          h₄, hat₄, -, hclose⟩ :=
        field_front hvalue (d := '}'.toUInt8) ht hb (by decide) (by decide) hspan (by omega)
      rw [h₁, hat₁, if_neg (by decide), if_neg (by decide), hkey]
      dsimp only
      rw [h₂, if_neg (not_not.mpr hat₂), h₃, hparse]
      dsimp only
      rw [h₄, hat₄, if_pos rfl, hclose.index]
      rfl
  | @cons t b u field fields ht hb hu =>
      rw [List.append_assoc, List.append_assoc, List.append_assoc] at hspan
      obtain ⟨i₁, i₂, i₃, i₄, j₁, j₂, h₁, hat₁, hkey, h₂, hat₂, h₃, hparse,
          h₄, hat₄, hlt, hrest⟩ :=
        field_front hvalue (d := ','.toUInt8) ht hb (by decide) (by decide) hspan (by omega)
      have hend := hrest.index
      rw [h₁, hat₁, if_neg (by decide), if_neg (by decide), hkey]
      dsimp only
      rw [h₂, if_neg (not_not.mpr hat₂), h₃, hparse]
      dsimp only
      rw [h₄, hat₄, if_neg (by decide), if_neg (by decide), hobject hu hrest (by omega)]
      rfl

/-- A word of the grammar is read, whatever is around it. -/
theorem parsers_complete (numerals : Numerals) (str : Bytes) (fuel : Nat) :
    ValueComplete numerals str fuel ∧ ArrayComplete numerals str fuel ∧
      ObjectComplete numerals str fuel := by
  induction fuel with
  | zero =>
      refine ⟨?_, ?_, ?_⟩
      · intro i j t x _ _ _ hfuel
        exact absurd hfuel (by omega)
      · intro i j n t xs res _ _ hfuel
        exact absurd hfuel (by omega)
      · intro i j t fields res _ _ hfuel
        exact absurd hfuel (by omega)
  | succ fuel ih =>
      obtain ⟨hvalue, harray, hobject⟩ := ih
      exact ⟨valueComplete_succ harray hobject, arrayComplete_succ hvalue harray,
        objectComplete_succ hvalue hobject⟩

end

end

/-! ## The whole text -/

/-- What `json.decode` returns is the value of the text. -/
theorem decode_sound {numerals : Numerals} {str : Bytes} {x : Tree}
    (h : decode numerals str = .ok x) : IsDocument numerals str x := by
  obtain ⟨a, ha, hspace⟩ : ∃ a, Spans str 1 (nextChar str 1 spaceChars true) a ∧ Space a :=
    spans_space Nat.one_pos (by omega)
  unfold decode at h
  cases hx : parse numerals str (2 * str.length + 2) (nextChar str 1 spaceChars true) with
  | error e =>
      rw [hx] at h
      cases h
  | ok result =>
      obtain ⟨y, j⟩ := result
      rw [hx] at h
      dsimp only at h
      obtain ⟨t, ht, hvalue⟩ := (parsers_sound numerals str _).1 ha.end_pos hx
      obtain ⟨b, hb, hspace'⟩ := spans_space ht.end_pos ht.le
      split at h
      · cases h
      · rename_i hend
        cases h
        refine ⟨a, t, b, hspace, hvalue, hspace', ?_⟩
        obtain ⟨rest, hreads, hlast⟩ := ha.trans (ht.trans hb)
        have hrest : rest = [] := by
          apply List.eq_nil_of_length_eq_zero
          have := hlast.length
          omega
        rw [hrest, List.append_nil] at hreads
        exact hreads.drop

/-- A text of the language is read to its end. -/
theorem decode_complete {numerals : Numerals} {str : Bytes} {x : Tree}
    (h : IsDocument numerals str x) : decode numerals str = .ok x := by
  obtain ⟨a, t, b, ha, ht, hb, hstr⟩ := h
  have hwhole := spans_whole str
  obtain ⟨c, u, rfl, hc⟩ := ht.starts
  have hspan : Spans str 1 (str.length + 1) (a ++ c :: (u ++ b)) := hstr ▸ hwhole
  obtain ⟨i, hi, hnext, -, hrest⟩ := nextChar_front hspan ha (startsValue_not_space c hc)
  obtain ⟨hspanx, hspanb⟩ := Spans.split (t := c :: u) hrest
  have hend : ∀ d ∈ at? str (str.length + 1), delimChars d = true := by
    rw [at_end]
    exact fun d hd => nomatch hd
  have hend' : ∀ d ∈ at? str (str.length + 1), spaceChars d = false := by
    rw [at_end]
    exact fun d hd => nomatch hd
  have hparse := (parsers_complete numerals str (2 * str.length + 2)).1 ht hspanx
    (delim_of_space hspanb hb hend) (by omega)
  unfold decode
  rw [hnext, hparse]
  dsimp only
  rw [nextChar_space hspanb hb hend', if_neg (Nat.not_succ_le_self _)]

/-- `json.decode` returns for the texts of its language and for no others, and
what it returns is the value of the text. -/
theorem decode_eq_ok_iff (numerals : Numerals) (str : Bytes) (x : Tree) :
    decode numerals str = .ok x ↔ IsDocument numerals str x :=
  ⟨decode_sound, decode_complete⟩

end LoginServer.Lib
