import Mathlib.Data.List.Basic

/-!
# Codecs

A codec writes values as strings of letters and reads one back from the front
of a string.  It carries both of its laws: what fits is read back, whatever
follows it, and what is read is the writing of a value that fits.  The second
law is the one that pins a string down: a string that reads as a value is as
long as the writing of that value.

## Main results

* `Codec.pair`, `Codec.counted`, `Codec.iso` — codecs of pairs, of lists
  behind their length and of the same values in another shape.
* `Codec.decode_eq_nil_iff` — the strings that read as a value and end there.
-/

namespace LoginServer.Verified

structure Codec (β α : Type) where
  Fits : α → Prop
  encode : α → List β
  decode : List β → Option (α × List β)
  decode_encode : ∀ (a : α) (rest : List β), Fits a →
    decode (encode a ++ rest) = some (a, rest)
  encode_decode : ∀ {letters : List β} {a : α} {rest : List β},
    decode letters = some (a, rest) → Fits a ∧ letters = encode a ++ rest

namespace Codec

variable {α α' β : Type}

/-- The strings that read as `a` with nothing left over. -/
theorem decode_eq_nil_iff (c : Codec β α) {letters : List β} {a : α} :
    c.decode letters = some (a, []) ↔ c.Fits a ∧ letters = c.encode a := by
  constructor
  · intro h
    have hlaw := c.encode_decode h
    rwa [List.append_nil] at hlaw
  · rintro ⟨hfits, rfl⟩
    have hlaw := c.decode_encode a [] hfits
    rwa [List.append_nil] at hlaw

/-- One letter. -/
def letter : Codec β β where
  Fits _ := True
  encode b := [b]
  decode letters :=
    match letters with
    | [] => none
    | b :: rest => some (b, rest)
  decode_encode _ _ _ := rfl
  encode_decode := by
    intro letters a rest h
    cases letters with
    | nil => cases h
    | cons b letters =>
        cases h
        exact ⟨trivial, rfl⟩

/-- `n` letters for every value. -/
def block (n : Nat) (Fits : α → Prop) (encode : α → List β) (decode : List β → α)
    (hlength : ∀ a, (encode a).length = n)
    (hdecode : ∀ a, Fits a → decode (encode a) = a)
    (hencode : ∀ letters, letters.length = n →
      Fits (decode letters) ∧ encode (decode letters) = letters) : Codec β α where
  Fits := Fits
  encode := encode
  decode letters :=
    if n ≤ letters.length then some (decode (letters.take n), letters.drop n) else none
  decode_encode := by
    intro a rest hfits
    rw [if_pos (by rw [List.length_append, hlength]; omega), List.take_left' (hlength a),
      List.drop_left' (hlength a), hdecode a hfits]
  encode_decode := by
    intro letters a rest h
    by_cases hlen : n ≤ letters.length
    · rw [if_pos hlen] at h
      cases h
      obtain ⟨hfits, heq⟩ := hencode (letters.take n) (List.length_take_of_le hlen)
      refine ⟨hfits, ?_⟩
      rw [heq, List.take_append_drop]
    · rw [if_neg hlen] at h
      cases h

/-- One value after the other. -/
def pair (c : Codec β α) (c' : Codec β α') : Codec β (α × α') where
  Fits a := c.Fits a.1 ∧ c'.Fits a.2
  encode a := c.encode a.1 ++ c'.encode a.2
  decode letters :=
    match c.decode letters with
    | none => none
    | some (a, letters) =>
        match c'.decode letters with
        | none => none
        | some (a', rest) => some ((a, a'), rest)
  decode_encode := by
    intro a rest hfits
    rw [List.append_assoc, c.decode_encode _ _ hfits.1]
    dsimp only
    rw [c'.decode_encode _ _ hfits.2]
  encode_decode := by
    intro letters a rest h
    cases hfirst : c.decode letters with
    | none =>
        rw [hfirst] at h
        cases h
    | some first =>
        obtain ⟨a₁, letters'⟩ := first
        rw [hfirst] at h
        dsimp only at h
        cases hsecond : c'.decode letters' with
        | none =>
            rw [hsecond] at h
            cases h
        | some second =>
            obtain ⟨a₂, rest'⟩ := second
            rw [hsecond] at h
            cases h
            obtain ⟨hfits, heq⟩ := c.encode_decode hfirst
            obtain ⟨hfits', heq'⟩ := c'.encode_decode hsecond
            refine ⟨⟨hfits, hfits'⟩, ?_⟩
            rw [heq, heq', List.append_assoc]

/-- Read `n` values. -/
def decodeN (c : Codec β α) : Nat → List β → Option (List α × List β)
  | 0, letters => some ([], letters)
  | n + 1, letters =>
      match c.decode letters with
      | none => none
      | some (a, letters) =>
          match decodeN c n letters with
          | none => none
          | some (as, rest) => some (a :: as, rest)

theorem decodeN_encode (c : Codec β α) (as : List α) (rest : List β)
    (hfits : ∀ a ∈ as, c.Fits a) :
    c.decodeN as.length (as.flatMap c.encode ++ rest) = some (as, rest) := by
  induction as with
  | nil => rfl
  | cons a as ih =>
      rw [List.length_cons, decodeN, List.flatMap_cons, List.append_assoc,
        c.decode_encode _ _ (hfits a List.mem_cons_self)]
      dsimp only
      rw [ih fun b hb => hfits b (List.mem_cons_of_mem _ hb)]

theorem encode_decodeN (c : Codec β α) {n : Nat} {letters : List β} {as : List α}
    {rest : List β} (h : c.decodeN n letters = some (as, rest)) :
    as.length = n ∧ (∀ a ∈ as, c.Fits a) ∧ letters = as.flatMap c.encode ++ rest := by
  induction n generalizing letters as with
  | zero =>
      cases h
      refine ⟨rfl, ?_, rfl⟩
      intro a ha
      cases ha
  | succ n ih =>
      unfold decodeN at h
      cases hfirst : c.decode letters with
      | none =>
          rw [hfirst] at h
          cases h
      | some first =>
          obtain ⟨a, letters'⟩ := first
          rw [hfirst] at h
          dsimp only at h
          cases hothers : c.decodeN n letters' with
          | none =>
              rw [hothers] at h
              cases h
          | some others =>
              obtain ⟨as', rest'⟩ := others
              rw [hothers] at h
              cases h
              obtain ⟨hfits, heq⟩ := c.encode_decode hfirst
              obtain ⟨hlength, hall, heq'⟩ := ih hothers
              refine ⟨by rw [List.length_cons, hlength], ?_, ?_⟩
              · intro b hb
                rcases List.mem_cons.mp hb with rfl | hb
                · exact hfits
                · exact hall b hb
              · rw [heq, heq', List.flatMap_cons, List.append_assoc]

/-- A list behind its length. -/
def counted (count : Codec β Nat) (c : Codec β α) : Codec β (List α) where
  Fits as := count.Fits as.length ∧ ∀ a ∈ as, c.Fits a
  encode as := count.encode as.length ++ as.flatMap c.encode
  decode letters :=
    match count.decode letters with
    | none => none
    | some (n, letters) => c.decodeN n letters
  decode_encode := by
    intro as rest hfits
    rw [List.append_assoc, count.decode_encode _ _ hfits.1]
    exact c.decodeN_encode as rest hfits.2
  encode_decode := by
    intro letters as rest h
    cases hcount : count.decode letters with
    | none =>
        rw [hcount] at h
        cases h
    | some first =>
        obtain ⟨n, letters'⟩ := first
        rw [hcount] at h
        obtain ⟨hfits, heq⟩ := count.encode_decode hcount
        obtain ⟨hlength, hall, heq'⟩ := c.encode_decodeN h
        subst hlength
        refine ⟨⟨hfits, hall⟩, ?_⟩
        rw [heq, heq', List.append_assoc]

/-- The same values in another shape. -/
def iso (c : Codec β α) (pack : α → α') (unpack : α' → α)
    (hpack : ∀ a', pack (unpack a') = a') (hunpack : ∀ a, unpack (pack a) = a) :
    Codec β α' where
  Fits a' := c.Fits (unpack a')
  encode a' := c.encode (unpack a')
  decode letters := (c.decode letters).map fun found => (pack found.1, found.2)
  decode_encode := by
    intro a' rest hfits
    rw [c.decode_encode _ _ hfits, Option.map_some, hpack]
  encode_decode := by
    intro letters a' rest h
    obtain ⟨found, hfound, heq⟩ := Option.map_eq_some_iff.mp h
    cases heq
    rw [hunpack]
    exact c.encode_decode hfound

end Codec

end LoginServer.Verified
