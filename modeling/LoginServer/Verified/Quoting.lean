import Mathlib.Data.List.Basic

/-!
# Quoted literals

A literal is a text between two quote letters in which some letters are
written as an escape letter and a code.  The quote and the escape letter are
among them, and a code says which letter it stands for: that is all the
reader below needs to find the end of a literal and its text, whatever
follows it.

## Main results

* `Quoting.read_quote` — reading a literal gives its text and what follows.
-/

namespace LoginServer.Verified

/-- Which letters are escaped, and how a code is read. -/
structure Quoting (α : Type) where
  quoteMark : α
  escapeMark : α
  code : α → Option α
  decode : α → α
  marks_ne : escapeMark ≠ quoteMark
  quoteMark_coded : (code quoteMark).isSome
  escapeMark_coded : (code escapeMark).isSome
  decode_code : ∀ {c d : α}, code c = some d → decode d = c

namespace Quoting

variable {α : Type} [DecidableEq α] (q : Quoting α)

def escapeLetter (c : α) : List α :=
  match q.code c with
  | some d => [q.escapeMark, d]
  | none => [c]

def escape (s : List α) : List α := s.flatMap q.escapeLetter

/-- The literal of `s`. -/
def quote (s : List α) : List α := q.quoteMark :: (q.escape s ++ [q.quoteMark])

/-- The text up to the quote letter that ends it, and what follows. -/
def readBody : List α → Option (List α × List α)
  | [] => none
  | c :: rest =>
      if c = q.quoteMark then some ([], rest)
      else if c = q.escapeMark then
        match rest with
        | [] => none
        | d :: rest => (readBody rest).map fun body => (q.decode d :: body.1, body.2)
      else (readBody rest).map fun body => (c :: body.1, body.2)

/-- Read one literal. -/
def read : List α → Option (List α × List α)
  | [] => none
  | c :: rest => if c = q.quoteMark then q.readBody rest else none

theorem readBody_quoteMark (rest : List α) :
    q.readBody (q.quoteMark :: rest) = some ([], rest) := by
  unfold readBody
  rw [if_pos rfl]

theorem readBody_escapeMark (d : α) (rest : List α) :
    q.readBody (q.escapeMark :: d :: rest) =
      (q.readBody rest).map fun body => (q.decode d :: body.1, body.2) := by
  conv => left; unfold readBody
  rw [if_neg q.marks_ne, if_pos rfl]

theorem readBody_plain {c : α} (hquote : c ≠ q.quoteMark) (hescape : c ≠ q.escapeMark)
    (rest : List α) :
    q.readBody (c :: rest) =
      (q.readBody rest).map fun body => (c :: body.1, body.2) := by
  conv => left; unfold readBody
  rw [if_neg hquote, if_neg hescape]

theorem readBody_escapeLetter (c : α)
    (rest : List α) :
    q.readBody (q.escapeLetter c ++ rest) =
      (q.readBody rest).map fun body => (c :: body.1, body.2) := by
  unfold escapeLetter
  cases hcode : q.code c with
  | some d =>
      show q.readBody (q.escapeMark :: d :: rest) = _
      rw [readBody_escapeMark, q.decode_code hcode]
  | none =>
      have hquote : c ≠ q.quoteMark := by
        intro heq
        have := q.quoteMark_coded
        rw [← heq, hcode] at this
        cases this
      have hescape : c ≠ q.escapeMark := by
        intro heq
        have := q.escapeMark_coded
        rw [← heq, hcode] at this
        cases this
      show q.readBody (c :: rest) = _
      exact q.readBody_plain hquote hescape rest

theorem readBody_escape (s rest : List α) :
    q.readBody (q.escape s ++ q.quoteMark :: rest) = some (s, rest) := by
  induction s with
  | nil =>
      exact q.readBody_quoteMark rest
  | cons c s ih =>
      have hcons : q.escape (c :: s) ++ q.quoteMark :: rest =
          q.escapeLetter c ++ (q.escape s ++ q.quoteMark :: rest) := by
        simp [escape]
      rw [hcons, q.readBody_escapeLetter, ih]
      rfl

/-- **Round trip.**  No text can end its own literal early. -/
theorem read_quote (s rest : List α) :
    q.read (q.quote s ++ rest) = some (s, rest) := by
  have hcons : q.quote s ++ rest =
      q.quoteMark :: (q.escape s ++ q.quoteMark :: rest) := by
    simp [quote]
  rw [hcons, read, if_pos rfl, q.readBody_escape]

end Quoting

end LoginServer.Verified
