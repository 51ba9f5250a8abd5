import Mathlib.Data.List.Basic
import Mathlib.Data.List.Forall2
import Mathlib.Data.List.TakeWhile

/-!
# Positions counted from one

A scanner that walks a list by indices counted from one, in the way of string
libraries whose first position is 1: the element at an index, the part between
two indices, and the first index from which on something is met.

`Reads s i rest` says what is left of `s` from index `i` on.  One step of the
scanner takes elements off the front of `rest`, so what a scanner does can be
said about `rest` alone.

## Main results

* `Reads.sub` — the part between two indices is what was passed over.
* `spans_find`, `Spans.find` — a search passes over the elements that do not
  match, and over no others.
* `matchFront_eq_some_iff` — a pattern of classes and the front it matches.
-/

namespace LoginServer.Verified.OneBased

variable {α : Type}

/-- The element at index `i`, where the first has index 1. -/
def at? (s : List α) (i : Nat) : Option α := (s.drop (i - 1)).head?

/-- The part from index `i` to index `j`. -/
def sub (s : List α) (i j : Nat) : List α := (s.drop (i - 1)).take (j + 1 - i)

/-- The index of the first element that satisfies `p`, counted from `i`; the
index behind the end if there is none. -/
def findFrom (p : α → Bool) : List α → Nat → Nat
  | [], i => i
  | c :: rest, i => if p c then i else findFrom p rest (i + 1)

/-- The first index from `i` on whose element satisfies `p`. -/
def find (p : α → Bool) (s : List α) (i : Nat) : Nat :=
  if i ≤ s.length then findFrom p (s.drop (i - 1)) i else s.length + 1

/-- The front of the list, when its elements are in the classes of the pattern,
one after the other. -/
def matchFront : List (α → Bool) → List α → Option (List α)
  | [], _ => some []
  | _ :: _, [] => none
  | p :: pattern, c :: rest => if p c then (matchFront pattern rest).map (c :: ·) else none

/-- From index `i` on, `s` reads `rest`. -/
structure Reads (s : List α) (i : Nat) (rest : List α) : Prop where
  pos : 0 < i
  le : i ≤ s.length + 1
  drop : s.drop (i - 1) = rest

variable {s rest : List α} {i : Nat}

theorem reads_start (s : List α) : Reads s 1 s := ⟨Nat.one_pos, by omega, rfl⟩

/-- The remainder at an index inside the list, or one past it. -/
theorem reads_drop (hpos : 0 < i) (hle : i ≤ s.length + 1) : Reads s i (s.drop (i - 1)) :=
  ⟨hpos, hle, rfl⟩

theorem Reads.length (h : Reads s i rest) : i + rest.length = s.length + 1 := by
  have hpos := h.pos
  have hle := h.le
  rw [← h.drop, List.length_drop]
  omega

theorem Reads.unique {rest' : List α} (h : Reads s i rest) (h' : Reads s i rest') :
    rest = rest' := h.drop.symm.trans h'.drop

theorem Reads.at? (h : Reads s i rest) : at? s i = rest.head? := by
  rw [OneBased.at?, h.drop]

@[simp] theorem Reads.at_cons {c : α} (h : Reads s i (c :: rest)) : OneBased.at? s i = some c :=
  h.at?

/-- Passing over `t`. -/
theorem Reads.advance {t : List α} (h : Reads s i (t ++ rest)) :
    Reads s (i + t.length) rest := by
  have hlen := h.length
  have hpos := h.pos
  rw [List.length_append] at hlen
  refine ⟨by omega, by omega, ?_⟩
  rw [show i + t.length - 1 = i - 1 + t.length by omega, ← List.drop_drop, h.drop,
    List.drop_left' rfl]

/-- What is passed over is the part between the indices. -/
theorem Reads.sub {t : List α} (h : Reads s i (t ++ rest)) :
    sub s i (i + t.length - 1) = t := by
  have hpos := h.pos
  rw [OneBased.sub, h.drop, show i + t.length - 1 + 1 - i = t.length by omega,
    List.take_left' rfl]

/-- `t` stands in `s` from index `i` to before index `j`. -/
def Spans (s : List α) (i j : Nat) (t : List α) : Prop :=
  ∃ rest, Reads s i (t ++ rest) ∧ Reads s j rest

section
variable {t u : List α} {j k : Nat}

theorem Reads.spans (h : Reads s i (t ++ rest)) : Spans s i (i + t.length) t :=
  ⟨rest, h, h.advance⟩

theorem spans_nil (hpos : 0 < i) (hle : i ≤ s.length + 1) : Spans s i i [] :=
  ⟨s.drop (i - 1), reads_drop hpos hle, reads_drop hpos hle⟩

theorem spans_whole (s : List α) : Spans s 1 (s.length + 1) s := by
  have hreads : Reads s 1 (s ++ []) := by
    rw [List.append_nil]
    exact reads_start s
  rw [Nat.add_comm]
  exact hreads.spans

theorem at_end (s : List α) : OneBased.at? s (s.length + 1) = none := by
  rw [OneBased.at?, Nat.add_sub_cancel, List.drop_length]
  rfl

theorem Spans.index (h : Spans s i j t) : j = i + t.length := by
  obtain ⟨rest, hi, hj⟩ := h
  have hi' := hi.length
  have hj' := hj.length
  rw [List.length_append] at hi'
  omega

theorem Spans.pos (h : Spans s i j t) : 0 < i := by
  obtain ⟨rest, hi, -⟩ := h
  exact hi.pos

theorem Spans.end_pos (h : Spans s i j t) : 0 < j := by
  obtain ⟨rest, -, hj⟩ := h
  exact hj.pos

theorem Spans.le (h : Spans s i j t) : j ≤ s.length + 1 := by
  obtain ⟨rest, -, hj⟩ := h
  exact hj.le

theorem Spans.reads (h : Spans s i j t) (hrest : Reads s i rest) :
    ∃ rest', rest = t ++ rest' ∧ Reads s j rest' := by
  obtain ⟨rest', hi, hj⟩ := h
  exact ⟨rest', hrest.unique hi, hj⟩

theorem Spans.trans (h : Spans s i j t) (h' : Spans s j k u) : Spans s i k (t ++ u) := by
  obtain ⟨rest, hi, hj⟩ := h
  obtain ⟨rest', rfl, hk⟩ := h'.reads hj
  exact ⟨rest', by rwa [List.append_assoc], hk⟩

/-- The two parts of a span. -/
theorem Spans.split (h : Spans s i k (t ++ u)) :
    Spans s i (i + t.length) t ∧ Spans s (i + t.length) k u := by
  obtain ⟨rest, hi, hk⟩ := h
  rw [List.append_assoc] at hi
  exact ⟨hi.spans, rest, hi.advance, hk⟩

theorem Spans.sub (h : Spans s i j t) : sub s i (j - 1) = t := by
  rw [h.index]
  obtain ⟨rest, hi, -⟩ := h
  exact hi.sub

theorem spans_single {c : α} (hpos : 0 < i) (h : OneBased.at? s i = some c) :
    Spans s i (i + 1) [c] := by
  have hlt : i - 1 < s.length := by
    by_contra hge
    rw [OneBased.at?, List.drop_eq_nil_of_le (Nat.not_lt.mp hge)] at h
    cases h
  have hreads := reads_drop hpos (s := s) (by omega)
  have hdrop : s.drop (i - 1) = [c] ++ (s.drop (i - 1)).tail := by
    have hhead : (s.drop (i - 1)).head? = some c := h
    cases hs : s.drop (i - 1) with
    | nil =>
        rw [hs] at hhead
        cases hhead
    | cons d rest =>
        rw [hs] at hhead
        cases hhead
        rfl
  rw [hdrop] at hreads
  exact hreads.spans

theorem Spans.at? {c : α} (h : Spans s i j (c :: t)) : OneBased.at? s i = some c := by
  obtain ⟨rest, hi, -⟩ := h
  exact hi.at_cons

end

theorem findFrom_eq (p : α → Bool) (rest : List α) (i : Nat) :
    findFrom p rest i = i + (rest.takeWhile fun c => !p c).length := by
  induction rest generalizing i with
  | nil => rfl
  | cons c rest ih =>
      unfold findFrom
      cases hc : p c with
      | true => simp [hc]
      | false =>
          simp only [Bool.false_eq_true, if_false, ih, List.takeWhile_cons, hc, Bool.not_false,
            if_true, List.length_cons]
          omega

theorem Reads.find_eq (p : α → Bool) (h : Reads s i rest) :
    find p s i = i + (rest.takeWhile fun c => !p c).length := by
  have hlen := h.length
  unfold OneBased.find
  split
  · rw [h.drop, findFrom_eq]
  · have hnil : rest = [] := List.eq_nil_of_length_eq_zero (by omega)
    subst hnil
    simp only [List.length_nil, List.takeWhile_nil] at hlen ⊢
    omega

/-- A search passes over elements that do not match. -/
theorem spans_find (p : α → Bool) (hpos : 0 < i) (hle : i ≤ s.length + 1) :
    ∃ t, Spans s i (OneBased.find p s i) t ∧ ∀ c ∈ t, p c = false := by
  have hreads := reads_drop hpos hle
  have hfind := hreads.find_eq p
  rw [← List.takeWhile_append_dropWhile (p := fun c => !p c) (l := s.drop (i - 1))] at hreads
  refine ⟨_, hfind ▸ hreads.spans, ?_⟩
  intro c hc
  simpa using List.mem_takeWhile_imp hc

/-- A search passes over exactly `t`, when nothing in `t` matches and the
element behind it does. -/
theorem Spans.find {p : α → Bool} {t : List α} {j : Nat} (h : Spans s i j t)
    (ht : ∀ c ∈ t, p c = false) (hnext : ∀ c ∈ OneBased.at? s j, p c = true) :
    OneBased.find p s i = j := by
  rw [h.index]
  obtain ⟨rest, hi, hj⟩ := h
  rw [hj.at?] at hnext
  rw [hi.find_eq p, List.takeWhile_append_of_pos (fun c hc => by simp [ht c hc])]
  have hnone : rest.takeWhile (fun c => !p c) = [] := by
    cases rest with
    | nil => rfl
    | cons c rest => simp [hnext c (by simp)]
  rw [hnone, List.append_nil]

/-- Behind a search there is a match, or the end. -/
theorem at_find (p : α → Bool) (hpos : 0 < i) (hle : i ≤ s.length + 1) :
    ∀ c ∈ OneBased.at? s (OneBased.find p s i), p c = true := by
  have hreads := reads_drop hpos hle
  have hfind := hreads.find_eq p
  rw [← List.takeWhile_append_dropWhile (p := fun c => !p c) (l := s.drop (i - 1))] at hreads
  rw [hfind, hreads.advance.at?]
  intro c hc
  have hmem := List.head?_dropWhile_not (fun c => !p c) (s.drop (i - 1))
  rw [Option.mem_def.mp hc] at hmem
  simpa using hmem

/-- What is matched is the front, and its elements are in the classes. -/
theorem matchFront_eq_some_iff {pattern : List (α → Bool)} {t : List α} :
    matchFront pattern s = some t ↔
      List.Forall₂ (fun p c => p c = true) pattern t ∧ t <+: s := by
  induction pattern generalizing s t with
  | nil =>
      constructor
      · rintro h
        cases h
        exact ⟨List.Forall₂.nil, List.nil_prefix⟩
      · rintro ⟨hclasses, -⟩
        cases hclasses
        rfl
  | cons p pattern ih =>
      cases s with
      | nil =>
          apply iff_of_false
          · intro h
            cases h
          · rintro ⟨hclasses, hfront⟩
            rw [List.prefix_nil.mp hfront] at hclasses
            cases hclasses
      | cons c rest =>
          unfold matchFront
          constructor
          · intro h
            split at h
            · rename_i hp
              obtain ⟨t', ht', rfl⟩ := Option.map_eq_some_iff.mp h
              obtain ⟨hclasses, hfront⟩ := ih.mp ht'
              exact ⟨List.Forall₂.cons hp hclasses,
                List.cons_prefix_cons.mpr ⟨rfl, hfront⟩⟩
            · cases h
          · rintro ⟨hclasses, hfront⟩
            cases hclasses with
            | cons hp hclasses =>
                obtain ⟨rfl, htail⟩ := List.cons_prefix_cons.mp hfront
                rw [if_pos hp, ih.mpr ⟨hclasses, htail⟩]
                rfl

/-- One pattern behind another. -/
theorem matchFront_append_iff {p q : List (α → Bool)} {t : List α} :
    matchFront (p ++ q) s = some t ↔
      ∃ t₁ t₂, matchFront p s = some t₁ ∧
        matchFront q (s.drop t₁.length) = some t₂ ∧
        t = t₁ ++ t₂ := by
  induction p generalizing s t with
  | nil =>
      constructor
      · intro h
        exact ⟨[], t, rfl, h, rfl⟩
      · rintro ⟨t₁, t₂, h₁, h₂, rfl⟩
        cases h₁
        exact h₂
  | cons c p ih =>
      cases s with
      | nil =>
          apply iff_of_false
          · intro h
            cases h
          · rintro ⟨t₁, t₂, h₁, -⟩
            cases h₁
      | cons x rest =>
          show (if c x then (matchFront (p ++ q) rest).map (x :: ·) else none) = _ ↔
            ∃ t₁ t₂, (if c x then (matchFront p rest).map (x :: ·) else none) = _ ∧ _
          cases c x with
          | false => simp
          | true =>
              simp only [if_true, Option.map_eq_some_iff, ih]
              constructor
              · rintro ⟨t', ⟨t₁, t₂, h₁, h₂, rfl⟩, rfl⟩
                exact ⟨x :: t₁, t₂, ⟨t₁, h₁, rfl⟩, h₂, rfl⟩
              · rintro ⟨_, t₂, ⟨t₁, h₁, rfl⟩, h₂, rfl⟩
                exact ⟨t₁ ++ t₂, ⟨t₁, t₂, h₁, h₂, rfl⟩, rfl⟩

end LoginServer.Verified.OneBased
