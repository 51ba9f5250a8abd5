import Mathlib.Data.List.Infix
import Mathlib.Data.List.Flatten
import Mathlib.Data.List.Pairwise

/-!
# A stream of frames that arrives in pieces

Frames are written one behind the other, and a reader is fed the bytes in
pieces that end anywhere.  It promises something about one frame only: it hands
a whole one out, and waits for the rest of one that has begun.

## Main results

* `arrived_add`, `arrived_piece` — the frames that have arrived, after one more
  piece.
* `Reads.next_whole`, `Reads.next_front` — what the reader answers within a
  stream.
* `tableReader_reads` — a reader that knows its frames.
-/

namespace LoginServer.Verified

/-- A reader as its caller sees it. -/
structure FrameReader (β φ : Type) where
  Buffer : Type
  start : Buffer
  feed : Buffer → List β → Buffer
  /-- `none` is an error, and no frame means that more has to arrive -/
  next : Buffer → Option (Option φ × Buffer)

namespace FrameReader
variable {β φ : Type} (wire : φ → List β)

def stream (frames : List φ) : List β := frames.flatMap wire

/-- The frames that end within the first `n` bytes of their stream. -/
def arrived : List φ → Nat → List φ
  | [], _ => []
  | f :: fs, n => if (wire f).length ≤ n then f :: arrived fs (n - (wire f).length) else []

@[simp] theorem stream_nil : stream wire [] = [] := rfl

@[simp] theorem stream_cons (f : φ) (fs : List φ) :
    stream wire (f :: fs) = wire f ++ stream wire fs := rfl

theorem stream_append (fs gs : List φ) :
    stream wire (fs ++ gs) = stream wire fs ++ stream wire gs := by
  simp [stream]

variable {wire}

theorem arrived_of_le {f : φ} {fs : List φ} {n : Nat} (h : (wire f).length ≤ n) :
    arrived wire (f :: fs) n = f :: arrived wire fs (n - (wire f).length) := if_pos h

theorem arrived_of_lt {f : φ} {fs : List φ} {n : Nat} (h : n < (wire f).length) :
    arrived wire (f :: fs) n = [] := if_neg (by omega)

theorem arrived_front (frames : List φ) (n : Nat) : arrived wire frames n <+: frames := by
  induction frames generalizing n with
  | nil => exact List.prefix_rfl
  | cons f fs ih =>
      unfold arrived
      split
      · exact List.cons_prefix_cons.mpr ⟨rfl, ih _⟩
      · exact List.nil_prefix

theorem arrived_map {ψ : Type} (g : ψ → φ) (frames : List ψ) (n : Nat) :
    arrived wire (frames.map g) n = (arrived (wire ∘ g) frames n).map g := by
  induction frames generalizing n with
  | nil => rfl
  | cons f fs ih =>
      rw [List.map_cons]
      unfold arrived
      rw [apply_ite (List.map g), List.map_cons, ← ih]
      rfl

/-- One more piece: what had arrived, and what arrives behind it. -/
theorem arrived_add (frames : List φ) (m n : Nat) :
    arrived wire frames (m + n) = arrived wire frames m ++
      arrived wire (frames.drop (arrived wire frames m).length)
        (m + n - (stream wire (arrived wire frames m)).length) := by
  induction frames generalizing m with
  | nil => rfl
  | cons f fs ih =>
      by_cases hlen : (wire f).length ≤ m
      · have hrest := ih (m - (wire f).length)
        rw [arrived_of_le (by omega), arrived_of_le hlen, stream_cons, List.length_append,
          List.length_cons, List.drop_succ_cons, List.cons_append,
          Nat.sub_add_comm hlen, hrest]
        congr 3
        omega
      · have hnone : arrived wire (f :: fs) m = [] := arrived_of_lt (by omega)
        simp [hnone]

/-- The same for the bytes: `u` is what lay behind the frames that had arrived. -/
theorem arrived_piece {frames got : List φ} {p u piece : List β}
    (hgot : arrived wire frames p.length = got) (hu : p = stream wire got ++ u)
    (hstream : p ++ piece <+: stream wire frames) :
    arrived wire frames (p ++ piece).length =
        got ++ arrived wire (frames.drop got.length) (u ++ piece).length ∧
      u ++ piece <+: stream wire (frames.drop got.length) := by
  constructor
  · have hlength : p.length + piece.length - (stream wire got).length = (u ++ piece).length := by
      rw [hu]
      simp only [List.length_append]
      omega
    rw [List.length_append, arrived_add, hgot, hlength]
  · have hsplit : got ++ frames.drop got.length = frames :=
      List.prefix_iff_eq_append.mp (hgot ▸ arrived_front frames p.length)
    rw [hu, List.append_assoc, ← hsplit, stream_append] at hstream
    exact (List.prefix_append_right_inj _).mp hstream

/-! ## What a reader promises -/

/-- `reader` reads the format `wire`, as far as `frames` are concerned; `Unread b u` says
that `u` has been fed and not been handed out. -/
structure Reads (reader : FrameReader β φ) (wire : φ → List β) (frames : List φ)
    (Unread : reader.Buffer → List β → Prop) : Prop where
  start : Unread reader.start []
  feed : ∀ b u piece, Unread b u → Unread (reader.feed b piece) (u ++ piece)
  empty : ∀ b, Unread b [] → ∃ b', reader.next b = some (none, b') ∧ Unread b' []
  front : ∀ f ∈ frames, ∀ b u, Unread b u → u <+: wire f → u ≠ wire f →
    ∃ b', reader.next b = some (none, b') ∧ Unread b' u
  whole : ∀ f ∈ frames, ∀ b u, Unread b (wire f ++ u) →
    ∃ b', reader.next b = some (some f, b') ∧ Unread b' u
  written : ∀ f ∈ frames, wire f ≠ []

namespace Reads
variable {reader : FrameReader β φ} {frames : List φ}
  {Unread : reader.Buffer → List β → Prop}
  {b : reader.Buffer} {u : List β}

/-- The next frame of the stream is whole. -/
theorem next_whole (h : Reads reader wire frames Unread) {f : φ} {fs : List φ} (hf : f ∈ frames)
    (hunread : Unread b u) (hstream : u <+: stream wire (f :: fs))
    (hlen : (wire f).length ≤ u.length) :
    ∃ b' u', reader.next b = some (some f, b') ∧ u = wire f ++ u' ∧ Unread b' u' ∧
      u' <+: stream wire fs := by
  obtain ⟨u', rfl⟩ : wire f <+: u :=
    List.prefix_of_prefix_length_le (List.prefix_append _ _) hstream hlen
  obtain ⟨b', hnext, hunread'⟩ := h.whole f hf b u' hunread
  exact ⟨b', u', hnext, rfl, hunread', (List.prefix_append_right_inj _).mp hstream⟩

/-- No frame of the stream is whole. -/
theorem next_front (h : Reads reader wire frames Unread) {fs : List φ} (hfs : fs ⊆ frames)
    (hunread : Unread b u) (hstream : u <+: stream wire fs)
    (hnone : arrived wire fs u.length = []) :
    ∃ b', reader.next b = some (none, b') ∧ Unread b' u := by
  cases fs with
  | nil =>
      obtain rfl := List.prefix_nil.mp hstream
      exact h.empty b hunread
  | cons f fs =>
      have hlt : u.length < (wire f).length := by
        by_contra hle
        rw [arrived_of_le (by omega)] at hnone
        cases hnone
      have hfront : u <+: wire f :=
        List.prefix_of_prefix_length_le hstream (List.prefix_append _ _) hlt.le
      refine h.front f (hfs List.mem_cons_self) b u hunread hfront fun heq => ?_
      rw [heq] at hlt
      exact absurd hlt (Nat.lt_irrefl _)

end Reads

/-! ## A reader that knows its frames -/

/-- The reader of a few frames, none of which begins with another. -/
def tableReader [DecidableEq β] (wire : φ → List β) (frames : List φ) :
    FrameReader β φ where
  Buffer := List β
  start := []
  feed b piece := b ++ piece
  next b :=
    match frames.find? fun f => wire f <+: b with
    | some f => some (some f, b.drop (wire f).length)
    | none => some (none, b)

theorem tableReader_next_none [DecidableEq β] {frames : List φ} {b : List β}
    (h : ∀ f ∈ frames, ¬ wire f <+: b) :
    (tableReader wire frames).next b = some (none, b) := by
  have hfind : (frames.find? fun f => wire f <+: b) = none := by
    simpa using h
  simp only [tableReader, hfind]

theorem tableReader_next_some [DecidableEq β] {frames : List φ} {f : φ} {u : List β}
    (hf : f ∈ frames) (honly : ∀ g ∈ frames, wire g <+: wire f ++ u → g = f) :
    (tableReader wire frames).next (wire f ++ u) = some (some f, u) := by
  cases hfind : frames.find? fun g => wire g <+: wire f ++ u with
  | none =>
      have hnot := List.find?_eq_none.mp hfind f hf
      simp at hnot
  | some g =>
      have hg : wire g <+: wire f ++ u := by simpa using List.find?_some hfind
      obtain rfl := honly g (List.mem_of_find?_eq_some hfind) hg
      simp [tableReader, hfind]

/-- Neither frame begins with the other. -/
def Apart (wire : φ → List β) (f g : φ) : Prop := ¬ wire f <+: wire g ∧ ¬ wire g <+: wire f

instance [DecidableEq β] (wire : φ → List β) (f g : φ) : Decidable (Apart wire f g) :=
  inferInstanceAs (Decidable (_ ∧ _))

instance : Std.Symm (Apart wire) := ⟨fun _ _ h => h.symm⟩

theorem eq_of_pairwise_apart {frames : List φ} (h : frames.Pairwise (Apart wire)) {f g : φ}
    (hf : f ∈ frames) (hg : g ∈ frames) (hfront : wire f <+: wire g) : f = g := by
  by_contra hne
  exact (h.forall hf hg hne).1 hfront

theorem tableReader_reads [DecidableEq β] {frames : List φ}
    (hwritten : ∀ f ∈ frames, wire f ≠ []) (hapart : frames.Pairwise (Apart wire)) :
    Reads (tableReader wire frames) wire frames Eq where
  start := rfl
  feed := by
    rintro b _ piece rfl
    rfl
  empty := by
    rintro b rfl
    refine ⟨[], tableReader_next_none fun f hf hfront => ?_, rfl⟩
    exact hwritten f hf (List.prefix_nil.mp hfront)
  front := by
    rintro f hf b _ rfl hfront hne
    refine ⟨b, tableReader_next_none fun g hg hwhole => ?_, rfl⟩
    obtain rfl := eq_of_pairwise_apart hapart hg hf (hwhole.trans hfront)
    exact hne (hfront.eq_of_length_le hwhole.length_le)
  whole := by
    rintro f hf b u rfl
    refine ⟨u, tableReader_next_some hf fun g hg hwhole => ?_, rfl⟩
    cases List.prefix_or_prefix_of_prefix hwhole (List.prefix_append (wire f) u) with
    | inl hfront => exact eq_of_pairwise_apart hapart hg hf hfront
    | inr hfront => exact (eq_of_pairwise_apart hapart hf hg hfront).symm
  written := hwritten

end FrameReader

end LoginServer.Verified
