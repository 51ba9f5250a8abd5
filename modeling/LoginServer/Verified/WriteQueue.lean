import Mathlib.Data.List.Basic

/-!
# Writes that take several requests

A write hands its data to a channel in one request, and where the channel
took only a part of them it comes back later with another request for the
rest.  The channel serves the requests in the order they were made.  Between
two requests of one write those of another can get in, and the data of the
two are mixed.

`content` is what has arrived followed by what is still to come, in the order
in which it would arrive if no request were cut short any more.

## Main results

* `InOrder.submit`, `InOrder.serve`, `InOrder.resume` — what keeps the
  writes in order.
* `InOrder.output` — what has arrived is a prefix of what was written.
-/

namespace LoginServer.Verified.WriteQueue

variable {α : Type}

structure Queue (α : Type) where
  output : List α := []
  /-- the requests, in the order in which they are served -/
  started : List (List α) := []
  /-- what is left of the writes that were cut short -/
  cut : List (List α) := []

namespace Queue

/-- A write makes its first request. -/
def submit (q : Queue α) (data : List α) : Queue α :=
  { q with started := q.started ++ [data] }

/-- The channel takes `n` elements of the first request. -/
def serve (q : Queue α) (n : Nat) : Queue α :=
  match q.started with
  | [] => q
  | data :: rest =>
      { output := q.output ++ data.take n
        started := rest
        cut := if n < data.length then q.cut ++ [data.drop n] else q.cut }

/-- The first write that was cut short makes a request for the rest. -/
def resume (q : Queue α) : Queue α :=
  match q.cut with
  | [] => q
  | data :: rest => { q with started := q.started ++ [data], cut := rest }

def content (q : Queue α) : List α := q.output ++ q.cut.flatten ++ q.started.flatten

/-- At most one write was cut short, nothing else is requested meanwhile, and
what has arrived and is to come is `all`. -/
structure InOrder (q : Queue α) (all : List α) : Prop where
  single : q.cut.length ≤ 1
  alone : q.cut ≠ [] → q.started = []
  content : q.content = all

/-- The channel takes a request whole, or there is no other. -/
def Whole (q : Queue α) (n : Nat) : Prop :=
  q.started.length = 1 ∨ ∀ data ∈ q.started.head?, data.length ≤ n

namespace InOrder

variable {q : Queue α} {all data : List α}

theorem empty : InOrder ({} : Queue α) [] := by
  constructor
  · exact Nat.zero_le 1
  · intro hcut
    exact absurd rfl hcut
  · rfl

/-- What has arrived is a prefix of what was written. -/
theorem output (h : q.InOrder all) : q.output <+: all := by
  use q.cut.flatten ++ q.started.flatten
  rw [← List.append_assoc]
  exact h.content

/-- A write may start while none was cut short. -/
theorem submit (h : q.InOrder all) (hcut : q.cut = []) :
    (q.submit data).InOrder (all ++ data) := by
  constructor
  · exact h.single
  · intro hne
    exact absurd hcut hne
  · rw [← h.content]
    simp [Queue.content, Queue.submit]

theorem serve {n : Nat} (h : q.InOrder all) (hwhole : q.Whole n) : (q.serve n).InOrder all := by
  obtain ⟨output, started, cut⟩ := q
  cases started with
  | nil => exact h
  | cons data rest =>
      have hcut : cut = [] := by
        by_contra hne
        exact absurd (h.alone hne) (List.cons_ne_nil _ _)
      subst hcut
      have hall := h.content
      rcases Nat.lt_or_ge n data.length with hpart | hfull
      · have hrest : rest = [] := by
          rcases hwhole with hone | htaken
          · exact List.length_eq_zero_iff.mp (Nat.succ.inj hone)
          · exact absurd (htaken data rfl) (Nat.not_le.mpr hpart)
        subst hrest
        constructor
        · simp [Queue.serve, hpart]
        · intro _
          rfl
        · rw [← hall]
          simp [Queue.content, Queue.serve, hpart]
      · constructor
        · simp [Queue.serve, Nat.not_lt.mpr hfull]
        · simp [Queue.serve, Nat.not_lt.mpr hfull]
        · rw [← hall]
          simp [Queue.content, Queue.serve, Nat.not_lt.mpr hfull, List.take_of_length_le hfull]

theorem resume (h : q.InOrder all) : q.resume.InOrder all := by
  obtain ⟨output, started, cut⟩ := q
  cases cut with
  | nil => exact h
  | cons data rest =>
      have hrest : rest = [] := by
        have hsingle : rest.length + 1 ≤ 1 := h.single
        exact List.length_eq_zero_iff.mp (by omega)
      have hstarted : started = [] := h.alone (List.cons_ne_nil _ _)
      subst hrest hstarted
      constructor
      · exact Nat.zero_le 1
      · intro hne
        exact absurd rfl hne
      · rw [← h.content]
        simp [Queue.content, Queue.resume]

end InOrder

end Queue

end LoginServer.Verified.WriteQueue
