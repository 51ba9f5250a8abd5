import Mathlib.Data.List.Basic
import Mathlib.Data.Option.Basic

/-!
# A list that members join and leave

An entry of a table holds a list, or the table has no such entry.  Who joins
is put at the end, who leaves is taken out, and an entry can be dropped.  A
record of such moves gives the list without running them: those who never
left, and behind them those who joined and were not taken out again, in the
order in which they joined.

## Main results

* `getD_replay` — the list after any moves.
* `replay_eq_none_iff` — whether there is an entry after them.
* `replay_eq_self_iff` — the moves that leave the entry as it was.
-/

namespace LoginServer.Verified.Roster

/-- One change of an entry. -/
inductive Move (α : Type) where
  | join (a : α)
  | leave (a : α)
  /-- the entry is looked up, and made if there is none -/
  | opened
  | dropped
  deriving DecidableEq, Repr

variable {α : Type} [DecidableEq α]

def Move.apply (entry : Option (List α)) : Move α → Option (List α)
  | .join a => some (entry.getD [] ++ [a])
  | .leave a => some ((entry.getD []).filter (· ≠ a))
  | .opened => some (entry.getD [])
  | .dropped => none

def replay (moves : List (Move α)) (entry : Option (List α)) : Option (List α) :=
  moves.foldl Move.apply entry

/-- Somebody who was there is taken out. -/
def Leaves (a : α) (moves : List (Move α)) : Prop := .leave a ∈ moves ∨ .dropped ∈ moves

instance (a : α) (moves : List (Move α)) : Decidable (Leaves a moves) :=
  inferInstanceAs (Decidable (_ ∨ _))

/-- Who joins and is not taken out again, in that order. -/
def staying : List (Move α) → List α
  | [] => []
  | .join a :: moves => if Leaves a moves then staying moves else a :: staying moves
  | .leave _ :: moves => staying moves
  | .opened :: moves => staying moves
  | .dropped :: moves => staying moves

@[simp] theorem replay_nil (entry : Option (List α)) : replay [] entry = entry := rfl

@[simp] theorem replay_cons (move : Move α) (moves : List (Move α))
    (entry : Option (List α)) :
    replay (move :: moves) entry = replay moves (move.apply entry) := rfl

theorem replay_append (moves moves' : List (Move α)) (entry : Option (List α)) :
    replay (moves ++ moves') entry = replay moves' (replay moves entry) :=
  List.foldl_append

/-- The members after any moves. -/
theorem getD_replay (moves : List (Move α)) (entry : Option (List α)) :
    (replay moves entry).getD [] =
      (entry.getD []).filter (fun a => ¬ Leaves a moves) ++ staying moves := by
  induction moves generalizing entry with
  | nil => simp [staying, Leaves]
  | cons move moves ih =>
      rw [replay_cons, ih]
      cases move with
      | join a =>
          have hsame : ∀ b, Leaves b (.join a :: moves) ↔ Leaves b moves := by simp [Leaves]
          by_cases hleaves : Leaves a moves
          · simp [Move.apply, staying, hsame, hleaves]
          · simp [Move.apply, staying, hsame, hleaves]
      | leave a =>
          have hmore : ∀ b, Leaves b (.leave a :: moves) ↔ b = a ∨ Leaves b moves := by
            simp [Leaves, or_assoc]
          simp [Move.apply, staying, hmore, List.filter_filter, Bool.and_comm]
      | opened =>
          have hsame : ∀ b, Leaves b (.opened :: moves) ↔ Leaves b moves := by simp [Leaves]
          simp [Move.apply, staying, hsame]
      | dropped =>
          have hall : ∀ b, Leaves b (.dropped :: moves) := by simp [Leaves]
          simp [Move.apply, staying, hall]

/-- Only the last move decides whether there is an entry. -/
theorem replay_eq_none_iff (moves : List (Move α)) (entry : Option (List α)) :
    replay moves entry = none ↔ moves.getLast?.elim (entry = none) (· = .dropped) := by
  rcases List.eq_nil_or_concat moves with rfl | ⟨before, last, rfl⟩
  · rfl
  · rw [List.concat_eq_append, replay_append, List.getLast?_concat]
    cases last <;> simp [Move.apply]

/-- The moves cancel out: who was taken out stood at the end and joined again
in the same order, nobody else who joined has stayed, and the entry is there
or not as before. -/
structure Undone (moves : List (Move α)) (entry : Option (List α)) : Prop where
  members : (entry.getD []).filter (fun a => ¬ Leaves a moves) ++ staying moves = entry.getD []
  entry : ∀ last ∈ moves.getLast?, last = .dropped ↔ entry = none

/-- The moves that leave an entry as it was. -/
theorem replay_eq_self_iff (moves : List (Move α)) (entry : Option (List α)) :
    replay moves entry = entry ↔ Undone moves entry := by
  have hnone := replay_eq_none_iff moves entry
  constructor
  · intro h
    constructor
    · rw [← getD_replay, h]
    · intro last hlast
      rw [h, Option.mem_def.mp hlast] at hnone
      exact hnone.symm
  · intro h
    have hmembers := (getD_replay moves entry).trans h.members
    have hentry : replay moves entry = none ↔ entry = none := by
      rw [hnone]
      cases hlast : moves.getLast? with
      | none => rfl
      | some last => exact h.entry last hlast
    cases hreplay : replay moves entry with
    | none => exact (hentry.mp hreplay).symm
    | some members =>
        cases hbefore : entry with
        | none =>
            rw [hentry.mpr hbefore] at hreplay
            cases hreplay
        | some before =>
            rw [hreplay, hbefore] at hmembers
            exact congrArg some hmembers

end LoginServer.Verified.Roster
