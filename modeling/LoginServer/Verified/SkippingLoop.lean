import Mathlib.Data.List.Infix
import LoginServer.Verified.LiveVector

/-!
# Loops that take out what they visit

A range-based `for` whose body takes the current element out of the vector
goes on with the next cell, into which the element after the next has moved:
the next one is skipped.  Only the last element is never skipped, because the
cell behind the new end keeps it and is read too.

## Main results

* `walk_spec` — what such a loop visits.
* `forall_missed_iff` — when it misses nothing that matters.
-/

namespace LoginServer.Verified.SkippingLoop

variable {α σ : Type}

/-- The elements a loop comes to while its body changes the vector. -/
def walk (body : α → σ → σ) (vector : σ → Option (List α)) :
    (left i : Nat) → LiveVector α → σ → Option (List α)
  | 0, _, _, _ => some []
  | left + 1, i, v, s => do
      let x ← v.read i
      let s := body x s
      let visited ← walk body vector left (i + 1) (v.follow (vector s)) s
      some (x :: visited)

/-- The elements behind those that leave, except for the last. -/
def missed (leaves : α → Bool) : List α → List α
  | [] => []
  | x :: rest =>
      if leaves x then
        match rest with
        | y :: z :: rest => y :: missed leaves (z :: rest)
        | _ => []
      else missed leaves rest

section
variable {leaves : α → Bool}

theorem missed_sublist (xs : List α) : List.Sublist (missed leaves xs) xs := by
  fun_induction missed leaves xs with
  | case1 => exact List.Sublist.slnil
  | case2 x hx y z rest ih => exact (ih.cons_cons y).cons x
  | case3 x rest hx hshort => exact List.nil_sublist _
  | case4 x rest hx ih => exact ih.cons x

theorem getLast_not_mem_missed (xs : List α) (hne : xs ≠ []) (hnodup : xs.Nodup) :
    xs.getLast hne ∉ missed leaves xs := by
  fun_induction missed leaves xs with
  | case1 => exact List.not_mem_nil
  | case2 x hx y z rest ih =>
      have htail : (y :: z :: rest).Nodup := (List.nodup_cons.mp hnodup).2
      have hy : y ∉ z :: rest := (List.nodup_cons.mp htail).1
      have hlast := ih (List.cons_ne_nil z rest) (List.nodup_cons.mp htail).2
      rw [List.getLast_cons (List.cons_ne_nil _ _), List.getLast_cons (List.cons_ne_nil _ _),
        List.mem_cons, not_or]
      refine ⟨fun heq => hy ?_, hlast⟩
      rw [← heq]
      exact List.getLast_mem _
  | case3 x rest hx hshort => exact List.not_mem_nil
  | case4 x rest hx ih =>
      cases rest with
      | nil => exact List.not_mem_nil
      | cons y rest =>
          rw [List.getLast_cons (List.cons_ne_nil _ _)]
          exact ih _ (List.nodup_cons.mp hnodup).2

/-- Where all that leave matter, nothing that matters is missed if and only if
none that matters stands between one that leaves and another element. -/
theorem forall_missed_iff {Matters : α → Prop} (hleaves : ∀ x, leaves x = true → Matters x)
    (xs : List α) :
    (∀ x ∈ missed leaves xs, ¬ Matters x) ↔
      ∀ x y z, [x, y, z] <:+: xs → leaves x = true → ¬ Matters y := by
  fun_induction missed leaves xs with
  | case1 =>
      refine iff_of_true (fun x hx => absurd hx List.not_mem_nil) fun x y z h => ?_
      exact absurd h.length_le (by simp)
  | case2 x hx y z rest ih =>
      rw [List.forall_mem_cons, ih]
      constructor
      · rintro ⟨hy, hrest⟩ a b c h ha
        rcases List.infix_cons_iff.mp h with hhere | h
        · obtain ⟨-, hhere⟩ := List.cons_prefix_cons.mp hhere
          obtain ⟨rfl, -⟩ := List.cons_prefix_cons.mp hhere
          exact hy
        rcases List.infix_cons_iff.mp h with hhere | h
        · obtain ⟨rfl, -⟩ := List.cons_prefix_cons.mp hhere
          exact absurd (hleaves a ha) hy
        · exact hrest a b c h ha
      · intro h
        constructor
        · exact h x y z ⟨[], rest, rfl⟩ hx
        · exact fun a b c hin => h a b c (List.infix_cons (List.infix_cons hin))
  | case3 x rest hx hshort =>
      refine iff_of_true (fun x hx => absurd hx List.not_mem_nil) fun a b c h => ?_
      match rest, h.length_le with
      | [], hlen => simp at hlen
      | [y], hlen => simp at hlen
      | y :: z :: rest, _ => exact (hshort y z rest rfl).elim
  | case4 x rest hx ih =>
      rw [ih]
      constructor
      · intro hrest a b c h ha
        rcases List.infix_cons_iff.mp h with hhere | h
        · obtain ⟨rfl, -⟩ := List.cons_prefix_cons.mp hhere
          exact absurd ha hx
        · exact hrest a b c h ha
      · exact fun h a b c hin => h a b c (List.infix_cons hin)

end

/-! ## The cells while the loop is under way -/

/-- What the loop has passed, what it has yet to come to, and the cells behind
the end of the vector. -/
structure At (v : LiveVector α) (done rest stale : List α) : Prop where
  cells : v.cells = some (done ++ rest ++ stale)
  room : (done ++ rest).length ≤ v.capacity

section
variable {v : LiveVector α} {done rest stale : List α} {x y : α}

theorem At.read (h : At v done (x :: rest) stale) : v.read done.length = some x := by
  rw [LiveVector.read, h.cells]
  simp

/-- The vector has become shorter, or has not changed. -/
theorem follow_cells {cells xs : List α} (hcells : v.cells = some cells)
    (hroom : xs.length ≤ v.capacity) :
    v.follow (some xs) = { v with cells := some (xs ++ cells.drop xs.length) } := by
  obtain ⟨cells', capacity⟩ := v
  cases hcells
  exact if_pos hroom

theorem At.stay (h : At v done (x :: rest) stale) :
    At (v.follow (some (done ++ x :: rest))) (done ++ [x]) rest stale := by
  rw [follow_cells h.cells h.room]
  constructor
  · simp
  · simpa using h.room

/-- The cell behind the new end keeps the last element. -/
theorem drop_behind (done rest stale : List α) (x : α) :
    (done ++ x :: rest ++ stale).drop (done ++ rest).length =
      (x :: rest).getLast (List.cons_ne_nil x rest) :: stale := by
  have hsplit : done ++ x :: rest ++ stale =
      (done ++ (x :: rest).dropLast) ++
        ((x :: rest).getLast (List.cons_ne_nil x rest) :: stale) := by
    conv_lhs => rw [← List.dropLast_append_getLast (List.cons_ne_nil x rest)]
    simp only [List.append_assoc, List.singleton_append]
  rw [hsplit]
  exact List.drop_left' (by simp)

theorem At.leave (h : At v done (x :: y :: rest) stale) :
    At (v.follow (some (done ++ y :: rest))) (done ++ [y]) rest
      ((y :: rest).getLast (List.cons_ne_nil y rest) :: stale) := by
  have hroom := h.room
  rw [follow_cells h.cells (by simp at hroom ⊢; omega)]
  constructor
  · show some _ = some _
    rw [drop_behind, List.getLast_cons (List.cons_ne_nil y rest)]
    simp
  · simp at hroom ⊢
    omega

end

/-! ## What the loop visits -/

/-- The body takes its element out of the vector if it leaves, and otherwise
leaves the vector alone. -/
structure TakesOut [DecidableEq α] (body : α → σ → σ) (vector : σ → Option (List α))
    (leaves : α → Bool) (Good : σ → Prop) : Prop where
  good : ∀ x s, Good s → Good (body x s)
  vector : ∀ x s xs, Good s → vector s = some xs →
    vector (body x s) = some (if leaves x then xs.filter (· ≠ x) else xs)

theorem walk_cons {body : α → σ → σ} {vector : σ → Option (List α)} {v : LiveVector α}
    {s : σ}
    {x : α} {left i : Nat} {visited : List α} (hread : v.read i = some x)
    (hrest : walk body vector left (i + 1) (v.follow (vector (body x s))) (body x s) =
      some visited) :
    walk body vector (left + 1) i v s = some (x :: visited) := by
  rw [walk, hread]
  dsimp only [Option.bind_eq_bind, Option.bind_some]
  rw [hrest]
  rfl

theorem nodup_middle {done rest : List α} {x : α} (h : (done ++ x :: rest).Nodup) :
    x ∉ done ++ rest ∧ (done ++ rest).Nodup :=
  List.nodup_cons.mp (List.perm_middle.nodup_iff.mp h)

theorem filter_ne_middle [DecidableEq α] {done rest : List α} {x : α}
    (h : (done ++ x :: rest).Nodup) : (done ++ x :: rest).filter (· ≠ x) = done ++ rest := by
  have hnot : x ∉ done ++ rest := (nodup_middle h).1
  rw [List.filter_append, List.filter_cons_of_neg (by simp), ← List.filter_append,
    List.filter_eq_self]
  intro y hy
  simpa using fun heq : y = x => hnot (heq ▸ hy)

section
variable [DecidableEq α] {body : α → σ → σ} {vector : σ → Option (List α)}
  {leaves : α → Bool}
  {Good : σ → Prop}
variable (h : TakesOut body vector leaves Good)
include h

/-- Behind the end of the vector the loop reads what the cells have kept. -/
theorem walk_stale (stale : List α) :
    ∀ {v : LiveVector α} {s : σ} {xs cells : List α} {i : Nat}, Good s →
      vector s = some xs →
      xs.length ≤ i → xs.length ≤ v.capacity → v.cells = some cells →
        cells.drop i = stale →
      walk body vector stale.length i v s = some stale := by
  induction stale with
  | nil =>
      intros
      rfl
  | cons z stale ih =>
      intro v s xs cells i hgood hxs hend hroom hcells hdrop
      have hbody := h.vector z s xs hgood hxs
      have hshort : (if leaves z then xs.filter (· ≠ z) else xs).length ≤ xs.length := by
        split
        · exact List.length_filter_le _ xs
        · exact Nat.le_refl _
      generalize (if leaves z then xs.filter (· ≠ z) else xs) = xs' at hbody hshort
      apply walk_cons
      · rw [LiveVector.read, hcells]
        show cells[i]? = some z
        rw [← List.head?_drop, hdrop]
        rfl
      · rw [hbody, follow_cells hcells (Nat.le_trans hshort hroom)]
        refine ih (h.good z s hgood) hbody (by omega) (Nat.le_trans hshort hroom) rfl ?_
        have hnext : cells.drop (i + 1) = stale := by
          rw [← List.drop_drop, hdrop]
          rfl
        rw [← hnext, List.drop_append, List.drop_eq_nil_of_le (by omega), List.nil_append,
          List.drop_drop]
        congr 1
        omega

theorem walk_end {v : LiveVector α} {s : σ} {done stale : List α} (hgood : Good s)
    (hvector : vector s = some done) (hat : At v done [] stale) :
    walk body vector stale.length done.length v s = some stale := by
  have hcells := hat.cells
  have hroom := hat.room
  rw [List.append_nil] at hcells hroom
  exact walk_stale h stale hgood hvector (Nat.le_refl _) hroom hcells (List.drop_left' rfl)

theorem walk_at (rest : List α) :
    ∀ {v : LiveVector α} {s : σ} {done stale : List α}, Good s → (done ++ rest).Nodup →
      vector s = some (done ++ rest) → At v done rest stale →
      ∃ visited, walk body vector (rest.length + stale.length) done.length v s = some visited ∧
        ∀ m, m ∈ visited ↔ (m ∈ rest ∧ m ∉ missed leaves rest) ∨ m ∈ stale := by
  fun_induction missed leaves rest with
  | case1 =>
      intro v s done stale hgood hnodup hvector hat
      rw [List.append_nil] at hvector
      refine ⟨stale, ?_, by simp⟩
      rw [List.length_nil, Nat.zero_add]
      exact walk_end h hgood hvector hat
  | case2 x hx y z rest ih =>
      intro v s done stale hgood hnodup hvector hat
      have hbody := h.vector x s _ hgood hvector
      rw [if_pos hx, filter_ne_middle hnodup] at hbody
      have hrest : (x :: y :: z :: rest).Nodup := (List.nodup_append.mp hnodup).2.1
      have hinner := (nodup_middle hnodup).2
      have hleave := hat.leave
      rw [← hbody] at hleave
      rw [List.append_cons] at hinner hbody
      obtain ⟨visited, hrun, hmem⟩ := ih (h.good x s hgood) hinner hbody hleave
      refine ⟨x :: visited, ?_, fun m => ?_⟩
      · have hcount : (x :: y :: z :: rest).length + stale.length =
            (z :: rest).length + (stale.length + 1) + 1 := by
          simp only [List.length_cons]
          omega
        rw [List.length_append, List.length_singleton, List.length_cons] at hrun
        rw [hcount]
        exact walk_cons hat.read hrun
      · -- `y` is skipped, and the last is read once more
        have hx' : x ∉ y :: z :: rest := (List.nodup_cons.mp hrest).1
        have htail := List.nodup_cons.mp (List.nodup_cons.mp hrest).2
        have hsub : missed leaves (z :: rest) ⊆ z :: rest := (missed_sublist _).subset
        have hlast : (z :: rest).getLast (List.cons_ne_nil z rest) ∉ missed leaves (z :: rest) :=
          getLast_not_mem_missed (z :: rest) (List.cons_ne_nil z rest) htail.2
        have hmemLast := List.getLast_mem (List.cons_ne_nil z rest)
        rw [List.mem_cons, hmem, List.getLast_cons (List.cons_ne_nil z rest)]
        generalize (z :: rest).getLast _ = last at hlast hmemLast
        grind
  | case3 x rest hx hshort =>
      intro v s done stale hgood hnodup hvector hat
      have hbody := h.vector x s _ hgood hvector
      rw [if_pos hx, filter_ne_middle hnodup] at hbody
      cases rest with
      | nil =>
          rw [List.append_nil] at hbody
          have hroom : done.length ≤ v.capacity := by
            have hlen := hat.room
            rw [List.length_append] at hlen
            omega
          refine ⟨x :: stale, ?_, by simp⟩
          rw [List.length_singleton, Nat.add_comm]
          apply walk_cons hat.read
          rw [hbody, follow_cells hat.cells hroom]
          refine walk_stale h stale (h.good x s hgood) hbody (Nat.le_succ _) hroom rfl ?_
          simp [List.drop_append]
      | cons y rest =>
          obtain rfl : rest = [] := by
            cases rest with
            | nil => rfl
            | cons z rest => exact (hshort y z rest rfl).elim
          have hleave := hat.leave
          rw [← hbody] at hleave
          have hend := walk_end h (h.good x s hgood) hbody hleave
          rw [List.length_append, List.length_singleton, List.length_cons] at hend
          refine ⟨x :: y :: stale, ?_, by simp [or_assoc]⟩
          rw [show [x, y].length + stale.length = stale.length + 1 + 1 from Nat.add_comm _ _]
          exact walk_cons hat.read hend
  | case4 x rest hx ih =>
      intro v s done stale hgood hnodup hvector hat
      have hbody := h.vector x s _ hgood hvector
      rw [if_neg hx] at hbody
      have hrest : (x :: rest).Nodup := (List.nodup_append.mp hnodup).2.1
      have hstay := hat.stay
      rw [← hbody] at hstay
      rw [List.append_cons] at hnodup hbody
      obtain ⟨visited, hrun, hmem⟩ := ih (h.good x s hgood) hnodup hbody hstay
      refine ⟨x :: visited, ?_, fun m => ?_⟩
      · rw [List.length_append, List.length_singleton] at hrun
        rw [List.length_cons, Nat.add_right_comm]
        exact walk_cons hat.read hrun
      · have hx' : x ∉ missed leaves rest :=
          fun hin => (List.nodup_cons.mp hrest).1 ((missed_sublist rest).subset hin)
        rw [List.mem_cons, hmem]
        grind

/-- The loop reads no freed cell, and visits all but the missed. -/
theorem walk_spec {xs : List α} (hnodup : xs.Nodup) {s : σ} (hgood : Good s)
    (hvector : vector s = some xs) (spare : Nat) :
    ∃ visited, walk body vector xs.length 0 (.ofList xs spare) s = some visited ∧
      ∀ m, m ∈ visited ↔ m ∈ xs ∧ m ∉ missed leaves xs := by
  have hat : At (.ofList xs spare) [] xs [] := by
    constructor
    · exact congrArg some (List.append_nil xs).symm
    · exact Nat.le_add_right _ _
  rw [← List.nil_append xs] at hnodup hvector
  obtain ⟨visited, hrun, hmem⟩ := walk_at h xs hgood hnodup hvector hat
  refine ⟨visited, hrun, fun m => (hmem m).trans ?_⟩
  rw [or_iff_left List.not_mem_nil]

end

end LoginServer.Verified.SkippingLoop
