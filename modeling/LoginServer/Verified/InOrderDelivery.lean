import Mathlib.Data.List.Nodup
import Mathlib.Data.List.Sublists

/-!
# Exactly once, in order

Somebody serves the members of a list one after the other, while members may
leave and others may join.  `ExactlyOnce` says that this was done properly:
everybody who was there from the beginning is served once, in the order of
the list, unless they had left when it was their turn.  Who joined later may
be served or not.

## Main results

* `serve_batch` — serving, in order, those of a segment who are still there.
-/

namespace LoginServer.Verified.InOrderDelivery

variable {ι : Type} [DecidableEq ι]

/-- Somebody is served, and who is there at that time. -/
structure Turn (ι : Type) where
  id : ι
  present : List ι

/-- Those of `all` whose turn is still to come, after one turn; everybody in
front of the one who is served must have left. -/
def serve (all pending : List ι) (t : Turn ι) : Option (List ι) :=
  if t.id ∈ all then
    if t.id ∈ pending ∧ t.id ∈ t.present ∧
        ∀ r ∈ pending.takeWhile (· ≠ t.id), r ∉ t.present then
      some (pending.dropWhile (· ≠ t.id)).tail
    else none
  else some pending

/-- `log` serves `all`; `final` are those who are there at the end. -/
def ExactlyOnce (all : List ι) (log : List (Turn ι)) (final : List ι) : Prop :=
  ∃ rest, log.foldlM (serve all) all = some rest ∧ ∀ r ∈ rest, r ∉ final

instance (all : List ι) (log : List (Turn ι)) (final : List ι) :
    Decidable (ExactlyOnce all log final) :=
  match h : log.foldlM (serve all) all with
  | none => isFalse (by rintro ⟨rest, hrest, -⟩; rw [h] at hrest; cases hrest)
  | some rest =>
      decidable_of_iff (∀ r ∈ rest, r ∉ final)
        ⟨fun hrest => ⟨rest, h, hrest⟩, by
          rintro ⟨rest', hrest', hleft⟩
          rw [h] at hrest'
          cases hrest'
          exact hleft⟩

theorem serve_of_not_mem {all pending : List ι} {t : Turn ι} (h : t.id ∉ all) :
    serve all pending t = some pending := by
  rw [serve, if_neg h]

/-- The first one who is still there is served. -/
theorem serve_append {all left right : List ι} {t : Turn ι} (hall : t.id ∈ all)
    (hleft : t.id ∉ left) (hpresent : t.id ∈ t.present)
    (hgone : ∀ r ∈ left, r ∉ t.present) :
    serve all (left ++ t.id :: right) t = some right := by
  have hne : ∀ r ∈ left, (decide (r ≠ t.id)) = true := by
    intro r hr
    rw [decide_eq_true_eq]
    rintro rfl
    exact hleft hr
  have htake : (left ++ t.id :: right).takeWhile (· ≠ t.id) = left := by
    rw [List.takeWhile_append_of_pos hne]
    simp
  have hdrop : (left ++ t.id :: right).dropWhile (· ≠ t.id) = t.id :: right := by
    rw [List.dropWhile_append_of_pos hne]
    simp
  rw [serve, if_pos hall, htake, hdrop, if_pos ⟨by simp, hpresent, hgone⟩]
  rfl

/-- A segment of `all` is served: the log has those of it who are still there,
in order, and perhaps others who are not in `all`.  Those in `gone` have left
before, those in `future` come after the segment. -/
structure Batch (all gone segment future : List ι) (log : List (Turn ι)) : Prop where
  listed : ∀ r ∈ segment, r ∈ all
  ordered : ((log.map Turn.id).filter (· ∈ all)).Sublist segment
  nodup : (gone ++ (segment ++ future)).Nodup
  left : ∀ t ∈ log, ∀ r ∈ gone, r ∉ t.present
  skipped : ∀ t ∈ log, ∀ r ∈ segment, r ∉ log.map Turn.id → r ∉ t.present
  there : ∀ t ∈ log, t.id ∈ t.present

namespace Batch

variable {all gone before after segment future : List ι} {t : Turn ι} {log : List (Turn ι)}

omit [DecidableEq ι] in
theorem not_mem_map_cons {r : ι} (hne : r ≠ t.id) (h : r ∉ log.map Turn.id) :
    r ∉ (t :: log).map Turn.id := by
  rw [List.map_cons, List.mem_cons]
  rintro (heq | hmem)
  · exact hne heq
  · exact h hmem

/-- Somebody else is served. -/
theorem skip (h : Batch all gone segment future (t :: log)) (ht : t.id ∉ all) :
    Batch all gone segment future log := by
  have hordered := h.ordered
  rw [List.map_cons, List.filter_cons_of_neg (by simpa using ht)] at hordered
  constructor
  · exact h.listed
  · exact hordered
  · exact h.nodup
  · intro t' ht'
    exact h.left t' (List.mem_cons_of_mem t ht')
  · intro t' ht' r hr hnot
    apply h.skipped t' (List.mem_cons_of_mem t ht') r hr
    apply not_mem_map_cons _ hnot
    rintro rfl
    exact ht (h.listed _ hr)
  · intro t' ht'
    exact h.there t' (List.mem_cons_of_mem t ht')

/-- The one who is served splits the segment. -/
theorem split (h : Batch all gone segment future (t :: log)) (ht : t.id ∈ all) :
    ∃ before after, segment = before ++ t.id :: after ∧
      ((log.map Turn.id).filter (· ∈ all)).Sublist after := by
  have hordered := h.ordered
  rw [List.map_cons, List.filter_cons_of_pos (by simpa using ht),
    List.cons_sublist_iff] at hordered
  obtain ⟨front, back, rfl, hfront, hback⟩ := hordered
  obtain ⟨before, right, rfl⟩ := List.append_of_mem hfront
  use before, right ++ back
  constructor
  · rw [List.append_assoc, List.cons_append]
  · exact hback.trans (List.sublist_append_right right back)

/-- Nobody occurs twice, around the one who is served. -/
theorem nodup_around (h : Batch all gone (before ++ t.id :: after) future (t :: log)) :
    ((gone ++ before) ++ t.id :: (after ++ future)).Nodup := by
  have hnodup := h.nodup
  rwa [List.append_assoc before, List.cons_append, ← List.append_assoc gone] at hnodup

/-- Those in front of the one who is served have left. -/
theorem front_left (h : Batch all gone (before ++ t.id :: after) future (t :: log))
    (hback : ((log.map Turn.id).filter (· ∈ all)).Sublist after) :
    ∀ r ∈ gone ++ before, r ∉ t.present := by
  have hdisjoint := (List.nodup_append.mp h.nodup_around).2.2
  intro r hr
  rcases List.mem_append.mp hr with hgone | hbefore
  · exact h.left t List.mem_cons_self r hgone
  · have hsegment : r ∈ before ++ t.id :: after := List.mem_append_left _ hbefore
    apply h.skipped t List.mem_cons_self r hsegment
    apply not_mem_map_cons
    · intro heq
      exact hdisjoint r hr t.id List.mem_cons_self heq
    · intro hcalled
      have hafter : r ∈ after := by
        apply hback.subset
        rw [List.mem_filter]
        exact ⟨hcalled, decide_eq_true (h.listed r hsegment)⟩
      have hlater : r ∈ t.id :: (after ++ future) :=
        List.mem_cons_of_mem _ (List.mem_append_left _ hafter)
      exact hdisjoint r hr r hlater rfl

/-- The one who is served is gone, and so is everybody in front. -/
theorem serve_head (h : Batch all gone (before ++ t.id :: after) future (t :: log))
    (ht : t.id ∈ all) (hback : ((log.map Turn.id).filter (· ∈ all)).Sublist after) :
    serve all (gone ++ ((before ++ t.id :: after) ++ future)) t = some (after ++ future) := by
  have hdisjoint := (List.nodup_append.mp h.nodup_around).2.2
  rw [List.append_assoc before, List.cons_append, ← List.append_assoc gone]
  apply serve_append ht
  · intro hmem
    exact hdisjoint _ hmem t.id List.mem_cons_self rfl
  · exact h.there t List.mem_cons_self
  · exact h.front_left hback

theorem ne_of_after (h : Batch all gone (before ++ t.id :: after) future (t :: log)) {r : ι}
    (hr : r ∈ after) : r ≠ t.id := by
  rintro rfl
  have hlater := (List.nodup_append.mp h.nodup_around).2.1
  exact (List.nodup_cons.mp hlater).1 (List.mem_append_left _ hr)

omit [DecidableEq ι] in
theorem mem_segment {r : ι} (hr : r ∈ after) : r ∈ before ++ t.id :: after :=
  List.mem_append_right _ (List.mem_cons_of_mem _ hr)

/-- The rest of the segment is served after that. -/
theorem tail (h : Batch all gone (before ++ t.id :: after) future (t :: log))
    (hback : ((log.map Turn.id).filter (· ∈ all)).Sublist after) :
    Batch all [] after future log := by
  constructor
  · intro r hr
    exact h.listed r (mem_segment hr)
  · exact hback
  · have hlater := (List.nodup_append.mp h.nodup_around).2.1
    exact (List.nodup_cons.mp hlater).2
  · intro _ _ r hr
    exact absurd hr List.not_mem_nil
  · intro t' ht' r hr hnot
    apply h.skipped t' (List.mem_cons_of_mem t ht') r (mem_segment hr)
    exact not_mem_map_cons (h.ne_of_after hr) hnot
  · intro t' ht'
    exact h.there t' (List.mem_cons_of_mem t ht')

end Batch

/-- After a batch, those of the segment who were not served have left, and
those who come after it are still to be served. -/
theorem serve_batch {all gone segment future : List ι} {log : List (Turn ι)}
    (h : Batch all gone segment future log) :
    ∃ gone', log.foldlM (serve all) (gone ++ (segment ++ future)) = some (gone' ++ future) ∧
      (gone' ++ future).Nodup ∧
      ∀ r ∈ gone', r ∈ gone ∨ (r ∈ segment ∧ r ∉ log.map Turn.id) := by
  induction log generalizing gone segment with
  | nil =>
      use gone ++ segment
      rw [List.append_assoc]
      refine ⟨rfl, h.nodup, ?_⟩
      intro r hr
      rcases List.mem_append.mp hr with hr | hr
      · exact Or.inl hr
      · exact Or.inr ⟨hr, List.not_mem_nil⟩
  | cons t log ih =>
      rw [List.foldlM_cons]
      by_cases ht : t.id ∈ all
      · obtain ⟨before, after, rfl, hback⟩ := h.split ht
        obtain ⟨gone', hrun, hnodup, hgone'⟩ := ih (h.tail hback)
        rw [h.serve_head ht hback]
        refine ⟨gone', hrun, hnodup, ?_⟩
        intro r hr
        rcases hgone' r hr with hnone | ⟨hafter, hnot⟩
        · exact absurd hnone List.not_mem_nil
        · right
          constructor
          · exact Batch.mem_segment hafter
          · exact Batch.not_mem_map_cons (h.ne_of_after hafter) hnot
      · obtain ⟨gone', hrun, hnodup, hgone'⟩ := ih (h.skip ht)
        rw [serve_of_not_mem ht]
        refine ⟨gone', hrun, hnodup, ?_⟩
        intro r hr
        rcases hgone' r hr with hgone | ⟨hsegment, hnot⟩
        · exact Or.inl hgone
        · right
          constructor
          · exact hsegment
          · apply Batch.not_mem_map_cons _ hnot
            rintro rfl
            exact ht (h.listed _ hsegment)

end LoginServer.Verified.InOrderDelivery
