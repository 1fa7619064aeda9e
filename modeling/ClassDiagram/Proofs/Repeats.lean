import Mathlib.Data.List.Induction
import Mathlib.Data.List.Nodup

/-! A list without its repeats holds each element where it occurs first. -/

namespace ClassDiagram

variable {α β : Type} [DecidableEq α] [DecidableEq β]

/-- The last element counts when it has not occurred before. -/
theorem eraseDups_append_singleton (l : List α) (a : α) :
    (l ++ [a]).eraseDups = if a ∈ l then l.eraseDups else l.eraseDups ++ [a] := by
  rw [List.eraseDups_append]
  split
  · next h => simp [List.removeAll, h]
  · next h => simp [List.removeAll, h, List.eraseDups_cons]

theorem nodup_eraseDups (l : List α) : l.eraseDups.Nodup := by
  induction l using List.reverseRecOn with
  | nil => simp
  | append_singleton l a ih =>
    rw [eraseDups_append_singleton]
    split
    · exact ih
    · next h =>
      refine ih.append (List.nodup_singleton a) (List.disjoint_singleton.2 ?_)
      rwa [List.mem_eraseDups]

theorem eraseDups_of_nodup {l : List α} (h : l.Nodup) : l.eraseDups = l := by
  induction l using List.reverseRecOn with
  | nil => rfl
  | append_singleton l a ih =>
    obtain ⟨hl, -, hdisjoint⟩ := List.nodup_append.1 h
    have ha : a ∉ l := fun ha => hdisjoint a ha a (List.mem_singleton_self a) rfl
    rw [eraseDups_append_singleton, if_neg ha, ih hl]

/-- Elements come in the order of their first occurrences. -/
theorem pairwise_idxOf_eraseDups (l : List α) :
    l.eraseDups.Pairwise fun a b => l.idxOf a < l.idxOf b := by
  induction l using List.reverseRecOn with
  | nil => simp
  | append_singleton l x ih =>
    have hold : ∀ a ∈ l, (l ++ [x]).idxOf a = l.idxOf a := fun a ha => List.idxOf_append_of_mem ha
    have hkept : l.eraseDups.Pairwise fun a b => (l ++ [x]).idxOf a < (l ++ [x]).idxOf b := by
      refine ih.imp_of_mem fun ha hb h => ?_
      rwa [hold _ (List.mem_eraseDups.1 ha), hold _ (List.mem_eraseDups.1 hb)]
    rw [eraseDups_append_singleton]
    split
    · exact hkept
    · next hx =>
      refine List.pairwise_append.2 ⟨hkept, List.pairwise_singleton _ _, ?_⟩
      intro a ha b hb
      obtain rfl := List.mem_singleton.1 hb
      have ha := List.mem_eraseDups.1 ha
      rw [hold a ha, List.idxOf_append_of_notMem hx]
      exact Nat.lt_of_lt_of_le (List.idxOf_lt_length_iff.2 ha) (Nat.le_add_right _ _)

/-- Repeats need not be erased before a function is applied if they are erased behind it. -/
theorem eraseDups_filterMap_eraseDups (f : α → Option β) (l : List α) :
    (l.eraseDups.filterMap f).eraseDups = (l.filterMap f).eraseDups := by
  induction l using List.reverseRecOn with
  | nil => rfl
  | append_singleton l a ih =>
    rw [eraseDups_append_singleton, List.filterMap_append]
    cases hf : f a with
    | none => split <;> simp [ih, hf]
    | some b =>
      have hlast : [a].filterMap f = [b] := by simp [hf]
      rw [hlast, eraseDups_append_singleton]
      split
      · next ha => rw [if_pos (List.mem_filterMap.2 ⟨a, ha, hf⟩), ih]
      · have hmem : b ∈ l.eraseDups.filterMap f ↔ b ∈ l.filterMap f := by
          simp [List.mem_filterMap, List.mem_eraseDups]
        rw [List.filterMap_append, hlast, eraseDups_append_singleton, ih, if_congr hmem rfl rfl]

theorem filter_eraseDups (p : α → Bool) (l : List α) :
    l.eraseDups.filter p = (l.filter p).eraseDups := by
  have h := eraseDups_filterMap_eraseDups (Option.guard p) l
  rw [List.filterMap_eq_filter] at h
  rw [← h, eraseDups_of_nodup ((nodup_eraseDups l).filter p)]

end ClassDiagram
