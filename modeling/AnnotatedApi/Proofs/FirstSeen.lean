import Mathlib.Data.List.Basic
import Mathlib.Data.List.Induction

/-! # The order of first occurrence

Wherever this library drops repetitions, the first occurrence keeps its place. `FirstSeen all kept`
says so without naming an algorithm: `kept` has the elements of `all`, ordered by where `all` has
them first. There is only one such list, and dropping repetitions gives it. -/

namespace AnnotatedApi

/-- `kept` lists the elements of `all` once each, in the order in which they are first seen. -/
structure FirstSeen [BEq α] (all kept : List α) : Prop where
  /-- Nothing is lost and nothing is added. -/
  mem_iff : ∀ a, a ∈ kept ↔ a ∈ all
  /-- What stands earlier was seen earlier. -/
  ordered : kept.Pairwise fun a b => all.idxOf a < all.idxOf b

namespace FirstSeen

variable [BEq α]

/-- Nothing is listed twice, as no place is before itself. -/
theorem nodup {all kept : List α} (h : FirstSeen all kept) : kept.Nodup := by
  refine h.ordered.imp ?_
  intro a b hab heq
  rw [heq] at hab
  exact Nat.lt_irrefl _ hab

/-- The order of first occurrence is the only one that both parts allow. -/
theorem unique {all kept other : List α} (h : FirstSeen all kept) (h' : FirstSeen all other) :
    kept = other := by
  have hperm : kept.Perm other := by
    rw [List.perm_ext_iff_of_nodup h.nodup h'.nodup]
    intro a
    rw [h.mem_iff, h'.mem_iff]
  -- two lists in strict order that are permutations of one another are equal
  refine hperm.eq_of_pairwise ?_ h.ordered h'.ordered
  intro a b _ _ hab hba
  exact absurd hab (Nat.lt_asymm hba)

end FirstSeen

/-! ## Dropping repetitions -/

section EraseDups

variable [BEq α] [LawfulBEq α]

/-- One more element at the end is kept unless it was seen before. -/
theorem eraseDups_concat (all : List α) (a : α) :
    (all ++ [a]).eraseDups = if a ∈ all then all.eraseDups else all.eraseDups ++ [a] := by
  rw [List.eraseDups_append]
  by_cases h : a ∈ all
  · simp [h, List.removeAll]
  · simp [h, List.removeAll, List.eraseDups_cons]

/-- Leaving out elements before or after dropping repetitions is the same. -/
theorem eraseDups_filter (p : α → Bool) (all : List α) :
    (all.filter p).eraseDups = all.eraseDups.filter p := by
  induction all using List.reverseRecOn with
  | nil => rfl
  | append_singleton all a ih =>
      rw [List.filter_append, eraseDups_concat]
      by_cases ha : p a
      · have hsingle : [a].filter p = [a] := by simp [ha]
        rw [hsingle, eraseDups_concat, ih]
        by_cases hmem : a ∈ all
        · rw [if_pos (List.mem_filter.mpr ⟨hmem, ha⟩), if_pos hmem]
        · have hmem' : a ∉ all.filter p := fun h => hmem (List.mem_of_mem_filter h)
          rw [if_neg hmem', if_neg hmem, List.filter_append, hsingle]
      · have hnone : [a].filter p = [] := by simp [ha]
        rw [hnone, List.append_nil, ih]
        split
        · rfl
        · rw [List.filter_append, hnone, List.append_nil]

/-- Dropping repetitions keeps the order of first occurrence. -/
theorem firstSeen_eraseDups (all : List α) : FirstSeen all all.eraseDups := by
  refine ⟨fun a => List.mem_eraseDups, ?_⟩
  induction all using List.reverseRecOn with
  | nil => exact List.Pairwise.nil
  | append_singleton all a ih =>
      -- the places of what was seen before do not change when the list grows at its end
      have hkept : all.eraseDups.Pairwise
          fun b c => (all ++ [a]).idxOf b < (all ++ [a]).idxOf c := by
        refine ih.imp_of_mem ?_
        intro b c hb hc hbc
        rw [List.idxOf_append, List.idxOf_append, if_pos (List.mem_eraseDups.mp hb),
          if_pos (List.mem_eraseDups.mp hc)]
        exact hbc
      rw [eraseDups_concat]
      split
      · exact hkept
      · next hnew =>
        rw [List.pairwise_append]
        refine ⟨hkept, List.pairwise_singleton _ _, ?_⟩
        intro b hb c hc
        rw [List.mem_singleton] at hc
        have hmem : b ∈ all := List.mem_eraseDups.mp hb
        rw [hc, List.idxOf_append, List.idxOf_append, if_pos hmem, if_neg hnew]
        have hlt := List.idxOf_lt_length_of_mem hmem
        omega

/-- What is left after dropping repetitions has none. -/
theorem nodup_eraseDups (all : List α) : all.eraseDups.Nodup :=
  (firstSeen_eraseDups all).nodup

/-- A list in the order of first occurrence is what dropping repetitions gives. -/
theorem FirstSeen.eq_eraseDups {all kept : List α} (h : FirstSeen all kept) :
    kept = all.eraseDups :=
  h.unique (firstSeen_eraseDups all)

end EraseDups

end AnnotatedApi
