import AnnotatedApi.Proofs.Text.Blank

/-! # Last segments

The segments of a path stand between pairs of colons. The last one is read from the right, so it has
no pair of colons, and it is the last segment of itself. What comes before a path and a pair of
colons does not change its last segment, with one exception: three colons in a row hold two pairs,
of which reading from the right finds the second one. So a path that has a colon in front and no
pair of colons loses that colon behind another pair. -/

namespace AnnotatedApi.Text

/-! ## Pairs of colons -/

/-- A pair of colons stands in the characters. -/
def HasPair (chars : List Char) : Prop :=
  [':', ':'] <:+: chars

@[simp] theorem not_hasPair_nil : ¬ HasPair [] := by
  simp [HasPair]

/-- A pair of colons stands at the front or behind it. -/
theorem hasPair_cons_iff {c : Char} {chars : List Char} :
    HasPair (c :: chars) ↔ (c = ':' ∧ chars.head? = some ':') ∨ HasPair chars := by
  rw [HasPair, HasPair, List.infix_cons_iff, List.cons_prefix_cons, eq_comm]
  cases chars with
  | nil => simp
  | cons d chars => simp [List.cons_prefix_cons, eq_comm]

/-- A pair of colons is one from either side. -/
theorem hasPair_reverse_iff {chars : List Char} : HasPair chars.reverse ↔ HasPair chars := by
  have hpair : [':', ':'].reverse = [':', ':'] := rfl
  rw [HasPair, HasPair, ← hpair, List.reverse_infix, hpair]

/-- The last pair of colons has none behind its first colon. -/
theorem exists_last_pair {chars : List Char} (h : HasPair chars) :
    ∃ front back, chars = front ++ ':' :: ':' :: back ∧ ¬ HasPair (':' :: back) := by
  induction chars with
  | nil => exact absurd h not_hasPair_nil
  | cons c chars ih =>
      by_cases hrest : HasPair chars
      · obtain ⟨front, back, rfl, hback⟩ := ih hrest
        exact ⟨c :: front, back, rfl, hback⟩
      · -- the pair at the front is the only one
        obtain ⟨rfl, hhead⟩ := (hasPair_cons_iff.mp h).resolve_right hrest
        obtain ⟨back, rfl⟩ := List.head?_eq_some_iff.mp hhead
        exact ⟨[], back, rfl, hrest⟩

/-! ## Reading from the right -/

/-- Without a pair of colons everything is read. -/
theorem lastSegmentFrom_of_not_hasPair {chars : List Char} (h : ¬ HasPair chars)
    (segment : List Char) : lastSegmentFrom segment chars = chars.reverse ++ segment := by
  fun_induction lastSegmentFrom segment chars with
  | case1 segment => rfl
  | case2 segment rest => exact absurd (hasPair_cons_iff.mpr (.inl ⟨rfl, rfl⟩)) h
  | case3 segment c rest _ ih =>
      rw [hasPair_cons_iff, not_or] at h
      rw [ih h.2, List.reverse_cons, List.append_assoc, List.singleton_append]

/-- Reading stops at the first pair of colons. -/
theorem lastSegmentFrom_pair {chars : List Char} (h : ¬ HasPair (chars ++ [':']))
    (segment before : List Char) :
    lastSegmentFrom segment (chars ++ ':' :: ':' :: before) = chars.reverse ++ segment := by
  induction chars generalizing segment with
  | nil => rw [List.nil_append, lastSegmentFrom, List.reverse_nil, List.nil_append]
  | cons c chars ih =>
      rw [List.cons_append, hasPair_cons_iff, not_or] at h
      have hpair : ∀ rest, c = ':' → chars ++ ':' :: ':' :: before = ':' :: rest → False := by
        intro rest hc hrest
        refine h.1 ⟨hc, ?_⟩
        cases chars with
        | nil => rfl
        | cons d chars => rw [(List.cons.inj hrest).1]; rfl
      rw [List.cons_append, lastSegmentFrom.eq_3 _ _ _ hpair, ih h.2, List.reverse_cons,
        List.append_assoc, List.singleton_append]

/-- A path without a pair of colons is its own last segment. -/
theorem lastSegment_of_not_hasPair {path : String} (h : ¬ HasPair path.toList) :
    lastSegment path = path := by
  rw [lastSegment, lastSegmentFrom_of_not_hasPair (hasPair_reverse_iff.not.mpr h),
    List.append_nil, List.reverse_reverse, String.ofList_toList]

/-- What follows the last pair of colons is the last segment. -/
theorem toList_lastSegment_of_pair {path : String} {front back : List Char}
    (hpath : path.toList = front ++ ':' :: ':' :: back) (h : ¬ HasPair (':' :: back)) :
    (lastSegment path).toList = back := by
  have hreverse : path.toList.reverse = back.reverse ++ ':' :: ':' :: front.reverse := by
    rw [hpath]
    simp
  have hback : ¬ HasPair (back.reverse ++ [':']) := by
    rw [← List.reverse_cons, hasPair_reverse_iff]
    exact h
  rw [lastSegment, String.toList_ofList, hreverse, lastSegmentFrom_pair hback, List.append_nil,
    List.reverse_reverse]

/-- No pair of colons stands in a last segment. -/
theorem not_hasPair_lastSegment (path : String) : ¬ HasPair (lastSegment path).toList := by
  by_cases h : HasPair path.toList
  · obtain ⟨front, back, hpath, hback⟩ := exists_last_pair h
    rw [toList_lastSegment_of_pair hpath hback]
    exact fun hpair => hback (hasPair_cons_iff.mpr (.inr hpair))
  · rw [lastSegment_of_not_hasPair h]
    exact h

/-- The last segment is the last segment of itself. -/
@[simp] theorem lastSegment_lastSegment (path : String) :
    lastSegment (lastSegment path) = lastSegment path :=
  lastSegment_of_not_hasPair (not_hasPair_lastSegment path)

/-! ## Longer paths -/

/-- A colon stands in front, and no pair of colons anywhere. -/
structure HasLooseColon (path : String) : Prop where
  /-- The path starts with a colon. -/
  head : path.toList.head? = some ':'
  /-- No pair of colons stands in it. -/
  unpaired : ¬ HasPair path.toList

/-- What comes before a path and a pair of colons does not change the last segment, unless the path
has a loose colon in front. -/
theorem lastSegment_append {path longer : String} {front : List Char}
    (hlonger : longer.toList = front ++ ':' :: ':' :: path.toList) (h : ¬ HasLooseColon path) :
    lastSegment longer = lastSegment path := by
  rw [← String.toList_inj]
  by_cases hpair : HasPair path.toList
  · obtain ⟨before, back, hpath, hback⟩ := exists_last_pair hpair
    have hcut : longer.toList = (front ++ ':' :: ':' :: before) ++ ':' :: ':' :: back := by
      rw [hlonger, hpath]
      simp
    rw [toList_lastSegment_of_pair hpath hback, toList_lastSegment_of_pair hcut hback]
  · have hback : ¬ HasPair (':' :: path.toList) := by
      rw [hasPair_cons_iff, not_or]
      exact ⟨fun hcolon => h ⟨hcolon.2, hpair⟩, hpair⟩
    rw [toList_lastSegment_of_pair hlonger hback, lastSegment_of_not_hasPair hpair]

/-- A loose colon is lost behind a pair of colons. -/
theorem HasLooseColon.toList_lastSegment_append {path longer : String} (h : HasLooseColon path)
    {front : List Char} (hlonger : longer.toList = front ++ ':' :: ':' :: path.toList) :
    (lastSegment longer).toList = path.toList.tail := by
  obtain ⟨back, hpath⟩ := List.head?_eq_some_iff.mp h.head
  have hcut : longer.toList = (front ++ [':']) ++ ':' :: ':' :: back := by
    rw [hlonger, hpath]
    simp
  rw [toList_lastSegment_of_pair hcut (hpath ▸ h.unpaired), hpath, List.tail_cons]

end AnnotatedApi.Text
