import AnnotatedApi.Route.Regex

/-! # What regular expressions mean

The meaning of an expression is told piece by piece: what it takes of a text, and what has to
follow. The matcher goes over the text instead. It keeps one row of answers, with an entry for each
ending of the expression, and finds the row of a place from that of the next one; here the row is
told entry by entry, and the entries by the meaning. -/

namespace AnnotatedApi.Route.Regex

/-! ## Meaning -/

/-- What it means to match at the place in front of `rest`, which may be the front of the text. -/
def Matches : List Piece → (atFront : Bool) → (rest : List Char) → Prop
  | [], _, _ => True
  | .front :: pieces, atFront, rest => atFront = true ∧ Matches pieces atFront rest
  | .back :: pieces, atFront, rest => rest = [] ∧ Matches pieces atFront rest
  | .dot :: pieces, _, rest =>
      ∃ c after, c :: after = rest ∧ isWild c = true ∧ Matches pieces false after
  | .dots :: pieces, atFront, rest =>
      ∃ taken after, taken ++ after = rest ∧ (∀ c ∈ taken, isWild c = true) ∧
        Matches pieces (atFront && taken.isEmpty) after
  | .char d :: pieces, _, rest => ∃ after, d :: after = rest ∧ Matches pieces false after

variable {piece : Piece} {pieces : List Piece} {atFront : Bool} {c : Char} {rest : List Char}

/-- At the end of a text repeated dots take nothing. -/
theorem matches_dots_nil_iff :
    Matches (.dots :: pieces) atFront [] ↔ Matches pieces atFront [] := by
  constructor
  · rintro ⟨taken, after, hcut, -, h⟩
    obtain ⟨rfl, rfl⟩ := List.append_eq_nil_iff.mp hcut
    rwa [List.isEmpty_nil, Bool.and_true] at h
  · intro h
    refine ⟨[], [], rfl, List.forall_mem_nil _, ?_⟩
    rwa [List.isEmpty_nil, Bool.and_true]

/-- Repeated dots take nothing, or one more character. -/
theorem matches_dots_cons_iff :
    Matches (.dots :: pieces) atFront (c :: rest) ↔
      Matches pieces atFront (c :: rest) ∨
        isWild c = true ∧ Matches (.dots :: pieces) false rest := by
  constructor
  · rintro ⟨taken, after, hcut, hwild, h⟩
    cases taken with
    | nil =>
        rw [List.isEmpty_nil, Bool.and_true] at h
        exact .inl (hcut ▸ h)
    | cons d taken =>
        obtain ⟨rfl, hrest⟩ := List.cons.inj hcut
        obtain ⟨hc, hwild⟩ := List.forall_mem_cons.mp hwild
        rw [List.isEmpty_cons, Bool.and_false] at h
        exact .inr ⟨hc, taken, after, hrest, hwild, h⟩
  · rintro (h | ⟨hc, taken, after, rfl, hwild, h⟩)
    · refine ⟨[], c :: rest, rfl, List.forall_mem_nil _, ?_⟩
      rwa [List.isEmpty_nil, Bool.and_true]
    · refine ⟨c :: taken, after, rfl, List.forall_mem_cons.mpr ⟨hc, hwild⟩, ?_⟩
      rwa [List.isEmpty_cons, Bool.and_false]

/-! ## Rows -/

/-- The row of an expression has the answer for the whole of it in front of the row of its
ending. -/
theorem matchRow_cons (piece : Piece) (pieces : List Piece) (atFront : Bool) (rest : List Char) :
    matchRow (piece :: pieces) atFront rest =
      matchesHere (piece :: pieces) atFront rest :: matchRow pieces atFront rest := by
  induction rest generalizing atFront with
  | nil => rfl
  | cons c rest ih =>
      have hrow : matchRow (piece :: pieces) atFront (c :: rest) =
          rowBefore atFront (some c) (piece :: pieces)
            (matchRow (piece :: pieces) false rest) := rfl
      rw [matchesHere, hrow, ih]
      rfl

/-- Nothing is left to match. -/
theorem matchesHere_nil (atFront : Bool) (rest : List Char) :
    matchesHere [] atFront rest = true := by
  cases rest <;> rfl

/-- The answer at the end of a text, from the answer for the other pieces. -/
theorem matchesHere_cons_nil (piece : Piece) (pieces : List Piece) (atFront : Bool) :
    matchesHere (piece :: pieces) atFront [] =
      match piece with
      | .front => atFront && matchesHere pieces atFront []
      | .back => matchesHere pieces atFront []
      | .dots => matchesHere pieces atFront []
      | _ => false := by
  cases piece <;> simp [matchesHere, matchRow, rowBefore]

/-- The answer in front of a character, from the answer for the other pieces and the answers behind
it. -/
theorem matchesHere_cons_cons (piece : Piece) (pieces : List Piece) (atFront : Bool) (c : Char)
    (rest : List Char) :
    matchesHere (piece :: pieces) atFront (c :: rest) =
      match piece with
      | .front => atFront && matchesHere pieces atFront (c :: rest)
      | .back => false
      | .dot => isWild c && matchesHere pieces false rest
      | .dots =>
          matchesHere pieces atFront (c :: rest) ||
            (isWild c && matchesHere (.dots :: pieces) false rest)
      | .char d => d == c && matchesHere pieces false rest := by
  have hrow : matchRow (piece :: pieces) atFront (c :: rest) =
      rowBefore atFront (some c) (piece :: pieces) (matchRow (piece :: pieces) false rest) := rfl
  rw [matchesHere, hrow, matchRow_cons]
  cases piece <;> rfl

/-! ## Matching -/

/-- The rows answer whether there is a match at a place. -/
theorem matchesHere_eq_true_iff :
    matchesHere pieces atFront rest = true ↔ Matches pieces atFront rest := by
  induction rest generalizing pieces atFront with
  | nil =>
      induction pieces with
      | nil => simp [matchesHere_nil, Matches]
      | cons piece pieces ih =>
          rw [matchesHere_cons_nil]
          cases piece with
          | dots => rw [matches_dots_nil_iff, ih]
          | _ => simp [Matches, ih]
  | cons c rest ihRest =>
      -- repeated dots may take nothing, which leaves the text as it is and shortens the expression
      induction pieces with
      | nil => simp [matchesHere_nil, Matches]
      | cons piece pieces ih =>
          rw [matchesHere_cons_cons]
          cases piece with
          | dots => rw [Bool.or_eq_true, Bool.and_eq_true, matches_dots_cons_iff, ih, ihRest]
          | _ => simp [Matches, ih, ihRest, and_assoc]

/-- The search tries every place from the first on. -/
theorem matchesFrom_eq_true_iff :
    matchesFrom pieces atFront rest = true ↔
      ∃ before after, before ++ after = rest ∧
        Matches pieces (atFront && before.isEmpty) after := by
  induction rest generalizing atFront with
  | nil =>
      simp [matchesFrom, matchesHere_eq_true_iff, and_assoc]
  | cons c rest ih =>
      rw [matchesFrom, Bool.or_eq_true, matchesHere_eq_true_iff, ih]
      constructor
      · rintro (h | ⟨before, after, rfl, h⟩)
        · exact ⟨[], c :: rest, rfl, by simpa using h⟩
        · exact ⟨c :: before, after, rfl, by simpa using h⟩
      · rintro ⟨before, after, hcut, h⟩
        cases before with
        | nil => exact .inl (by simpa [← hcut] using h)
        | cons d before =>
            exact .inr ⟨before, after, (List.cons.inj hcut).2, by simpa using h⟩

/-- An expression with an anchor in front only matches at the front. -/
theorem isMatch_front_iff {text : String} :
    isMatch (.front :: pieces) text = true ↔ Matches pieces true text.toList := by
  rw [isMatch, matchesFrom_eq_true_iff]
  constructor
  · rintro ⟨before, after, hcut, hfront, h⟩
    rw [Bool.true_and] at hfront h
    rw [hfront] at h
    rw [List.isEmpty_iff.mp hfront, List.nil_append] at hcut
    rwa [← hcut]
  · intro h
    exact ⟨[], text.toList, rfl, rfl, h⟩

/-! ## Reading -/

/-- A dot and a star are read as repeated dots. -/
theorem read_dots (rest : List Char) :
    read ('.' :: '*' :: rest) = (read rest).map (.dots :: ·) := by
  rw [read]

/-- A dot is read on its own where no star follows. -/
theorem read_dot {rest : List Char} (h : rest.head? ≠ some '*') :
    read ('.' :: rest) = (read rest).map (.dot :: ·) := by
  rw [read]
  rintro after rfl
  exact h rfl

/-- An escaped character is read as itself. -/
theorem read_escape (c : Char) (rest : List Char) :
    read (escape c ++ rest) = (read rest).map (.char c :: ·) := by
  rw [escape]
  split
  · next hmeta =>
    show read ('\\' :: c :: rest) = _
    rw [read, if_pos hmeta]
  · next hmeta =>
    show read (c :: rest) = _
    -- the characters with a clause of their own have a meaning
    have hplain : ∀ d ∈ metaChars, c ≠ d := by
      rintro d hd rfl
      exact hmeta (List.contains_iff_mem.mpr hd)
    rw [read, if_neg hmeta]
    · exact fun _ h => absurd h (hplain '.' (by decide))
    · exact hplain '.' (by decide)
    · exact hplain '^' (by decide)
    · exact hplain '$' (by decide)
    · exact fun _ _ h => absurd h (hplain '\\' (by decide))

end AnnotatedApi.Route.Regex
