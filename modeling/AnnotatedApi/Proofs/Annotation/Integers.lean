import AnnotatedApi.Proofs.Annotation.Printing
import AnnotatedApi.Proofs.Source.Spelling

/-! # Integers as arguments

An integer is given to a name in decimal digits, with a minus sign in front of the negative ones.
It is read as what it is, or it is refused, and which of both only depends on its size: the integers
of 64 bits are read, with or without a sign, except for the least of them. Its digits are read
before its sign, and without the sign they are too many for a signed integer. -/

namespace AnnotatedApi

namespace Source

/-! ## Texts -/

/-- The pieces stand in a text one after the other, with blanks anywhere around them. -/
inductive Spaced : List (List Char) → List Char → Prop where
  | nil : Spaced [] []
  | blank {c : Char} {pieces : List (List Char)} {chars : List Char}
      (hc : isSourceBlank c = true) (h : Spaced pieces chars) : Spaced pieces (c :: chars)
  | piece {front : List Char} {pieces : List (List Char)} {chars : List Char}
      (h : Spaced pieces chars) : Spaced (front :: pieces) (front ++ chars)

/-- A text that gives an integer to a name: the name, an equals sign and a decimal literal, which
may have a minus sign in front. -/
def WritesInteger (name : String) (value : Int) (text : List Char) : Prop :=
  ∃ word digits n, PrintsKey name word ∧ WritesDecimal digits n ∧
    (value = n ∧ Spaced [word.toList, ['='], digits] text ∨
      value = -n ∧ Spaced [word.toList, ['='], ['-'], digits] text)

variable {front written text : List Char} {pieces : List (List Char)}

/-- Only blanks stand before the first piece. -/
theorem Spaced.exists_front (h : Spaced (front :: pieces) text) :
    ∃ blanks rest, text = blanks ++ (front ++ rest) ∧
      (∀ c ∈ blanks, isSourceBlank c = true) ∧ Spaced pieces rest := by
  generalize hall : front :: pieces = all at h
  induction h with
  | nil => cases hall
  | @blank c _ _ hc _ ih =>
      obtain ⟨blanks, rest, rfl, hblanks, hrest⟩ := ih hall
      exact ⟨c :: blanks, rest, rfl, List.forall_mem_cons.mpr ⟨hc, hblanks⟩, hrest⟩
  | @piece _ _ chars h =>
      obtain ⟨rfl, rfl⟩ := List.cons.inj hall
      exact ⟨[], chars, rfl, List.forall_mem_nil _, h⟩

theorem stops_of_blank {c : Char} (h : isSourceBlank c = true) (rest : List Char) :
    Stops (c :: rest) :=
  stops_cons (by rw [isBreak, h, Bool.true_or]) rest

/-- Only blanks stand after the last piece. -/
theorem Spaced.scans (h : Spaced [] text) : Scans [] text ∧ Stops text := by
  generalize hall : ([] : List (List Char)) = all at h
  induction h with
  | nil => exact ⟨.nil, fun c hc => absurd hc (Option.not_mem_none c)⟩
  | blank hc _ ih => exact ⟨(ih hall).1.blank hc, stops_of_blank hc _⟩
  | piece => cases hall

/-- Blanks in front are skipped. -/
theorem Scans.blanks {blanks : List Char} (hblanks : ∀ c ∈ blanks, isSourceBlank c = true)
    {lexemes : List Lexeme} (h : Scans lexemes text) : Scans lexemes (blanks ++ text) := by
  induction blanks with
  | nil => exact h
  | cons c blanks ih =>
      obtain ⟨hc, hblanks⟩ := List.forall_mem_cons.mp hblanks
      exact (ih hblanks).blank hc

/-- A piece that writes a lexeme is read before what the other pieces write. -/
theorem Scans.of_writes {blanks : List Char} (hblanks : ∀ c ∈ blanks, isSourceBlank c = true)
    {lexeme : Lexeme} (hfront : WritesLexeme lexeme front text) {lexemes : List Lexeme}
    (h : Scans lexemes text) : Scans (lexeme :: lexemes) (blanks ++ (front ++ text)) :=
  (h.cons (hfront.read h.head_ne) hfront.exists_head).blanks hblanks

/-- How the name of an argument is written before what ends words. -/
theorem PrintsKey.writes {name word : String} (h : PrintsKey name word) (hrest : Stops text) :
    WritesLexeme (.name word) word.toList text := by
  obtain ⟨hkey, rfl | ⟨hraw, rfl⟩⟩ := h
  · simp only [isKey, Bool.and_eq_true] at hkey
    exact .name hkey.1.1 hrest
  · simp only [isKey, Bool.and_eq_true] at hkey
    rw [String.toList_ofList]
    exact .rawName hkey.1.1 hraw hrest

/-- A name and an equals sign are read before the value that is given to the name. -/
theorem Spaced.exists_assigned {name word : String} (hword : PrintsKey name word)
    (h : Spaced (word.toList :: ['='] :: pieces) text) :
    ∃ joint rest, Spaced pieces rest ∧
      ∀ lexemes, Scans lexemes rest → Scans (.name word :: .sign '=' joint :: lexemes) text := by
  obtain ⟨before, _, rfl, hbefore, h⟩ := h.exists_front
  obtain ⟨between, rest, rfl, hbetween, h⟩ := h.exists_front
  have hstops : Stops (between ++ (['='] ++ rest)) := by
    cases between with
    | nil => exact stops_cons rfl _
    | cons c between => exact stops_of_blank (hbetween c List.mem_cons_self) _
  refine ⟨startsSign rest, rest, h, fun lexemes hlexemes => ?_⟩
  have hsign : WritesLexeme (.sign '=' (startsSign rest)) ['='] rest :=
    .sign (by decide) (by decide)
  have hequals := Scans.of_writes hbetween hsign hlexemes
  exact .of_writes hbefore (hword.writes hstops) hequals

/-- A minus sign is read before the digits. -/
theorem Spaced.exists_negated (h : Spaced (['-'] :: pieces) text) :
    ∃ joint rest, Spaced pieces rest ∧
      ∀ lexemes, Scans lexemes rest → Scans (.sign '-' joint :: lexemes) text := by
  obtain ⟨before, rest, rfl, hbefore, h⟩ := h.exists_front
  exact ⟨startsSign rest, rest, h, fun _ => Scans.of_writes hbefore (.sign (by decide) (by decide))⟩

/-- The digits are read as a literal. -/
theorem Spaced.scans_decimal {digits : List Char} {n : Nat} (hdigits : WritesDecimal digits n)
    (h : Spaced [digits] text) : Scans [.literal ⟨.integer n, "", []⟩] text := by
  obtain ⟨before, rest, rfl, hbefore, h⟩ := h.exists_front
  obtain ⟨hscans, hstops⟩ := h.scans
  have hread := hdigits.readLexeme_append hstops
  exact (hscans.cons hread hdigits.exists_shown).blanks hbefore

/-! ## Values -/

/-- The integers that can be given to a name. -/
def IsGiven (value : Int) : Prop :=
  -0x8000000000000000 < value ∧ value < 0x10000000000000000

instance (value : Int) : Decidable (IsGiven value) :=
  inferInstanceAs (Decidable (_ ∧ _))

/-- A number with a minus sign in front, or without one. -/
def signed (negated : Bool) (n : Nat) : Int :=
  if negated then -n else n

/-- A literal is a number if its value, with the sign, can be given. -/
theorem literalArg_integer (n : Nat) (negated : Bool) :
    literalArg ⟨.integer n, "", []⟩ negated =
      if IsGiven (signed negated n) then .ok (.number (.int (signed negated n)))
      else .error .malformed := by
  cases negated with
  | false =>
      have hgiven : IsGiven (signed false n) ↔ Number.inRange n = true := by
        simp only [IsGiven, signed, Number.inRange, Bool.and_eq_true, decide_eq_true_eq,
          Bool.false_eq_true, if_false]
        omega
      rw [literalArg]
      simp only [hgiven, Bool.false_eq_true, if_false]
      rfl
  | true =>
      -- a natural number is not the least integer, the only one that is its own negation
      have hne : ¬ (n : Int) = -0x8000000000000000 := by omega
      have hsigned : signed true n = -n := rfl
      by_cases h : (n : Int) < 0x8000000000000000
      · have hnegated : negated64? n = some (-n : Int) := by
          rw [negated64?, if_neg hne, if_pos ⟨by omega, h⟩]
        rw [if_pos ⟨by omega, by omega⟩, hsigned]
        simp [literalArg, hnegated]
      · have hnegated : negated64? n = none := by
          rw [negated64?, if_neg hne, if_neg fun hboth => h hboth.2]
        rw [if_neg fun hgiven => h (by have := hgiven.1; omega)]
        simp [literalArg, hnegated]

/-- An argument has an integer as its value, whichever way it is asked for it. -/
structure HoldsInteger (arg : Arg) (value : Int) : Prop where
  json : arg.asJson = .number (.int value)
  number : arg.asNumber = .ok (.int value)
  /-- As a natural number it is only there if it is one. -/
  nat : ∀ n : Nat, arg.asNat = .ok n ↔ (n : Int) = value

/-- A number that is an integer is held as this integer. -/
theorem holdsInteger (name : String) (value : Int) :
    HoldsInteger (name, .number (.int value)) value where
  json := by rw [Arg.asJson, ArgValue.toJson]
  number := rfl
  nat n := by
    rw [Arg.asNat]
    by_cases h : 0 ≤ value
    · have hnat : (Number.int value).toNat? = some value.toNat := if_pos h
      simp only [hnat, Except.ok.injEq]
      omega
    · have hnat : (Number.int value).toNat? = none := if_neg h
      simp only [hnat]
      constructor
      · intro hok
        cases hok
      · omega

/-! ## Reading -/

/-- A scalar that is given to a name makes one argument. -/
theorem readArgs_assigned {name word : String} (hword : PrintsKey name word) (joint : Bool)
    {value : List Token} (hflat : ∀ token ∈ value, token.depth = 0) (hcommaless : Commaless value) :
    readArgs (.name word :: .sign '=' joint :: value) =
      (noRest (readScalar value false)).map fun value => [(name, value)] := by
  obtain ⟨htrue, hfalse, hunraw⟩ := hword.spec
  have hcut : cutAtCommas [] (.name word :: .sign '=' joint :: value) =
      [(.name word :: .sign '=' joint :: value, false)] :=
    cutAtCommas_commaless
      (List.forall_mem_cons.mpr ⟨rfl, List.forall_mem_cons.mpr ⟨rfl, hcommaless⟩⟩) []
      (.inr (List.cons_ne_nil _ _))
  have hscalar : ∀ depth, readValue depth (value, false) = readScalar value false := by
    intro depth
    refine readValue_eq_readScalar ?_ depth false
    rintro inner rest rfl
    have hdepth := hflat _ List.mem_cons_self
    simp [Token.depth] at hdepth
  rw [readArgs, hcut, readArgPieces, readArg]
  simp only [startsPositional, startsLiteral, readLiteralToken_name htrue hfalse, hscalar, hunraw,
    readArgPieces]
  cases noRest (readScalar value false) <;> rfl

variable {name : String} {value : Int}

/-- A literal that is given to a name makes one argument. -/
theorem readArgs_literal {word : String} (hword : PrintsKey name word) (joint joint' : Bool)
    (n : Nat) (negated : Bool) :
    readArgs (.name word :: .sign '=' joint ::
        ((if negated then [.sign '-' joint'] else []) ++ [.literal ⟨.integer n, "", []⟩])) =
      (literalArg ⟨.integer n, "", []⟩ negated).map fun value => [(name, value)] := by
  cases negated with
  | false =>
      rw [readArgs_assigned hword joint (by simp [Token.depth]) (by simp [Commaless, Token.isSign])]
      simp only [Bool.false_eq_true, if_false, List.nil_append, readScalar_literal]
      cases literalArg ⟨.integer n, "", []⟩ false <;> rfl
  | true =>
      rw [readArgs_assigned hword joint (by simp [Token.depth]) (by simp [Commaless, Token.isSign])]
      simp only [if_true, List.singleton_append, readScalar_minus]
      cases literalArg ⟨.integer n, "", []⟩ true <;> rfl

/-- The tokens of an integer that is given to a name. -/
theorem WritesInteger.exists_tokens (h : WritesInteger name value text) :
    ∃ word joint joint' n negated, PrintsKey name word ∧ value = signed negated n ∧
      Token.read text = some (.name word :: .sign '=' joint ::
        ((if negated then [.sign '-' joint'] else []) ++ [.literal ⟨.integer n, "", []⟩])) := by
  obtain ⟨word, digits, n, hword, hdigits, ⟨rfl, hspaced⟩ | ⟨rfl, hspaced⟩⟩ := h
  · obtain ⟨joint, rest, hrest, hscans⟩ := hspaced.exists_assigned hword
    exact ⟨word, joint, false, n, false, hword, rfl,
      Token.read_of_scans (hscans _ (hrest.scans_decimal hdigits))⟩
  · obtain ⟨joint, rest, hrest, hscans⟩ := hspaced.exists_assigned hword
    obtain ⟨joint', rest', hrest', hscans'⟩ := hrest.exists_negated
    exact ⟨word, joint, joint', n, true, hword, rfl,
      Token.read_of_scans (hscans _ (hscans' _ (hrest'.scans_decimal hdigits)))⟩

/-- Whether an integer is read only depends on its size. -/
theorem WritesInteger.read (h : WritesInteger name value text) :
    (Token.read text).map readArgs =
      some (if IsGiven value then .ok [(name, .number (.int value))] else .error .malformed) := by
  obtain ⟨word, joint, joint', n, negated, hword, rfl, htokens⟩ := h.exists_tokens
  rw [htokens, Option.map_some, readArgs_literal hword, literalArg_integer]
  split <;> rfl

/-- An integer that is given to a name is read as it is, up to the greatest of 64 bits without a
sign and down to the second least with a sign. Every other one is refused. -/
theorem readArgs_integer (h : WritesInteger name value text) :
    (IsGiven value →
        (Token.read text).map readArgs = some (.ok [(name, .number (.int value))]) ∧
          HoldsInteger (name, .number (.int value)) value) ∧
      (¬ IsGiven value → ∃ cause, (Token.read text).map readArgs = some (.error cause)) := by
  rw [h.read]
  constructor
  · intro hgiven
    rw [if_pos hgiven]
    exact ⟨rfl, holdsInteger name value⟩
  · intro hrefused
    rw [if_neg hrefused]
    exact ⟨.malformed, rfl⟩

/-- The greatest integer of 64 bits without a sign. -/
def greatestText : List Char :=
  "maximum = 18446744073709551615".toList

/-- A negative integer without blanks, with a zero in front and an underscore. -/
def gapText : List Char :=
  "minimum=-01_0".toList

theorem writesInteger_greatestText : WritesInteger "maximum" 18446744073709551615 greatestText := by
  have hkey : PrintsKey "maximum" "maximum" := ⟨by decide +kernel, .inl rfl⟩
  have htext : greatestText = "maximum".toList ++
      ' ' :: (['='] ++ ' ' :: (Nat.toDigits 10 18446744073709551615 ++ [])) := by
    decide +kernel
  refine ⟨_, _, _, hkey, .toDigits 18446744073709551615, .inl ⟨rfl, ?_⟩⟩
  rw [htext]
  exact .piece (.blank rfl (.piece (.blank rfl (.piece .nil))))

theorem writesInteger_gapText : WritesInteger "minimum" (-10) gapText := by
  have hkey : PrintsKey "minimum" "minimum" := ⟨by decide +kernel, .inl rfl⟩
  have hzero : WritesDecimal ['0'] 0 := .digit rfl
  have hdigits : WritesDecimal ['0', '1', '_', '0'] 10 :=
    (hzero.more (c := '1') rfl).gap.more (c := '0') rfl
  have htext : gapText =
      "minimum".toList ++ (['='] ++ (['-'] ++ (['0', '1', '_', '0'] ++ []))) := by
    decide +kernel
  refine ⟨_, _, _, hkey, hdigits, .inr ⟨rfl, ?_⟩⟩
  rw [htext]
  exact .piece (.piece (.piece (.piece .nil)))

/-- Both are read as they are. -/
theorem readArgs_integer_greatestText :
    WritesInteger "maximum" 18446744073709551615 greatestText ∧ IsGiven 18446744073709551615 ∧
      (Token.read greatestText).map readArgs =
        some (.ok [("maximum", .number (.int 18446744073709551615))]) ∧
      WritesInteger "minimum" (-10) gapText ∧ IsGiven (-10) ∧
      (Token.read gapText).map readArgs = some (.ok [("minimum", .number (.int (-10)))]) := by
  have hgreatest : IsGiven 18446744073709551615 := by decide
  have hgap : IsGiven (-10) := by decide
  exact ⟨writesInteger_greatestText, hgreatest,
    ((readArgs_integer writesInteger_greatestText).1 hgreatest).1, writesInteger_gapText, hgap,
    ((readArgs_integer writesInteger_gapText).1 hgap).1⟩

/-- The least integer of 64 bits with a sign. -/
def leastText : List Char :=
  "minimum = -9223372036854775808".toList

theorem writesInteger_leastText :
    WritesInteger "minimum" (-0x8000000000000000) leastText := by
  have hkey : PrintsKey "minimum" "minimum" := ⟨by decide +kernel, .inl rfl⟩
  have htext : leastText = "minimum".toList ++ ' ' :: (['='] ++ ' ' :: (['-'] ++
      (Nat.toDigits 10 0x8000000000000000 ++ []))) := by
    decide +kernel
  refine ⟨_, _, _, hkey, .toDigits 0x8000000000000000, .inr ⟨rfl, ?_⟩⟩
  rw [htext]
  exact .piece (.blank rfl (.piece (.blank rfl (.piece (.piece .nil)))))

/-- It is in the range of numbers and is refused all the same. -/
theorem readArgs_leastText_refused :
    WritesInteger "minimum" (-0x8000000000000000) leastText ∧
      Number.inRange (-0x8000000000000000) = true ∧
      (Token.read leastText).map readArgs = some (.error .malformed) := by
  have hrefused : ¬ IsGiven (-0x8000000000000000) := by decide
  refine ⟨writesInteger_leastText, by decide, ?_⟩
  rw [writesInteger_leastText.read, if_neg hrefused]

end Source

end AnnotatedApi
