import AnnotatedApi.Proofs.Annotation.Printing
import AnnotatedApi.Proofs.Source.Spelling

/-! # Texts of arguments

A text prints arguments when it writes the tokens of one of their printings. Every list of arguments
that can be printed has such a text, and each of its texts is read as the list, so different lists
have different texts. -/

namespace AnnotatedApi.Source

/-! ## Writing the tokens -/

/-- The tokens can be written before any text. -/
def Writable (tokens : List Token) : Prop :=
  ∃ written, ∀ lexemes chars, Writes lexemes chars →
    Writes (Token.lexemesOfList tokens ++ lexemes) (written ++ chars)

namespace Writable

theorem nil : Writable [] := ⟨[], fun _ _ h => h⟩

theorem append {front back : List Token} (hfront : Writable front) (hback : Writable back) :
    Writable (front ++ back) := by
  obtain ⟨written, hwritten⟩ := hfront
  obtain ⟨written', hwritten'⟩ := hback
  refine ⟨written ++ written', fun lexemes chars h => ?_⟩
  rw [Token.lexemesOfList_append, List.append_assoc, List.append_assoc]
  exact hwritten _ _ (hwritten' _ _ h)

/-- One lexeme with a blank after it. -/
theorem of_lexeme {token : Token} {lexeme : Lexeme} {written : List Char}
    (htoken : token.lexemes = [lexeme])
    (h : ∀ chars, WritesLexeme lexeme written (' ' :: chars)) : Writable [token] := by
  refine ⟨written ++ [' '], fun lexemes chars hchars => ?_⟩
  rw [Token.lexemesOfList, htoken, Token.lexemesOfList, List.append_nil, List.append_assoc]
  exact .cons (h chars) (.blank rfl hchars)

theorem name {word : String} (h : isWord word = true) : Writable [.name word] :=
  of_lexeme rfl fun chars => .name h (stops_cons rfl chars)

theorem integer (n : Nat) : Writable [.literal ⟨.integer n, "", []⟩] :=
  of_lexeme rfl fun chars => .integer n (stops_cons rfl chars)

theorem sign {c : Char} (hc : c ∈ signs) (hslash : c ≠ '/') : Writable [.sign c false] :=
  of_lexeme rfl fun chars => @WritesLexeme.sign c (' ' :: chars) hc hslash

theorem colons : Writable [.sign ':' true, .sign ':' false] := by
  refine ⟨[':', ':', ' '], fun lexemes chars h => ?_⟩
  have hsecond : Writes (.sign ':' false :: lexemes) (':' :: ' ' :: chars) :=
    .cons (@WritesLexeme.sign ':' (' ' :: chars) (by decide) (by decide)) (.blank rfl h)
  have hfirst : WritesLexeme (.sign ':' true) [':'] (':' :: ' ' :: chars) :=
    @WritesLexeme.sign ':' (':' :: ' ' :: chars) (by decide) (by decide)
  show Writes (.sign ':' true :: .sign ':' false :: lexemes) ([':'] ++ ':' :: ' ' :: chars)
  exact .cons hfirst hsecond

theorem group {tokens : List Token} (delimiter : Delimiter) (h : Writable tokens) :
    Writable [.group delimiter tokens] := by
  obtain ⟨written, hwritten⟩ := h
  refine ⟨delimiter.openingMark :: written ++ [delimiter.closingMark], fun lexemes chars h => ?_⟩
  have hclosing : Writes (.closing delimiter :: lexemes) (delimiter.closingMark :: chars) :=
    .cons (.closing delimiter) h
  have hinner := Writes.cons (.opening delimiter) (hwritten _ _ hclosing)
  simpa [Token.lexemesOfList, Token.lexemes] using hinner

/-- Every string can be written: a quote, a backslash and a carriage return by an escape, any other
character as it is. -/
theorem exists_writesInside (value : List Char) : ∃ written, WritesInside value written := by
  induction value with
  | nil => exact ⟨[], .nil⟩
  | cons c value ih =>
      obtain ⟨written, h⟩ := ih
      by_cases hc : c ∈ ['"', '\\', '\r']
      · simp only [List.mem_cons, List.not_mem_nil, or_false] at hc
        rcases hc with rfl | rfl | rfl
        · exact ⟨'\\' :: '"' :: written, .escape (.simple (by decide)) h⟩
        · exact ⟨'\\' :: '\\' :: written, .escape (.simple (by decide)) h⟩
        · exact ⟨'\\' :: 'r' :: written, .escape (.simple (by decide)) h⟩
      · exact ⟨_, .plain hc h⟩

theorem text (value : String) : Writable [.literal ⟨.text value, "", []⟩] := by
  obtain ⟨written, hwritten⟩ := exists_writesInside value.toList
  have h (chars : List Char) :=
    WritesLexeme.text (WritesText.cooked hwritten) (stops_cons (c := ' ') rfl chars)
  rw [String.ofList_toList] at h
  exact of_lexeme rfl h

end Writable

/-- An integer can be written. -/
theorem writable_integerTokens (value : Int) : Writable (integerTokens value) := by
  cases value with
  | ofNat n => exact .integer n
  | negSucc n =>
      have hsign : Writable [.sign '-' false] := .sign (by decide) (by decide)
      exact hsign.append (.integer (n + 1))

theorem writable_furtherSegments {segments : List String}
    (h : ∀ segment ∈ segments, isWord segment = true) : Writable (furtherSegments segments) := by
  induction segments with
  | nil => exact .nil
  | cons segment rest ih =>
      obtain ⟨hsegment, hrest⟩ := List.forall_mem_cons.mp h
      exact Writable.colons.append ((Writable.name hsegment).append (ih hrest))

theorem writable_segmentTokens {segments : List String}
    (h : ∀ segment ∈ segments, isWord segment = true) : Writable (segmentTokens segments) := by
  cases segments with
  | nil => exact .nil
  | cons segment rest =>
      obtain ⟨hsegment, hrest⟩ := List.forall_mem_cons.mp h
      exact (Writable.name hsegment).append (writable_furtherSegments hrest)

/-- Lists can be written when their entries can. -/
theorem exists_listed {front after : List Token} (hfront : Writable front)
    (hafter : Writable after) : ∃ tokens, Listed front after tokens ∧ Writable tokens := by
  have hcomma : Writable [.sign ',' false] := .sign (by decide) (by decide)
  exact ⟨front ++ .sign ',' false :: after, .inr ⟨false, rfl⟩,
    hfront.append (hcomma.append hafter)⟩

/-- An argument can be written when its value can. -/
theorem exists_printsNamed {name : String} {value : ArgValue} {front : List Token}
    (hname : (isKey name || name == "" && value.isPositional) = true) (hfront : Writable front) :
    ∃ tokens, PrintsNamed name value front tokens ∧ Writable tokens := by
  rw [Bool.or_eq_true, Bool.and_eq_true, beq_iff_eq] at hname
  rcases hname with hkey | ⟨rfl, hpositional⟩
  · have hword : isWord name = true := by
      rw [isKey, Bool.and_eq_true, Bool.and_eq_true] at hkey
      exact hkey.1.1
    have hwritable := Writable.name hword
    cases hvalue : value.isValue with
    | true =>
        have hequals : Writable [.sign '=' false] := .sign (by decide) (by decide)
        exact ⟨_, .assigned ⟨hkey, .inl rfl⟩ hvalue false,
          hwritable.append (hequals.append hfront)⟩
    | false => exact ⟨_, .direct ⟨hkey, .inl rfl⟩ hvalue, hwritable.append hfront⟩
  · exact ⟨front, .positional hpositional, hfront⟩

mutual

/-- A value that can be printed is printed and written. -/
theorem exists_printsValue (value : ArgValue) (h : isPrintableValue value = true) :
    ∃ tokens, PrintsValue value tokens ∧ Writable tokens := by
  match value with
  | .flag => exact ⟨[], by rw [PrintsValue], .nil⟩
  | .text value => exact ⟨_, by rw [PrintsValue], .text value⟩
  | .bool value =>
      have hword : isWord (if value then "true" else "false") = true := by
        cases value <;> decide +kernel
      exact ⟨_, by rw [PrintsValue], .name hword⟩
  | .number (.int value) => exact ⟨_, by rw [PrintsValue], writable_integerTokens value⟩
  | .number (.real _) => simp [isPrintableValue, isPrintableNumber] at h
  | .path value =>
      simp only [isPrintableValue, isWordPath, List.all_eq_true, Bool.and_eq_true] at h
      exact ⟨_, by rw [PrintsValue],
        writable_segmentTokens fun segment hsegment => (h segment hsegment).1⟩
  | .array items =>
      obtain ⟨inner, hinner, hwritable⟩ :=
        exists_printsItems items (by simpa [isPrintableValue] using h)
      exact ⟨_, by rw [PrintsValue]; exact ⟨inner, hinner, rfl⟩, hwritable.group .bracket⟩
  | .list args =>
      obtain ⟨inner, hinner, hwritable⟩ :=
        exists_printsArgs args (by simpa [isPrintableValue] using h)
      exact ⟨_, by rw [PrintsValue]; exact ⟨inner, hinner, rfl⟩, hwritable.group .paren⟩

/-- Items that can be printed are printed and written. -/
theorem exists_printsItems (items : List ArgValue) (h : arePrintableItems items = true) :
    ∃ tokens, PrintsItems items tokens ∧ Writable tokens := by
  match items with
  | [] => exact ⟨[], by rw [PrintsItems], .nil⟩
  | item :: rest =>
      simp only [arePrintableItems, Bool.and_eq_true] at h
      obtain ⟨front, hfront, hwritable⟩ := exists_printsValue item h.1.2
      obtain ⟨after, hafter, hwritable'⟩ := exists_printsItems rest h.2
      obtain ⟨tokens, hlisted, htokens⟩ := exists_listed hwritable hwritable'
      exact ⟨tokens, by rw [PrintsItems]; exact ⟨front, after, hfront, hafter, hlisted⟩, htokens⟩

/-- Arguments that can be printed are printed and written. -/
theorem exists_printsArgs (args : List (String × ArgValue)) (h : arePrintable args = true) :
    ∃ tokens, PrintsArgs args tokens ∧ Writable tokens := by
  match args with
  | [] => exact ⟨[], by rw [PrintsArgs], .nil⟩
  | (name, value) :: rest =>
      rw [arePrintable, Bool.and_eq_true, Bool.and_eq_true] at h
      obtain ⟨front, hfront, hwritable⟩ := exists_printsValue value h.1.2
      obtain ⟨own, hown, hwritable⟩ := exists_printsNamed h.1.1 hwritable
      obtain ⟨after, hafter, hwritable'⟩ := exists_printsArgs rest h.2
      obtain ⟨tokens, hlisted, htokens⟩ := exists_listed hwritable hwritable'
      exact ⟨tokens, by rw [PrintsArgs]; exact ⟨front, own, after, hfront, hown, hafter, hlisted⟩,
        htokens⟩

end

/-! ## Texts -/

/-- A text that prints arguments. -/
def PrintsText (args : List Arg) (text : List Char) : Prop :=
  ∃ tokens, PrintsArgs args tokens ∧ Writes (Token.lexemesOfList tokens) text

/-- A text that prints arguments is read as the arguments. -/
theorem PrintsText.read {args : List Arg} {text : List Char} (h : PrintsText args text)
    (hargs : arePrintable args = true) :
    (Token.read text).map readArgs = some (.ok args) := by
  obtain ⟨tokens, htokens, hwrites⟩ := h
  rw [Token.read_of_scans hwrites.scans, Option.map_some, readArgs_of_prints hargs htokens]

/-- Arguments that can be printed have a text, every text that prints them is read as the same
arguments, and no other arguments are printed by it. -/
theorem readArgs_printed {args : List Arg} (hargs : arePrintable args = true) :
    (∃ text, PrintsText args text) ∧
      ∀ text, PrintsText args text →
        (Token.read text).map readArgs = some (.ok args) ∧
          ∀ args', arePrintable args' = true → PrintsText args' text → args' = args := by
  constructor
  · obtain ⟨tokens, htokens, written, hwritten⟩ := exists_printsArgs args hargs
    have hwrites := hwritten [] [] .nil
    rw [List.append_nil] at hwrites
    exact ⟨_, tokens, htokens, hwrites⟩
  · intro text htext
    refine ⟨htext.read hargs, fun args' hargs' htext' => ?_⟩
    have hsame := (htext'.read hargs').symm.trans (htext.read hargs)
    exact Except.ok.inj (Option.some.inj hsame)

/-! ## A parameter -/

/-- A text alone, a path after a keyword and a list with a negative number. -/
def parameterArgs : List Arg :=
  [("", .text "id"), ("type", .path "a"), ("in", .list [("", .number (.int (-5)))])]

/-- The tokens of the arguments, with a raw name and a comma at the end of the list. -/
def parameterTokens : List Token :=
  [.literal ⟨.text "id", "", []⟩, .sign ',' false, .name "r#type", .sign '=' false, .name "a",
    .sign ',' false, .name "in",
    .group .paren [.sign '-' false, .literal ⟨.integer 5, "", []⟩, .sign ',' false]]

/-- A text of the arguments. -/
def parameterText : List Char :=
  "\"id\", r#type = a, in(-5,)".toList

theorem printsArgs_parameterTokens : PrintsArgs parameterArgs parameterTokens := by
  have htype : PrintsKey "type" "r#type" := ⟨by decide +kernel, .inr ⟨by decide +kernel, rfl⟩⟩
  have hin : PrintsKey "in" "in" := ⟨by decide +kernel, .inl rfl⟩
  simp only [parameterArgs, PrintsArgs, PrintsValue]
  refine ⟨_, _, _, rfl, .positional rfl, ?_, .inr ⟨false, rfl⟩⟩
  refine ⟨_, _, _, rfl, .assigned htype rfl false, ?_, .inr ⟨false, rfl⟩⟩
  refine ⟨_, _, _, ⟨_, ?_, rfl⟩, .direct hin rfl, rfl, .inl ⟨rfl, rfl⟩⟩
  exact ⟨_, _, _, rfl, .positional rfl, rfl, .inr ⟨false, rfl⟩⟩

theorem writes_parameterText : Writes (Token.lexemesOfList parameterTokens) parameterText := by
  have hclosing : Writes [.sign ',' false, .closing .paren] [',', ')'] :=
    .cons (@WritesLexeme.sign ',' [')'] (by decide) (by decide)) (.cons (.closing .paren) .nil)
  have hnumber := Writes.cons (.integer 5 (stops_cons rfl _)) hclosing
  have hminus := Writes.cons (@WritesLexeme.sign '-' _ (by decide) (by decide)) hnumber
  have hin := Writes.cons (@WritesLexeme.name "in" _ (by decide +kernel) (stops_cons rfl _))
    (.cons (.opening .paren) hminus)
  have hcomma := Writes.cons (@WritesLexeme.sign ',' _ (by decide) (by decide))
    (.blank (c := ' ') rfl hin)
  have hpath := Writes.cons (@WritesLexeme.name "a" _ (by decide +kernel) (stops_cons rfl _)) hcomma
  have hequals := Writes.cons (@WritesLexeme.sign '=' _ (by decide) (by decide))
    (.blank (c := ' ') rfl hpath)
  have htype := Writes.cons
    (@WritesLexeme.rawName "type" _ (by decide +kernel) (by decide +kernel) (stops_cons rfl _))
    (.blank (c := ' ') rfl hequals)
  have hcomma' := Writes.cons (@WritesLexeme.sign ',' _ (by decide) (by decide))
    (.blank (c := ' ') rfl htype)
  have hid : WritesText ['i', 'd'] "\"id\"".toList :=
    .cooked (.plain (by decide) (.plain (by decide) .nil))
  exact Writes.cons (.text hid (stops_cons rfl _)) hcomma'

/-- The text is read as the arguments, and so is every other text of them. -/
theorem readArgs_printed_parameterArgs :
    arePrintable parameterArgs = true ∧ PrintsText parameterArgs parameterText ∧
      ∀ text, PrintsText parameterArgs text →
        (Token.read text).map readArgs = some (.ok parameterArgs) := by
  have hargs : arePrintable parameterArgs = true := by decide +kernel
  have hread := (readArgs_printed hargs).2
  exact ⟨hargs, ⟨parameterTokens, printsArgs_parameterTokens, writes_parameterText⟩,
    fun text htext => (hread text htext).1⟩

end AnnotatedApi.Source
