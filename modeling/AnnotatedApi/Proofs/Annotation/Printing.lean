import AnnotatedApi.Annotation.ArgumentReader
import AnnotatedApi.Proofs.Source.Words

/-! # Printing arguments

The arguments of annotations are printed as they are written there: a name alone, a name with `=`
and a value or with arguments in parentheses, or a value alone, with commas between them. One list
of arguments has many printings, as a name can be a raw one and a comma may end a list. Reading
inverts all of them: the tokens are cut at the commas that were put between the entries, since the
entries have commas only inside their groups, and how an entry starts tells its form. -/

namespace AnnotatedApi

namespace ArgValue

/-- Whether the value can stand after `=` and in an array. -/
def isValue : ArgValue → Bool
  | .flag | .list _ => false
  | _ => true

/-- Whether the value can stand for an argument without a name. -/
def isPositional : ArgValue → Bool
  | .text _ | .number _ | .bool _ | .array _ => true
  | _ => false

end ArgValue

namespace Source

/-! ## What can be printed -/

/-- Whether a text can be the name of an argument. -/
def isKey (name : String) : Bool :=
  isWord name && name != "true" && name != "false"

/-- Whether a text is a path of words. -/
def isWordPath (path : String) : Bool :=
  (Text.pathSegments path).all fun segment => isWord segment && isPathWord segment

/-- Whether a number is an integer that can be written with a sign or without one. -/
def isPrintableNumber : Number → Bool
  | .int value => -0x8000000000000000 < value && value < 0x10000000000000000
  | .real _ => false

mutual

/-- Whether a value can be printed. -/
def isPrintableValue : ArgValue → Bool
  | .flag | .text _ | .bool _ => true
  | .number value => isPrintableNumber value
  | .path value => isWordPath value
  | .array items => arePrintableItems items
  | .list args => arePrintable args

/-- Whether the items of an array can be printed. -/
def arePrintableItems : List ArgValue → Bool
  | [] => true
  | item :: rest => item.isValue && isPrintableValue item && arePrintableItems rest

/-- Whether arguments can be printed: each has the name of an argument, or none and a value that
can stand for itself. -/
def arePrintable : List (String × ArgValue) → Bool
  | [] => true
  | (name, value) :: rest =>
      (isKey name || name == "" && value.isPositional) && isPrintableValue value &&
        arePrintable rest

end

/-! ## Tokens of arguments -/

/-- The tokens of an integer. -/
def integerTokens : Int → List Token
  | .ofNat n => [.literal ⟨.integer n, "", []⟩]
  | .negSucc n => [.sign '-' false, .literal ⟨.integer (n + 1), "", []⟩]

/-- The tokens of further segments of a path. -/
def furtherSegments : List String → List Token
  | [] => []
  | segment :: rest =>
      .sign ':' true :: .sign ':' false :: .name segment :: furtherSegments rest

/-- The tokens of a path of these segments. -/
def segmentTokens : List String → List Token
  | [] => []
  | segment :: rest => .name segment :: furtherSegments rest

/-- Tokens of a list whose first entry has the tokens `front` and whose further entries have the
tokens `after`. A comma stands between two entries, and one may stand after the last. -/
def Listed (front after tokens : List Token) : Prop :=
  after = [] ∧ tokens = front ∨ ∃ joint, tokens = front ++ .sign ',' joint :: after

/-- How the name of an argument is written: plainly or, where the language allows it, as a raw
name. -/
def PrintsKey (name word : String) : Prop :=
  isKey name = true ∧
    (word = name ∨
      neverRaw.contains name = false ∧ word = String.ofList ('r' :: '#' :: name.toList))

/-- Tokens of an argument whose value has the tokens `front`. -/
inductive PrintsNamed : String → ArgValue → List Token → List Token → Prop where
  /-- The value alone. -/
  | positional {value : ArgValue} {front : List Token} (hvalue : value.isPositional = true) :
      PrintsNamed "" value front front
  /-- The name, an equals sign and the value. -/
  | assigned {name word : String} {value : ArgValue} {front : List Token}
      (hword : PrintsKey name word) (hvalue : value.isValue = true) (joint : Bool) :
      PrintsNamed name value front (.name word :: .sign '=' joint :: front)
  /-- The name alone, or with arguments in parentheses. -/
  | direct {name word : String} {value : ArgValue} {front : List Token}
      (hword : PrintsKey name word) (hvalue : value.isValue = false) :
      PrintsNamed name value front (.name word :: front)

mutual

/-- Tokens of a value; a flag has none. -/
def PrintsValue : ArgValue → List Token → Prop
  | .flag, tokens => tokens = []
  | .text value, tokens => tokens = [.literal ⟨.text value, "", []⟩]
  | .bool value, tokens => tokens = [.name (if value then "true" else "false")]
  | .number (.int value), tokens => tokens = integerTokens value
  | .number (.real _), _ => False
  | .path value, tokens => tokens = segmentTokens (Text.pathSegments value)
  | .array items, tokens => ∃ inner, PrintsItems items inner ∧ tokens = [.group .bracket inner]
  | .list args, tokens => ∃ inner, PrintsArgs args inner ∧ tokens = [.group .paren inner]

/-- Tokens of the items of an array. -/
def PrintsItems : List ArgValue → List Token → Prop
  | [], tokens => tokens = []
  | item :: rest, tokens =>
      ∃ front after, PrintsValue item front ∧ PrintsItems rest after ∧ Listed front after tokens

/-- Tokens of arguments. -/
def PrintsArgs : List (String × ArgValue) → List Token → Prop
  | [], tokens => tokens = []
  | (name, value) :: rest, tokens =>
      ∃ front own after, PrintsValue value front ∧ PrintsNamed name value front own ∧
        PrintsArgs rest after ∧ Listed own after tokens

end

/-! ## Cutting at commas -/

/-- No comma stands among the tokens. -/
def Commaless (tokens : List Token) : Prop :=
  ∀ token ∈ tokens, token.isSign ',' = false

theorem cutAtCommas_commaless {tokens : List Token} (h : Commaless tokens) (done : List Token)
    (hne : done ≠ [] ∨ tokens ≠ []) :
    cutAtCommas done tokens = [(done.reverse ++ tokens, false)] := by
  induction tokens generalizing done with
  | nil =>
      have hdone : done ≠ [] := hne.resolve_right fun h => h rfl
      simp [cutAtCommas, hdone]
  | cons token rest ih =>
      have htoken := h token List.mem_cons_self
      rw [cutAtCommas, htoken, if_neg Bool.false_ne_true,
        ih (fun t ht => h t (List.mem_cons_of_mem _ ht)) _ (.inl (List.cons_ne_nil _ _)),
        List.reverse_cons, List.append_assoc, List.singleton_append]

theorem cutAtCommas_append_comma {front : List Token} (h : Commaless front) (done : List Token)
    (joint : Bool) (after : List Token) :
    cutAtCommas done (front ++ .sign ',' joint :: after) =
      (done.reverse ++ front, true) :: cutAtCommas [] after := by
  induction front generalizing done with
  | nil => simp [cutAtCommas, Token.isSign]
  | cons token front ih =>
      rw [List.cons_append, cutAtCommas, h token List.mem_cons_self, if_neg Bool.false_ne_true,
        ih (fun t ht => h t (List.mem_cons_of_mem _ ht)), List.reverse_cons, List.append_assoc,
        List.singleton_append]

/-- The first piece of a list is its first entry. -/
theorem Listed.cutAtCommas {front after tokens : List Token} (h : Listed front after tokens)
    (hfront : Commaless front) (hne : front ≠ []) :
    ∃ followed, cutAtCommas [] tokens = (front, followed) :: cutAtCommas [] after := by
  rcases h with ⟨rfl, rfl⟩ | ⟨joint, rfl⟩
  · exact ⟨false, cutAtCommas_commaless hfront [] (.inr hne)⟩
  · exact ⟨true, cutAtCommas_append_comma hfront [] joint after⟩

theorem Token.depthOfList_append (front back : List Token) :
    depthOfList (front ++ back) = max (depthOfList front) (depthOfList back) := by
  induction front with
  | nil => simp [depthOfList]
  | cons token front ih => rw [List.cons_append, depthOfList, depthOfList, ih, Nat.max_assoc]

theorem Listed.depthOfList_eq {front after tokens : List Token} (h : Listed front after tokens) :
    Token.depthOfList tokens = max (Token.depthOfList front) (Token.depthOfList after) := by
  rcases h with ⟨rfl, rfl⟩ | ⟨joint, rfl⟩
  · simp [Token.depthOfList]
  · simp [Token.depthOfList_append, Token.depthOfList, Token.depth]

/-! ## Reading words and paths -/

/-- A word does not start with the mark of a raw name. -/
theorem unraw_of_isWord {word : String} (h : isWord word = true) : unraw word = word := by
  rw [unraw]
  split
  · next rest hchars =>
      have hmark : Text.isIdentifierContinue '#' = false := rfl
      simp [isWord, hchars, hmark] at h
  · rfl

/-- A raw name is read without its mark. -/
theorem unraw_raw (chars : List Char) :
    unraw (String.ofList ('r' :: '#' :: chars)) = String.ofList chars := by
  simp [unraw]

/-- What is written for a name is no boolean and is read as the name. -/
theorem PrintsKey.spec {name word : String} (h : PrintsKey name word) :
    word ≠ "true" ∧ word ≠ "false" ∧ unraw word = name := by
  obtain ⟨hkey, hword⟩ := h
  simp only [isKey, Bool.and_eq_true, bne_iff_ne, ne_eq] at hkey
  obtain ⟨⟨hname, htrue⟩, hfalse⟩ := hkey
  rcases hword with rfl | ⟨-, rfl⟩
  · exact ⟨htrue, hfalse, unraw_of_isWord hname⟩
  · refine ⟨?_, ?_, by rw [unraw_raw, String.ofList_toList]⟩
    · exact fun h => by simpa using congrArg String.toList h
    · exact fun h => by simpa using congrArg String.toList h

/-- There is always a piece. -/
theorem splitColonsFrom_ne_nil (piece chars : List Char) :
    Text.splitColonsFrom piece chars ≠ [] := by
  fun_induction Text.splitColonsFrom piece chars with simp_all

theorem pathSegments_ne_nil (path : String) : Text.pathSegments path ≠ [] :=
  mt List.map_eq_nil_iff.mp (splitColonsFrom_ne_nil _ _)

/-- The pieces between pairs of colons make the text again. -/
theorem joinPath_splitColonsFrom (piece chars : List Char) :
    Text.joinPath ((Text.splitColonsFrom piece chars).map String.ofList) =
      String.ofList (piece.reverse ++ chars) := by
  fun_induction Text.splitColonsFrom piece chars with
  | case1 piece => simp [Text.joinPath]
  | case2 piece rest ih =>
      rw [List.map_cons, Text.joinPath,
        String.intercalate_cons_of_ne_nil (mt List.map_eq_nil_iff.mp (splitColonsFrom_ne_nil _ _)),
        ← Text.joinPath, ih]
      rw [← String.toList_inj]
      simp
  | case3 piece c rest _ ih => simpa using ih

/-- The segments of a path make the path again. -/
theorem joinPath_pathSegments (path : String) :
    Text.joinPath (Text.pathSegments path) = path := by
  rw [Text.pathSegments, joinPath_splitColonsFrom]
  simp

theorem readPathRest_furtherSegments {segments : List String}
    (h : ∀ segment ∈ segments, isPathWord segment = true) (done : List String) :
    readPathRest done (furtherSegments segments) = some (done.reverse ++ segments, []) := by
  induction segments generalizing done with
  | nil => simp [furtherSegments, readPathRest]
  | cons segment rest ih =>
      rw [furtherSegments, readPathRest, if_pos (h segment List.mem_cons_self),
        ih fun s hs => h s (List.mem_cons_of_mem _ hs)]
      simp

/-- Words that may be segments of a path are no booleans. -/
theorem ne_bool_of_isPathWord {word : String} (h : isPathWord word = true) :
    word ≠ "true" ∧ word ≠ "false" := by
  constructor
  · rintro rfl
    exact absurd h (by decide)
  · rintro rfl
    exact absurd h (by decide)

/-! ## Reading values -/

/-- Tokens with a name in front that is no boolean start no literal. -/
theorem readLiteralToken_name {word : String} (htrue : word ≠ "true") (hfalse : word ≠ "false")
    (rest : List Token) : readLiteralToken (.name word :: rest) = none := by
  simp [readLiteralToken, htrue, hfalse]

/-- A literal in front is what is read. -/
theorem readScalar_literal (l : Literal) (rest : List Token) (followed : Bool) :
    readScalar (.literal l :: rest) followed = (literalArg l false).map (·, rest) := rfl

/-- A literal after a minus sign is read with the sign. -/
theorem readScalar_minus (joint : Bool) (l : Literal) (rest : List Token) (followed : Bool) :
    readScalar (.sign '-' joint :: .literal l :: rest) followed =
      (literalArg l true).map (·, rest) := rfl

/-- A natural number that fits is read. -/
theorem literalArg_natural {n : Nat} (h : (n : Int) < 0x10000000000000000) :
    literalArg ⟨.integer n, "", []⟩ false = .ok (.number (.int n)) := by
  have hrange : Number.inRange n = true := by
    simp only [Number.inRange, Bool.and_eq_true, decide_eq_true_eq]
    omega
  simp [literalArg, hrange]

/-- A negative number that fits is read. -/
theorem literalArg_negative {n : Nat} (h : -0x8000000000000000 < Int.negSucc n) :
    literalArg ⟨.integer (n + 1), "", []⟩ true = .ok (.number (.int (.negSucc n))) := by
  have hnegated : negated64? (n + 1) = some (Int.negSucc n) := by
    rw [negated64?, if_neg (by omega), if_pos (by omega), Int.negSucc_eq]
  simp [literalArg, hnegated]

theorem readScalar_integerTokens {value : Int}
    (h : isPrintableNumber (.int value) = true) (followed : Bool) :
    readScalar (integerTokens value) followed = .ok (.number (.int value), []) := by
  simp only [isPrintableNumber, Bool.and_eq_true, decide_eq_true_eq] at h
  cases value with
  | ofNat n =>
      rw [integerTokens, readScalar_literal, literalArg_natural h.2]
      rfl
  | negSucc n =>
      rw [integerTokens, readScalar_minus, literalArg_negative h.1]
      rfl

theorem readScalar_segmentTokens {segments : List String} (hne : segments ≠ [])
    (h : ∀ segment ∈ segments, isPathWord segment = true) (followed : Bool) :
    readScalar (segmentTokens segments) followed = .ok (.path (Text.joinPath segments), []) := by
  obtain ⟨segment, rest, rfl⟩ := List.exists_cons_of_ne_nil hne
  obtain ⟨hsegment, hrest⟩ := List.forall_mem_cons.mp h
  obtain ⟨htrue, hfalse⟩ := ne_bool_of_isPathWord hsegment
  simp [segmentTokens, readScalar, readLiteralToken_name htrue hfalse, readPlainPath, hsegment,
    readPathRest_furtherSegments hrest]

/-- Tokens that start with no array hold a scalar. -/
theorem readValue_eq_readScalar {tokens : List Token}
    (h : ∀ inner rest, tokens ≠ .group .bracket inner :: rest) (depth : Nat) (followed : Bool) :
    readValue depth (tokens, followed) = readScalar tokens followed := by
  rw [readValue]
  exact fun _ inner rest _ heq => h inner rest heq

/-! ## The front of printed tokens -/

theorem commaless_furtherSegments (segments : List String) :
    Commaless (furtherSegments segments) := by
  induction segments with
  | nil => simp [Commaless, furtherSegments]
  | cons segment rest ih =>
      simp only [Commaless, furtherSegments, List.forall_mem_cons]
      exact ⟨rfl, rfl, rfl, ih⟩

/-- No comma stands in the tokens of a value, but in its groups. -/
theorem PrintsValue.commaless {value : ArgValue} {tokens : List Token}
    (h : PrintsValue value tokens) : Commaless tokens := by
  cases value with
  | flag =>
      obtain rfl : tokens = [] := by simpa [PrintsValue] using h
      simp [Commaless]
  | text value =>
      rw [PrintsValue] at h
      simp [h, Commaless, Token.isSign]
  | bool value =>
      rw [PrintsValue] at h
      simp [h, Commaless, Token.isSign]
  | number value =>
      cases value with
      | int value =>
          rw [PrintsValue] at h
          cases value <;> simp [h, integerTokens, Commaless, Token.isSign]
      | real value => simp [PrintsValue] at h
  | path value =>
      rw [PrintsValue] at h
      obtain ⟨segment, rest, hsegments⟩ := List.exists_cons_of_ne_nil (pathSegments_ne_nil value)
      rw [h, hsegments, segmentTokens, Commaless, List.forall_mem_cons]
      exact ⟨rfl, commaless_furtherSegments rest⟩
  | array items =>
      rw [PrintsValue] at h
      obtain ⟨inner, -, rfl⟩ := h
      simp [Commaless, Token.isSign]
  | list args =>
      rw [PrintsValue] at h
      obtain ⟨inner, -, rfl⟩ := h
      simp [Commaless, Token.isSign]

/-- A value has a token, a flag apart. -/
theorem PrintsValue.ne_nil {value : ArgValue} {tokens : List Token} (h : PrintsValue value tokens)
    (hvalue : value.isValue = true) : tokens ≠ [] := by
  rintro rfl
  cases value with
  | flag => exact Bool.false_ne_true hvalue
  | number value =>
      cases value with
      | int value => cases value <;> simp [PrintsValue, integerTokens] at h
      | real value => simp [PrintsValue] at h
  | path value =>
      obtain ⟨segment, rest, hsegments⟩ := List.exists_cons_of_ne_nil (pathSegments_ne_nil value)
      simp [PrintsValue, hsegments, segmentTokens] at h
  | _ => simp [PrintsValue] at h

/-- A value that can stand for itself is seen to start. -/
theorem PrintsValue.startsPositional {value : ArgValue} {tokens : List Token}
    (h : PrintsValue value tokens) (hvalue : value.isPositional = true) :
    startsPositional tokens = true := by
  cases value with
  | flag | path | list => exact absurd hvalue Bool.false_ne_true
  | text value =>
      rw [PrintsValue] at h
      rw [h]
      rfl
  | bool value =>
      rw [PrintsValue] at h
      rw [h]
      cases value <;> rfl
  | number value =>
      cases value with
      | int value =>
          rw [PrintsValue] at h
          rw [h]
          cases value <;> rfl
      | real value => simp [PrintsValue] at h
  | array items =>
      rw [PrintsValue] at h
      obtain ⟨inner, -, rfl⟩ := h
      rfl

/-! ## Reading back -/

/-- What is read where the tokens of a value stand. -/
inductive ReadsBack : Nat → ArgValue → List Token → Prop where
  | flag (depth : Nat) : ReadsBack depth .flag []
  | value {depth : Nat} {value : ArgValue} {tokens : List Token} (hvalue : value.isValue = true)
      (hread : ∀ followed, readValue depth (tokens, followed) = .ok (value, [])) :
      ReadsBack depth value tokens
  | list {depth : Nat} {args : List Arg} {inner : List Token}
      (hread : readArgPieces depth (cutAtCommas [] inner) = .ok args) :
      ReadsBack (depth + 1) (.list args) [.group .paren inner]

/-- An argument is read back when its value is. -/
theorem ReadsBack.readArg_eq {depth : Nat} {name : String} {value : ArgValue}
    {front tokens : List Token} (h : ReadsBack depth value front)
    (hstarts : value.isPositional = true → startsPositional front = true)
    (hprints : PrintsNamed name value front tokens) (followed : Bool) :
    readArg depth (tokens, followed) = .ok (name, value) := by
  cases hprints with
  | positional hpositional =>
      cases h with
      | flag | list => exact absurd hpositional Bool.false_ne_true
      | value hvalue hread =>
          rw [readArg.eq_def]
          simp only [hstarts hpositional, if_true, hread]
          rfl
  | assigned hword hvalue joint =>
      obtain ⟨htrue, hfalse, hunraw⟩ := hword.spec
      cases h with
      | flag | list => exact absurd hvalue Bool.false_ne_true
      | value _ hread =>
          rw [readArg]
          simp only [startsPositional, startsLiteral, readLiteralToken_name htrue hfalse, hread,
            hunraw]
          rfl
  | direct hword hvalue =>
      obtain ⟨htrue, hfalse, hunraw⟩ := hword.spec
      cases h with
      | flag =>
          rw [readArg]
          simp [startsPositional, startsLiteral, readLiteralToken_name htrue hfalse, hunraw]
      | value hvalue' => exact absurd (hvalue'.symm.trans hvalue) (by decide)
      | list hread =>
          rw [readArg]
          simp only [startsPositional, startsLiteral, readLiteralToken_name htrue hfalse, hread,
            hunraw]
          rfl

namespace PrintsNamed

variable {name : String} {value : ArgValue} {front tokens : List Token}

theorem commaless (h : PrintsNamed name value front tokens) (hfront : Commaless front) :
    Commaless tokens := by
  cases h with
  | positional => exact hfront
  | assigned => exact List.forall_mem_cons.mpr ⟨rfl, List.forall_mem_cons.mpr ⟨rfl, hfront⟩⟩
  | direct => exact List.forall_mem_cons.mpr ⟨rfl, hfront⟩

theorem ne_nil (h : PrintsNamed name value front tokens) (hfront : PrintsValue value front) :
    tokens ≠ [] := by
  cases h with
  | positional hpositional =>
      refine hfront.ne_nil ?_
      cases value <;> first | rfl | exact absurd hpositional Bool.false_ne_true
  | assigned | direct => exact List.cons_ne_nil _ _

theorem depthOfList_eq (h : PrintsNamed name value front tokens) :
    Token.depthOfList tokens = Token.depthOfList front := by
  cases h <;> simp [Token.depthOfList, Token.depth]

end PrintsNamed

mutual

/-- The tokens of a value are read as the value. -/
theorem readsBack_of_prints (value : ArgValue) {tokens : List Token} {depth : Nat}
    (hvalue : isPrintableValue value = true) (h : PrintsValue value tokens)
    (hdepth : Token.depthOfList tokens ≤ depth) : ReadsBack depth value tokens := by
  match value with
  | .flag =>
      obtain rfl : tokens = [] := by simpa [PrintsValue] using h
      exact .flag depth
  | .text text =>
      rw [PrintsValue] at h
      subst h
      refine .value rfl fun followed => ?_
      rw [readValue_eq_readScalar (by simp)]
      rfl
  | .bool b =>
      rw [PrintsValue] at h
      subst h
      refine .value rfl fun followed => ?_
      rw [readValue_eq_readScalar (by simp)]
      cases b <;> rfl
  | .number (.int n) =>
      rw [PrintsValue] at h
      subst h
      refine .value rfl fun followed => ?_
      rw [readValue_eq_readScalar (by cases n <;> simp [integerTokens])]
      exact readScalar_integerTokens (by simpa [isPrintableValue] using hvalue) followed
  | .number (.real _) => simp [PrintsValue] at h
  | .path path =>
      rw [PrintsValue] at h
      subst h
      refine .value rfl fun followed => ?_
      -- the segments are read one by one, and joined they are the path again
      have hsegments : ∀ segment ∈ Text.pathSegments path, isPathWord segment = true := by
        simp only [isPrintableValue, isWordPath, List.all_eq_true, Bool.and_eq_true] at hvalue
        exact fun segment hsegment => (hvalue segment hsegment).2
      have hread := readScalar_segmentTokens (pathSegments_ne_nil path) hsegments followed
      rw [joinPath_pathSegments] at hread
      rw [readValue_eq_readScalar ?_, hread]
      cases Text.pathSegments path <;> simp [segmentTokens]
  | .array items =>
      rw [PrintsValue] at h
      obtain ⟨inner, hinner, rfl⟩ := h
      rw [Token.depthOfList, Token.depth, Token.depthOfList, Nat.max_zero] at hdepth
      obtain ⟨depth, rfl⟩ : ∃ d, depth = d + 1 := Nat.exists_eq_add_one.mpr (by omega)
      refine .value rfl fun followed => ?_
      rw [readValue, readItems_of_prints items (by simpa [isPrintableValue] using hvalue) hinner
        (by omega)]
      rfl
  | .list args =>
      rw [PrintsValue] at h
      obtain ⟨inner, hinner, rfl⟩ := h
      rw [Token.depthOfList, Token.depth, Token.depthOfList, Nat.max_zero] at hdepth
      obtain ⟨depth, rfl⟩ : ∃ d, depth = d + 1 := Nat.exists_eq_add_one.mpr (by omega)
      -- the group takes one level, and the rest is left for what is in it
      exact .list (readArgPieces_of_prints args (by simpa [isPrintableValue] using hvalue) hinner
        (by omega))

/-- The tokens of the items of an array are read as the items. -/
theorem readItems_of_prints (items : List ArgValue) {tokens : List Token} {depth : Nat}
    (hitems : arePrintableItems items = true) (h : PrintsItems items tokens)
    (hdepth : Token.depthOfList tokens ≤ depth) :
    readItems depth (cutAtCommas [] tokens) = .ok items := by
  match items with
  | [] =>
      obtain rfl : tokens = [] := by simpa [PrintsItems] using h
      simp [cutAtCommas, readItems]
  | item :: rest =>
      rw [PrintsItems] at h
      obtain ⟨front, after, hfront, hafter, hlisted⟩ := h
      simp only [arePrintableItems, Bool.and_eq_true] at hitems
      obtain ⟨⟨hvalue, hitem⟩, hrest⟩ := hitems
      obtain ⟨followed, hcut⟩ := hlisted.cutAtCommas hfront.commaless (hfront.ne_nil hvalue)
      rw [hlisted.depthOfList_eq] at hdepth
      obtain ⟨hfrontDepth, hafterDepth⟩ := Nat.max_le.mp hdepth
      have hback := readsBack_of_prints item hitem hfront hfrontDepth
      have hread := readItems_of_prints rest hrest hafter hafterDepth
      cases hback with
      | flag | list => exact absurd hvalue Bool.false_ne_true
      | value _ hitemread =>
          rw [hcut, readItems, hitemread, hread]
          rfl

/-- The tokens of arguments are read as the arguments. -/
theorem readArgPieces_of_prints (args : List (String × ArgValue)) {tokens : List Token}
    {depth : Nat} (hargs : arePrintable args = true) (h : PrintsArgs args tokens)
    (hdepth : Token.depthOfList tokens ≤ depth) :
    readArgPieces depth (cutAtCommas [] tokens) = .ok args := by
  match args with
  | [] =>
      obtain rfl : tokens = [] := by simpa [PrintsArgs] using h
      simp [cutAtCommas, readArgPieces]
  | (name, value) :: rest =>
      rw [PrintsArgs] at h
      obtain ⟨front, own, after, hfront, hown, hafter, hlisted⟩ := h
      simp only [arePrintable, Bool.and_eq_true] at hargs
      obtain ⟨⟨-, hvalue⟩, hrest⟩ := hargs
      obtain ⟨followed, hcut⟩ :=
        hlisted.cutAtCommas (hown.commaless hfront.commaless) (hown.ne_nil hfront)
      rw [hlisted.depthOfList_eq, hown.depthOfList_eq] at hdepth
      obtain ⟨hfrontDepth, hafterDepth⟩ := Nat.max_le.mp hdepth
      have hback := readsBack_of_prints value hvalue hfront hfrontDepth
      have hread := readArgPieces_of_prints rest hrest hafter hafterDepth
      rw [hcut, readArgPieces, hback.readArg_eq hfront.startsPositional hown, hread]
      rfl

end

/-- The tokens of arguments are read as the arguments. -/
theorem readArgs_of_prints {args : List Arg} {tokens : List Token}
    (hargs : arePrintable args = true) (h : PrintsArgs args tokens) :
    readArgs tokens = .ok args :=
  readArgPieces_of_prints args hargs h (Nat.le_refl _)

end Source

end AnnotatedApi
