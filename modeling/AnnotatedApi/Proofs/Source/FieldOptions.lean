import Mathlib.Data.List.Forall2
import AnnotatedApi.Proofs.Annotation.Printing
import AnnotatedApi.Source.FieldOptions

/-! # Options of fields as they are written

An option of a field is a word, a key with a literal, or a key with settings in parentheses. Each is
read to its end, so that the next one is met after the comma, with one exception: the names for
writing and for reading, as in `rename(serialize = "a", deserialize = "b")`, end the reading of
their attribute. What stands in front of them counts, whatever its order; what stands after them is
not seen, also where it says that the field is left out. -/

namespace AnnotatedApi.Source

/-! ## Entries with commas -/

/-- What follows an entry: nothing, or a comma. -/
inductive Ends : List Token → Prop
  | nil : Ends []
  | comma (joint : Bool) (rest : List Token) : Ends (.sign ',' joint :: rest)

/-- Tokens of a list whose entries are spelled one by one, with commas between them. -/
inductive Lists {ι : Type} (spells : ι → List Token → Prop) : List ι → List Token → Prop
  | nil : Lists spells [] []
  | cons {i : ι} {items : List ι} {front after tokens : List Token} : spells i front →
      Lists spells items after → Listed front after tokens → Lists spells (i :: items) tokens

/-- What is read of items, where reading stops at the first that is not well-formed. -/
def readable {ι α : Type} (read : ι → Option α) (items : List ι) : List α :=
  (items.takeWhile fun i => (read i).isSome).filterMap read

section Entries

variable {ι α : Type} {spells : ι → List Token → Prop} {items : List ι}
  {tokens : List Token}

/-- Entries with tokens are no fewer than their list's tokens. -/
theorem Lists.length_le (hne : ∀ i, ¬ spells i []) (h : Lists spells items tokens) :
    items.length ≤ tokens.length := by
  induction h with
  | nil => exact Nat.le_refl 0
  | @cons i items front after tokens hfront _ hlisted ih =>
      have hpos : 0 < front.length := by
        rw [List.length_pos_iff]
        rintro rfl
        exact hne i hfront
      rcases hlisted with ⟨rfl, rfl⟩ | ⟨joint, rfl⟩
      · simp only [List.length_cons, List.length_nil] at ih ⊢
        omega
      · simp only [List.length_cons, List.length_append] at ih ⊢
        omega

/-- No tokens list no entries. -/
theorem Lists.eq_nil_iff (hne : ∀ i, ¬ spells i []) (h : Lists spells items tokens) :
    items = [] ↔ tokens = [] := by
  constructor
  · rintro rfl
    cases h
    rfl
  · rintro rfl
    exact List.length_eq_zero_iff.mp (Nat.le_zero.mp (h.length_le hne))

/-- Entries are read one after the other, up to the first that is not well-formed. -/
theorem Lists.entriesFrom_eq {body : EntryPath → Parse α} {read : ι → Option α}
    (hne : ∀ i, ¬ spells i [])
    (hread : ∀ i front, spells i front → ∀ rest, Ends rest →
      (entryPath >>= body).run (front ++ rest) = (read i).map fun value => (value, rest))
    (h : Lists spells items tokens) (hitems : items ≠ []) {fuel : Nat}
    (hfuel : items.length ≤ fuel) :
    entriesFrom body fuel tokens = (readable read items, items.all fun i => (read i).isSome) := by
  induction h generalizing fuel with
  | nil => exact absurd rfl hitems
  | @cons i items front after tokens hfront hafter hlisted ih =>
      obtain ⟨fuel, rfl⟩ : ∃ n, fuel = n + 1 :=
        Nat.exists_eq_succ_of_ne_zero (Nat.ne_of_gt (Nat.lt_of_lt_of_le (Nat.succ_pos _) hfuel))
      have hrun (rest : List Token) (hrest : Ends rest) := hread i front hfront rest hrest
      cases hvalue : read i with
      | none =>
          -- the entry is not well-formed, whatever follows it
          have hfails : (entryPath >>= body).run tokens = none := by
            rcases hlisted with ⟨-, rfl⟩ | ⟨joint, rfl⟩
            · rw [← List.append_nil tokens, hrun [] .nil, hvalue]
              rfl
            · rw [hrun _ (.comma joint after), hvalue]
              rfl
          rw [entriesFrom, hfails]
          simp [readable, hvalue]
      | some value =>
          rcases hlisted with ⟨hnil, rfl⟩ | ⟨joint, rfl⟩
          · obtain rfl : items = [] := (hafter.eq_nil_iff hne).mpr hnil
            have hreads := hrun [] .nil
            rw [List.append_nil, hvalue] at hreads
            rw [entriesFrom, hreads]
            simp [readable, hvalue]
          · have hreads := hrun _ (.comma joint after)
            rw [hvalue] at hreads
            rw [entriesFrom, hreads]
            by_cases hnil : after = []
            · obtain rfl : items = [] := (hafter.eq_nil_iff hne).mpr hnil
              simp [readable, hvalue, hnil, Token.isSign]
            · have hmore : items ≠ [] := hnil ∘ (hafter.eq_nil_iff hne).mp
              have hrest := ih hmore (Nat.le_of_succ_le_succ hfuel)
              simp [readable, hvalue, hnil, hrest, Token.isSign]

/-- The steps of reading suffice for all entries. -/
theorem Lists.entries_eq {body : EntryPath → Parse α} {read : ι → Option α}
    (hne : ∀ i, ¬ spells i [])
    (hread : ∀ i front, spells i front → ∀ rest, Ends rest →
      (entryPath >>= body).run (front ++ rest) = (read i).map fun value => (value, rest))
    (h : Lists spells items tokens) (hitems : items ≠ []) :
    entries body tokens = (readable read items, items.all fun i => (read i).isSome) :=
  h.entriesFrom_eq hne hread hitems (Nat.le_succ_of_le (h.length_le hne))

end Entries

/-! ## Keys and literals -/

/-- A token that is a literal. -/
inductive Token.IsLiteral : Token → Prop
  | literal (l : Literal) : IsLiteral (.literal l)
  | true : IsLiteral (.name "true")
  | false : IsLiteral (.name "false")

/-- A literal before a comma or at the end is an expression, and nothing after it belongs to it. -/
theorem exists_run_expr {token : Token} (h : token.IsLiteral) {rest : List Token}
    (hrest : Ends rest) (n : Nat) :
    ∃ e, ((Grammar.level (n + 1)).expr true).run (token :: rest) = some (e, rest) := by
  -- no postfix and no operator starts with a comma, be it joint to another sign or not
  cases h <;> cases hrest with
  | nil => exact ⟨_, rfl⟩
  | comma joint rest => cases joint <;> exact ⟨_, rfl⟩

theorem run_sign?_of_not {signs : String} {tokens : List Token}
    (h : atSign signs tokens = false) : (sign? signs).run tokens = some (false, tokens) := by
  simp [sign?, h]

/-- A key is the path of its entry if no pair of colons follows it. -/
theorem run_entryPath_bind {α : Type} (body : EntryPath → Parse α) (key : String)
    {rest : List Token} (h : atSign "::" rest = false) :
    (entryPath >>= body).run (.name key :: rest) = (body ⟨false, [key]⟩).run rest := by
  have hsegments : (entrySegments (rest.length + 1)).run rest = some ([], rest) := by
    rw [entrySegments, StateT.run_bind, run_sign?_of_not h]
    rfl
  have hpath : entryPath.run (.name key :: rest) = some (⟨false, [key]⟩, rest) := by
    show (entrySegments (rest.length + 1) >>= fun segments =>
      (pure ⟨false, key :: segments⟩ : Parse EntryPath)).run rest = _
    rw [StateT.run_bind, hsegments]
    rfl
  rw [StateT.run_bind, hpath]
  rfl

/-- Neither an equals sign nor a group nor the end of an entry starts with a pair of colons. -/
theorem Ends.not_colons {rest : List Token} (h : Ends rest) : atSign "::" rest = false := by
  cases h with
  | nil => rfl
  | comma joint rest => cases joint <;> rfl

theorem not_colons_equals (joint : Bool) (rest : List Token) :
    atSign "::" (.sign '=' joint :: rest) = false := by
  cases joint <;> rfl

/-- The value of a key is skipped, if the key has one. -/
theorem run_skipValue_equals (n : Nat) {token : Token} (htoken : token.IsLiteral) (joint : Bool)
    {rest : List Token} (hrest : Ends rest) :
    (skipValue (.level (n + 1))).run (.sign '=' joint :: token :: rest) = some ((), rest) := by
  obtain ⟨e, he⟩ := exists_run_expr htoken hrest n
  show ((do let _ ← (Grammar.level (n + 1)).expr true) : Parse Unit).run (token :: rest) = _
  rw [StateT.run_bind, he]
  rfl

theorem run_skipValue_end (g : Grammar) {rest : List Token} (hrest : Ends rest) :
    (skipValue g).run rest = some ((), rest) := by
  cases hrest with
  | nil => rfl
  | comma joint rest => rfl

/-- Tokens of a setting of a key: the key alone or with a literal. -/
inductive SpellsSetting : String → List Token → Prop
  | word (key : String) : SpellsSetting key [.name key]
  | value (key : String) (joint : Bool) {token : Token} : token.IsLiteral →
      SpellsSetting key [.name key, .sign '=' joint, token]

theorem not_spellsSetting_nil (key : String) : ¬ SpellsSetting key [] := by
  rintro ⟨⟩

/-- Settings are skipped to their end. -/
theorem SpellsSetting.run {key : String} {front : List Token} (h : SpellsSetting key front)
    (n : Nat) {rest : List Token} (hrest : Ends rest) :
    (entryPath >>= fun _ => skipValue (.level (n + 1))).run (front ++ rest) = some ((), rest) := by
  cases h with
  | word =>
      rw [List.singleton_append, run_entryPath_bind _ _ hrest.not_colons, run_skipValue_end _ hrest]
  | value joint htoken =>
      show (entryPath >>= _).run (.name key :: .sign '=' joint :: _ :: rest) = _
      rw [run_entryPath_bind _ _ (not_colons_equals _ _), run_skipValue_equals n htoken joint hrest]

/-- Settings between parentheses are all well-formed. -/
theorem entries_settings {keys : List String} {inner : List Token}
    (h : Lists SpellsSetting keys inner) (hkeys : keys ≠ []) (n : Nat) :
    (entries (fun _ => skipValue (.level (n + 1))) inner).2 = true := by
  have hentries : entries (fun _ => skipValue (.level (n + 1))) inner =
      (readable (fun _ => some ()) keys, keys.all fun _ => true) :=
    h.entries_eq not_spellsSetting_nil (fun _ _ hsetting _ hends => hsetting.run n hends) hkeys
  rw [hentries]
  exact List.all_eq_true.mpr fun _ _ => rfl

/-! ## Options -/

/-- The words that leave a field out. -/
def skipWords : List String :=
  ["skip", "skip_serializing"]

/-- An option of a field. -/
inductive SerdeOption where
  | word (key : String)
  /-- The name of the field, for writing and for reading. -/
  | rename (name : String)
  /-- A key with a literal that is not looked at. -/
  | value (key : String)
  /-- A key with settings of these keys in parentheses. -/
  | group (key : String) (keys : List String)
  deriving DecidableEq

namespace SerdeOption

/-- Tokens of an option, in the forms that serialization accepts on fields. -/
inductive Spells : SerdeOption → List Token → Prop
  | word {key : String} : key ≠ "rename" → Spells (.word key) [.name key]
  | rename {l : Literal} {name : String} (joint : Bool) : l.asText? = some name →
      Spells (.rename name) [.name "rename", .sign '=' joint, .literal l]
  | value {key : String} {token : Token} (joint : Bool) : key ∉ "rename" :: skipWords →
      token.IsLiteral → Spells (.value key) [.name key, .sign '=' joint, token]
  | group {key : String} {keys : List String} {inner : List Token} : key ∉ skipWords →
      keys ≠ [] → Lists SpellsSetting keys inner →
        Spells (.group key keys) [.name key, .group .paren inner]

/-- Whether the option leaves the field out. -/
def isSkip : SerdeOption → Bool
  | word key => skipWords.contains key
  | _ => false

/-- The name that the option gives the field, for writing and for reading. -/
def name? : SerdeOption → Option String
  | rename name => some name
  | _ => none

/-- Whether the option gives names for writing and for reading, each for itself. -/
def isRenameGroup : SerdeOption → Bool
  | group key _ => key == "rename"
  | _ => false

/-- What an option says of how the field appears. -/
def fieldOption : SerdeOption → FieldOption
  | word key => if skipWords.contains key then .skip else .other
  | rename name => .rename name
  | value _ => .other
  | group _ _ => .other

/-- What is read of an option. -/
def read? (option : SerdeOption) : Option FieldOption :=
  if option.isRenameGroup then none else some option.fieldOption

theorem not_spells_nil (option : SerdeOption) : ¬ option.Spells [] := by
  rintro ⟨⟩

theorem isWord_iff {word key : String} :
    (EntryPath.mk false [key]).isWord word = true ↔ key = word := by
  simp [EntryPath.isWord]

theorem isSkipWord_iff {key : String} :
    ((EntryPath.mk false [key]).isWord "skip" ||
      (EntryPath.mk false [key]).isWord "skip_serializing") = true ↔ key ∈ skipWords := by
  rw [Bool.or_eq_true, isWord_iff, isWord_iff, skipWords, List.mem_cons, List.mem_singleton]

/-- An option is read to its end, but names for writing and for reading are not well-formed. -/
theorem Spells.run {option : SerdeOption} {front : List Token} (h : option.Spells front) (n : Nat)
    {rest : List Token} (hrest : Ends rest) :
    (entryPath >>= fieldOptionBody (.level (n + 1))).run (front ++ rest) =
      option.read?.map fun value => (value, rest) := by
  cases h with
  | @word key hkey =>
      have hread : read? (.word key) =
          some (if skipWords.contains key then FieldOption.skip else .other) := rfl
      rw [List.singleton_append, run_entryPath_bind _ _ hrest.not_colons, fieldOptionBody,
        if_neg (hkey ∘ isWord_iff.mp), hread]
      -- a word that says to skip ends the option, and any other has no value to pass over
      by_cases hskip : key ∈ skipWords
      · rw [if_pos (isSkipWord_iff.mpr hskip), if_pos (List.contains_iff_mem.mpr hskip)]
        rfl
      · rw [if_neg (hskip ∘ isSkipWord_iff.mp), if_neg (hskip ∘ List.contains_iff_mem.mp)]
        cases hrest with
        | nil => rfl
        | comma joint rest => rfl
  | @rename l name joint htext =>
      show (entryPath >>= _).run (.name "rename" :: .sign '=' joint :: .literal l :: rest) = _
      rw [run_entryPath_bind _ _ (not_colons_equals _ _), fieldOptionBody,
        if_pos (isWord_iff.mpr rfl)]
      have hread : ∀ body : Literal → Parse FieldOption,
          (do sign "="; let l ← literal; body l).run (.sign '=' joint :: .literal l :: rest) =
            (body l).run rest :=
        fun _ => rfl
      rw [hread, htext]
      rfl
  | @value key token joint hkey htoken =>
      rw [List.mem_cons, not_or] at hkey
      show (entryPath >>= _).run (.name key :: .sign '=' joint :: token :: rest) = _
      rw [run_entryPath_bind _ _ (not_colons_equals _ _), fieldOptionBody,
        if_neg (hkey.1 ∘ isWord_iff.mp), if_neg (hkey.2 ∘ isSkipWord_iff.mp)]
      show (do
        skipValue (.level (n + 1))
        return .other : Parse FieldOption).run (.sign '=' joint :: token :: rest) = _
      rw [StateT.run_bind, run_skipValue_equals n htoken joint hrest]
      rfl
  | @group key keys inner hkey hkeys hinner =>
      show (entryPath >>= _).run (.name key :: .group .paren inner :: rest) = _
      rw [run_entryPath_bind _ _ rfl, fieldOptionBody, read?, isRenameGroup]
      by_cases hrename : key = "rename"
      · -- an equals sign would have to follow
        rw [if_pos (isWord_iff.mpr hrename), if_pos (beq_iff_eq.mpr hrename)]
        rfl
      · have hall := entries_settings hinner hkeys n
        rw [if_neg (hrename ∘ isWord_iff.mp), if_neg (hkey ∘ isSkipWord_iff.mp),
          if_neg (hrename ∘ beq_iff_eq.mp)]
        show (if (entries (fun _ => skipValue (.level (n + 1))) inner).2 then do
            set rest
            return .other
          else failure : Parse FieldOption).run (.group .paren inner :: rest) = _
        rw [if_pos hall]
        rfl

/-- The options of an attribute that stand before the first names for writing and for reading. -/
def seen (options : List SerdeOption) : List SerdeOption :=
  options.takeWhile fun option => !option.isRenameGroup

/-- Reading stops at the first names for writing and for reading. -/
theorem readable_eq (options : List SerdeOption) :
    readable read? options = (seen options).map fieldOption := by
  induction options with
  | nil => rfl
  | cons option options ih =>
      rw [readable, seen]
      by_cases hgroup : option.isRenameGroup = true
      · have hnone : option.read? = none := if_pos hgroup
        rw [List.takeWhile_cons_of_neg (by simp [hnone]),
          List.takeWhile_cons_of_neg (by simp [hgroup])]
        rfl
      · have hsome : option.read? = some option.fieldOption := if_neg hgroup
        rw [List.takeWhile_cons_of_pos (by simp [hsome]),
          List.takeWhile_cons_of_pos (by simp [hgroup]), List.filterMap_cons_some hsome,
          List.map_cons]
        exact congrArg _ ih

/-- An option is applied: a name replaces an earlier one, and what is left out stays so. -/
theorem apply_fieldOption (done : FieldOptions) (option : SerdeOption) :
    done.apply option.fieldOption =
      { rename := option.name?.or done.rename, skip := done.skip || option.isSkip } := by
  cases option with
  | word key =>
      rw [fieldOption, isSkip]
      cases skipWords.contains key with
      | false => simp [FieldOptions.apply, name?]
      | true => simp [FieldOptions.apply, name?]
  | rename name => simp [fieldOption, FieldOptions.apply, isSkip, name?]
  | value key => simp [fieldOption, FieldOptions.apply, isSkip, name?]
  | group key keys => simp [fieldOption, FieldOptions.apply, isSkip, name?]

/-- Options are applied one after the other; the last name counts. -/
theorem foldl_apply (options : List SerdeOption) (done : FieldOptions) :
    (options.map fieldOption).foldl FieldOptions.apply done =
      { rename := (options.filterMap name?).getLast?.or done.rename
        skip := done.skip || options.any isSkip } := by
  induction options generalizing done with
  | nil => simp
  | cons option options ih =>
      have hlast : (options.filterMap name?).getLast?.or (option.name?.or done.rename) =
          ((option :: options).filterMap name?).getLast?.or done.rename := by
        cases hname : option.name? with
        | none => rw [List.filterMap_cons_none hname, Option.none_or]
        | some name =>
            rw [List.filterMap_cons_some hname, List.getLast?_cons]
            cases (options.filterMap name?).getLast? with
            | none => rfl
            | some last => rfl
      rw [List.map_cons, List.foldl_cons, ih, apply_fieldOption, hlast, List.any_cons,
        Bool.or_assoc]

end SerdeOption

/-! ## Attributes -/

/-- An attribute with its options of serialization; any other attribute has none. -/
inductive SpellsOptions : Attribute → List SerdeOption → Prop
  | other {a : Attribute} : a.isNamed "serde" = false → SpellsOptions a []
  | serde {options : List SerdeOption} {tokens : List Token} :
      Lists SerdeOption.Spells options tokens →
        SpellsOptions ⟨false, ["serde"], .list tokens⟩ options

/-- What is read of the options of an attribute. -/
theorem entries_of_lists {options : List SerdeOption} {tokens : List Token}
    (h : Lists SerdeOption.Spells options tokens) :
    (Attribute.mk false ["serde"] (.list tokens)).entries fieldOptionBody =
      (SerdeOption.seen options).map SerdeOption.fieldOption := by
  rw [← SerdeOption.readable_eq]
  have hnil := h.eq_nil_iff SerdeOption.not_spells_nil
  cases tokens with
  | nil =>
      rw [hnil.mpr rfl]
      rfl
  | cons token tokens =>
      have hentries := h.entries_eq SerdeOption.not_spells_nil
        (fun option front hspells rest hrest => hspells.run
          (2 * Token.weightOfList (token :: tokens) + 7) hrest)
        (fun hempty => List.cons_ne_nil token tokens (hnil.mp hempty))
      exact congrArg Prod.fst hentries

/-- The options of a field are those that its attributes have in front of names for writing and for
reading, applied one after the other. -/
theorem ofAttributes_eq {attrs : List Attribute} {options : List (List SerdeOption)}
    (h : List.Forall₂ SpellsOptions attrs options) :
    FieldOptions.ofAttributes attrs =
      { rename := ((options.flatMap SerdeOption.seen).filterMap SerdeOption.name?).getLast?
        skip := (options.flatMap SerdeOption.seen).any SerdeOption.isSkip } := by
  have hread : (attrs.filter (Attribute.isNamed "serde")).flatMap
      (Attribute.entries fieldOptionBody) =
        (options.flatMap SerdeOption.seen).map SerdeOption.fieldOption := by
    induction h with
    | nil => rfl
    | cons hspells _ ih =>
        cases hspells with
        | other hother =>
            rw [List.filter_cons_of_neg (by simp [hother]), ih]
            rfl
        | serde hlists =>
            rw [List.filter_cons_of_pos rfl, List.flatMap_cons, List.flatMap_cons, ih,
              entries_of_lists hlists, List.map_append]
  rw [FieldOptions.ofAttributes, hread, SerdeOption.foldl_apply, Option.or_none, Bool.false_or]

/-- Options in another order, but for those from the first names for writing and for reading on. -/
inductive Rearranged : List SerdeOption → List SerdeOption → Prop
  | mk {front front' : List SerdeOption} (back : List SerdeOption) : front'.Perm front →
      (∀ option ∈ front, option.isRenameGroup = false) →
        Rearranged (front ++ back) (front' ++ back)

namespace SerdeOption

/-- Options without names for writing and for reading are all seen. -/
theorem seen_append {front : List SerdeOption}
    (h : ∀ option ∈ front, option.isRenameGroup = false) (back : List SerdeOption) :
    seen (front ++ back) = front ++ seen back := by
  refine List.takeWhile_append_of_pos ?_
  intro option hoption
  rw [h option hoption]
  rfl

/-- Options in another order leave a field out or do not, as before. -/
theorem any_isSkip_seen {options options' : List SerdeOption} (h : Rearranged options options') :
    (seen options').any isSkip = (seen options).any isSkip := by
  obtain ⟨back, hperm, hfront⟩ := h
  have hfront' := fun option hoption => hfront option (hperm.mem_iff.mp hoption)
  rw [seen_append hfront, seen_append hfront', List.any_append, List.any_append, hperm.any_eq]

end SerdeOption

/-- A field is left out exactly if an option in front of names for writing and for reading says so,
and it has the last name that such an option gives. So the order of these options is without effect,
and without names for writing and for reading all options count. -/
theorem ofAttributes_of_spellsOptions {attrs : List Attribute} {options : List (List SerdeOption)}
    (h : List.Forall₂ SpellsOptions attrs options) :
    ((FieldOptions.ofAttributes attrs).skip = true ↔
      ∃ list ∈ options, ∃ option ∈ SerdeOption.seen list, option.isSkip = true) ∧
    (FieldOptions.ofAttributes attrs).rename =
      ((options.flatMap SerdeOption.seen).filterMap SerdeOption.name?).getLast? ∧
    (∀ attrs' options', List.Forall₂ SpellsOptions attrs' options' →
      List.Forall₂ Rearranged options options' →
        (FieldOptions.ofAttributes attrs').skip = (FieldOptions.ofAttributes attrs).skip) ∧
    ((∀ list ∈ options, ∀ option ∈ list, option.isRenameGroup = false) →
      ((FieldOptions.ofAttributes attrs).skip = true ↔
        ∃ list ∈ options, ∃ option ∈ list, option.isSkip = true) ∧
      (FieldOptions.ofAttributes attrs).rename =
        (options.flatten.filterMap SerdeOption.name?).getLast?) := by
  have hskip : (FieldOptions.ofAttributes attrs).skip = true ↔
      ∃ list ∈ options, ∃ option ∈ SerdeOption.seen list, option.isSkip = true := by
    rw [ofAttributes_eq h, List.any_flatMap, List.any_eq_true]
    simp only [List.any_eq_true]
  refine ⟨hskip, by rw [ofAttributes_eq h], ?_, ?_⟩
  · intro attrs' options' h' hrearranged
    rw [ofAttributes_eq h, ofAttributes_eq h']
    show (options'.flatMap SerdeOption.seen).any SerdeOption.isSkip =
      (options.flatMap SerdeOption.seen).any SerdeOption.isSkip
    clear h h' hskip
    induction hrearranged with
    | nil => rfl
    | cons hlist _ ih =>
        rw [List.flatMap_cons, List.flatMap_cons, List.any_append, List.any_append, ih,
          SerdeOption.any_isSkip_seen hlist]
  · intro hplain
    have hseen : ∀ list ∈ options, SerdeOption.seen list = list := by
      intro list hlist
      have hall := SerdeOption.seen_append (hplain list hlist) []
      rw [List.append_nil] at hall
      exact hall.trans (List.append_nil list)
    constructor
    · rw [hskip]
      refine exists_congr fun list => and_congr_right fun hlist => ?_
      rw [hseen list hlist]
    · rw [ofAttributes_eq h, List.flatten_eq_flatMap, List.flatMap_congr hseen]
      rfl

/-! ## Attributes of fields -/

/-- A text as it stands in an attribute. -/
def plainText (text : String) : Token :=
  .literal ⟨.text text, "", '"' :: text.toList ++ ['"']⟩

/-- The names of a field for writing and for reading. -/
def splitNames : List Token :=
  [.name "rename", .group .paren [.name "serialize", .sign '=' false, plainText "a",
    .sign ',' false, .name "deserialize", .sign '=' false, plainText "b"]]

theorem spells_splitNames :
    SerdeOption.Spells (.group "rename" ["serialize", "deserialize"]) splitNames :=
  .group (by decide) (List.cons_ne_nil _ _) <|
    .cons (.value _ _ (.literal _)) (.cons (.value _ _ (.literal _)) .nil (.inl ⟨rfl, rfl⟩))
      (.inr ⟨false, rfl⟩)

/-- A name, a default and the word that leaves the field out, in two attributes. -/
theorem ofAttributes_dueDate :
    let attrs : List Attribute :=
      [⟨false, ["serde"], .list [.name "rename", .sign '=' false, plainText "dueDate",
        .sign ',' false, .name "default"]⟩, ⟨false, ["serde"], .list [.name "skip"]⟩]
    List.Forall₂ SpellsOptions attrs [[.rename "dueDate", .word "default"], [.word "skip"]] ∧
      FieldOptions.ofAttributes attrs = { rename := some "dueDate", skip := true } := by
  intro attrs
  have hspells : List.Forall₂ SpellsOptions attrs
      [[.rename "dueDate", .word "default"], [.word "skip"]] :=
    .cons (.serde (.cons (.rename _ rfl) (.cons (.word (by decide)) .nil (.inl ⟨rfl, rfl⟩))
      (.inr ⟨false, rfl⟩)))
      (.cons (.serde (.cons (.word (by decide)) .nil (.inl ⟨rfl, rfl⟩))) .nil)
  obtain ⟨-, -, -, hplain⟩ := ofAttributes_of_spellsOptions hspells
  obtain ⟨hskip, hrename⟩ := hplain (by decide)
  refine ⟨hspells, ?_⟩
  have hskipTrue := hskip.mpr ⟨_, List.mem_cons_of_mem _ List.mem_cons_self, _,
    List.mem_cons_self, rfl⟩
  cases hread : FieldOptions.ofAttributes attrs with
  | mk rename skip =>
      rw [hread] at hskipTrue hrename
      rw [FieldOptions.mk.injEq]
      exact ⟨hrename, hskipTrue⟩

/-- Behind names for writing and for reading the word that leaves the field out is not seen, and in
front of them it is. -/
theorem ofAttributes_splitNames :
    SpellsOptions ⟨false, ["serde"], .list (splitNames ++ [.sign ',' false, .name "skip"])⟩
        [.group "rename" ["serialize", "deserialize"], .word "skip"] ∧
      FieldOptions.ofAttributes
          [⟨false, ["serde"], .list (splitNames ++ [.sign ',' false, .name "skip"])⟩] =
        { rename := none, skip := false } ∧
      SpellsOptions ⟨false, ["serde"], .list (.name "skip" :: .sign ',' false :: splitNames)⟩
        [.word "skip", .group "rename" ["serialize", "deserialize"]] ∧
      FieldOptions.ofAttributes
          [⟨false, ["serde"], .list (.name "skip" :: .sign ',' false :: splitNames)⟩] =
        { rename := none, skip := true } := by
  have hskip : SerdeOption.Spells (.word "skip") [.name "skip"] := .word (by decide)
  have hbehind : SpellsOptions
      ⟨false, ["serde"], .list (splitNames ++ [.sign ',' false, .name "skip"])⟩
      [.group "rename" ["serialize", "deserialize"], .word "skip"] :=
    .serde <| .cons spells_splitNames (.cons hskip .nil (.inl ⟨rfl, rfl⟩)) (.inr ⟨false, rfl⟩)
  have hinFront : SpellsOptions
      ⟨false, ["serde"], .list (.name "skip" :: .sign ',' false :: splitNames)⟩
      [.word "skip", .group "rename" ["serialize", "deserialize"]] :=
    .serde <| .cons hskip (.cons spells_splitNames .nil (.inl ⟨rfl, rfl⟩)) (.inr ⟨false, rfl⟩)
  refine ⟨hbehind, ?_, hinFront, ?_⟩
  · rw [ofAttributes_eq (.cons hbehind .nil)]
    rfl
  · rw [ofAttributes_eq (.cons hinFront .nil)]
    rfl

end AnnotatedApi.Source
