import Mathlib.Data.List.Forall2
import AnnotatedApi.Proofs.Annotation.FieldTables
import AnnotatedApi.Proofs.Schema.Nesting

/-! # The entries of lists of properties

Every entry of a list of properties declares one property, which the entry names: by its own name,
or by an argument inside an entry that is called `property`. A declaration keeps the properties of
all lists that its arguments hold, in the order of their entries. -/

namespace AnnotatedApi

/-! ## Entries -/

/-- The entries of nested arguments. -/
def Arg.entries (arg : Arg) : List Arg :=
  match arg.2 with
  | .list args => args
  | _ => []

/-- The entries of an argument that lists properties. -/
def Arg.propertyEntries (arg : Arg) : List Arg :=
  if arg.1 = "properties" then arg.entries else []

/-- The entries of all lists of properties among arguments, from the left. -/
def propertyEntries (args : List Arg) : List Arg :=
  args.flatMap Arg.propertyEntries

namespace PropertyDecl

/-- The property that an entry declares. -/
inductive DeclaredBy : Arg → PropertyDecl → Prop
  /-- It has the name of the entry. -/
  | named {entry : String} {args : List Arg} {decl : PropertyDecl} (h : ofArgs args = .ok decl)
      (hentry : entry ≠ "property") : DeclaredBy (entry, .list args) (decl.rename (some entry))
  /-- An entry that is called `property` holds the name of the property. -/
  | naming {args : List Arg} {decl : PropertyDecl} {name : String} (h : ofArgs args = .ok decl)
      (hname : decl.name = some name) : DeclaredBy ("property", .list args) decl

/-- A declared property has a name. -/
theorem DeclaredBy.exists_name {entry : Arg} {decl : PropertyDecl} (h : DeclaredBy entry decl) :
    ∃ name, decl.name = some name := by
  cases h with
  | @named entry _ own =>
      cases own
      exact ⟨entry, rfl⟩
  | naming _ hname => exact ⟨_, hname⟩

/-- The parts of a declared property are those that the arguments of its entry spell. -/
theorem DeclaredBy.exists_ofArgs {entry : Arg} {decl : PropertyDecl} (h : DeclaredBy entry decl) :
    ∃ args own, ofArgs args = .ok own ∧ decl.shape = own.shape := by
  cases h with
  | @named _ args own h =>
      refine ⟨args, own, h, ?_⟩
      cases own
      rfl
  | naming h => exact ⟨_, _, h, rfl⟩

/-- The property that arguments spell is declared by the entry that holds them. -/
theorem declaredBy_nameEntry {entry : String} {args : List Arg} {decl : PropertyDecl}
    (h : ofArgs args = .ok decl) :
    Gives (DeclaredBy (entry, .list args)) (nameEntry entry decl) := by
  rw [nameEntry]
  split
  · next hentry => exact .ok (.named h hentry)
  · next hentry =>
    rw [not_not.mp hentry]
    split
    · next name hname => exact .ok (.naming h hname)
    · exact .error

end PropertyDecl

/-- Entries are read one by one. -/
theorem declaredBy_readEntries (entries : List Arg) :
    Gives (List.Forall₂ PropertyDecl.DeclaredBy entries) (readEntries entries) := by
  induction entries with
  | nil =>
      rw [readEntries]
      exact .ok .nil
  | cons entry rest ih =>
      obtain ⟨name, value⟩ := entry
      cases value with
      | list args =>
          rw [readEntries]
          refine Gives.self.bind fun own hown => ?_
          refine (PropertyDecl.declaredBy_nameEntry hown).bind fun decl hdecl => ?_
          exact ih.bind fun decls hdecls => .ok (.cons hdecl hdecls)
      | _ =>
          rw [readEntries.eq_def]
          exact .error

/-- An argument lists the properties that its entries declare. -/
theorem Arg.declaredBy_asProperties (arg : Arg) :
    Gives (List.Forall₂ PropertyDecl.DeclaredBy arg.entries) arg.asProperties := by
  obtain ⟨name, value⟩ := arg
  cases value with
  | list args => exact declaredBy_readEntries args
  | _ => exact .error

/-! ## Spelled declarations -/

/-- A declaration is spelled by arguments: its elements are declared by some arguments of their own,
and its properties are those that the entries of all lists of properties declare, one by one. -/
structure ShapeDecl.SpelledBy (args : List Arg) (decl : ShapeDecl) : Prop where
  items : ∀ items ∈ decl.items, ∃ args, ItemsDecl.ofArgs args = .ok items
  properties : List.Forall₂ PropertyDecl.DeclaredBy (propertyEntries args) decl.properties

namespace ShapeDecl.SpelledBy

variable {args : List Arg} {arg : Arg} {decl decl' : ShapeDecl}

/-- The entries of the last argument come last. -/
theorem propertyEntries_concat (args : List Arg) (arg : Arg) :
    propertyEntries (args ++ [arg]) = propertyEntries args ++ arg.propertyEntries := by
  simp [propertyEntries]

/-- An argument that lists no properties leaves them as they are. -/
theorem of_ne (h : decl.SpelledBy args) (hname : arg.1 ≠ "properties")
    (hitems : ∀ items ∈ decl'.items, ∃ args, ItemsDecl.ofArgs args = .ok items)
    (hproperties : decl'.properties = decl.properties) : decl'.SpelledBy (args ++ [arg]) := by
  refine ⟨hitems, ?_⟩
  rw [propertyEntries_concat, Arg.propertyEntries, if_neg hname, List.append_nil, hproperties]
  exact h.properties

/-- An argument that lists properties adds them at the end. -/
theorem of_eq (h : decl.SpelledBy args) (hname : arg.1 = "properties")
    {more : List PropertyDecl} (hmore : List.Forall₂ PropertyDecl.DeclaredBy arg.entries more)
    (hitems : decl'.items = decl.items) (hproperties : decl'.properties = decl.properties ++ more) :
    decl'.SpelledBy (args ++ [arg]) := by
  refine ⟨hitems ▸ h.items, ?_⟩
  rw [propertyEntries_concat, Arg.propertyEntries, if_pos hname, hproperties]
  exact List.rel_append h.properties hmore

end ShapeDecl.SpelledBy

/-! ## Rules that keep what is spelled -/

namespace FieldRule

variable {σ τ α : Type}

/-- One more argument that follows the rule is spelled as well. -/
def Spells (shape : σ → ShapeDecl) (rule : FieldRule σ) : Prop :=
  ∀ args arg decl, rule.takes arg = true → (shape decl).SpelledBy args →
    Gives (fun decl => (shape decl).SpelledBy (args ++ [arg])) (rule.follow decl arg)

variable {shape : σ → ShapeDecl}

/-- A rule that touches neither elements nor properties. -/
theorem spells_of_same {rule : FieldRule σ}
    (hname : ∀ arg, rule.takes arg = true → arg.1 ≠ "properties")
    (hchange : ∀ arg, Gives (fun change => ∀ decl,
      (shape (change decl)).items = (shape decl).items ∧
        (shape (change decl)).properties = (shape decl).properties) (rule.change arg)) :
    rule.Spells shape := by
  intro args arg decl htakes h
  refine (hchange arg).map fun change hsame => ?_
  obtain ⟨hitems, hproperties⟩ := hsame decl
  exact h.of_ne (hname arg htakes) (hitems ▸ h.items) hproperties

/-- The rule of a field that is neither the elements nor the properties. -/
theorem spells_reading {field : String} {aliases : List String}
    {read : Arg → Except AnnotationError α} {put : α → σ → σ}
    (hname : "properties" ∉ field :: aliases)
    (hitems : ∀ value decl, (shape (put value decl)).items = (shape decl).items)
    (hproperties : ∀ value decl, (shape (put value decl)).properties = (shape decl).properties) :
    (reading field aliases read put).Spells shape := by
  refine spells_of_same (fun arg htakes heq => ?_) fun arg =>
    Gives.any.map fun value _ decl => ⟨hitems value decl, hproperties value decl⟩
  rw [takes_reading, List.contains_iff_mem, heq] at htakes
  exact hname htakes

/-- The rule of the elements. -/
theorem spells_items {put : ItemsDecl → σ → σ}
    (hitems : ∀ items decl, (shape (put items decl)).items = some items)
    (hproperties : ∀ items decl, (shape (put items decl)).properties = (shape decl).properties) :
    (reading "items" [] Arg.asItems put).Spells shape := by
  intro args arg decl htakes h
  rw [takes_reading, List.contains_iff_mem, List.mem_singleton] at htakes
  rw [follow_reading]
  have hread : Gives (fun items => ∃ args, ItemsDecl.ofArgs args = .ok items) arg.asItems :=
    Gives.any.bind fun args _ items hitems => ⟨args, hitems⟩
  refine hread.bind fun items hread => .ok (h.of_ne ?_ ?_ (hproperties items decl))
  · rw [htakes]
    decide
  · rw [hitems]
    exact forall_mem_some hread

/-- The rule of the properties. -/
theorem spells_properties {put : List PropertyDecl → σ → σ}
    (hitems : ∀ more decl, (shape (put more decl)).items = (shape decl).items)
    (hproperties : ∀ more decl,
      (shape (put more decl)).properties = (shape decl).properties ++ more) :
    (reading "properties" [] Arg.asProperties put).Spells shape := by
  intro args arg decl htakes h
  rw [takes_reading, List.contains_iff_mem, List.mem_singleton] at htakes
  rw [follow_reading]
  exact arg.declaredBy_asProperties.bind fun more hmore =>
    .ok (h.of_eq htakes hmore (hitems more decl) (hproperties more decl))

/-- The rules of the schema keywords. -/
theorem spells_keywords {get : σ → SchemaAttrs} {set : SchemaAttrs → σ → σ}
    (hitems : ∀ attrs decl, (shape (set attrs decl)).items = (shape decl).items)
    (hproperties : ∀ attrs decl, (shape (set attrs decl)).properties = (shape decl).properties) :
    ∀ rule ∈ SchemaAttrs.rules.map (FieldRule.within get set), rule.Spells shape := by
  rintro _ hmem
  obtain ⟨rule, hrule, rfl⟩ := List.mem_map.mp hmem
  refine spells_of_same (fun arg htakes heq => ?_) fun arg =>
    Gives.any.map fun change _ decl => ⟨hitems _ decl, hproperties _ decl⟩
  have hnone : ruleFor? SchemaAttrs.rules arg = none := by
    simp [SchemaAttrs.rules, SchemaAttrs.shortcutRules, SchemaAttrs.furtherRules, heq]
  exact List.find?_eq_none.mp hnone rule hrule htakes

end FieldRule

/-- Following such rules for all arguments spells them all. -/
theorem spelledBy_applyArgs {σ : Type} {shape : σ → ShapeDecl} {rules : List (FieldRule σ)}
    (hrules : ∀ rule ∈ rules, rule.Spells shape) {start : σ} (hstart : (shape start).SpelledBy [])
    (args : List Arg) :
    Gives (fun decl => (shape decl).SpelledBy args) (applyArgs (followRules rules) start args) := by
  -- the induction is on the arguments to come, behind those that are spelled already
  suffices hafter : ∀ before decl, (shape decl).SpelledBy before →
      Gives (fun decl => (shape decl).SpelledBy (before ++ args))
        (applyArgs (followRules rules) decl args) from hafter [] start hstart
  induction args with
  | nil =>
      intro before decl h
      rw [List.append_nil]
      exact .ok h
  | cons arg rest ih =>
      intro before decl h
      rw [applyArgs, List.foldlM_cons, List.append_cons]
      have hstep : Gives (fun decl => (shape decl).SpelledBy (before ++ [arg]))
          (followRules rules decl arg) := by
        rw [followRules, changeOf]
        cases hrule : ruleFor? rules arg with
        | none => exact .error
        | some rule =>
            exact hrules rule (List.mem_of_find?_eq_some hrule) before arg decl
              (takes_of_ruleFor? hrule) h
      exact hstep.bind fun decl hdecl => ih _ decl hdecl

/-! ## Readers of declarations -/

/-- The object that a request body declares in place. -/
def RequestBodyDecl.shape (decl : RequestBodyDecl) : ShapeDecl :=
  .object decl.properties

/-- The object that a response declares in place. -/
def ResponseDecl.shape (decl : ResponseDecl) : ShapeDecl :=
  .object decl.properties

/-- Without arguments there is nothing to spell. -/
theorem ShapeDecl.SpelledBy.nil {decl : ShapeDecl} (hitems : decl.items = none)
    (hproperties : decl.properties = []) : decl.SpelledBy [] := by
  refine ⟨?_, ?_⟩
  · rw [hitems]
    exact forall_mem_none
  · rw [hproperties]
    exact .nil

section

open FieldRule

/-- A schema keeps all properties that its arguments list. -/
theorem SchemaDecl.spelledBy_ofArgs (args : List Arg) :
    Gives (fun decl => decl.shape.SpelledBy args) (ofArgs args) := by
  rw [ofArgs, apply_eq_followRules]
  refine spelledBy_applyArgs (List.forall_mem_append.mpr ⟨?_, ?_⟩) (.nil rfl rfl) args
  · exact spells_keywords (fun _ _ => rfl) fun _ _ => rfl
  · rw [ownRules]
    simp only [List.mem_cons, List.not_mem_nil, or_false, forall_eq_or_imp, forall_eq]
    refine ⟨?_, ?_, ?_, ?_⟩
    · exact spells_reading (by decide) (fun _ _ => rfl) fun _ _ => rfl
    · exact spells_reading (by decide) (fun _ _ => rfl) fun _ _ => rfl
    · exact spells_properties (fun _ _ => rfl) fun _ _ => rfl
    · exact spells_items (fun _ _ => rfl) fun _ _ => rfl

/-- So do array elements. -/
theorem ItemsDecl.spelledBy_ofArgs (args : List Arg) :
    Gives (fun decl => decl.shape.SpelledBy args) (ofArgs args) := by
  rw [ofArgs_eq_applyArgs]
  refine spelledBy_applyArgs (List.forall_mem_append.mpr ⟨?_, ?_⟩) (.nil rfl rfl) args
  · exact spells_keywords (fun _ _ => rfl) fun _ _ => rfl
  · rw [ownRules]
    simp only [List.mem_cons, List.not_mem_nil, or_false, forall_eq_or_imp, forall_eq]
    refine ⟨?_, ?_⟩
    · exact spells_items (fun _ _ => rfl) fun _ _ => rfl
    · exact spells_properties (fun _ _ => rfl) fun _ _ => rfl

/-- So does a property. -/
theorem PropertyDecl.spelledBy_ofArgs (args : List Arg) :
    Gives (fun decl => decl.shape.SpelledBy args) (ofArgs args) := by
  rw [ofArgs_eq_applyArgs]
  refine spelledBy_applyArgs (List.forall_mem_append.mpr ⟨?_, ?_⟩) (.nil rfl rfl) args
  · exact spells_keywords (fun _ _ => rfl) fun _ _ => rfl
  · rw [ownRules]
    simp only [List.mem_cons, List.not_mem_nil, or_false, forall_eq_or_imp, forall_eq]
    refine ⟨?_, ?_, ?_, ?_⟩
    · exact spells_reading (by decide) (fun _ _ => rfl) fun _ _ => rfl
    · exact spells_reading (by decide) (fun _ _ => rfl) fun _ _ => rfl
    · exact spells_items (fun _ _ => rfl) fun _ _ => rfl
    · exact spells_properties (fun _ _ => rfl) fun _ _ => rfl

/-- So does a request body. -/
theorem RequestBodyDecl.spelledBy_ofArgs (args : List Arg) :
    Gives (fun decl => decl.shape.SpelledBy args) (ofArgs args) := by
  rw [ofArgs, apply_eq_followRules]
  refine spelledBy_applyArgs ?_ (.nil rfl rfl) args
  rw [rules]
  simp only [List.mem_cons, List.not_mem_nil, or_false, forall_eq_or_imp, forall_eq]
  refine ⟨?_, ?_, ?_, ?_, ?_⟩
  · exact spells_reading (by decide) (fun _ _ => rfl) fun _ _ => rfl
  · exact spells_reading (by decide) (fun _ _ => rfl) fun _ _ => rfl
  · exact spells_reading (by decide) (fun _ _ => rfl) fun _ _ => rfl
  · exact spells_reading (by decide) (fun _ _ => rfl) fun _ _ => rfl
  · exact spells_properties (fun _ _ => rfl) fun _ _ => rfl

/-- So does a response. -/
theorem ResponseDecl.spelledBy_ofArgs (args : List Arg) :
    Gives (fun decl => decl.shape.SpelledBy args) (ofArgs args) := by
  rw [ofArgs, apply_eq_followRules]
  refine spelledBy_applyArgs ?_ (.nil rfl rfl) args
  rw [rules]
  simp only [List.mem_cons, List.not_mem_nil, or_false, forall_eq_or_imp, forall_eq]
  refine ⟨?_, ?_, ?_, ?_, ?_, ?_⟩
  · exact spells_reading (by decide) (fun _ _ => rfl) fun _ _ => rfl
  · exact spells_reading (by decide) (fun _ _ => rfl) fun _ _ => rfl
  · exact spells_reading (by decide) (fun _ _ => rfl) fun _ _ => rfl
  · exact spells_reading (by decide) (fun _ _ => rfl) fun _ _ => rfl
  · exact spells_properties (fun _ _ => rfl) fun _ _ => rfl
  · exact spells_reading (by decide) (fun _ _ => rfl) fun _ _ => rfl

end

end AnnotatedApi
