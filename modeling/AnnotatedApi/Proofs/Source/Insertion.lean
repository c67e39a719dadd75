import AnnotatedApi.Proofs.Source.Alike

/-! # One attribute more

Two sets of source files that differ in one attribute: it stands somewhere among the attributes of a
module, a struct, a field, an implementation block, a method or a function of the second set, and
everything else is as in the first. The parts of the items around it may differ too, since they hold
whatever expressions the attribute has. If the attribute is malformed, such files have indexes that
are alike. -/

namespace AnnotatedApi.Source

/-! ## Lists -/

/-- One element of a list changes, and the others stay. -/
inductive OneChanged (change : α → α → Prop) : List α → List α → Prop
  | mk {x y : α} (front back : List α) :
      change x y → OneChanged change (front ++ x :: back) (front ++ y :: back)

/-- One change among elements is a change of each element into one that is like it. -/
theorem OneChanged.forall₂ {change alike : α → α → Prop} {list list' : List α}
    (h : OneChanged change list list') (hrefl : ∀ x, alike x x)
    (hchange : ∀ x y, change x y → alike x y) : List.Forall₂ alike list list' := by
  obtain ⟨front, back, hxy⟩ := h
  have hsame : ∀ others : List α, List.Forall₂ alike others others := fun others =>
    List.forall₂_same.mpr fun x _ => hrefl x
  exact List.rel_append (hsame front) (.cons (hchange _ _ hxy) (hsame back))

/-- An attribute is put somewhere among others. -/
inductive AttrsGain (a : Attribute) : List Attribute → List Attribute → Prop
  | mk (front back : List Attribute) : AttrsGain a (front ++ back) (front ++ a :: back)

/-! ## Items and files -/

/-- What the new attribute belongs to. -/
inductive Site where
  /-- A struct, by its qualified name, with the attributes that it has already. -/
  | struct (qualifiedName : String) (attrs : List Attribute)
  | field
  | implementation
  | method
  | function
  | module
  /-- Something in a body, of which the syntax trees only keep the parts. -/
  | body

/-- A function or method has one attribute more. -/
structure FunctionItem.Gains (a : Attribute) (f f' : FunctionItem) : Prop where
  name : f'.name = f.name
  attrs : AttrsGain a f.attrs f'.attrs

/-- A field has one attribute more. -/
structure Field.Gains (a : Attribute) (f f' : Field) : Prop where
  name : f'.name = f.name
  type : f'.type = f.type
  attrs : AttrsGain a f.attrs f'.attrs

/-- An item with other parts. -/
def Item.withParts (parts : List Part) : Item → Item
  | .struct item _ => .struct item parts
  | .implementation item _ => .implementation item parts
  | .function item _ => .function item parts
  | .module attrs name content _ => .module attrs name content parts
  | .other _ => .other parts

/-- An item of the module at a path has one attribute more, at the site. -/
inductive ItemGains (a : Attribute) : String → Site → Item → Item → Prop
  | struct {modulePath : String} {item : StructItem} {attrs : List Attribute}
      {parts parts' : List Part} :
      AttrsGain a item.attrs attrs →
      ItemGains a modulePath (.struct (qualify modulePath item.name) item.attrs)
        (.struct item parts) (.struct { item with attrs } parts')
  | field {modulePath : String} {item : StructItem} {fields : List Field}
      {parts parts' : List Part} :
      OneChanged (Field.Gains a) item.fields fields →
      ItemGains a modulePath .field (.struct item parts) (.struct { item with fields } parts')
  | implementation {modulePath : String} {item : ImplItem} {attrs : List Attribute}
      {parts parts' : List Part} :
      AttrsGain a item.attrs attrs →
      ItemGains a modulePath .implementation (.implementation item parts)
        (.implementation { item with attrs } parts')
  | method {modulePath : String} {item : ImplItem} {methods : List FunctionItem}
      {parts parts' : List Part} :
      OneChanged (FunctionItem.Gains a) item.methods methods →
      ItemGains a modulePath .method (.implementation item parts)
        (.implementation { item with methods } parts')
  | function {modulePath : String} {f f' : FunctionItem} {parts parts' : List Part} :
      f.Gains a f' → ItemGains a modulePath .function (.function f parts) (.function f' parts')
  | module {modulePath name : String} {attrs attrs' : List Attribute}
      {content : Option (List Item)} {parts parts' : List Part} :
      AttrsGain a attrs attrs' →
      ItemGains a modulePath .module (.module attrs name content parts)
        (.module attrs' name content parts')
  /-- An item of a module within the module. -/
  | inside {modulePath name : String} {site : Site} {attrs : List Attribute}
      {front back : List Item} {item item' : Item} {parts parts' : List Part} :
      ItemGains a (qualify modulePath name) site item item' →
      ItemGains a modulePath site (.module attrs name (some (front ++ item :: back)) parts)
        (.module attrs name (some (front ++ item' :: back)) parts')
  | body {modulePath : String} {item : Item} (parts : List Part) :
      ItemGains a modulePath .body item (item.withParts parts)

/-- A source file has one attribute more, at the site. -/
inductive FileGains (a : Attribute) : Site → ModuleFile → ModuleFile → Prop
  | module {path modulePath : String} {attrs attrs' : List Attribute} {items : List Item} :
      AttrsGain a attrs attrs' →
      FileGains a .module ⟨path, modulePath, attrs, items⟩ ⟨path, modulePath, attrs', items⟩
  | item {path modulePath : String} {site : Site} {attrs : List Attribute}
      {items items' : List Item} :
      OneChanged (ItemGains a modulePath site) items items' →
      FileGains a site ⟨path, modulePath, attrs, items⟩ ⟨path, modulePath, attrs, items'⟩

/-- One of several source files has one attribute more, at the site. -/
abbrev FilesGain (a : Attribute) (site : Site) : List ModuleFile → List ModuleFile → Prop :=
  OneChanged (FileGains a site)

/-! ## One malformed attribute more -/

/-- A malformed attribute at the site says nothing: it is an annotation, or a storage declaration of
a struct that has a mark or may get one. -/
def Site.IsSilent (mayMark : String → Prop) (a : Attribute) (site : Site) : Prop :=
  a.IsMalformedAnnotation ∨
    a.IsMalformedStorage ∧ ∃ name attrs, site = .struct name attrs ∧
      (isMarked attrs = true ∨ mayMark name)

variable {mayMark : String → Prop} {a : Attribute} {site : Site}

/-- Away from structs, only annotations are silent. -/
theorem Site.IsSilent.malformed (h : site.IsSilent mayMark a)
    (hsite : ∀ name attrs, site ≠ .struct name attrs) : a.IsMalformedAnnotation := by
  rcases h with h | ⟨-, name, attrs, heq, -⟩
  · exact h
  · exact absurd heq (hsite name attrs)

/-- Attributes with one malformed annotation more say the same. -/
theorem AttrsGain.alike {p : Prop} {attrs attrs' : List Attribute} (h : AttrsGain a attrs attrs')
    (ha : a.IsMalformedAnnotation) : AttrsAlike p attrs attrs' := by
  obtain ⟨front, back⟩ := h
  exact .insert_malformed ha front back

/-- The attributes of a struct with one silent attribute more say the same. -/
theorem Site.IsSilent.struct {name : String} {attrs attrs' : List Attribute}
    (h : (Site.struct name attrs).IsSilent mayMark a) (hgain : AttrsGain a attrs attrs') :
    AttrsAlike (mayMark name) attrs attrs' := by
  rcases h with ha | ⟨ha, _, _, heq, hmay⟩
  · exact hgain.alike ha
  · obtain ⟨front, back⟩ := hgain
    obtain ⟨rfl, rfl⟩ := Site.struct.inj heq
    exact .insert_storage ha hmay

/-- A function with one malformed annotation more says the same. -/
theorem FunctionItem.Gains.alike {f f' : FunctionItem} (h : f.Gains a f')
    (ha : a.IsMalformedAnnotation) : f.Alike f' :=
  ⟨h.name, (h.attrs.alike (p := False) ha).padded⟩

/-- A field with one malformed annotation more says the same. -/
theorem Field.Gains.alike {f f' : Field} (h : f.Gains a f') (ha : a.IsMalformedAnnotation) :
    f.Alike f' :=
  ⟨h.name, h.type, (h.attrs.alike (p := False) ha).padded⟩

/-- Among the functions of a module, one malformed annotation more says nothing. -/
theorem ItemGains.functions_alike {modulePath : String} {item item' : Item}
    (h : ItemGains a modulePath site item item') (hsilent : site.IsSilent mayMark a) :
    List.Forall₂ FunctionItem.Alike (functionsOf [item]) (functionsOf [item']) := by
  cases h with
  | function hgain =>
      exact .cons (hgain.alike (hsilent.malformed (by simp))) .nil
  | body parts =>
      have hsame : functionsOf [item.withParts parts] = functionsOf [item] := by
        cases item <;> rfl
      rw [hsame]
      exact functionsAlike_refl _
  | _ => exact .nil

/-- An item with one silent attribute more defines the same. -/
theorem ItemGains.definitions_alike {modulePath : String} {item item' : Item}
    (h : ItemGains a modulePath site item item') (hsilent : site.IsSilent mayMark a)
    (path : String) :
    (item.definitions modulePath path).Alike mayMark (item'.definitions modulePath path) := by
  -- by induction on how deep in modules it stands; away from structs it is an annotation
  induction h with
  | struct hgain =>
      have hentry := hsilent.struct hgain
      exact ⟨.cons ⟨rfl, rfl, rfl, rfl, hentry, .nil, .some ⟨rfl, (StructItem.Alike.refl _).fields⟩⟩
        .nil, .nil, .nil⟩
  | field hchanged =>
      have ha := hsilent.malformed (by simp)
      have hfields := hchanged.forall₂ Field.Alike.refl fun _ _ hgain => hgain.alike ha
      exact ⟨.cons ⟨rfl, rfl, rfl, rfl, .refl _, .nil, .some ⟨rfl, hfields⟩⟩ .nil, .nil, .nil⟩
  | implementation hgain =>
      have ha := hsilent.malformed (by simp)
      exact ⟨.nil, placed_alike rfl rfl (hgain.alike ha) (functionsAlike_refl _), .nil⟩
  | method hchanged =>
      have ha := hsilent.malformed (by simp)
      have hmethods := hchanged.forall₂ FunctionItem.Alike.refl fun _ _ hgain => hgain.alike ha
      exact ⟨.nil, placed_alike rfl rfl (.refl _) hmethods, .nil⟩
  | function => exact .refl _
  | @module modulePath name attrs attrs' content _ _ hgain =>
      have hattrs : AttrsAlike False attrs attrs' := hgain.alike (hsilent.malformed (by simp))
      cases content with
      | none => exact ⟨.nil, .nil, .cons ⟨rfl, hattrs⟩ .nil⟩
      | some content =>
          exact (Definitions.Alike.refl _).withModule _ path hattrs (functionsAlike_refl _)
  | @inside modulePath name site attrs front back _ _ _ _ hitem ih =>
      have hinner := definitionsOf_alike front back (ih hsilent)
      have hfunctions := functionsOf_alike front back (hitem.functions_alike hsilent)
      exact hinner.withModule _ path (.refl attrs) hfunctions
  | @body modulePath item parts =>
      have hsame : (item.withParts parts).definitions modulePath path =
          item.definitions modulePath path := by
        cases item with
        | module attrs name content _ => cases content <;> rfl
        | _ => rfl
      rw [hsame]
      exact .refl _

/-- A file with one silent attribute more defines the same. -/
theorem FileGains.alike {m m' : ModuleFile} (h : FileGains a site m m')
    (hsilent : site.IsSilent mayMark a) : m.definitions.Alike mayMark m'.definitions := by
  cases h with
  | @module path modulePath attrs attrs' items hgain =>
      have hattrs : AttrsAlike False attrs attrs' := hgain.alike (hsilent.malformed (by simp))
      exact (Definitions.Alike.refl _).withModule modulePath path hattrs (functionsAlike_refl _)
  | @item path modulePath site attrs _ _ hchanged =>
      obtain ⟨front, back, hitem⟩ := hchanged
      have hinner := definitionsOf_alike front back (hitem.definitions_alike hsilent path)
      have hfunctions := functionsOf_alike front back (hitem.functions_alike hsilent)
      exact hinner.withModule modulePath path (.refl attrs) hfunctions

/-- Files of which one has a silent attribute more have indexes that are alike. -/
theorem FilesGain.alike {files files' : List ModuleFile} (h : FilesGain a site files files')
    (hsilent : site.IsSilent mayMark a) :
    (Index.ofFiles files).Alike mayMark (Index.ofFiles files') :=
  Index.ofFiles_alike
    (OneChanged.forall₂ h (fun m => .refl m.definitions) fun _ _ hgain => hgain.alike hsilent)

end AnnotatedApi.Source
