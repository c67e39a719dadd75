import AnnotatedApi.Source.Parser
import AnnotatedApi.Text.Blank

/-! # Index of source files

The index holds the structs and modules of a set of files under their qualified names. An
implementation block adds its methods to the struct it is for, wherever that is; the functions of a
module are the module's methods. -/

namespace AnnotatedApi.Source

/-! ## Files and entries -/

/-- A source file, where it is, and the module it makes up. -/
structure ModuleFile where
  path : String
  modulePath : String
  file : SourceFile

/-- Read the text of a module that is in no file of its own. -/
def ModuleFile.ofText? (modulePath text : String) : Option ModuleFile :=
  (SourceFile.parse? text).map fun file =>
    { path := "/".intercalate (Text.pathSegments modulePath) ++ ".rs", modulePath, file }

/-- What owns handlers. -/
inductive OwnerKind where
  | struct
  | module
  deriving DecidableEq, Repr

/-- A struct or module of the index. -/
structure TypeEntry where
  qualifiedName : String
  name : String
  kind : OwnerKind
  path : String
  /-- The attributes of the struct and its implementation blocks, or of the module. -/
  attrs : List Attribute := []
  methods : List FunctionItem := []
  /-- The definition of a struct, unless only implementation blocks of it are known. -/
  item : Option StructItem := none
  /-- The names of the traits that the struct implements. -/
  traits : List String := []

namespace TypeEntry

/-- The first method of a name. -/
def findMethod? (entry : TypeEntry) (name : String) : Option FunctionItem :=
  entry.methods.find? fun m => m.name == name

/-- Whether the definition of the struct is known and not generic. -/
def isConcrete (entry : TypeEntry) : Bool :=
  match entry.item with
  | some item => !item.isGeneric
  | none => false

/-- Whether the struct implements a trait of the name. -/
def implements (entry : TypeEntry) (traitName : String) : Bool :=
  entry.traits.contains traitName

end TypeEntry

/-- A name within a module. -/
def qualify (modulePath name : String) : String :=
  if modulePath == "" then name else Text.joinPath [modulePath, name]

/-! ## Definitions of files -/

/-- An implementation block with its place. -/
structure PlacedImpl where
  modulePath : String
  typeName : String
  path : String
  item : ImplItem

/-- What items define: entries, implementation blocks, and the attributes of modules that live in
other files. -/
structure Definitions where
  entries : List TypeEntry := []
  impls : List PlacedImpl := []
  moduleAttrs : List (String × List Attribute) := []

namespace Definitions

/-- The definitions of one part followed by those of another. -/
def append (a b : Definitions) : Definitions :=
  ⟨a.entries ++ b.entries, a.impls ++ b.impls, a.moduleAttrs ++ b.moduleAttrs⟩

end Definitions

/-- The entry of a struct. -/
def StructItem.entry (modulePath path : String) (item : StructItem) : TypeEntry :=
  { qualifiedName := qualify modulePath item.name
    name := item.name
    kind := .struct
    path
    attrs := item.attrs
    item := some item }

/-- The functions among items. -/
def functionsOf (items : List Item) : List FunctionItem :=
  items.filterMap fun
    | .function f _ => some f
    | _ => none

/-- The entry of a module. -/
def moduleEntry (modulePath path : String) (attrs : List Attribute)
    (functions : List FunctionItem) : TypeEntry :=
  { qualifiedName := modulePath
    name := Text.lastSegment modulePath
    kind := .module
    path
    attrs
    methods := functions }

/-- An implementation block with its place, if the type it is for has a name. -/
def ImplItem.placed (modulePath path : String) (item : ImplItem) : List PlacedImpl :=
  match item.selfType.lastSegment? with
  | some segment => [{ modulePath, typeName := segment.name, path, item }]
  | none => []

mutual

/-- What an item of a module defines. -/
def Item.definitions (modulePath path : String) : Item → Definitions
  | .struct item _ => { entries := [item.entry modulePath path] }
  | .implementation item _ => { impls := item.placed modulePath path }
  | .function _ _ => {}
  | .module attrs name (some content) _ =>
      let nested := qualify modulePath name
      let inner := definitionsOf nested path content
      { inner with
        entries := inner.entries ++ [moduleEntry nested path attrs (functionsOf content)] }
  | .module attrs name none _ => { moduleAttrs := [(qualify modulePath name, attrs)] }
  | .other _ => {}

/-- What the items of a module define. -/
def definitionsOf (modulePath path : String) : List Item → Definitions
  | [] => {}
  | item :: rest =>
      (item.definitions modulePath path).append (definitionsOf modulePath path rest)

end

/-- What a file defines; the module it makes up comes last. -/
def ModuleFile.definitions (m : ModuleFile) : Definitions :=
  let inner := definitionsOf m.modulePath m.path m.file.items
  { inner with
    entries := inner.entries ++
      [moduleEntry m.modulePath m.path m.file.attrs (functionsOf m.file.items)] }

/-! ## The index -/

/-- An index: entries with different qualified names. -/
structure Index where
  entries : List TypeEntry := []

namespace Index

/-- The entry of a qualified name. -/
def get? (index : Index) (qualifiedName : String) : Option TypeEntry :=
  index.entries.find? fun entry => entry.qualifiedName == qualifiedName

/-- Add an entry, unless its qualified name is taken. -/
def insert (index : Index) (entry : TypeEntry) : Index :=
  if (index.get? entry.qualifiedName).isSome then index
  else ⟨index.entries ++ [entry]⟩

/-- Change the entry of a qualified name. -/
def modify (index : Index) (qualifiedName : String) (change : TypeEntry → TypeEntry) : Index :=
  ⟨index.entries.map fun entry =>
    if entry.qualifiedName == qualifiedName then change entry else entry⟩

/-- The qualified name of the entry that an implementation block is for: the type of its module, or
else the first struct of the name. -/
def implTarget? (index : Index) (placed : PlacedImpl) : Option String :=
  let qualified := qualify placed.modulePath placed.typeName
  if (index.get? qualified).isSome then some qualified
  else
    (index.entries.find? fun entry =>
      entry.kind == .struct && entry.name == placed.typeName).map TypeEntry.qualifiedName

/-- Add what an implementation block says to its entry. -/
def extendBy (item : ImplItem) (entry : TypeEntry) : TypeEntry :=
  match item.traitName with
  | some name =>
      { entry with traits := entry.traits ++ [name], methods := entry.methods ++ item.methods }
  | none =>
      { entry with attrs := entry.attrs ++ item.attrs, methods := entry.methods ++ item.methods }

/-- Attach an implementation block; a type that is not known gets an entry without definition. -/
def attach (index : Index) (placed : PlacedImpl) : Index :=
  match index.implTarget? placed with
  | some target => index.modify target (extendBy placed.item)
  | none =>
      index.insert <| extendBy placed.item
        { qualifiedName := qualify placed.modulePath placed.typeName
          name := placed.typeName
          kind := .struct
          path := placed.path }

/-- Put attributes in front of those of an entry. -/
def prependAttrs (index : Index) (declared : String × List Attribute) : Index :=
  index.modify declared.1 fun entry => { entry with attrs := declared.2 ++ entry.attrs }

/-- The index of what files define. -/
def ofDefinitions (definitions : Definitions) : Index :=
  let index := definitions.entries.foldl insert {}
  let index := definitions.impls.foldl attach index
  definitions.moduleAttrs.foldl prependAttrs index

/-- The index of source files. -/
def ofFiles (files : List ModuleFile) : Index :=
  ofDefinitions ((files.map ModuleFile.definitions).foldl Definitions.append {})

/-- The structs of the index. -/
def structs (index : Index) : List TypeEntry :=
  index.entries.filter fun entry => entry.kind == .struct

/-- A path without the pairs of colons in front of it. -/
def dropLeadingColons : List Char → List Char
  | ':' :: ':' :: rest => dropLeadingColons rest
  | chars => chars

/-- Find a struct or module by its qualified name, by an ending of it or by its own name. -/
def find? (index : Index) (name : String) : Option TypeEntry :=
  let name := String.ofList (dropLeadingColons (Text.trimChars name.toList))
  match index.get? name with
  | some entry => some entry
  | none => index.entries.find? fun entry => Text.endsWith entry.qualifiedName ("::" ++ name)

/-- Find a function by its name, in the first module that has it. -/
def findFunction? (index : Index) (name : String) : Option (TypeEntry × FunctionItem) :=
  index.entries.findSome? fun entry =>
    if entry.kind == .module then (entry.findMethod? name).map fun m => (entry, m) else none

end Index

end AnnotatedApi.Source
