import AnnotatedApi.Members
import AnnotatedApi.Source.Index

/-! # Index with stored positions

The entries of an index in a list, together with the position of each under its qualified name, so
that most entries are found without going through the list. Files are indexed in one pass: structs
and modules are inserted as they are met, while implementation blocks and the attributes of modules
in other files wait until all files are read. -/

namespace AnnotatedApi.Source

/-- Entries, and the positions that are stored under their qualified names. -/
structure NameTable where
  entries : List TypeEntry := []
  positions : List (String × Nat) := []

/-- The entry of a struct of which only implementation blocks are known. -/
def PlacedImpl.undefinedEntry (placed : PlacedImpl) : TypeEntry :=
  { qualifiedName := qualify placed.modulePath placed.typeName
    name := placed.typeName
    kind := .struct
    path := placed.path }

namespace NameTable

/-- The entries as an index. -/
def toIndex (table : NameTable) : Index :=
  ⟨table.entries⟩

/-! ## Steps -/

/-- Add an entry at the end, unless its qualified name has a position. -/
def insert (table : NameTable) (entry : TypeEntry) : NameTable :=
  if hasMember entry.qualifiedName table.positions then table
  else
    { entries := table.entries ++ [entry]
      positions := putMember entry.qualifiedName table.entries.length table.positions }

/-- The stored position of the type of an implementation block, or else the position of the first
struct of the name. -/
def position? (table : NameTable) (placed : PlacedImpl) : Option Nat :=
  (getMember? (qualify placed.modulePath placed.typeName) table.positions).or <|
    table.entries.findIdx? fun entry => entry.kind == .struct && entry.name == placed.typeName

/-- The position of the entry that an implementation block is for; a type that is not known gets an
entry, which is the last. -/
def place (table : NameTable) (placed : PlacedImpl) : NameTable × Nat :=
  match table.position? placed with
  | some position => (table, position)
  | none =>
      let extended := table.insert placed.undefinedEntry
      (extended, extended.entries.length - 1)

/-- Change the entry at a position. -/
def modifyAt (table : NameTable) (position : Nat) (change : TypeEntry → TypeEntry) : NameTable :=
  { table with entries := table.entries.modify position change }

/-- Attach an implementation block to the entry that it is for. -/
def attach (table : NameTable) (placed : PlacedImpl) : NameTable :=
  let (extended, position) := table.place placed
  extended.modifyAt position (Index.extendBy placed.item)

/-- Put attributes in front of those of an entry, if the qualified name has a position. -/
def prependAttrs (table : NameTable) (declared : String × List Attribute) : NameTable :=
  match getMember? declared.1 table.positions with
  | some position =>
      table.modifyAt position fun entry => { entry with attrs := declared.2 ++ entry.attrs }
  | none => table

end NameTable

/-! ## Indexing files -/

/-- A table on the way, with the implementation blocks and the attributes that wait. -/
structure Indexing where
  table : NameTable := {}
  impls : List PlacedImpl := []
  moduleAttrs : List (String × List Attribute) := []

/-- Insert an entry on the way. -/
def Indexing.insert (state : Indexing) (entry : TypeEntry) : Indexing :=
  { state with table := state.table.insert entry }

mutual

/-- Index an item of a module. -/
def Item.index (modulePath path : String) (state : Indexing) : Item → Indexing
  | .struct item _ => state.insert (item.entry modulePath path)
  | .implementation item _ =>
      { state with impls := state.impls ++ item.placed modulePath path }
  | .function _ _ => state
  | .module attrs name (some content) _ =>
      let nested := qualify modulePath name
      (indexItems nested path state content).insert
        (moduleEntry nested path attrs (functionsOf content))
  | .module attrs name none _ =>
      { state with moduleAttrs := state.moduleAttrs ++ [(qualify modulePath name, attrs)] }
  | .other _ => state

/-- Index the items of a module, one after the other. -/
def indexItems (modulePath path : String) (state : Indexing) : List Item → Indexing
  | [] => state
  | item :: rest => indexItems modulePath path (item.index modulePath path state) rest

end

/-- Index a file; the module it makes up comes last. -/
def ModuleFile.index (m : ModuleFile) (state : Indexing) : Indexing :=
  (indexItems m.modulePath m.path state m.file.items).insert
    (moduleEntry m.modulePath m.path m.file.attrs (functionsOf m.file.items))

namespace NameTable

/-- The table of source files. -/
def ofFiles (files : List ModuleFile) : NameTable :=
  let state := files.foldl (fun state m => m.index state) {}
  let table := state.impls.foldl attach state.table
  state.moduleAttrs.foldl prependAttrs table

/-! ## Finding -/

/-- The name that is looked for: without blanks around it and without colons in front. -/
def soughtName (name : String) : String :=
  String.ofList (Index.dropLeadingColons (Text.trimChars name.toList))

/-- Find a struct or module by the position of its qualified name, or else by an ending of it. -/
def find? (table : NameTable) (name : String) : Option TypeEntry :=
  match getMember? (soughtName name) table.positions with
  | some position => table.entries[position]?
  | none => table.entries.find? fun entry =>
      Text.endsWith entry.qualifiedName ("::" ++ soughtName name) ||
        entry.qualifiedName == soughtName name

end NameTable

end AnnotatedApi.Source
