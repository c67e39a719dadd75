import AnnotatedApi.Annotation.Basic
import AnnotatedApi.Annotation.ArgumentReader
import AnnotatedApi.Source.Syntax

/-! # Annotations of source attributes

An attribute spells an annotation when its path is a name of the vocabulary. Its arguments stand in
parentheses, or a single literal stands after an equals sign. An annotation that cannot be read is
left out, and the others beside it are kept. -/

namespace AnnotatedApi

namespace Source

/-- The arguments of an attribute. -/
def Attribute.args (a : Attribute) : Except AnnotationError (List Arg) :=
  match a.form with
  | .bare => .ok []
  | .list tokens => (readArgs tokens).mapError .badSyntax
  | .value (.literal _ l) =>
      ((literalArg l false).map fun value => [("", value)]).mapError .badSyntax
  | .value _ => .error (.badSyntax .literalAfterEquals)

/-- The name of the vocabulary that an attribute spells. -/
def Attribute.vocabularyName? (a : Attribute) : Option String :=
  Annotation.vocabularyName? a.path

/-! ## Entities -/

/-- Something in a source file that can carry annotations. -/
structure Entity where
  /-- What the entity is, in words. -/
  description : String
  attrs : List Attribute

mutual

/-- The entities of an item: a struct and its fields, an implementation block and its methods, a
function, or a module and what is in it. -/
def Item.entities : Item → List Entity
  | .struct s _ =>
      ⟨"struct " ++ s.name, s.attrs⟩ :: s.fields.map fun f =>
        match f.name with
        | some name => ⟨"field " ++ name, f.attrs⟩
        | none => ⟨"tuple field", f.attrs⟩
  | .implementation i _ =>
      ⟨"impl block", i.attrs⟩ :: i.methods.map fun m => ⟨"method " ++ m.name, m.attrs⟩
  | .function f _ => [⟨"fn " ++ f.name, f.attrs⟩]
  | .module attrs name (some content) _ =>
      ⟨"mod " ++ name, attrs⟩ :: entitiesOfList content
  | .module attrs name none _ => [⟨"mod " ++ name, attrs⟩]
  | .other _ => []

/-- The entities of items, in order. -/
def entitiesOfList : List Item → List Entity
  | [] => []
  | item :: rest => item.entities ++ entitiesOfList rest

end

end Source

/-- The annotation that an attribute spells, if its name is of the vocabulary. -/
def Annotation.ofAttribute? (a : Source.Attribute) :
    Option (Except AnnotationError Annotation) :=
  a.vocabularyName?.map fun name => a.args >>= Annotation.ofArgs name

/-- The well-formed annotations among attributes, in order. -/
def Annotations.ofAttributes (attrs : List Source.Attribute) : Annotations :=
  attrs.filterMap fun a =>
    match Annotation.ofAttribute? a with
    | some (.ok annotation) => some annotation
    | _ => none

end AnnotatedApi
