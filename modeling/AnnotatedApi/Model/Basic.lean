import AnnotatedApi.Annotation.Basic

/-! # Models

A model is a persistent record: what is known about its fields and how it is stored. -/

namespace AnnotatedApi

/-- A field of a model. -/
structure ModelField where
  annotations : Annotations := []
  nullable : Bool := false
  /-- The name of the declared type, without `Option` around it. -/
  typeName : Option String := none

/-- A model. -/
structure Model where
  /-- The path of the model, as in `crate::models::task::Task`. -/
  identifier : String
  /-- The name of the model's schema. -/
  name : String
  table : String
  /-- The known fields, in the order in which they are documented. -/
  fields : List (String × ModelField)
  /-- The casts of fields, declared or read off their types. -/
  casts : List (String × String)
  fillable : List String
  hidden : List String
  annotations : Annotations

namespace Model

/-- The cast of a field. -/
def castFor? (model : Model) (field : String) : Option String :=
  getMember? field model.casts

end Model

end AnnotatedApi
