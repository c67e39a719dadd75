import AnnotatedApi.Proofs.Annotation.FieldTables

/-! # The order of arguments

The arguments of an annotation may be given in any order, as long as no two of them set the same
field: the declaration is the same, or there is none in either order. Only the reason for which
there is none may differ, as the first argument that is refused gives it. -/

namespace AnnotatedApi

namespace Annotation

/-- The names of the annotations whose arguments set the fields of a declaration. -/
def declarationKinds : List String :=
  ["schema", "property", "items", "operation", "parameter", "request_body", "response",
   "media_type", "api_group", "api_tag", "relationship"]

/-- The field that an argument sets in an annotation of a kind. -/
def fieldSet? (kind : String) (arg : Arg) : Option String :=
  match kind with
  | "schema" => AnnotatedApi.fieldSet? SchemaDecl.rules arg
  | "property" => AnnotatedApi.fieldSet? PropertyDecl.rules arg
  | "items" => AnnotatedApi.fieldSet? ItemsDecl.rules arg
  | "operation" => AnnotatedApi.fieldSet? OperationDecl.rules arg
  | "parameter" => AnnotatedApi.fieldSet? ParameterDecl.rules arg
  | "request_body" => AnnotatedApi.fieldSet? RequestBodyDecl.rules arg
  | "response" => AnnotatedApi.fieldSet? ResponseDecl.rules arg
  | "media_type" => AnnotatedApi.fieldSet? MediaTypeDecl.rules arg
  | "api_group" => AnnotatedApi.fieldSet? ApiGroupDecl.rules arg
  | "api_tag" => AnnotatedApi.fieldSet? ApiGroupDecl.rules arg
  | "relationship" => AnnotatedApi.fieldSet? RelationshipDecl.rules arg
  | _ => none

/-- The arguments of an annotation that set different fields may be given in any order. -/
theorem toOption_ofArgs_perm {kind : String} (hkind : kind ∈ declarationKinds)
    {args args' : List Arg} (hperm : args.Perm args')
    (hfields : (args.filterMap (fieldSet? kind)).Nodup) :
    (ofArgs kind args).toOption = (ofArgs kind args').toOption := by
  simp only [declarationKinds, List.mem_cons, List.not_mem_nil, or_false] at hkind
  rcases hkind with rfl | rfl | rfl | rfl | rfl | rfl | rfl | rfl | rfl | rfl | rfl
  · exact (SchemaDecl.readBy_rules.map schema).perm hperm hfields
  · exact (PropertyDecl.readBy_rules.map property).perm hperm hfields
  · exact (ItemsDecl.readBy_rules.map items).perm hperm hfields
  · exact (OperationDecl.readBy_rules.map operation).perm hperm hfields
  · exact (ParameterDecl.readBy_rules.map parameter).perm hperm hfields
  · exact (RequestBodyDecl.readBy_rules.map requestBody).perm hperm hfields
  · exact (ResponseDecl.readBy_rules.map response).perm hperm hfields
  · exact (MediaTypeDecl.readBy_rules.map mediaType).perm hperm hfields
  · exact (ApiGroupDecl.readBy_rules.map apiGroup).perm hperm hfields
  · exact (ApiGroupDecl.readBy_rules.map apiGroup).perm hperm hfields
  · exact (RelationshipDecl.readBy_rules.map relationship).perm hperm hfields

/-- Arguments of a parameter, with keywords of its schema among them. -/
def statusArgs : List Arg :=
  [("", .text "status"), ("type", .path "string"), ("in", .text "query"),
   ("schema", .list [("type", .text "integer"), ("format", .text "int32")]),
   ("enum", .array [.text "open", .text "done"])]

theorem toOption_ofArgs_statusArgs :
    "parameter" ∈ declarationKinds ∧ statusArgs.Perm statusArgs.reverse ∧
      (statusArgs.filterMap (fieldSet? "parameter")).Nodup ∧
      (ofArgs "parameter" statusArgs).toOption.isSome ∧
      (ofArgs "parameter" statusArgs).toOption =
        (ofArgs "parameter" statusArgs.reverse).toOption := by
  have hkind : "parameter" ∈ declarationKinds := by decide
  have hperm : statusArgs.Perm statusArgs.reverse := (List.reverse_perm _).symm
  have hfields : (statusArgs.filterMap (fieldSet? "parameter")).Nodup := by decide
  exact ⟨hkind, hperm, hfields, by decide, toOption_ofArgs_perm hkind hperm hfields⟩

end Annotation

end AnnotatedApi
