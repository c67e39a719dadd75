import AnnotatedApi.Proofs.Annotation.FieldRules

/-! # The fields of declarations

For every kind of declaration, the rules by which its arguments set its fields: under which names a
field is set, how its value is read and where it is put. Reading arguments is following these rules
one argument after the other, and the rules of a kind commute. -/

namespace AnnotatedApi

/-! ## Schema keywords -/

namespace SchemaAttrs

/-- The rules for the keywords that a parameter takes directly. -/
def shortcutRules : List (FieldRule SchemaAttrs) :=
  [.reading "type" [] Arg.asText fun text attrs => { attrs with type := some text },
   .reading "format" [] Arg.asText fun text attrs => { attrs with format := some text },
   .reading "enum" [] Arg.asJsonList fun values attrs => { attrs with enum := some values },
   .reading "minimum" [] Arg.asNumber fun bound attrs => { attrs with minimum := some bound },
   .reading "maximum" [] Arg.asNumber fun bound attrs => { attrs with maximum := some bound },
   .reading "default" [] (fun arg => .ok arg.asJson) fun value attrs =>
     { attrs with default := some value },
   .reading "pattern" [] Arg.asText fun text attrs => { attrs with pattern := some text }]

/-- The rules for the other keywords. -/
def furtherRules : List (FieldRule SchemaAttrs) :=
  [.reading "description" [] Arg.asText fun text attrs => { attrs with description := some text },
   .reading "reference" ["ref"] Arg.asText fun text attrs => { attrs with reference := some text },
   .reading "example" [] (fun arg => .ok arg.asJson) fun value attrs =>
     { attrs with exampleValue := some value },
   .reading "examples" [] Arg.asJsonList fun values attrs => { attrs with examples := some values },
   .reading "nullable" [] Arg.asBool fun flag attrs => { attrs with nullable := some flag },
   .reading "min_length" ["minLength"] Arg.asNat fun bound attrs =>
     { attrs with minLength := some bound },
   .reading "max_length" ["maxLength"] Arg.asNat fun bound attrs =>
     { attrs with maxLength := some bound },
   .reading "read_only" ["readOnly"] Arg.asBool fun flag attrs =>
     { attrs with readOnly := some flag },
   .reading "write_only" ["writeOnly"] Arg.asBool fun flag attrs =>
     { attrs with writeOnly := some flag }]

/-- The rules for all keywords. -/
def rules : List (FieldRule SchemaAttrs) := shortcutRules ++ furtherRules

/-- A keyword is set by its rule. -/
theorem set?_eq (attrs : SchemaAttrs) (arg : Arg) :
    attrs.set? arg =
      match ruleFor? rules arg with
      | some rule => do return some (← rule.follow attrs arg)
      | none => .ok none := by
  rw [set?]
  split
  -- one case for every spelling, and a last one for all other names
  all_goals
    try simp only [imp_false] at *
    simp [rules, shortcutRules, furtherRules, *]

/-- What comes after a keyword has been looked for. -/
theorem set?_bind {β : Type} (attrs : SchemaAttrs) (arg : Arg)
    (next : Option SchemaAttrs → Except AnnotationError β) :
    attrs.set? arg >>= next =
      match ruleFor? rules arg with
      | some rule => rule.follow attrs arg >>= fun attrs => next (some attrs)
      | none => next none := by
  rw [set?_eq]
  cases ruleFor? rules arg with
  | none => rfl
  | some rule =>
      dsimp only
      cases rule.follow attrs arg <;> rfl

/-- The rules for the keywords of a parameter set different fields. -/
theorem commutes_shortcutRules : shortcutRules.Pairwise FieldRule.Commutes := by
  simp [shortcutRules]

/-- The rules set different fields. -/
theorem commutes_rules : rules.Pairwise FieldRule.Commutes := by
  simp [rules, shortcutRules, furtherRules]

end SchemaAttrs

/-! ## Schemas -/

namespace SchemaDecl

/-- The rules for the parts that are no keywords. -/
def ownRules : List (FieldRule SchemaDecl) :=
  [.reading "title" [] Arg.asText fun text decl => { decl with title := some text },
   .reading "required" [] Arg.asTextList fun names decl => { decl with required := some names },
   .reading "properties" [] Arg.asProperties fun more decl =>
     { decl with properties := decl.properties ++ more },
   .reading "items" [] Arg.asItems fun items decl => { decl with items := some items }]

/-- The rules for a schema. -/
def rules : List (FieldRule SchemaDecl) :=
  SchemaAttrs.rules.map (.within attrs fun attrs decl => { decl with attrs }) ++ ownRules

/-- An argument follows the rules. -/
theorem apply_eq_followRules : apply = followRules rules := by
  funext decl arg
  rw [apply, SchemaAttrs.set?_bind, rules, followRules_within_append]
  cases ruleFor? SchemaAttrs.rules arg with
  | some rule => rfl
  | none =>
      dsimp only
      split
      all_goals
        try simp only [imp_false] at *
        simp [ownRules, *]

/-- The rules set different fields. -/
theorem commutes_rules : rules.Pairwise FieldRule.Commutes := by
  refine FieldRule.pairwise_commutes_within_append (fun _ _ => rfl) (fun _ _ _ => rfl)
    SchemaAttrs.commutes_rules ?_ ?_
  · simp [ownRules]
  · simp [ownRules]

/-- Arguments are read by the rules. -/
theorem readBy_rules : ReadBy rules ofArgs := by
  unfold ofArgs
  rw [apply_eq_followRules]
  exact .of_applyArgs commutes_rules

end SchemaDecl

/-! ## Properties and items -/

namespace ItemsDecl

/-- The rules for the parts that are no keywords. -/
def ownRules : List (FieldRule ItemsDecl) :=
  [.reading "items" [] Arg.asItems fun items decl => .mk decl.attrs (some items) decl.properties,
   .reading "properties" [] Arg.asProperties fun more decl =>
     .mk decl.attrs decl.items (decl.properties ++ more)]

/-- The rules for array elements. -/
def rules : List (FieldRule ItemsDecl) :=
  SchemaAttrs.rules.map (.within attrs fun attrs decl => .mk attrs decl.items decl.properties) ++
    ownRules

/-- What an argument that is no keyword sets. -/
theorem followRules_ownRules (decl : ItemsDecl) (arg : Arg) :
    followRules ownRules decl arg =
      if arg.1 = "items" then do return .mk decl.attrs (some (← arg.asItems)) decl.properties
      else if arg.1 = "properties" then do
        return .mk decl.attrs decl.items (decl.properties ++ (← arg.asProperties))
      else arg.unknown := by
  simp [ownRules]

/-- One argument is read and then the others. -/
theorem readItemsFrom_cons (attrs : SchemaAttrs) (items : Option ItemsDecl)
    (properties : List PropertyDecl) (arg : Arg) (rest : List Arg) :
    readItemsFrom attrs items properties (arg :: rest) = (do
      match ← attrs.set? arg with
      | some attrs => readItemsFrom attrs items properties rest
      | none =>
          if arg.1 = "items" then do
            readItemsFrom attrs (some (← arg.asItems)) properties rest
          else if arg.1 = "properties" then do
            readItemsFrom attrs items (properties ++ (← arg.asProperties)) rest
          else arg.unknown) := by
  obtain ⟨name, value⟩ := arg
  rw [readItemsFrom.eq_def]
  refine bind_congr fun attrs? => ?_
  cases attrs? with
  | some attrs => rfl
  | none =>
      dsimp only
      -- elements and properties are read from nested arguments, and from nothing else
      split
      · rfl
      · next hvalue =>
        cases value with
        | list args => exact absurd rfl (hvalue args)
        | _ => rfl
      · rfl
      · next hvalue =>
        cases value with
        | list args => exact absurd rfl (hvalue args)
        | _ => rfl
      · next hitems hproperties _ _ => rw [if_neg hitems, if_neg hproperties]

/-- Arguments follow the rules one after the other. -/
theorem readItemsFrom_eq_applyArgs (args : List Arg) (decl : ItemsDecl) :
    readItemsFrom decl.attrs decl.items decl.properties args =
      applyArgs (followRules rules) decl args := by
  induction args generalizing decl with
  | nil => cases decl; rw [readItemsFrom]; rfl
  | cons arg rest ih =>
      rw [readItemsFrom_cons, SchemaAttrs.set?_bind, applyArgs, List.foldlM_cons, rules,
        followRules_within_append, ← rules, followRules_ownRules]
      cases ruleFor? SchemaAttrs.rules arg with
      | some rule =>
          dsimp only
          cases rule.follow decl.attrs arg with
          | error => rfl
          | ok attrs => exact ih (.mk attrs decl.items decl.properties)
      | none =>
          dsimp only
          split
          · cases arg.asItems with
            | error => rfl
            | ok items => exact ih (.mk decl.attrs (some items) decl.properties)
          · split
            · cases arg.asProperties with
              | error => rfl
              | ok more => exact ih (.mk decl.attrs decl.items (decl.properties ++ more))
            · rfl

/-- The rules set different fields. -/
theorem commutes_rules : rules.Pairwise FieldRule.Commutes := by
  refine FieldRule.pairwise_commutes_within_append (fun _ _ => rfl) (fun _ _ _ => rfl)
    SchemaAttrs.commutes_rules ?_ ?_
  · simp only [ownRules, List.pairwise_cons, List.mem_cons, List.not_mem_nil, or_false, forall_eq,
      IsEmpty.forall_iff, implies_true, List.Pairwise.nil, and_self, and_true]
    exact FieldRule.commutes_reading fun _ _ _ => rfl
  · simp only [ownRules, List.mem_cons, List.not_mem_nil, or_false, forall_eq_or_imp, forall_eq]
    and_intros
    all_goals
      exact fun _ => FieldRule.commutes_within_reading (fun _ _ => rfl) fun _ _ _ => rfl

/-- Arguments follow the rules from the start. -/
theorem ofArgs_eq_applyArgs (args : List Arg) :
    ofArgs args = applyArgs (followRules rules) .empty args :=
  readItemsFrom_eq_applyArgs args .empty

/-- Arguments are read by the rules. -/
theorem readBy_rules : ReadBy rules ofArgs := by
  rw [funext ofArgs_eq_applyArgs]
  exact .of_applyArgs commutes_rules

end ItemsDecl

namespace PropertyDecl

section Parts

variable (own : Option String) (attrs : SchemaAttrs) (required : Option Bool)
  (items : Option ItemsDecl) (properties : List PropertyDecl)

@[simp] theorem name_mk : (mk own attrs required items properties).name = own := rfl

@[simp] theorem attrs_mk : (mk own attrs required items properties).attrs = attrs := rfl

@[simp] theorem required_mk : (mk own attrs required items properties).required = required := rfl

@[simp] theorem items_mk : (mk own attrs required items properties).items = items := rfl

@[simp] theorem properties_mk : (mk own attrs required items properties).properties = properties :=
  rfl

end Parts

/-- The rules for the parts that are no keywords. -/
def ownRules : List (FieldRule PropertyDecl) :=
  [.reading "name" ["property"] Arg.asText fun text decl =>
     .mk (some text) decl.attrs decl.required decl.items decl.properties,
   .reading "required" [] Arg.asBool fun flag decl =>
     .mk decl.name decl.attrs (some flag) decl.items decl.properties,
   .reading "items" [] Arg.asItems fun items decl =>
     .mk decl.name decl.attrs decl.required (some items) decl.properties,
   .reading "properties" [] Arg.asProperties fun more decl =>
     .mk decl.name decl.attrs decl.required decl.items (decl.properties ++ more)]

/-- The rules for a property. -/
def rules : List (FieldRule PropertyDecl) :=
  SchemaAttrs.rules.map (.within attrs fun attrs decl =>
    .mk decl.name attrs decl.required decl.items decl.properties) ++ ownRules

/-- What an argument that is no keyword sets. -/
theorem followRules_ownRules (decl : PropertyDecl) (arg : Arg) :
    followRules ownRules decl arg =
      if arg.1 = "name" ∨ arg.1 = "property" then do
        return .mk (some (← arg.asText)) decl.attrs decl.required decl.items decl.properties
      else if arg.1 = "required" then do
        return .mk decl.name decl.attrs (some (← arg.asBool)) decl.items decl.properties
      else if arg.1 = "items" then do
        return .mk decl.name decl.attrs decl.required (some (← arg.asItems)) decl.properties
      else if arg.1 = "properties" then do
        return .mk decl.name decl.attrs decl.required decl.items
          (decl.properties ++ (← arg.asProperties))
      else arg.unknown := by
  simp [ownRules]

/-- One argument is read and then the others. -/
theorem readPropertyFrom_cons (own : Option String) (attrs : SchemaAttrs) (required : Option Bool)
    (items : Option ItemsDecl) (properties : List PropertyDecl) (arg : Arg) (rest : List Arg) :
    readPropertyFrom own attrs required items properties (arg :: rest) = (do
      match ← attrs.set? arg with
      | some attrs => readPropertyFrom own attrs required items properties rest
      | none =>
          if arg.1 = "name" ∨ arg.1 = "property" then do
            readPropertyFrom (some (← arg.asText)) attrs required items properties rest
          else if arg.1 = "required" then do
            readPropertyFrom own attrs (some (← arg.asBool)) items properties rest
          else if arg.1 = "items" then do
            readPropertyFrom own attrs required (some (← arg.asItems)) properties rest
          else if arg.1 = "properties" then do
            readPropertyFrom own attrs required items (properties ++ (← arg.asProperties)) rest
          else arg.unknown) := by
  obtain ⟨name, value⟩ := arg
  rw [readPropertyFrom.eq_def]
  refine bind_congr fun attrs? => ?_
  cases attrs? with
  | some attrs => rfl
  | none =>
      dsimp only
      split
      · rfl
      · rfl
      · rfl
      · rfl
      · next hvalue =>
        cases value with
        | list args => exact absurd rfl (hvalue args)
        | _ => rfl
      · rfl
      · next hvalue =>
        cases value with
        | list args => exact absurd rfl (hvalue args)
        | _ => rfl
      · next hname hproperty hrequired hitems hproperties _ _ =>
        rw [if_neg (not_or.mpr ⟨hname, hproperty⟩), if_neg hrequired, if_neg hitems,
          if_neg hproperties]

/-- Arguments follow the rules one after the other. -/
theorem readPropertyFrom_eq_applyArgs (args : List Arg) (decl : PropertyDecl) :
    readPropertyFrom decl.name decl.attrs decl.required decl.items decl.properties args =
      applyArgs (followRules rules) decl args := by
  induction args generalizing decl with
  | nil => cases decl; rw [readPropertyFrom]; rfl
  | cons arg rest ih =>
      obtain ⟨own, attrs, required, items, properties⟩ := decl
      rw [readPropertyFrom_cons, SchemaAttrs.set?_bind, applyArgs, List.foldlM_cons, rules,
        followRules_within_append, ← rules, followRules_ownRules]
      simp only [name_mk, attrs_mk, required_mk, items_mk, properties_mk]
      cases ruleFor? SchemaAttrs.rules arg with
      | some rule =>
          dsimp only
          cases rule.follow attrs arg with
          | error => rfl
          | ok attrs => exact ih (.mk own attrs required items properties)
      | none =>
          dsimp only
          split
          · cases arg.asText with
            | error => rfl
            | ok text => exact ih (.mk (some text) attrs required items properties)
          split
          · cases arg.asBool with
            | error => rfl
            | ok flag => exact ih (.mk own attrs (some flag) items properties)
          split
          · cases arg.asItems with
            | error => rfl
            | ok items => exact ih (.mk own attrs required (some items) properties)
          split
          · cases arg.asProperties with
            | error => rfl
            | ok more => exact ih (.mk own attrs required items (properties ++ more))
          · rfl

/-- The rules set different fields. -/
theorem commutes_rules : rules.Pairwise FieldRule.Commutes := by
  refine FieldRule.pairwise_commutes_within_append (fun _ _ => rfl) (fun _ _ _ => rfl)
    SchemaAttrs.commutes_rules ?_ ?_
  · simp only [ownRules, List.pairwise_cons, List.mem_cons, List.not_mem_nil, or_false,
      forall_eq_or_imp, forall_eq, IsEmpty.forall_iff, implies_true, List.Pairwise.nil, and_self,
      and_true]
    and_intros
    all_goals exact FieldRule.commutes_reading fun _ _ _ => rfl
  · simp only [ownRules, List.mem_cons, List.not_mem_nil, or_false, forall_eq_or_imp, forall_eq]
    and_intros
    all_goals
      exact fun _ => FieldRule.commutes_within_reading (fun _ _ => rfl) fun _ _ _ => rfl

/-- Arguments follow the rules from the start. -/
theorem ofArgs_eq_applyArgs (args : List Arg) :
    ofArgs args = applyArgs (followRules rules) .empty args :=
  readPropertyFrom_eq_applyArgs args .empty

/-- Arguments are read by the rules. -/
theorem readBy_rules : ReadBy rules ofArgs := by
  rw [funext ofArgs_eq_applyArgs]
  exact .of_applyArgs commutes_rules

end PropertyDecl

/-! ## Media types -/

namespace MediaTypeDecl

/-- The rules for a media type. -/
def rules : List (FieldRule Draft) :=
  [.reading "media_type" ["", "mediaType"] Arg.asText fun text draft =>
     { draft with mediaType := some text },
   .reading "schema" [] Arg.asSchema fun schema draft => { draft with schema := some schema },
   .reading "example" [] (fun arg => .ok arg.asJson) fun value draft =>
     { draft with exampleValue := some value },
   .reading "examples" [] Arg.asMembers fun members draft =>
     { draft with examples := some members }]

/-- An argument follows the rules. -/
theorem apply_eq_followRules : apply = followRules rules := by
  funext draft arg
  rw [apply]
  split
  all_goals
    try simp only [imp_false] at *
    simp [rules, *]

/-- The rules set different fields. -/
theorem commutes_rules : rules.Pairwise FieldRule.Commutes := by
  simp [rules]

/-- Arguments are read by the rules. -/
theorem readBy_rules : ReadBy rules ofArgs := by
  unfold ofArgs
  rw [apply_eq_followRules]
  exact ⟨commutes_rules, _, _, fun _ => rfl⟩

end MediaTypeDecl

/-! ## Operations -/

namespace OperationDecl

/-- The rules for an operation. -/
def rules : List (FieldRule OperationDecl) :=
  [.reading "summary" [] Arg.asText fun text decl => { decl with summary := some text },
   .reading "description" [] Arg.asText fun text decl => { decl with description := some text },
   .reading "operation_id" ["operationId", "id"] Arg.asText fun text decl =>
     { decl with operationId := some text },
   .reading "tags" ["tag"] Arg.asTextList fun texts decl => { decl with tags := some texts },
   .reading "deprecated" [] Arg.asBool fun flag decl => { decl with deprecated := some flag },
   .reading "security" [] (fun arg => do SecurityRequirement.ofArgs (← arg.asList))
     fun requirement decl =>
       { decl with security := some (decl.security.getD [] ++ [requirement]) }]

/-- An argument follows the rules. -/
theorem apply_eq_followRules : apply = followRules rules := by
  funext decl arg
  rw [apply]
  split
  all_goals
    try simp only [imp_false] at *
    simp [rules, *]

/-- The rules set different fields. -/
theorem commutes_rules : rules.Pairwise FieldRule.Commutes := by
  simp [rules]

/-- Arguments are read by the rules. -/
theorem readBy_rules : ReadBy rules ofArgs := by
  unfold ofArgs
  rw [apply_eq_followRules]
  exact .of_applyArgs commutes_rules

end OperationDecl

/-! ## Parameters -/

namespace ParameterDecl

/-- The rules for the parts that are no schema keywords. -/
def ownRules : List (FieldRule Draft) :=
  [.reading "name" [""] Arg.asText fun text draft => { draft with name := some text },
   .reading "in" ["location"] readLocation fun location draft =>
     { draft with location := some location },
   .reading "description" [] Arg.asText fun text draft => { draft with description := some text },
   .reading "required" [] Arg.asBool fun flag draft => { draft with required := some flag },
   .reading "deprecated" [] Arg.asBool fun flag draft => { draft with deprecated := some flag },
   .reading "schema" [] Arg.asSchema fun schema draft => { draft with schema := some schema },
   .reading "example" [] (fun arg => .ok arg.asJson) fun value draft =>
     { draft with exampleValue := some value },
   .reading "examples" [] Arg.asMembers fun members draft =>
     { draft with examples := some members }]

/-- The rules for a parameter. -/
def rules : List (FieldRule Draft) :=
  SchemaAttrs.shortcutRules.map (.within Draft.shortcuts fun shortcuts draft =>
    { draft with shortcuts }) ++ ownRules

/-- An argument follows the rules. -/
theorem apply_eq_followRules : apply = followRules rules := by
  funext draft arg
  rw [apply, rules, followRules_within_append]
  split
  case h_11 =>
    -- none of the own fields, and so a keyword of the schema or nothing
    simp only [imp_false] at *
    split
    · next hname =>
      rw [List.contains_iff_mem] at hname
      simp only [shortcutNames, List.mem_cons, List.not_mem_nil, or_false] at hname
      rcases hname with h | h | h | h | h | h | h
      all_goals simp [SchemaAttrs.set?, SchemaAttrs.shortcutRules, h]
      all_goals rfl
    · next hname =>
      rw [List.contains_iff_mem] at hname
      simp only [shortcutNames, List.mem_cons, List.not_mem_nil, or_false, not_or] at hname
      simp [SchemaAttrs.shortcutRules, ownRules, *]
  all_goals simp [SchemaAttrs.shortcutRules, ownRules, *]

/-- The rules set different fields. -/
theorem commutes_rules : rules.Pairwise FieldRule.Commutes := by
  refine FieldRule.pairwise_commutes_within_append (fun _ _ => rfl) (fun _ _ _ => rfl)
    SchemaAttrs.commutes_shortcutRules ?_ ?_
  · simp [ownRules]
  · simp [ownRules]

/-- Arguments are read by the rules. -/
theorem readBy_rules : ReadBy rules ofArgs := by
  unfold ofArgs
  rw [apply_eq_followRules]
  exact ⟨commutes_rules, _, _, fun _ => rfl⟩

end ParameterDecl

/-! ## Request bodies and responses -/

namespace RequestBodyDecl

/-- The rules for a request body. -/
def rules : List (FieldRule RequestBodyDecl) :=
  [.reading "description" [] Arg.asText fun text decl => { decl with description := some text },
   .reading "required" [] Arg.asBool fun flag decl => { decl with required := some flag },
   .reading "reference" ["ref", "schema"] Arg.asText fun text decl =>
     { decl with reference := some text },
   .reading "content" [] Arg.asMediaTypes fun more decl =>
     { decl with content := decl.content ++ more },
   .reading "properties" [] Arg.asProperties fun more decl =>
     { decl with properties := decl.properties ++ more }]

/-- An argument follows the rules. -/
theorem apply_eq_followRules : apply = followRules rules := by
  funext decl arg
  rw [apply]
  split
  all_goals
    try simp only [imp_false] at *
    simp [rules, *]

/-- The rules set different fields. -/
theorem commutes_rules : rules.Pairwise FieldRule.Commutes := by
  simp [rules]

/-- Arguments are read by the rules. -/
theorem readBy_rules : ReadBy rules ofArgs := by
  unfold ofArgs
  rw [apply_eq_followRules]
  exact .of_applyArgs commutes_rules

end RequestBodyDecl

namespace ResponseDecl

/-- The headers that an argument adds. -/
def listedHeaders (arg : Arg) : Except AnnotationError (List (String × String)) := do
  (← arg.asList).mapM fun (header : Arg) => do return (header.1, ← header.asText)

/-- Headers are listed and then added one by one. -/
theorem readHeaders_eq (headers : List (String × String)) (arg : Arg) :
    readHeaders headers arg = (do return putMembers (← listedHeaders arg) headers) := by
  rw [readHeaders, listedHeaders]
  cases arg.asList with
  | error => rfl
  | ok list =>
      show list.foldlM _ headers = (list.mapM (m := Except AnnotationError) _ >>= _)
      induction list generalizing headers with
      | nil => rfl
      | cons header rest ih =>
          rw [List.foldlM_cons, List.mapM_cons]
          cases hheader : header.asText with
          | error => rfl
          | ok text =>
              show rest.foldlM _ (putMember header.1 text headers) = _
              rw [ih]
              simp only [bind_assoc, pure_bind]
              rfl

/-- The rules for a response. -/
def rules : List (FieldRule ResponseDecl) :=
  [.reading "status" ["", "code", "response"] readStatus fun status decl => { decl with status },
   .reading "description" [] Arg.asText fun text decl => { decl with description := some text },
   .reading "reference" ["ref", "schema"] Arg.asText fun text decl =>
     { decl with reference := some text },
   .reading "content" [] Arg.asMediaTypes fun more decl =>
     { decl with content := decl.content ++ more },
   .reading "properties" [] Arg.asProperties fun more decl =>
     { decl with properties := decl.properties ++ more },
   .reading "headers" [] listedHeaders fun more decl =>
     { decl with headers := putMembers more decl.headers }]

/-- An argument follows the rules. -/
theorem apply_eq_followRules : apply = followRules rules := by
  funext decl arg
  rw [apply]
  split
  all_goals
    try simp only [imp_false] at *
    simp [rules, readHeaders_eq, *]

/-- The rules set different fields. -/
theorem commutes_rules : rules.Pairwise FieldRule.Commutes := by
  simp [rules]

/-- Arguments are read by the rules. -/
theorem readBy_rules : ReadBy rules ofArgs := by
  unfold ofArgs
  rw [apply_eq_followRules]
  exact .of_applyArgs commutes_rules

end ResponseDecl

/-! ## Groups and relationships -/

namespace ApiGroupDecl

/-- The rules for a group. -/
def rules : List (FieldRule Draft) :=
  [.reading "name" [""] Arg.asText fun text draft => { draft with name := some text },
   .reading "description" [] Arg.asText fun text draft => { draft with description := some text },
   .reading "external_docs" ["externalDocs"] Arg.asText fun text draft =>
     { draft with externalDocs := some text }]

/-- An argument follows the rules. -/
theorem apply_eq_followRules : apply = followRules rules := by
  funext draft arg
  rw [apply]
  split
  all_goals
    try simp only [imp_false] at *
    simp [rules, *]

/-- The rules set different fields. -/
theorem commutes_rules : rules.Pairwise FieldRule.Commutes := by
  simp [rules]

/-- Arguments are read by the rules. -/
theorem readBy_rules : ReadBy rules ofArgs := by
  unfold ofArgs
  rw [apply_eq_followRules]
  exact ⟨commutes_rules, _, _, fun _ => rfl⟩

end ApiGroupDecl

namespace RelationshipDecl

/-- The kind that an argument names, as its value or by itself. -/
def givenKind (arg : Arg) : Except AnnotationError RelationshipKind :=
  if arg.1 = "kind" ∨ arg.1 = "type" then readKind arg
  else
    match RelationshipKind.ofName? arg.1 with
    | some kind => .ok kind
    | none => arg.unknown

/-- The rule for the kind. -/
def kindRule : FieldRule Draft :=
  .orFlags (fun name => (RelationshipKind.ofName? name).isSome)
    (.reading "kind" ["type"] givenKind fun kind draft => { draft with kind := some kind })

/-- The rules for a relationship. -/
def rules : List (FieldRule Draft) :=
  [.reading "related" ["model"] Arg.asText fun text draft => { draft with related := some text },
   .reading "description" [] Arg.asText fun text draft => { draft with description := some text },
   .reading "nullable" [] Arg.asBool fun flag draft => { draft with nullable := some flag },
   kindRule]

/-- An argument follows the rules. -/
theorem apply_eq_followRules : apply = followRules rules := by
  funext draft arg
  rw [apply]
  split
  all_goals
    try simp only [imp_false] at *
    simp [rules, kindRule, givenKind, *]
  -- a bare name is left, which may be that of a kind
  cases RelationshipKind.ofName? arg.1 <;> cases arg.2.isFlag <;> rfl

/-- The rules set different fields. -/
theorem commutes_rules : rules.Pairwise FieldRule.Commutes := by
  simp [rules, kindRule]

/-- Arguments are read by the rules. -/
theorem readBy_rules : ReadBy rules ofArgs := by
  unfold ofArgs
  rw [apply_eq_followRules]
  exact ⟨commutes_rules, _, _, fun _ => rfl⟩

end RelationshipDecl

end AnnotatedApi
