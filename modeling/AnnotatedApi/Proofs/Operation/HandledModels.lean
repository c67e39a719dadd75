import AnnotatedApi.Proofs.OpenApi.Models
import AnnotatedApi.Proofs.Text.Inflection

/-! # Handlers that are named after a model

By convention a handler type has the name of a model and a suffix, and a module of handlers the
plural of the model's name in small letters. The resource of either is the model's name again, cut
into words, so its endpoints find the first model of that name. What they take and answer by
convention then refers to this model. -/

namespace AnnotatedApi

open Route

/-! ## Names of handlers -/

/-- An owner of handlers that is named after an identifier. -/
inductive IsNamedAfter (name : String) : String → Prop
  /-- A type that has the identifier and a suffix. -/
  | type (path : String) {suffix : String} :
      suffix ∈ ["Controller", "Handler", "Handlers"] →
      IsNamedAfter name (path ++ "::" ++ (name ++ suffix))
  /-- A module that has the plural of the identifier, if the plural of the last word can be
  undone. -/
  | module (path : String) :
      (∀ word ∈ (Text.splitWords name).getLast?,
        Text.singularize (Text.pluralize word) = word) →
      IsNamedAfter name (path ++ "::" ++ Text.pluralize (Text.snakeCase name))

/-- The resource of an owner that is named after an identifier has the words of the identifier, if
its last word is no plural. -/
theorem IsNamedAfter.resourceWords_eq {name owner : String} (h : IsNamedAfter name owner)
    (hname : Text.IsIdentifier name)
    (hsingular : ∀ word ∈ (Text.splitWords name).getLast?, Text.singularize word = word) :
    Text.resourceWords owner = Text.lowerWords name := by
  have hlast : (Text.splitWords name).getLast? =
      some ((Text.splitWords name).getLast hname.splitWords_ne_nil) :=
    List.getLast?_eq_some_getLast _
  cases h with
  | type path hsuffix =>
      have hmem : ∀ suffix ∈ ["Controller", "Handler", "Handlers"],
          suffix ∈ Text.handlerSuffixes := by decide
      exact hname.resourceWords_suffixed hlast (hsingular _ hlast) (hmem _ hsuffix) path
  | module path hplural => exact hname.resourceWords_plural hlast (hplural _ hlast) path

/-! ## What endpoints refer to -/

/-- The body that an endpoint answers with by convention where its resource is described by a
fragment, and the status; none where it does not answer with its resource. -/
def Route.Endpoint.resourceAnswer? (e : Endpoint) (fragment : Fragment) :
    Option (String × Fragment) :=
  match e.method with
  | .get =>
      if e.verb? = some .list then some ("200", .page fragment)
      else if '\x7b' ∈ e.uri.toList then some ("200", fragment)
      else none
  | .post => some ("201", fragment)
  | .put => some ("200", fragment)
  | .patch => some ("200", fragment)
  | .delete => none
  | .head => none
  | .options => none

/-- What an endpoint takes and answers by convention is a model. -/
structure OperationContext.Handles (context : OperationContext) (e : Endpoint) (model : Model) :
    Prop where
  /-- A body that is not declared is the model, and there is one where requests carry a body. -/
  body : e.methodAnnotations.requestBody? = none →
    (context.requestBody? e).map RequestBody.content =
      if e.method.isMutating then some (jsonContent (context.modelFragment model)) else none
  /-- Where no response is declared, an answer with the resource is an answer with the model. -/
  answer : e.methodAnnotations.responses = [] →
    ∀ answer ∈ e.resourceAnswer? (context.modelFragment model),
      ∃ response, getMember? answer.1 (context.responses e) = some response ∧
        response.content = jsonContent answer.2
  /-- Any other response by convention refers to nothing. -/
  others : e.methodAnnotations.responses = [] → ∀ entry ∈ context.responses e,
    (∀ answer ∈ e.resourceAnswer? (context.modelFragment model), entry.1 ≠ answer.1) →
      entry.2.pointers = []

namespace OperationContext

variable {context : OperationContext} {e : Endpoint} {model : Model}

/-- An endpoint that has a model has a resource. -/
theorem resourceFragment?_of_model? (h : context.model? e = some model) :
    context.resourceFragment? e = some (context.modelFragment model) := by
  obtain ⟨resource, hresource, -⟩ := Option.bind_eq_some_iff.mp h
  rw [resourceFragment?, hresource, h]
  rfl

/-- The responses by convention start with the answer with the model, if there is one, and all the
others refer to nothing. -/
theorem methodResponses_of_model? (h : context.model? e = some model) :
    (∃ status body description rest,
      e.resourceAnswer? (context.modelFragment model) = some (status, body) ∧
        context.methodResponses e = (status, .json description body) :: rest ∧
          ∀ entry ∈ rest, entry.2.pointers = []) ∨
      e.resourceAnswer? (context.modelFragment model) = none ∧
        ∀ entry ∈ context.methodResponses e, entry.2.pointers = [] := by
  have hfound : ∀ entry ∈ [("404", Response.notFound)], entry.2.pointers = [] := by
    rw [List.forall_mem_singleton]
    rfl
  have hvalid : ∀ entry ∈ [("422", Response.validationError)], entry.2.pointers = [] := by
    rw [List.forall_mem_singleton]
    rfl
  have hupdate : ∀ entry ∈ [("404", Response.notFound), ("422", Response.validationError)],
      entry.2.pointers = [] := by
    rw [List.forall_mem_cons]
    exact ⟨rfl, hvalid⟩
  -- only the answer of the method can hold the model, and it comes first
  rw [methodResponses, Endpoint.resourceAnswer?, resourceFragment?_of_model? h]
  simp only [methodResponses.updateResponses, Option.getD_some]
  cases hmethod : e.method with
  | get =>
      dsimp only
      by_cases hlist : e.verb? = some .list
      · rw [if_pos hlist, if_pos (by rw [hlist]; rfl)]
        exact .inl ⟨_, _, _, _, rfl, rfl, List.forall_mem_nil _⟩
      · have hverb : ¬ (e.verb? == some .list) = true := by simpa using hlist
        rw [if_neg hlist, if_neg hverb]
        by_cases hplace : '\x7b' ∈ e.uri.toList
        · rw [if_pos hplace, if_pos (List.contains_iff_mem.mpr hplace)]
          exact .inl ⟨_, _, _, _, rfl, rfl, hfound⟩
        · rw [if_neg hplace, if_neg (by simpa using hplace)]
          refine .inr ⟨rfl, ?_⟩
          rw [List.forall_mem_singleton]
          rfl
  | post => exact .inl ⟨_, _, _, _, rfl, rfl, hvalid⟩
  | put => exact .inl ⟨_, _, _, _, rfl, rfl, hupdate⟩
  | patch => exact .inl ⟨_, _, _, _, rfl, rfl, hupdate⟩
  | delete =>
      refine .inr ⟨rfl, ?_⟩
      rw [List.forall_mem_cons]
      exact ⟨rfl, hfound⟩
  | head => exact .inr ⟨rfl, List.forall_mem_nil _⟩
  | options => exact .inr ⟨rfl, List.forall_mem_nil _⟩

/-- An endpoint that has a model handles the model. -/
theorem handles_of_model? (h : context.model? e = some model) : context.Handles e model where
  body := by
    intro hdeclared
    obtain ⟨resource, hresource, -⟩ := Option.bind_eq_some_iff.mp h
    rw [requestBody?, hdeclared, hresource, h]
    cases e.method.isMutating with
    | false => rfl
    | true => rfl
  answer := by
    intro hdeclared answer hanswer
    rw [responses, hdeclared]
    dsimp only
    rcases methodResponses_of_model? h with ⟨status, body, description, rest, hsome, hlist, -⟩ |
      ⟨hnone, -⟩
    · rw [hsome, Option.mem_some_iff] at hanswer
      refine ⟨.json description body, ?_, ?_⟩
      · rw [hlist, ← hanswer, List.cons_append, getMember?, if_pos rfl]
      · rw [← hanswer]
        rfl
    · rw [hnone] at hanswer
      exact absurd hanswer (Option.not_mem_none answer)
  others := by
    intro hdeclared entry hentry hother
    rw [responses, hdeclared] at hentry
    dsimp only at hentry
    rw [List.mem_append, List.mem_singleton] at hentry
    rcases hentry with hentry | rfl
    · rcases methodResponses_of_model? h with
        ⟨status, body, description, rest, hsome, hlist, hrest⟩ | ⟨-, hall⟩
      · rw [hlist, List.mem_cons] at hentry
        rcases hentry with rfl | hentry
        · exact absurd rfl (hother _ hsome)
        · exact hrest entry hentry
      · exact hall entry hentry
    · rfl

end OperationContext

/-! ## Models that are found -/

/-- Looking for a model by the words of an identifier is looking for it by the identifier. -/
theorem modelNamed?_lowerWords {name : String} (hname : Text.IsIdentifier name)
    (models : List Model) :
    modelNamed? models (Text.lowerWords name) =
      models.find? fun model => Text.sameIdentifier model.name name := by
  simp only [modelNamed?, Text.sameIdentifier, hname.foldIdentifier_lowerWords]

/-- An endpoint whose handler is named after an identifier looks for the first model that the
identifier names. -/
theorem IsNamedAfter.model?_eq {name owner : String} (h : IsNamedAfter name owner)
    (hname : Text.IsIdentifier name)
    (hsingular : ∀ word ∈ (Text.splitWords name).getLast?, Text.singularize word = word)
    {e : Endpoint} {handler : Handler} (hhandler : e.handler = some handler)
    (howner : handler.typeName = owner) (context : OperationContext) :
    context.model? e =
      context.models.find? fun model => Text.sameIdentifier model.name name := by
  have hresource : e.resource? = some (Text.lowerWords name) := by
    rw [Endpoint.resource?, hhandler, Option.map_some, howner, h.resourceWords_eq hname hsingular,
      Option.filter_some, if_pos]
    simpa using hname.lowerWords_ne_empty
  rw [OperationContext.model?, hresource, Option.bind_some, modelNamed?_lowerWords hname]

/-- The first model that an identifier names is the first of its own name. -/
theorem find?_name_eq {models : List Model} {name : String} {first : Model}
    (h : models.find? (fun model => Text.sameIdentifier model.name name) = some first) :
    models.find? (fun model => model.name = first.name) = some first := by
  rw [List.find?_eq_some_iff_append] at h ⊢
  obtain ⟨hsame, front, back, hmodels, hfront⟩ := h
  refine ⟨decide_eq_true rfl, front, back, hmodels, ?_⟩
  -- a model in front that had the name would be the same identifier as well
  intro model hmodel
  by_contra hname
  have heq : model.name = first.name := by simpa using hname
  have hother := hfront model hmodel
  rw [heq, hsame] at hother
  exact absurd hother (by decide)

/-- The reference to a model with an identifier is the pointer that the identifier stands for. -/
theorem OperationContext.exists_modelFragment_eq (context : OperationContext) {model : Model}
    (h : Text.isBlankText model.identifier = false) :
    ∃ pointer, context.names.resolve? model.identifier = some pointer ∧
      context.modelFragment model = .ref pointer := by
  obtain ⟨pointer, hpointer⟩ :
      ∃ pointer, context.names.resolve? model.identifier = some pointer := by
    rw [← Option.ne_none_iff_exists', ne_eq, ModelNames.resolve?_eq_none_iff, h]
    exact Bool.false_ne_true
  refine ⟨pointer, hpointer, ?_⟩
  rw [modelFragment, ModelNames.fragment?, hpointer]
  rfl

/-- The reference to a model that is named by its path is the pointer to the schema of its
name. -/
theorem Document.modelFragment_contextOf {models : List Model}
    (h : ∀ model ∈ models, model.IsNamed) {model : Model} (hmodel : model ∈ models)
    (config : Config) :
    (contextOf config models).modelFragment model = .ref (schemaPointer model.name) := by
  have hresolve : (contextOf config models).names.resolve? model.identifier =
      some (schemaPointer model.name) :=
    resolve?_of_isNamed h hmodel (by simp [ModelNames.spellings])
  rw [OperationContext.modelFragment, ModelNames.fragment?, hresolve]
  rfl

/-- Owners of handlers that are named after an identifier are the same identifier, with a handler
suffix or as the plural. Where a model has the identifier as its name, what their endpoints take and
answer by convention is the first model of the name, by a pointer to the schema of this model. -/
theorem handles_of_isNamedAfter {name word : String} (hname : Text.IsIdentifier name)
    (hlast : (Text.splitWords name).getLast? = some word)
    (hsingular : Text.singularize word = word) :
    (∀ path, ∀ suffix ∈ ["Controller", "Handler", "Handlers"],
      Text.sameIdentifier name
        (Text.resourceWords (path ++ "::" ++ (name ++ suffix))) = true) ∧
    (Text.singularize (Text.pluralize word) = word → ∀ path,
      Text.sameIdentifier name
        (Text.resourceWords (path ++ "::" ++ Text.pluralize (Text.snakeCase name))) = true) ∧
    ∀ models : List Model, (∃ model ∈ models, model.name = name) → ∃ first,
      models.find? (fun model => Text.sameIdentifier model.name name) = some first ∧
      (∀ (context : OperationContext) (e : Endpoint) (handler : Handler),
        context.models = models → e.handler = some handler →
          IsNamedAfter name handler.typeName → context.Handles e first) ∧
      (∀ context : OperationContext, Text.isBlankText first.identifier = false →
        ∃ pointer, context.names.resolve? first.identifier = some pointer ∧
          context.modelFragment first = .ref pointer) ∧
      ((∀ model ∈ models, model.IsNamed) → ∀ (config : Config) (endpoints : List Endpoint),
        (Document.contextOf config models).modelFragment first =
          .ref (schemaPointer first.name) ∧
        getMember? first.name (Document.generate config endpoints models).components.schemas =
          some (first.fragment (Document.namesOf models))) := by
  have hwords : ∀ w ∈ (Text.splitWords name).getLast?, Text.singularize w = w := by
    rw [hlast]
    rintro w ⟨⟩
    exact hsingular
  -- every way to name an owner keeps the words of the identifier
  have hsame : ∀ owner, IsNamedAfter name owner →
      Text.sameIdentifier name (Text.resourceWords owner) = true := by
    intro owner howner
    rw [howner.resourceWords_eq hname hwords, Text.sameIdentifier, hname.foldIdentifier_lowerWords]
    exact beq_self_eq_true _
  refine ⟨fun path suffix hsuffix => hsame _ (.type path hsuffix), ?_, ?_⟩
  · intro hplural path
    refine hsame _ (.module path ?_)
    rw [hlast]
    rintro w ⟨⟩
    exact hplural
  · rintro models ⟨model, hmodel, hmodelName⟩
    -- a model of the name is there, so one of them is met first
    obtain ⟨first, hfirst⟩ : ∃ first,
        models.find? (fun model => Text.sameIdentifier model.name name) = some first := by
      rw [← Option.isSome_iff_exists, List.find?_isSome]
      refine ⟨model, hmodel, ?_⟩
      rw [hmodelName]
      exact beq_self_eq_true _
    refine ⟨first, hfirst, ?_, ?_, ?_⟩
    · intro context e handler hmodels hhandler howner
      refine OperationContext.handles_of_model? ?_
      rw [howner.model?_eq hname hwords hhandler rfl, hmodels, hfirst]
    · intro context hidentifier
      exact context.exists_modelFragment_eq hidentifier
    · intro hnamed config endpoints
      have hmem : first ∈ models := List.mem_of_find?_eq_some hfirst
      refine ⟨Document.modelFragment_contextOf hnamed hmem config, ?_⟩
      have hschemas : (Document.generate config endpoints models).components.schemas =
          Document.schemasOf models := by
        rw [Document.generate_eq]
        rfl
      rw [hschemas, Document.getMember?_schemasOf, find?_name_eq hfirst, Option.map_some]

/-- A controller and a module of handlers that are named after a model. -/
theorem handles_userProfile :
    Text.IsIdentifier "UserProfile" ∧
      Text.sameIdentifier "UserProfile"
        (Text.resourceWords "app::http::UserProfileController") = true ∧
      Text.sameIdentifier "UserProfile"
        (Text.resourceWords "app::handlers::user_profiles") = true ∧
      ∀ (context : OperationContext) (e : Endpoint),
        context.models = [Document.bareModel "crate::models::UserProfile"] →
        e.handler = some ⟨"app::handlers::user_profiles", "store"⟩ →
          context.Handles e (Document.bareModel "crate::models::UserProfile") := by
  have hname : Text.IsIdentifier "UserProfile" :=
    ⟨List.all_eq_true.mp (by decide), List.any_eq_true.mp (by decide)⟩
  have hplural : "app::handlers" ++ "::" ++ Text.pluralize (Text.snakeCase "UserProfile") =
      "app::handlers::user_profiles" := by
    decide
  have hwords : (Text.splitWords "UserProfile").getLast? = some "profile" := by decide
  obtain ⟨htype, hmodule, hmodels⟩ := handles_of_isNamedAfter hname hwords (by decide)
  have howner : IsNamedAfter "UserProfile" "app::handlers::user_profiles" := by
    rw [← hplural]
    refine .module "app::handlers" ?_
    rw [hwords]
    decide
  obtain ⟨first, hfirst, hhandles, -⟩ :=
    hmodels [Document.bareModel "crate::models::UserProfile"]
      ⟨_, List.mem_singleton_self _, by decide⟩
  obtain rfl : first = Document.bareModel "crate::models::UserProfile" :=
    List.mem_singleton.mp (List.mem_of_find?_eq_some hfirst)
  refine ⟨hname, htype "app::http" "Controller" List.mem_cons_self, ?_, ?_⟩
  · rw [← hplural]
    exact hmodule (by decide) "app::handlers"
  · intro context e hcontext hhandler
    exact hhandles context e _ hcontext hhandler howner

end AnnotatedApi
