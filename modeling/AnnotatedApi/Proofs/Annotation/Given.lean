import AnnotatedApi.Annotation.Argument
import AnnotatedApi.Proofs.OpenApi.Lawful

/-! # What arguments give

`Gives P result` says what holds of a result that is no error. The JSON values that arguments spell
are not null and have no repeated names, as no argument spells null and nested arguments are
collected. -/

namespace AnnotatedApi

/-! ## Results -/

/-- Whatever the result is, unless it is an error, has the property. -/
def Gives (P : α → Prop) (result : Except ε α) : Prop :=
  ∀ a, result = .ok a → P a

namespace Gives

variable {P : α → Prop} {Q : β → Prop} {result : Except ε α}

/-- A result that is no error. -/
theorem ok {a : α} (h : P a) : Gives P (.ok a : Except ε α) := by
  intro b hb
  rw [← Except.ok.inj hb]
  exact h

/-- An error gives nothing. -/
theorem error {e : ε} : Gives P (.error e : Except ε α) :=
  fun _ h => nomatch h

/-- Nothing is said about a result. -/
theorem any : Gives (fun _ => True) result :=
  fun _ _ => trivial

/-- What is given is what the result is. -/
theorem self : Gives (fun a => result = .ok a) result :=
  fun _ h => h

/-- Two properties of the same result. -/
theorem and {R : α → Prop} (h : Gives P result) (h' : Gives R result) :
    Gives (fun a => P a ∧ R a) result :=
  fun a ha => ⟨h a ha, h' a ha⟩

/-- One result after another. -/
theorem bind {next : α → Except ε β} (h : Gives P result) (hnext : ∀ a, P a → Gives Q (next a)) :
    Gives Q (result >>= next) := by
  cases result with
  | error => exact .error
  | ok a => exact hnext a (h a rfl)

/-- A result that is changed. -/
theorem map {f : α → β} (h : Gives P result) (hf : ∀ a, P a → Q (f a)) :
    Gives Q (result.map f) := by
  cases result with
  | error => exact .error
  | ok a => exact .ok (hf a (h a rfl))

/-- Several results one after the other. -/
theorem mapM {act : β → Except ε α} {list : List β} (h : ∀ b ∈ list, Gives P (act b)) :
    Gives (fun values => ∀ a ∈ values, P a) (list.mapM act) := by
  induction list with
  | nil => exact .ok (List.forall_mem_nil _)
  | cons b rest ih =>
      rw [List.mapM_cons]
      refine (h b List.mem_cons_self).bind fun a ha => ?_
      refine (ih fun c hc => h c (List.mem_cons_of_mem b hc)).bind fun values hvalues => ?_
      exact .ok (List.forall_mem_cons.mpr ⟨ha, hvalues⟩)

/-- A property that each step keeps. -/
theorem foldlM {step : α → β → Except ε α} {list : List β}
    (h : ∀ a, P a → ∀ b ∈ list, Gives P (step a b)) {start : α} (hstart : P start) :
    Gives P (list.foldlM step start) := by
  induction list generalizing start with
  | nil => exact .ok hstart
  | cons b rest ih =>
      rw [List.foldlM_cons]
      refine (h start hstart b List.mem_cons_self).bind fun a ha => ?_
      exact ih (fun a ha c hc => h a ha c (List.mem_cons_of_mem b hc)) ha

end Gives

/-! ## Arguments as JSON -/

namespace ArgValue

/-- No argument spells null. -/
theorem toJson_ne_null (value : ArgValue) : value.toJson ≠ .null := by
  cases value with
  | flag | text | number | bool | path | array | list =>
      rw [toJson]
      exact Json.noConfusion

mutual

/-- The JSON value of an argument has no repeated names. -/
theorem isCollected_toJson : ∀ value : ArgValue, value.toJson.IsCollected
  | .flag => by rw [toJson]; rfl
  | .text _ => by rw [toJson]; rfl
  | .path _ => by rw [toJson]; rfl
  | .number _ => by rw [toJson]; rfl
  | .bool _ => by rw [toJson]; rfl
  | .array items => by
      rw [toJson, Json.isCollected_array_iff]
      exact isCollected_itemsToJson items
  | .list args => by
      rw [toJson, Json.isCollected_object_iff]
      exact ⟨nodup_collectMembers _, forall_mem_collectMembers (isCollected_argsToMembers args)⟩

/-- Neither have those of the items of an array. -/
theorem isCollected_itemsToJson : ∀ items : List ArgValue,
    ∀ item ∈ itemsToJson items, item.IsCollected
  | [] => by
      rw [itemsToJson]
      exact List.forall_mem_nil _
  | item :: rest => by
      rw [itemsToJson, List.forall_mem_cons]
      exact ⟨isCollected_toJson item, isCollected_itemsToJson rest⟩

/-- Neither have those of nested arguments. -/
theorem isCollected_argsToMembers : ∀ args : List (String × ArgValue),
    ∀ entry ∈ argsToMembers args, entry.2.IsCollected
  | [] => by
      rw [argsToMembers]
      exact List.forall_mem_nil _
  | (name, value) :: rest => by
      rw [argsToMembers, List.forall_mem_cons]
      exact ⟨isCollected_toJson value, isCollected_argsToMembers rest⟩

end

end ArgValue

namespace Arg

/-- The JSON value of an argument is lawful. -/
theorem lawfulValue_asJson (arg : Arg) : LawfulValue (· ≠ .null) (some arg.asJson) := by
  rintro _ ⟨⟩
  exact ⟨arg.2.isCollected_toJson, arg.2.toJson_ne_null⟩

/-- The JSON values of an argument are lawful. -/
theorem gives_asJsonList (arg : Arg) :
    Gives (fun values => LawfulValues (some values)) arg.asJsonList := by
  have hmap : ∀ values : List ArgValue,
      LawfulValues (some (values.map ArgValue.toJson)) := by
    rintro values _ ⟨⟩ v hv
    obtain ⟨value, -, rfl⟩ := List.mem_map.mp hv
    exact value.isCollected_toJson
  rw [asJsonList]
  -- an array, a list of values without names, or one value by itself
  split
  · exact .ok (hmap _)
  · next args _ =>
    split
    · have hargs : args.map (fun a : Arg => a.2.toJson) = (args.map Prod.snd).map ArgValue.toJson :=
        List.map_map.symm
      rw [hargs]
      exact .ok (hmap _)
    · exact .error
  · exact .error
  · exact .ok (hmap [arg.2])

/-- The members of an argument are lawful. -/
theorem gives_asMembers (arg : Arg) :
    Gives (fun members => LawfulExamples (some members)) arg.asMembers := by
  rw [asMembers]
  split
  · next args _ =>
    refine .ok ?_
    rintro _ ⟨⟩
    exact ⟨nodup_collectMembers _,
      forall_mem_collectMembers (ArgValue.isCollected_argsToMembers args)⟩
  · exact .error

end Arg

end AnnotatedApi
