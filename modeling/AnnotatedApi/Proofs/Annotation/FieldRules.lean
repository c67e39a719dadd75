import Mathlib.Data.List.Pairwise
import AnnotatedApi.Annotation.Basic
import AnnotatedApi.Proofs.Annotation.Given

/-! # Rules for the fields of a declaration

A declaration is built by rules, one for each of its fields: which arguments set the field and what
change each of them makes. An argument follows the first rule that takes it and is refused when none
does. As the change is read from the argument alone, the changes of rules that commute may be made
in any order. -/

namespace AnnotatedApi

/-- A field of a declaration and the arguments that set it. -/
structure FieldRule (σ : Type) where
  /-- What the field is called; an argument of that name sets it. -/
  field : String
  /-- The other names of arguments that set it; the empty one is that of a positional argument. -/
  aliases : List String
  /-- The names that set it where they stand alone. -/
  flags : String → Bool := fun _ => false
  /-- What an argument changes. -/
  change : Arg → Except AnnotationError (σ → σ)

namespace FieldRule

variable {σ τ α β : Type}

/-- The rule of a field whose value is read from an argument and then put in its place. -/
def reading (field : String) (aliases : List String) (read : Arg → Except AnnotationError α)
    (put : α → σ → σ) : FieldRule σ :=
  { field, aliases, change := fun arg => (read arg).map put }

/-- The same rule for more names that stand alone. -/
def orFlags (flags : String → Bool) (rule : FieldRule σ) : FieldRule σ :=
  { rule with flags := fun name => rule.flags name || flags name }

/-- The same rule for a declaration that has the fields in a part. -/
def within (get : τ → σ) (set : σ → τ → τ) (rule : FieldRule σ) : FieldRule τ :=
  { field := rule.field
    aliases := rule.aliases
    flags := rule.flags
    change := fun arg => (rule.change arg).map fun change whole => set (change (get whole)) whole }

/-- Whether an argument sets the field. -/
def takes (rule : FieldRule σ) (arg : Arg) : Bool :=
  (rule.field :: rule.aliases).contains arg.1 || arg.2.isFlag && rule.flags arg.1

/-- The declaration after an argument that sets the field. -/
def follow (rule : FieldRule σ) (decl : σ) (arg : Arg) : Except AnnotationError σ :=
  (rule.change arg).map fun change => change decl

/-- A value is read before it is put in its place. -/
@[simp] theorem follow_reading {field : String} {aliases : List String}
    {read : Arg → Except AnnotationError α} {put : α → σ → σ} (decl : σ) (arg : Arg) :
    (reading field aliases read put).follow decl arg = (do return put (← read arg) decl) := by
  show ((read arg).map put).map _ = _
  cases read arg <;> rfl

/-- The arguments that set a field are known by their names. -/
@[simp] theorem takes_reading {field : String} {aliases : List String}
    {read : Arg → Except AnnotationError α} {put : α → σ → σ} (arg : Arg) :
    (reading field aliases read put).takes arg = (field :: aliases).contains arg.1 := by
  simp [takes, reading]

/-- A name that stands alone may set a field too. -/
@[simp] theorem takes_orFlags {flags : String → Bool} {rule : FieldRule σ} (arg : Arg) :
    (rule.orFlags flags).takes arg = (rule.takes arg || arg.2.isFlag && flags arg.1) := by
  simp [takes, orFlags, Bool.and_or_distrib_left, Bool.or_assoc]

/-- What is changed does not depend on which arguments change it. -/
@[simp] theorem follow_orFlags {flags : String → Bool} {rule : FieldRule σ} (decl : σ) (arg : Arg) :
    (rule.orFlags flags).follow decl arg = rule.follow decl arg := rfl

/-! ### Rules that commute -/

/-- Two rules whose changes may be made in either order. -/
def Commutes (rule other : FieldRule σ) : Prop :=
  ∀ arg arg', Gives (fun change =>
    Gives (fun change' => ∀ decl, change (change' decl) = change' (change decl))
      (other.change arg')) (rule.change arg)

instance : Std.Symm (@Commutes σ) where
  symm _ _ h arg arg' change hchange change' hchange' decl :=
    (h arg' arg change' hchange' change hchange decl).symm

/-- Rules that put their values in different places commute. -/
@[simp] theorem commutes_reading {field field' : String} {aliases aliases' : List String}
    {read : Arg → Except AnnotationError α} {read' : Arg → Except AnnotationError β}
    {put : α → σ → σ} {put' : β → σ → σ}
    (h : ∀ value value' decl, put value (put' value' decl) = put' value' (put value decl)) :
    (reading field aliases read put).Commutes (reading field' aliases' read' put') :=
  fun _ _ => Gives.any.map fun value _ => Gives.any.map fun value' _ => h value value'

/-- Names that stand alone make no difference to it. -/
@[simp] theorem commutes_orFlags {flags : String → Bool} {rule other : FieldRule σ} :
    rule.Commutes (other.orFlags flags) ↔ rule.Commutes other := Iff.rfl

section Part

variable {get : τ → σ} {set : σ → τ → τ}

/-- Rules for a part of a declaration commute where they commute for the part. -/
theorem Commutes.within {rule other : FieldRule σ} (h : rule.Commutes other)
    (hget : ∀ part whole, get (set part whole) = part)
    (hset : ∀ part part' whole, set part (set part' whole) = set part whole) :
    (rule.within get set).Commutes (other.within get set) := by
  intro arg arg'
  refine Gives.map (h arg arg') fun change hchange => hchange.map fun change' hcommute whole => ?_
  calc set (change (get (set (change' (get whole)) whole))) (set (change' (get whole)) whole)
      = set (change (change' (get whole))) whole := by rw [hget, hset]
    _ = set (change' (change (get whole))) whole := by rw [hcommute]
    _ = set (change' (get (set (change (get whole)) whole))) (set (change (get whole)) whole) := by
        rw [hget, hset]

/-- A rule for a part commutes with a rule that leaves the part as it is. -/
@[simp] theorem commutes_within_reading {rule : FieldRule σ} {field : String}
    {aliases : List String} {read : Arg → Except AnnotationError α} {put : α → τ → τ}
    (hget : ∀ value whole, get (put value whole) = get whole)
    (hset : ∀ value part whole, set part (put value whole) = put value (set part whole)) :
    (rule.within get set).Commutes (reading field aliases read put) := by
  intro arg arg'
  refine Gives.any.map fun change _ => Gives.any.map fun value _ whole => ?_
  show set (change (get (put value whole))) (put value whole) = put value (set _ whole)
  rw [hget, hset]

/-- The rules for a part and the rules that leave it as it is commute with each other where they
commute among themselves. -/
theorem pairwise_commutes_within_append {rules : List (FieldRule σ)} {others : List (FieldRule τ)}
    (hget : ∀ part whole, get (set part whole) = part)
    (hset : ∀ part part' whole, set part (set part' whole) = set part whole)
    (hrules : rules.Pairwise Commutes) (hothers : others.Pairwise Commutes)
    (hacross : ∀ other ∈ others, ∀ rule : FieldRule σ, (rule.within get set).Commutes other) :
    (rules.map (FieldRule.within get set) ++ others).Pairwise Commutes := by
  refine List.pairwise_append.mpr ⟨hrules.map _ fun _ _ h => h.within hget hset, hothers, ?_⟩
  intro _ hmem other hother
  obtain ⟨rule, -, rfl⟩ := List.mem_map.mp hmem
  exact hacross other hother rule

end Part

end FieldRule

/-! ## Following rules -/

section

variable {σ τ : Type}

/-- The first rule that takes an argument. -/
def ruleFor? (rules : List (FieldRule σ)) (arg : Arg) : Option (FieldRule σ) :=
  rules.find? fun rule => rule.takes arg

/-- The field that an argument sets. -/
def fieldSet? (rules : List (FieldRule σ)) (arg : Arg) : Option String :=
  (ruleFor? rules arg).map fun rule => rule.field

/-- The change that an argument makes; an argument that no rule takes is refused. -/
def changeOf (rules : List (FieldRule σ)) (arg : Arg) : Except AnnotationError (σ → σ) :=
  match ruleFor? rules arg with
  | some rule => rule.change arg
  | none => arg.unknown

/-- The declaration after one more argument. -/
def followRules (rules : List (FieldRule σ)) (decl : σ) (arg : Arg) : Except AnnotationError σ :=
  (changeOf rules arg).map fun change => change decl

/-- Two arguments set no field in common. -/
def SetOthers (rules : List (FieldRule σ)) (arg arg' : Arg) : Prop :=
  ∀ field ∈ fieldSet? rules arg, field ∉ fieldSet? rules arg'

/-- No rule takes an argument where there are none. -/
@[simp] theorem ruleFor?_nil (arg : Arg) : ruleFor? ([] : List (FieldRule σ)) arg = none := rfl

/-- The first rule is asked first. -/
@[simp] theorem ruleFor?_cons (rule : FieldRule σ) (rules : List (FieldRule σ)) (arg : Arg) :
    ruleFor? (rule :: rules) arg = if rule.takes arg then some rule else ruleFor? rules arg := by
  rw [ruleFor?, List.find?_cons]
  cases rule.takes arg <;> rfl

/-- The first rule that takes an argument takes it. -/
theorem takes_of_ruleFor? {rules : List (FieldRule σ)} {rule : FieldRule σ} {arg : Arg}
    (h : ruleFor? rules arg = some rule) : rule.takes arg = true := by
  have htakes := List.find?_some h
  exact htakes

/-- Nothing is changed by an argument that no rule takes. -/
@[simp] theorem followRules_nil (decl : σ) (arg : Arg) :
    followRules [] decl arg = arg.unknown := rfl

/-- An argument follows the first rule or else one of the others. -/
@[simp] theorem followRules_cons (rule : FieldRule σ) (rules : List (FieldRule σ)) (decl : σ)
    (arg : Arg) :
    followRules (rule :: rules) decl arg =
      if rule.takes arg then rule.follow decl arg else followRules rules decl arg := by
  rw [followRules, changeOf, ruleFor?_cons]
  cases rule.takes arg <;> rfl

/-- Rules for a part are asked before the others. -/
theorem followRules_within_append {get : τ → σ} {set : σ → τ → τ} (rules : List (FieldRule σ))
    (others : List (FieldRule τ)) (whole : τ) (arg : Arg) :
    followRules (rules.map (.within get set) ++ others) whole arg =
      match ruleFor? rules arg with
      | some rule => do return set (← rule.follow (get whole) arg) whole
      | none => followRules others whole arg := by
  induction rules with
  | nil => rfl
  | cons rule rules ih =>
      rw [List.map_cons, List.cons_append, followRules_cons, ruleFor?_cons]
      have htakes : (rule.within get set).takes arg = rule.takes arg := rfl
      rw [htakes]
      cases rule.takes arg with
      | true =>
          show ((rule.change arg).map _).map _ = ((rule.change arg).map _ >>= _)
          cases rule.change arg <;> rfl
      | false => exact ih

variable {rules : List (FieldRule σ)} {args args' : List Arg}

instance : Std.Symm (SetOthers rules) where
  symm _ _ h field hfield hfield' := h field hfield' hfield

/-- Where no field is set twice, two arguments set no field in common. -/
theorem setOthers_of_nodup (h : (args.filterMap (fieldSet? rules)).Nodup) {arg arg' : Arg}
    (harg : arg ∈ args) (harg' : arg' ∈ args) (hne : arg ≠ arg') : SetOthers rules arg arg' := by
  have hpairwise : args.Pairwise (SetOthers rules) := by
    refine (List.pairwise_filterMap.mp h).imp fun hdistinct field hfield hfield' => ?_
    exact hdistinct field hfield field hfield' rfl
  exact hpairwise.forall harg harg' hne

/-- The changes of two arguments that set different fields may be made in either order. -/
theorem changeOf_commutes (hrules : rules.Pairwise FieldRule.Commutes) {arg arg' : Arg}
    (hfields : SetOthers rules arg arg') :
    Gives (fun change =>
      Gives (fun change' => ∀ decl, change (change' decl) = change' (change decl))
        (changeOf rules arg')) (changeOf rules arg) := by
  rw [changeOf, changeOf]
  cases hrule : ruleFor? rules arg with
  | none => exact .error
  | some rule =>
    cases hrule' : ruleFor? rules arg' with
    | none => exact fun _ _ => .error
    | some rule' =>
      -- one rule for both arguments would set its field twice
      have hne : rule ≠ rule' := by
        rintro rfl
        exact hfields rule.field (Option.mem_map_of_mem _ hrule) (Option.mem_map_of_mem _ hrule')
      exact hrules.forall (List.mem_of_find?_eq_some hrule) (List.mem_of_find?_eq_some hrule') hne
        arg arg'

/-- Two arguments that set different fields may be given in either order. -/
theorem toOption_followRules_comm (hrules : rules.Pairwise FieldRule.Commutes) {arg arg' : Arg}
    (hfields : SetOthers rules arg arg') (decl : σ) :
    ((followRules rules decl arg).toOption.bind fun decl =>
        (followRules rules decl arg').toOption) =
      (followRules rules decl arg').toOption.bind fun decl =>
        (followRules rules decl arg).toOption := by
  have hcommutes := changeOf_commutes hrules hfields
  simp only [followRules]
  cases hchange : changeOf rules arg with
  | error => cases changeOf rules arg' <;> rfl
  | ok change =>
    cases hchange' : changeOf rules arg' with
    | error => rfl
    | ok change' => exact congrArg some (hcommutes change hchange change' hchange' decl).symm

/-- Whether a loop ends without an error, and with what, goes by its steps. -/
theorem toOption_foldlM {ε β : Type} {step : σ → β → Except ε σ} (list : List β) (start : σ) :
    (list.foldlM step start).toOption =
      list.foldl (fun state? b => state?.bind fun state => (step state b).toOption)
        (some start) := by
  -- after an error nothing is left to do
  have hnone : ∀ rest : List β, rest.foldl
      (fun state? b => state?.bind fun state => (step state b).toOption) none = none := by
    intro rest
    induction rest with
    | nil => rfl
    | cons b rest ih => exact ih
  induction list generalizing start with
  | nil => rfl
  | cons b rest ih =>
      rw [List.foldlM_cons, List.foldl_cons, Option.bind_some]
      cases step start b with
      | error => exact (hnone rest).symm
      | ok state => exact ih state

/-- Arguments that set different fields may be given in any order: the declaration is the same, or
there is none in either order. -/
theorem toOption_applyArgs_perm (hrules : rules.Pairwise FieldRule.Commutes)
    (hperm : args.Perm args') (hfields : (args.filterMap (fieldSet? rules)).Nodup) (start : σ) :
    (applyArgs (followRules rules) start args).toOption =
      (applyArgs (followRules rules) start args').toOption := by
  rw [applyArgs, applyArgs, toOption_foldlM, toOption_foldlM]
  -- what is left is that two arguments may change places, whatever came before them
  refine hperm.foldl_eq' (fun arg harg arg' harg' decl? => ?_) _
  by_cases heq : arg = arg'
  · rw [heq]
  cases decl? with
  | none => rfl
  | some decl =>
      exact toOption_followRules_comm hrules (setOthers_of_nodup hfields harg harg' heq) decl

/-! ## Readers that follow rules -/

/-- Two results that agree but for their errors agree after one more step. -/
theorem toOption_bind_congr {ε α β : Type} {result result' : Except ε α}
    (h : result.toOption = result'.toOption) (next : α → Except ε β) :
    (result >>= next).toOption = (result' >>= next).toOption := by
  cases result with
  | error => cases result' with
    | error => rfl
    | ok a => exact nomatch h
  | ok a => cases result' with
    | error => exact nomatch h
    | ok a' => rw [Option.some.inj h]

/-- A reader follows rules that commute, one argument after the other, and ends with one more step
on its own. -/
def ReadBy (rules : List (FieldRule σ)) (read : List Arg → Except AnnotationError τ) : Prop :=
  rules.Pairwise FieldRule.Commutes ∧
    ∃ start finish, ∀ args, read args = applyArgs (followRules rules) start args >>= finish

namespace ReadBy

variable {read : List Arg → Except AnnotationError τ}

/-- A reader that does nothing but follow rules. -/
theorem of_applyArgs {start : σ} (hrules : rules.Pairwise FieldRule.Commutes) :
    ReadBy rules fun args => applyArgs (followRules rules) start args :=
  ⟨hrules, start, .ok, fun _ => (bind_pure _).symm⟩

/-- A reader whose result is changed. -/
theorem map {ρ : Type} (h : ReadBy rules read) (f : τ → ρ) :
    ReadBy rules fun args => (read args).map f := by
  obtain ⟨hrules, start, finish, hread⟩ := h
  refine ⟨hrules, start, fun decl => (finish decl).map f, fun args => ?_⟩
  dsimp only
  rw [hread]
  cases applyArgs (followRules rules) start args <;> rfl

/-- Arguments that set different fields may be given to the reader in any order. -/
theorem perm (h : ReadBy rules read) (hperm : args.Perm args')
    (hfields : (args.filterMap (fieldSet? rules)).Nodup) :
    (read args).toOption = (read args').toOption := by
  obtain ⟨hrules, start, finish, hread⟩ := h
  rw [hread, hread]
  exact toOption_bind_congr (toOption_applyArgs_perm hrules hperm hfields start) finish

end ReadBy

end

end AnnotatedApi
