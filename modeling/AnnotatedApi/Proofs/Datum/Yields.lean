import AnnotatedApi.Proofs.Datum.Reading

/-! # What reading yields

Two runs of actions are compared. `Relates setting setting' R act act'` says that whenever the first
run gives something, so does the second, follows as many aliases, and the two results are related.
An action `Yields` a property when two runs of it, the second on a fixed number of levels more, give
the same, with that property: more levels change nothing. -/

namespace AnnotatedApi

/-- The setting with more levels of nesting left. -/
def ReadSetting.deeper (setting : ReadSetting) (extra : Nat) : ReadSetting :=
  { setting with depth := setting.depth + extra }

namespace Read

/-! ## Two runs -/

/-- Whatever the first action gives in its setting, the second gives something related in its own,
and follows as many aliases. -/
def Relates (setting setting' : ReadSetting) (R : α → β → Prop) (act : Read α) (act' : Read β) :
    Prop :=
  ∀ jumps r, act.result setting jumps = some r →
    ∃ b, act'.result setting' jumps = some (b, r.2) ∧ R r.1 b

/-- Whatever the first action gives has the property, and the second gives the same on so many more
levels; both with nodes in the domain. -/
def Agrees (D : Datum → Prop) (extra : Nat) (P : α → Prop) (act act' : Read α) : Prop :=
  ∀ setting, (∀ node ∈ setting.nodes, D node.2) →
    Relates setting (setting.deeper extra) (fun a a' => a' = a ∧ P a) act act'

/-- Whatever the action gives has the property, and more levels change nothing. -/
abbrev Yields (D : Datum → Prop) (extra : Nat) (P : α → Prop) (act : Read α) : Prop :=
  Agrees D extra P act act

namespace Relates

variable {setting setting' : ReadSetting}

/-- Related values. -/
theorem pure {R : α → β → Prop} {a : α} {b : β} (h : R a b) :
    Relates setting setting' R (Pure.pure a) (Pure.pure b) := by
  intro jumps r hr
  rw [result_pure, Option.some.injEq] at hr
  rw [← hr]
  exact ⟨b, rfl, h⟩

/-- One related action after another. -/
theorem bind {R : α → β → Prop} {S : γ → δ → Prop} {act : Read α} {act' : Read β}
    {next : α → Read γ} {next' : β → Read δ} (h : Relates setting setting' R act act')
    (hnext : ∀ a b, R a b → Relates setting setting' S (next a) (next' b)) :
    Relates setting setting' S (act >>= next) (act' >>= next') := by
  intro jumps r hr
  rw [result_bind, Option.bind_eq_some_iff] at hr
  obtain ⟨between, hfirst, hsecond⟩ := hr
  obtain ⟨b, hfirst', hR⟩ := h jumps between hfirst
  obtain ⟨d, hsecond', hS⟩ := hnext between.1 b hR between.2 r hsecond
  refine ⟨d, ?_, hS⟩
  rw [result_bind, hfirst']
  exact hsecond'

/-- Where the first action gives a value, the second gives a related one. -/
theorem exists_value {R : α → β → Prop} {act : Read α} {act' : Read β} {jumps : Nat} {a : α}
    (h : Relates setting setting' R act act')
    (ha : (act.result setting jumps).map Prod.fst = some a) :
    ∃ b, (act'.result setting' jumps).map Prod.fst = some b ∧ R a b := by
  obtain ⟨r, hr, rfl⟩ := Option.map_eq_some_iff.mp ha
  obtain ⟨b, hb, hR⟩ := h jumps r hr
  exact ⟨b, by rw [hb, Option.map_some], hR⟩

/-- What is related in a stronger way is related in a weaker one. -/
theorem imp {R R' : α → β → Prop} {act : Read α} {act' : Read β}
    (h : Relates setting setting' R act act') (himp : ∀ a b, R a b → R' a b) :
    Relates setting setting' R' act act' := by
  intro jumps r hr
  obtain ⟨b, hr', hR⟩ := h jumps r hr
  exact ⟨b, hr', himp _ _ hR⟩

end Relates

namespace Agrees

variable {D : Datum → Prop} {extra : Nat} {P : α → Prop} {Q : β → Prop}

/-- What is given has the property. -/
theorem of_result {act act' : Read α} (h : Agrees D extra P act act') {setting : ReadSetting}
    (hnodes : ∀ node ∈ setting.nodes, D node.2) {jumps : Nat} {r : α × Nat}
    (hr : act.result setting jumps = some r) : P r.1 := by
  obtain ⟨-, -, -, hP⟩ := h setting hnodes jumps r hr
  exact hP

/-- What holds of all that is given is yielded. -/
theorem of_forall_result {act act' : Read α} (h : Agrees D extra P act act') {P' : α → Prop}
    (hgiven : ∀ setting jumps r, act.result setting jumps = some r → P' r.1) :
    Agrees D extra P' act act' := by
  -- the second run gives the same value, so it is enough to look at the first
  intro setting hnodes jumps r hr
  obtain ⟨b, hr', heq, -⟩ := h setting hnodes jumps r hr
  exact ⟨b, hr', heq, hgiven setting jumps r hr⟩

/-- A value. -/
theorem pure {a : α} (h : P a) : Yields D extra P (Pure.pure a) :=
  fun _ _ => Relates.pure ⟨rfl, h⟩

/-- A failure yields nothing, so anything agrees with it. -/
theorem failure {act' : Read α} : Agrees D extra P Alternative.failure act' := by
  intro _ _ _ r hr
  exact absurd hr.symm (Option.some_ne_none r)

/-- A value that may not be there. -/
theorem found {value : Option α} (h : ∀ a ∈ value, P a) : Yields D extra P (Datum.found value) := by
  cases value with
  | none => exact .failure
  | some a => exact .pure (h a rfl)

/-- Related actions after the same one. -/
theorem bind_relates {act act' : Read α} {next : α → Read β} {next' : α → Read γ}
    {S : β → γ → Prop} {setting : ReadSetting} (h : Agrees D extra P act act')
    (hnodes : ∀ node ∈ setting.nodes, D node.2)
    (hnext : ∀ a, P a → Relates setting (setting.deeper extra) S (next a) (next' a)) :
    Relates setting (setting.deeper extra) S (act >>= next) (act' >>= next') := by
  refine (h setting hnodes).bind ?_
  rintro a _ ⟨rfl, ha⟩
  exact hnext _ ha

/-- One action after another. -/
theorem bind {act act' : Read α} {next next' : α → Read β} (h : Agrees D extra P act act')
    (hnext : ∀ a, P a → Agrees D extra Q (next a) (next' a)) :
    Agrees D extra Q (act >>= next) (act' >>= next') :=
  fun setting hnodes => h.bind_relates hnodes fun a ha => hnext a ha setting hnodes

/-- What is yielded also satisfies what follows from the property. -/
theorem imp {act act' : Read α} (h : Agrees D extra P act act') {P' : α → Prop}
    (himp : ∀ a, P a → P' a) : Agrees D extra P' act act' :=
  fun setting hnodes => (h setting hnodes).imp fun _ _ hP => ⟨hP.1, himp _ hP.2⟩

/-- Two properties of what is yielded. -/
theorem and {act act' : Read α} (h : Agrees D extra P act act') {P' : α → Prop}
    (h' : Agrees D extra P' act act') : Agrees D extra (fun a => P a ∧ P' a) act act' := by
  intro setting hnodes jumps r hr
  obtain ⟨b, hr', heq, hP⟩ := h setting hnodes jumps r hr
  exact ⟨b, hr', heq, hP, h'.of_result hnodes hr⟩

/-- An action on a further level. -/
theorem within {act act' : Read α} (h : Agrees D extra P act act') :
    Agrees D extra P (Datum.within act) (Datum.within act') := by
  rintro ⟨levels, nodes⟩ hnodes jumps r hr
  -- with no level left the first run fails, and the second is asked for nothing
  cases levels with
  | zero => exact absurd hr.symm (Option.some_ne_none r)
  | succ levels =>
      have hdeeper : (⟨levels + 1, nodes⟩ : ReadSetting).deeper extra =
          ⟨levels + extra + 1, nodes⟩ := by
        rw [ReadSetting.deeper, Nat.add_right_comm]
      rw [hdeeper]
      exact h ⟨levels, nodes⟩ hnodes jumps r hr

/-- Several actions one after the other. -/
theorem mapM {act act' : β → Read α} {list : List β}
    (h : ∀ b ∈ list, Agrees D extra P (act b) (act' b)) :
    Agrees D extra (fun values => ∀ a ∈ values, P a) (list.mapM act) (list.mapM act') := by
  induction list with
  | nil => exact .pure (List.forall_mem_nil _)
  | cons b rest ih =>
      rw [List.mapM_cons, List.mapM_cons]
      refine (h b List.mem_cons_self).bind fun a ha => ?_
      refine (ih fun c hc => h c (List.mem_cons_of_mem b hc)).bind fun values hvalues => ?_
      exact .pure (List.forall_mem_cons.mpr ⟨ha, hvalues⟩)

/-- A property that each of several actions keeps. -/
theorem foldlM {act : α → β → Read α} {list : List β}
    (h : ∀ a, P a → ∀ b ∈ list, Yields D extra P (act a b)) {start : α} (hstart : P start) :
    Yields D extra P (list.foldlM act start) := by
  induction list generalizing start with
  | nil => exact .pure hstart
  | cons b rest ih =>
      rw [List.foldlM_cons]
      refine (h start hstart b List.mem_cons_self).bind fun a ha => ?_
      exact ih (fun a ha c hc => h a ha c (List.mem_cons_of_mem b hc)) ha

/-- The first of two alternatives that succeeds, on the same levels in both runs. -/
theorem orElse {act other : Read α} (h : Yields D 0 P act) (hother : Yields D 0 P other) :
    Yields D 0 P (act <|> other) := by
  intro setting hnodes jumps r hr
  -- both runs are one and the same here, so only the property is left to show
  have hcases : act.result setting jumps = some r ∨ other.result setting jumps = some r := by
    have halternatives : (act.result setting jumps).orElse (fun _ => other.result setting jumps) =
        some r := hr
    cases hact : act.result setting jumps with
    | none => exact .inr (by rwa [hact] at halternatives)
    | some first => exact .inl (by rwa [hact] at halternatives)
  refine ⟨r.1, hr, rfl, ?_⟩
  rcases hcases with hact | hact
  · exact h.of_result hnodes hact
  · exact hother.of_result hnodes hact

end Agrees

end Read

end AnnotatedApi
