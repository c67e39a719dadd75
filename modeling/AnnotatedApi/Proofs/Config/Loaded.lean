import AnnotatedApi.Project.Settings
import AnnotatedApi.Proofs.Datum.Written
import AnnotatedApi.Proofs.OpenApi.Held

/-! # Loaded configurations

A configuration is loaded from a file in JSON or YAML. What it declares is lawful but for the values
that it holds, and one in JSON holds no null. One in YAML can, as numbers that are not finite count
as null. -/

namespace AnnotatedApi.Config

open Datum

/-- The configuration was read from the text of a file; the root of its project is set apart. -/
def IsLoaded (config : Config) : Prop :=
  ∃ path text loaded, ofText path text = .ok loaded ∧
    config = { loaded with projectRoot := config.projectRoot }

/-- What is read from a text is read from the data in it, unless the text is blank. -/
theorem eq_default_or_read_of_ofText {path text : String} {config : Config}
    (h : ofText path text = .ok config) :
    DataFormat.ofPath path = .yaml ∧ config = {} ∨
      ∃ file, (DataFormat.ofPath path).read? text = some file ∧
        file.read? Config.read = some config := by
  rw [ofText] at h
  split at h
  · next hblank =>
    rw [Bool.and_eq_true, beq_iff_eq] at hblank
    exact .inl ⟨hblank.1, (Except.ok.inj h).symm⟩
  · split at h
    · next loaded hread =>
      obtain ⟨file, hfile, hconfig⟩ := Option.bind_eq_some_iff.mp hread
      rw [Except.ok.injEq] at h
      rw [← h]
      exact .inr ⟨file, hfile, hconfig⟩
    · exact nomatch h

/-- What is read from a JSON text is read from the datum of its value, on as many levels as a text
may have. -/
theorem ofText_eq_ok_iff {path text : String} {value : Json} {config : Config}
    (hpath : DataFormat.ofPath path = .json) (htext : Json.parse? text = some value) :
    ofText path text = .ok config ↔
      DataFile.read? { root := ofJson value, maxDepth := Json.maxDepth } Config.read =
        some config := by
  have hyaml : ¬(DataFormat.json == .yaml && Text.isBlankText text) = true := Bool.false_ne_true
  rw [ofText, hpath, (read?_json_of_parse? htext).1, Option.bind_some, if_neg hyaml]
  cases DataFile.read? { root := ofJson value, maxDepth := Json.maxDepth } Config.read <;> simp

/-- What a text declares is lawful but for the values that it holds. -/
theorem lawful_of_ofText {path text : String} {config : Config}
    (h : ofText path text = .ok config) : config.Lawful fun _ => True := by
  rcases eq_default_or_read_of_ofText h with ⟨-, rfl⟩ | ⟨file, -, hread⟩
  · exact lawful_default
  · exact of_readFile? (@yields_read _ _ 0 _ domain_any trivial) (fun _ _ => trivial) hread

/-- The root of the project is no part of the document. -/
theorem Lawful.of_sections {allowed : Json → Prop} {config loaded : Config}
    (h : loaded.Lawful allowed) {root : Option String}
    (hroot : config = { loaded with projectRoot := root }) : config.Lawful allowed := by
  rw [hroot]
  exact ⟨h.securitySchemes, h.security, h.parameters, h.responses⟩

/-- What a loaded configuration declares is lawful where it holds no null. -/
theorem IsLoaded.lawful {config : Config} (h : config.IsLoaded) (hnull : ¬config.Holds .null) :
    config.Lawful (· ≠ .null) := by
  obtain ⟨path, text, loaded, hread, hroot⟩ := h
  refine ((lawful_of_ofText hread).of_sections hroot).of_holds ?_
  rintro v hv rfl
  exact hnull hv

/-- A configuration in JSON holds no null. -/
theorem not_holds_null_of_json {path text : String} {config : Config}
    (hpath : DataFormat.ofPath path = .json) (h : ofText path text = .ok config) :
    ¬config.Holds .null := by
  have hlawful : config.Lawful (· ≠ .null) := by
    rcases eq_default_or_read_of_ofText h with ⟨hyaml, -⟩ | ⟨file, hfile, hread⟩
    · rw [hpath] at hyaml
      exact nomatch hyaml
    · rw [hpath] at hfile
      obtain ⟨written, -, rfl⟩ := Option.map_eq_some_iff.mp hfile
      refine of_readFile? (@yields_read _ _ 0 _ domain_isWritten ?_) (List.forall_mem_nil _) hread
      exact isWritten_ofWritten written
  exact fun hholds => hlawful.of_mem_holds hholds rfl

end AnnotatedApi.Config
