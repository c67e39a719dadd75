import AnnotatedApi.Config.Basic
import AnnotatedApi.Proofs.OpenApi.Reading

/-! # Configurations that are read

What a configuration declares for the document is lawful when the configuration is read, in whatever
domain its data are. Here is also what the reader of each section yields: sections without maps and
JSON values only have to be read the same way on more levels. -/

namespace AnnotatedApi

open Datum
open Read (Yields Agrees)

/-- The parts of the document that a configuration declares are lawful. -/
structure Config.Lawful (allowed : Json → Prop) (config : Config) : Prop where
  securitySchemes : ∀ entry ∈ config.securitySchemes, entry.2.Lawful
  security : ∀ requirement ∈ config.security, requirement.Lawful
  parameters : LawfulMap (Parameter.Lawful allowed) config.parameters
  responses : LawfulMap (Response.Lawful allowed) config.responses

/-- The configuration that says nothing is lawful. -/
theorem Config.lawful_default {allowed : Json → Prop} : ({} : Config).Lawful allowed where
  securitySchemes := List.forall_mem_nil _
  security := List.forall_mem_nil _
  parameters := .empty
  responses := .empty

variable {D : Datum → Prop} {allowed : Json → Prop} {extra : Nat} {d : Datum}
variable (h : Domain D allowed)
include h

/-! ## Sections -/

/-- Which routes are documented. -/
theorem RouteSelection.yields_read (hd : D d) :
    Yields D extra (fun _ => True) (RouteSelection.read d) := by
  refine h.yields_recordOf hd fun slots hslots => ?_
  split
  · simp only [SlotsIn, List.forall_mem_cons] at hslots
    obtain ⟨includePatterns, excludePatterns, apiPrefix, middleware, -⟩ := hslots
    exact (h.yields_orElse_texts includePatterns).bind fun _ _ =>
      (h.yields_orElse_texts excludePatterns).bind fun _ _ =>
      (yields_orElse trivial (fun _ => yields_readText) apiPrefix).bind fun _ _ =>
      (h.yields_orElse_texts middleware).bind fun _ _ => .pure trivial
  · exact .failure

/-- Which models are documented. -/
theorem ModelSelection.yields_read (hd : D d) :
    Yields D extra (fun _ => True) (ModelSelection.read d) := by
  refine h.yields_recordOf hd fun slots hslots => ?_
  split
  · simp only [SlotsIn, List.forall_mem_cons] at hslots
    obtain ⟨directories, excluded, -⟩ := hslots
    exact (h.yields_orElse_texts directories).bind fun _ _ =>
      (h.yields_orElse_texts excluded).bind fun _ _ => .pure trivial
  · exact .failure

/-- Where sources, routes and models are found. -/
theorem Discovery.yields_read (hd : D d) :
    Yields D extra (fun _ => True) (Discovery.read d) := by
  refine h.yields_recordOf hd fun slots hslots => ?_
  split
  · simp only [SlotsIn, List.forall_mem_cons] at hslots
    obtain ⟨sourceRoot, rootNamespace, routes, models, -⟩ := hslots
    exact (yields_orElse trivial (fun _ => yields_readText) sourceRoot).bind fun _ _ =>
      (yields_orElse trivial (fun _ => yields_readText) rootNamespace).bind fun _ _ =>
      (yields_orElse trivial (fun _ => RouteSelection.yields_read h) routes).bind fun _ _ =>
      (yields_orElse trivial (fun _ => ModelSelection.yields_read h) models).bind fun _ _ =>
      .pure trivial
  · exact .failure

/-- Whether hidden fields are documented. -/
theorem Config.yields_readIncludesHidden (hd : D d) :
    Yields D extra (fun _ => True) (Config.readIncludesHidden d) := by
  refine h.yields_recordOf hd fun slots hslots => ?_
  split
  · exact yields_orElse trivial (fun _ => yields_readBool) (hslots _ List.mem_cons_self)
  · exact .failure

/-- Where documents are served and written. -/
theorem DocumentPaths.yields_read (hd : D d) :
    Yields D extra (fun _ => True) (DocumentPaths.read d) := by
  refine h.yields_recordOf hd fun slots hslots => ?_
  split
  · simp only [SlotsIn, List.forall_mem_cons] at hslots
    obtain ⟨jsonRoute, yamlRoute, uiRoute, outputDirectory, outputName, -⟩ := hslots
    exact (yields_orElse trivial (fun _ => yields_readText) jsonRoute).bind fun _ _ =>
      (yields_orElse trivial (fun _ => yields_readText) yamlRoute).bind fun _ _ =>
      (yields_orElse trivial (fun _ => yields_readText) uiRoute).bind fun _ _ =>
      (yields_maybe_text outputDirectory).bind fun _ _ =>
      (yields_orElse trivial (fun _ => yields_readText) outputName).bind fun _ _ => .pure trivial
  · exact .failure

omit h in
/-- A security scheme that is read from a JSON value by itself is lawful. -/
theorem SecurityScheme.lawful_of_read? {value : Json} {scheme : SecurityScheme}
    (hread : (ofJson value).read? SecurityScheme.read = some scheme) : scheme.Lawful :=
  of_read? (@SecurityScheme.yields_read _ _ 0 _ domain_any trivial) hread

/-- Security schemes. -/
theorem Config.yields_readSchemes (hd : D d) :
    Yields D extra (fun schemes => ∀ entry ∈ schemes, entry.2.Lawful) (Config.readSchemes d) := by
  refine (h.yields_membersOf (fun _ hd => h.yields_readJson hd) hd).bind fun members _ => .pure ?_
  intro entry hentry
  obtain ⟨⟨name, value⟩, -, hread⟩ := List.mem_filterMap.mp hentry
  obtain ⟨scheme, hscheme, rfl⟩ := Option.map_eq_some_iff.mp hread
  exact SecurityScheme.lawful_of_read? hscheme

/-! ## Configurations -/

/-- A configuration. -/
theorem Config.yields_read (hd : D d) : Yields D extra (Config.Lawful allowed) (Config.read d) := by
  refine h.yields_recordOf hd fun slots hslots => ?_
  split
  · simp only [SlotsIn, List.forall_mem_cons] at hslots
    obtain ⟨info, servers, discovery, generation, securitySchemes, security, parameters, responses,
      tags, paths, -⟩ := hslots
    exact (yields_orElse trivial (fun _ => Info.yields_read h) info).bind fun _ _ =>
      (h.yields_orElse_list (fun _ => Server.yields_read h) servers).bind fun _ _ =>
      (yields_orElse trivial (fun _ => Discovery.yields_read h) discovery).bind fun _ _ =>
      (yields_orElse trivial (fun _ => Config.yields_readIncludesHidden h) generation).bind
        fun _ _ =>
      (yields_orElse (List.forall_mem_nil _) (fun _ => Config.yields_readSchemes h)
        securitySchemes).bind fun _ hschemes =>
      (h.yields_orElse_list (fun _ => SecurityRequirement.yields_read h) security).bind
        fun _ hsecurity =>
      (h.yields_orElse_map (fun _ => Parameter.yields_read h) parameters).bind
        fun _ hparameters =>
      (h.yields_orElse_map (fun _ => Response.yields_read h) responses).bind fun _ hresponses =>
      (h.yields_orElse_list (fun _ => Tag.yields_read h) tags).bind fun _ _ =>
      (yields_orElse trivial (fun _ => DocumentPaths.yields_read h) paths).bind fun _ _ =>
      .pure ⟨hschemes, hsecurity, hparameters, hresponses⟩
  · exact .failure

end AnnotatedApi
