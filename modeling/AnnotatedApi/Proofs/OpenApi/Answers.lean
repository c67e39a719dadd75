import AnnotatedApi.Proofs.OpenApi.Paths

/-! # Where the operations of a document come from

An operation stands in a document under an address and the name of a method, and it is that of one
endpoint: the last of those that answer there. `Answers` names this endpoint, so that laws of all
operations of a document can be stated through what their endpoints say. -/

namespace AnnotatedApi.Document

open Route

/-- The endpoint is the last of those that have the address and the method of the name. -/
def Answers (endpoints : List Endpoint) (path name : String) (e : Endpoint) : Prop :=
  ∃ method : HttpMethod, method.name = name ∧ (answering endpoints path method).getLast? = some e

namespace Answers

variable {endpoints : List Endpoint} {path name : String} {e : Endpoint}

/-- The endpoint that answers is one of the endpoints, and it has the address and the method. -/
theorem mem (h : Answers endpoints path name e) :
    e ∈ endpoints ∧ e.path = path ∧ e.method.name = name := by
  obtain ⟨method, rfl, hlast⟩ := h
  have hmem := List.mem_of_getLast? hlast
  rw [answering, List.mem_filter, decide_eq_true_eq] at hmem
  exact ⟨hmem.1, hmem.2.1, congrArg HttpMethod.name hmem.2.2⟩

/-- One endpoint answers under an address and a method. -/
theorem unique {other : Endpoint} (h : Answers endpoints path name e)
    (h' : Answers endpoints path name other) : e = other := by
  obtain ⟨method, hname, hlast⟩ := h
  obtain ⟨method', hname', hlast'⟩ := h'
  obtain rfl : method = method' := HttpMethod.name_injective (hname.trans hname'.symm)
  rw [hlast] at hlast'
  exact Option.some.inj hlast'

end Answers

variable {config : Config} {endpoints : List Endpoint} {models : List Model}

/-- Every operation of a generated document is that of the endpoint that answers. -/
theorem exists_answers {item : String × PathItem}
    (hitem : item ∈ (generate config endpoints models).paths) {stored : String × Operation}
    (hstored : stored ∈ item.2) :
    ∃ e, Answers (shown endpoints) item.1 stored.1 e ∧
      stored.2 = (contextOf config models).shownOperation e := by
  rw [generate_eq] at hitem
  obtain ⟨method, e, hname, hlast, hoperation⟩ :=
    exists_answering_of_mem_pathsOf (contextOf config models) hitem hstored
  exact ⟨e, ⟨method, hname.symm, hlast⟩, hoperation⟩

end AnnotatedApi.Document
