import Mathlib
import AnnotatedApi.Proofs.Annotation.Extracted
import AnnotatedApi.Proofs.Operation.Declared

/-! # Statuses of responses

A response stands under a status: a code from 100 to 599, one of the five ranges of codes, or the
word for all other cases. Handlers write statuses as numbers or as texts, and whatever is read from
either is one of these. With the statuses of the responses by convention, every operation has a
response, and each stands under a status. -/

namespace AnnotatedApi

/-! ## Statuses -/

/-- What a response can stand under. -/
inductive IsStatus : String → Prop
  /-- All cases that no other response is for. -/
  | default : IsStatus "default"
  /-- A single code, in decimal. -/
  | code (n : Nat) (hmin : 100 ≤ n) (hmax : n ≤ 599) : IsStatus (toString n)
  /-- The hundred codes that start with a digit. -/
  | range (digit : Nat) (hmin : 1 ≤ digit) (hmax : digit ≤ 5) : IsStatus (toString digit ++ "XX")

/-- A character between two digits is a digit between them. -/
theorem exists_digitChar_eq (low high : Nat) (hdigits : low ≤ high ∧ high < 10) {c : Char}
    (hlow : low.digitChar ≤ c) (hhigh : c ≤ high.digitChar) :
    ∃ digit, low ≤ digit ∧ digit ≤ high ∧ digit.digitChar = c := by
  have hfront : low.digitChar.toNat ≤ c.toNat := hlow
  have hback : c.toNat ≤ high.digitChar.toNat := hhigh
  rw [Nat.toNat_digitChar_of_lt_ten (by omega)] at hfront hback
  refine ⟨c.toNat - 48, by omega, by omega, ?_⟩
  rw [← Char.toNat_inj, Nat.toNat_digitChar_of_lt_ten (by omega)]
  omega

/-- The decimal text of a number below ten is its digit. -/
theorem toList_toString_digit {a : Nat} (ha : a < 10) : (toString a).toList = [a.digitChar] := by
  rw [Nat.toString_eq_repr, Nat.toList_repr, Nat.toDigits_of_lt_base ha]

/-- The decimal text of a number is that of its tens and its last digit. -/
theorem toList_toString_append_digit {n a : Nat} (hn : 0 < n) (ha : a < 10) :
    (toString (10 * n + a)).toList = (toString n).toList ++ [a.digitChar] := by
  rw [Nat.toString_eq_repr, Nat.toString_eq_repr, Nat.toList_repr, Nat.toList_repr,
    ← Nat.toDigits_append_toDigits (by decide) hn ha, Nat.toDigits_of_lt_base ha]

namespace ResponseDecl

/-! ## Codes -/

/-- The codes of digits. -/
theorem toNat_of_isDigit {c : Char} (h : Text.isDigit c = true) : 48 ≤ c.toNat ∧ c.toNat ≤ 57 := by
  rw [Text.isDigit, Bool.and_eq_true, decide_eq_true_eq, decide_eq_true_eq] at h
  exact h

/-- A text of ASCII characters has a byte for each of them. -/
theorem utf8ByteSize_eq_length {text : String} (h : ∀ c ∈ text.toList, c.toNat < 128) :
    text.utf8ByteSize = text.toList.length := by
  rw [← String.utf8Len_toList]
  generalize text.toList = chars at h
  induction chars with
  | nil => rfl
  | cons c rest ih =>
      rw [List.forall_mem_cons] at h
      have hsize : c.utf8Size = 1 := Char.utf8Size_eq_one_iff.mpr (Nat.le_of_lt_succ h.1)
      rw [String.utf8Len_cons, ih h.2, hsize, List.length_cons]

/-- Only digits are read after those of a value, and they go on with it. -/
theorem natural16From_eq_some {value n : Nat} {chars : List Char}
    (h : natural16From value chars = some n) :
    (∀ c ∈ chars, Text.isDigit c = true) ∧
      n = chars.foldl (fun value c => value * 10 + (c.toNat - '0'.toNat)) value := by
  induction chars generalizing value with
  | nil => exact ⟨List.forall_mem_nil _, (Option.some.inj h).symm⟩
  | cons c rest ih =>
      rw [natural16From] at h
      split at h
      · next hc =>
        rw [Bool.and_eq_true] at hc
        obtain ⟨hrest, hvalue⟩ := ih h
        exact ⟨List.forall_mem_cons.mpr ⟨hc.1, hrest⟩, hvalue⟩
      · exact absurd h.symm (Option.some_ne_none n)

/-- What spells a number is digits, and maybe a plus sign in front; it has a byte for each of its
characters. -/
theorem natural16?_eq_some {text : String} {n : Nat} (h : natural16? text.toList = some n) :
    text.utf8ByteSize = text.toList.length ∧
      ∃ digits, (text.toList = '+' :: digits ∨ text.toList = digits) ∧
        (∀ c ∈ digits, Text.isDigit c = true) ∧
          n = digits.foldl (fun value c => value * 10 + (c.toNat - '0'.toNat)) 0 := by
  have hascii : ∀ c : Char, Text.isDigit c = true → c.toNat < 128 := fun c hc =>
    Nat.lt_of_le_of_lt (toNat_of_isDigit hc).2 (by decide)
  rw [natural16?.eq_def] at h
  split at h
  · exact absurd h.symm (Option.some_ne_none n)
  · exact absurd h.symm (Option.some_ne_none n)
  · next digits _ htext =>
    obtain ⟨hdigits, hvalue⟩ := natural16From_eq_some h
    refine ⟨utf8ByteSize_eq_length ?_, digits, .inl htext, hdigits, hvalue⟩
    rw [htext, List.forall_mem_cons]
    exact ⟨by decide, fun c hc => hascii c (hdigits c hc)⟩
  · obtain ⟨hdigits, hvalue⟩ := natural16From_eq_some h
    refine ⟨utf8ByteSize_eq_length ?_, _, .inr rfl, hdigits, hvalue⟩
    exact fun c hc => hascii c (hdigits c hc)

/-- A digit from 1 to 5 and two more digits spell a code. -/
theorem isStatusCode_of_digits {text : String} {a b c : Char} (htext : text.toList = [a, b, c])
    (hmin : '1' ≤ a) (hmax : a ≤ '5') (hb : Text.isDigit b = true) (hc : Text.isDigit c = true) :
    isStatusCode text = true := by
  have hmin' : 49 ≤ a.toNat := hmin
  have hmax' : a.toNat ≤ 53 := hmax
  have ha : Text.isDigit a = true := by
    rw [Text.isDigit, Bool.and_eq_true, decide_eq_true_eq, decide_eq_true_eq]
    exact ⟨Nat.le_trans (by decide) hmin', Nat.le_trans hmax' (by decide)⟩
  have hb' := toNat_of_isDigit hb
  have hc' := toNat_of_isDigit hc
  have hplus : a ≠ '+' := by
    rintro rfl
    exact absurd hmin (by decide)
  have hspelled : natural16? text.toList =
      some (((a.toNat - 48) * 10 + (b.toNat - 48)) * 10 + (c.toNat - 48)) := by
    rw [htext]
    simp [natural16?, hplus, natural16From, ha, hb, hc]
    omega
  have hsize : text.utf8ByteSize = 3 := by
    rw [(natural16?_eq_some hspelled).1, htext]
    rfl
  rw [isStatusCode, hsize, hspelled, Option.any_some, beq_self_eq_true, Bool.true_and,
    Bool.and_eq_true, decide_eq_true_eq, decide_eq_true_eq]
  omega

/-- What spells a code is a digit from 1 to 5 and two more digits: behind a plus sign there would be
only two digits, which spell less than 100. -/
theorem exists_digits_of_isStatusCode {text : String} (h : isStatusCode text = true) :
    ∃ a b c, text.toList = [a, b, c] ∧ ('1' ≤ a ∧ a ≤ '5') ∧ Text.isDigit b = true ∧
      Text.isDigit c = true := by
  rw [isStatusCode, Bool.and_eq_true, beq_iff_eq, Option.any_eq_true] at h
  obtain ⟨hsize, code, hcode, hrange⟩ := h
  rw [Bool.and_eq_true, decide_eq_true_eq, decide_eq_true_eq] at hrange
  obtain ⟨hbytes, digits, hchars, hdigits, hvalue⟩ := natural16?_eq_some hcode
  rw [hbytes] at hsize
  rcases hchars with htext | htext
  · rw [htext, List.length_cons, Nat.succ_inj, List.length_eq_two] at hsize
    obtain ⟨b, c, rfl⟩ := hsize
    rw [List.forall_mem_cons, List.forall_mem_singleton] at hdigits
    have hb := toNat_of_isDigit hdigits.1
    have hc := toNat_of_isDigit hdigits.2
    have hspelled : code = (b.toNat - 48) * 10 + (c.toNat - 48) := by simpa using hvalue
    omega
  · rw [htext, List.length_eq_three] at hsize
    obtain ⟨a, b, c, rfl⟩ := hsize
    rw [List.forall_mem_cons, List.forall_mem_cons, List.forall_mem_singleton] at hdigits
    obtain ⟨ha, hb, hc⟩ := hdigits
    have hspelled : code = ((a.toNat - 48) * 10 + (b.toNat - 48)) * 10 + (c.toNat - 48) := by
      simpa using hvalue
    have ha' := toNat_of_isDigit ha
    have hb' := toNat_of_isDigit hb
    have hc' := toNat_of_isDigit hc
    have hmin : 49 ≤ a.toNat := by omega
    have hmax : a.toNat ≤ 53 := by omega
    exact ⟨a, b, c, htext, ⟨hmin, hmax⟩, hb, hc⟩

/-- A code is spelled by a digit from 1 to 5 and two more digits. -/
theorem isStatusCode_iff {text : String} :
    isStatusCode text = true ↔
      ∃ a b c, text.toList = [a, b, c] ∧ ('1' ≤ a ∧ a ≤ '5') ∧ Text.isDigit b = true ∧
        Text.isDigit c = true := by
  refine ⟨exists_digits_of_isStatusCode, ?_⟩
  rintro ⟨a, b, c, htext, ⟨hmin, hmax⟩, hb, hc⟩
  exact isStatusCode_of_digits htext hmin hmax hb hc

/-- A text that spells a code is its decimal text. -/
theorem isStatus_of_isStatusCode {text : String} (h : isStatusCode text = true) :
    IsStatus text := by
  obtain ⟨a, b, c, htext, ⟨ha, ha'⟩, hb, hc⟩ := isStatusCode_iff.mp h
  rw [Text.isDigit, Bool.and_eq_true, decide_eq_true_eq, decide_eq_true_eq] at hb hc
  obtain ⟨i, hi, hi', rfl⟩ := exists_digitChar_eq 1 5 (by decide) ha ha'
  obtain ⟨j, -, hj, rfl⟩ := exists_digitChar_eq 0 9 (by decide) hb.1 hb.2
  obtain ⟨k, -, hk, rfl⟩ := exists_digitChar_eq 0 9 (by decide) hc.1 hc.2
  have hspelled : text = toString (10 * (10 * i + j) + k) := by
    rw [← String.toList_inj, htext, toList_toString_append_digit (by omega) (by omega),
      toList_toString_append_digit (by omega) (by omega), toList_toString_digit (by omega)]
    rfl
  rw [hspelled]
  exact .code _ (by omega) (by omega)

/-! ## Statuses that are read -/

/-- Characters that spell a range start with its digit. -/
theorem isStatus_of_isStatusRange {text : String} (h : isStatusRange text.toList = true) :
    IsStatus text := by
  unfold isStatusRange at h
  split at h
  · next a htext =>
    simp only [Bool.and_eq_true, decide_eq_true_eq] at h
    obtain ⟨i, hi, hi', rfl⟩ := exists_digitChar_eq 1 5 (by decide) h.1 h.2
    have hspelled : text = toString i ++ "XX" := by
      rw [← String.toList_inj, htext, String.toList_append, toList_toString_digit (by omega)]
      rfl
    rw [hspelled]
    exact .range i hi hi'
  · exact absurd h Bool.false_ne_true

/-- A text names a status, in capitals or not. -/
theorem isStatus_of_statusOfText? {text : String} :
    ∀ status ∈ statusOfText? text, IsStatus status := by
  rw [statusOfText?]
  split
  · next h =>
    rw [Bool.or_eq_true, decide_eq_true_eq] at h
    refine forall_mem_some ?_
    rcases h with rfl | hcode
    · exact .default
    · exact isStatus_of_isStatusCode hcode
  · split
    · next hrange => exact forall_mem_some (isStatus_of_isStatusRange hrange)
    · exact forall_mem_none

/-- Whatever an argument names is a status. -/
theorem gives_readStatus (arg : Arg) : Gives IsStatus (readStatus arg) := by
  rw [readStatus]
  split
  · next status hstatus =>
    refine .ok ?_
    split at hstatus
    · split at hstatus
      · next code _ =>
        split at hstatus
        · next hcode =>
          rw [← Option.some.inj hstatus]
          exact .code code hcode.1 hcode.2
        · exact absurd hstatus.symm (Option.some_ne_none _)
      · exact absurd hstatus.symm (Option.some_ne_none _)
    · exact isStatus_of_statusOfText? status hstatus
    · exact absurd hstatus.symm (Option.some_ne_none _)
  · exact .error

/-- One more argument. -/
theorem gives_status_apply {decl : ResponseDecl} (h : IsStatus decl.status) (arg : Arg) :
    Gives (fun decl : ResponseDecl => IsStatus decl.status) (decl.apply arg) := by
  rw [apply]
  split
  -- a status is read under four names, and everything else leaves it alone
  all_goals first
    | exact (gives_readStatus arg).bind fun _ hstatus => .ok hstatus
    | exact Gives.any.bind fun _ _ => .ok h
    | exact .error

/-- The status of the response that arguments spell; it is a code unless one is given. -/
theorem gives_status_ofArgs (args : List Arg) :
    Gives (fun decl : ResponseDecl => IsStatus decl.status) (ofArgs args) :=
  gives_applyArgs (P := fun decl : ResponseDecl => IsStatus decl.status)
    (isStatus_of_isStatusCode (by decide)) (fun _ h arg => gives_status_apply h arg) args

end ResponseDecl

/-! ## Annotations -/

namespace Annotation

/-- If the annotation declares a response, the response has a status. -/
def HasStatus : Annotation → Prop
  | .response decl => IsStatus decl.status
  | _ => True

/-- The annotation that a name and arguments spell. -/
theorem gives_hasStatus (name : String) (args : List Arg) : Gives HasStatus (ofArgs name args) := by
  unfold ofArgs
  split
  case h_7 => exact (ResponseDecl.gives_status_ofArgs args).map fun _ h => h
  case h_12 =>
    split
    · exact .ok trivial
    · exact .error
  case h_14 => exact .error
  all_goals exact Gives.any.map fun _ _ => trivial

/-- A response that an attribute declares has a status. -/
theorem IsExtracted.hasStatus {found : Annotation} (h : found.IsExtracted) : found.HasStatus := by
  obtain ⟨a, ha⟩ := h
  obtain ⟨name, -, hargs⟩ := Option.map_eq_some_iff.mp ha
  have hgives : Gives HasStatus (a.args >>= ofArgs name) :=
    Gives.any.bind fun args _ => gives_hasStatus name args
  exact hgives found hargs

end Annotation

/-- The declared responses have statuses. -/
theorem Annotations.IsExtracted.status {list : Annotations} (h : list.IsExtracted) :
    ∀ decl ∈ list.responses, IsStatus decl.status := by
  intro decl hdecl
  obtain ⟨found, hmem, hfound⟩ := List.mem_filterMap.mp hdecl
  split at hfound
  · rw [← Option.some.inj hfound]
    exact (h _ hmem).hasStatus
  · exact absurd hfound.symm (Option.some_ne_none _)

/-! ## Operations -/

namespace OperationContext

open Route

variable (context : OperationContext)

/-- The responses by convention stand under codes. -/
theorem isStatus_methodResponses (e : Endpoint) :
    ∀ status ∈ memberNames (context.methodResponses e), IsStatus status := by
  have hcodes : ∀ status ∈ ["200", "201", "204", "404", "422"],
      ResponseDecl.isStatusCode status = true := by decide
  have hamong : memberNames (context.methodResponses e) ⊆ ["200", "201", "204", "404", "422"] := by
    rw [methodResponses]
    -- one list of responses for each method, three for `get`
    cases e.method with
    | get =>
        dsimp only
        split
        · simp
        · split <;> simp
    | post | put | patch | delete | head | options => simp [methodResponses.updateResponses]
  exact fun status hstatus => ResponseDecl.isStatus_of_isStatusCode (hcodes status (hamong hstatus))

/-- Every operation whose annotations are spelled by attributes has a response, each of its
responses stands under a status, and the one for all other cases is among them where none is
declared. -/
theorem hasStatuses_operation? {e : Endpoint} (he : e.IsExtracted) (hshown : e.isHidden = false) :
    ∃ operation, context.operation? e = some operation ∧
      operation.responses ≠ [] ∧
      (∀ status ∈ memberNames operation.responses, IsStatus status) ∧
      (e.methodAnnotations.responses = [] → "default" ∈ memberNames operation.responses) := by
  refine ⟨context.shownOperation e, context.operation?_of_shown hshown, ?_⟩
  show context.responses e ≠ [] ∧ (∀ status ∈ memberNames (context.responses e), IsStatus status) ∧
    (_ → "default" ∈ memberNames (context.responses e))
  by_cases hdeclared : e.methodAnnotations.responses = []
  · have hresponses : context.responses e =
        context.methodResponses e ++ [("default", .unexpected)] := by
      rw [responses, hdeclared]
    rw [hresponses, memberNames_append, List.forall_mem_append]
    refine ⟨by simp, ⟨context.isStatus_methodResponses e, ?_⟩, fun _ => by simp⟩
    exact List.forall_mem_singleton.mpr .default
  · have hfirst := (context.keepsDeclared_shownOperation e).statuses hdeclared
    refine ⟨?_, ?_, fun hnone => absurd hnone hdeclared⟩
    · intro hnil
      obtain ⟨decl, hdecl⟩ := List.exists_mem_of_ne_nil _ hdeclared
      have hstatus := (hfirst.mem_iff decl.status).mpr (List.mem_map_of_mem hdecl)
      rw [show (context.shownOperation e).responses = [] from hnil] at hstatus
      exact List.not_mem_nil hstatus
    · intro status hstatus
      obtain ⟨decl, hdecl, rfl⟩ := List.mem_map.mp ((hfirst.mem_iff status).mp hstatus)
      exact he.methodAnnotations.status decl hdecl

/-- A code that is written as a number, and a range in small letters. -/
def statusAttributes : List Source.Attribute :=
  [⟨false, ["response"], .list [.literal ⟨.integer 404, "", "404".toList⟩]⟩,
    ⟨false, ["response"], .list [.name "status", .sign '=' false,
      .literal ⟨.text "5xx", "", "\"5xx\"".toList⟩]⟩]

/-- The handler that removes a task declares two responses. -/
def removeTask : Endpoint where
  method := .delete
  uri := "/api/tasks/\x7btask\x7d"
  parameters := ["task"]
  methodAnnotations := .ofAttributes statusAttributes

/-- Both responses stand under what their attributes spell. -/
theorem hasStatuses_removeTask :
    removeTask.IsExtracted ∧ removeTask.isHidden = false ∧
      memberNames (bare.responses removeTask) = ["404", "5XX"] ∧
      IsStatus "404" ∧ IsStatus "5XX" := by
  have hextracted : removeTask.IsExtracted :=
    ⟨Annotations.isExtracted_ofAttributes _, List.forall_mem_nil _⟩
  have hshown : removeTask.isHidden = false := by cbv
  have hnames : memberNames (bare.responses removeTask) = ["404", "5XX"] := by cbv
  obtain ⟨operation, hoperation, -, hstatuses, -⟩ :=
    bare.hasStatuses_operation? hextracted hshown
  rw [bare.operation?_of_shown hshown, Option.some.injEq] at hoperation
  subst hoperation
  have hboth : ∀ status ∈ ["404", "5XX"], IsStatus status := hnames ▸ hstatuses
  exact ⟨hextracted, hshown, hnames, hboth _ (by decide), hboth _ (by decide)⟩

end OperationContext

end AnnotatedApi
