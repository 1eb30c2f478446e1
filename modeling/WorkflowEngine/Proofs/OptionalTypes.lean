import WorkflowEngine.Binding.Inputs
import WorkflowEngine.Proofs.Conformance

/-!
# Optional types

Null may be written into a type at any depth of its unions.  Three readers look at it apart from each other:
one asks whether null is allowed, one takes null off the type, and one compares a value with the type as it is
written.

**Readers.**  A reader that goes by the type without null meets values of that type only: an array where it
reads an array (`exists_items_of_isArray`) and a file where it reads a file (`exists_file_of_isFile`).

**Missing inputs.**  An input without a value or a default is filled with null only if its type is optional
(`isOptional_of_fillDefaults`), and an optional input that is null is bound as it is (`bindInput_null`).

**Both.**  `null_transparent`, for all types and values.
-/

namespace WorkflowEngine.Binding

open Document (DataType Input Process)

/-! ## Readers -/

section Readers

variable {v : Value} {t : DataType}

/-- What an array is read from is an array. -/
lemma exists_items_of_isArray (hv : v.isNull = false) (h : conforms v t = true) (ht : t.isArray = true) :
    ∃ items, v = .array items := by
  rw [← conforms_nonNull hv t] at h
  unfold DataType.isArray at ht
  split at ht
  · next items binding heq =>
      rw [heq] at h
      cases v with
      | array values => exact ⟨values, rfl⟩
      | _ => cases h
  · cases ht

/-- What a file is read from is a file. -/
lemma exists_file_of_isFile (hv : v.isNull = false) (h : conforms v t = true) (ht : t.isFile = true) :
    ∃ f, v = .file f := by
  have hfile (h : v.file?.isSome = true) : ∃ f, v = .file f := by
    cases v with
    | file f => exact ⟨f, rfl⟩
    | _ => cases h
  rw [← conforms_nonNull hv t] at h
  unfold DataType.isFile at ht
  split at ht
  · next heq => exact hfile (by rwa [heq] at h)
  · next heq => exact hfile (by rwa [heq] at h)
  · next heq => exact hfile (by rwa [heq] at h)
  · cases ht

end Readers

/-! ## Missing inputs -/

section Inputs

variable {process : Process} {params filled : Values} {input : Input}

/-- An input without a default has a value that is given and not null, or is null and optional. -/
lemma defaulted_cases (undefaulted : input.default = none) {v : Value}
    (h : defaulted input params = .ok v) :
    (params.find? input.id = some v ∧ v.isNull = false) ∨ (v = .null ∧ input.type.isOptional = true) := by
  have hfallback (h : defaulted.fallback input = .ok v) : v = .null ∧ input.type.isOptional = true := by
    unfold defaulted.fallback at h
    rw [undefaulted] at h
    dsimp only at h
    split_ifs at h with hoptional
    exact ⟨(Except.ok.inj h).symm, hoptional⟩
  unfold defaulted at h
  split at h
  · next given hgiven =>
      split_ifs at h with hnull
      · exact .inr (hfallback h)
      · obtain rfl := Except.ok.inj h
        exact .inl ⟨hgiven, by simpa using hnull⟩
  · exact .inr (hfallback h)

/-- A value that is given and not null is taken. -/
lemma defaulted_of_given {v : Value} (given : params.find? input.id = some v) (hv : v.isNull = false) :
    defaulted input params = .ok v := by
  rw [defaulted, given]
  exact if_neg (by rw [hv]; exact Bool.false_ne_true)

/-- **Null is filled in for optional inputs only**, but for a default that is null. -/
lemma isOptional_of_fillDefaults (h : fillDefaults process params = .ok filled)
    (mem : input ∈ process.inputs) (undefaulted : input.default = none)
    (hnull : filled.find? input.id = some .null) : input.type.isOptional = true := by
  obtain ⟨v, hv⟩ := OrderedMap.exists_entry_of_collect h input mem
  rcases defaulted_cases undefaulted hv with ⟨hgiven, hv⟩ | ⟨-, hoptional⟩
  · -- Every input with this id would take the given value, so none could have filled null in.
    have hsome : (OrderedMap.lastWith Input.id process.inputs input.id).isSome = true :=
      OrderedMap.lastWith_isSome mem
    obtain ⟨last, hlast⟩ := Option.isSome_iff_exists.mp hsome
    have hid : last.id = input.id := (OrderedMap.mem_of_lastWith hlast).2
    have hfind := OrderedMap.find?_of_collect _ _ h input.id
    rw [hlast] at hfind
    obtain ⟨w, hw, hfound⟩ := hfind
    rw [defaulted_of_given (hid ▸ hgiven) hv] at hw
    obtain rfl : v = w := Except.ok.inj hw
    obtain rfl : v = .null := Option.some.inj (hfound.symm.trans hnull)
    cases hv
  · exact hoptional

/-- **An optional input that is null** is bound as it is: it passes the check of its type, and has no files to
load or to look for. -/
lemma bindInput_null (given : (params.find? input.id).getD .null = .null)
    (optional : input.type.isOptional = true) (tree : FileTree) (config : Configuration)
    (events : List Event) : (bindInput tree config params input).run events = (.ok .null, events) := by
  have hfits : conforms .null input.type = true := (conforms_null input.type).trans optional
  have hattach (patterns : List String) : (patterns.foldlM
      (fun (v : Value) pattern => v.mapFilesM (attachSecondary tree pattern)) .null).run events
        = (.ok .null, events) := by
    induction patterns with
    | nil => rfl
    | cons p rest ih =>
        rw [List.foldlM_cons]
        exact ih
  unfold bindInput
  rw [given]
  dsimp only
  rw [show normalizeFiles config .null = .null from rfl, hfits, Bool.not_true, if_neg Bool.false_ne_true]
  cases input.loadContents <;> exact hattach _

end Inputs

/-! ## Null in a type -/

/-- **Null in a type is transparent.**  The types that are called optional are those that null fits; to all
other values a type and the type without null are the same, so that what is read as an array or a file by its
type is one; and a null that is filled in for an input without a default is bound to that input. -/
theorem null_transparent :
    (∀ t : DataType, t.isOptional = true ↔ conforms .null t = true) ∧
    (∀ (v : Value) (t : DataType), v.isNull = false →
      (conforms v t = true ↔ conforms v t.nonNull = true) ∧
      (conforms v t = true →
        (t.isArray = true → ∃ items, v = .array items) ∧ (t.isFile = true → ∃ f, v = .file f))) ∧
    ∀ (process : Process) (params filled : Values), fillDefaults process params = .ok filled →
      ∀ input ∈ process.inputs, input.default = none → filled.find? input.id = some .null →
        ∀ (tree : FileTree) (config : Configuration) (events : List Event),
          (bindInput tree config filled input).run events = (.ok .null, events) := by
  refine ⟨fun t => ?_, fun v t hv => ⟨?_, fun h => ⟨?_, ?_⟩⟩, ?_⟩
  · rw [conforms_null]
  · rw [conforms_nonNull hv]
  · exact exists_items_of_isArray hv h
  · exact exists_file_of_isFile hv h
  · intro process params filled h input mem undefaulted hnull tree config events
    have hoptional := isOptional_of_fillDefaults h mem undefaulted hnull
    exact bindInput_null (by rw [hnull, Option.getD_some]) hoptional tree config events

/-- A list of files, with null written into its type at three depths. -/
def optionalReads : DataType :=
  .union [.null, .union [.null, .null, .union [.array (.union [.null, .file]) none]]]

/-- A tool that takes such a list. -/
def readsTool : Process where
  id := "#align"
  body := .commandLineTool ⟨["align"], [], none, none, none⟩
  inputs := [⟨"reads", optionalReads, none, none, [".bai"], true⟩]
  outputs := []
  requirements := []
  hints := []

/-- A list of files fits as it would without null, and a missing one is bound as null. -/
theorem optional_reads_bound :
    conforms .null optionalReads = true ∧
    conforms (.array [.file (.ofLocation "/a.bam"), .null]) optionalReads.nonNull = true ∧
    ∃ filled, fillDefaults readsTool [] = .ok filled ∧
      ∀ input ∈ readsTool.inputs,
        (bindInput ⟨[], []⟩ .standard filled input).run [] = (.ok .null, []) := by
  obtain ⟨hnull, hvalue, hfilled⟩ := null_transparent
  refine ⟨(hnull _).mp rfl, ((hvalue _ _ rfl).1).mp rfl, [("reads", .null)], rfl, fun input mem => ?_⟩
  obtain rfl := List.mem_singleton.mp mem
  exact hfilled readsTool [] _ rfl _ mem rfl rfl _ _ _

end WorkflowEngine.Binding
