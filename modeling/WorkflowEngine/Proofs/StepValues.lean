import Mathlib.Tactic.Common
import WorkflowEngine.Binding.Inputs
import WorkflowEngine.Proofs.Combinations

/-!
# Values of steps

The expressions of a step's inputs may refer to each other.  Each of them sees the parameters as the step received
them, so that it does not matter in which order they are evaluated.

**Replacement.**  Different known keys can be replaced in any order: `OrderedMap.insert_comm`, and for many keys
`replaced_eq_of_perm`.

**Evaluation.**  `HasNewValue`: what the expression of an input is worth.  The loop over the inputs stores as it
goes, but nothing that it stores is read again: it comes to all new values first, and to the parameters with these
replaced after that (`foldlM_storeStepValue_eq_ok_iff`).

**Steps.**  `values_simultaneous`, for every evaluator, every step and all parameters.
-/

namespace WorkflowEngine

open Document (Step StepInput)

/-! ## Replacement -/

/-- Storing under a known key does not get in the way of storing under another key. -/
lemma OrderedMap.insert_comm {α : Type} {m : OrderedMap α} {key other : String} (hne : key ≠ other)
    (known : key ∈ keys m) (v w : α) :
    insert (insert m key v) other w = insert (insert m other w) key v := by
  induction m with
  | nil => simp at known
  | cons p rest ih =>
      obtain ⟨k, u⟩ := p
      by_cases hk : k = key
      · subst hk
        simp [insert, hne]
      · have hrest : key ∈ keys rest := by simpa [Ne.symm hk] using known
        by_cases ho : k = other
        · subst ho
          simp [insert, hk]
        · simp [insert, hk, ho, ih hrest]

namespace Scheduling

variable {params : Values} {choice : List (String × Value)}

/-- What stands in the place of a replaced parameter. -/
lemma find?_replaced (distinct : (choice.map Prod.fst).Nodup) (known : ∀ p ∈ choice, p.1 ∈ params.keys)
    {name : String} {v : Value} (h : (name, v) ∈ choice) : (replaced params choice).find? name = some v := by
  induction choice generalizing params with
  | nil => simp at h
  | cons p choice ih =>
      obtain ⟨hp, hchoice⟩ := List.forall_mem_cons.mp known
      obtain ⟨hfirst, hdistinct⟩ := List.nodup_cons.mp distinct
      have hkeys := OrderedMap.keys_insert_of_mem params p.1 p.2 hp
      have hinserted : ∀ q ∈ choice, q.1 ∈ (params.insert p.1 p.2).keys := hkeys ▸ hchoice
      rcases List.mem_cons.mp h with rfl | h
      · -- The others have other names.
        have hlast := (replaced_frame hinserted).2 name hfirst
        rw [OrderedMap.find?_insert, if_pos rfl] at hlast
        exact hlast
      · exact ih hdistinct hinserted h

/-- Different known parameters can be replaced in any order. -/
lemma replaced_eq_of_perm {other : List (String × Value)} (h : choice.Perm other)
    (distinct : (choice.map Prod.fst).Nodup) (known : ∀ p ∈ choice, p.1 ∈ params.keys) :
    replaced params choice = replaced params other := by
  induction h generalizing params with
  | nil => rfl
  | cons p _ ih =>
      obtain ⟨hp, hrest⟩ := List.forall_mem_cons.mp known
      refine ih (List.nodup_cons.mp distinct).2 ?_
      rwa [OrderedMap.keys_insert_of_mem params p.1 p.2 hp]
  | swap p q rest =>
      have hne : p.1 ≠ q.1 := by
        intro heq
        exact (List.nodup_cons.mp distinct).1 (by simp [heq])
      have hp : p.1 ∈ params.keys := known p (by simp)
      simp only [replaced, List.foldl_cons, OrderedMap.insert_comm hne hp]
  | trans hfirst _ ih ih' =>
      have hnames := (hfirst.map Prod.fst).nodup_iff.mp distinct
      exact (ih distinct known).trans (ih' hnames fun p hp => known p (hfirst.mem_iff.mpr hp))

end Scheduling

namespace Binding

open Scheduling (replaced replaced_frame find?_replaced replaced_eq_of_perm)

/-! ## Evaluation -/

/-- What the expression of an input is worth: it sees what the input received as `self`, and as `inputs` all
parameters as the step received them. -/
def HasNewValue (eval : Evaluator) (params : Values) (library : List String) (input : StepInput) (v : Value) :
    Prop :=
  ∃ expression own, input.valueFrom = some expression ∧ params.find? input.id = some own ∧
    eval expression { inputs := params.toJson, self := own.toJson, runtime := .obj [], library } = .ok v

variable {eval : Evaluator} {step : Step} {params : Values} {library : List String}

lemma stepValue?_eq_none {input : StepInput} (h : input.valueFrom.isSome = false) :
    stepValue? eval step params library input = none := by
  rw [Option.isSome_eq_false_iff, Option.isNone_iff_eq_none] at h
  rw [stepValue?, h, Option.map_none]

/-- Storing the value of an input that has an expression. -/
lemma storeStepValue_eq_ok_iff {input : StepInput} (valued : input.valueFrom.isSome) (given : input.id ∈ params.keys)
    {before after : Values} :
    storeStepValue eval step params library before input = .ok after ↔
      ∃ v, HasNewValue eval params library input v ∧ after = before.insert input.id v := by
  obtain ⟨expression, hexpression⟩ := Option.isSome_iff_exists.mp valued
  obtain ⟨own, hown⟩ := Option.isSome_iff_exists.mp (OrderedMap.find?_isSome_iff.mpr given)
  simp only [storeStepValue, stepValue?, HasNewValue, hexpression, hown, Option.map_some, Option.getD_some,
    Option.some.injEq, exists_and_left, exists_eq_left', ExprContext.ofInputs, ExprContext.withSelf]
  cases eval expression _ <;> simp [Except.mapError, Except.map, eq_comm]

/-- The new values of the inputs that have an expression, by their names. -/
def NewValues (eval : Evaluator) (params : Values) (library : List String) (inputs : List StepInput)
    (choice : List (String × Value)) : Prop :=
  List.Forall₂ (fun input p => p.1 = input.id ∧ HasNewValue eval params library input p.2)
    (inputs.filter (·.valueFrom.isSome)) choice

/-- **All at once**: the new values first, and then the parameters with these replaced. -/
lemma foldlM_storeStepValue_eq_ok_iff {inputs : List StepInput} (given : ∀ input ∈ inputs, input.id ∈ params.keys)
    {before after : Values} :
    inputs.foldlM (storeStepValue eval step params library) before = .ok after ↔
      ∃ choice, NewValues eval params library inputs choice ∧ after = replaced before choice := by
  induction inputs generalizing before with
  | nil => simp [NewValues, replaced, pure, Except.pure, eq_comm]
  | cons input inputs ih =>
      obtain ⟨hgiven, hothers⟩ := List.forall_mem_cons.mp given
      simp only [List.foldlM_cons, bind_eq_ok]
      cases hvalued : input.valueFrom.isSome with
      | false =>
          simp [NewValues, storeStepValue, stepValue?_eq_none hvalued, ih hothers, hvalued]
      | true =>
          simp only [NewValues, storeStepValue_eq_ok_iff hvalued hgiven, ih hothers, hvalued, List.filter_cons_of_pos,
            List.forall₂_cons_left_iff]
          constructor
          · rintro ⟨_, ⟨v, hv, rfl⟩, choice, hchoice, rfl⟩
            exact ⟨_, ⟨(input.id, v), choice, ⟨rfl, hv⟩, hchoice, rfl⟩, rfl⟩
          · rintro ⟨_, ⟨⟨name, v⟩, choice, ⟨rfl, hv⟩, hchoice, rfl⟩, rfl⟩
            exact ⟨_, ⟨v, hv, rfl⟩, choice, hchoice, rfl⟩

/-! ## Steps -/

namespace NewValues

variable {choice : List (String × Value)} (h : NewValues eval params library step.inputs choice)

include h

lemma known (given : ∀ input ∈ step.inputs, input.id ∈ params.keys) : ∀ p ∈ choice, p.1 ∈ params.keys := by
  intro p hp
  obtain ⟨input, hinput, hname, -⟩ := forall₂_mem_right h hp
  exact hname ▸ given input (List.mem_of_mem_filter hinput)

lemma nodup (distinct : (step.inputs.map StepInput.id).Nodup) : (choice.map Prod.fst).Nodup := by
  have hnames : choice.map Prod.fst = (step.inputs.filter (·.valueFrom.isSome)).map StepInput.id :=
    map_eq_of_forall₂ (h.imp fun _ _ hp => hp.1)
  rw [hnames]
  exact (List.filter_sublist.map _).nodup distinct

lemma exists_mem {input : StepInput} (hinput : input ∈ step.inputs) (valued : input.valueFrom.isSome) :
    ∃ v, HasNewValue eval params library input v ∧ (input.id, v) ∈ choice := by
  obtain ⟨⟨name, v⟩, hv, rfl, hnew⟩ := forall₂_mem_left h (List.mem_filter.mpr ⟨hinput, valued⟩)
  exact ⟨v, hnew, hv⟩

lemma notMem {name : String} (hname : ∀ input ∈ step.inputs, input.valueFrom.isSome → input.id ≠ name) :
    name ∉ choice.map Prod.fst := by
  intro hmem
  obtain ⟨p, hp, rfl⟩ := List.mem_map.mp hmem
  obtain ⟨input, hinput, hid, -⟩ := forall₂_mem_right h hp
  obtain ⟨hinput, valued⟩ := List.mem_filter.mp hinput
  exact hname input hinput valued hid.symm

end NewValues

section Steps

variable (given : ∀ input ∈ step.inputs, input.id ∈ params.keys)

include given

/-- A step has values if each of its expressions has one, and only then. -/
lemma exists_stepValues_iff :
    (∃ result, stepValues eval step params library = .ok result) ↔
      ∀ input ∈ step.inputs, input.valueFrom.isSome → ∃ v, HasNewValue eval params library input v := by
  constructor
  · rintro ⟨result, h⟩ input hinput valued
    obtain ⟨choice, hchoice, -⟩ := (foldlM_storeStepValue_eq_ok_iff given).mp h
    obtain ⟨v, hnew, -⟩ := hchoice.exists_mem hinput valued
    exact ⟨v, hnew⟩
  · intro hall
    refine exists_foldlM (fun input hinput before => ?_) params
    cases hvalued : input.valueFrom.isSome with
    | false => exact ⟨before, by rw [storeStepValue, stepValue?_eq_none hvalued]⟩
    | true =>
        obtain ⟨v, hv⟩ := hall input hinput hvalued
        exact ⟨_, (storeStepValue_eq_ok_iff hvalued (given input hinput)).mpr ⟨v, hv, rfl⟩⟩

variable (distinct : (step.inputs.map StepInput.id).Nodup)

include distinct

/-- The inputs of a step can be listed in any order. -/
lemma stepValues_of_perm {result : Values} (h : stepValues eval step params library = .ok result)
    {inputs : List StepInput} (hperm : inputs.Perm step.inputs) :
    stepValues eval { step with inputs } params library = .ok result := by
  obtain ⟨choice, hchoice, rfl⟩ := (foldlM_storeStepValue_eq_ok_iff given).mp h
  obtain ⟨other, hother, hsame⟩ := List.perm_comp_forall₂ (hperm.filter _) hchoice
  refine (foldlM_storeStepValue_eq_ok_iff fun input hinput => given input (hperm.mem_iff.mp hinput)).mpr
    ⟨other, hother, ?_⟩
  exact replaced_eq_of_perm hsame.symm (hchoice.nodup distinct) (hchoice.known given)

/-- **The expressions of a step are evaluated at once.**  They have values if and only if each of them has one
where it sees the parameters as the step received them.  Then each of these inputs has its value, the other
parameters and the order of all are kept, and the order of the inputs makes no difference. -/
theorem values_simultaneous :
    ((∃ result, stepValues eval step params library = .ok result) ↔
      ∀ input ∈ step.inputs, input.valueFrom.isSome → ∃ v, HasNewValue eval params library input v) ∧
    ∀ result, stepValues eval step params library = .ok result →
      result.keys = params.keys ∧
      (∀ input ∈ step.inputs, input.valueFrom.isSome →
        ∃ v, HasNewValue eval params library input v ∧ result.find? input.id = some v) ∧
      (∀ name, (∀ input ∈ step.inputs, input.valueFrom.isSome → input.id ≠ name) →
        result.find? name = params.find? name) ∧
      ∀ inputs : List StepInput, inputs.Perm step.inputs →
        stepValues eval { step with inputs } params library = .ok result := by
  refine ⟨exists_stepValues_iff given, fun result h => ?_⟩
  obtain ⟨choice, hchoice, rfl⟩ := (foldlM_storeStepValue_eq_ok_iff given).mp h
  obtain ⟨hkeys, hothers⟩ := replaced_frame (hchoice.known given)
  refine ⟨hkeys, ?_, fun name hname => hothers name (hchoice.notMem hname), fun inputs hperm => ?_⟩
  · intro input hinput valued
    obtain ⟨v, hnew, hv⟩ := hchoice.exists_mem hinput valued
    exact ⟨v, hnew, find?_replaced (hchoice.nodup distinct) (hchoice.known given) hv⟩
  · exact stepValues_of_perm given distinct h hperm

end Steps

/-- An evaluator for which an expression is the name of what it sees. -/
def named : Evaluator := fun name context =>
  match OrderedMap.find? (("self", context.self) :: context.inputs.members) name with
  | some json => .ok (.ofJson json)
  | none => .error (ExprFault.toFailure .empty)

/-- A step two inputs of which change places, while a third one keeps its value. -/
def exchange : Step where
  id := "#main/exchange"
  run := "#tool"
  inputs := [⟨"left", [], some "right", none⟩, ⟨"same", [], some "self", none⟩, ⟨"right", [], some "left", none⟩]
  outputs := []
  scatter := []
  scatterMethod := none
  requirements := []
  hints := []

/-- What the step receives. -/
def exchangeParams : Values := [("left", .int 1), ("right", .int 2), ("same", .int 3)]

/-- Neither place is taken by a value that was already exchanged, in whatever order. -/
theorem exchange_simultaneous :
    (exchange.inputs.map StepInput.id).Nodup ∧ (∀ input ∈ exchange.inputs, input.id ∈ exchangeParams.keys) ∧
      stepValues named exchange exchangeParams [] = .ok [("left", .int 2), ("right", .int 1), ("same", .int 3)] ∧
      stepValues named { exchange with inputs := exchange.inputs.reverse } exchangeParams [] =
        .ok [("left", .int 2), ("right", .int 1), ("same", .int 3)] := by
  have distinct : (exchange.inputs.map StepInput.id).Nodup := by decide
  have given : ∀ input ∈ exchange.inputs, input.id ∈ exchangeParams.keys := by decide
  have hvalues : stepValues named exchange exchangeParams [] =
      .ok [("left", .int 2), ("right", .int 1), ("same", .int 3)] := by rfl
  obtain ⟨-, -, -, hperm⟩ := (values_simultaneous given distinct).2 _ hvalues
  exact ⟨distinct, given, hvalues, hperm _ (List.reverse_perm exchange.inputs)⟩

end Binding

end WorkflowEngine
