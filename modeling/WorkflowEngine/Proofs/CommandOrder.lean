import Mathlib.Data.Prod.Lex
import WorkflowEngine.Proofs.BoundInputs
import WorkflowEngine.Proofs.CommandLines

/-!
# The order of a command line

A command line is its base command, then what its arguments and inputs show in order of their positions, and
then the redirections.  No two fragments are tied, so that the order in which inputs are declared plays no part.

**Ranks.**  A fragment has a rank: its position, then arguments before inputs, then the index of an argument,
then the id of an input.  Fragments are sorted by their ranks (`Fragment.le_iff`), and the rank tells the source
(`Fragment.source_eq_of_rank`).

**Fragments.**  Every argument and every input with a binding has one fragment: `ofArgument_of_fragments`,
`ofInput_of_fragments`.  Their sources are all different (`nodup_sources`).

**Command lines.**  `command_in_order`, for every tool, all bound values and all contexts.
-/

namespace WorkflowEngine.CommandLine

open Document (Argument Input Process)

/-! ## Ranks -/

/-- The rank of a source: arguments come first, by their index, and then inputs, by their id. -/
def Source.rank : Source → ℕ ×ₗ ℕ ×ₗ String
  | .argument index => toLex (0, toLex (index, ""))
  | .input id => toLex (1, toLex (0, id))

/-- The rank of a fragment: its position, and then its source. -/
def Fragment.rank (f : Fragment) : ℤ ×ₗ ℕ ×ₗ ℕ ×ₗ String := toLex (f.position, f.source.rank)

lemma Source.rank_injective : Function.Injective Source.rank := by
  rintro (i | a) (j | b) h
  · simpa [rank] using h
  · simp [rank] at h
  · simp [rank] at h
  · simpa [rank] using h

lemma Source.le_iff (a b : Source) : a.le b = true ↔ a.rank ≤ b.rank := by
  rcases a with i | a <;> rcases b with j | b <;>
    simp [Source.le, rank, Prod.Lex.toLex_le_toLex, Nat.le_iff_lt_or_eq]

lemma Fragment.le_iff (a b : Fragment) : a.le b = true ↔ a.rank ≤ b.rank := by
  simp [Fragment.le, rank, Prod.Lex.toLex_le_toLex, Source.le_iff]

lemma Fragment.source_eq_of_rank {a b : Fragment} (h : a.rank = b.rank) : a.source = b.source := by
  have hrank : a.source.rank = b.source.rank := congrArg (fun r => (ofLex r).2) h
  exact Source.rank_injective hrank

lemma Fragment.le_trans (a b c : Fragment) (hab : a.le b = true) (hbc : b.le c = true) : a.le c = true := by
  rw [le_iff] at hab hbc ⊢
  exact hab.trans hbc

lemma Fragment.le_total (a b : Fragment) : (a.le b || b.le a) = true := by
  rw [Bool.or_eq_true, le_iff, le_iff]
  exact Std.Total.total a.rank b.rank

section Sorted

variable {fragments : List Fragment}

/-- Fragments from different sources stand in strictly ascending order once they are sorted. -/
lemma pairwise_rank_mergeSort (sources : (fragments.map Fragment.source).Nodup) :
    (fragments.mergeSort Fragment.le).Pairwise (fun a b => a.rank < b.rank) := by
  have hle := List.pairwise_mergeSort Fragment.le_trans Fragment.le_total fragments
  have hne : ((fragments.mergeSort Fragment.le).map Fragment.source).Pairwise (· ≠ ·) :=
    ((List.mergeSort_perm fragments Fragment.le).map Fragment.source).nodup_iff.mpr sources
  rw [List.pairwise_map] at hne
  refine (hle.and hne).imp fun {a b} ⟨hab, hsource⟩ => lt_of_le_of_ne ((Fragment.le_iff a b).mp hab) ?_
  exact fun hrank => hsource (Fragment.source_eq_of_rank hrank)

lemma mergeSort_eq_of_sources {fragments' : List Fragment} (sources : (fragments.map Fragment.source).Nodup)
    (h : fragments.Perm fragments') :
    fragments.mergeSort Fragment.le = fragments'.mergeSort Fragment.le := by
  refine mergeSort_eq_of_perm Fragment.le_trans Fragment.le_total h fun a ha b hb hab hba => ?_
  have hrank : a.rank = b.rank :=
    le_antisymm ((Fragment.le_iff a b).mp hab) ((Fragment.le_iff b a).mp hba)
  exact List.inj_on_of_nodup_map sources ha hb (Fragment.source_eq_of_rank hrank)

end Sorted

/-! ## Fragments -/

/-- The value that an argument shows. -/
def argumentValue (interpreter : Interpreter) (context : ExprContext) (argument : Argument) : Outcome Value :=
  match argument.literal.or argument.binding.valueFrom with
  | some expression => ExprFault.orFail (evaluate interpreter expression context)
  | none => .ok .null

/-- The fragment of an argument with an index. -/
structure OfArgument (interpreter : Interpreter) (shell : Bool) (context : ExprContext)
    (argument : Argument × ℕ) (f : Fragment) : Prop where
  position : f.position = argument.1.binding.position
  source : f.source = .argument argument.2
  words : ∃ value, argumentValue interpreter context argument.1 = .ok value ∧
    render shell argument.1.binding none value = .ok f.words

/-- The fragment of an input that has a binding. -/
structure OfInput (shell : Bool) (provided : Values) (input : Input) (f : Fragment) : Prop where
  source : f.source = .input input.id
  words : ∃ binding, input.binding = some binding ∧ f.position = binding.position ∧
    render shell binding (some input.type.nonNull) ((provided.find? input.id).getD .null) = .ok f.words

/-- The inputs that show on a command line. -/
def boundInputs (process : Process) : List Input := process.inputs.filter fun input => input.binding.isSome

section Fragments

variable {interpreter : Interpreter} {shell : Bool} {context : ExprContext} {provided : Values}

lemma ofArgument_of_fragment {index : ℕ} {argument : Argument} {f : Fragment}
    (h : argumentFragment interpreter shell context index argument = .ok f) :
    OfArgument interpreter shell context (argument, index) f := by
  have hvalue : argumentFragment interpreter shell context index argument = (do
      let value ← argumentValue interpreter context argument
      let words ← render shell argument.binding none value
      return ⟨argument.binding.position, .argument index, words⟩) := by
    unfold argumentFragment argumentValue
    cases argument.literal.or argument.binding.valueFrom <;> rfl
  rw [hvalue] at h
  obtain ⟨value, hvalue, h⟩ := bind_eq_ok.mp h
  obtain ⟨words, hwords, h⟩ := bind_eq_ok.mp h
  obtain rfl := Except.ok.inj h
  exact ⟨rfl, rfl, value, hvalue, hwords⟩

/-- Every argument has one fragment. -/
lemma ofArgument_of_fragments : ∀ {index : ℕ} {arguments : List Argument} {fragments : List Fragment},
    argumentFragments interpreter shell context index arguments = .ok fragments →
      List.Forall₂ (OfArgument interpreter shell context) (arguments.zipIdx index) fragments
  | _, [], _, h => by
      obtain rfl := Except.ok.inj h
      exact .nil
  | index, argument :: rest, _, h => by
      rw [argumentFragments] at h
      obtain ⟨f, hf, h⟩ := bind_eq_ok.mp h
      obtain ⟨fs, hfs, h⟩ := bind_eq_ok.mp h
      obtain rfl := Except.ok.inj h
      exact .cons (ofArgument_of_fragment hf) (ofArgument_of_fragments hfs)

lemma inputFragment?_cases {input : Input} {f? : Option Fragment}
    (h : inputFragment? shell provided input = .ok f?) :
    input.binding.isSome = false ∧ f? = none ∨
      input.binding.isSome = true ∧ ∃ f, f? = some f ∧ OfInput shell provided input f := by
  unfold inputFragment? at h
  split at h
  case h_1 hbinding =>
    obtain rfl := Except.ok.inj h
    exact .inl ⟨by rw [hbinding]; rfl, rfl⟩
  case h_2 binding hbinding =>
    obtain ⟨words, hwords, h⟩ := bind_eq_ok.mp h
    obtain rfl := Except.ok.inj h
    exact .inr ⟨by rw [hbinding]; rfl, _, rfl, rfl, binding, hbinding, rfl, hwords⟩

lemma ofInput_of_forall₂ {inputs : List Input} {fragments? : List (Option Fragment)}
    (h : List.Forall₂ (fun input f? => inputFragment? shell provided input = .ok f?) inputs fragments?) :
    List.Forall₂ (OfInput shell provided) (inputs.filter fun input => input.binding.isSome)
      (fragments?.filterMap id) := by
  induction h with
  | nil => exact .nil
  | @cons input f? _ _ hf _ ih =>
      rcases inputFragment?_cases hf with ⟨hbinding, rfl⟩ | ⟨hbinding, f, rfl, hof⟩
      · rw [List.filter_cons, if_neg (by simp [hbinding])]
        exact ih
      · rw [List.filter_cons, if_pos hbinding]
        exact .cons hof ih

/-- Every input with a binding has one fragment, and the others have none. -/
lemma ofInput_of_fragments {inputs : List Input} {fragments : List Fragment}
    (h : inputFragments shell provided inputs = .ok fragments) :
    List.Forall₂ (OfInput shell provided) (inputs.filter fun input => input.binding.isSome) fragments := by
  obtain ⟨fragments?, hfragments, h⟩ := bind_eq_ok.mp h
  obtain rfl := Except.ok.inj h
  exact ofInput_of_forall₂ (mapM_eq_ok_iff.mp hfragments)

/-- No two fragments of a command line come from the same source. -/
lemma nodup_sources {process : Process} {arguments : List Argument} {shown bound : List Fragment}
    (ids : (process.inputs.map Input.id).Nodup)
    (hshown : List.Forall₂ (OfArgument interpreter shell context) arguments.zipIdx shown)
    (hbound : List.Forall₂ (OfInput shell provided) (boundInputs process) bound) :
    ((shown ++ bound).map Fragment.source).Nodup := by
  have hargument : shown.map Fragment.source = (arguments.zipIdx.map Prod.snd).map Source.argument := by
    rw [List.map_map]
    exact map_eq_of_forall₂ (hshown.imp fun _ _ h => h.source)
  have hinput : bound.map Fragment.source = ((boundInputs process).map Input.id).map Source.input := by
    rw [List.map_map]
    exact map_eq_of_forall₂ (hbound.imp fun _ _ h => h.source)
  rw [List.map_append, hargument, hinput]
  refine List.nodup_append.mpr ⟨?_, ?_, fun a ha b hb => ?_⟩
  · exact (List.nodup_zipIdx_map_snd arguments).map fun _ _ h => Source.argument.inj h
  · exact (ids.sublist (List.filter_sublist.map Input.id)).map fun _ _ h => Source.input.inj h
  · obtain ⟨i, -, rfl⟩ := List.mem_map.mp ha
    obtain ⟨id, -, rfl⟩ := List.mem_map.mp hb
    exact Source.noConfusion

end Fragments

/-! ## Command lines -/

/-- A command line is in order: it is the quoted base command, then the words of one fragment for each argument
and for each input with a binding, in strictly ascending order of their ranks, and then the redirections. -/
def InOrder (interpreter : Interpreter) (process : Process) (line : Document.CommandLine) (provided : Values)
    (context : ExprContext) (shell : Bool) (command : Command) : Prop :=
  ∃ shown bound fragments : List Fragment,
    List.Forall₂ (OfArgument interpreter shell context) line.arguments.zipIdx shown ∧
    List.Forall₂ (OfInput shell provided) (boundInputs process) bound ∧
    fragments.Perm (shown ++ bound) ∧ fragments.Pairwise (fun a b => a.rank < b.rank) ∧
    command.words = line.baseCommand.map quote ++ fragments.flatMap (·.words)
      ++ redirection "1>>" command.stdout ++ redirection "2>>" command.stderr

section Commands

variable {interpreter : Interpreter} {process : Process} {line : Document.CommandLine} {provided : Values}
  {shell : Bool} {context : ExprContext}

lemma inOrder_of_assemble (ids : (process.inputs.map Input.id).Nodup) {command : Command}
    (h : assemble interpreter process line provided context shell = .ok command) :
    InOrder interpreter process line provided context shell command := by
  obtain ⟨shown, harguments, h⟩ := bind_eq_ok.mp h
  obtain ⟨bound, hinputs, h⟩ := bind_eq_ok.mp h
  obtain ⟨stdin, -, h⟩ := bind_eq_ok.mp h
  obtain ⟨stdout, -, h⟩ := bind_eq_ok.mp h
  obtain ⟨stderr, -, h⟩ := bind_eq_ok.mp h
  obtain rfl := Except.ok.inj h
  have hshown := ofArgument_of_fragments harguments
  have hbound := ofInput_of_fragments hinputs
  exact ⟨shown, bound, _, hshown, hbound, List.mergeSort_perm _ Fragment.le,
    pairwise_rank_mergeSort (nodup_sources ids hshown hbound), rfl⟩

lemma agree_assemble_of_perm (ids : (process.inputs.map Input.id).Nodup) (names : provided.keys.Nodup)
    {inputs' : List Input} {provided' : Values} (hinputs : inputs'.Perm process.inputs)
    (hprovided : provided'.Perm provided) :
    Agree Eq (assemble interpreter { process with inputs := inputs' } line provided' context shell)
      (assemble interpreter process line provided context shell) := by
  have hfragment : inputFragment? shell provided' = inputFragment? shell provided := by
    funext input
    unfold inputFragment?
    rw [OrderedMap.find?_eq_of_perm names hprovided.symm]
  have hfragments : Agree List.Perm (inputFragments shell provided' inputs')
      (inputFragments shell provided process.inputs) := by
    unfold inputFragments
    rw [hfragment]
    refine (Agree.mapM_of_perm _ hinputs).bind fun a b _ _ hab => .ok (hab.filterMap id)
  refine (Agree.refl (fun _ => rfl) _).bind_eq fun shown harguments => ?_
  refine hfragments.bind fun bound' bound _ hbound hperm => ?_
  have sources := nodup_sources ids (ofArgument_of_fragments harguments) (ofInput_of_fragments hbound)
  rw [mergeSort_eq_of_sources sources (hperm.symm.append_left shown)]
  exact .refl (fun _ => rfl) _

/-- **A command line is in order.**  For a tool whose inputs have different ids, all bound values, any context
and whatever interprets expressions: a command line that was assembled is in order, and another order of the
inputs or of the bound values gives the same command line, or fails as well. -/
theorem command_in_order (ids : (process.inputs.map Input.id).Nodup) (names : provided.keys.Nodup)
    (line : Document.CommandLine) (context : ExprContext) (shell : Bool) :
    (∀ command, assemble interpreter process line provided context shell = .ok command →
      InOrder interpreter process line provided context shell command) ∧
    (∀ inputs' provided', inputs'.Perm process.inputs → provided'.Perm provided →
      Agree Eq (assemble interpreter { process with inputs := inputs' } line provided' context shell)
        (assemble interpreter process line provided context shell)) :=
  ⟨fun _ h => inOrder_of_assemble ids h,
    fun _ _ hinputs hprovided => agree_assemble_of_perm ids names hinputs hprovided⟩

/-- A command line with an argument behind the inputs and one in front of them. -/
def sortLine : Document.CommandLine where
  baseCommand := ["sort"]
  arguments := [⟨none, { Document.InputBinding.plain with position := 2, valueFrom := some "--fast" }⟩,
    ⟨some "-v", { Document.InputBinding.plain with position := -1 }⟩]
  stdin := none
  stdout := some "sorted"
  stderr := none

/-- A tool with two inputs whose positions are tied with an argument. -/
def sortTool : Process where
  id := "#sort"
  body := .commandLineTool sortLine
  inputs := [⟨"zeta", .string, none, some { Document.InputBinding.plain with position := 2 }, [], false⟩,
    ⟨"note", .any, none, none, [], false⟩,
    ⟨"alpha", .string, none, some { Document.InputBinding.plain with position := 2 }, [], false⟩,
    ⟨"first", .int, none, some { Document.InputBinding.plain with leader := some "-n" }, [], false⟩]
  outputs := []
  requirements := []
  hints := []

/-- Values for the tool. -/
def sortValues : Values := [("zeta", .str "z"), ("alpha", .str "a"), ("first", .int 3)]

/-- The command line of the tool. -/
def sortCommand : Command where
  words := ["\"sort\"", "\"-v\"", "\"-n\"", "\"3\"", "\"--fast\"", "\"a\"", "\"z\"", "1>>", "\"sorted\""]
  stdin := none
  stdout := some "sorted"
  stderr := none

lemma sort_assembled :
    assemble evaluateJson sortTool sortLine sortValues (.ofInputs []) false = .ok sortCommand := by
  have hfast : evaluate evaluateJson "--fast" (.ofInputs []) = .ok (.str "--fast") := evaluate_of_plain (by decide) _
  have hverbose : evaluate evaluateJson "-v" (.ofInputs []) = .ok (.str "-v") := evaluate_of_plain (by decide) _
  have hstdout : evaluateString evaluateJson "sorted" (.ofInputs []) = .ok "sorted" :=
    evaluateString_of_plain (by decide) _
  have harguments : argumentFragments evaluateJson false (.ofInputs []) 0 sortLine.arguments =
      .ok [⟨2, .argument 0, ["\"--fast\""]⟩, ⟨-1, .argument 1, ["\"-v\""]⟩] := by
    simp only [sortLine, argumentFragments, argumentFragment, Option.some_or, Option.none_or, hfast, hverbose]
    rfl
  have houtput : captureFile evaluateJson sortTool .stdout (some "sorted") (.ofInputs []) = .ok (some "sorted") := by
    rw [captureFile, hstdout]
    rfl
  rw [assemble, harguments]
  simp only [sortLine, Option.mapM_none, houtput]
  cbv

/-- Ties go to the argument, and then to the smaller id, however the inputs are declared. -/
theorem sort_command_in_order :
    InOrder evaluateJson sortTool sortLine sortValues (.ofInputs []) false sortCommand ∧
      Agree Eq (assemble evaluateJson { sortTool with inputs := sortTool.inputs.reverse } sortLine sortValues.reverse
        (.ofInputs []) false) (.ok sortCommand) := by
  have ids : (sortTool.inputs.map Input.id).Nodup := by decide
  have names : sortValues.keys.Nodup := by decide
  obtain ⟨hwords, hsame⟩ := command_in_order ids names sortLine (.ofInputs []) false
  refine ⟨hwords sortCommand sort_assembled, ?_⟩
  rw [← sort_assembled]
  exact hsame _ _ (List.reverse_perm _) (List.reverse_perm _)

end Commands

end WorkflowEngine.CommandLine
