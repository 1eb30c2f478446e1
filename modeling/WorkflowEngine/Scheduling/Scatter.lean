import WorkflowEngine.Document.Process
import WorkflowEngine.Failure

/-!
# Scattering

A scattered step runs once for each combination of elements of its scattered inputs: for the elements
at equal places of arrays of equal length, or for every combination, where the last input varies
fastest.

* **`combinations`** — the parameters of each run, in order.
-/

namespace WorkflowEngine.Scheduling

open Document (ScatterMethod Step)

/-- How the arrays of a scattered step are combined. -/
inductive Combining where
  /-- Elements at equal places. -/
  | pairwise
  /-- All combinations. -/
  | product
  deriving Repr, DecidableEq

/-- A broken rule of scattering. -/
def misuse {α : Type} (message : String) : Outcome α :=
  .error (.binding .scatterEngine message)

/-- How a step combines its arrays. -/
def combiningOf (step : Step) : Outcome Combining :=
  match step.scatter, step.scatterMethod with
  | [], _ => misuse ("step '" ++ step.id ++ "' has no scatter inputs")
  | [_], none => .ok .pairwise
  | [_], some _ => misuse ("step '" ++ step.id ++ "' scatters one input but sets scatterMethod")
  | _, none =>
    misuse ("step '" ++ step.id ++ "' scatters several inputs without scatterMethod")
  | _, some .nestedCrossProduct =>
    .error (.notImplemented .scatterEngine "scatterMethod nested_crossproduct is not supported")
  | _, some .dotProduct => .ok .pairwise
  | _, some .flatCrossProduct => .ok .product

/-- The array of a scattered input. -/
def arrayOf (step : Step) (params : Values) (name : String) : Outcome (String × List Value) :=
  match params.find? name with
  | some (.array items) => .ok (name, items)
  | other =>
    misuse ("scattered input '" ++ name ++ "' of step '" ++ step.id ++ "' must be an array, got "
      ++ (other.map Value.typeName).getD "nothing")

/-- The parameters with the element of each array at its index in the place of the array. -/
def combinationAt (params : Values) (arrays : List (String × List Value)) (indices : List Nat) : Values :=
  (arrays.zip indices).foldl
    (fun combination ((name, items), index) => combination.insert name (items[index]?.getD .null)) params

/-- The parameters for the elements at equal places. -/
def pairwise (params : Values) (arrays : List (String × List Value)) : Outcome (List Values) :=
  match arrays with
  | [] => .ok []
  | (first, items) :: _ =>
    match arrays.find? fun (_, others) => others.length ≠ items.length with
    | some (name, others) =>
      misuse ("dotproduct over arrays of unequal length: '" ++ first ++ "' has "
        ++ toString items.length ++ ", '" ++ name ++ "' has " ++ toString others.length)
    | none =>
      .ok ((List.range items.length).map fun i =>
        combinationAt params arrays (List.replicate arrays.length i))

/-! ### All combinations -/

/-- The indices after some indices, from a position down: the one before the position moves on, and at the end
of its array it starts again and carries to the one before.  There are none when the first one carries. -/
def advance (lengths : List Nat) : (position : Nat) → (indices : List Nat) → Option (List Nat)
  | 0, _ => none
  | position + 1, indices =>
      let index := indices.getD position 0 + 1
      if index < lengths.getD position 0 then some (indices.set position index)
      else advance lengths position (indices.set position 0)

theorem advance_of_lt {lengths : List Nat} {position : Nat} {indices : List Nat}
    (h : indices.getD position 0 + 1 < lengths.getD position 0) :
    advance lengths (position + 1) indices = some (indices.set position (indices.getD position 0 + 1)) :=
  if_pos h

theorem advance_of_not_lt {lengths : List Nat} {position : Nat} {indices : List Nat}
    (h : ¬ indices.getD position 0 + 1 < lengths.getD position 0) :
    advance lengths (position + 1) indices = advance lengths position (indices.set position 0) :=
  if_neg h

theorem advance_nil : ∀ (position : Nat) (indices : List Nat), advance [] position indices = none
  | 0, _ => rfl
  | position + 1, _ => (advance_of_not_lt (Nat.not_lt_zero _)).trans (advance_nil position _)

/-- The first index moves when those after it carry, and they have started again by then. -/
theorem advance_cons (n : Nat) (lengths : List Nat) (i : Nat) : ∀ (position : Nat) (indices : List Nat),
    position ≤ indices.length →
      advance (n :: lengths) (position + 1) (i :: indices) =
        match advance lengths position indices with
        | some next => some (i :: next)
        | none =>
            if i + 1 < n then some ((i + 1) :: (List.replicate position 0 ++ indices.drop position))
            else none
  | 0, _, _ => rfl
  | position + 1, indices, h => by
      by_cases hroom : indices.getD position 0 + 1 < lengths.getD position 0
      · have hroom' : (i :: indices).getD (position + 1) 0 + 1 < (n :: lengths).getD (position + 1) 0 := hroom
        rw [advance_of_lt hroom, advance_of_lt hroom']
        rfl
      · have hroom' : ¬ (i :: indices).getD (position + 1) 0 + 1 < (n :: lengths).getD (position + 1) 0 :=
          hroom
        have hzeros : List.replicate position 0 ++ (indices.set position 0).drop position =
            List.replicate (position + 1) 0 ++ indices.drop (position + 1) := by
          rw [List.drop_eq_getElem_cons (by rw [List.length_set]; omega), List.getElem_set_self,
            List.drop_set_of_lt (by omega), List.replicate_succ', List.append_assoc, List.singleton_append]
        rw [advance_of_not_lt hroom, advance_of_not_lt hroom', List.set_cons_succ,
          advance_cons n lengths i position (indices.set position 0) (by rw [List.length_set]; omega), hzeros]

/-- The number of ways to choose one index for each length, where an index has at least one place. -/
def capacity (lengths : List Nat) : Nat :=
  lengths.foldr (fun n rest => max n 1 * rest) 1

/-- The number of advances that are left. -/
def remaining : (lengths indices : List Nat) → Nat
  | n :: lengths, i :: indices => (n - 1 - i) * capacity lengths + remaining lengths indices
  | _, _ => 0

theorem remaining_lt_capacity : ∀ lengths indices : List Nat, remaining lengths indices < capacity lengths
  | [], _ => Nat.one_pos
  | n :: lengths, [] =>
      Nat.mul_pos (by omega) (Nat.zero_lt_of_lt (remaining_lt_capacity lengths []))
  | n :: lengths, i :: indices => by
      have hrest := remaining_lt_capacity lengths indices
      have hturns : (n - 1 - i + 1) * capacity lengths ≤ max n 1 * capacity lengths :=
        Nat.mul_le_mul_right _ (by omega)
      rw [Nat.add_mul, Nat.one_mul] at hturns
      show (n - 1 - i) * capacity lengths + remaining lengths indices < max n 1 * capacity lengths
      omega

/-- An index that moves uses up one of its turns, which is more than those after it have. -/
theorem remaining_advance : ∀ {lengths : List Nat} {position : Nat} {indices next : List Nat},
    position ≤ indices.length → advance lengths position indices = some next →
      remaining lengths next < remaining lengths indices
  | _, 0, _, _, _, h => by cases h
  | _, position + 1, [], _, hposition, _ => absurd hposition (Nat.not_succ_le_zero position)
  | [], position + 1, _ :: _, _, _, h => by
      rw [advance_nil] at h
      cases h
  | n :: lengths, position + 1, i :: indices, next, hposition, h => by
      have hposition := Nat.le_of_succ_le_succ hposition
      rw [advance_cons n lengths i position indices hposition] at h
      split at h
      case h_1 rest hrest =>
        obtain rfl := Option.some.inj h
        exact Nat.add_lt_add_left (remaining_advance hposition hrest) _
      case h_2 =>
        split at h
        case isFalse => cases h
        case isTrue hi =>
          obtain rfl := Option.some.inj h
          have hrest := remaining_lt_capacity lengths (List.replicate position 0 ++ indices.drop position)
          have hturn : n - 1 - i = n - 1 - (i + 1) + 1 := by omega
          show (n - 1 - (i + 1)) * capacity lengths + _ < (n - 1 - i) * capacity lengths + _
          rw [hturn, Nat.add_mul, Nat.one_mul]
          omega

/-- The combinations from some indices on, after those that are there already. -/
def odometer (params : Values) (arrays : List (String × List Value)) (indices : List Nat)
    (combinations : Array Values) : Array Values :=
  let combinations := combinations.push (combinationAt params arrays indices)
  match _h : advance (arrays.map fun p => p.2.length) indices.length indices with
  | none => combinations
  | some next => odometer params arrays next combinations
termination_by remaining (arrays.map fun p => p.2.length) indices
decreasing_by exact remaining_advance (Nat.le_refl _) _h

/-- The parameters for all combinations: the last index moves fastest, and there are none when an array has no
elements. -/
def product (params : Values) (arrays : List (String × List Value)) : List Values :=
  if arrays.any fun p => p.2.isEmpty then []
  else (odometer params arrays (List.replicate arrays.length 0) #[]).toList

/-- The parameters of each run of a scattered step. -/
def combinations (step : Step) (params : Values) : Outcome (List Values) := do
  let combining ← combiningOf step
  let arrays ← step.scatter.mapM (arrayOf step params)
  match combining with
  | .pairwise => pairwise params arrays
  | .product => return product params arrays

end WorkflowEngine.Scheduling
