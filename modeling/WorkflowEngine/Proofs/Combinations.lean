import Mathlib.Algebra.BigOperators.Ring.List
import Mathlib.Algebra.Ring.Nat
import Mathlib.Data.Option.Basic
import Mathlib.Tactic.Common
import WorkflowEngine.Proofs.Maps
import WorkflowEngine.Proofs.Outcomes
import WorkflowEngine.Scheduling.Scatter

/-!
# Combinations of scattered inputs

A scattered step runs once for each combination of elements of its arrays.  The combinations are numbered;
this says which elements the one with a given number holds.

**Numbers.**  A number stands for one place in each array, as digits of its own base: `digits`.  The last
digit varies fastest.  One advance of the odometer goes from the places of a number to those of the next
(`advance_digits`), so that the odometer counts (`odometer_digits`).

**Entries.**  A combination is the parameters with the scattered inputs `replaced`.  Nothing else about them
changes (`replaced_frame`).

**Plans.**  `combinations_eq_ok_iff`: a step has a plan exactly when its inputs are arrays that its method can
combine, and its entries are then the combinations by number.  A method that is set for a single input is
refused, whatever it is (`lone_method_refused`).
-/

namespace WorkflowEngine.Scheduling

open Document (ScatterMethod Step)

/-! ## Numbers -/

/-- The places in arrays of some lengths that a number stands for: the last place varies fastest. -/
def digits : List Nat → Nat → List Nat
  | [], _ => []
  | _ :: lengths, i => i / lengths.prod :: digits lengths (i % lengths.prod)

lemma length_digits (lengths : List Nat) (i : Nat) : (digits lengths i).length = lengths.length := by
  induction lengths generalizing i with
  | nil => rfl
  | cons n lengths ih => rw [digits, List.length_cons, List.length_cons, ih]

lemma digits_zero (lengths : List Nat) : digits lengths 0 = List.replicate lengths.length 0 := by
  induction lengths with
  | nil => rfl
  | cons n lengths ih => rw [digits, Nat.zero_div, Nat.zero_mod, ih, List.length_cons, List.replicate_succ]

/-- Each digit is below its base. -/
lemma digits_lt : ∀ {lengths : List Nat} {i : Nat}, i < lengths.prod →
    List.Forall₂ (fun n place => place < n) lengths (digits lengths i)
  | [], _, _ => .nil
  | n :: lengths, i, h => by
      rw [List.prod_cons] at h
      have hpos : 0 < lengths.prod := Nat.pos_of_ne_zero fun hzero => by simp [hzero] at h
      exact .cons ((Nat.div_lt_iff_lt_mul hpos).mpr h) (digits_lt (Nat.mod_lt i hpos))

/-- Counting on inside one turn of the lower places. -/
lemma succ_div_mod_of_lt {m i : Nat} (h : i % m + 1 < m) :
    (i + 1) / m = i / m ∧ (i + 1) % m = i % m + 1 := by
  refine (Nat.div_mod_unique (by omega)).mpr ⟨?_, h⟩
  have hi := Nat.mod_add_div i m
  omega

/-- Counting on to the next turn of the lower places. -/
lemma succ_div_mod_of_eq {m i : Nat} (h : i % m + 1 = m) :
    (i + 1) / m = i / m + 1 ∧ (i + 1) % m = 0 := by
  refine (Nat.div_mod_unique (by omega)).mpr ⟨?_, by omega⟩
  have hi := Nat.mod_add_div i m
  rw [Nat.mul_add]
  omega

/-- The places advance from each number to the next, until the last. -/
lemma advance_digits : ∀ {lengths : List Nat} {i : Nat}, i < lengths.prod →
    advance lengths lengths.length (digits lengths i) =
      if i + 1 < lengths.prod then some (digits lengths (i + 1)) else none
  | [], i, h => by
      rw [List.prod_nil] at h ⊢
      rw [if_neg (by omega)]
      rfl
  | n :: lengths, i, h => by
      rw [List.prod_cons] at h
      have hpos : 0 < lengths.prod := Nat.pos_of_ne_zero fun hzero => by simp [hzero] at h
      have hlow : i % lengths.prod < lengths.prod := Nat.mod_lt i hpos
      have hplace : i / lengths.prod < n := (Nat.div_lt_iff_lt_mul hpos).mpr h
      have hlength := length_digits lengths (i % lengths.prod)
      rw [digits, List.length_cons, advance_cons n lengths _ _ _ (Nat.le_of_eq hlength.symm), advance_digits hlow,
        List.prod_cons]
      by_cases hnext : i % lengths.prod + 1 < lengths.prod
      -- The lower places advance alone.
      · have hbound : i + 1 < n * lengths.prod := by
          rw [← Nat.div_lt_iff_lt_mul hpos, (succ_div_mod_of_lt hnext).1]
          exact hplace
        obtain ⟨hdiv, hmod⟩ := succ_div_mod_of_lt hnext
        rw [if_pos hnext, if_pos hbound, digits, hdiv, hmod]
      -- The lower places start again, and this one advances if it can.
      · obtain ⟨hdiv, hmod⟩ := succ_div_mod_of_eq (show i % lengths.prod + 1 = lengths.prod by omega)
        rw [if_neg hnext, digits, hdiv, hmod, digits_zero, List.drop_eq_nil_of_le (Nat.le_of_eq hlength),
          List.append_nil]
        refine if_congr ?_ rfl rfl
        rw [← hdiv, Nat.div_lt_iff_lt_mul hpos]

example : (List.range 6).map (digits [2, 3]) = [[0, 0], [0, 1], [0, 2], [1, 0], [1, 1], [1, 2]] := rfl

/-! ## Entries -/

/-- The elements at some places of some arrays. -/
def Picks (arrays : List (List Value)) (places : List Nat) (elements : List Value) : Prop :=
  List.zipWith (fun items place => items[place]?) arrays places = elements.map some

lemma Picks.unique {arrays : List (List Value)} {places : List Nat} {elements others : List Value}
    (h : Picks arrays places elements) (h' : Picks arrays places others) : elements = others :=
  List.map_injective_iff.mpr (Option.some_injective Value) (h.symm.trans h')

lemma exists_picks {arrays : List (List Value)} {places : List Nat}
    (h : List.Forall₂ (fun items place => place < items.length) arrays places) :
    ∃ elements, Picks arrays places elements := by
  induction h with
  | nil => exact ⟨[], rfl⟩
  | @cons items place arrays places hplace _ ih =>
      obtain ⟨elements, ih⟩ := ih
      refine ⟨items[place] :: elements, ?_⟩
      rw [Picks, List.zipWith_cons_cons, List.map_cons, List.getElem?_eq_getElem hplace]
      exact congrArg _ ih

/-- The parameters with some inputs replaced, one after the other. -/
def replaced (params : Values) (choice : List (String × Value)) : Values :=
  choice.foldl (fun ps p => ps.insert p.1 p.2) params

/-- Replacing known inputs keeps all keys in their places, and all other values. -/
lemma replaced_frame {choice : List (String × Value)} : ∀ {params : Values},
    (∀ p ∈ choice, p.1 ∈ params.keys) →
      (replaced params choice).keys = params.keys ∧
        ∀ name, name ∉ choice.map Prod.fst → (replaced params choice).find? name = params.find? name := by
  induction choice with
  | nil => exact fun _ => ⟨rfl, fun _ _ => rfl⟩
  | cons p choice ih =>
      intro params hknown
      obtain ⟨hp, hchoice⟩ := List.forall_mem_cons.mp hknown
      have hkeys := OrderedMap.keys_insert_of_mem params p.1 p.2 hp
      have hinserted : ∀ q ∈ choice, q.1 ∈ (params.insert p.1 p.2).keys := hkeys ▸ hchoice
      obtain ⟨hall, hother⟩ := ih hinserted
      refine ⟨hall.trans hkeys, fun name hname => ?_⟩
      rw [List.map_cons, List.mem_cons, not_or] at hname
      have hne : p.1 ≠ name := fun heq => hname.1 heq.symm
      calc
        (replaced (params.insert p.1 p.2) choice).find? name = (params.insert p.1 p.2).find? name :=
          hother name hname.2
        _ = params.find? name := by rw [OrderedMap.find?_insert, if_neg hne]

lemma combinationAt_eq : ∀ {arrays : List (String × List Value)} {places : List Nat} {elements : List Value},
    Picks (arrays.map Prod.snd) places elements → ∀ params,
      combinationAt params arrays places = replaced params ((arrays.map Prod.fst).zip elements)
  | [], _, _, _, _ => by
      rfl
  | _ :: _, [], elements, h, _ => by
      obtain rfl : elements = [] := List.map_eq_nil_iff.mp h.symm
      rfl
  | (name, items) :: arrays, place :: places, elements, h, params => by
      rw [Picks, List.map_cons, List.zipWith_cons_cons] at h
      obtain ⟨element, elements, rfl, hplace, h⟩ := List.map_eq_cons_iff.mp h.symm
      calc
        combinationAt params ((name, items) :: arrays) (place :: places) =
            combinationAt (params.insert name (items[place]?.getD .null)) arrays places := rfl
        _ = combinationAt (params.insert name element) arrays places := by rw [← hplace, Option.getD_some]
        _ = _ := combinationAt_eq h.symm _

/-- What the arrays of a step hold at some places. -/
structure IsCombination (step : Step) (params : Values) (arrays : List (List Value)) (places : List Nat)
    (entry : Values) : Prop where
  /-- The scattered inputs are replaced in their order, each by the element at its place. -/
  replaced : ∃ elements, Picks arrays places elements ∧
    entry = replaced params (step.scatter.zip elements)
  /-- No key moves. -/
  keys : entry.keys = params.keys
  /-- The other inputs stay. -/
  others : ∀ name, name ∉ step.scatter → entry.find? name = params.find? name

/-- The scattered inputs of a step are arrays. -/
def Scatters (step : Step) (params : Values) (arrays : List (List Value)) : Prop :=
  List.Forall₂ (fun name items => params.find? name = some (.array items)) step.scatter arrays

section Scattered

variable {step : Step} {params : Values} {arrays : List (List Value)}

lemma Scatters.mem_keys (h : Scatters step params arrays) :
    ∀ name ∈ step.scatter, name ∈ params.keys := by
  intro name hname
  obtain ⟨items, -, hfind⟩ := forall₂_mem_left h hname
  exact OrderedMap.mem_keys_of_mem (OrderedMap.mem_of_find? hfind)

lemma Scatters.map_fst (h : Scatters step params arrays) :
    (step.scatter.zip arrays).map Prod.fst = step.scatter :=
  List.map_fst_zip (Nat.le_of_eq h.length_eq)

lemma Scatters.map_snd (h : Scatters step params arrays) : (step.scatter.zip arrays).map Prod.snd = arrays :=
  List.map_snd_zip (Nat.le_of_eq h.length_eq.symm)

lemma Scatters.isCombination (h : Scatters step params arrays) {places : List Nat} {elements : List Value}
    (hpicks : Picks arrays places elements) :
    IsCombination step params arrays places (replaced params (step.scatter.zip elements)) := by
  have hknown : ∀ p ∈ step.scatter.zip elements, p.1 ∈ params.keys :=
    fun p hp => h.mem_keys p.1 (List.of_mem_zip hp).1
  obtain ⟨hkeys, hothers⟩ := replaced_frame hknown
  refine ⟨⟨elements, hpicks, rfl⟩, hkeys, fun name hname => hothers name fun hmem => hname ?_⟩
  obtain ⟨p, hp, rfl⟩ := List.mem_map.mp hmem
  exact (List.of_mem_zip hp).1

lemma IsCombination.unique {places : List Nat} {entry other : Values}
    (h : IsCombination step params arrays places entry)
    (h' : IsCombination step params arrays places other) : entry = other := by
  obtain ⟨elements, hpicks, rfl⟩ := h.replaced
  obtain ⟨others, hpicks', rfl⟩ := h'.replaced
  rw [hpicks.unique hpicks']

/-! ## Plans -/

/-- A plan has a number of entries, and each of them is the combination at its places. -/
structure IsPlan (step : Step) (params : Values) (arrays : List (List Value)) (count : Nat)
    (places : Nat → List Nat) (plan : List Values) : Prop where
  length : plan.length = count
  entry : ∀ i < count, ∃ entry, plan[i]? = some entry ∧
    IsCombination step params arrays (places i) entry

lemma IsPlan.unique {count : Nat} {places : Nat → List Nat} {plan other : List Values}
    (h : IsPlan step params arrays count places plan)
    (h' : IsPlan step params arrays count places other) : plan = other := by
  refine List.ext_getElem? fun i => ?_
  by_cases hi : i < count
  · obtain ⟨entry, hentry, hcombination⟩ := h.entry i hi
    obtain ⟨entry', hentry', hcombination'⟩ := h'.entry i hi
    rw [hentry, hentry', hcombination.unique hcombination']
  · rw [List.getElem?_eq_none (by rw [h.length]; omega), List.getElem?_eq_none (by rw [h'.length]; omega)]

/-- Entries that are made by number, at places that the arrays reach. -/
lemma Scatters.isPlan (h : Scatters step params arrays) {count : Nat} {places : Nat → List Nat}
    (hreach : ∀ i < count, List.Forall₂ (fun items place => place < items.length) arrays (places i)) :
    IsPlan step params arrays count places
      ((List.range count).map fun i => combinationAt params (step.scatter.zip arrays) (places i)) := by
  refine ⟨by rw [List.length_map, List.length_range], fun i hi => ?_⟩
  obtain ⟨elements, hpicks⟩ := exists_picks (hreach i hi)
  have hentry := combinationAt_eq (h.map_snd.symm ▸ hpicks) params
  rw [h.map_fst] at hentry
  refine ⟨_, ?_, h.isCombination hpicks⟩
  rw [List.getElem?_map, List.getElem?_range hi, Option.map_some, hentry]

end Scattered

/-! ### All combinations -/

section Odometer

variable {params : Values} {arrays : List (String × List Value)}

lemma odometer_of_none {indices : List Nat}
    (h : advance (arrays.map fun p => p.2.length) indices.length indices = none)
    (combinations : Array Values) :
    odometer params arrays indices combinations = combinations.push (combinationAt params arrays indices) := by
  rw [odometer]
  split
  case h_1 => rfl
  case h_2 next hnext => cases h.symm.trans hnext

lemma odometer_of_some {indices next : List Nat}
    (h : advance (arrays.map fun p => p.2.length) indices.length indices = some next)
    (combinations : Array Values) :
    odometer params arrays indices combinations =
      odometer params arrays next (combinations.push (combinationAt params arrays indices)) := by
  conv_lhs => rw [odometer]
  split
  case h_1 hnone => cases h.symm.trans hnone
  case h_2 next' hnext => rw [Option.some.inj (h.symm.trans hnext)]

/-- The odometer counts: from the places of a number on it makes the entries of that number and of all after
it.  By induction on the numbers that are left. -/
lemma odometer_digits {lengths : List Nat} (hlengths : (arrays.map fun p => p.2.length) = lengths) :
    ∀ (left : Nat) {i : Nat}, i + left + 1 = lengths.prod → ∀ combinations : Array Values,
      (odometer params arrays (digits lengths i) combinations).toList =
        combinations.toList ++
          (List.range' i (left + 1)).map fun j => combinationAt params arrays (digits lengths j)
  | left, i, hleft, combinations => by
      have hadvance := advance_digits (show i < lengths.prod by omega)
      rw [← length_digits lengths i] at hadvance
      nth_rewrite 1 [← hlengths] at hadvance
      cases left with
      | zero =>
          rw [if_neg (by omega)] at hadvance
          rw [odometer_of_none hadvance, Array.toList_push]
          rfl
      | succ left =>
          rw [if_pos (by omega)] at hadvance
          rw [odometer_of_some hadvance, odometer_digits hlengths left (by omega), Array.toList_push,
            List.append_assoc]
          rfl

lemma prod_lengths_eq_zero_iff :
    (arrays.map fun p => p.2.length).prod = 0 ↔ (arrays.any fun p => p.2.isEmpty) = true := by
  rw [List.prod_eq_zero_iff, List.mem_map, List.any_eq_true]
  simp only [List.length_eq_zero_iff, List.isEmpty_iff]

/-- All combinations by number. -/
lemma product_eq (params : Values) (arrays : List (String × List Value)) :
    product params arrays = (List.range (arrays.map fun p => p.2.length).prod).map
      fun i => combinationAt params arrays (digits (arrays.map fun p => p.2.length) i) := by
  unfold product
  split
  case isTrue hempty =>
    rw [prod_lengths_eq_zero_iff.mpr hempty]
    rfl
  case isFalse hfull =>
    obtain ⟨left, hleft⟩ := Nat.exists_eq_add_one_of_ne_zero (mt prod_lengths_eq_zero_iff.mp hfull)
    have hstart : List.replicate arrays.length 0 = digits (arrays.map fun p => p.2.length) 0 := by
      rw [digits_zero, List.length_map]
    rw [hstart, odometer_digits rfl left (by omega), hleft, List.range_eq_range']
    rfl

end Odometer

/-! ### Elements at equal places -/

/-- Arrays are combined place by place when they have one length. -/
lemma pairwise_eq_ok_iff {params : Values} {arrays : List (String × List Value)} (hne : arrays ≠ [])
    {plan : List Values} :
    pairwise params arrays = .ok plan ↔ ∃ length, (∀ p ∈ arrays, p.2.length = length) ∧
      plan = (List.range length).map fun i =>
        combinationAt params arrays (List.replicate arrays.length i) := by
  obtain ⟨⟨first, items⟩, rest, rfl⟩ := List.exists_cons_of_ne_nil hne
  unfold pairwise
  dsimp only
  split
  case h_1 name others hfind =>
    refine ⟨fun h => (by cases h), ?_⟩
    rintro ⟨length, hlength, -⟩
    have hodd := List.find?_some hfind
    rw [decide_eq_true_eq, hlength _ List.mem_cons_self, hlength _ (List.mem_of_find?_eq_some hfind)] at hodd
    exact absurd rfl hodd
  case h_2 hfind =>
    have hequal : ∀ p ∈ (first, items) :: rest, p.2.length = items.length := by
      intro p hp
      simpa using List.find?_eq_none.mp hfind p hp
    constructor
    · intro h
      exact ⟨items.length, hequal, (Except.ok.inj h).symm⟩
    · rintro ⟨length, hlength, rfl⟩
      rw [hlength _ List.mem_cons_self]

/-! ### Steps -/

/-- Steps that combine all elements. -/
def Multiplies (step : Step) : Prop :=
  2 ≤ step.scatter.length ∧ step.scatterMethod = some .flatCrossProduct

/-- Steps that combine elements at equal places; a single input needs no method, and must have none. -/
def Pairs (step : Step) : Prop :=
  2 ≤ step.scatter.length ∧ step.scatterMethod = some .dotProduct ∨
    step.scatter.length = 1 ∧ step.scatterMethod = none

lemma combiningOf_eq_ok_iff {step : Step} {combining : Combining} :
    combiningOf step = .ok combining ↔
      combining = .product ∧ Multiplies step ∨ combining = .pairwise ∧ Pairs step := by
  unfold combiningOf Multiplies Pairs
  cases hscatter : step.scatter with
  | nil => simp [misuse]
  | cons first rest =>
      cases rest with
      | nil => cases hmethod : step.scatterMethod <;> simp [misuse, eq_comm]
      | cons second rest =>
          cases hmethod : step.scatterMethod with
          | none => simp [misuse]
          | some method => cases method <;> simp [eq_comm]

/-- Every scattered input has to be an array. -/
lemma mapM_arrayOf_eq_ok_iff {step : Step} {params : Values} {named : List (String × List Value)} :
    step.scatter.mapM (arrayOf step params) = .ok named ↔
      ∃ arrays, Scatters step params arrays ∧ named = step.scatter.zip arrays := by
  have harray (name : String) (p : String × List Value) :
      arrayOf step params name = .ok p ↔ p.1 = name ∧ params.find? name = some (.array p.2) := by
    obtain ⟨name', items⟩ := p
    unfold arrayOf
    split <;> simp_all [misuse, eq_comm]
  rw [mapM_eq_ok_iff]
  simp only [harray, Scatters]
  generalize step.scatter = names
  constructor
  · intro h
    induction h with
    | nil => exact ⟨[], .nil, rfl⟩
    | @cons name p names named hp _ ih =>
        obtain ⟨arrays, harrays, rfl⟩ := ih
        obtain ⟨rfl, hfind⟩ := hp
        exact ⟨p.2 :: arrays, .cons hfind harrays, rfl⟩
  · rintro ⟨arrays, harrays, rfl⟩
    induction harrays with
    | nil => exact .nil
    | cons hfind _ ih => exact .cons ⟨rfl, hfind⟩ ih

section Scattered

variable {step : Step} {params : Values} {arrays : List (List Value)}

lemma Scatters.isPlan_product (h : Scatters step params arrays) :
    IsPlan step params arrays (arrays.map List.length).prod (digits (arrays.map List.length))
      (product params (step.scatter.zip arrays)) := by
  have hlengths : (step.scatter.zip arrays).map (fun p => p.2.length) = arrays.map List.length := by
    conv_rhs => rw [← h.map_snd, List.map_map]
    rfl
  rw [product_eq, hlengths]
  exact h.isPlan fun i hi => List.forall₂_map_left_iff.mp (digits_lt hi)

lemma Scatters.isPlan_pairwise (h : Scatters step params arrays) {length : Nat}
    (hlength : ∀ items ∈ arrays, items.length = length) :
    IsPlan step params arrays length (List.replicate arrays.length)
      ((List.range length).map fun i => combinationAt params (step.scatter.zip arrays)
        (List.replicate (step.scatter.zip arrays).length i)) := by
  have hcount : (step.scatter.zip arrays).length = arrays.length := by
    rw [List.length_zip, h.length_eq, Nat.min_self]
  rw [hcount]
  refine h.isPlan fun i hi => List.forall₂_iff_get.mpr ⟨List.length_replicate.symm, fun j hj _ => ?_⟩
  rw [List.get_eq_getElem, List.get_eq_getElem, List.getElem_replicate, hlength _ (List.getElem_mem hj)]
  exact hi

/-- A step that combines all elements of its arrays has a plan. -/
lemma Scatters.combinations_eq (h : Scatters step params arrays) (hmultiplies : Multiplies step) :
    combinations step params = .ok (product params (step.scatter.zip arrays)) :=
  bind_eq_ok.mpr ⟨.product, combiningOf_eq_ok_iff.mpr (.inl ⟨rfl, hmultiplies⟩),
    bind_eq_ok.mpr ⟨_, mapM_arrayOf_eq_ok_iff.mpr ⟨arrays, h, rfl⟩, rfl⟩⟩

end Scattered

/-- **A scattered step has a plan** exactly when its scattered inputs are arrays, and

* it has two of them or more and combines all elements: the plan counts through the product of the lengths,
  the places of the entry with number `i` being the digits of `i`; or
* it combines elements at equal places, of two inputs or more or of a single one without a method, and the
  arrays have one length.

Every other step is refused. -/
theorem combinations_eq_ok_iff (step : Step) (params : Values) (plan : List Values) :
    combinations step params = .ok plan ↔
      ∃ arrays, Scatters step params arrays ∧
        (Multiplies step ∧
            IsPlan step params arrays (arrays.map List.length).prod (digits (arrays.map List.length)) plan ∨
          Pairs step ∧ ∃ length, (∀ items ∈ arrays, items.length = length) ∧
            IsPlan step params arrays length (List.replicate arrays.length) plan) := by
  have hunzip {arrays : List (List Value)} (harrays : Scatters step params arrays) (length : Nat) :
      (∀ p ∈ step.scatter.zip arrays, p.2.length = length) ↔
        ∀ items ∈ arrays, items.length = length := by
    conv_rhs => rw [← harrays.map_snd, List.forall_mem_map]
  have hne {arrays : List (List Value)} (harrays : Scatters step params arrays) (hpairs : Pairs step) :
      step.scatter.zip arrays ≠ [] := by
    have hlength := harrays.length_eq
    intro hnil
    have hzero := congrArg List.length hnil
    rw [List.length_zip, List.length_nil] at hzero
    rcases hpairs with ⟨htwo, -⟩ | ⟨hone, -⟩ <;> omega
  constructor
  · intro h
    obtain ⟨combining, hcombining, h⟩ := bind_eq_ok.mp h
    obtain ⟨named, hnamed, h⟩ := bind_eq_ok.mp h
    obtain ⟨arrays, harrays, rfl⟩ := mapM_arrayOf_eq_ok_iff.mp hnamed
    refine ⟨arrays, harrays, ?_⟩
    rcases combiningOf_eq_ok_iff.mp hcombining with ⟨rfl, hmultiplies⟩ | ⟨rfl, hpairs⟩
    · obtain rfl := Except.ok.inj h
      exact .inl ⟨hmultiplies, harrays.isPlan_product⟩
    · obtain ⟨length, hlength, rfl⟩ := (pairwise_eq_ok_iff (hne harrays hpairs)).mp h
      have hlength := (hunzip harrays length).mp hlength
      exact .inr ⟨hpairs, length, hlength, harrays.isPlan_pairwise hlength⟩
  · rintro ⟨arrays, harrays, ⟨hmultiplies, hplan⟩ | ⟨hpairs, length, hlength, hplan⟩⟩
    · obtain rfl := hplan.unique harrays.isPlan_product
      exact harrays.combinations_eq hmultiplies
    · obtain rfl := hplan.unique (harrays.isPlan_pairwise hlength)
      refine bind_eq_ok.mpr ⟨.pairwise, combiningOf_eq_ok_iff.mpr (.inr ⟨rfl, hpairs⟩),
        bind_eq_ok.mpr ⟨_, mapM_arrayOf_eq_ok_iff.mpr ⟨arrays, harrays, rfl⟩, ?_⟩⟩
      exact (pairwise_eq_ok_iff (hne harrays hpairs)).mpr ⟨length, (hunzip harrays length).mpr hlength, rfl⟩

/-- A step that scatters one input and says how to combine its elements. -/
def loneStep : Step where
  id := "#main/each"
  run := "#tool"
  inputs := []
  outputs := []
  scatter := ["a"]
  scatterMethod := some .dotProduct
  requirements := []
  hints := []

/-- A method for a single input is refused, although its one array has one length. -/
theorem lone_method_refused :
    loneStep.scatter.length = 1 ∧ loneStep.scatterMethod = some .dotProduct ∧
      Scatters loneStep [("a", .array [.int 1, .int 2])] [[.int 1, .int 2]] ∧
      ¬ ∃ plan, combinations loneStep [("a", .array [.int 1, .int 2])] = .ok plan := by
  refine ⟨rfl, rfl, .cons rfl .nil, ?_⟩
  rintro ⟨plan, ⟨⟩⟩

end WorkflowEngine.Scheduling
