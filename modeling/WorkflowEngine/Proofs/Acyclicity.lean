import Mathlib.Data.List.Chain
import Mathlib.Data.List.Perm.Subperm
import Mathlib.Logic.Relation
import WorkflowEngine.Proofs.Validation

/-!
# Circles and the search for them

A search along a relation comes back to where it was only when the relation has a circle.

**Paths.**  A path along a relation without circles meets nothing twice (`nodup_of_isChain`), so a path
inside a list is no longer than the list (`length_le_of_isChain`).  A rank that falls along the relation
rules circles out (`not_transGen_self_of_rank`).

**Steps.**  `checkAcyclic` decides whether a step depends on itself, directly or through other steps:
`checkAcyclic_eq_ok_iff`.  The steps on the way form a path, which is why the search ends before its fuel
does (`exists_visit`).
-/

namespace WorkflowEngine.Scheduling

open Relation (TransGen)

/-! ## Paths -/

section Paths

variable {α : Type} {R : α → α → Prop}

/-- A path meets nothing twice when nothing on it reaches itself. -/
lemma nodup_of_isChain {path : List α} (h : path.IsChain R)
    (acyclic : ∀ x ∈ path, ¬ TransGen R x x) : path.Nodup := by
  have hall : path.Pairwise (TransGen R) :=
    List.isChain_iff_pairwise.mp (h.imp fun _ _ => TransGen.single)
  refine hall.imp_of_mem fun {x y} hx _ hxy heq => acyclic x hx ?_
  rwa [← heq] at hxy

lemma length_le_of_isChain {path all : List α} (h : path.IsChain R)
    (acyclic : ∀ x ∈ path, ¬ TransGen R x x) (inside : path ⊆ all) : path.length ≤ all.length :=
  (List.subperm_of_subset (nodup_of_isChain h acyclic) inside).length_le

/-- A relation along which a number falls has no circle. -/
lemma not_transGen_self_of_rank {rank : α → Nat} (falls : ∀ x y, R x y → rank y < rank x) (x : α) :
    ¬ TransGen R x x := by
  have hlt {y : α} (h : TransGen R x y) : rank y < rank x := by
    induction h with
    | single h => exact falls _ _ h
    | tail _ h ih => exact (falls _ _ h).trans ih
  exact fun h => (hlt h).false

/-- Neither has what is accessible against the relation. -/
lemma not_transGen_self_of_acc {x : α} (h : Acc (fun a b => R b a) x) : ¬ TransGen R x x := by
  have hacc := h.transGen
  clear h
  induction hacc with
  | intro x _ ih => exact fun circle => ih x (Relation.transGen_swap.mpr circle) circle

/-- What is backwards a circle is a circle. -/
lemma not_transGen_swap_self {x : α} (h : ¬ TransGen R x x) :
    ¬ TransGen (fun a b => R b a) x x :=
  fun hx => h (Relation.transGen_swap.mp hx)

end Paths

/-! ## Steps -/

variable {deps : OrderedMap (List String)}

/-- A step depends on its producers. -/
def DependsOn (deps : OrderedMap (List String)) (step producer : String) : Prop :=
  producer ∈ (deps.find? step).getD []

/-- **The search for circles ends** before its fuel does, when there is no circle to find. -/
theorem exists_visit (closed : ∀ step producer, DependsOn deps step producer → producer ∈ deps.keys)
    (acyclic : ∀ step, ¬ TransGen (DependsOn deps) step step) :
    ∀ {fuel : Nat} {stack : List String} {step : String} (done : List String),
      (step :: stack).IsChain (fun producer step => DependsOn deps step producer) →
      step :: stack ⊆ deps.keys → deps.length < fuel + stack.length →
      ∃ done', visit deps fuel stack done step = .ok done' := by
  intro fuel
  induction fuel with
  | zero =>
      intro stack step _ path inside enough
      have hlength := length_le_of_isChain path (fun s _ => not_transGen_swap_self (acyclic s)) inside
      simp only [List.length_cons, OrderedMap.keys, List.length_map] at hlength
      omega
  | succ fuel ih =>
      intro stack step done path inside enough
      have hnodup := nodup_of_isChain path fun s _ => not_transGen_swap_self (acyclic s)
      have hnew : ¬ stack.contains step = true := by
        simpa using (List.nodup_cons.mp hnodup).1
      rw [visit]
      split_ifs
      · exact ⟨done, rfl⟩
      · have hproducer (producer : String) (hp : producer ∈ (deps.find? step).getD [])
            (done : List String) : ∃ done', visit deps fuel (step :: stack) done producer = .ok done' := by
          refine ih done (List.isChain_cons_cons.mpr ⟨hp, path⟩) ?_ ?_
          · exact List.cons_subset.mpr ⟨closed step producer hp, inside⟩
          · rw [List.length_cons]
            omega
        obtain ⟨done', h⟩ := exists_foldlM hproducer done
        exact ⟨step :: done', bind_eq_ok.mpr ⟨done', h, rfl⟩⟩

/-- **The check for circles is exact.** -/
theorem checkAcyclic_eq_ok_iff
    (closed : ∀ step producer, DependsOn deps step producer → producer ∈ deps.keys) :
    checkAcyclic deps = .ok () ↔ ∀ step, ¬ TransGen (DependsOn deps) step step := by
  constructor
  · intro h step
    obtain ⟨done, topological, covered⟩ := topological_of_checkAcyclic h
    have falls (step producer : String) (hp : DependsOn deps step producer) :
        rank done producer < rank done step := by
      refine topological.rank_lt (covered step ?_) hp
      cases hfind : deps.find? step with
      | none => simp [DependsOn, hfind] at hp
      | some producers => exact OrderedMap.mem_keys_of_mem (OrderedMap.mem_of_find? hfind)
    exact not_transGen_self_of_rank falls step
  · intro acyclic
    have hvisit (step : String) (hs : step ∈ deps.keys.mergeSort fun a b => decide (a ≤ b))
        (done : List String) : ∃ done', visit deps (deps.length + 1) [] done step = .ok done' := by
      refine exists_visit closed acyclic done (List.isChain_singleton step) ?_ (by simp)
      simpa using hs
    obtain ⟨done, h⟩ := exists_foldlM hvisit []
    rw [checkAcyclic]
    simp only [h]

end WorkflowEngine.Scheduling
