import Mathlib.Data.List.Forall2
import Mathlib.Logic.Relation
import WorkflowEngine.Proofs.Callers
import WorkflowEngine.Proofs.Outcomes

/-!
# Giving up, step by step

Giving up a task is many steps of a caller.  When no one else goes on in the meantime, they come to what
`Task.abandon` does at once: `abandon_alone`.

**Sweeps.**  `Swept` says that some tasks have been given up and that nothing else has changed.  A part of an
agenda that gets there by itself is a `Sweep`; sweeps are put together like the agenda is
(`Sweep.append`, `Sweep.of_effect`).

**Trees.**  A store `Holds` a tree of tasks below a handle.  By induction on the tree, the whole of it is
swept (`sweep_of_holds`).
-/

namespace WorkflowEngine.Scheduling

/-! ## Sweeps -/

/-- A task that is given up. -/
def Cell.giveUp (reason : String) (cell : Cell) : Cell :=
  { cell with state := cell.state.finish cell.info.id (.error (Task.givenUp reason)) }

/-- Some tasks are given up, and all else stays. -/
structure Swept (reason : String) (P : Handle → Prop) (store store' : Store) : Prop where
  inside : ∀ t, P t → store' t = (store t).giveUp reason
  outside : ∀ t, ¬ P t → store' t = store t

section Swept

variable {reason : String} {P Q : Handle → Prop} {store store' store'' : Store}

lemma giveUp_giveUp (reason : String) (cell : Cell) :
    (cell.giveUp reason).giveUp reason = cell.giveUp reason := by
  rw [Cell.giveUp, Cell.giveUp, TaskState.finish_eq_self (TaskState.isFinal_finish _ _ _)]

lemma Swept.refl (reason : String) (store : Store) : Swept reason (fun _ => False) store store where
  inside _ h := h.elim
  outside _ _ := rfl

/-- A task that is given up twice is given up. -/
lemma Swept.trans (first : Swept reason P store store') (second : Swept reason Q store' store'') :
    Swept reason (fun t => P t ∨ Q t) store store'' where
  inside t h := by
    by_cases hP : P t
    · by_cases hQ : Q t
      · rw [second.inside t hQ, first.inside t hP, giveUp_giveUp]
      · rw [second.outside t hQ, first.inside t hP]
    · rw [second.inside t (h.resolve_left hP), first.outside t hP]
  outside t h := by
    obtain ⟨hP, hQ⟩ := not_or.mp h
    rw [second.outside t hQ, first.outside t hP]

lemma Swept.congr (h : Swept reason P store store') (hPQ : ∀ t, P t ↔ Q t) :
    Swept reason Q store store' where
  inside t hQ := h.inside t ((hPQ t).mpr hQ)
  outside t hQ := h.outside t fun hP => hQ ((hPQ t).mp hP)

lemma swept_mapState (reason : String) (store : Store) (t : Handle) :
    Swept reason (· = t) store
      (store.mapState t (·.finish (store t).info.id (.error (Task.givenUp reason)))) where
  inside u h := by
    subst h
    exact Function.update_self ..
  outside u h := Function.update_of_ne h ..

/-- Two stores agree on which tasks are directly below which. -/
def SameShape (store store' : Store) : Prop :=
  ∀ t, (store' t).children = (store t).children ∧ (store' t).elements = (store t).elements

lemma Swept.sameShape (h : Swept reason P store store') : SameShape store store' := by
  intro t
  by_cases hP : P t
  · rw [h.inside t hP]
    exact ⟨rfl, rfl⟩
  · rw [h.outside t hP]
    exact ⟨rfl, rfl⟩

lemma SameShape.trans (first : SameShape store store') (second : SameShape store' store'') :
    SameShape store store'' :=
  fun t => ⟨(second t).1.trans (first t).1, (second t).2.trans (first t).2⟩

end Swept

/-- Some things to do give up some tasks, in any store of a shape, when their caller is left alone. -/
def Sweep (shape : Store) (reason : String) (todos : List Todo) (P : Handle → Prop) : Prop :=
  ∀ (scene : Scene) (caller : Nat) (rest : List Todo), SameShape shape scene.store →
    scene.agenda caller = todos ++ rest →
    ∃ n, (scene.play (List.replicate n caller)).agenda caller = rest ∧
      Swept reason P scene.store (scene.play (List.replicate n caller)).store

section Sweep

variable {shape : Store} {reason : String} {todos todos' : List Todo} {P Q : Handle → Prop}

lemma Sweep.congr (h : Sweep shape reason todos P) (hPQ : ∀ t, P t ↔ Q t) :
    Sweep shape reason todos Q := by
  intro scene caller rest hshape hagenda
  obtain ⟨n, hrest, hswept⟩ := h scene caller rest hshape hagenda
  exact ⟨n, hrest, hswept.congr hPQ⟩

lemma Sweep.nil (shape : Store) (reason : String) : Sweep shape reason [] fun _ => False :=
  fun scene _ _ _ hagenda => ⟨0, hagenda, .refl reason scene.store⟩

lemma Sweep.append (first : Sweep shape reason todos P) (second : Sweep shape reason todos' Q) :
    Sweep shape reason (todos ++ todos') fun t => P t ∨ Q t := by
  intro scene caller rest hshape hagenda
  rw [List.append_assoc] at hagenda
  obtain ⟨n, hrest, hswept⟩ := first scene caller (todos' ++ rest) hshape hagenda
  obtain ⟨k, hrest', hswept'⟩ :=
    second _ caller rest (hshape.trans hswept.sameShape) hrest
  rw [← Scene.play_append, List.replicate_append_replicate] at hrest' hswept'
  exact ⟨n + k, hrest', hswept.trans hswept'⟩

/-- One thing to do is followed by what it adds to the agenda. -/
lemma Sweep.of_effect {todo : Todo} {more : List Todo}
    (heffect : ∀ store, SameShape shape store →
      (todo.effect store).next = more ∧ Swept reason P store (todo.effect store).store)
    (hmore : Sweep shape reason more Q) : Sweep shape reason [todo] fun t => P t ∨ Q t := by
  intro scene caller rest hshape hagenda
  obtain ⟨hnext, hswept⟩ := heffect scene.store hshape
  have hstep : (scene.next caller).agenda caller = more ++ rest ∧
      (scene.next caller).store = (todo.effect scene.store).store := by
    unfold Scene.next
    rw [hagenda, List.singleton_append]
    exact ⟨by rw [← hnext]; exact Function.update_self .., rfl⟩
  rw [← hstep.2] at hswept
  obtain ⟨n, hrest, hswept'⟩ :=
    hmore _ caller rest (hshape.trans hswept.sameShape) hstep.1
  exact ⟨n + 1, hrest, hswept.trans hswept'⟩

lemma sweep_finish (shape : Store) (reason : String) (t : Handle) :
    Sweep shape reason [.call t (.finish (.error (Task.givenUp reason)))] (· = t) :=
  (Sweep.of_effect (fun store _ => ⟨rfl, swept_mapState reason store t⟩) (.nil shape reason)).congr
    fun _ => by rw [or_false]

lemma sweep_abandonElements {t : Handle} (h : Sweep shape reason (abandonAll (shape t).elements reason) P) :
    Sweep shape reason [.abandonElements t reason] P :=
  (Sweep.of_effect (fun store hshape => ⟨by rw [Todo.effect, (hshape t).2], .refl reason store⟩) h).congr
    fun _ => by rw [false_or]

lemma sweep_abandon {t : Handle} (hchildren : Sweep shape reason (abandonAll (shape t).children reason) P)
    (helements : Sweep shape reason (abandonAll (shape t).elements reason) Q) :
    Sweep shape reason [.call t (.abandon reason)] fun u => P u ∨ Q u ∨ u = t := by
  have hmore := hchildren.append ((sweep_abandonElements helements).append (sweep_finish shape reason t))
  refine (Sweep.of_effect (fun store hshape => ⟨?_, .refl reason store⟩) hmore).congr
    fun _ => by rw [false_or]
  rw [Todo.effect, (hshape t).1]
  rfl

lemma sweep_abandonAll {below : Handle → Handle → Prop} {tasks : List Handle}
    (h : ∀ t ∈ tasks, Sweep shape reason [.call t (.abandon reason)] (below t)) :
    Sweep shape reason (abandonAll tasks reason) fun u => ∃ t ∈ tasks, below t u := by
  induction tasks with
  | nil => exact (Sweep.nil shape reason).congr fun u => by simp
  | cons t tasks ih =>
      have hrest := ih fun u hu => h u (List.mem_cons_of_mem t hu)
      exact ((h t List.mem_cons_self).append hrest).congr fun u => by simp

end Sweep

/-! ## Trees -/

/-- The tasks directly below a task. -/
def Store.DirectlyBelow (store : Store) (t u : Handle) : Prop :=
  u ∈ (store t).children ∨ u ∈ (store t).elements

/-- A task and the tasks below it. -/
def Store.Below (store : Store) : Handle → Handle → Prop := Relation.ReflTransGen store.DirectlyBelow

lemma Store.below_iff {store : Store} {t u : Handle} : store.Below t u ↔
    (∃ c ∈ (store t).children, store.Below c u) ∨ (∃ e ∈ (store t).elements, store.Below e u) ∨ u = t := by
  rw [Below, Relation.ReflTransGen.cases_head_iff]
  constructor
  · rintro (rfl | ⟨c, hc | he, hu⟩)
    · exact .inr (.inr rfl)
    · exact .inl ⟨c, hc, hu⟩
    · exact .inr (.inl ⟨c, he, hu⟩)
  · rintro (⟨c, hc, hu⟩ | ⟨e, he, hu⟩ | rfl)
    · exact .inr ⟨c, .inl hc, hu⟩
    · exact .inr ⟨e, .inr he, hu⟩
    · exact .inl rfl

variable {κ : Type}

/-- A store holds a tree of tasks below a handle. -/
inductive Holds (store : Store) : Handle → Task κ → Prop
  | node {t : Handle} {task : Task κ} (info : (store t).info = task.info)
      (state : (store t).state = task.state)
      (children : List.Forall₂ (fun p c => Holds store c p.2) task.children (store t).children)
      (elements : List.Forall₂ (fun e h => Holds store h e) task.elements (store t).elements) :
      Holds store t task

section Holds

variable {store store' : Store} {t : Handle} {task : Task κ} {reason : String}

/-- All that lies below a task of a tree is swept. -/
lemma sweep_of_holds (held : Holds store t task) (reason : String) :
    Sweep store reason [.call t (.abandon reason)] (store.Below t) := by
  induction task using Task.inductionBelow generalizing t with
  | step task ihc ihe =>
      obtain ⟨-, -, children, elements⟩ := held
      have hchildren : ∀ c ∈ (store t).children,
          Sweep store reason [.call c (.abandon reason)] (store.Below c) := by
        intro c hc
        obtain ⟨p, hp, hpc⟩ := forall₂_mem_right children hc
        exact ihc p hp hpc
      have helements : ∀ e ∈ (store t).elements,
          Sweep store reason [.call e (.abandon reason)] (store.Below e) := by
        intro e he
        obtain ⟨d, hd, hde⟩ := forall₂_mem_right elements he
        exact ihe d hd hde
      exact (sweep_abandon (sweep_abandonAll hchildren) (sweep_abandonAll helements)).congr
        fun u => Store.below_iff.symm

lemma forall₂_of_mem {α β : Type} {R S : α → β → Prop} {xs : List α} {ys : List β}
    (h : List.Forall₂ R xs ys) (hS : ∀ x ∈ xs, ∀ y ∈ ys, R x y → S x y) : List.Forall₂ S xs ys := by
  obtain ⟨hlength, hR⟩ := List.forall₂_iff_zip.mp h
  refine List.forall₂_iff_zip.mpr ⟨hlength, fun {x y} hmem => ?_⟩
  obtain ⟨hx, hy⟩ := List.of_mem_zip hmem
  exact hS x hx y hy (hR hmem)

/-- A tree that is swept is given up. -/
lemma Holds.abandon {P : Handle → Prop} (swept : Swept reason P store store')
    (held : Holds store t task) (hP : ∀ u, store.Below t u → P u) :
    Holds store' t (task.abandon reason) := by
  induction task using Task.inductionBelow generalizing t with
  | step task ihc ihe =>
      obtain ⟨info, state, children, elements⟩ := held
      have hcell := swept.inside t (hP t .refl)
      refine .node ?_ ?_ ?_ ?_
      · rw [hcell, Task.info_abandon]
        exact info
      · rw [hcell, Task.state_abandon, ← state, ← info]
        rfl
      · rw [hcell, Task.children_abandon, List.forall₂_map_left_iff]
        refine forall₂_of_mem children fun p hp c hc hpc => ?_
        exact ihc p hp hpc fun u hu => hP u (Store.below_iff.mpr (.inl ⟨c, hc, hu⟩))
      · rw [hcell, Task.elements_abandon, List.forall₂_map_left_iff]
        refine forall₂_of_mem elements fun e he h hh heh => ?_
        exact ihe e he heh fun u hu => hP u (Store.below_iff.mpr (.inr (.inl ⟨h, hh, hu⟩)))

end Holds

/-- **A caller that is left alone gives up what lies below a task**, which is what the task does at once. -/
theorem abandon_alone {scene : Scene} {caller : Nat} {t : Handle} {task : Task κ} {reason : String}
    {rest : List Todo} (held : Holds scene.store t task)
    (hagenda : scene.agenda caller = .call t (.abandon reason) :: rest) :
    ∃ n, (scene.play (List.replicate n caller)).agenda caller = rest ∧
      Swept reason (scene.store.Below t) scene.store (scene.play (List.replicate n caller)).store ∧
      Holds (scene.play (List.replicate n caller)).store t (task.abandon reason) := by
  obtain ⟨n, hrest, hswept⟩ := sweep_of_holds held reason scene caller rest (fun _ => ⟨rfl, rfl⟩) hagenda
  exact ⟨n, hrest, hswept, held.abandon hswept fun _ => id⟩

end WorkflowEngine.Scheduling
