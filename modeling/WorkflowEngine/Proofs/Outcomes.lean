import Mathlib.Data.List.Forall2
import Mathlib.Data.List.Perm.Basic
import Mathlib.Tactic.Common
import WorkflowEngine.Failure

/-!
# Laws of outcomes

What a piece of work gave when it came to a result.

**Sequences.**  `bind_eq_ok` takes two pieces of work apart, `mapM_eq_ok_iff` and `forM_eq_ok` the same
work on each element of a list; `bind_eq_error` and its like find the piece that failed.

**Pairs of lists.**  The results of work on each element stand beside the elements: `forall₂_mem_left`,
`map_eq_of_forall₂`.

**Changed results.**  A change of the results passes through sequences: `map_bind_ok`, `mapM_map`.

**Agreement.**  `Agree`: two outcomes are both results, which are related, or both failures, whatever these
are.  It passes through sequences as well: `Agree.bind`, `Agree.mapM`.

**Failures.**  `Fails`: work that ends in a failure, with one lemma for each way in which work is put together.
-/

namespace WorkflowEngine

/-! ## Sequences -/

/-- The outcome of two pieces of work, one after the other. -/
lemma bind_eq_ok {ε α β : Type} {x : Except ε α} {f : α → Except ε β} {b : β} :
    x >>= f = .ok b ↔ ∃ a, x = .ok a ∧ f a = .ok b := by
  cases x <;> simp [bind, Except.bind]

lemma mapM_eq_ok_iff {ε α β : Type} {f : α → Except ε β} {xs : List α} {ys : List β} :
    xs.mapM f = .ok ys ↔ List.Forall₂ (fun x y => f x = .ok y) xs ys := by
  induction xs generalizing ys with
  | nil => cases ys <;> simp [pure, Except.pure]
  | cons x xs ih =>
      rw [List.mapM_cons, bind_eq_ok]
      simp only [bind_eq_ok, ih, pure, Except.pure, Except.ok.injEq]
      constructor
      · rintro ⟨y, hy, rest, hrest, rfl⟩
        exact .cons hy hrest
      · rintro (_ | ⟨hy, hrest⟩)
        exact ⟨_, hy, _, hrest, rfl⟩

lemma forM_eq_ok {ε α : Type} {f : α → Except ε Unit} :
    ∀ {xs : List α}, xs.forM f = .ok () → ∀ x ∈ xs, f x = .ok ()
  | [], _, x, hx => by simp at hx
  | a :: rest, h, x, hx => by
      obtain ⟨u, ha, h⟩ := bind_eq_ok.mp (show f a >>= (fun _ => rest.forM f) = .ok () from h)
      rcases List.mem_cons.mp hx with rfl | hx
      · exact ha
      · exact forM_eq_ok h x hx

lemma forM_eq_ok_of_forall {ε α : Type} {f : α → Except ε Unit} :
    ∀ {xs : List α}, (∀ x ∈ xs, f x = .ok ()) → xs.forM f = .ok ()
  | [], _ => rfl
  | x :: xs, h => by
      have hrest := forM_eq_ok_of_forall fun y hy => h y (List.mem_cons_of_mem x hy)
      exact bind_eq_ok.mpr ⟨(), h x List.mem_cons_self, hrest⟩

/-- A loop that only checks passes if and only if each of its turns does. -/
lemma forIn_eq_ok_iff {ε α β : Type} {f : α → Except ε β} {xs : List α} :
    (forIn xs PUnit.unit fun x _ => do
      let _ ← f x
      pure (ForInStep.yield PUnit.unit)) = .ok () ↔ ∀ x ∈ xs, ∃ b, f x = .ok b := by
  induction xs with
  | nil => simp [pure, Except.pure]
  | cons x xs ih =>
      rw [List.forIn_cons, List.forall_mem_cons, ← ih]
      cases f x with
      | error e => simp [bind, Except.bind]
      | ok b => simp [bind, Except.bind, pure, Except.pure]

lemma exists_mapM {ε α β : Type} {f : α → Except ε β} :
    ∀ {xs : List α}, (∀ x ∈ xs, ∃ y, f x = .ok y) → ∃ ys, xs.mapM f = .ok ys
  | [], _ => ⟨[], rfl⟩
  | x :: xs, h => by
      obtain ⟨y, hy⟩ := h x List.mem_cons_self
      obtain ⟨ys, hys⟩ := exists_mapM fun z hz => h z (List.mem_cons_of_mem x hz)
      exact ⟨y :: ys, mapM_eq_ok_iff.mpr (.cons hy (mapM_eq_ok_iff.mp hys))⟩

lemma exists_foldlM {ε α β : Type} {f : β → α → Except ε β} :
    ∀ {xs : List α}, (∀ x ∈ xs, ∀ before, ∃ after, f before x = .ok after) →
      ∀ before, ∃ after, xs.foldlM f before = .ok after
  | [], _, before => ⟨before, rfl⟩
  | x :: xs, h, before => by
      obtain ⟨between, hx⟩ := h x List.mem_cons_self before
      obtain ⟨after, hxs⟩ := exists_foldlM (fun y hy => h y (List.mem_cons_of_mem x hy)) between
      exact ⟨after, by rw [List.foldlM_cons, hx]; exact hxs⟩

lemma bind_eq_error {ε α β : Type} {x : Except ε α} {f : α → Except ε β} {e : ε} :
    x >>= f = .error e ↔ x = .error e ∨ ∃ a, x = .ok a ∧ f a = .error e := by
  cases x <;> simp [bind, Except.bind]

lemma mapM_eq_error {ε α β : Type} {f : α → Except ε β} {e : ε} :
    ∀ {xs : List α}, xs.mapM f = .error e → ∃ x ∈ xs, f x = .error e
  | [], h => by simp [pure, Except.pure] at h
  | x :: xs, h => by
      rw [List.mapM_cons] at h
      rcases bind_eq_error.mp h with hx | ⟨_, -, h⟩
      · exact ⟨x, List.mem_cons_self, hx⟩
      · rcases bind_eq_error.mp h with hxs | ⟨_, -, h⟩
        · obtain ⟨y, hy, he⟩ := mapM_eq_error hxs
          exact ⟨y, List.mem_cons_of_mem x hy, he⟩
        · cases h

lemma foldlM_eq_error {ε α β : Type} {f : β → α → Except ε β} {e : ε} :
    ∀ {xs : List α} {b : β}, xs.foldlM f b = .error e → ∃ x ∈ xs, ∃ before, f before x = .error e
  | [], _, h => by simp [pure, Except.pure] at h
  | x :: xs, b, h => by
      rw [List.foldlM_cons] at h
      rcases bind_eq_error.mp h with hx | ⟨_, -, h⟩
      · exact ⟨x, List.mem_cons_self, b, hx⟩
      · obtain ⟨y, hy, before, he⟩ := foldlM_eq_error h
        exact ⟨y, List.mem_cons_of_mem x hy, before, he⟩

/-! ## Pairs of lists -/

lemma forall₂_mem_left {α β : Type} {R : α → β → Prop} {xs : List α} {ys : List β}
    (h : List.Forall₂ R xs ys) {x : α} (hx : x ∈ xs) : ∃ y ∈ ys, R x y := by
  induction h with
  | nil => simp at hx
  | @cons a b _ _ hab _ ih =>
      rcases List.mem_cons.mp hx with rfl | hx
      · exact ⟨b, by simp, hab⟩
      · obtain ⟨y, hy, hR⟩ := ih hx
        exact ⟨y, List.mem_cons_of_mem _ hy, hR⟩

lemma forall₂_mem_right {α β : Type} {R : α → β → Prop} {xs : List α} {ys : List β}
    (h : List.Forall₂ R xs ys) {y : β} (hy : y ∈ ys) : ∃ x ∈ xs, R x y :=
  forall₂_mem_left h.flip hy

lemma map_eq_of_forall₂ {α β γ : Type} {f : α → γ} {g : β → γ} {xs : List α} {ys : List β}
    (h : List.Forall₂ (fun x y => g y = f x) xs ys) : ys.map g = xs.map f := by
  induction h with
  | nil => rfl
  | cons hab _ ih => rw [List.map_cons, List.map_cons, hab, ih]

lemma forall₂_imp_of_mem {α β : Type} {R S : α → β → Prop} {xs : List α} {ys : List β}
    (h : List.Forall₂ R xs ys) (himp : ∀ x ∈ xs, ∀ y ∈ ys, R x y → S x y) :
    List.Forall₂ S xs ys := by
  induction h with
  | nil => exact .nil
  | cons hxy _ ih =>
      refine .cons (himp _ List.mem_cons_self _ List.mem_cons_self hxy) (ih fun x hx y hy => ?_)
      exact himp x (List.mem_cons_of_mem _ hx) y (List.mem_cons_of_mem _ hy)

/-! ## Changed results -/

section Changed

variable {ε α β γ : Type}

lemma map_bind_ok (x : Except ε α) (f : α → Except ε β) (g : β → γ) :
    (x >>= f).map g = x >>= fun a => (f a).map g := by
  cases x <;> rfl

lemma bind_map_ok (x : Except ε α) (f : α → β) (g : β → Except ε γ) :
    x.map f >>= g = x >>= fun a => g (f a) := by
  cases x <;> rfl

lemma map_eq_error_iff {x : Except ε α} {f : α → β} {e : ε} :
    x.map f = .error e ↔ x = .error e := by
  cases x <;> simp [Except.map]

lemma map_eq_ok_iff {x : Except ε α} {f : α → β} {b : β} :
    x.map f = .ok b ↔ ∃ a, x = .ok a ∧ f a = b := by
  cases x <;> simp [Except.map]

/-- The same work with its results changed changes the list of results. -/
lemma mapM_map {f : γ → Except ε β} {g : γ → Except ε α} {h : α → β} :
    ∀ {xs : List γ}, (∀ x ∈ xs, f x = (g x).map h) → xs.mapM f = (xs.mapM g).map (List.map h)
  | [], _ => rfl
  | x :: xs, same => by
      rw [List.mapM_cons, List.mapM_cons, same x (by simp), mapM_map fun y hy => same y (by simp [hy])]
      cases g x with
      | error e => rfl
      | ok a => cases xs.mapM g <;> rfl

end Changed

/-! ## Agreement -/

/-- Two outcomes that are both results, which are related, or both failures. -/
inductive Agree {α β : Type} (R : α → β → Prop) : Outcome α → Outcome β → Prop
  | ok {a : α} {b : β} (h : R a b) : Agree R (.ok a) (.ok b)
  | error (e e' : Failure) : Agree R (.error e) (.error e')

namespace Agree

variable {α β γ δ : Type} {R : α → β → Prop} {S : γ → δ → Prop}

lemma refl {R : α → α → Prop} (hR : ∀ a, R a a) (x : Outcome α) : Agree R x x := by
  cases x with
  | ok a => exact .ok (hR a)
  | error e => exact .error e e

lemma of_eq {x y : Outcome α} (h : y = x) : Agree Eq x y := h ▸ refl (fun _ => rfl) x

/-- Work that goes on from related results. -/
lemma bind {x : Outcome α} {y : Outcome β} {f : α → Outcome γ} {g : β → Outcome δ} (h : Agree R x y)
    (hfg : ∀ a b, x = .ok a → y = .ok b → R a b → Agree S (f a) (g b)) :
    Agree S (x >>= f) (y >>= g) := by
  cases h with
  | ok h => exact hfg _ _ rfl rfl h
  | error e e' => exact .error e e'

/-- Work that goes on from the same result. -/
lemma bind_eq {x y : Outcome α} {f : α → Outcome γ} {g : α → Outcome δ} (h : Agree Eq x y)
    (hfg : ∀ a, x = .ok a → Agree S (f a) (g a)) : Agree S (x >>= f) (y >>= g) := by
  refine h.bind fun a b ha _ hab => ?_
  subst hab
  exact hfg a ha

lemma imp {T : α → β → Prop} {x : Outcome α} {y : Outcome β} (h : Agree R x y)
    (himp : ∀ a b, R a b → T a b) : Agree T x y := by
  cases h with
  | ok h => exact .ok (himp _ _ h)
  | error e e' => exact .error e e'

lemma map {x : Outcome α} {y : Outcome β} {f : α → γ} {g : β → δ} (h : Agree R x y)
    (hfg : ∀ a b, R a b → S (f a) (g b)) : Agree S (x.map f) (y.map g) := by
  cases h with
  | ok h => exact .ok (hfg _ _ h)
  | error e e' => exact .error e e'

lemma mapM {f : α → Outcome γ} {g : β → Outcome δ} {xs : List α} {ys : List β}
    (h : List.Forall₂ (fun x y => Agree S (f x) (g y)) xs ys) :
    Agree (List.Forall₂ S) (xs.mapM f) (ys.mapM g) := by
  induction h with
  | nil => exact .ok .nil
  | cons hxy _ ih =>
      rw [List.mapM_cons, List.mapM_cons]
      refine hxy.bind fun c d _ _ hcd => ih.bind fun cs ds _ _ hcds => ?_
      exact .ok (.cons hcd hcds)

lemma mapM_eq {f : α → Outcome γ} {g : β → Outcome γ} {xs : List α} {ys : List β}
    (h : List.Forall₂ (fun x y => Agree Eq (f x) (g y)) xs ys) : Agree Eq (xs.mapM f) (ys.mapM g) := by
  refine (mapM h).imp fun cs ds hcds => ?_
  rwa [List.forall₂_eq_eq_eq] at hcds

/-- The same work on the elements of a list in another order gives the same results in another order, or fails
as well. -/
lemma mapM_of_perm (f : α → Outcome β) {xs ys : List α} (h : xs.Perm ys) :
    Agree List.Perm (xs.mapM f) (ys.mapM f) := by
  have hok {xs ys : List α} {zs : List β} (h : xs.Perm ys) (hzs : ys.mapM f = .ok zs) :
      ∃ ws, xs.mapM f = .ok ws ∧ ws.Perm zs := by
    obtain ⟨ws, hws, hperm⟩ := List.perm_comp_forall₂ h (mapM_eq_ok_iff.mp hzs)
    exact ⟨ws, mapM_eq_ok_iff.mpr hws, hperm⟩
  cases hys : ys.mapM f with
  | ok zs =>
      obtain ⟨ws, hws, hperm⟩ := hok h hys
      rw [hws]
      exact .ok hperm
  | error e =>
      cases hxs : xs.mapM f with
      | error e' => exact .error e' e
      | ok ws =>
          obtain ⟨zs, hzs, -⟩ := hok h.symm hxs
          rw [hys] at hzs
          cases hzs

lemma toOption_eq {x y : Outcome α} (h : Agree Eq x y) : x.toOption = y.toOption := by
  cases h with
  | ok h => rw [h]
  | error e e' => rfl

end Agree

/-! ## Failures -/

/-- Work that ends in a failure. -/
def Fails {α : Type} (x : Outcome α) : Prop := ∃ failure, x = .error failure

section Fails

variable {α β : Type}

@[simp] lemma not_fails_ok (a : α) : ¬ Fails (.ok a) := fun ⟨_, h⟩ => nomatch h

@[simp] lemma fails_error (failure : Failure) : Fails (.error failure : Outcome α) := ⟨failure, rfl⟩

@[simp] lemma fails_map (x : Outcome α) (f : α → β) : Fails (x.map f) ↔ Fails x :=
  exists_congr fun _ => map_eq_error_iff

@[simp] lemma fails_bind_pure (x : Outcome α) (f : α → β) : Fails (x >>= fun a => pure (f a)) ↔ Fails x :=
  fails_map x f

@[simp] lemma fails_mapM (f : α → Outcome β) (xs : List α) :
    Fails (xs.mapM f) ↔ ∃ x ∈ xs, Fails (f x) := by
  constructor
  · rintro ⟨failure, h⟩
    obtain ⟨x, hx, hf⟩ := mapM_eq_error h
    exact ⟨x, hx, failure, hf⟩
  · rintro ⟨x, hx, failure, hf⟩
    cases hxs : xs.mapM f with
    | error e => exact fails_error e
    | ok ys =>
        obtain ⟨y, -, hy⟩ := forall₂_mem_left (mapM_eq_ok_iff.mp hxs) hx
        rw [hf] at hy
        cases hy

end Fails

end WorkflowEngine
