import Mathlib.Data.List.Basic
import Mathlib.Data.List.Forall2
import Mathlib.Data.List.Induction
import Mathlib.Tactic.Common
import WorkflowEngine.OrderedMap
import WorkflowEngine.Proofs.Outcomes

/-!
# Laws of ordered maps

Look-up, keys and storage of ordered maps.

**Membership.**  A map whose keys are all different is read through `OrderedMap.find?` as through its
pairs: `find?_eq_some_iff`.

**Pointwise change.**  A map keeps its keys when only its values change; `find?_mapValues` and
`keys_mapValues` read the new map off the old one.

**Collection.**  A map that is collected from a list, one entry for each element, holds for a key the
entry of the last element with this key: `find?_of_collect`.  Tasks, dependencies, parameters and
outputs are all collected in this way.

**Order of collection.**  Its keys stand in the order of the first elements with them: `keys_of_collect`.
-/

namespace WorkflowEngine.OrderedMap

variable {α β γ : Type}

/-! ## Membership -/

@[simp] lemma find?_nil (key : String) : find? ([] : OrderedMap α) key = none := rfl

lemma find?_cons (k : String) (v : α) (m : OrderedMap α) (key : String) :
    find? ((k, v) :: m) key = if k = key then some v else find? m key := rfl

@[simp] lemma keys_nil : keys ([] : OrderedMap α) = [] := rfl

@[simp] lemma keys_cons (p : String × α) (m : OrderedMap α) : keys (p :: m) = p.1 :: keys m := rfl

lemma find?_append (m n : OrderedMap α) (key : String) :
    find? (m ++ n) key = (find? m key).or (find? n key) := by
  induction m with
  | nil => rfl
  | cons p rest ih =>
      obtain ⟨k, v⟩ := p
      rw [List.cons_append, find?_cons, find?_cons, ih]
      split_ifs <;> rfl

lemma mem_of_find? {m : OrderedMap α} {key : String} {v : α} (h : find? m key = some v) :
    (key, v) ∈ m := by
  induction m with
  | nil => simp at h
  | cons p rest ih =>
      obtain ⟨k, w⟩ := p
      rw [find?_cons] at h
      split_ifs at h with hk
      · obtain rfl := Option.some.inj h
        simp [hk]
      · exact List.mem_cons_of_mem _ (ih h)

lemma find?_erase_of_ne {m : OrderedMap α} {key key' : String} (h : key ≠ key') :
    find? (erase m key') key = find? m key := by
  induction m with
  | nil => rfl
  | cons p rest ih =>
      obtain ⟨k, v⟩ := p
      rw [erase] at ih ⊢
      rw [List.filter_cons, find?_cons]
      by_cases hk : k = key'
      · subst hk
        rw [if_neg (by simp), ih, if_neg (Ne.symm h)]
      · rw [if_pos (by simpa using hk), find?_cons, ih]

lemma mem_keys_of_mem {m : OrderedMap α} {key : String} {v : α} (h : (key, v) ∈ m) :
    key ∈ keys m :=
  List.mem_map_of_mem (f := Prod.fst) h

lemma find?_eq_none_iff {m : OrderedMap α} {key : String} : find? m key = none ↔ key ∉ keys m := by
  induction m with
  | nil => simp
  | cons p rest ih =>
      obtain ⟨k, w⟩ := p
      by_cases hk : k = key
      · simp [find?_cons, hk]
      · simp [find?_cons, hk, ih, Ne.symm hk]

lemma find?_isSome_iff {m : OrderedMap α} {key : String} :
    (find? m key).isSome ↔ key ∈ keys m := by
  rw [← not_iff_not, Bool.not_eq_true, Option.isSome_eq_false_iff, Option.isNone_iff_eq_none,
    find?_eq_none_iff]

/-- What is found in a map has a counterpart in every map with the same keys. -/
lemma exists_find?_of_keys {m : OrderedMap α} {n : OrderedMap β} (h : keys m = keys n) {key : String}
    {v : α} (hv : find? m key = some v) : ∃ w, find? n key = some w := by
  rw [← Option.isSome_iff_exists, find?_isSome_iff, ← h]
  exact mem_keys_of_mem (mem_of_find? hv)

/-- A map whose keys are all different holds exactly the pairs that are found in it. -/
lemma find?_eq_some_iff {m : OrderedMap α} (hm : (keys m).Nodup) {key : String} {v : α} :
    find? m key = some v ↔ (key, v) ∈ m := by
  refine ⟨mem_of_find?, fun h => ?_⟩
  induction m with
  | nil => simp at h
  | cons p rest ih =>
      obtain ⟨k, w⟩ := p
      rw [keys_cons, List.nodup_cons] at hm
      rw [find?_cons]
      rcases List.mem_cons.mp h with h | h
      · cases h
        simp
      · have hne : k ≠ key := by
          rintro rfl
          exact hm.1 (mem_keys_of_mem h)
        rw [if_neg hne]
        exact ih hm.2 h

/-! ## Pointwise change -/

@[simp] lemma keys_mapValues (f : String × α → β) (m : OrderedMap α) :
    keys (m.map fun p => (p.1, f p)) = keys m := by
  simp [keys, Function.comp_def]

lemma find?_mapValues (f : String × α → β) (m : OrderedMap α) (key : String) :
    find? (m.map fun p => (p.1, f p)) key = (find? m key).map fun v => f (key, v) := by
  induction m with
  | nil => simp
  | cons p rest ih =>
      obtain ⟨k, w⟩ := p
      by_cases hk : k = key
      · subst hk; simp [find?_cons]
      · simp [find?_cons, hk, ih]

/-- Two maps with the same different keys agree in what a function makes of their values when they
agree in it key by key. -/
lemma map_eq_of_find? {f : α → γ} {g : β → γ} :
    ∀ {m : OrderedMap α} {n : OrderedMap β}, keys m = keys n → (keys m).Nodup →
      (∀ key v w, find? m key = some v → find? n key = some w → f v = g w) →
      m.map (fun p => (p.1, f p.2)) = n.map (fun p => (p.1, g p.2))
  | [], [], _, _, _ => rfl
  | [], _ :: _, h, _, _ => by simp at h
  | _ :: _, [], h, _, _ => by simp at h
  | (k, v) :: m, (l, w) :: n, h, hm, hv => by
      rw [keys_cons, keys_cons, List.cons.injEq] at h
      obtain ⟨rfl, hrest⟩ := h
      rw [keys_cons, List.nodup_cons] at hm
      have htail : m.map (fun p => (p.1, f p.2)) = n.map (fun p => (p.1, g p.2)) := by
        refine map_eq_of_find? hrest hm.2 fun key a b ha hb => ?_
        have hne : k ≠ key := fun hk => hm.1 (hk ▸ mem_keys_of_mem (mem_of_find? ha))
        exact hv key a b (by simp [find?_cons, hne, ha]) (by simp [find?_cons, hne, hb])
      simp only [List.map_cons, htail, hv k v w (by simp [find?_cons]) (by simp [find?_cons])]

/-- Two maps with the same keys in the same order are read alike. -/
lemma find?_of_forall₂ {α β : Type} {R : α → β → Prop} {m : OrderedMap α} {n : OrderedMap β}
    (h : List.Forall₂ (fun p q => q.1 = p.1 ∧ R p.2 q.2) m n) {id : String} {v : α}
    (hv : m.find? id = some v) : ∃ w, n.find? id = some w ∧ R v w := by
  induction h with
  | nil => simp at hv
  | @cons p q _ _ hpq _ ih =>
      obtain ⟨hkey, hR⟩ := hpq
      obtain ⟨k, a⟩ := p
      obtain ⟨l, b⟩ := q
      obtain rfl : l = k := hkey
      rw [OrderedMap.find?_cons] at hv ⊢
      by_cases hk : l = id
      · rw [if_pos hk] at hv ⊢
        exact ⟨b, rfl, Option.some.inj hv ▸ hR⟩
      · rw [if_neg hk] at hv ⊢
        exact ih hv

/-! ## Collection -/

lemma nodup_keys_insert {m : OrderedMap α} (hm : (keys m).Nodup) (key : String) (v : α) :
    (keys (insert m key v)).Nodup := by
  by_cases h : key ∈ keys m
  · rwa [keys_insert_of_mem m key v h]
  · rw [keys_insert_of_not_mem m key v h]
    refine List.nodup_append.mpr ⟨hm, by simp, fun a ha b hb hab => ?_⟩
    obtain rfl := List.mem_singleton.mp hb
    exact h (hab ▸ ha)

/-- The last element of a list with a key. -/
def lastWith (key : γ → String) (xs : List γ) (k : String) : Option γ :=
  xs.reverse.find? fun x => key x = k

lemma lastWith_cons (key : γ → String) (x : γ) (xs : List γ) (k : String) :
    lastWith key (x :: xs) k = (lastWith key xs k).or (if key x = k then some x else none) := by
  by_cases hk : key x = k <;> simp [lastWith, List.find?_append, hk]

lemma mem_of_lastWith {key : γ → String} {xs : List γ} {k : String} {x : γ}
    (h : lastWith key xs k = some x) : x ∈ xs ∧ key x = k :=
  ⟨List.mem_reverse.mp (List.mem_of_find?_eq_some h), by simpa using List.find?_some h⟩

lemma lastWith_isSome {key : γ → String} {xs : List γ} {x : γ} (h : x ∈ xs) :
    (lastWith key xs (key x)).isSome := by
  simpa [lastWith] using ⟨x, h, rfl⟩

lemma lastWith_append_singleton (key : γ → String) (xs : List γ) (x : γ) (k : String) :
    lastWith key (xs ++ [x]) k = if key x = k then some x else lastWith key xs k := by
  by_cases hk : key x = k <;> simp [lastWith, hk]

/-- A map that is made from pairs holds the last value of each key. -/
lemma find?_ofList (pairs : List (String × α)) (k : String) :
    find? (ofList pairs) k = (lastWith Prod.fst pairs k).map Prod.snd := by
  induction pairs using List.reverseRecOn with
  | nil => rfl
  | append_singleton pairs p ih =>
      rw [lastWith_append_singleton, ofList, List.foldl_append]
      rw [ofList] at ih
      by_cases hk : p.1 = k <;> simp [find?_insert, hk, ih]

/-- **A collected map holds the last entry of each key.**  `f` gives the entry of an element, and
the first failure of an entry is that of the whole. -/
theorem find?_of_collect {ε : Type} (key : γ → String) (f : γ → Except ε α) :
    ∀ {xs : List γ} {init m : OrderedMap α},
      xs.foldlM (fun map x => do return insert map (key x) (← f x)) init = .ok m → ∀ k,
      match lastWith key xs k with
      | some x => ∃ v, f x = .ok v ∧ find? m k = some v
      | none => find? m k = find? init k
  | [], init, m, h, k => by
      obtain rfl : init = m := by simpa [pure, Except.pure] using h
      simp [lastWith]
  | x :: xs, init, m, h, k => by
      cases hx : f x with
      | error e => simp [List.foldlM_cons, hx, bind, Except.bind] at h
      | ok v =>
          replace h : xs.foldlM (fun map x => do return insert map (key x) (← f x))
              (insert init (key x) v) = .ok m := by
            simpa [List.foldlM_cons, hx, bind, Except.bind, pure, Except.pure] using h
          have hrest := find?_of_collect key f h k
          rw [lastWith_cons]
          cases hl : lastWith key xs k with
          | some y => simpa [hl] using hrest
          | none =>
              rw [hl, find?_insert] at hrest
              by_cases hk : key x = k
              · simpa [hk] using ⟨v, hx, by simpa [hk] using hrest⟩
              · simpa [hk] using hrest

lemma nodup_keys_of_collect {ε : Type} (key : γ → String) (f : γ → Except ε α) :
    ∀ {xs : List γ} {init m : OrderedMap α}, (keys init).Nodup →
      xs.foldlM (fun map x => do return insert map (key x) (← f x)) init = .ok m → (keys m).Nodup
  | [], init, m, hi, h => by
      obtain rfl : init = m := by simpa [pure, Except.pure] using h
      exact hi
  | x :: xs, init, m, hi, h => by
      cases hx : f x with
      | error e => simp [List.foldlM_cons, hx, bind, Except.bind] at h
      | ok v =>
          replace h : xs.foldlM (fun map x => do return insert map (key x) (← f x))
              (insert init (key x) v) = .ok m := by
            simpa [List.foldlM_cons, hx, bind, Except.bind, pure, Except.pure] using h
          exact nodup_keys_of_collect key f (nodup_keys_insert hi (key x) v) h

/-- Entries that are made in two ways alike are collected alike. -/
lemma collect_congr {ε : Type} {key : γ → String} {f g : γ → Except ε α} :
    ∀ {xs : List γ} {init m : OrderedMap α},
      (∀ x ∈ xs, ∀ v, f x = .ok v → g x = .ok v) →
      xs.foldlM (fun map x => do return insert map (key x) (← f x)) init = .ok m →
      xs.foldlM (fun map x => do return insert map (key x) (← g x)) init = .ok m
  | [], _, _, _, h => h
  | x :: xs, init, m, same, h => by
      rw [List.foldlM_cons] at h ⊢
      obtain ⟨between, hx, h⟩ := bind_eq_ok.mp h
      obtain ⟨v, hv, hbetween⟩ := bind_eq_ok.mp hx
      refine bind_eq_ok.mpr ⟨between, bind_eq_ok.mpr ⟨v, same x List.mem_cons_self v hv, hbetween⟩, ?_⟩
      exact collect_congr (fun y hy => same y (List.mem_cons_of_mem x hy)) h

/-- Everything can be collected when every entry can be made. -/
lemma exists_collect {ε : Type} (key : γ → String) (f : γ → Except ε α) :
    ∀ {xs : List γ} (init : OrderedMap α), (∀ x ∈ xs, ∃ v, f x = .ok v) →
      ∃ m, xs.foldlM (fun map x => do return insert map (key x) (← f x)) init = .ok m
  | [], init, _ => ⟨init, rfl⟩
  | x :: xs, init, h => by
      obtain ⟨v, hv⟩ := h x List.mem_cons_self
      obtain ⟨m, hm⟩ := exists_collect key f (insert init (key x) v)
        fun y hy => h y (List.mem_cons_of_mem x hy)
      refine ⟨m, ?_⟩
      simpa [List.foldlM_cons, hv, bind, Except.bind, pure, Except.pure] using hm

/-- Every entry of a map that could be collected could be made. -/
lemma exists_entry_of_collect {ε : Type} {key : γ → String} {f : γ → Except ε α} :
    ∀ {xs : List γ} {init m : OrderedMap α},
      xs.foldlM (fun map x => do return insert map (key x) (← f x)) init = .ok m →
      ∀ x ∈ xs, ∃ v, f x = .ok v
  | [], _, _, _, x, hx => by simp at hx
  | x :: xs, init, m, h, y, hy => by
      rw [List.foldlM_cons] at h
      obtain ⟨_, hx, h⟩ := bind_eq_ok.mp h
      obtain ⟨v, hv, -⟩ := bind_eq_ok.mp hx
      rcases List.mem_cons.mp hy with rfl | hy
      · exact ⟨v, hv⟩
      · exact exists_entry_of_collect h y hy

lemma keys_insert (m : OrderedMap α) (key : String) (v : α) :
    keys (insert m key v) = if key ∈ keys m then keys m else keys m ++ [key] := by
  split_ifs with h
  · exact keys_insert_of_mem m key v h
  · exact keys_insert_of_not_mem m key v h

/-! ## Order of collection -/

/-- The keys of some elements, each at its first place. -/
def firstKeys (key : γ → String) (xs : List γ) : List String :=
  xs.foldl (fun keys x => if key x ∈ keys then keys else keys ++ [key x]) []

lemma firstKeys_append_singleton (key : γ → String) (xs : List γ) (x : γ) :
    firstKeys key (xs ++ [x]) =
      if key x ∈ firstKeys key xs then firstKeys key xs else firstKeys key xs ++ [key x] := by
  rw [firstKeys, List.foldl_append]
  rfl

lemma mem_firstKeys {key : γ → String} {xs : List γ} {k : String} :
    k ∈ firstKeys key xs ↔ ∃ x ∈ xs, key x = k := by
  induction xs using List.reverseRecOn with
  | nil => simp [firstKeys]
  | append_singleton xs x ih =>
      rw [firstKeys_append_singleton]
      by_cases hk : key x = k
      · subst hk
        split_ifs with h <;> simp [h]
      · split_ifs <;> simp [ih, hk, Ne.symm hk]

lemma length_firstKeys_le (key : γ → String) (xs : List γ) :
    (firstKeys key xs).length ≤ xs.length := by
  induction xs using List.reverseRecOn with
  | nil => simp [firstKeys]
  | append_singleton xs x ih =>
      rw [firstKeys_append_singleton]
      split_ifs <;> simp <;> omega

/-- Elements have as many keys as there are elements when no two have the same key. -/
lemma length_firstKeys_eq_iff {key : γ → String} {xs : List γ} :
    (firstKeys key xs).length = xs.length ↔ (xs.map key).Nodup := by
  induction xs using List.reverseRecOn with
  | nil => simp [firstKeys]
  | append_singleton xs x ih =>
      have hle := length_firstKeys_le key xs
      have hmem : key x ∈ firstKeys key xs ↔ key x ∈ xs.map key := by
        simp [mem_firstKeys]
      rw [firstKeys_append_singleton, List.map_append, List.nodup_append, ← ih]
      split_ifs with h
      · have hdouble := hmem.mp h
        refine iff_of_false (by simp; omega) ?_
        rintro ⟨-, -, hne⟩
        exact hne _ hdouble _ (by simp) rfl
      · have hnew : ∀ k ∈ xs.map key, k ≠ key x := fun k hk heq => h (hmem.mpr (heq ▸ hk))
        simpa using fun _ => hnew

lemma firstKeys_eq_map {key : γ → String} {xs : List γ} (h : (xs.map key).Nodup) :
    firstKeys key xs = xs.map key := by
  induction xs using List.reverseRecOn with
  | nil => rfl
  | append_singleton xs x ih =>
      rw [List.map_append, List.nodup_append] at h
      have hnew : key x ∉ firstKeys key xs := by
        rw [ih h.1]
        exact fun hmem => h.2.2 _ hmem _ (by simp) rfl
      rw [firstKeys_append_singleton, if_neg hnew, ih h.1, List.map_append, List.map_singleton]

/-- The elements in front of the first one with a key have keys that come before it. -/
lemma exists_split_of_firstKeys {key : γ → String} {xs : List γ} {front back : List String}
    {k : String} (h : firstKeys key xs = front ++ k :: back) :
    ∃ before x after, xs = before ++ x :: after ∧ key x = k ∧ ∀ y ∈ before, key y ∈ front := by
  -- From the right: the last element adds its key at the end, or none.
  induction xs using List.reverseRecOn generalizing back with
  | nil => simp [firstKeys] at h
  | append_singleton xs x ih =>
      have hearlier {back : List String} (h : firstKeys key xs = front ++ k :: back) :
          ∃ before y after, xs ++ [x] = before ++ y :: after ∧ key y = k ∧
            ∀ z ∈ before, key z ∈ front := by
        obtain ⟨before, y, after, rfl, hy, hbefore⟩ := ih h
        exact ⟨before, y, after ++ [x], by simp, hy, hbefore⟩
      rw [firstKeys_append_singleton] at h
      split_ifs at h with hx
      · exact hearlier h
      · rcases List.eq_nil_or_concat back with rfl | ⟨back, last, rfl⟩
        · have hfront : firstKeys key xs = front := List.append_inj_left' h rfl
          have hk : [key x] = [k] := List.append_inj_right' h rfl
          refine ⟨xs, x, [], rfl, by simpa using hk, fun y hy => ?_⟩
          exact hfront ▸ mem_firstKeys.mpr ⟨y, hy, rfl⟩
        · have hshort : firstKeys key xs ++ [key x] = (front ++ k :: back) ++ [last] := by
            simpa using h
          exact hearlier (List.append_inj_left' hshort rfl)

/-- The keys of a map once some elements have been stored in it, one after the other. -/
def keysAfter (key : γ → String) (keys : List String) (xs : List γ) : List String :=
  xs.foldl (fun keys x => if key x ∈ keys then keys else keys ++ [key x]) keys

lemma keysAfter_cons (key : γ → String) (m : OrderedMap α) (x : γ) (xs : List γ) (v : α) :
    keysAfter key (keys m) (x :: xs) = keysAfter key (keys (insert m (key x) v)) xs := by
  rw [keys_insert]
  rfl

lemma keys_foldl (key : γ → String) (g : γ → α) : ∀ (xs : List γ) (init : OrderedMap α),
    keys (xs.foldl (fun map x => insert map (key x) (g x)) init) = keysAfter key (keys init) xs
  | [], _ => rfl
  | x :: xs, init => by
      rw [List.foldl_cons, keys_foldl key g xs, ← keysAfter_cons]

lemma keys_foldlM {ε : Type} {key : γ → String} {f : γ → Except ε β} {g : γ → β → α} :
    ∀ {xs : List γ} {init m : OrderedMap α},
      xs.foldlM (fun map x => do return insert map (key x) (g x (← f x))) init = .ok m →
      keys m = keysAfter key (keys init) xs
  | [], init, m, h => by
      obtain rfl : init = m := Except.ok.inj h
      rfl
  | x :: xs, init, m, h => by
      rw [List.foldlM_cons] at h
      obtain ⟨between, hx, h⟩ := bind_eq_ok.mp h
      obtain ⟨v, -, hbetween⟩ := bind_eq_ok.mp hx
      obtain rfl := Except.ok.inj hbetween
      rw [keys_foldlM h, ← keysAfter_cons]

/-- **A collected map has its keys in the order of their first elements.** -/
theorem keys_of_collect {ε : Type} (key : γ → String) (f : γ → Except ε α) {xs : List γ}
    {m : OrderedMap α}
    (h : xs.foldlM (fun map x => do return insert map (key x) (← f x)) [] = .ok m) :
    keys m = firstKeys key xs :=
  keys_foldlM (g := fun _ v => v) h

end WorkflowEngine.OrderedMap
