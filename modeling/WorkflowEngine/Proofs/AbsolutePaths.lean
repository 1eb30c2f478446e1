import Mathlib.Data.List.Basic
import Mathlib.Tactic.Common
import WorkflowEngine.Files.Glob
import WorkflowEngine.Path.SecondaryName
import WorkflowEngine.Proofs.Outcomes

/-!
# Absolute paths

**Paths.**  A path seen from an absolute directory is absolute (`isAbsolute_join`), and so are the paths of
the secondary files of an absolute one, because extensions are never taken off across a slash
(`isAbsolute_secondaryPath`).

**Searches.**  What is found by an absolute pattern has an absolute path: a search starts at the root, and
every step of it joins a name to a path (`Glob.isAbsolute_of_glob`).
-/

namespace WorkflowEngine

namespace Path

lemma isAbsolute_iff {path : String} : isAbsolute path = true ↔ path.toList.head? = some '/' := by
  rw [isAbsolute, beq_iff_eq]

lemma head?_append_of_isAbsolute {base : String} (h : isAbsolute base = true) (cs : List Char) :
    (base.toList ++ cs).head? = some '/' := by
  rw [List.head?_append, isAbsolute_iff.mp h, Option.some_or]

/-- What is seen from an absolute directory is absolute. -/
lemma isAbsolute_join {base : String} (h : isAbsolute base = true) (path : String) :
    isAbsolute (join base path) = true := by
  rw [join]
  split_ifs with hpath
  · exact hpath
  · rw [isAbsolute_iff, String.toList_append]
    exact head?_append_of_isAbsolute h _
  · rw [isAbsolute_iff, String.toList_append, String.toList_append, List.append_assoc]
    exact head?_append_of_isAbsolute h _

/-- An absolute path stands for itself, wherever it is seen from. -/
lemma join_of_isAbsolute {path : String} (h : isAbsolute path = true) (base : String) :
    join base path = path := by
  rw [join, if_pos h]

/-! ## Secondary files -/

lemma dropExtension?_suffix {cs shorter : List Char} (h : dropExtension? cs = some shorter) :
    shorter <:+ cs ∧ shorter ≠ [] := by
  rw [dropExtension?] at h
  split_ifs at h with hlength
  obtain rfl := Option.some.inj h
  refine ⟨List.drop_suffix _ _, ?_⟩
  have hname : (cs.takeWhile (· ≠ '/')).length ≤ cs.length := (List.takeWhile_prefix _).length_le
  rw [ne_eq, List.drop_eq_nil_iff]
  omega

/-- The first character of a path stays when extensions are taken off. -/
lemma getLast?_dropExtensions (n : Nat) (cs : List Char) :
    (dropExtensions n cs).getLast? = cs.getLast? := by
  induction n generalizing cs with
  | zero => rfl
  | succ n ih =>
      rw [dropExtensions]
      cases hdrop : dropExtension? cs with
      | none => rfl
      | some shorter =>
          obtain ⟨⟨front, rfl⟩, hne⟩ := dropExtension?_suffix hdrop
          rw [ih, List.getLast?_append_of_ne_nil _ hne]

/-- The secondary files of an absolute path have absolute paths. -/
lemma isAbsolute_secondaryPath {primary : String} (h : isAbsolute primary = true) (pattern : String) :
    isAbsolute (secondaryPath primary pattern) = true := by
  rw [isAbsolute_iff] at h ⊢
  rw [secondaryPath, String.toList_ofList, List.head?_append, List.head?_reverse,
    getLast?_dropExtensions, List.getLast?_reverse, h, Option.some_or]

end Path

/-! ## Searches -/

namespace Glob

open WorkflowEngine.Path (isAbsolute)

variable {s : Search}

lemma mem_keep {path p : String} (h : p ∈ s.keep path) : p = path := by
  rw [Search.keep] at h
  split_ifs at h
  · cases h
  · exact List.mem_singleton.mp h

lemma isAbsolute_of_visit {below : List NamePattern → String → List String}
    (hbelow : ∀ patterns path, isAbsolute path = true → ∀ p ∈ below patterns path, isAbsolute p = true)
    {patterns : List NamePattern} {path : String} (h : isAbsolute path = true) :
    ∀ p ∈ s.visit below patterns path, isAbsolute p = true := by
  have hplain (rest : List NamePattern) (name : NamePattern) (p : String)
      (hp : p ∈ if (Path.fileName? path).any name.accepts then
        if rest.isEmpty then s.keep path else below rest path else []) : isAbsolute p = true := by
    split_ifs at hp
    · rwa [mem_keep hp]
    · exact hbelow rest path h p hp
    · cases hp
  intro p hp
  cases patterns with
  | nil => cases hp
  | cons name rest =>
      unfold Search.visit at hp
      dsimp only at hp
      split at hp
      · rcases List.mem_append.mp hp with hp | hp
        · split_ifs at hp
          · exact hbelow _ path h p hp
          · cases hp
        · split_ifs at hp
          · cases hrest : (name :: rest).dropWhile NamePattern.isRecursive with
            | nil => rw [hrest] at hp; cases hp
            | cons first others =>
                rw [hrest] at hp
                exact hplain others first p hp
          · rwa [List.mem_singleton.mp hp]
          · cases hp
      · exact hplain rest name p hp

/-- A search below an absolute directory finds absolute paths. -/
lemma isAbsolute_of_below : ∀ (fuel : Nat) (patterns : List NamePattern) (path : String),
    isAbsolute path = true → ∀ p ∈ s.below fuel patterns path, isAbsolute p = true
  | 0, patterns, path, _, p, hp => by
      rw [Search.below] at hp
      cases hp
  | fuel + 1, [], path, _, p, hp => by
      rw [Search.below] at hp
      cases hp
  | fuel + 1, name :: rest, path, h, p, hp => by
      have hfound (next : String) (hnext : p ∈ if rest.isEmpty then s.keep (Path.join path next)
          else s.below fuel rest (Path.join path next)) : isAbsolute p = true := by
        have hjoin := Path.isAbsolute_join h next
        split_ifs at hnext
        · rwa [mem_keep hnext]
        · exact isAbsolute_of_below fuel rest _ hjoin p hnext
      unfold Search.below at hp
      dsimp only at hp
      split at hp
      -- A name without special characters is looked up, and others are found among the entries.
      · rename_i literal _
        by_cases hthere : (if literal = "." ∨ literal = ".." then s.tree.isDirectory path
            else s.tree.exists? (Path.join path literal)) = true
        · exact hfound literal (by rwa [if_pos hthere] at hp)
        · rw [if_neg hthere] at hp
          cases hp
      · by_cases hdirectory : s.tree.isDirectory path = true
        · rw [if_pos hdirectory] at hp
          rcases List.mem_append.mp hp with hp | hp
          · by_cases hdot : name.tokens.head? = some (.char '.')
            · rw [if_pos hdot] at hp
              obtain ⟨dots, -, hp⟩ := List.mem_flatMap.mp hp
              exact hfound dots hp
            · rw [if_neg hdot] at hp
              cases hp
          · obtain ⟨entry, -, hp⟩ := List.mem_flatMap.mp hp
            exact isAbsolute_of_visit (isAbsolute_of_below fuel) (Path.isAbsolute_join h entry) p hp
        · rw [if_neg hdirectory] at hp
          cases hp

/-- **An absolute pattern** stands for absolute paths. -/
theorem isAbsolute_of_glob {tree : FileTree} {pattern : String} {paths : List String}
    (h : isAbsolute pattern = true) (hglob : glob tree pattern = .ok paths) :
    ∀ p ∈ paths, isAbsolute p = true := by
  have hroot : isAbsolute (String.ofList (pattern.toList.takeWhile (· = '/'))) = true := by
    rw [Path.isAbsolute_iff] at h ⊢
    obtain ⟨rest, hrest⟩ := List.head?_eq_some_iff.mp h
    rw [hrest, String.toList_ofList]
    rfl
  obtain ⟨_, -, hglob⟩ := bind_eq_ok.mp hglob
  dsimp only at hglob
  split_ifs at hglob
  · obtain rfl := Except.ok.inj hglob
    exact isAbsolute_of_below _ _ _ hroot
  · obtain ⟨patterns, -, hglob⟩ := bind_eq_ok.mp hglob
    obtain rfl := Except.ok.inj hglob
    exact isAbsolute_of_below _ _ _ hroot

end Glob

end WorkflowEngine
