import Mathlib.Data.List.TakeWhile
import Mathlib.Data.List.Basic
import Mathlib.Logic.Function.Iterate
import Mathlib.Tactic.Common
import WorkflowEngine.Path.SecondaryName

/-!
# Carets and extensions

Two readers take the extension off a name: a file keeps the root of its name, and each caret of a secondary
file's pattern shortens the name of the primary one.  A name is looked at as some dots and a rest that does not
open with one; both readers take extensions off the rest, and only the carets go on to the dots.

**Cutting.**  What stands before the last dot (`splitLast?_of_split`), and the root of a rest, which opens as the
rest does and has one dot less (`exists_split_rest`).

**Names.**  The root of a name is its dots with the root of its rest (`nameroot_ofList`).

**Carets.**  Carets leave the directory of a path alone (`dropExtensions_append`).  Of a name they leave what
is left by taking roots, as long as there are extensions; after that they take off the dots, but for the last
one (`dropExtensions_name`).

**Both.**  `secondaryPath_eq_iff`: the readers agree on a name with at most one dot in front, and on any other as
long as there is an extension for each caret.  Where they do not: `two_dots_taken_for_extension`.
-/

namespace WorkflowEngine

/-! ## Cutting -/

section Cutting

variable {sep : Char} {front rest cs : List Char}

lemma ne_of_notMem (h : sep ∉ cs) : ∀ c ∈ cs, decide (c ≠ sep) = true := by
  intro c hc
  rw [decide_eq_true_eq]
  rintro rfl
  exact h hc

lemma takeWhile_reverse_of_split (h : sep ∉ rest) :
    (front ++ sep :: rest).reverse.takeWhile (· ≠ sep) = rest.reverse := by
  rw [List.reverse_append, List.reverse_cons, List.append_assoc,
    List.takeWhile_append_of_pos (ne_of_notMem (mt List.mem_reverse.mp h)), List.singleton_append,
    List.takeWhile_cons, if_neg (by simp), List.append_nil]

lemma takeWhile_reverse_of_notMem (h : sep ∉ cs) : cs.reverse.takeWhile (· ≠ sep) = cs.reverse :=
  List.takeWhile_eq_self_iff.mpr (ne_of_notMem (mt List.mem_reverse.mp h))

lemma splitLast?_of_split (h : sep ∉ rest) :
    splitLast? sep (front ++ sep :: rest) = some (front, sep :: rest) := by
  have hlength : (front ++ sep :: rest).length - rest.reverse.length - 1 = front.length := by
    simp only [List.length_append, List.length_cons, List.length_reverse]
    omega
  unfold splitLast?
  dsimp only
  rw [takeWhile_reverse_of_split h, hlength, List.take_left, List.drop_left, if_pos (by simp; omega)]

lemma splitLast?_of_notMem (h : sep ∉ cs) : splitLast? sep cs = none := by
  unfold splitLast?
  dsimp only
  rw [takeWhile_reverse_of_notMem h, if_neg (by simp)]

lemma exists_split_last (h : sep ∈ cs) :
    ∃ front rest, cs = front ++ sep :: rest ∧ sep ∉ rest := by
  obtain ⟨rest, front, hcs, hrest⟩ := List.eq_append_cons_of_mem (List.mem_reverse.mpr h)
  refine ⟨front.reverse, rest.reverse, ?_, fun hmem => hrest (List.mem_reverse.mp hmem)⟩
  rw [← List.reverse_reverse cs, hcs]
  simp

/-- What opens with a number of equal characters, and no more of them. -/
lemma takeWhile_replicate (h : rest.head? ≠ some sep) (n : Nat) :
    (List.replicate n sep ++ rest).takeWhile (· = sep) = List.replicate n sep := by
  have hsep : ∀ c ∈ List.replicate n sep, decide (c = sep) = true := fun c hc =>
    decide_eq_true (List.eq_of_mem_replicate hc)
  rw [List.takeWhile_append_of_pos hsep]
  cases rest with
  | nil => rw [List.takeWhile_nil, List.append_nil]
  | cons c rest =>
      have hc : c ≠ sep := fun hc => h (congrArg some hc)
      rw [List.takeWhile_cons, if_neg (by simpa using hc), List.append_nil]

lemma dropWhile_replicate (h : rest.head? ≠ some sep) (n : Nat) :
    (List.replicate n sep ++ rest).dropWhile (· = sep) = rest := by
  have hsplit := List.takeWhile_append_dropWhile (p := (· = sep)) (l := List.replicate n sep ++ rest)
  rw [takeWhile_replicate h] at hsplit
  exact List.append_cancel_left hsplit

end Cutting

/-! ## Names -/

/-- The root of a name. -/
def nameroot (name : String) : String := (splitBasename name).1

/-- The number of dots that open a name. -/
def openingDots (name : String) : Nat := (name.toList.takeWhile (· = '.')).length

/-- The number of extensions of a name: the dots behind those that open it. -/
def extensionCount (name : String) : Nat := (name.toList.dropWhile (· = '.')).count '.'

/-- The root of the rest of a name, behind its opening dots. -/
def restRoot (rest : List Char) : List Char := ((splitLast? '.' rest).map Prod.fst).getD rest

section Names

variable {rest : List Char}

/-- A name is some dots and a rest. -/
lemma exists_dots (name : String) : ∃ rest : List Char, rest.head? ≠ some '.' ∧
    name.toList = List.replicate (openingDots name) '.' ++ rest ∧ extensionCount name = rest.count '.' := by
  refine ⟨name.toList.dropWhile (· = '.'), fun hhead => ?_, ?_, rfl⟩
  · have hstop := List.head?_dropWhile_not (· = '.') name.toList
    rw [hhead] at hstop
    simp at hstop
  · have hdots : name.toList.takeWhile (· = '.') = List.replicate (openingDots name) '.' := by
      refine List.eq_replicate_iff.mpr ⟨rfl, fun c hc => ?_⟩
      simpa using List.mem_takeWhile_imp hc
    rw [← hdots, List.takeWhile_append_dropWhile]

lemma restRoot_of_notMem (h : '.' ∉ rest) : restRoot rest = rest := by
  rw [restRoot, splitLast?_of_notMem h]
  rfl

/-- **A rest with a dot** is its root, a dot and an extension; the root opens as the rest does and has one dot
less. -/
lemma exists_split_rest (h : rest.head? ≠ some '.') (hdot : '.' ∈ rest) :
    ∃ ext, '.' ∉ ext ∧ rest = restRoot rest ++ '.' :: ext ∧ restRoot rest ≠ [] ∧
      (restRoot rest).head? ≠ some '.' ∧ rest.count '.' = (restRoot rest).count '.' + 1 := by
  obtain ⟨front, ext, rfl, hext⟩ := exists_split_last hdot
  have hroot : restRoot (front ++ '.' :: ext) = front := by
    rw [restRoot, splitLast?_of_split hext]
    rfl
  have hne : front ≠ [] := by
    rintro rfl
    exact h rfl
  rw [List.head?_append_of_ne_nil _ hne] at h
  refine ⟨ext, hext, by rw [hroot], by rwa [hroot], by rwa [hroot], ?_⟩
  rw [hroot, List.count_append, List.count_cons_self, List.count_eq_zero_of_not_mem hext]

lemma head?_restRoot (h : rest.head? ≠ some '.') : (restRoot rest).head? ≠ some '.' := by
  by_cases hdot : '.' ∈ rest
  · obtain ⟨-, -, -, -, hhead, -⟩ := exists_split_rest h hdot
    exact hhead
  · rwa [restRoot_of_notMem hdot]

lemma iterate_restRoot_of_notMem (h : '.' ∉ rest) (k : Nat) : restRoot^[k] rest = rest :=
  Function.iterate_fixed (restRoot_of_notMem h) k

/-- The root of a name is its dots and the root of its rest. -/
lemma nameroot_ofList (h : rest.head? ≠ some '.') (n : Nat) :
    nameroot (String.ofList (List.replicate n '.' ++ rest)) =
      String.ofList (List.replicate n '.' ++ restRoot rest) := by
  unfold nameroot splitBasename restRoot
  dsimp only
  rw [String.toList_ofList, takeWhile_replicate h, dropWhile_replicate h]
  cases splitLast? '.' rest <;> rfl

lemma iterate_nameroot_ofList (h : rest.head? ≠ some '.') (n k : Nat) :
    nameroot^[k] (String.ofList (List.replicate n '.' ++ rest)) =
      String.ofList (List.replicate n '.' ++ restRoot^[k] rest) := by
  induction k generalizing rest with
  | zero => rfl
  | succ k ih =>
      rw [Function.iterate_succ_apply, nameroot_ofList h, ih (head?_restRoot h),
        Function.iterate_succ_apply]

end Names

/-! ## Carets -/

namespace Path

section Carets

variable {name back rest : List Char}

/-- An extension is taken off the last name, and nothing else is looked at. -/
lemma dropExtension?_append (hname : '/' ∉ name) (hback : ∀ c ∈ back.head?, c = '/') :
    dropExtension? (name ++ back) = (dropExtension? name).map (· ++ back) := by
  have hkeep := ne_of_notMem hname
  have hstop : back.takeWhile (· ≠ '/') = [] := by
    cases back with
    | nil => rfl
    | cons c back => simp [hback c rfl]
  have hwhole : (name ++ back).takeWhile (· ≠ '/') = name := by
    rw [List.takeWhile_append_of_pos hkeep, hstop, List.append_nil]
  have hself : name.takeWhile (· ≠ '/') = name := List.takeWhile_eq_self_iff.mpr hkeep
  unfold dropExtension?
  dsimp only
  rw [hwhole, hself]
  split_ifs with hlength
  · rw [Option.map_some, List.drop_append_of_le_length (Nat.le_of_lt hlength)]
  · rfl

lemma notMem_of_dropExtension? {shorter : List Char} (hname : '/' ∉ name)
    (h : dropExtension? name = some shorter) : '/' ∉ shorter := by
  unfold dropExtension? at h
  dsimp only at h
  split_ifs at h
  obtain rfl := Option.some.inj h
  exact fun hmem => hname (List.mem_of_mem_drop hmem)

/-- **Carets leave the directory of a path alone.** -/
lemma dropExtensions_append (hname : '/' ∉ name) (hback : ∀ c ∈ back.head?, c = '/') (k : Nat) :
    dropExtensions k (name ++ back) = dropExtensions k name ++ back := by
  induction k generalizing name with
  | zero => rfl
  | succ k ih =>
      rw [dropExtensions, dropExtensions, dropExtension?_append hname hback]
      cases hdrop : dropExtension? name with
      | none => rfl
      | some shorter => exact ih (notMem_of_dropExtension? hname hdrop)

/-- What a caret does to a name with a dot, which must not open it. -/
lemma dropExtension?_of_split {front ext : List Char} (hslash : '/' ∉ front ++ '.' :: ext)
    (hext : '.' ∉ ext) : dropExtension? (front ++ '.' :: ext).reverse =
      if front = [] then none else some front.reverse := by
  unfold dropExtension?
  dsimp only
  rw [takeWhile_reverse_of_notMem hslash, takeWhile_reverse_of_split hext]
  by_cases hfront : front = []
  · rw [if_pos hfront, if_neg]
    simp [hfront]
  · have hpos : 0 < front.length := List.length_pos_iff.mpr hfront
    rw [if_neg hfront, if_pos (by simp; omega), List.reverse_append, List.reverse_cons, List.append_assoc,
      List.singleton_append, List.drop_append, List.drop_eq_nil_of_le (Nat.le_succ _)]
    simp

lemma dropExtension?_of_notMem (hslash : '/' ∉ name) (hdot : '.' ∉ name) :
    dropExtension? name.reverse = none := by
  unfold dropExtension?
  dsimp only
  rw [takeWhile_reverse_of_notMem hslash, takeWhile_reverse_of_notMem hdot, if_neg]
  exact Nat.not_lt.mpr (Nat.le_succ _)

/-- **Carets on a name.**  They leave the dots and what is left of the rest by taking roots, unless there are two
dots or more and extensions are short: then the carets that are left over take dots off, up to the last one. -/
lemma dropExtensions_name (hrest : rest.head? ≠ some '.') (hslash : '/' ∉ rest) (n k : Nat) :
    dropExtensions k (List.replicate n '.' ++ rest).reverse =
      if n ≤ 1 ∨ k ≤ rest.count '.' then (List.replicate n '.' ++ restRoot^[k] rest).reverse
      else List.replicate (max 1 (n - (k - rest.count '.'))) '.' := by
  induction k generalizing n rest with
  | zero => rw [if_pos (.inr (Nat.zero_le _))]; rfl
  | succ k ih =>
      have hwhole : '/' ∉ List.replicate n '.' ++ rest := by
        rw [List.mem_append, not_or]
        exact ⟨fun hmem => absurd (List.eq_of_mem_replicate hmem) (by decide), hslash⟩
      rw [dropExtensions, Function.iterate_succ_apply]
      by_cases hdot : '.' ∈ rest
      -- There is an extension to take off.
      · obtain ⟨ext, hext, hsplit, hne, hhead, hcount⟩ := exists_split_rest hrest hdot
        have hroot : '/' ∉ restRoot rest := fun hmem => hslash (hsplit ▸ List.mem_append_left _ hmem)
        have hcaret : dropExtension? (List.replicate n '.' ++ rest).reverse =
            some (List.replicate n '.' ++ restRoot rest).reverse := by
          rw [hsplit, ← List.append_assoc] at hwhole
          conv_lhs => rw [hsplit, ← List.append_assoc]
          rw [dropExtension?_of_split hwhole hext, if_neg (by simp [hne])]
        rw [hcaret]
        dsimp only
        rw [ih hhead hroot, hcount]
        simp only [Nat.add_le_add_iff_right, Nat.add_sub_add_right]
      · rw [restRoot_of_notMem hdot, iterate_restRoot_of_notMem hdot, List.count_eq_zero_of_not_mem hdot]
        match n with
        | 0 =>
            rw [List.replicate_zero, List.nil_append, dropExtension?_of_notMem hslash hdot]
            rfl
        | 1 =>
            rw [if_pos (.inl le_rfl), List.replicate_one, List.singleton_append] at *
            rw [← List.nil_append ('.' :: rest), dropExtension?_of_split hwhole hdot, if_pos rfl]
        -- The last of two dots or more is taken for the start of an extension.
        | n + 2 =>
            have hcaret : dropExtension? (List.replicate (n + 2) '.' ++ rest).reverse =
                some (List.replicate (n + 1) '.' ++ []).reverse := by
              have hlast : List.replicate (n + 2) '.' ++ rest = List.replicate (n + 1) '.' ++ '.' :: rest := by
                rw [List.replicate_succ', List.append_assoc, List.singleton_append]
              rw [hlast] at hwhole ⊢
              rw [dropExtension?_of_split hwhole hdot, if_neg (by simp), List.append_nil]
            have hmany : ¬ (n + 2 ≤ 1 ∨ k + 1 ≤ 0) := by omega
            rw [hcaret]
            dsimp only
            rw [ih (by simp) (by simp), iterate_restRoot_of_notMem (by simp), List.count_nil, List.append_nil,
              List.reverse_replicate, if_neg hmany]
            split_ifs with hfew
            · congr 1
              omega
            · congr 1
              omega

end Carets

/-! ## Carets and extensions -/

section Both

variable {directory name suffix : String}

/-- The path of a secondary file, taken apart. -/
lemma secondaryPath_eq (hdirectory : ∀ c ∈ directory.toList.getLast?, c = '/')
    (hname : '/' ∉ name.toList) (hsuffix : suffix.toList.head? ≠ some '^') (k : Nat) :
    secondaryPath (directory ++ name) (String.ofList (List.replicate k '^') ++ suffix) =
      directory ++ String.ofList (dropExtensions k name.toList.reverse).reverse ++ suffix := by
  have hcarets : (String.ofList (List.replicate k '^') ++ suffix).toList.takeWhile (· = '^') =
      List.replicate k '^' := by
    rw [String.toList_append, String.toList_ofList, takeWhile_replicate hsuffix]
  have hdrop : (String.ofList (List.replicate k '^') ++ suffix).toList.drop k = suffix.toList := by
    rw [String.toList_append, String.toList_ofList]
    exact List.drop_left' (List.length_replicate)
  have hpath : dropExtensions k (directory ++ name).toList.reverse =
      dropExtensions k name.toList.reverse ++ directory.toList.reverse := by
    rw [String.toList_append, List.reverse_append]
    refine dropExtensions_append (fun hmem => hname (List.mem_reverse.mp hmem)) ?_ k
    rwa [List.head?_reverse]
  apply String.toList_inj.mp
  unfold secondaryPath
  dsimp only
  rw [hcarets, List.length_replicate, hdrop, hpath, String.toList_ofList, String.toList_append,
    String.toList_append, String.toList_ofList, List.reverse_append, List.reverse_reverse]

/-- What a number of carets leaves of a name. -/
lemma dropExtensions_toList (hname : '/' ∉ name.toList) (k : Nat) :
    String.ofList (dropExtensions k name.toList.reverse).reverse =
      if openingDots name ≤ 1 ∨ k ≤ extensionCount name then nameroot^[k] name
      else String.ofList (List.replicate (max 1 (openingDots name - (k - extensionCount name))) '.') := by
  obtain ⟨rest, hrest, hcs, hcount⟩ := exists_dots name
  have hslash : '/' ∉ rest := fun hmem => hname (hcs ▸ List.mem_append_right _ hmem)
  have hof : name = String.ofList (List.replicate (openingDots name) '.' ++ rest) := by
    rw [← hcs, String.ofList_toList]
  have hroots := iterate_nameroot_ofList hrest (openingDots name) k
  rw [← hof] at hroots
  rw [hcs, dropExtensions_name hrest hslash, hcount, hroots]
  split_ifs
  · rw [List.reverse_reverse]
  · rw [List.reverse_replicate]

/-- **Carets agree with the splitting of names** exactly on the names with at most one dot in front, and on
others as long as there is an extension for each caret.  Otherwise the carets that are left over take off the
dots in front, but for the last one.  The directory is kept in either case. -/
theorem secondaryPath_eq_iff (hdirectory : ∀ c ∈ directory.toList.getLast?, c = '/')
    (hname : '/' ∉ name.toList) (hsuffix : suffix.toList.head? ≠ some '^') (k : Nat) :
    (secondaryPath (directory ++ name) (String.ofList (List.replicate k '^') ++ suffix) =
        directory ++ nameroot^[k] name ++ suffix ↔
      openingDots name ≤ 1 ∨ k ≤ extensionCount name) ∧
    (¬ (openingDots name ≤ 1 ∨ k ≤ extensionCount name) →
      secondaryPath (directory ++ name) (String.ofList (List.replicate k '^') ++ suffix) =
        directory ++ String.ofList (List.replicate (max 1 (openingDots name - (k - extensionCount name))) '.')
          ++ suffix) := by
  rw [secondaryPath_eq hdirectory hname hsuffix, dropExtensions_toList hname]
  refine ⟨⟨fun h => ?_, fun h => by rw [if_pos h]⟩, fun h => by rw [if_neg h]⟩
  by_contra hshort
  rw [if_neg hshort, String.append_left_inj, String.append_right_inj] at h
  -- The roots keep all dots in front, so the name that is left would have to be as long as these.
  obtain ⟨rest, hrest, hcs, -⟩ := exists_dots name
  have hof : name = String.ofList (List.replicate (openingDots name) '.' ++ rest) := by
    rw [← hcs, String.ofList_toList]
  have hroots := iterate_nameroot_ofList hrest (openingDots name) k
  rw [← hof, ← h, String.ofList_inj] at hroots
  have hlength := congrArg List.length hroots
  simp only [List.length_replicate, List.length_append] at hlength
  omega

end Both

/-- Two carets and two extensions, in a directory with a dot and of a name that opens with one; and three carets
on a name that opens with three dots and has one extension. -/
theorem hidden_archive_index :
    secondaryPath ("/d.v1/" ++ ".x.tar.gz") (String.ofList (List.replicate 2 '^') ++ ".idx") =
        "/d.v1/" ++ nameroot^[2] ".x.tar.gz" ++ ".idx" ∧
      "/d.v1/" ++ nameroot^[2] ".x.tar.gz" ++ ".idx" = "/d.v1/.x.idx" ∧
      secondaryPath ("" ++ "...x.gz") (String.ofList (List.replicate 3 '^') ++ ".idx") = "..idx" := by
  have hsuffix : ".idx".toList.head? ≠ some '^' := by decide +kernel
  have hdirectory : ∀ c ∈ "/d.v1/".toList.getLast?, c = '/' := by simp
  have hnone : ∀ c ∈ "".toList.getLast?, c = '/' := by simp
  have harchive := secondaryPath_eq_iff hdirectory (by decide +kernel : '/' ∉ ".x.tar.gz".toList) hsuffix 2
  have hdots := secondaryPath_eq_iff hnone (by decide +kernel : '/' ∉ "...x.gz".toList) hsuffix 3
  exact ⟨harchive.1.mpr (.inl (by decide +kernel)), by decide +kernel, hdots.2 (by decide +kernel)⟩

/-- The second of two dots in front of a name is taken for the start of an extension, which the splitting of the
name does not do. -/
theorem two_dots_taken_for_extension :
    splitBasename "..x" = ("..x", "") ∧
      secondaryPath ("/d/" ++ "..x") (String.ofList (List.replicate 1 '^') ++ ".idx") = "/d/..idx" ∧
      "/d/" ++ nameroot^[1] "..x" ++ ".idx" = "/d/..x.idx" ∧
      ¬ ∀ (directory name suffix : String) (k : Nat), (∀ c ∈ directory.toList.getLast?, c = '/') →
        '/' ∉ name.toList → suffix.toList.head? ≠ some '^' →
        secondaryPath (directory ++ name) (String.ofList (List.replicate k '^') ++ suffix) =
          directory ++ nameroot^[k] name ++ suffix := by
  refine ⟨by decide +kernel, by decide +kernel, by decide +kernel, fun hall => ?_⟩
  have hagree := hall "/d/" "..x" ".idx" 1 (by simp) (by decide +kernel) (by decide +kernel)
  exact absurd hagree (by decide +kernel)

end Path

end WorkflowEngine
