import Mathlib.Data.List.Basic
import Mathlib.Data.List.TakeWhile
import Mathlib.Tactic.Common
import WorkflowEngine.Path.Lexical

/-!
# Laws of paths

**Components.**  A path is read piece by piece: what a slash joins has the components of both sides, and
the first piece alone decides how the path opens (`parts_slash`).  Trailing slashes and dots can be taken
off, and the components stay as they are (`parts_trimReversed`).

**Parents and names.**  A path with a file name has the components of its parent and then the name
(`components_of_fileName?`), and joining a name to a path adds it to the components
(`components_join`); so a path and the join of its parent and its name have the same components
(`components_join_parent`).
-/

namespace WorkflowEngine.Path

/-! ## Components of characters -/

/-- The components that the pieces between slashes leave. -/
def named (cs : List Char) : List Component :=
  (splitChars '/' cs).filterMap fun piece => componentOf (String.ofList piece)

/-- The component that a path opens with. -/
def opening (cs : List Char) : List Component :=
  if cs.head? = some '/' then [.root]
  else if (splitChars '/' cs).head? = some ['.'] then [.current]
  else []

/-- The components of a path given by its characters. -/
def parts (cs : List Char) : List Component := opening cs ++ named cs

lemma components_eq (path : String) : components path = parts path.toList := by
  have hdot : (splitAt '/' path).head? = some "." ↔ (splitChars '/' path.toList).head? = some ['.'] := by
    rw [splitAt, List.head?_map, Option.map_eq_some_iff]
    constructor
    · rintro ⟨piece, hpiece, hdot⟩
      obtain rfl : piece = ['.'] := String.ofList_inj.mp hdot
      exact hpiece
    · intro hpiece
      exact ⟨_, hpiece, rfl⟩
  rw [components, parts, opening, named]
  simp only [isAbsolute, beq_iff_eq, hdot]
  rw [splitAt, List.filterMap_map]
  rfl

lemma splitChars_ne_nil (sep : Char) : ∀ cs : List Char, splitChars sep cs ≠ []
  | [] => List.cons_ne_nil _ _
  | c :: rest => by
      rw [splitChars]
      split_ifs
      · exact List.cons_ne_nil _ _
      · split <;> exact List.cons_ne_nil _ _

lemma splitChars_cons {sep c : Char} (hc : c ≠ sep) (rest : List Char) :
    ∃ piece pieces, splitChars sep rest = piece :: pieces ∧
      splitChars sep (c :: rest) = (c :: piece) :: pieces := by
  obtain ⟨piece, pieces, hrest⟩ := List.exists_cons_of_ne_nil (splitChars_ne_nil sep rest)
  exact ⟨piece, pieces, hrest, by rw [splitChars, if_neg hc, hrest]⟩

lemma splitChars_append (sep : Char) (a b : List Char) :
    splitChars sep (a ++ sep :: b) = splitChars sep a ++ splitChars sep b := by
  induction a with
  | nil => rw [List.nil_append, splitChars.eq_2, if_pos rfl, splitChars, List.singleton_append]
  | cons c a ih =>
      by_cases hc : c = sep
      · rw [List.cons_append, splitChars, if_pos hc, splitChars, if_pos hc, ih, List.cons_append]
      · obtain ⟨piece, pieces, ha, hca⟩ := splitChars_cons hc a
        rw [List.cons_append, splitChars, if_neg hc, ih, ha, hca]
        rfl

lemma splitChars_of_notMem {sep : Char} : ∀ {cs : List Char}, sep ∉ cs → splitChars sep cs = [cs]
  | [], _ => rfl
  | c :: rest, h => by
      rw [List.mem_cons, not_or] at h
      rw [splitChars, if_neg (Ne.symm h.1), splitChars_of_notMem h.2]

lemma named_slash (a b : List Char) : named (a ++ '/' :: b) = named a ++ named b := by
  rw [named, splitChars_append, List.filterMap_append]
  rfl

lemma named_of_notMem {cs : List Char} (h : '/' ∉ cs) :
    named cs = (componentOf (String.ofList cs)).toList := by
  rw [named, splitChars_of_notMem h]
  cases hc : componentOf (String.ofList cs) <;> simp [hc]

@[simp] lemma named_nil : named [] = [] := rfl

@[simp] lemma named_dot : named ['.'] = [] := by
  rw [named_of_notMem (by decide)]
  rfl

/-- How a path opens does not depend on what stands behind its first slash. -/
lemma opening_slash (a b b' : List Char) : opening (a ++ '/' :: b) = opening (a ++ '/' :: b') := by
  cases a with
  | nil => rfl
  | cons c a =>
      have hhead : ∀ b,
          (splitChars '/' (c :: a ++ '/' :: b)).head? = (splitChars '/' (c :: a)).head? := by
        intro b
        rw [splitChars_append, List.head?_append_of_ne_nil _ (splitChars_ne_nil _ _)]
      rw [opening, opening, hhead, hhead]
      rfl

/-- A slash at the end of a path that is not empty makes no difference to how it opens. -/
lemma opening_trailing {a : List Char} (ha : a ≠ []) : opening (a ++ ['/']) = opening a := by
  rw [opening, opening, splitChars_append, List.head?_append_of_ne_nil _ (splitChars_ne_nil _ _),
    List.head?_append_of_ne_nil _ ha]

lemma parts_slash (a b : List Char) : parts (a ++ '/' :: b) = parts (a ++ ['/']) ++ named b := by
  rw [parts, parts, opening_slash a b [], named_slash, named_slash, named_nil, List.append_nil,
    List.append_assoc]

lemma parts_trailing {a : List Char} (ha : a ≠ []) : parts (a ++ ['/']) = parts a := by
  rw [parts, parts, opening_trailing ha, named_slash, named_nil, List.append_nil]

/-- A path of one piece has its component and nothing else. -/
lemma parts_of_notMem {cs : List Char} (h : '/' ∉ cs) (hdot : cs ≠ ['.']) : parts cs = named cs := by
  have hhead : cs.head? ≠ some '/' := fun hhead => h (List.mem_of_mem_head? hhead)
  rw [parts, opening, if_neg hhead, splitChars_of_notMem h, if_neg (by simpa using hdot),
    List.nil_append]

/-! ## Trailing slashes and dots -/

/-- Taking trailing slashes and dots off a path leaves its components, when the slash that opens an
absolute path stays. -/
lemma parts_trimReversed {n : Nat} {cs : List Char} (h : cs.getLast? = some '/' → 1 ≤ n) :
    parts (trimReversed n cs).reverse = parts cs.reverse := by
  fun_induction trimReversed n cs with
  | case1 rest hshort => rfl
  | case2 rest hlong ih =>
      have hrest : rest ≠ [] := by
        rintro rfl
        exact hlong (h rfl)
      rw [ih (by rwa [List.getLast?_cons_of_ne_nil hrest] at h), List.reverse_cons,
        parts_trailing (by simpa using hrest)]
  | case3 rest hshort => rfl
  | case4 rest hlong ih =>
      have hdot : parts (rest.reverse ++ ['/', '.']) = parts (rest.reverse ++ ['/']) := by
        rw [parts_slash, named_dot, List.append_nil]
      rw [ih (by rwa [List.getLast?_cons_of_ne_nil (List.cons_ne_nil _ _)] at h)]
      simpa using hdot.symm
  | case5 => rfl

lemma trimReversed_suffix (n : Nat) (cs : List Char) : trimReversed n cs <:+ cs := by
  fun_induction trimReversed n cs with
  | case1 | case3 | case5 => exact List.suffix_rfl
  | case2 rest _ ih => exact ih.trans (List.suffix_cons _ _)
  | case4 rest _ ih => exact ih.trans (List.suffix_cons _ _)

/-- What is left has no trailing slash or dot, unless it is all that has to stay. -/
lemma trimReversed_shape {n : Nat} {cs : List Char} (h : n < (trimReversed n cs).length) :
    (trimReversed n cs).head? ≠ some '/' ∧ ∀ rest, trimReversed n cs ≠ '.' :: '/' :: rest := by
  fun_induction trimReversed n cs with
  | case1 rest hshort => exact absurd h (Nat.not_lt.mpr hshort)
  | case2 rest _ ih => exact ih h
  | case3 rest hshort => exact absurd h (Nat.not_lt.mpr hshort)
  | case4 rest _ ih => exact ih h
  | case5 cs hslash hdot =>
      refine ⟨fun hhead => ?_, fun rest => hdot rest⟩
      obtain ⟨rest, rfl⟩ := List.head?_eq_some_iff.mp hhead
      exact hslash rest rfl

/-! ## Names -/

/-- Whether a text is a name that can stand between slashes. -/
def IsName (name : String) : Prop := '/' ∉ name.toList ∧ componentOf name = some (.normal name)

lemma isName_of_componentOf {cs : List Char} {name : String} (hcs : '/' ∉ cs)
    (h : componentOf (String.ofList cs) = some (.normal name)) : IsName name := by
  have hname : String.ofList cs = name := by
    unfold componentOf at h
    split_ifs at h
    · cases h
    · exact Component.normal.inj (Option.some.inj h)
  subst hname
  exact ⟨by rwa [String.toList_ofList], h⟩

lemma componentOf_ne_none {cs : List Char} (hne : cs ≠ []) (hdot : cs ≠ ['.']) :
    componentOf (String.ofList cs) ≠ none := by
  unfold componentOf
  split_ifs with hempty
  · rcases hempty with hempty | hempty
    · exact absurd (String.ofList_inj.mp hempty) hne
    · exact absurd (String.ofList_inj.mp hempty) hdot
  · simp
  · simp

lemma isAbsolute_of_isName {name : String} (h : IsName name) : isAbsolute name = false := by
  rw [isAbsolute, beq_eq_false_iff_ne]
  exact fun hhead => h.1 (List.mem_of_mem_head? hhead)

lemma named_of_isName {name : String} (h : IsName name) : named name.toList = [.normal name] := by
  rw [named_of_notMem h.1, String.ofList_toList, h.2]
  rfl

/-- **Joining a name to a path** adds it to the components. -/
theorem components_join (base : String) {name : String} (h : IsName name) :
    components (join base name) = components base ++ [.normal name] := by
  rw [join, isAbsolute_of_isName h, if_neg Bool.false_ne_true]
  split_ifs with hbase
  · rcases hbase with rfl | hslash
    · have hdot : name.toList ≠ ['.'] := by
        intro hdot
        have hnamed := named_of_isName h
        rw [hdot, named_dot] at hnamed
        cases hnamed
      rw [components_eq, components_eq, String.empty_append, parts_of_notMem h.1 hdot,
        named_of_isName h]
      rfl
    · obtain ⟨front, hfront⟩ := List.getLast?_eq_some_iff.mp hslash
      rw [components_eq, components_eq, String.toList_append, hfront, List.append_assoc,
        List.singleton_append, parts_slash, named_of_isName h]
  · rw [not_or] at hbase
    have hne : base.toList ≠ [] := fun hnil => hbase.1 (String.toList_eq_nil_iff.mp hnil)
    rw [components_eq, components_eq, String.toList_append, String.toList_append, List.append_assoc]
    change parts (base.toList ++ '/' :: name.toList) = _
    rw [parts_slash, parts_trailing hne, named_of_isName h]

/-! ## Parents -/

lemma one_le_openingLength {cs : List Char} (h : cs.head? = some '/') : 1 ≤ openingLength cs := by
  obtain ⟨rest, rfl⟩ := List.head?_eq_some_iff.mp h
  exact Nat.le_refl 1

/-- What opens a path. -/
lemma openingLength_cases (cs : List Char) :
    openingLength cs = 0 ∨ openingLength cs = 1 ∧
      (cs.head? = some '/' ∨ cs = ['.'] ∨ ∃ rest, cs = '.' :: '/' :: rest) := by
  unfold openingLength
  split
  · exact .inr ⟨rfl, .inl rfl⟩
  · exact .inr ⟨rfl, .inr (.inr ⟨_, rfl⟩)⟩
  · exact .inr ⟨rfl, .inr (.inl rfl)⟩
  · exact .inl rfl

section Parent

variable {cs : List Char} {name : String}

/-- The characters of a path without its trailing slashes and dots, last first. -/
def trimmed (cs : List Char) : List Char := trimReversed (openingLength cs) cs.reverse

lemma parts_trimmed (cs : List Char) : parts (trimmed cs).reverse = parts cs := by
  rw [trimmed, parts_trimReversed, List.reverse_reverse]
  rw [List.getLast?_reverse]
  exact one_le_openingLength

lemma trimmed_prefix (cs : List Char) : (trimmed cs).reverse <+: cs := by
  have h := List.reverse_prefix.mpr (trimReversed_suffix (openingLength cs) cs.reverse)
  rwa [List.reverse_reverse] at h

/-- A path with a file name has more characters than those that open it. -/
lemma openingLength_lt_of_name (h : (parts cs).getLast? = some (.normal name)) :
    openingLength cs < (trimmed cs).length := by
  rw [← parts_trimmed] at h
  obtain ⟨rest, hrest⟩ := trimmed_prefix cs
  by_contra hle
  match ht : (trimmed cs).reverse with
  | [] =>
      rw [ht] at h
      cases h
  | [c] =>
      rw [ht, List.singleton_append] at hrest
      rw [ht] at h
      have hlength : (trimmed cs).length = 1 := by simpa using congrArg List.length ht
      rcases openingLength_cases cs with hopen | ⟨-, hopen⟩
      · omega
      · have hc : c = '/' ∨ c = '.' := by
          rcases hopen with hslash | hdot | ⟨more, hdot⟩
          · rw [← hrest] at hslash
            exact .inl (Option.some.inj hslash)
          · exact .inr (List.cons.inj (hrest.trans hdot)).1
          · exact .inr (List.cons.inj (hrest.trans hdot)).1
        rcases hc with rfl | rfl <;> cases h
  | c :: d :: more =>
      have hlength : (trimmed cs).length = more.length + 2 := by simpa using congrArg List.length ht
      rcases openingLength_cases cs with hopen | ⟨hopen, -⟩ <;> omega

lemma takeWhile_append_stop {p : Char → Bool} {c : Char} (hc : p c = false) (front back : List Char) :
    (front ++ c :: back).takeWhile p = front.takeWhile p := by
  induction front with
  | nil => simp [hc]
  | cons d front ih => rw [List.cons_append, List.takeWhile_cons, List.takeWhile_cons, ih]

lemma drop_length_takeWhile (p : Char → Bool) (cs : List Char) :
    cs.drop (cs.takeWhile p).length = cs.dropWhile p := by
  induction cs with
  | nil => rfl
  | cons c cs ih => by_cases hc : p c <;> simp [hc, ih]

/-- The last piece ends at a slash, never at the dot that opens a path. -/
lemma takeWhile_body (h : openingLength cs < (trimmed cs).length) :
    ((trimmed cs).take ((trimmed cs).length - openingLength cs)).takeWhile (· ≠ '/')
      = (trimmed cs).takeWhile (· ≠ '/') := by
  have hstop : decide ('/' ≠ '/') = false := by decide
  rcases openingLength_cases cs with hopen | ⟨hopen, hcs⟩
  · rw [hopen, Nat.sub_zero, List.take_length]
  · obtain ⟨rest, hrest⟩ := trimmed_prefix cs
    obtain ⟨c, d, more, ht⟩ : ∃ c d more, (trimmed cs).reverse = c :: d :: more := by
      match ht : (trimmed cs).reverse with
      | [] => simp_all
      | [c] => simp_all
      | c :: d :: more => exact ⟨c, d, more, rfl⟩
    have htrimmed : trimmed cs = (more.reverse ++ [d]) ++ [c] := by
      rw [← List.reverse_reverse (trimmed cs), ht]
      simp
    have htake : (trimmed cs).take ((trimmed cs).length - openingLength cs) = more.reverse ++ [d] := by
      rw [hopen, htrimmed, List.length_append, List.length_singleton, Nat.add_sub_cancel,
        List.take_left]
    rw [htake, htrimmed]
    rw [ht] at hrest
    rcases hcs with hslash | hdot | ⟨_, hdot⟩
    · rw [← hrest] at hslash
      obtain rfl : c = '/' := Option.some.inj hslash
      exact (takeWhile_append_stop hstop _ _).symm
    · rw [hdot] at hrest
      cases hrest
    · obtain rfl : d = '/' := by
        rw [hdot] at hrest
        exact (List.cons.inj (List.cons.inj hrest).2).1
      rw [List.append_assoc, List.singleton_append, takeWhile_append_stop hstop,
        takeWhile_append_stop hstop]

/-- A path that is a single piece is its file name. -/
lemma parts_eq_of_piece {piece : List Char} (hpiece : '/' ∉ piece)
    (h : (parts piece).getLast? = some (.normal name)) : IsName name ∧ parts piece = [.normal name] := by
  by_cases hcurrent : piece = ['.']
  · rw [hcurrent] at h
    cases h
  · rw [parts_of_notMem hpiece hcurrent, named_of_notMem hpiece] at h ⊢
    cases hc : componentOf (String.ofList piece) with
    | none => simp [hc] at h
    | some c =>
        obtain rfl : c = .normal name := by simpa [hc] using h
        exact ⟨isName_of_componentOf hpiece hc, by simp⟩

/-- The piece behind the last slash is the file name, and what is in front of it the parent. -/
lemma parts_eq_of_split {piece rest : List Char} (hpiece : '/' ∉ piece.reverse)
    (hsplit : piece ++ '/' :: rest = trimmed cs) (hslash : (trimmed cs).head? ≠ some '/')
    (hdot : ∀ rest, trimmed cs ≠ '.' :: '/' :: rest)
    (h : (parts (trimmed cs).reverse).getLast? = some (.normal name)) :
    IsName name ∧ parts (trimmed cs).reverse =
      parts (trimReversed (openingLength cs) ('/' :: rest)).reverse ++ [.normal name] := by
  have hempty : piece.reverse ≠ [] := fun hempty => by
    rw [List.reverse_eq_nil_iff.mp hempty] at hsplit
    exact hslash (by rw [← hsplit]; rfl)
  have hcurrent : piece.reverse ≠ ['.'] := fun hcurrent => by
    rw [List.reverse_eq_iff.mp hcurrent] at hsplit
    exact hdot rest hsplit.symm
  have habsolute : ('/' :: rest).getLast? = some '/' → 1 ≤ openingLength cs := fun hlast => by
    refine one_le_openingLength ?_
    obtain ⟨back, hback⟩ := trimmed_prefix cs
    rw [← hback, ← hsplit, List.reverse_append, List.append_assoc,
      List.head?_append_of_ne_nil _ (by simp), List.head?_reverse]
    exact hlast
  obtain ⟨c, hc⟩ := Option.ne_none_iff_exists'.mp (componentOf_ne_none hempty hcurrent)
  have hparts : parts (trimmed cs).reverse = parts ('/' :: rest).reverse ++ [c] := by
    rw [← hsplit, List.reverse_append, List.reverse_cons, List.append_assoc, List.singleton_append,
      parts_slash, named_of_notMem hpiece, hc]
    rfl
  obtain rfl : c = .normal name := by simpa [hparts] using h
  exact ⟨isName_of_componentOf hpiece hc, by rw [hparts, parts_trimReversed habsolute]⟩

/-- The last piece of a path with a file name is the name, and the rest is the parent. -/
lemma parts_eq_of_name (h : (parts cs).getLast? = some (.normal name)) :
    IsName name ∧ parts cs = parts (trimReversed (openingLength cs)
      ((trimmed cs).dropWhile (· ≠ '/'))).reverse ++ [.normal name] := by
  obtain ⟨hslash, hdot⟩ := trimReversed_shape (openingLength_lt_of_name h)
  have hsplit := List.takeWhile_append_dropWhile (p := (· ≠ '/')) (l := trimmed cs)
  have hpiece : '/' ∉ ((trimmed cs).takeWhile (· ≠ '/')).reverse := fun hmem => by
    simpa using List.mem_takeWhile_imp (List.mem_reverse.mp hmem)
  rw [← parts_trimmed] at h ⊢
  cases hrest : (trimmed cs).dropWhile (· ≠ '/') with
  | nil =>
      rw [hrest, List.append_nil] at hsplit
      rw [hsplit] at hpiece
      obtain ⟨hname, hparts⟩ := parts_eq_of_piece hpiece h
      refine ⟨hname, hparts.trans ?_⟩
      rw [trimReversed] <;> simp [parts, opening, splitChars]
  | cons c rest =>
      obtain rfl : c = '/' := by
        have hhead := List.head?_dropWhile_not (· ≠ '/') (trimmed cs)
        rw [hrest] at hhead
        simpa using hhead
      rw [hrest] at hsplit
      exact parts_eq_of_split hpiece hsplit hslash hdot h

/-- **A path with a file name** has the components of its parent and then the name. -/
theorem components_of_fileName? {path name : String} (h : fileName? path = some name) :
    IsName name ∧ ∃ parent, parent? path = some parent ∧
      components path = components parent ++ [.normal name] := by
  have hlast : (components path).getLast? = some (.normal name) := by
    unfold fileName? at h
    split at h
    · next hlast => rw [hlast, Option.some.inj h]
    · cases h
  have hparent : parent? path = some (String.ofList (trimReversed (openingLength path.toList)
      ((trimmed path.toList).dropWhile (· ≠ '/'))).reverse) := by
    have hbody := takeWhile_body (openingLength_lt_of_name (components_eq path ▸ hlast))
    rw [← drop_length_takeWhile, ← hbody, parent?, hlast]
    rfl
  obtain ⟨hname, hparts⟩ := parts_eq_of_name (components_eq path ▸ hlast)
  exact ⟨hname, _, hparent, by rw [components_eq, components_eq, String.toList_ofList, hparts]⟩

end Parent

/-- **A path is the join of its parent and its name**, component by component. -/
theorem components_join_parent {path name : String} (h : fileName? path = some name) :
    components (join ((parent? path).getD "") name) = components path := by
  obtain ⟨hname, parent, hparent, hcomponents⟩ := components_of_fileName? h
  rw [hparent, Option.getD_some, components_join parent hname, hcomponents]

end WorkflowEngine.Path
