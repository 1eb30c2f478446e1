import Mathlib.Data.List.Infix
import Mathlib.Tactic.Common
import WorkflowEngine.Placeholder.Scan

/-!
# Laws of scanning

**Writing parts down.**  Outside expressions `$(` stands with a backslash in front (`escape`), an
expression between `$(` and `)`; `written` puts the parts of a text together again.

**No character is lost.**  What the scanner has collected, with its escapes put back, and what it has
still to read are the text at every point (`source_of_scanFrom`): the places where it cuts hold a
closing parenthesis (`getElem?_of_closeFrom`).

**Every text can be written.**  A text with its escapes is scanned as itself, whatever it holds
(`scanFrom_escape`).  Both directions together are `scanning_lossless`.
-/

namespace WorkflowEngine.Placeholder

/-! ## Writing parts -/

/-- A text with a backslash in front of every `$(`. -/
def escape : List Char → List Char
  | '$' :: '(' :: rest => '\\' :: '$' :: '(' :: escape rest
  | c :: rest => c :: escape rest
  | [] => []

/-- The characters that a part is read from. -/
def Part.source : Part → List Char
  | .text s => escape s.toList
  | .code s => '$' :: '(' :: (s.toList ++ [')'])

/-- The text that some parts are read from. -/
def written (parts : List Part) : String := String.ofList (parts.flatMap Part.source)

/-- A text in which `$(` stands for itself. -/
def escaped (s : String) : String := written [.text s]

/-! ## Escapes -/

/-- Whether a character followed by some others opens an expression. -/
def Opens (c : Char) (rest : List Char) : Prop := c = '$' ∧ rest.head? = some '('

lemma opens_iff {c : Char} {rest : List Char} :
    Opens c rest ↔ c = '$' ∧ ∃ more, rest = '(' :: more := by
  cases rest with
  | nil => simp [Opens]
  | cons d more => simp [Opens]

lemma escape_cons {c : Char} {rest : List Char} (h : ¬ Opens c rest) :
    escape (c :: rest) = c :: escape rest := by
  rw [escape]
  rintro more rfl rfl
  exact h ⟨rfl, rfl⟩

lemma head?_escape {cs : List Char} {c : Char} (h : (escape cs).head? = some c) :
    cs.head? = some c ∨ c = '\\' := by
  fun_cases escape cs with
  | case1 rest =>
      rw [escape] at h
      exact .inr (Option.some.inj h).symm
  | case2 first rest hfirst =>
      rw [escape_cons (fun ho => ?_)] at h
      · exact .inl h
      · obtain ⟨rfl, more, rfl⟩ := opens_iff.mp ho
        exact hfirst more rfl rfl
  | case3 => exact .inl h

/-- Nothing escaped opens an expression. -/
lemma not_opens_of_escape {c : Char} {rest more : List Char} (h : escape rest = c :: more) :
    ¬ Opens c more := by
  fun_cases escape rest with
  | case1 rest =>
      rw [escape] at h
      obtain ⟨rfl, rfl⟩ := List.cons.inj h
      exact fun ho => absurd ho.1 (by decide)
  | case2 first rest hfirst =>
      have hplain : ¬ Opens first rest := fun ho => by
        obtain ⟨rfl, more, rfl⟩ := opens_iff.mp ho
        exact hfirst more rfl rfl
      rw [escape_cons hplain] at h
      obtain ⟨rfl, rfl⟩ := List.cons.inj h
      rintro ⟨hc, hopen⟩
      rcases head?_escape hopen with hopen | hopen
      · exact hplain ⟨hc, hopen⟩
      · exact absurd hopen (by decide)
  | case3 => simp [escape] at h

/-- Two texts escape apart when their boundary does not cut a `$(`. -/
lemma escape_append : ∀ {xs ys : List Char}, (xs.getLast? = some '$' → ys.head? ≠ some '(') →
    escape (xs ++ ys) = escape xs ++ escape ys
  | [], ys, _ => by simp [escape]
  | [c], ys, h => by
      have hplain : ¬ Opens c ys := fun ho => h (by rw [List.getLast?_singleton, ho.1]) ho.2
      rw [List.singleton_append, escape_cons hplain, escape_cons (by simp [Opens])]
      rfl
  | c :: d :: rest, ys, h => by
      have hrest : (d :: rest).getLast? = some '$' → ys.head? ≠ some '(' := by
        rwa [List.getLast?_cons_cons] at h
      by_cases ho : Opens c (d :: rest)
      · obtain ⟨rfl, more, hmore⟩ := opens_iff.mp ho
        obtain ⟨rfl, rfl⟩ := List.cons.inj hmore
        cases rest with
        | nil => rfl
        | cons e rest =>
            have hmore : (e :: rest).getLast? = some '$' → ys.head? ≠ some '(' := by
              rwa [List.getLast?_cons_cons] at hrest
            rw [List.cons_append, List.cons_append, escape, escape, escape_append hmore]
            rfl
      · rw [List.cons_append, escape_cons ho, escape_cons (by simpa [Opens] using ho),
          escape_append hrest, List.cons_append]

/-! ## Closing brackets -/

/-- The place that is found holds the bracket that was expected first. -/
lemma getElem?_of_closeFrom {stack : List Char} {quote : Option Char} {cs : List Char} {n : Nat}
    (hstack : stack ≠ []) (h : closeFrom stack quote cs = some n) : cs[n]? = stack.getLast? := by
  fun_induction closeFrom stack quote cs generalizing n with
  | case1 | case2 | case7 => cases h
  | case3 _ _ _ _ ih | case4 _ _ _ _ _ ih | case5 _ _ _ _ ih | case11 _ _ _ _ _ _ ih =>
      obtain ⟨m, hm, rfl⟩ := Option.map_eq_some_iff.mp h
      simpa using ih hstack hm
  | case6 stack _ _ _ close _ ih =>
      obtain ⟨m, hm, rfl⟩ := Option.map_eq_some_iff.mp h
      have hlast := ih (List.cons_ne_nil close stack) hm
      rw [List.getLast?_cons_of_ne_nil hstack] at hlast
      simpa using hlast
  | case8 first rest _ _ _ top below htop hbelow =>
      cases h
      rw [List.isEmpty_iff.mp hbelow, ← not_not.mp htop]
      rfl
  | case9 first rest _ _ _ top below _ hbelow ih =>
      obtain ⟨m, hm, rfl⟩ := Option.map_eq_some_iff.mp h
      have hne : below ≠ [] := fun hb => hbelow (List.isEmpty_iff.mpr hb)
      rw [List.getLast?_cons_of_ne_nil hne, ← ih hne hm]
      simp
  | case10 => exact absurd rfl hstack

/-- A parenthesis that is closed: its content, the closing parenthesis and what follows. -/
lemma append_of_closeAt? {rest : List Char} {n : Nat} (h : closeAt? '(' rest = some n) :
    rest.take n ++ ')' :: rest.drop (n + 1) = rest := by
  have hclose : rest[n]? = some ')' := getElem?_of_closeFrom (List.cons_ne_nil ')' []) h
  obtain ⟨hn, hget⟩ := List.getElem?_eq_some_iff.mp hclose
  rw [← hget, ← List.drop_eq_getElem_cons hn, List.take_append_drop]

/-! ## What the scanner collects -/

lemma source_flush (literal : List Char) (parts : List Part) :
    (flush literal parts).flatMap Part.source
      = escape literal.reverse ++ parts.flatMap Part.source := by
  rw [flush]
  split_ifs with hempty
  · rw [List.isEmpty_iff.mp hempty]
    rfl
  · rw [List.flatMap_cons, Part.source, String.toList_ofList]

/-- **What was collected, with its escapes, and what is left** are what the parts are written as.
What was collected does not end in the dollar of a `$(` that is still to be read. -/
lemma source_of_scanFrom {literal cs : List Char} {parts : List Part}
    (hcut : ∀ c ∈ literal.head?, ¬ Opens c cs) (h : scanFrom literal cs = some parts) :
    parts.flatMap Part.source = escape literal.reverse ++ cs := by
  fun_induction scanFrom literal cs generalizing parts with
  | case1 literal =>
      cases h
      rw [source_flush]
      rfl
  | case2 literal rest ih =>
      rw [ih (by simp [Opens]) h, List.reverse_cons, List.reverse_cons, List.append_assoc,
        escape_append (by simp), List.append_assoc]
      rfl
  | case3 => cases h
  | case4 literal rest n hclose ih =>
      obtain ⟨tail, htail, rfl⟩ := Option.map_eq_some_iff.mp h
      rw [source_flush, List.flatMap_cons, ih (by simp) htail, Part.source, String.toList_ofList]
      simp only [List.cons_append, List.append_assoc, List.reverse_nil, escape, List.nil_append]
      rw [append_of_closeAt? hclose]
  | case5 literal c rest hescape hopen ih =>
      have hplain : ¬ Opens c rest := fun ho => by
        obtain ⟨rfl, more, rfl⟩ := opens_iff.mp ho
        exact hopen more rfl rfl
      have hboundary : literal.reverse.getLast? = some '$' → [c].head? ≠ some '(' := by
        rw [List.getLast?_reverse]
        exact fun hlast hc => hcut '$' hlast ⟨rfl, hc⟩
      rw [ih (by simpa using hplain) h, List.reverse_cons, escape_append hboundary,
        escape_cons (by simp [Opens]), List.append_assoc]
      rfl

/-- Parts of which none is an empty text and no two texts follow each other. -/
inductive Alternate : List Part → Prop where
  /-- No parts. -/
  | nil : Alternate []
  /-- An expression in front of anything. -/
  | code (s : String) {parts : List Part} (h : Alternate parts) : Alternate (.code s :: parts)
  /-- A text in front of an expression or at the end. -/
  | text {s : String} {parts : List Part} (hs : s ≠ "") (hparts : ∀ t, parts.head? ≠ some (.text t))
      (h : Alternate parts) : Alternate (.text s :: parts)

lemma alternate_flush {parts : List Part} (hparts : ∀ t, parts.head? ≠ some (.text t))
    (h : Alternate parts) (literal : List Char) : Alternate (flush literal parts) := by
  rw [flush]
  split_ifs with hempty
  · exact h
  · refine .text (fun hs => hempty ?_) hparts h
    simpa using hs

lemma alternate_of_scanFrom {literal cs : List Char} {parts : List Part}
    (h : scanFrom literal cs = some parts) : Alternate parts := by
  fun_induction scanFrom literal cs generalizing parts with
  | case1 literal =>
      cases h
      exact alternate_flush (by simp) .nil literal
  | case2 literal rest ih => exact ih h
  | case3 => cases h
  | case4 literal rest n hclose ih =>
      obtain ⟨tail, htail, rfl⟩ := Option.map_eq_some_iff.mp h
      exact alternate_flush (by simp) (.code _ (ih htail)) literal
  | case5 literal c rest hescape hopen ih => exact ih h

lemma Alternate.empty_notMem {parts : List Part} (h : Alternate parts) : .text "" ∉ parts := by
  induction h with
  | nil => exact List.not_mem_nil
  | code s h ih => simpa using ih
  | text hs hparts h ih => simpa [Ne.symm hs] using ih

lemma Alternate.not_adjacent {parts : List Part} (h : Alternate parts) (s t : String) :
    ¬ [.text s, .text t] <:+: parts := by
  induction h with
  | nil => simp
  | code u h ih => simpa [List.infix_cons_iff] using ih
  | text hs hparts h ih =>
      intro hinfix
      rcases List.infix_cons_iff.mp hinfix with hprefix | hinfix
      · obtain ⟨-, rest, hrest⟩ := List.cons_prefix_cons.mp hprefix
        exact hparts t (by rw [← hrest]; rfl)
      · exact ih hinfix

/-! ## Scanning escaped texts -/

/-- An escaped text is collected as it was before, with no expression in it. -/
lemma scanFrom_escape (cs literal : List Char) :
    scanFrom literal (escape cs) = some (flush (cs.reverse ++ literal) []) := by
  fun_induction escape cs generalizing literal with
  | case1 rest ih =>
      rw [scanFrom, ih]
      simp
  | case2 c rest hplain ih =>
      rw [scanFrom, ih]
      · simp
      · rintro more - hmore
        exact not_opens_of_escape hmore ⟨rfl, rfl⟩
      · rintro more rfl hmore
        rcases head?_escape (congrArg List.head? hmore) with hopen | hopen
        · obtain ⟨-, more, rfl⟩ := opens_iff.mp (⟨rfl, hopen⟩ : Opens '$' rest)
          exact hplain more rfl rfl
        · exact absurd hopen (by decide)
  | case3 => rw [scanFrom, List.reverse_nil, List.nil_append]

lemma toList_escaped (s : String) : (escaped s).toList = escape s.toList := by
  rw [escaped, written, String.toList_ofList]
  simp [Part.source]

/-- **Scanning is lossless.**  The parts of a text, written down, are the text; none of them is an
empty text and no two texts are next to each other.  Every text, once escaped, is scanned as the one
text that it is. -/
theorem scanning_lossless :
    (∀ text parts, scan text = some parts →
      written parts = text ∧ .text "" ∉ parts ∧ ∀ s t, ¬ [.text s, .text t] <:+: parts) ∧
    ∀ s, scan (escaped s) = some (if s = "" then [] else [.text s]) := by
  refine ⟨fun text parts h => ⟨?_, ?_, ?_⟩, fun s => ?_⟩
  · rw [written, source_of_scanFrom (by simp) h, List.reverse_nil, escape, List.nil_append,
      String.ofList_toList]
  · exact (alternate_of_scanFrom h).empty_notMem
  · exact (alternate_of_scanFrom h).not_adjacent
  · rw [scan, toList_escaped, scanFrom_escape, List.append_nil, flush, List.reverse_reverse,
      String.ofList_toList]
    simp

/-- An escape at the beginning, then an expression with a parenthesis in a string, then a dollar. -/
theorem mixed_text_lossless :
    scan "\\$(no) $(f(\")\"))$" = some [.text "$(no) ", .code "f(\")\")", .text "$"] ∧
    written [.text "$(no) ", .code "f(\")\")", .text "$"] = "\\$(no) $(f(\")\"))$" := by
  have hscan : scan "\\$(no) $(f(\")\"))$"
      = some [.text "$(no) ", .code "f(\")\")", .text "$"] := by
    simp [scan, scanFrom, closeAt?, closeFrom, closing?, isClosing, isQuote, flush]
  exact ⟨hscan, (scanning_lossless.1 _ _ hscan).1⟩

end WorkflowEngine.Placeholder
