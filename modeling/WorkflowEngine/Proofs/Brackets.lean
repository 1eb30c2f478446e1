import WorkflowEngine.Proofs.Scanning

/-!
# Balanced texts

Where an expression ends is a matter of brackets and strings.  This says which texts are balanced by a
grammar, and that the scanner, which goes through a text once with a stack, finds exactly those.

**The grammar.**  `Balanced`: plain characters, brackets around balanced texts, and strings between quotation
marks (`Quoted`).

**Closing brackets.**  A balanced text is passed over as a whole (`closeFrom_of_balanced`), and what was passed
over when a bracket was closed is balanced (`exists_balanced_of_closeFrom`); so the bracket that closes
another is the one behind a balanced text (`closeAt?_eq_some_iff`).

**Expressions.**  So the forms of expressions are recognised by the grammar, and scanning fails where a
parenthesis that is reached is followed by no balanced text and the closing one (`forms_recognised`).
-/

namespace WorkflowEngine.Placeholder

/-! ## The grammar -/

/-- A bracket and the one that closes it. -/
inductive Pair : Char → Char → Prop
  | round : Pair '(' ')'
  | square : Pair '[' ']'
  | curly : Pair '\x7b' '\x7d'

/-- The characters that open and close strings. -/
def quotationMarks : List Char := ['\x22', '\x27', '\x60']

/-- A character that is neither a bracket nor a quotation mark. -/
structure IsPlain (c : Char) : Prop where
  opensNothing : ∀ close, ¬ Pair c close
  closesNothing : ∀ opening, ¬ Pair opening c
  noMark : c ∉ quotationMarks

/-- What can stand between two quotation marks: a backslash hides the character behind it. -/
inductive Quoted (mark : Char) : List Char → Prop
  | nil : Quoted mark []
  | char {c : Char} {rest : List Char} (hmark : c ≠ mark) (hbackslash : c ≠ '\\') (h : Quoted mark rest) :
      Quoted mark (c :: rest)
  | hidden (c : Char) {rest : List Char} (h : Quoted mark rest) : Quoted mark ('\\' :: c :: rest)

/-- A text whose brackets match and whose strings end. -/
inductive Balanced : List Char → Prop
  | nil : Balanced []
  | plain {c : Char} {rest : List Char} (hc : IsPlain c) (h : Balanced rest) : Balanced (c :: rest)
  | bracket {opening close : Char} {inner rest : List Char} (hpair : Pair opening close)
      (hinner : Balanced inner) (h : Balanced rest) : Balanced (opening :: (inner ++ close :: rest))
  | string {mark : Char} {body rest : List Char} (hmark : mark ∈ quotationMarks) (hbody : Quoted mark body)
      (h : Balanced rest) : Balanced (mark :: (body ++ mark :: rest))

/-- Every character is plain, a quotation mark or a bracket. -/
lemma char_cases (c : Char) :
    IsPlain c ∨ c ∈ quotationMarks ∨ (∃ close, Pair c close) ∨ ∃ opening, Pair opening c := by
  by_cases hmark : c ∈ quotationMarks
  · exact .inr (.inl hmark)
  · by_cases hopens : ∃ close, Pair c close
    · exact .inr (.inr (.inl hopens))
    · by_cases hcloses : ∃ opening, Pair opening c
      · exact .inr (.inr (.inr hcloses))
      · exact .inl ⟨fun close h => hopens ⟨close, h⟩, fun opening h => hcloses ⟨opening, h⟩, hmark⟩

lemma isQuote_eq_true_iff {c : Char} : isQuote c = true ↔ c ∈ quotationMarks := by
  simp only [isQuote, quotationMarks, Bool.or_eq_true, decide_eq_true_eq, List.mem_cons, List.not_mem_nil,
    or_false, Char.ext_iff, ← UInt32.toNat_inj, or_assoc]
  rfl

lemma closing?_eq_some_iff {c close : Char} : closing? c = some close ↔ Pair c close := by
  constructor
  · intro h
    unfold closing? at h
    split_ifs at h with hround hsquare hcurly
    · obtain rfl := Option.some.inj h
      exact hround ▸ .round
    · obtain rfl := Option.some.inj h
      exact hsquare ▸ .square
    · obtain rfl := Option.some.inj h
      exact hcurly ▸ .curly
  · rintro (_ | _ | _) <;> rfl

lemma isClosing_eq_true_iff {c : Char} : isClosing c = true ↔ ∃ opening, Pair opening c := by
  constructor
  · intro h
    simp only [isClosing, Bool.or_eq_true, decide_eq_true_eq] at h
    rcases h with (rfl | rfl) | rfl
    · exact ⟨_, .round⟩
    · exact ⟨_, .square⟩
    · exact ⟨_, .curly⟩
  · rintro ⟨opening, _ | _ | _⟩ <;> rfl

/-! ## Closing brackets -/

section OneCharacter

variable {stack rest : List Char} {c : Char}

lemma closeFrom_plain (hc : IsPlain c) :
    closeFrom stack none (c :: rest) = (closeFrom stack none rest).map (· + 1) := by
  have hquote : ¬ isQuote c = true := fun h => hc.noMark (isQuote_eq_true_iff.mp h)
  have hopening : closing? c = none := by
    rw [Option.eq_none_iff_forall_ne_some]
    exact fun close h => hc.opensNothing close (closing?_eq_some_iff.mp h)
  have hclosing : ¬ isClosing c = true := fun h =>
    (isClosing_eq_true_iff.mp h).elim hc.closesNothing
  rw [closeFrom.eq_def]
  dsimp only
  rw [if_neg hquote, hopening]
  dsimp only
  rw [if_neg hclosing]

lemma closeFrom_mark (hc : c ∈ quotationMarks) :
    closeFrom stack none (c :: rest) = (closeFrom stack (some c) rest).map (· + 1) := by
  rw [closeFrom.eq_def]
  dsimp only
  rw [if_pos (isQuote_eq_true_iff.mpr hc)]

lemma closeFrom_opening {close : Char} (h : Pair c close) :
    closeFrom stack none (c :: rest) = (closeFrom (close :: stack) none rest).map (· + 1) := by
  have hquote : ¬ isQuote c = true := by cases h <;> decide
  rw [closeFrom.eq_def]
  dsimp only
  rw [if_neg hquote, closing?_eq_some_iff.mpr h]

lemma closeFrom_closing {opening top : Char} (h : Pair opening c) :
    closeFrom (top :: stack) none (c :: rest) =
      if top ≠ c then none
      else if stack.isEmpty then some 0 else (closeFrom stack none rest).map (· + 1) := by
  have hquote : ¬ isQuote c = true := by cases h <;> decide
  have hopening : closing? c = none := by cases h <;> rfl
  rw [closeFrom.eq_def]
  dsimp only
  rw [if_neg hquote, hopening]
  dsimp only
  rw [if_pos (isClosing_eq_true_iff.mpr ⟨opening, h⟩)]

lemma closeFrom_string {mark : Char} (h : c ≠ '\\') :
    closeFrom stack (some mark) (c :: rest) =
      (closeFrom stack (if c = mark then none else some mark) rest).map (· + 1) := by
  rw [closeFrom.eq_def]
  dsimp only
  rw [if_neg h]

lemma closeFrom_hidden {mark : Char} :
    closeFrom stack (some mark) ('\\' :: c :: rest) = (closeFrom stack (some mark) rest).map (· + 2) := by
  rw [closeFrom.eq_def]
  dsimp only
  rw [if_pos rfl]

end OneCharacter

lemma map_add_map_add (x : Option Nat) (m n : Nat) :
    (x.map (· + m)).map (· + n) = x.map (· + (m + n)) := by
  cases x <;> simp [Nat.add_assoc]

section Strings

variable {stack : List Char} {mark : Char}

/-- A string is passed over with the mark that ends it. -/
lemma closeFrom_of_quoted (hmark : mark ∈ quotationMarks) {body : List Char} (h : Quoted mark body)
    (rest : List Char) :
    closeFrom stack (some mark) (body ++ mark :: rest) =
      (closeFrom stack none rest).map (· + (body.length + 1)) := by
  induction h with
  | nil =>
      have hbackslash : mark ≠ '\\' := by
        rintro rfl
        exact absurd hmark (by decide)
      rw [List.nil_append, closeFrom_string hbackslash, if_pos rfl]
      rfl
  | char hne hbackslash _ ih =>
      rw [List.cons_append, closeFrom_string hbackslash, if_neg hne, ih, map_add_map_add]
      rfl
  | hidden c _ ih =>
      rw [List.cons_append, List.cons_append, closeFrom_hidden, ih, map_add_map_add]
      rfl

/-- A string that ends is one between two marks. -/
lemma exists_quoted_of_closeFrom {cs : List Char} (h : (closeFrom stack (some mark) cs).isSome) :
    ∃ body rest, Quoted mark body ∧ cs = body ++ mark :: rest ∧ (closeFrom stack none rest).isSome := by
  match cs with
  | [] => simp [closeFrom] at h
  | c :: more =>
      by_cases hbackslash : c = '\\'
      · subst hbackslash
        cases more with
        | nil => simp [closeFrom] at h
        | cons d more =>
            rw [closeFrom_hidden, Option.isSome_map] at h
            obtain ⟨body, rest, hbody, rfl, hrest⟩ := exists_quoted_of_closeFrom h
            exact ⟨'\\' :: d :: body, rest, .hidden d hbody, rfl, hrest⟩
      · rw [closeFrom_string hbackslash, Option.isSome_map] at h
        split_ifs at h with hmark
        · exact ⟨[], more, .nil, by rw [hmark]; rfl, h⟩
        · obtain ⟨body, rest, hbody, rfl, hrest⟩ := exists_quoted_of_closeFrom h
          exact ⟨c :: body, rest, .char hmark hbackslash hbody, rfl, hrest⟩
termination_by cs.length

end Strings

/-- **A balanced text is passed over**, whatever brackets are open. -/
lemma closeFrom_of_balanced {code : List Char} (h : Balanced code) :
    ∀ {stack : List Char} (rest : List Char), stack ≠ [] →
      closeFrom stack none (code ++ rest) = (closeFrom stack none rest).map (· + code.length) := by
  induction h with
  | nil =>
      intro stack rest _
      cases hrest : closeFrom stack none rest <;> simp [hrest]
  | plain hc _ ih =>
      intro stack rest hstack
      rw [List.cons_append, closeFrom_plain hc, ih rest hstack, map_add_map_add]
      rfl
  | @bracket opening close inner back hpair _ _ ihinner ih =>
      intro stack rest hstack
      have hempty : ¬ stack.isEmpty = true := by simpa using hstack
      rw [List.cons_append, List.append_assoc, List.cons_append, closeFrom_opening hpair,
        ihinner _ (List.cons_ne_nil close stack), closeFrom_closing hpair, if_neg (not_not.mpr rfl),
        if_neg hempty, ih rest hstack, map_add_map_add, map_add_map_add, map_add_map_add]
      congr 2
      funext n
      simp only [List.length_cons, List.length_append]
      omega
  | @string mark body back hmark hbody _ ih =>
      intro stack rest hstack
      rw [List.cons_append, List.append_assoc, List.cons_append, closeFrom_mark hmark,
        closeFrom_of_quoted hmark hbody, ih rest hstack, map_add_map_add, map_add_map_add]
      congr 2
      funext n
      simp only [List.length_cons, List.length_append]
      omega

/-- **When a bracket was closed**, the text in front of it was balanced, and the brackets below are closed
further on. -/
lemma exists_balanced_of_closeFrom {top : Char} {below : List Char} :
    ∀ {cs : List Char}, (closeFrom (top :: below) none cs).isSome →
      ∃ code rest, Balanced code ∧ cs = code ++ top :: rest ∧
        (below ≠ [] → (closeFrom below none rest).isSome)
  | [], h => by simp [closeFrom] at h
  | c :: rest, h => by
      rcases char_cases c with hplain | hmark | ⟨close, hpair⟩ | ⟨opening, hpair⟩
      · rw [closeFrom_plain hplain, Option.isSome_map] at h
        obtain ⟨code, back, hcode, rfl, hbelow⟩ := exists_balanced_of_closeFrom h
        exact ⟨c :: code, back, .plain hplain hcode, rfl, hbelow⟩
      · rw [closeFrom_mark hmark, Option.isSome_map] at h
        obtain ⟨body, more, hbody, rfl, hmore⟩ := exists_quoted_of_closeFrom h
        obtain ⟨code, back, hcode, rfl, hbelow⟩ := exists_balanced_of_closeFrom hmore
        exact ⟨c :: (body ++ c :: code), back, .string hmark hbody hcode, by simp, hbelow⟩
      -- The bracket that is opened is closed first, and then the one below it.
      · rw [closeFrom_opening hpair, Option.isSome_map] at h
        obtain ⟨inner, more, hinner, rfl, hmore⟩ := exists_balanced_of_closeFrom h
        obtain ⟨code, back, hcode, rfl, hbelow⟩ :=
          exists_balanced_of_closeFrom (hmore (List.cons_ne_nil top below))
        exact ⟨c :: (inner ++ close :: code), back, .bracket hpair hinner hcode, by simp, hbelow⟩
      · rw [closeFrom_closing hpair] at h
        split_ifs at h with htop hempty
        · cases h
        · obtain rfl := not_not.mp htop
          exact ⟨[], rest, .nil, rfl, fun hne => absurd (List.isEmpty_iff.mp hempty) hne⟩
        · obtain rfl := not_not.mp htop
          rw [Option.isSome_map] at h
          exact ⟨[], rest, .nil, rfl, fun _ => h⟩
termination_by cs => cs.length

/-- The bracket that closes another is the one behind a balanced text. -/
lemma closeAt?_eq_some_iff {opening close : Char} (hpair : Pair opening close) {cs : List Char} {n : Nat} :
    closeAt? opening cs = some n ↔
      ∃ code rest, Balanced code ∧ cs = code ++ close :: rest ∧ code.length = n := by
  have hclosed (code rest : List Char) (hcode : Balanced code) :
      closeFrom [close] none (code ++ close :: rest) = some code.length := by
    rw [closeFrom_of_balanced hcode _ (List.cons_ne_nil close []), closeFrom_closing hpair,
      if_neg (not_not.mpr rfl), List.isEmpty_nil, if_pos rfl, Option.map_some, Nat.zero_add]
  rw [closeAt?, closing?_eq_some_iff.mpr hpair, Option.bind_some]
  constructor
  · intro h
    obtain ⟨code, rest, hcode, rfl, -⟩ := exists_balanced_of_closeFrom (Option.isSome_of_eq_some h)
    rw [hclosed code rest hcode] at h
    exact ⟨code, rest, hcode, rfl, Option.some.inj h⟩
  · rintro ⟨code, rest, hcode, rfl, rfl⟩
    exact hclosed code rest hcode

/-! ## Whole texts -/

lemma trim_eq_iff {text s : String} :
    Text.trim text = s ↔ Text.trimList Text.isWhiteSpace text.toList = s.toList := by
  rw [Text.trim, Text.trimBy, ← String.toList_inj, String.toList_ofList]

lemma functionBody?_eq_some_iff {text body : String} :
    functionBody? text = some body ↔ Balanced body.toList ∧ Text.trim text = "$\x7b" ++ body ++ "\x7d" := by
  have hblock : ("$\x7b" ++ body ++ "\x7d").toList = '$' :: '\x7b' :: (body.toList ++ ['\x7d']) := by
    simp [String.toList_append]
  rw [trim_eq_iff, hblock]
  constructor
  · intro h
    unfold functionBody? at h
    split at h
    · rename_i rest htrimmed
      split at h
      · rename_i n hclose
        split_ifs at h with hend
        obtain ⟨code, more, hcode, rfl, rfl⟩ := (closeAt?_eq_some_iff .curly).mp hclose
        obtain rfl : more = [] := by simpa using hend
        rw [List.take_left] at h
        obtain rfl := Option.some.inj h
        rw [String.toList_ofList]
        exact ⟨hcode, htrimmed⟩
      · cases h
    · cases h
  · rintro ⟨hbody, htrimmed⟩
    have hclose : closeAt? '\x7b' (body.toList ++ ['\x7d']) = some body.toList.length :=
      (closeAt?_eq_some_iff .curly).mpr ⟨_, [], hbody, rfl, rfl⟩
    rw [functionBody?, htrimmed]
    simp only [hclose]
    rw [if_pos (by simp), List.take_left, String.ofList_toList]

/-- Behind a placeholder the text goes on. -/
lemma drop_closed (code rest : List Char) : (code ++ ')' :: rest).drop (code.length + 1) = rest := by
  rw [List.drop_length_add_append, List.drop_one, List.tail_cons]

/-- A placeholder that is closed, and what follows it. -/
lemma scanFrom_placeholder {code rest : List Char} (h : Balanced code) (literal : List Char) :
    scanFrom literal ('$' :: '(' :: (code ++ ')' :: rest)) =
      (scanFrom [] rest).map fun parts => flush literal (.code (String.ofList code) :: parts) := by
  have hclose : closeAt? '(' (code ++ ')' :: rest) = some code.length :=
    (closeAt?_eq_some_iff .round).mpr ⟨code, rest, h, rfl, rfl⟩
  rw [scanFrom, hclose]
  dsimp only
  rw [drop_closed, List.take_left]

lemma eq_nil_of_scanFrom {cs : List Char} (h : scanFrom [] cs = some []) : cs = [] := by
  have hsource := source_of_scanFrom (by simp) h
  rw [List.reverse_nil, escape, List.nil_append] at hsource
  exact hsource.symm

/-- A parenthesis that is not closed. -/
def Unclosed (rest : List Char) : Prop := ∀ code more, Balanced code → rest ≠ code ++ ')' :: more

lemma closeAt?_eq_none_iff {rest : List Char} : closeAt? '(' rest = none ↔ Unclosed rest := by
  constructor
  · rintro h code more hcode rfl
    rw [(closeAt?_eq_some_iff .round).mpr ⟨code, more, hcode, rfl, rfl⟩] at h
    cases h
  · intro h
    rw [Option.eq_none_iff_forall_ne_some]
    intro n hn
    obtain ⟨code, more, hcode, hrest, -⟩ := (closeAt?_eq_some_iff .round).mp hn
    exact h code more hcode hrest

lemma scanFrom_unclosed {rest : List Char} (h : Unclosed rest) (literal : List Char) :
    scanFrom literal ('$' :: '(' :: rest) = none := by
  rw [scanFrom, closeAt?_eq_none_iff.mpr h]

lemma singlePlaceholder?_eq_some_iff {text code : String} :
    singlePlaceholder? text = some code ↔ Balanced code.toList ∧ Text.trim text = "$(" ++ code ++ ")" := by
  have hblock : ("$(" ++ code ++ ")").toList = '$' :: '(' :: (code.toList ++ [')']) := by
    simp [String.toList_append]
  rw [trim_eq_iff, hblock, singlePlaceholder?]
  constructor
  · intro h
    split_ifs at h with hopening
    obtain ⟨rest, htrimmed⟩ := List.isPrefixOf_iff_prefix.mp hopening
    rw [← htrimmed] at h ⊢
    by_cases hclosed : Unclosed rest
    · have hscan : scanFrom [] (['$', '('] ++ rest) = none := scanFrom_unclosed hclosed []
      rw [hscan] at h
      cases h
    · simp only [Unclosed, not_forall, not_not] at hclosed
      obtain ⟨body, more, hbody, rfl⟩ := hclosed
      have hscan : scanFrom [] (['$', '('] ++ (body ++ ')' :: more)) =
          (scanFrom [] more).map fun parts => .code (String.ofList body) :: parts :=
        scanFrom_placeholder hbody []
      rw [hscan] at h
      cases hmore : scanFrom [] more with
      | none => simp [hmore] at h
      | some parts =>
          rw [hmore, Option.map_some] at h
          cases parts with
          | cons part parts => cases h
          | nil =>
              obtain rfl := eq_nil_of_scanFrom hmore
              obtain rfl := Option.some.inj h
              rw [String.toList_ofList]
              exact ⟨hbody, rfl⟩
  · rintro ⟨hcode, htrimmed⟩
    have hopening : ['$', '('].isPrefixOf ('$' :: '(' :: (code.toList ++ [')'])) = true := rfl
    rw [htrimmed, if_pos hopening, scanFrom_placeholder hcode, scanFrom, String.ofList_toList]
    rfl

/-! ## Scanning -/

/-- The places of a text, each given by what is left there, that are reached from its beginning over
escapes, placeholders and other characters. -/
inductive Reaches : List Char → List Char → Prop
  | here (cs : List Char) : Reaches cs cs
  | escape {rest place : List Char} (h : Reaches rest place) : Reaches ('\\' :: '$' :: '(' :: rest) place
  | placeholder {code rest place : List Char} (hcode : Balanced code) (h : Reaches rest place) :
      Reaches ('$' :: '(' :: (code ++ ')' :: rest)) place
  | other {c : Char} {rest place : List Char} (hescape : ¬ (c = '\\' ∧ ['$', '('] <+: rest))
      (hopening : ¬ Opens c rest) (h : Reaches rest place) : Reaches (c :: rest) place

section Reaches

variable {rest place : List Char}

lemma reaches_escape_iff :
    Reaches ('\\' :: '$' :: '(' :: rest) ('$' :: place) ↔ Reaches rest ('$' :: place) := by
  constructor
  · intro h
    cases h with
    | escape h => exact h
    | other hescape => exact absurd ⟨rfl, List.prefix_append ['$', '('] rest⟩ hescape
  · exact .escape

/-- A balanced text that is closed by a parenthesis is determined by what goes on from there. -/
lemma append_round_inj {code code' more more' : List Char} (h : Balanced code) (h' : Balanced code')
    (heq : code ++ ')' :: more = code' ++ ')' :: more') : more = more' := by
  have hclose := (closeAt?_eq_some_iff .round).mpr ⟨code, more, h, rfl, rfl⟩
  have hclose' := (closeAt?_eq_some_iff .round).mpr ⟨code', more', h', heq, rfl⟩
  have hlength : code.length = code'.length := Option.some.inj (hclose.symm.trans hclose')
  exact (List.cons.inj (List.append_inj heq hlength).2).2

lemma reaches_placeholder_iff {code : List Char} (hcode : Balanced code) :
    Reaches ('$' :: '(' :: (code ++ ')' :: rest)) ('$' :: '(' :: place) ↔
      place = code ++ ')' :: rest ∨ Reaches rest ('$' :: '(' :: place) := by
  constructor
  · intro h
    generalize hcs : '$' :: '(' :: (code ++ ')' :: rest) = cs at h
    cases h with
    | here => exact .inl (List.cons.inj (List.cons.inj hcs).2).2.symm
    | escape h => exact absurd (List.cons.inj hcs).1 (by decide)
    | placeholder hcode' h =>
        rw [append_round_inj hcode hcode' (List.cons.inj (List.cons.inj hcs).2).2]
        exact .inr h
    | other _ hopening =>
        obtain ⟨rfl, rfl⟩ := List.cons.inj hcs
        exact absurd ⟨rfl, rfl⟩ hopening
  · rintro (rfl | h)
    · exact .here _
    · exact .placeholder hcode h

lemma reaches_other_iff {c : Char} (hescape : ¬ (c = '\\' ∧ ['$', '('] <+: rest)) (hopening : ¬ Opens c rest) :
    Reaches (c :: rest) ('$' :: '(' :: place) ↔ Reaches rest ('$' :: '(' :: place) := by
  constructor
  · intro h
    generalize hcs : c :: rest = cs at h
    cases h with
    | here =>
        obtain ⟨rfl, rfl⟩ := List.cons.inj hcs
        exact absurd ⟨rfl, rfl⟩ hopening
    | escape h =>
        obtain ⟨rfl, rfl⟩ := List.cons.inj hcs
        exact absurd ⟨rfl, List.prefix_append ['$', '('] _⟩ hescape
    | placeholder hcode h =>
        obtain ⟨rfl, rfl⟩ := List.cons.inj hcs
        exact absurd ⟨rfl, rfl⟩ hopening
    | other _ _ h =>
        obtain ⟨rfl, rfl⟩ := List.cons.inj hcs
        exact h
  · exact .other hescape hopening

end Reaches

/-- **Scanning fails** where a parenthesis is reached that is not closed. -/
lemma scanFrom_eq_none_iff {literal cs : List Char} :
    scanFrom literal cs = none ↔ ∃ place, Reaches cs ('$' :: '(' :: place) ∧ Unclosed place := by
  fun_induction scanFrom literal cs with
  | case1 literal =>
      constructor
      · intro h
        cases h
      · rintro ⟨place, h, -⟩
        cases h
  | case2 literal rest ih => rw [ih, exists_congr fun place => and_congr_left' reaches_escape_iff]
  | case3 literal rest hclose =>
      exact ⟨fun _ => ⟨rest, .here _, closeAt?_eq_none_iff.mp hclose⟩, fun _ => rfl⟩
  | case4 literal rest n hclose ih =>
      obtain ⟨code, more, hcode, rfl, rfl⟩ := (closeAt?_eq_some_iff .round).mp hclose
      rw [drop_closed] at ih
      rw [drop_closed, Option.map_eq_none_iff, ih]
      refine exists_congr fun place => and_congr_left fun hplace => ?_
      rw [reaches_placeholder_iff hcode, or_iff_right]
      exact fun hopen => hplace code more hcode hopen
  | case5 literal c rest hescape hopen ih =>
      have hopening : ¬ Opens c rest := fun ho => by
        obtain ⟨rfl, more, rfl⟩ := opens_iff.mp ho
        exact hopen more rfl rfl
      have hbackslash : ¬ (c = '\\' ∧ ['$', '('] <+: rest) := by
        rintro ⟨rfl, more, rfl⟩
        exact hescape more rfl rfl
      rw [ih, exists_congr fun place => and_congr_left' (reaches_other_iff hbackslash hopening)]

/-- **The forms of expressions are recognised exactly.**  A text is a function block, or a single placeholder,
if and only if what stands in the brackets is balanced, blanks around it apart.  Scanning fails if and only if
some placeholder that is reached outside of others and of escapes does not close. -/
theorem forms_recognised (text : String) :
    (∀ body, functionBody? text = some body ↔
      Balanced body.toList ∧ Text.trim text = "$\x7b" ++ body ++ "\x7d") ∧
    (∀ code, singlePlaceholder? text = some code ↔
      Balanced code.toList ∧ Text.trim text = "$(" ++ code ++ ")") ∧
    (scan text = none ↔ ∃ place, Reaches text.toList ('$' :: '(' :: place) ∧
      ∀ code more, Balanced code → place ≠ code ++ ')' :: more) :=
  ⟨fun _ => functionBody?_eq_some_iff, fun _ => singlePlaceholder?_eq_some_iff, scanFrom_eq_none_iff⟩

end WorkflowEngine.Placeholder
