import Mathlib.Data.List.Induction
import Mathlib.Tactic.Common
import WorkflowEngine.Document.DataType
import WorkflowEngine.Proofs.Outcomes

/-!
# Names of types

The name of a type is that of a base type with suffixes after it: one that adds null and one that makes an array.  It
is read from the end and written from the beginning.

**Names.**  `IsName`: the texts.  `HasName`: the types.  A text is a name if and only if it is the text of a type with
a name (`isName_iff`).

**Addresses.**  The address of the schema may stand in front of a name, and more than once (`ofName_eq_ok_iff`).

**Refusals.**  A text that is not read is refused for what is left of it without its suffixes (`exists_stem`).

**Round trips.**  `names_round_trip`, for texts and for types.
-/

namespace WorkflowEngine.Document.DataType

/-! ## Names -/

/-- What may follow the name of a type. -/
inductive Suffix where
  | optional
  | array

/-- The text of a suffix. -/
def Suffix.text : Suffix → String
  | optional => "?"
  | array => "[]"

/-- The text of some suffixes, one after the other. -/
def suffixText (suffixes : List Suffix) : String := String.join (suffixes.map Suffix.text)

/-- The names of the types that are not made of other types. -/
def baseNames : List String :=
  ["null", "boolean", "int", "long", "float", "double", "string", "File", "Directory", "Any", "stdout", "stderr"]

/-- The name of a base type with any suffixes after it. -/
def IsName (s : String) : Prop := ∃ base ∈ baseNames, ∃ suffixes, s = base ++ suffixText suffixes

/-- The types that have a name: base types, arrays without a binding, and unions of null with another type. -/
inductive HasName : DataType → Prop
  | base {t : DataType} (h : t ∈ bases) : HasName t
  | array {t : DataType} (h : HasName t) : HasName (array t none)
  | optional {t : DataType} (h : HasName t) : HasName (union [null, t])

lemma suffixText_append_singleton (suffixes : List Suffix) (suffix : Suffix) :
    suffixText (suffixes ++ [suffix]) = suffixText suffixes ++ suffix.text := by
  simp [suffixText]

lemma display_optional (t : DataType) : (union [null, t]).display = t.display ++ "?" := by
  rw [display]

lemma display_array (t : DataType) : (array t none).display = t.display ++ "[]" := by
  rw [display]

lemma map_display_bases : bases.map display = baseNames := by rfl

lemma isName_display {t : DataType} (h : HasName t) : IsName t.display := by
  induction h with
  | @base t h =>
      have hmem : t.display ∈ baseNames := map_display_bases ▸ List.mem_map_of_mem h
      exact ⟨t.display, hmem, [], by simp [suffixText]⟩
  | array _ ih =>
      obtain ⟨base, hbase, suffixes, hname⟩ := ih
      refine ⟨base, hbase, suffixes ++ [.array], ?_⟩
      rw [display_array, hname, suffixText_append_singleton, Suffix.text, String.append_assoc]
  | optional _ ih =>
      obtain ⟨base, hbase, suffixes, hname⟩ := ih
      refine ⟨base, hbase, suffixes ++ [.optional], ?_⟩
      rw [display_optional, hname, suffixText_append_singleton, Suffix.text, String.append_assoc]

/-- **The names are the texts of the types that have one.** -/
lemma isName_iff {s : String} : IsName s ↔ ∃ t, HasName t ∧ t.display = s := by
  constructor
  · rintro ⟨base, hbase, suffixes, rfl⟩
    -- From the right: the last suffix is the outermost part of the type.
    induction suffixes using List.reverseRecOn with
    | nil =>
        rw [← map_display_bases, List.mem_map] at hbase
        obtain ⟨t, ht, rfl⟩ := hbase
        exact ⟨t, .base ht, by simp [suffixText]⟩
    | append_singleton suffixes suffix ih =>
        obtain ⟨t, ht, hname⟩ := ih
        rw [suffixText_append_singleton, ← String.append_assoc, ← hname]
        cases suffix with
        | optional => exact ⟨_, .optional ht, display_optional t⟩
        | array => exact ⟨_, .array ht, display_array t⟩
  · rintro ⟨t, ht, rfl⟩
    exact isName_display ht

/-! ## Base types -/

section Bases

variable {t : DataType}

lemma names_of_base (h : t ∈ bases) : t.baseName? = some t.display ∧ ofBase? t.display = some t := by
  simp only [bases, List.mem_cons, List.not_mem_nil, or_false] at h
  rcases h with rfl | rfl | rfl | rfl | rfl | rfl | rfl | rfl | rfl | rfl | rfl | rfl <;> exact ⟨rfl, rfl⟩

lemma ofBase?_eq_some_iff {name : String} : ofBase? name = some t ↔ t ∈ bases ∧ t.display = name := by
  constructor
  · intro h
    have hmem := List.mem_of_find?_eq_some h
    have hname : t.baseName? = some name := by simpa using List.find?_some h
    rw [(names_of_base hmem).1] at hname
    exact ⟨hmem, Option.some.inj hname⟩
  · rintro ⟨hmem, rfl⟩
    exact (names_of_base hmem).2

/-- The name of a base type ends in a letter. -/
lemma exists_last_letter (h : t ∈ bases) :
    ∃ c rest, t.display.toList.reverse = c :: rest ∧ c ≠ '?' ∧ c ≠ ']' := by
  have hall : ∀ t ∈ bases, t.display.toList.reverse.head?.any Char.isAlpha = true := by decide
  have hlast := hall t h
  cases hreverse : t.display.toList.reverse with
  | nil => simp [hreverse] at hlast
  | cons c rest =>
      rw [hreverse] at hlast
      refine ⟨c, rest, rfl, ?_, ?_⟩
      · rintro rfl
        cases hlast
      · rintro rfl
        cases hlast

end Bases

/-- The name of a base type does not begin with the address of the schema. -/
lemma not_address_of_base (h : t ∈ bases) : ¬ schemaAddress <+: t.display.toList := by
  have hall : ∀ t ∈ bases, t.display.toList.length < schemaAddress.length := by decide
  intro haddress
  exact absurd haddress.length_le (Nat.not_le_of_lt (hall t h))

/-! ## Addresses -/

/-- The address of the schema, some times. -/
def addresses (k : ℕ) : List Char := (List.replicate k schemaAddress).flatten

lemma addresses_succ (k : ℕ) : addresses (k + 1) = schemaAddress ++ addresses k := by
  rw [addresses, List.replicate_succ, List.flatten_cons, addresses]

lemma exists_addresses (cs : List Char) : ∃ k, cs = addresses k ++ dropAddress cs := by
  fun_induction dropAddress cs with
  | case1 cs h ih =>
      obtain ⟨rest, rfl⟩ := List.isPrefixOf_iff_prefix.mp h.1
      obtain ⟨k, hrest⟩ := ih
      rw [List.drop_left] at hrest ⊢
      exact ⟨k + 1, by rw [addresses_succ, List.append_assoc, ← hrest]⟩
  | case2 cs h => exact ⟨0, rfl⟩

lemma dropAddress_of_plain {cs : List Char} (h : ¬ schemaAddress <+: cs) : dropAddress cs = cs := by
  rw [dropAddress, dif_neg (by simp [h])]

lemma dropAddress_addresses {cs : List Char} (h : ¬ schemaAddress <+: cs) (k : ℕ) :
    dropAddress (addresses k ++ cs) = cs := by
  induction k with
  | zero => exact dropAddress_of_plain h
  | succ k ih =>
      have hlength : schemaAddress.length = 27 := by decide
      have haddress : schemaAddress.isPrefixOf (schemaAddress ++ (addresses k ++ cs)) = true :=
        List.isPrefixOf_iff_prefix.mpr (List.prefix_append _ _)
      have hpos : 0 < (schemaAddress ++ (addresses k ++ cs)).length := by
        rw [List.length_append]
        omega
      rw [addresses_succ, List.append_assoc, dropAddress, dif_pos ⟨haddress, hpos⟩, List.drop_left, ih]

/-! ## Reading -/

/-- A text that is given from its end is that of a type, after addresses of the schema. -/
def IsTextOf (t : DataType) (cs : List Char) : Prop := ∃ k, cs = t.display.toList.reverse ++ (addresses k).reverse

section Reading

variable {t : DataType} {cs rest : List Char}

lemma isTextOf_optional : IsTextOf (union [null, t]) ('?' :: rest) ↔ IsTextOf t rest := by
  simp [IsTextOf, display_optional]

lemma isTextOf_array : IsTextOf (array t none) (']' :: '[' :: rest) ↔ IsTextOf t rest := by
  simp [IsTextOf, display_array]

/-- The base type of a text without suffixes. -/
lemma ofBase?_of_isTextOf (h : t ∈ bases) (htext : IsTextOf t cs) :
    ofBase? (String.ofList (dropAddress cs.reverse)) = some t := by
  obtain ⟨k, rfl⟩ := htext
  rw [List.reverse_append, List.reverse_reverse, List.reverse_reverse,
    dropAddress_addresses (not_address_of_base h), String.ofList_toList, (names_of_base h).2]

lemma isTextOf_of_ofBase? (h : ofBase? (String.ofList (dropAddress cs.reverse)) = some t) :
    HasName t ∧ IsTextOf t cs := by
  obtain ⟨hmem, hname⟩ := ofBase?_eq_some_iff.mp h
  obtain ⟨k, hk⟩ := exists_addresses cs.reverse
  refine ⟨.base hmem, k, ?_⟩
  rw [hname, String.toList_ofList, ← List.reverse_append, ← hk, List.reverse_reverse]

/-- The text of a type with a name ends in the outermost suffix, or in a letter. -/
lemma cases_of_isTextOf (h : HasName t) (htext : IsTextOf t cs) :
    (∃ u rest, HasName u ∧ t = union [null, u] ∧ cs = '?' :: rest) ∨
      (∃ u rest, HasName u ∧ t = array u none ∧ cs = ']' :: '[' :: rest) ∨
      t ∈ bases ∧ ∃ c rest, cs = c :: rest ∧ c ≠ '?' ∧ c ≠ ']' := by
  obtain ⟨k, rfl⟩ := htext
  cases h with
  | base h =>
      obtain ⟨c, rest, hlast, hquestion, hbracket⟩ := exists_last_letter h
      exact .inr (.inr ⟨h, c, _, by rw [hlast, List.cons_append], hquestion, hbracket⟩)
  | @array u h =>
      refine .inr (.inl ⟨u, u.display.toList.reverse ++ (addresses k).reverse, h, rfl, ?_⟩)
      rw [display_array, String.toList_append, List.reverse_append, List.append_assoc]
      rfl
  | @optional u h =>
      refine .inl ⟨u, u.display.toList.reverse ++ (addresses k).reverse, h, rfl, ?_⟩
      rw [display_optional, String.toList_append, List.reverse_append, List.append_assoc]
      rfl

end Reading

/-- **What is read from the end of a text**: the type with a name whose text it is. -/
lemma ofReversedName_eq_ok_iff (cs : List Char) (t : DataType) :
    ofReversedName cs = .ok t ↔ HasName t ∧ IsTextOf t cs := by
  fun_induction ofReversedName cs generalizing t with
  | case1 rest ih =>
      rw [map_eq_ok_iff]
      constructor
      · rintro ⟨u, hu, rfl⟩
        obtain ⟨hname, htext⟩ := (ih u).mp hu
        exact ⟨.optional hname, isTextOf_optional.mpr htext⟩
      · rintro ⟨hname, htext⟩
        rcases cases_of_isTextOf hname htext with ⟨u, _, hu, rfl, -⟩ | ⟨_, _, -, -, hcs⟩ | ⟨-, c, _, hcs, hquestion, -⟩
        · exact ⟨u, (ih u).mpr ⟨hu, isTextOf_optional.mp htext⟩, rfl⟩
        · simp at hcs
        · exact absurd (List.cons.inj hcs).1.symm hquestion
  | case2 rest ih =>
      rw [map_eq_ok_iff]
      constructor
      · rintro ⟨u, hu, rfl⟩
        obtain ⟨hname, htext⟩ := (ih u).mp hu
        exact ⟨.array hname, isTextOf_array.mpr htext⟩
      · rintro ⟨hname, htext⟩
        rcases cases_of_isTextOf hname htext with ⟨_, _, -, -, hcs⟩ | ⟨u, _, hu, rfl, -⟩ | ⟨-, c, _, hcs, -, hbracket⟩
        · simp at hcs
        · exact ⟨u, (ih u).mpr ⟨hu, isTextOf_array.mp htext⟩, rfl⟩
        · exact absurd (List.cons.inj hcs).1.symm hbracket
  | case3 cs hquestion hbracket name found hfound =>
      rw [Except.ok.injEq]
      constructor
      · rintro rfl
        exact isTextOf_of_ofBase? hfound
      · rintro ⟨hname, htext⟩
        rcases cases_of_isTextOf hname htext with ⟨_, rest, -, -, hcs⟩ | ⟨_, rest, -, -, hcs⟩ | ⟨hmem, -⟩
        · exact (hquestion rest hcs).elim
        · exact (hbracket rest hcs).elim
        · exact Option.some.inj (hfound.symm.trans (ofBase?_of_isTextOf hmem htext))
  | case4 cs hquestion hbracket name hnone =>
      constructor
      · rintro ⟨⟩
      · rintro ⟨hname, htext⟩
        rcases cases_of_isTextOf hname htext with ⟨_, rest, -, -, hcs⟩ | ⟨_, rest, -, -, hcs⟩ | ⟨hmem, -⟩
        · exact (hquestion rest hcs).elim
        · exact (hbracket rest hcs).elim
        · cases hnone.symm.trans (ofBase?_of_isTextOf hmem htext)

/-- A name is read after any number of addresses of the schema, and gives the type whose text it is. -/
lemma ofName_eq_ok_iff {s : String} {t : DataType} :
    ofName s = .ok t ↔ HasName t ∧ ∃ k, s.toList = addresses k ++ t.display.toList := by
  rw [ofName, ofReversedName_eq_ok_iff]
  refine and_congr_right fun _ => exists_congr fun k => ?_
  rw [← List.reverse_append, List.reverse_inj]

/-! ## Refusals -/

/-- A text that does not end in a suffix. -/
def IsStem (s : String) : Prop := ∀ suffix : Suffix, ¬ suffix.text.toList <:+ s.toList

/-- The failure of a text that names no type. -/
def unsupported (name : String) : Failure := .notImplemented .document ("unsupported type '" ++ name ++ "'")

lemma isStem_of_reversed {cs : List Char} (hquestion : ∀ rest, cs ≠ '?' :: rest)
    (hbracket : ∀ rest, cs ≠ ']' :: '[' :: rest) : IsStem (String.ofList cs.reverse) := by
  intro suffix hsuffix
  rw [String.toList_ofList, ← List.reverse_prefix, List.reverse_reverse] at hsuffix
  obtain ⟨rest, rfl⟩ := hsuffix
  cases suffix with
  | optional => exact hquestion rest rfl
  | array => exact hbracket rest rfl

/-- **A text that is refused** is refused for what is left of it without suffixes and addresses. -/
lemma exists_stem {cs : List Char} {failure : Failure} (h : ofReversedName cs = .error failure) :
    ∃ stem suffixes, IsStem stem ∧ String.ofList cs.reverse = stem ++ suffixText suffixes ∧
      failure = unsupported (String.ofList (dropAddress stem.toList)) := by
  fun_induction ofReversedName cs with
  | case1 rest ih =>
      obtain ⟨stem, suffixes, hstem, hrest, hfailure⟩ := ih (map_eq_error_iff.mp h)
      refine ⟨stem, suffixes ++ [.optional], hstem, ?_, hfailure⟩
      rw [suffixText_append_singleton, ← String.append_assoc, ← hrest, List.reverse_cons, String.ofList_append]
      rfl
  | case2 rest ih =>
      obtain ⟨stem, suffixes, hstem, hrest, hfailure⟩ := ih (map_eq_error_iff.mp h)
      refine ⟨stem, suffixes ++ [.array], hstem, ?_, hfailure⟩
      rw [suffixText_append_singleton, ← String.append_assoc, ← hrest, List.reverse_cons, List.reverse_cons,
        List.append_assoc, String.ofList_append]
      rfl
  | case3 => cases h
  | case4 cs hquestion hbracket =>
      cases h
      refine ⟨String.ofList cs.reverse, [], isStem_of_reversed hquestion hbracket, by simp [suffixText], ?_⟩
      rw [String.toList_ofList]
      rfl

/-! ## Round trips -/

lemma ofJson_str (s : String) : ofJson (.str s) = ofName s := rfl

/-- **Names are read and written back.**  The name of a base type with any suffixes is read as a type whose text is
that name; every other text that does not begin with the address of the schema is refused, for what is left of it
without suffixes; and each type that is made of base types by arrays without a binding and by unions with null is read
back from its text. -/
theorem names_round_trip :
    (∀ s, IsName s → ∃ t, ofJson (.str s) = .ok t ∧ t.display = s) ∧
      (∀ s, ¬ IsName s → ¬ schemaAddress <+: s.toList → ∃ stem suffixes,
        IsStem stem ∧ s = stem ++ suffixText suffixes ∧ ofJson (.str s) = .error (unsupported stem)) ∧
      ∀ t, HasName t → ofJson (.str t.display) = .ok t := by
  have hread (t : DataType) (ht : HasName t) : ofJson (.str t.display) = .ok t :=
    ofName_eq_ok_iff.mpr ⟨ht, 0, rfl⟩
  refine ⟨fun s hs => ?_, fun s hs haddress => ?_, hread⟩
  · obtain ⟨t, ht, rfl⟩ := isName_iff.mp hs
    exact ⟨t, hread t ht, rfl⟩
  · rw [ofJson_str]
    cases hname : ofName s with
    | ok t =>
        -- What is read is a name, or begins with an address.
        obtain ⟨ht, k, htext⟩ := ofName_eq_ok_iff.mp hname
        cases k with
        | zero => exact absurd (isName_iff.mpr ⟨t, ht, (String.toList_inj.mp htext).symm⟩) hs
        | succ k =>
            rw [addresses_succ, List.append_assoc] at htext
            exact absurd (htext ▸ List.prefix_append _ _) haddress
    | error failure =>
        obtain ⟨stem, suffixes, hstem, htext, rfl⟩ := exists_stem hname
        rw [List.reverse_reverse, String.ofList_toList] at htext
        have hplain : ¬ schemaAddress <+: stem.toList := fun hstart =>
          haddress (by rw [htext, String.toList_append]; exact hstart.trans (List.prefix_append _ _))
        exact ⟨stem, suffixes, hstem, htext, by rw [dropAddress_of_plain hplain, String.ofList_toList]⟩

/-- Optional lists of files are read and written back, and the name of an unknown type is refused without its
suffixes. -/
theorem file_lists_round_trip :
    (IsName "File[]?" ∧ ∃ t, ofJson (.str "File[]?") = .ok t ∧ t.display = "File[]?") ∧
      (¬ IsName "Thing[]" ∧ ¬ schemaAddress <+: "Thing[]".toList ∧ ∃ stem suffixes,
        IsStem stem ∧ "Thing[]" = stem ++ suffixText suffixes ∧ ofJson (.str "Thing[]") = .error (unsupported stem)) ∧
      HasName (union [null, array (union [null, file]) none]) ∧
      ofJson (.str "File?[]?") = .ok (union [null, array (union [null, file]) none]) := by
  obtain ⟨hnames, hothers, htypes⟩ := names_round_trip
  have hfiles : IsName "File[]?" := ⟨"File", by simp [baseNames], [.array, .optional], rfl⟩
  have hthing : ¬ IsName "Thing[]" := by
    rintro ⟨base, hbase, suffixes, hname⟩
    have hfirst : (base.toList ++ (suffixText suffixes).toList).head? = some 'T' := by
      rw [← String.toList_append, ← hname]
      rfl
    have hall : ∀ base ∈ baseNames, base.toList.head?.any (· ≠ 'T') = true := by decide
    have hother := hall base hbase
    cases hhead : base.toList.head? with
    | none => simp [hhead] at hother
    | some c =>
        obtain rfl : c = 'T' := by simpa [hhead] using hfirst
        simp [hhead] at hother
  have haddress : ¬ schemaAddress <+: "Thing[]".toList := by decide
  have hnested : HasName (union [null, array (union [null, file]) none]) :=
    .optional (.array (.optional (.base (by simp [bases]))))
  exact ⟨⟨hfiles, hnames _ hfiles⟩, ⟨hthing, haddress, hothers _ hthing haddress⟩, hnested, htypes _ hnested⟩

end WorkflowEngine.Document.DataType
