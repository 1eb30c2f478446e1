import Mathlib.Tactic.Common
import WorkflowEngine.Proofs.FileValues
import WorkflowEngine.Proofs.LargeIntegers
import WorkflowEngine.Value.Basic

/-!
# Reading what was written

Values cross the border to JSON at every step and in every expression.

**Likeness.**  What a value is written as is like the value: a text, a null, an integer or an array was
one before (`Json.alike_canonical`).

**Records.**  An object that is read as a record has its members written one by one.  A reader that
refused it refuses it again, because the members that it could read it could read before
(`FileValue.ofJson?_canonicalMembers`, `DirectoryValue.ofJson?_canonicalMembers`).  So a record stays a
record.

**Round trips.**  By induction over the value, reading what was written gives the value back, and
writing what was read gives a plain JSON value back: `round_trip`.
-/

namespace WorkflowEngine

namespace Json

/-! ## Values inside values -/

/-- Whether a value is another one or stands somewhere inside it. -/
inductive Within (k : Json) : Json → Prop where
  /-- Every value is within itself. -/
  | self : Within k k
  /-- Within an item of an array. -/
  | item {item : Json} {items : List Json} (h : item ∈ items) (hk : Within k item) :
      Within k (.arr items)
  /-- Within a member of an object. -/
  | member {key : String} {json : Json} {members : List (String × Json)}
      (h : (key, json) ∈ members) (hk : Within k json) : Within k (.obj members)

@[simp] lemma within_arr_iff {k : Json} {items : List Json} :
    Within k (.arr items) ↔ k = .arr items ∨ ∃ item ∈ items, Within k item := by
  constructor
  · rintro (_ | ⟨hi, hk⟩)
    · exact .inl rfl
    · exact .inr ⟨_, hi, hk⟩
  · rintro (rfl | ⟨item, hi, hk⟩)
    · exact .self
    · exact .item hi hk

@[simp] lemma within_obj_iff {k : Json} {ms : List (String × Json)} :
    Within k (.obj ms) ↔ k = .obj ms ∨ ∃ p ∈ ms, Within k p.2 := by
  constructor
  · rintro (_ | _ | ⟨hp, hk⟩)
    · exact .inl rfl
    · exact .inr ⟨_, hp, hk⟩
  · rintro (rfl | ⟨p, hp, hk⟩)
    · exact .self
    · exact .member hp hk

/-- Within a value that holds no others there is only itself. -/
@[simp] lemma within_iff_eq {k j : Json} (harr : ∀ items, j ≠ .arr items) (hobj : ∀ ms, j ≠ .obj ms) :
    Within k j ↔ k = j := by
  constructor
  · rintro (_ | _ | _)
    · rfl
    · exact absurd rfl (harr _)
    · exact absurd rfl (hobj _)
  · rintro rfl
    exact .self

/-- Whether every number in a value is one that a document can hold. -/
structure Valid (j : Json) : Prop where
  /-- Integers have 63 bits and a sign, or 64 bits. -/
  int_range : ∀ {n : Int}, Within (.int n) j → minSigned ≤ n ∧ n ≤ maxUnsigned
  /-- Other numbers are finite. -/
  float_finite : ∀ {x : Float}, Within (.float x) j → x.isFinite

/-- Whether a value holds nothing that reading changes: no object of class `File` or `Directory` at
any depth, and no integer beyond 63 bits. -/
structure Plain (j : Json) : Prop where
  /-- No object is a file. -/
  not_file : ∀ {ms : List (String × Json)}, Within (.obj ms) j →
    field? (.obj ms) "class" ≠ some (.str "File")
  /-- No object is a directory. -/
  not_directory : ∀ {ms : List (String × Json)}, Within (.obj ms) j →
    field? (.obj ms) "class" ≠ some (.str "Directory")
  /-- Every integer is signed with 64 bits. -/
  int_fits : ∀ {n : Int}, Within (.int n) j → fitsSigned n

lemma Valid.item {items : List Json} (h : Valid (.arr items)) {item : Json} (hi : item ∈ items) :
    item.Valid :=
  ⟨fun hn => h.int_range (.item hi hn), fun hx => h.float_finite (.item hi hx)⟩

lemma Valid.member {ms : List (String × Json)} (h : Valid (.obj ms)) {p : String × Json}
    (hp : p ∈ ms) : p.2.Valid :=
  ⟨fun hn => h.int_range (.member hp hn), fun hx => h.float_finite (.member hp hx)⟩

lemma Plain.item {items : List Json} (h : Plain (.arr items)) {item : Json} (hi : item ∈ items) :
    item.Plain :=
  ⟨fun hk => h.not_file (.item hi hk), fun hk => h.not_directory (.item hi hk),
    fun hn => h.int_fits (.item hi hn)⟩

lemma Plain.member {ms : List (String × Json)} (h : Plain (.obj ms)) {p : String × Json}
    (hp : p ∈ ms) : p.2.Plain :=
  ⟨fun hk => h.not_file (.member hp hk), fun hk => h.not_directory (.member hp hk),
    fun hn => h.int_fits (.member hp hn)⟩

/-! ## What a value is written as -/

/-- What a value is written as once it has been read. -/
def canonical (j : Json) : Json := (Value.ofJson j).toJson

/-- The members of a record, each written as it was read. -/
def canonicalMembers (ms : List (String × Json)) : List (String × Json) :=
  Value.toMembers (Value.ofMembers ms)

lemma canonicalMembers_eq (ms : List (String × Json)) :
    canonicalMembers ms = ms.map fun p => (p.1, p.2.canonical) := by
  induction ms with
  | nil => rfl
  | cons p rest ih => exact congrArg (List.cons _) ih

lemma field?_canonicalMembers (ms : List (String × Json)) (key : String) :
    field? (.obj (canonicalMembers ms)) key = (field? (.obj ms) key).map canonical := by
  rw [canonicalMembers_eq]
  exact OrderedMap.find?_mapValues (fun p => p.2.canonical) ms key

/-- An object whose class says neither is a record, and so is one whose members do not fit. -/
lemma ofObject_eq_record {json : Json} (fields : List (String × Value))
    (hfile : json.field? "class" = some (.str "File") → FileValue.ofJson? json = none)
    (hdirectory : json.field? "class" = some (.str "Directory") → DirectoryValue.ofJson? json = none) :
    Value.ofObject json fields = .record fields := by
  unfold Value.ofObject
  split
  · next h => rw [hfile h]; rfl
  · next h => rw [hdirectory h]; rfl
  · rfl

/-- The three kinds of objects. -/
lemma ofObject_cases (json : Json) (fields : List (String × Value)) :
    (∃ f, FileValue.ofJson? json = some f ∧ Value.ofObject json fields = .file f) ∨
    (∃ d, DirectoryValue.ofJson? json = some d ∧ Value.ofObject json fields = .directory d) ∨
    ((json.field? "class" = some (.str "File") → FileValue.ofJson? json = none) ∧
      (json.field? "class" = some (.str "Directory") → DirectoryValue.ofJson? json = none)) := by
  unfold Value.ofObject
  split
  · next h =>
      cases hf : FileValue.ofJson? json with
      | some f => exact .inl ⟨f, rfl, rfl⟩
      | none => exact .inr (.inr ⟨fun _ => rfl, fun h' => absurd (h.symm.trans h') (by simp)⟩)
  · next h =>
      cases hd : DirectoryValue.ofJson? json with
      | some d => exact .inr (.inl ⟨d, rfl, rfl⟩)
      | none => exact .inr (.inr ⟨fun h' => absurd (h.symm.trans h') (by simp), fun _ => rfl⟩)
  · next hfile hdirectory => exact .inr (.inr ⟨fun h => absurd h hfile, fun h => absurd h hdirectory⟩)

/-- How a value is like what it is written as: what a text, a null, a natural number or an array is
written as was one before. -/
inductive Alike : Json → Json → Prop where
  /-- Most values are written as they are. -/
  | same (j : Json) : Alike j j
  /-- A large integer is written as a floating point number. -/
  | large (n : Int) (x : Float) : Alike (.int n) (.float x)
  /-- An array is written as an array. -/
  | arr (items items' : List Json) : Alike (.arr items) (.arr items')
  /-- An object is written as an object. -/
  | obj (ms ms' : List (String × Json)) : Alike (.obj ms) (.obj ms')

lemma lt_of_not_fitsSigned {n : Int} (hlow : minSigned ≤ n) (h : ¬ fitsSigned n = true) :
    maxSigned < n := by
  rw [fitsSigned, Bool.and_eq_true, decide_eq_true_eq, decide_eq_true_eq] at h
  exact Int.not_le.mp fun hle => h ⟨hlow, hle⟩

lemma alike_canonical_int {n : Int} (h : Valid (.int n)) : Alike (.int n) (canonical (.int n)) := by
  obtain ⟨hlow, hhigh⟩ := h.int_range .self
  rw [canonical, Value.ofJson, Value.ofInt]
  split_ifs with hfits
  · exact .same _
  · rw [Value.toJson, if_pos (isFinite_floatOfInt (lt_of_not_fitsSigned hlow hfits) hhigh)]
    exact .large n _

lemma alike_canonical_obj (ms : List (String × Json)) : Alike (.obj ms) (canonical (.obj ms)) := by
  rw [canonical, Value.ofJson]
  rcases ofObject_cases (.obj ms) (Value.ofMembers ms) with
    ⟨f, -, hf⟩ | ⟨d, -, hd⟩ | ⟨hfile, hdirectory⟩
  · rw [hf, Value.toJson, FileValue.toJson]
    exact .obj ms _
  · rw [hd, Value.toJson, DirectoryValue.toJson]
    exact .obj ms _
  · rw [ofObject_eq_record _ hfile hdirectory, Value.toJson]
    exact .obj ms _

lemma alike_canonical : ∀ {j : Json}, j.Valid → Alike j j.canonical
  | .null, _ | .bool _, _ | .str _, _ => .same _
  | .int _, h => alike_canonical_int h
  | .float x, h => by
      rw [canonical, Value.ofJson, Value.toJson, if_pos (h.float_finite .self)]
      exact .same _
  | .arr items, _ => .arr items _
  | .obj ms, _ => alike_canonical_obj ms

/-! ## Readers -/

/-- Whether a value is a text, a null or an integer. -/
def isScalar : Json → Bool
  | .null | .int _ | .str _ => true
  | _ => false

section Readers

variable {ms : List (String × Json)} {key : String}

/-- A member of a record that was written, and the member that it was. -/
lemma exists_alike_of_field? (h : Valid (.obj ms)) {j' : Json}
    (hj : field? (.obj (canonicalMembers ms)) key = some j') :
    ∃ j, field? (.obj ms) key = some j ∧ Alike j j' := by
  rw [field?_canonicalMembers] at hj
  obtain ⟨j, hfield, rfl⟩ := Option.map_eq_some_iff.mp hj
  exact ⟨j, hfield, alike_canonical (h.member (OrderedMap.mem_of_find? hfield))⟩

lemma field?_eq_none_of_canonical (hj : field? (.obj (canonicalMembers ms)) key = none) :
    field? (.obj ms) key = none := by
  rwa [field?_canonicalMembers, Option.map_eq_none_iff] at hj

/-- A member that is a text, a null or an integer was the same before. -/
lemma field?_of_canonical (h : Valid (.obj ms)) {j' : Json}
    (hj : field? (.obj (canonicalMembers ms)) key = some j') (hscalar : j'.isScalar = true) :
    field? (.obj ms) key = some j' := by
  obtain ⟨j, hfield, halike⟩ := exists_alike_of_field? h hj
  cases halike with
  | same => exact hfield
  | large | arr | obj => cases hscalar

lemma textMember?_of_canonical (h : Valid (.obj ms)) {s : String}
    (hs : textMember? (.obj (canonicalMembers ms)) key = some s) :
    textMember? (.obj ms) key = some s := by
  unfold textMember? at hs ⊢
  split at hs
  · next hfield => rwa [field?_eq_none_of_canonical hfield]
  · next hfield => rwa [field?_of_canonical h hfield rfl]
  · cases hs

lemma optionalText?_of_canonical (h : Valid (.obj ms)) {s : Option String}
    (hs : optionalText? (.obj (canonicalMembers ms)) key = some s) :
    optionalText? (.obj ms) key = some s := by
  unfold optionalText? at hs ⊢
  split at hs
  · next hfield => rwa [field?_eq_none_of_canonical hfield]
  · next hfield => rwa [field?_of_canonical h hfield rfl]
  · next hfield => rwa [field?_of_canonical h hfield rfl]
  · cases hs

lemma optionalNat?_of_canonical (h : Valid (.obj ms)) {n : Option Nat}
    (hn : optionalNat? (.obj (canonicalMembers ms)) key = some n) :
    optionalNat? (.obj ms) key = some n := by
  unfold optionalNat? at hn ⊢
  split at hn
  · next hfield => rwa [field?_eq_none_of_canonical hfield]
  · next hfield => rwa [field?_of_canonical h hfield rfl]
  · next hfield => rwa [field?_of_canonical h hfield rfl]
  · cases hn

lemma exists_itemsMember?_of_canonical (h : Valid (.obj ms)) {items' : List Json}
    (hi : itemsMember? (.obj (canonicalMembers ms)) key = some items') :
    ∃ items, itemsMember? (.obj ms) key = some items := by
  unfold itemsMember? at hi ⊢
  split at hi
  · next hfield => exact ⟨[], by rw [field?_eq_none_of_canonical hfield]⟩
  · next hfield =>
      obtain ⟨j, hj, halike⟩ := exists_alike_of_field? h hfield
      cases halike with
      | same => exact ⟨_, by rw [hj]⟩
      | arr items => exact ⟨items, by rw [hj]⟩
  · cases hi

end Readers

end Json

/-! ## Files -/

namespace FileValue

/-- A record with a member that no file has stays one when it is written. -/
lemma ofJson?_canonicalMembers {ms : List (String × Json)} (hms : Json.Valid (.obj ms))
    (h : ofJson? (.obj ms) = none) : ofJson? (.obj (Json.canonicalMembers ms)) = none := by
  by_contra hsome
  obtain ⟨f, hf⟩ := Option.ne_none_iff_exists'.mp hsome
  obtain ⟨raw, hraw, -⟩ := exists_reads_of_ofJson? hf
  obtain ⟨secondaryFiles, hsecondaryFiles⟩ :=
    Json.exists_itemsMember?_of_canonical hms hraw.secondaryFiles
  have hreads : Reads (.obj ms) { raw with secondaryFiles } :=
    { location := Json.textMember?_of_canonical hms hraw.location
      path := Json.textMember?_of_canonical hms hraw.path
      basename := Json.textMember?_of_canonical hms hraw.basename
      nameroot := Json.textMember?_of_canonical hms hraw.nameroot
      nameext := Json.textMember?_of_canonical hms hraw.nameext
      dirname := Json.textMember?_of_canonical hms hraw.dirname
      contents := Json.optionalText?_of_canonical hms hraw.contents
      size := Json.optionalNat?_of_canonical hms hraw.size
      checksum := Json.optionalText?_of_canonical hms hraw.checksum
      format := Json.optionalText?_of_canonical hms hraw.format
      secondaryFiles := hsecondaryFiles }
  rw [hreads.ofJson?_eq] at h
  cases h

end FileValue

/-! ## Directories -/

namespace DirectoryValue

/-- A record with a member that no directory has stays one when it is written. -/
lemma ofJson?_canonicalMembers {ms : List (String × Json)} (hms : Json.Valid (.obj ms))
    (h : ofJson? (.obj ms) = none) : ofJson? (.obj (Json.canonicalMembers ms)) = none := by
  by_contra hsome
  obtain ⟨d, hd⟩ := Option.ne_none_iff_exists'.mp hsome
  obtain ⟨location, path, basename, listing, hlocation, hpath, hbasename, hlisting, -⟩ :=
    ofJson?_eq_some_iff.mp hd
  obtain ⟨items, hitems⟩ := Json.exists_itemsMember?_of_canonical hms hlisting
  have hread := ofJson?_eq_some_iff.mpr ⟨location, path, basename, items,
    Json.textMember?_of_canonical hms hlocation, Json.textMember?_of_canonical hms hpath,
    Json.textMember?_of_canonical hms hbasename, hitems, rfl⟩
  rw [h] at hread
  cases hread

end DirectoryValue

/-! ## Values -/

namespace Value

lemma ofJson_toJson_file {json : Json} {f : FileValue} (h : FileValue.ofJson? json = some f) :
    ofJson f.toJson = file f := by
  have hread := FileValue.ofJson?_toJson h
  have hclass := f.field?_class_toJson
  rw [FileValue.toJson] at hread hclass ⊢
  rw [ofJson, ofObject, hclass]
  simp only [hread, Option.map_some, Option.getD_some]

lemma ofJson_toJson_directory {json : Json} {d : DirectoryValue}
    (h : DirectoryValue.ofJson? json = some d) : ofJson d.toJson = directory d := by
  have hread := DirectoryValue.ofJson?_toJson h
  have hclass := d.field?_class_toJson
  rw [DirectoryValue.toJson] at hread hclass ⊢
  rw [ofJson, ofObject, hclass]
  simp only [hread, Option.map_some, Option.getD_some]

/-- An object is read again as it is written when its members are. -/
lemma ofJson_canonical_obj {ms : List (String × Json)} (h : Json.Valid (.obj ms))
    (hms : ofMembers (Json.canonicalMembers ms) = ofMembers ms) :
    ofJson (Json.canonical (.obj ms)) = ofJson (.obj ms) := by
  rw [Json.canonical, ofJson]
  rcases Json.ofObject_cases (.obj ms) (ofMembers ms) with
    ⟨f, hread, hf⟩ | ⟨d, hread, hd⟩ | ⟨hfile, hdirectory⟩
  · rw [hf, toJson, ofJson_toJson_file hread]
  · rw [hd, toJson, ofJson_toJson_directory hread]
  · rw [Json.ofObject_eq_record _ hfile hdirectory, toJson]
    change ofJson (.obj (Json.canonicalMembers ms)) = _
    rw [ofJson, hms]
    refine Json.ofObject_eq_record _ (fun hclass => ?_) (fun hclass => ?_)
    · exact FileValue.ofJson?_canonicalMembers h (hfile (Json.field?_of_canonical h hclass rfl))
    · exact DirectoryValue.ofJson?_canonicalMembers h
        (hdirectory (Json.field?_of_canonical h hclass rfl))

mutual

/-- **What a value is written as is read as the value.** -/
lemma ofJson_canonical : ∀ {j : Json}, j.Valid → ofJson j.canonical = ofJson j
  | .null, _ | .bool _, _ | .str _, _ => rfl
  | .int n, h => by
      obtain ⟨hlow, hhigh⟩ := h.int_range .self
      rw [Json.canonical, ofJson, ofInt]
      split_ifs with hfits
      · rw [toJson, ofJson, ofInt, if_pos hfits]
      · rw [toJson, if_pos (isFinite_floatOfInt (Json.lt_of_not_fitsSigned hlow hfits) hhigh), ofJson]
  | .float x, h => by
      rw [Json.canonical, ofJson, toJson, if_pos (h.float_finite .self), ofJson]
  | .arr items, h => congrArg array (ofItems_canonical fun _ hi => h.item hi)
  | .obj _, h => ofJson_canonical_obj h (ofMembers_canonical fun _ hp => h.member hp)

lemma ofItems_canonical : ∀ {items : List Json}, (∀ item ∈ items, item.Valid) →
    ofItems (toItems (ofItems items)) = ofItems items
  | [], _ => rfl
  | item :: rest, h => by
      rw [ofItems, toItems, ofItems, ofItems_canonical fun i hi => h i (List.mem_cons_of_mem _ hi)]
      exact congrArg (· :: ofItems rest) (ofJson_canonical (h item List.mem_cons_self))

lemma ofMembers_canonical : ∀ {ms : List (String × Json)}, (∀ p ∈ ms, p.2.Valid) →
    ofMembers (Json.canonicalMembers ms) = ofMembers ms
  | [], _ => rfl
  | (key, j) :: rest, h => by
      have hrest := ofMembers_canonical fun p hp => h p (List.mem_cons_of_mem (key, j) hp)
      rw [Json.canonicalMembers] at hrest ⊢
      rw [ofMembers, toMembers, ofMembers, hrest]
      exact congrArg (fun v => (key, v) :: ofMembers rest) (ofJson_canonical (h _ List.mem_cons_self))

end

mutual

/-- **A plain value is written as it was read.** -/
lemma canonical_of_plain : ∀ {j : Json}, j.Valid → j.Plain → j.canonical = j
  | .null, _, _ | .bool _, _, _ | .str _, _, _ => rfl
  | .int n, _, h => by
      rw [Json.canonical, ofJson, ofInt, if_pos (h.int_fits .self), toJson]
  | .float x, h, _ => by rw [Json.canonical, ofJson, toJson, if_pos (h.float_finite .self)]
  | .arr _, h, hplain =>
      congrArg Json.arr (canonicalItems_of_plain (fun _ hi => h.item hi) fun _ hi => hplain.item hi)
  | .obj ms, h, hplain => by
      rw [Json.canonical, ofJson, Json.ofObject_eq_record _ (fun hc => absurd hc (hplain.not_file .self))
        (fun hc => absurd hc (hplain.not_directory .self)), toJson]
      exact congrArg Json.obj
        (canonicalMembers_of_plain (fun _ hp => h.member hp) fun _ hp => hplain.member hp)

lemma canonicalItems_of_plain : ∀ {items : List Json}, (∀ item ∈ items, item.Valid) →
    (∀ item ∈ items, item.Plain) → toItems (ofItems items) = items
  | [], _, _ => rfl
  | item :: rest, h, hplain => by
      rw [ofItems, toItems, canonicalItems_of_plain (fun i hi => h i (List.mem_cons_of_mem _ hi))
        fun i hi => hplain i (List.mem_cons_of_mem _ hi)]
      exact congrArg (· :: rest)
        (canonical_of_plain (h item List.mem_cons_self) (hplain item List.mem_cons_self))

lemma canonicalMembers_of_plain : ∀ {ms : List (String × Json)}, (∀ p ∈ ms, p.2.Valid) →
    (∀ p ∈ ms, p.2.Plain) → toMembers (ofMembers ms) = ms
  | [], _, _ => rfl
  | (key, j) :: rest, h, hplain => by
      rw [ofMembers, toMembers, canonicalMembers_of_plain
        (fun p hp => h p (List.mem_cons_of_mem _ hp)) fun p hp => hplain p (List.mem_cons_of_mem _ hp)]
      exact congrArg (fun v => (key, v) :: rest)
        (canonical_of_plain (h _ List.mem_cons_self) (hplain _ List.mem_cons_self))

end

/-- **Round trips.**  A value that was read is read again as it is written, whatever its objects hold;
and a value without files, directories and integers beyond 63 bits is written as it was read. -/
theorem round_trip {j : Json} (h : j.Valid) :
    ofJson (toJson (ofJson j)) = ofJson j ∧ (j.Plain → toJson (ofJson j) = j) :=
  ⟨ofJson_canonical h, canonical_of_plain h⟩

/-- An integer, a number, an array with a null and a truth value. -/
def sampleJson : Json :=
  .obj [("n", .int 3), ("x", .float 1.5), ("tags", .arr [.str "a", .null]), ("ok", .bool true)]

/-- A file without a location, whose name is not that of its path, and one whose location is no text. -/
def sampleFiles : Json :=
  .arr [.obj [("class", .str "File"), ("path", .str "/data/x.txt"), ("basename", .str "y"), ("size", .int 5)],
    .obj [("class", .str "File"), ("location", .int 7)]]

/-- The first file gets the names of its path, and the second object is no file; both are read again as they are
written. -/
theorem sample_round_trip :
    sampleJson.Valid ∧ sampleJson.Plain ∧
      ofJson (toJson (ofJson sampleJson)) = ofJson sampleJson ∧
      toJson (ofJson sampleJson) = sampleJson ∧
      sampleFiles.Valid ∧
      ofJson sampleFiles = .array [.file { FileValue.ofLocation "/data/x.txt" with size := some 5 },
        .record [("class", .str "File"), ("location", .int 7)]] ∧
      ofJson (toJson (ofJson sampleFiles)) = ofJson sampleFiles := by
  have hvalid : sampleJson.Valid :=
    { int_range := by simp [sampleJson, minSigned, maxUnsigned]
      float_finite := by simp [sampleJson]; decide }
  have hplain : sampleJson.Plain :=
    { not_file := by simp [sampleJson, Json.field?, Json.members, OrderedMap.find?_cons]
      not_directory := by simp [sampleJson, Json.field?, Json.members, OrderedMap.find?_cons]
      int_fits := by simp [sampleJson, fitsSigned, minSigned, maxSigned] }
  obtain ⟨hread, hwritten⟩ := round_trip hvalid
  have hfiles : sampleFiles.Valid :=
    { int_range := by simp [sampleFiles, minSigned, maxUnsigned]
      float_finite := by simp [sampleFiles] }
  exact ⟨hvalid, hplain, hread, hwritten hplain, hfiles, rfl, (round_trip hfiles).1⟩

end Value

end WorkflowEngine
