import WorkflowEngine.Proofs.Outcomes
import WorkflowEngine.Proofs.Spellings

/-!
# Sections and types in another spelling

The readers that documents are made up of are compared with themselves, on a value and on another spelling
of it: they give the same result, or both fail.

**Names.**  An absolute form has the same local name (`localName_eq`), and stands for the same thing when it
is seen from its scope (`qualify_eq`).

**Sections.**  A list and a map give the same names and bodies, up to the spelling of these: `agree_entries`.
Requirements are the same in every spelling: `Requirement.agree_listOfJson`.

**Types.**  A type is read with as much fuel as it has levels.  Spellings differ in their levels, so that all
readings with enough fuel are compared (`DataType.readsAlike`): what is left over makes no difference.
-/

namespace WorkflowEngine.Document

open Ident (IsScope localName qualify)
open Relation (ReflGen)

/-! ## Names -/

lemma localName_eq {scope i j : String} (h : ReflGen (Absolute scope) i j) : localName j = localName i := by
  cases h with
  | refl => rfl
  | single h =>
      obtain ⟨-, rfl⟩ := h
      rw [localName, localName, Ident.toList_append_slash, Ident.afterLast_append_cons]

/-- An absolute form stands for the same thing, seen from the scope. -/
lemma qualify_eq {scope i j : String} (hscope : IsScope scope) (h : ReflGen (Absolute scope) i j) :
    qualify scope j = qualify scope i := by
  cases h with
  | refl => rfl
  | single h =>
      obtain ⟨hrelative, rfl⟩ := h
      have habsolute : IsScope (scope ++ "/" ++ i) := by
        rw [String.append_assoc]
        exact hscope.append _
      have hhash : (scope ++ "/" ++ i).toList.contains '#' = true := by
        obtain ⟨rest, hrest⟩ := List.head?_eq_some_iff.mp habsolute
        rw [hrest]
        simp
      rw [qualify, if_pos hhash, Ident.normalize_of_isScope habsolute, qualify,
        if_neg (by simpa using hrelative)]

/-- Names are read alike when a change of them makes no difference. -/
lemma strings_map {names : String → String → Prop} {f : String → String}
    (hf : ∀ s t, names s t → f t = f s) {x y : Option Json}
    (h : Option.Rel (ReflGen (TextsVariant names)) x y) : (strings y).map f = (strings x).map f := by
  cases h with
  | none => rfl
  | some h =>
      cases h with
      | refl => rfl
      | single h =>
          cases h with
          | one h => exact congrArg (fun s => [s]) (hf _ _ h)
          | list h =>
              rw [strings, strings]
              induction h with
              | nil => rfl
              | cons hab _ ih =>
                  cases hab with
                  | refl =>
                      rw [List.filterMap_cons, List.filterMap_cons]
                      split
                      · exact ih
                      · rw [List.map_cons, List.map_cons, ih]
                  | single hab =>
                      obtain ⟨h⟩ := hab
                      exact congrArg₂ List.cons (hf _ _ h) ih

/-! ## Sections -/

section Entries

variable {σ : Spelling}

lemma agree_listEntry {a b : Json} (h : ReflGen (ItemVariant σ) a b) :
    Agree (EntryVariant σ) (listEntry σ.keyField a) (listEntry σ.keyField b) := by
  cases h with
  | refl => exact .refl (EntryVariant.refl σ) _
  | single h =>
      cases h with
      | bare h => exact .ok ⟨.single h, .refl _ _ _⟩
      | object hid h =>
          obtain ⟨j, hj, hname⟩ := h.entry_id hid
          rw [listEntry, listEntry, Json.field?, Json.field?, Json.members, Json.members, hid, hj]
          exact .ok ⟨hname, h.entry_fields⟩

lemma exists_entries_of_keyed {as : List Json} {ns : List (String × Json)}
    (h : List.Forall₂ (KeyedVariant σ) as ns) :
    ∃ es, as.mapM (listEntry σ.keyField) = .ok es ∧
      List.Forall₂ (EntryVariant σ) es (ns.map fun p => (p.1, mapBody σ.shorthand p.2)) := by
  induction h with
  | nil => exact ⟨[], rfl, .nil⟩
  | cons h _ ih =>
      obtain ⟨id, hitem, hentry⟩ := h.entry
      obtain ⟨es, hes, hentries⟩ := ih
      refine ⟨_ :: es, ?_, .cons hentry hentries⟩
      rw [List.mapM_cons, hitem, hes]
      rfl

/-- **A section** gives the same entries in every spelling. -/
lemma agree_entries {x y : Option Json} (h : Option.Rel (ReflGen (SectionVariant σ)) x y) :
    Agree (List.Forall₂ (EntryVariant σ)) (entries x σ.keyField σ.shorthand)
      (entries y σ.keyField σ.shorthand) := by
  cases h with
  | none => exact .ok .nil
  | some h =>
      cases h with
      | refl => exact .refl (fun _ => List.forall₂_same.mpr fun _ _ => .refl σ _) _
      | single h =>
          cases h with
          | list h => exact .mapM (h.imp fun _ _ => agree_listEntry)
          | map h =>
              refine .ok (List.forall₂_map_left_iff.mpr (List.forall₂_map_right_iff.mpr (h.imp ?_)))
              exact fun p q hpq => ⟨hpq.1, fields_mapBody hpq.2⟩
          | keyed h =>
              obtain ⟨es, hes, hentries⟩ := exists_entries_of_keyed h
              rw [entries, hes]
              exact .ok hentries

end Entries

/-! ## Requirements -/

lemma eq_of_unchanged {α : Type} {a b : α} (h : ReflGen (fun _ _ => False) a b) : b = a := by
  cases h with
  | refl => rfl
  | single h => exact h.elim

lemma MembersVariant.eq {changes : Changes} {ms ns : List (String × Json)}
    (hchanges : ∀ key R a b, changes.find? key = some R → ¬ R a b) (h : MembersVariant changes ms ns) :
    ns = ms := by
  induction h with
  | nil => rfl
  | @cons p q _ _ hpq _ ih =>
      obtain ⟨k, v⟩ := p
      obtain ⟨k', w⟩ := q
      obtain ⟨rfl, hvalue⟩ := hpq
      cases hvalue with
      | refl => rw [ih]
      | single h =>
          obtain ⟨R, hR, hvw⟩ := h
          exact absurd hvw (hchanges _ R v w hR)

namespace Requirement

/-- The only thing that can change about an entry is its class, and that cannot either. -/
lemma eq_of_entry {id : String} {ms ns : List (String × Json)}
    (h : MembersVariant (requirementSpelling.entry id) ms ns) : ns = ms := by
  refine h.eq fun key R a b hR hab => ?_
  rw [Spelling.entry, OrderedMap.find?_cons] at hR
  split_ifs at hR
  · obtain rfl := Option.some.inj hR
    cases hab with
    | text h => exact h
  · cases hR

lemma eq_of_item {a b : Json} (h : ReflGen (ItemVariant requirementSpelling) a b) : b = a := by
  cases h with
  | refl => rfl
  | single h =>
      cases h with
      | bare h => exact h.elim
      | object hid h => rw [eq_of_entry h]

lemma eq_of_body {id : String} {a b : Json} (h : ReflGen (BodyVariant requirementSpelling id) a b) :
    b = a := by
  cases h with
  | refl => rfl
  | single h =>
      cases h with
      | object h => rw [eq_of_entry h]
      | short ha hb h => exact h.eq_of_find rfl

/-- A requirement is read from its members, in whatever order. -/
lemma agree_ofJson {a b : Json} (h : ∀ key, b.field? key = a.field? key) :
    Agree Eq (ofJson a) (ofJson b) := by
  rw [ofJson, ofJson]
  simp only [h, optionalString]
  split
  · exact .of_eq rfl
  · exact .error _ _

/-- The class that a map holds as a key is that of the list. -/
lemma agree_keyed {item : Json} {q : String × Json} (h : KeyedVariant requirementSpelling item q) :
    Agree Eq (ofJson item) (ofJson (withClass q.1 q.2)) := by
  refine agree_ofJson fun key => ?_
  have hclass (id : String) (ms : List (String × Json))
      (hid : OrderedMap.find? ms "class" = some (.str id)) (ns : List (String × Json))
      (hns : ∀ key, key ≠ "class" → OrderedMap.find? ns key = OrderedMap.find? ms key) :
      (withClass id (.obj ns)).field? key = Json.field? (.obj ms) key := by
    rw [withClass, Json.field?, Json.field?, Json.members, Json.members, OrderedMap.find?_insert]
    split_ifs with hkey
    · rw [← hkey, hid]
    · exact hns key (Ne.symm hkey)
  cases h with
  | @kept id j ms ns hid hname h =>
      obtain rfl := eq_of_unchanged hname
      obtain rfl := eq_of_entry h
      exact hclass _ _ hid _ fun _ _ => rfl
  | @dropped id j ms ns hid hname h =>
      obtain rfl := eq_of_unchanged hname
      obtain rfl := eq_of_entry h
      exact hclass _ _ hid _ fun key hkey => OrderedMap.find?_erase_of_ne hkey

/-- **Requirements** are the same in every spelling. -/
lemma agree_listOfJson {x y : Option Json}
    (h : Option.Rel (ReflGen (SectionVariant requirementSpelling)) x y) :
    Agree Eq (listOfJson x) (listOfJson y) := by
  cases h with
  | none => exact .of_eq rfl
  | some h =>
      cases h with
      | refl => exact .of_eq rfl
      | single h =>
          cases h with
          | list h =>
              refine .mapM_eq (h.imp fun a b hab => ?_)
              exact .of_eq (congrArg ofJson (eq_of_item hab))
          | map h =>
              refine .mapM_eq (h.imp fun p q hpq => .of_eq ?_)
              exact congrArg₂ (fun className body => ofJson (withClass className body))
                (eq_of_unchanged hpq.1) (eq_of_body hpq.2)
          | keyed h => exact .mapM_eq (h.imp fun _ _ => agree_keyed)

end Requirement

/-! ## Levels -/

lemma jsonHeight_pos (json : Json) : 0 < jsonHeight json := by
  cases json <;> simp [jsonHeight]

lemma jsonHeight_item {items : List Json} {item : Json} (h : item ∈ items) :
    jsonHeight item ≤ itemsHeight items := by
  induction items with
  | nil => cases h
  | cons first rest ih =>
      rw [itemsHeight]
      rcases List.mem_cons.mp h with rfl | h
      · exact Nat.le_max_left _ _
      · exact (ih h).trans (Nat.le_max_right _ _)

lemma jsonHeight_member {ms : List (String × Json)} {key : String} {value : Json} (h : (key, value) ∈ ms) :
    jsonHeight value ≤ membersHeight ms := by
  induction ms with
  | nil => cases h
  | cons p rest ih =>
      obtain ⟨k, v⟩ := p
      rw [membersHeight]
      rcases List.mem_cons.mp h with h | h
      · obtain ⟨-, rfl⟩ := Prod.mk.inj h
        exact Nat.le_max_left _ _
      · exact (ih h).trans (Nat.le_max_right _ _)

/-- A member has fewer levels than the object. -/
lemma jsonHeight_field? {json : Json} {key : String} {value : Json} (h : json.field? key = some value) :
    jsonHeight value < jsonHeight json := by
  cases json with
  | obj members =>
      rw [jsonHeight]
      exact Nat.lt_succ_of_le (jsonHeight_member (OrderedMap.mem_of_find? h))
  | _ => cases h

lemma jsonHeight_of_listEntry {keyField : String} {item : Json} {e : String × Json}
    (h : listEntry keyField item = .ok e) {key : String} {value : Json}
    (hvalue : e.2.field? key = some value) : jsonHeight value < jsonHeight item := by
  unfold listEntry at h
  split at h
  · obtain rfl := Except.ok.inj h
    cases hvalue
  · split at h
    · obtain rfl := Except.ok.inj h
      exact jsonHeight_field? hvalue
    · cases h
  · cases h

/-- The members of the entries of a section have fewer levels than the section. -/
lemma jsonHeight_of_entries {x : Option Json} {keyField shorthand : String} {es : List (String × Json)}
    (h : entries x keyField shorthand = .ok es) {e : String × Json} (he : e ∈ es) {key : String}
    {value : Json} (hvalue : e.2.field? key = some value) :
    ∃ own, x = some own ∧ jsonHeight value < jsonHeight own := by
  unfold entries at h
  split at h
  · obtain rfl := Except.ok.inj h
    cases he
  · obtain rfl := Except.ok.inj h
    cases he
  · rename_i items
    obtain ⟨item, hitem, hentry⟩ := forall₂_mem_right (mapM_eq_ok_iff.mp h) he
    refine ⟨_, rfl, ?_⟩
    calc
      jsonHeight value < jsonHeight item := jsonHeight_of_listEntry hentry hvalue
      _ ≤ itemsHeight items := jsonHeight_item hitem
      _ ≤ jsonHeight (.arr items) := by rw [jsonHeight]; exact Nat.le_succ _
  · rename_i members
    obtain rfl := Except.ok.inj h
    obtain ⟨⟨id, body⟩, hmem, rfl⟩ := List.mem_map.mp he
    have hbody : jsonHeight body < jsonHeight (.obj members) := by
      rw [jsonHeight]
      exact Nat.lt_succ_of_le (jsonHeight_member hmem)
    refine ⟨_, rfl, lt_of_le_of_lt ?_ hbody⟩
    unfold mapBody at hvalue
    dsimp only at hvalue
    split at hvalue
    · exact (jsonHeight_field? hvalue).le
    · rw [Json.field?, Json.members, OrderedMap.find?_cons] at hvalue
      split_ifs at hvalue
      · exact (Option.some.inj hvalue) ▸ le_rfl
      · cases hvalue
  · cases h

/-! ## Types -/

lemma rel_imp_of_eq {α β : Type} {R S : α → β → Prop} {x : Option α} {y : Option β}
    (h : Option.Rel R x y) (himp : ∀ v w, x = some v → y = some w → R v w → S v w) :
    Option.Rel S x y := by
  cases h with
  | none => exact .none
  | some h => exact .some (himp _ _ rfl rfl h)

lemma optionalString_eq {a b : Json} {key : String} (h : b.field? key = a.field? key) :
    optionalString b key = optionalString a key := by
  rw [optionalString, optionalString, h]

lemma readMember?_eq {α : Type} {reader : Json → Outcome α} {a b : Json} {key : String}
    (h : b.field? key = a.field? key) : readMember? reader b key = readMember? reader a key := by
  rw [readMember?, readMember?, h]

lemma agree_readMember? {α : Type} {f g : Json → Outcome α} {a b : Json} {key : String}
    (h : Option.Rel (fun v w => Agree Eq (f v) (g w)) (a.field? key) (b.field? key)) :
    Agree Eq (readMember? f a key) (readMember? g b key) := by
  rw [readMember?, readMember?]
  generalize a.field? key = x at h
  generalize b.field? key = y at h
  cases h with
  | none => exact .of_eq rfl
  | some h => exact h.map fun _ _ h => congrArg some h

namespace DataType

section Inner

variable {R : Json → Json → Prop} {fuel fuel' : Nat}

/-- Types inside a type are read alike, as long as there is fuel for them. -/
def ReadsAlike (R : Json → Json → Prop) (fuel fuel' : Nat) : Prop :=
  ∀ a b, ReflGen R a b → jsonHeight a ≤ fuel → jsonHeight b ≤ fuel' →
    Agree Eq (ofJsonUpTo fuel a) (ofJsonUpTo fuel' b)

lemma agree_union (hinner : ReadsAlike R fuel fuel') {as bs : List Json}
    (h : List.Forall₂ (ReflGen R) as bs) (ha : jsonHeight (.arr as) ≤ fuel + 1)
    (hb : jsonHeight (.arr bs) ≤ fuel' + 1) :
    Agree Eq (ofJsonUpTo (fuel + 1) (.arr as)) (ofJsonUpTo (fuel' + 1) (.arr bs)) := by
  rw [jsonHeight] at ha hb
  rw [ofJsonUpTo, ofJsonUpTo]
  refine Agree.map (.mapM_eq (forall₂_imp_of_mem h fun a ha' b hb' hab => ?_)) fun _ _ h => congrArg union h
  have hfuel := jsonHeight_item ha'
  have hfuel' := jsonHeight_item hb'
  exact hinner a b hab (by omega) (by omega)

/-- The types of inner members are read alike. -/
lemma agree_inner (hinner : ReadsAlike R fuel fuel') {x y : Option Json}
    (h : Option.Rel (ReflGen R) x y) (hx : ∀ value, x = some value → jsonHeight value ≤ fuel)
    (hy : ∀ value, y = some value → jsonHeight value ≤ fuel') :
    Option.Rel (fun v w => Agree Eq (ofJsonUpTo fuel v) (ofJsonUpTo fuel' w)) x y :=
  rel_imp_of_eq h fun v w hv hw hvw => hinner v w hvw (hx v hv) (hy w hw)

/-- A field of a record. -/
lemma agree_field (hinner : ReadsAlike R fuel fuel') {p q : String × Json}
    (h : EntryVariant (fieldSpelling R) p q)
    (hp : ∀ value, p.2.field? "type" = some value → jsonHeight value ≤ fuel)
    (hq : ∀ value, q.2.field? "type" = some value → jsonHeight value ≤ fuel') :
    Agree Eq
      (do
        let type ← readMember? (ofJsonUpTo fuel) p.2 "type"
        let binding ← readMember? InputBinding.ofJson p.2 "inputBinding"
        return (Ident.localName p.1, type.getD any, binding))
      (do
        let type ← readMember? (ofJsonUpTo fuel') q.2 "type"
        let binding ← readMember? InputBinding.ofJson q.2 "inputBinding"
        return (Ident.localName q.1, type.getD any, binding)) := by
  have htype : Option.Rel (ReflGen R) (p.2.field? "type") (q.2.field? "type") :=
    h.2.changed "type" (show "type" ≠ "name" by decide) rfl
  have hbinding : q.2.field? "inputBinding" = p.2.field? "inputBinding" :=
    h.2.eq "inputBinding" (show "inputBinding" ≠ "name" by decide) rfl
  have hname : q.1 = p.1 := eq_of_unchanged h.1
  refine (agree_readMember? (agree_inner hinner htype hp hq)).bind_eq fun type _ => ?_
  refine (Agree.of_eq (readMember?_eq hbinding)).bind_eq fun binding _ => ?_
  exact .of_eq (by rw [hname])

lemma agree_schema (hinner : ReadsAlike R fuel fuel') {ms ns : List (String × Json)}
    (h : MembersVariant (schemaChanges R) ms ns) (hms : jsonHeight (.obj ms) ≤ fuel + 1)
    (hns : jsonHeight (.obj ns) ≤ fuel' + 1) :
    Agree Eq (ofJsonUpTo (fuel + 1) (.obj ms)) (ofJsonUpTo (fuel' + 1) (.obj ns)) := by
  have htype : Json.field? (.obj ns) "type" = Json.field? (.obj ms) "type" :=
    eq_of_rel rfl (h.find? "type")
  have hsymbols : Json.field? (.obj ns) "symbols" = Json.field? (.obj ms) "symbols" :=
    eq_of_rel rfl (h.find? "symbols")
  have hbinding : Json.field? (.obj ns) "inputBinding" = Json.field? (.obj ms) "inputBinding" :=
    eq_of_rel rfl (h.find? "inputBinding")
  have hitems : Option.Rel (ReflGen R) (Json.field? (.obj ms) "items") (Json.field? (.obj ns) "items") :=
    changed_of_rel rfl (h.find? "items")
  have hfields : Option.Rel (ReflGen (SectionVariant (fieldSpelling R)))
      (Json.field? (.obj ms) "fields") (Json.field? (.obj ns) "fields") :=
    changed_of_rel rfl (h.find? "fields")
  have hlevels (key : String) (value : Json) (hvalue : Json.field? (.obj ms) key = some value) :
      jsonHeight value ≤ fuel := by
    have hlt := jsonHeight_field? hvalue
    omega
  have hlevels' (key : String) (value : Json) (hvalue : Json.field? (.obj ns) key = some value) :
      jsonHeight value ≤ fuel' := by
    have hlt := jsonHeight_field? hvalue
    omega
  rw [ofJsonUpTo, ofJsonUpTo, htype, hsymbols]
  split
  case h_1 =>
    have hfuel := hlevels "items"
    have hfuel' := hlevels' "items"
    generalize Json.field? (.obj ms) "items" = x at hitems hfuel
    generalize Json.field? (.obj ns) "items" = y at hitems hfuel'
    cases hitems with
    | none => exact .error _ _
    | some hitems =>
        refine (Agree.of_eq (readMember?_eq hbinding)).bind_eq fun binding _ => ?_
        refine (hinner _ _ hitems (hfuel _ rfl) (hfuel' _ rfl)).bind_eq fun items _ => ?_
        exact .of_eq rfl
  case h_2 =>
    refine (agree_entries hfields).bind fun bodies bodies' hbodies hbodies' hentries => ?_
    have hmapM := Agree.mapM_eq (forall₂_imp_of_mem hentries fun p hp q hq hpq =>
      agree_field hinner hpq
        (fun value hvalue => by
          obtain ⟨own, hown, hlt⟩ := jsonHeight_of_entries hbodies hp hvalue
          exact (hlt.trans_le (hlevels _ _ hown)).le)
        (fun value hvalue => by
          obtain ⟨own, hown, hlt⟩ := jsonHeight_of_entries hbodies' hq hvalue
          exact (hlt.trans_le (hlevels' _ _ hown)).le))
    refine hmapM.bind_eq fun fields _ => ?_
    exact .of_eq rfl
  case h_3 => exact .of_eq rfl
  case h_4 => exact .of_eq rfl
  case h_5 => exact .error _ _

end Inner

/-- A type has fuel for its levels, and any that is left over makes no difference. -/
lemma readsAlike : ∀ (fuel depth fuel' : Nat), ReadsAlike (TypeVariantUpTo depth) fuel fuel'
  | 0, _, _, a, _, _, ha, _ => absurd ha (Nat.not_le_of_lt (jsonHeight_pos a))
  | _ + 1, _, 0, _, b, _, _, hb => absurd hb (Nat.not_le_of_lt (jsonHeight_pos b))
  | fuel + 1, depth, fuel' + 1, a, b, h, ha, hb => by
      cases h with
      -- The same type with different fuel: the types inside it are the same as well, at any depth.
      | refl =>
          cases a with
          | arr as =>
              exact agree_union (readsAlike fuel 0 fuel') (List.forall₂_same.mpr fun _ _ => .refl) ha hb
          | obj ms => exact agree_schema (readsAlike fuel 0 fuel') (.refl _ ms) ha hb
          | _ => exact .of_eq rfl
      | single h =>
          cases depth with
          | zero => exact h.elim
          | succ depth =>
              cases h with
              | union h => exact agree_union (readsAlike fuel depth fuel') h ha hb
              | schema h => exact agree_schema (readsAlike fuel depth fuel') h ha hb

/-- **A type** is the same in every spelling. -/
lemma agree_ofJson {a b : Json} (h : ReflGen TypeVariant a b) : Agree Eq (ofJson a) (ofJson b) := by
  cases h with
  | refl => exact .of_eq rfl
  | single h =>
      obtain ⟨depth, h⟩ := h
      exact readsAlike _ depth _ a b (.single h) le_rfl le_rfl

end DataType

end WorkflowEngine.Document
