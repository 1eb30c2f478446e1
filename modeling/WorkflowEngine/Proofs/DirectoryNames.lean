import Mathlib.Data.List.Basic
import Mathlib.Tactic.Common
import WorkflowEngine.Files.TaskDirectory
import WorkflowEngine.Path.FileUrl

/-!
# Laws of directory names

**Bytes.**  A text is known by its bytes: `encode_injective`.

**Reading back.**  With its underscores turned into slashes again, a directory name is the identifier
with some characters escaped as in a URL, so its bytes can be read back: `decodePercent_directoryName`.
Identifiers that differ in more than leading `#` have different names.

**Directories.**  The tasks of a run with different names have different directories:
`TaskDirectory.of_injective`.
-/

namespace WorkflowEngine

/-! ## Bytes -/

namespace Text

lemma byteArray_toList_loop (bytes : ByteArray) (i : Nat) (seen : List UInt8) :
    ByteArray.toList.loop bytes i seen = seen.reverse ++ bytes.data.toList.drop i := by
  have hsize : bytes.data.toList.length = bytes.size := Array.length_toList
  rw [ByteArray.toList.loop]
  split_ifs with hi
  · have hget : bytes.get! i = bytes.data.toList[i] := getElem!_pos bytes.data i hi
    have hdrop : bytes.data.toList.drop i = bytes.data.toList[i] :: bytes.data.toList.drop (i + 1) :=
      List.drop_eq_getElem_cons (by omega)
    rw [byteArray_toList_loop bytes (i + 1), List.reverse_cons, List.append_assoc,
      List.singleton_append, hget, hdrop]
  · rw [List.drop_eq_nil_of_le (by omega), List.append_nil]
termination_by bytes.size - i
decreasing_by omega

lemma byteArray_toList (bytes : ByteArray) : bytes.toList = bytes.data.toList :=
  byteArray_toList_loop bytes 0 []

lemma encode_append (s t : String) : encode (s ++ t) = encode s ++ encode t := by
  simp [encode, byteArray_toList]

/-- **A text is known by its bytes.** -/
theorem encode_injective {s t : String} (h : encode s = encode t) : s = t := by
  rw [encode, encode, byteArray_toList, byteArray_toList] at h
  exact String.toByteArray_inj.mp (ByteArray.ext (Array.toList_inj.mp h))

lemma encode_cons (c : Char) (cs : List Char) :
    encode (String.ofList (c :: cs)) = encode (String.singleton c) ++ encode (String.ofList cs) := by
  rw [← encode_append]
  congr 1
  exact String.toList_inj.mp (by simp)

end Text

/-! ## Reading back -/

namespace Path

open FileUrl (decodePercent)

/-- An underscore of a directory name stands for a slash. -/
def restoreSlash (c : Char) : Char := if c = '_' then '/' else c

lemma hexValue?_upperHexDigit (n : Nat) : Json.hexValue? (upperHexDigit n) = some (n % 16) := by
  have hall : ∀ k < 16, Json.hexValue? (Nat.digitChar k).toUpper = some k := by decide
  exact hall (n % 16) (Nat.mod_lt n (by decide))

lemma restoreSlash_upperHexDigit (n : Nat) : restoreSlash (upperHexDigit n) = upperHexDigit n := by
  have hall : ∀ k < 16, restoreSlash (Nat.digitChar k).toUpper = (Nat.digitChar k).toUpper := by decide
  exact hall (n % 16) (Nat.mod_lt n (by decide))

/-- The escape of a byte is read back. -/
lemma decodePercent_escapedByte (b : UInt8) (rest : List Char) :
    decodePercent ((escapedByte b).map restoreSlash ++ rest) = b :: decodePercent rest := by
  have hmap : (escapedByte b).map restoreSlash = escapedByte b := by
    simp only [escapedByte, List.map_cons, List.map_nil, restoreSlash_upperHexDigit]
    rfl
  have hbyte : UInt8.ofNat (b.toNat / 16 % 16 * 16 + b.toNat % 16) = b := by
    have hlt : b.toNat < 256 := b.toNat_lt
    rw [show b.toNat / 16 % 16 * 16 + b.toNat % 16 = b.toNat by omega, UInt8.ofNat_toNat]
  rw [hmap, escapedByte]
  simp only [List.cons_append, List.nil_append]
  rw [decodePercent, hexValue?_upperHexDigit, hexValue?_upperHexDigit]
  dsimp only
  rw [hbyte]

lemma decodePercent_escapedBytes (bytes : Text.Bytes) (rest : List Char) :
    decodePercent ((bytes.flatMap escapedByte).map restoreSlash ++ rest) =
      bytes ++ decodePercent rest := by
  induction bytes with
  | nil => rfl
  | cons b bytes ih =>
      rw [List.flatMap_cons, List.map_append, List.append_assoc, decodePercent_escapedByte, ih,
        List.cons_append]

lemma decodePercent_cons {c : Char} (h : c ≠ '%') (rest : List Char) :
    decodePercent (c :: rest) = Text.encode (String.singleton c) ++ decodePercent rest := by
  rw [decodePercent]
  intro a b more hc
  exact absurd hc h

/-- A character is read back from its part of the name. -/
lemma decodePercent_nameChar (c : Char) (rest : List Char) :
    decodePercent ((nameChar c).map restoreSlash ++ rest) =
      Text.encode (String.singleton c) ++ decodePercent rest := by
  unfold nameChar
  split_ifs with hplain hslash
  · have hne : c ≠ '_' ∧ c ≠ '%' := by
      constructor <;> rintro rfl <;> exact absurd hplain (by decide)
    rw [List.map_singleton, restoreSlash, if_neg hne.1, List.singleton_append,
      decodePercent_cons hne.2]
  · obtain rfl : c = '/' := by simpa using hslash
    rw [List.map_singleton, List.singleton_append]
    exact decodePercent_cons (by decide) rest
  · exact decodePercent_escapedBytes _ rest

/-- **The bytes of an identifier are read back from its directory name**, but for leading `#`. -/
theorem decodePercent_directoryName (id : String) :
    decodePercent ((directoryName id).toList.map restoreSlash) =
      Text.encode (String.ofList (id.toList.dropWhile (· = '#'))) := by
  rw [directoryName, String.toList_ofList]
  induction id.toList.dropWhile (· = '#') with
  | nil =>
      rw [List.flatMap_nil, List.map_nil, decodePercent, Text.encode, Text.byteArray_toList]
      simp
  | cons c cs ih =>
      rw [List.flatMap_cons, List.map_append, decodePercent_nameChar, ih, Text.encode_cons]

lemma directoryName_inj {s t : String} (h : directoryName s = directoryName t) :
    s.toList.dropWhile (· = '#') = t.toList.dropWhile (· = '#') := by
  have hs := decodePercent_directoryName s
  rw [h, decodePercent_directoryName t] at hs
  exact (String.ofList_inj.mp (Text.encode_injective hs)).symm

/-- A directory name has no slash, so it is a name below any directory. -/
lemma slash_notMem_directoryName (id : String) : '/' ∉ (directoryName id).toList := by
  have hhex (n : Nat) : upperHexDigit n ≠ '/' := by
    have hall : ∀ k < 16, (Nat.digitChar k).toUpper ≠ '/' := by decide
    exact hall (n % 16) (Nat.mod_lt n (by decide))
  rw [directoryName, String.toList_ofList]
  intro hmem
  obtain ⟨c, -, hc⟩ := List.mem_flatMap.mp hmem
  unfold nameChar at hc
  split_ifs at hc with hplain hslash
  · obtain rfl : '/' = c := List.mem_singleton.mp hc
    exact absurd hplain (by decide)
  · simp at hc
  · obtain ⟨b, -, hb⟩ := List.mem_flatMap.mp hc
    simp only [escapedByte, List.mem_cons, List.not_mem_nil, or_false] at hb
    rcases hb with hb | hb | hb
    · exact absurd hb (by decide)
    · exact hhex _ hb.symm
    · exact hhex _ hb.symm

lemma join_inj {base s t : String} (hs : '/' ∉ s.toList) (ht : '/' ∉ t.toList)
    (h : join base s = join base t) : s = t := by
  have hrelative {u : String} (hu : '/' ∉ u.toList) : isAbsolute u = false := by
    cases hl : u.toList with
    | nil => simp [isAbsolute, hl]
    | cons c rest =>
        rw [hl] at hu
        have hc : c ≠ '/' := fun hc => hu (hc ▸ List.mem_cons_self)
        simp [isAbsolute, hl, hc]
  rw [join, join, hrelative hs, hrelative ht, if_neg Bool.false_ne_true, if_neg Bool.false_ne_true] at h
  split_ifs at h
  · exact String.append_right_inj base |>.mp h
  · exact String.append_right_inj _ |>.mp h

end Path

/-! ## Directories -/

namespace TaskDirectory

lemma root_of (run : RunDirectory) (taskPath : String) :
    (TaskDirectory.of run taskPath).root = Path.join run.work (Path.directoryName taskPath) := rfl

lemma scratch_of (run : RunDirectory) (taskPath : String) :
    (TaskDirectory.of run taskPath).scratch = Path.join run.temp (Path.directoryName taskPath) := rfl

/-- **Different tasks have different directories**: neither the working directory nor the one for scratch
files is shared, unless the paths differ in leading `#` only. -/
theorem of_injective (run : RunDirectory) {s t : String}
    (h : (TaskDirectory.of run s).root = (TaskDirectory.of run t).root ∨
      (TaskDirectory.of run s).scratch = (TaskDirectory.of run t).scratch) :
    s.toList.dropWhile (· = '#') = t.toList.dropWhile (· = '#') := by
  have hs := Path.slash_notMem_directoryName s
  have ht := Path.slash_notMem_directoryName t
  rw [root_of, root_of, scratch_of, scratch_of] at h
  rcases h with h | h
  · exact Path.directoryName_inj (Path.join_inj hs ht h)
  · exact Path.directoryName_inj (Path.join_inj hs ht h)

end TaskDirectory

end WorkflowEngine
