import Mathlib.Tactic.Common
import WorkflowEngine.Files.Access
import WorkflowEngine.Outputs.Collection
import WorkflowEngine.Proofs.DirectoryNames
import WorkflowEngine.Proofs.Walks

/-!
# Texts that are cut

The contents of a file are loaded up to a number of bytes, which may end inside a character.

**Characters.**  `IsEncoding`: the bytes of a character, in the four forms that a reader knows.  Whatever follows, a
reader takes these bytes for the character (`IsEncoding.pieces_append`), and any of them that are left when the last
ones are cut off for a single ill-formed piece (`IsEncoding.pieces_take`).  What a text is written as has these forms
(`isEncoding_utf8EncodeChar`).

**Cuts.**  `Cuts`: a limit on the bytes parts some characters into those that fit and the others.  A reader finds those
that fit, and one ill-formed piece if the limit falls into the next one (`exists_cut`).

**Files.**  `IsLoaded`: the longest beginning of a text that fits, and a replacement character for one that is cut.
This is what is loaded from every file that is text, for inputs as well as for outputs (`contents_cut`).  The
replacement character need not stand in the text, and may even have more bytes than the limit (`accent_replaced`).
-/

namespace WorkflowEngine.Text

/-! ## Characters -/

/-- The bytes of a character, as a reader takes them. -/
inductive IsEncoding (c : Char) : Bytes → Prop
  | one {b : UInt8} (low : b < 0x80) (value : Char.ofNat b.toNat = c) : IsEncoding c [b]
  | two {b b₁ lo hi : UInt8} (high : ¬ b < 0x80) (lead : leadByte b = some (2, lo, hi)) (second : lo ≤ b₁ ∧ b₁ ≤ hi)
      (value : Char.ofNat (b.toNat % 32 * 64 + payload b₁) = c) : IsEncoding c [b, b₁]
  | three {b b₁ b₂ lo hi : UInt8} (high : ¬ b < 0x80) (lead : leadByte b = some (3, lo, hi))
      (second : lo ≤ b₁ ∧ b₁ ≤ hi) (third : isContinuation b₂ = true)
      (value : Char.ofNat ((b.toNat % 16 * 64 + payload b₁) * 64 + payload b₂) = c) : IsEncoding c [b, b₁, b₂]
  | four {b b₁ b₂ b₃ lo hi : UInt8} (high : ¬ b < 0x80) (lead : leadByte b = some (4, lo, hi))
      (second : lo ≤ b₁ ∧ b₁ ≤ hi) (third : isContinuation b₂ = true) (fourth : isContinuation b₃ = true)
      (value : Char.ofNat (((b.toNat % 8 * 64 + payload b₁) * 64 + payload b₂) * 64 + payload b₃) = c) :
      IsEncoding c [b, b₁, b₂, b₃]

namespace IsEncoding

variable {c : Char} {bytes : Bytes}

lemma firstPiece_append (h : IsEncoding c bytes) (rest : Bytes) :
    ∃ b tail, bytes = b :: tail ∧ firstPiece b (tail ++ rest) = .char c bytes.length := by
  cases h with
  | one low value => exact ⟨_, _, rfl, by simp [firstPiece, low, value]⟩
  | two high lead second value => exact ⟨_, _, rfl, by simp [firstPiece, high, lead, second, value]⟩
  | three high lead second third value =>
      exact ⟨_, _, rfl, by simp [firstPiece, high, lead, second, third, value]⟩
  | four high lead second third fourth value =>
      exact ⟨_, _, rfl, by simp [firstPiece, high, lead, second, third, fourth, value]⟩

lemma firstPiece_take (h : IsEncoding c bytes) {k : ℕ} (hpos : 0 < k) (hk : k < bytes.length) :
    ∃ b tail, bytes.take k = b :: tail ∧ firstPiece b tail = .illFormed k := by
  cases h with
  | one => simp at hk; omega
  | two high lead second =>
      obtain rfl : k = 1 := by simp at hk; omega
      exact ⟨_, _, rfl, by simp [firstPiece, high, lead]⟩
  | three high lead second third =>
      obtain rfl | rfl : k = 1 ∨ k = 2 := by simp at hk; omega
      · exact ⟨_, _, rfl, by simp [firstPiece, high, lead]⟩
      · exact ⟨_, _, rfl, by simp [firstPiece, high, lead, second]⟩
  | four high lead second third fourth =>
      obtain rfl | rfl | rfl : k = 1 ∨ k = 2 ∨ k = 3 := by simp at hk; omega
      · exact ⟨_, _, rfl, by simp [firstPiece, high, lead]⟩
      · exact ⟨_, _, rfl, by simp [firstPiece, high, lead, second]⟩
      · exact ⟨_, _, rfl, by simp [firstPiece, high, lead, second, third]⟩

lemma pieces_append (h : IsEncoding c bytes) (rest : Bytes) :
    pieces (bytes ++ rest) = .char c bytes.length :: pieces rest := by
  obtain ⟨b, tail, rfl, hpiece⟩ := h.firstPiece_append rest
  rw [List.cons_append, pieces, hpiece]
  simp [Piece.extra]

lemma pieces_take (h : IsEncoding c bytes) {k : ℕ} (hpos : 0 < k) (hk : k < bytes.length) :
    pieces (bytes.take k) = [.illFormed k] := by
  obtain ⟨b, tail, htake, hpiece⟩ := h.firstPiece_take hpos hk
  have hlength : tail.length = k - 1 := by
    have := congrArg List.length htake
    simp at this
    omega
  rw [htake, pieces, hpiece]
  simp [Piece.extra, ← hlength, pieces]

end IsEncoding

lemma leadByte_eq (b : UInt8) :
    leadByte b =
      if 0xC2 ≤ b.toNat ∧ b.toNat ≤ 0xDF then some (2, 0x80, 0xBF)
      else if b.toNat = 0xE0 then some (3, 0xA0, 0xBF)
      else if b.toNat = 0xED then some (3, 0x80, 0x9F)
      else if 0xE1 ≤ b.toNat ∧ b.toNat ≤ 0xEF then some (3, 0x80, 0xBF)
      else if b.toNat = 0xF0 then some (4, 0x90, 0xBF)
      else if b.toNat = 0xF4 then some (4, 0x80, 0x8F)
      else if 0xF1 ≤ b.toNat ∧ b.toNat ≤ 0xF3 then some (4, 0x80, 0xBF)
      else none := by
  simp [leadByte, UInt8.le_iff_toNat_le, ← UInt8.toNat_inj]

/-- The lead bytes of three: the second byte shuts out overlong forms and surrogates. -/
lemma exists_leadByte_three {b b₁ : UInt8} (h : 0xE0 ≤ b.toNat ∧ b.toNat ≤ 0xEF)
    (h₁ : 0x80 ≤ b₁.toNat ∧ b₁.toNat ≤ 0xBF) (overlong : b.toNat = 0xE0 → 0xA0 ≤ b₁.toNat)
    (surrogate : b.toNat = 0xED → b₁.toNat ≤ 0x9F) :
    ∃ lo hi, leadByte b = some (3, lo, hi) ∧ lo ≤ b₁ ∧ b₁ ≤ hi := by
  simp only [UInt8.le_iff_toNat_le, leadByte_eq]
  rw [if_neg (by omega)]
  split_ifs with hlow hhigh hother
  · exact ⟨_, _, rfl, overlong hlow, h₁.2⟩
  · exact ⟨_, _, rfl, h₁.1, surrogate hhigh⟩
  · exact ⟨_, _, rfl, h₁⟩
  all_goals omega

/-- The lead bytes of four: the second byte shuts out overlong forms and numbers that are too large. -/
lemma exists_leadByte_four {b b₁ : UInt8} (h : 0xF0 ≤ b.toNat ∧ b.toNat ≤ 0xF4)
    (h₁ : 0x80 ≤ b₁.toNat ∧ b₁.toNat ≤ 0xBF) (overlong : b.toNat = 0xF0 → 0x90 ≤ b₁.toNat)
    (large : b.toNat = 0xF4 → b₁.toNat ≤ 0x8F) :
    ∃ lo hi, leadByte b = some (4, lo, hi) ∧ lo ≤ b₁ ∧ b₁ ≤ hi := by
  simp only [UInt8.le_iff_toNat_le, leadByte_eq]
  rw [if_neg (by omega), if_neg (by omega), if_neg (by omega), if_neg (by omega)]
  split_ifs with hlow hhigh hother
  · exact ⟨_, _, rfl, overlong hlow, h₁.2⟩
  · exact ⟨_, _, rfl, h₁.1, large hhigh⟩
  · exact ⟨_, _, rfl, h₁⟩
  · omega

lemma isContinuation_iff {b : UInt8} : isContinuation b = true ↔ 0x80 ≤ b.toNat ∧ b.toNat ≤ 0xBF := by
  simp [isContinuation, UInt8.le_iff_toNat_le]

lemma not_low {b : UInt8} (h : 0x80 ≤ b.toNat) : ¬ b < 0x80 := by
  simpa [UInt8.lt_iff_toNat_lt] using h

section Forms

variable {v : ℕ} {b b₁ b₂ b₃ : UInt8}

lemma isEncoding_two (hv : 0x80 ≤ v ∧ v ≤ 0x7FF) (hb : b.toNat = v / 64 + 0xC0) (hb₁ : b₁.toNat = v % 64 + 0x80) :
    IsEncoding (Char.ofNat v) [b, b₁] := by
  refine .two (not_low (by omega)) (by rw [leadByte_eq, if_pos (by omega)]) ?_ ?_
  · simp only [UInt8.le_iff_toNat_le, hb₁]
    exact ⟨Nat.le_add_left _ _, by change _ ≤ 0xBF; omega⟩
  · rw [payload, hb, hb₁]
    congr 1
    omega

lemma isEncoding_three (hv : 0x800 ≤ v ∧ v ≤ 0xFFFF) (valid : v.isValidChar) (hb : b.toNat = v / 4096 + 0xE0)
    (hb₁ : b₁.toNat = v / 64 % 64 + 0x80) (hb₂ : b₂.toNat = v % 64 + 0x80) :
    IsEncoding (Char.ofNat v) [b, b₁, b₂] := by
  rw [Nat.isValidChar] at valid
  obtain ⟨lo, hi, hlead, hsecond⟩ : ∃ lo hi, leadByte b = some (3, lo, hi) ∧ lo ≤ b₁ ∧ b₁ ≤ hi :=
    exists_leadByte_three (by omega) (by omega) (by omega) (by omega)
  refine .three (not_low (by omega)) hlead hsecond (isContinuation_iff.mpr (by omega)) ?_
  simp only [payload, hb, hb₁, hb₂]
  congr 1
  omega

lemma isEncoding_four (hv : 0x10000 ≤ v) (valid : v.isValidChar) (hb : b.toNat = v / 262144 + 0xF0)
    (hb₁ : b₁.toNat = v / 4096 % 64 + 0x80) (hb₂ : b₂.toNat = v / 64 % 64 + 0x80) (hb₃ : b₃.toNat = v % 64 + 0x80) :
    IsEncoding (Char.ofNat v) [b, b₁, b₂, b₃] := by
  rw [Nat.isValidChar] at valid
  obtain ⟨lo, hi, hlead, hsecond⟩ : ∃ lo hi, leadByte b = some (4, lo, hi) ∧ lo ≤ b₁ ∧ b₁ ≤ hi :=
    exists_leadByte_four (by omega) (by omega) (by omega) (by omega)
  refine .four (not_low (by omega)) hlead hsecond (isContinuation_iff.mpr (by omega))
    (isContinuation_iff.mpr (by omega)) ?_
  simp only [payload, hb, hb₁, hb₂, hb₃]
  congr 1
  omega

end Forms

/-- **The bytes of a character** are its encoding. -/
lemma isEncoding_utf8EncodeChar (c : Char) : IsEncoding c (String.utf8EncodeChar c) := by
  have valid : c.val.toNat.isValidChar := c.valid
  have hc : Char.ofNat c.val.toNat = c := c.ofNat_toNat
  simp only [String.utf8EncodeChar]
  generalize c.val.toNat = v at valid hc
  subst hc
  have hv : v < 0x110000 := by rw [Nat.isValidChar] at valid; omega
  have hbyte (n m : ℕ) (hn : n < 256) (hm : n = m) : (UInt8.ofNat n).toNat = m :=
    (UInt8.toNat_ofNat_of_lt hn).trans hm
  split_ifs with hone htwo hthree
  · have hb := hbyte v v (by omega) rfl
    refine .one ?_ (by rw [hb])
    rw [UInt8.lt_iff_toNat_lt, hb]
    exact Nat.lt_succ_of_le hone
  · exact isEncoding_two (by omega) (hbyte _ _ (by omega) (by omega)) (hbyte _ _ (by omega) rfl)
  · exact isEncoding_three (by omega) valid (hbyte _ _ (by omega) (by omega)) (hbyte _ _ (by omega) rfl)
      (hbyte _ _ (by omega) rfl)
  · exact isEncoding_four (by omega) valid (hbyte _ _ (by omega) (by omega)) (hbyte _ _ (by omega) rfl)
      (hbyte _ _ (by omega) rfl) (hbyte _ _ (by omega) rfl)

/-! ## Cuts -/

/-- The bytes of some characters. -/
def bytesOf (cs : List Char) : Bytes := cs.flatMap String.utf8EncodeChar

@[simp] lemma bytesOf_nil : bytesOf [] = [] := rfl

@[simp] lemma bytesOf_cons (c : Char) (cs : List Char) : bytesOf (c :: cs) = String.utf8EncodeChar c ++ bytesOf cs :=
  rfl

@[simp] lemma bytesOf_append (front back : List Char) : bytesOf (front ++ back) = bytesOf front ++ bytesOf back :=
  List.flatMap_append

lemma encode_eq_bytesOf (s : String) : encode s = bytesOf s.toList := by
  rw [encode, byteArray_toList, String.toUTF8, ← String.utf8Encode_toList]
  simp [bytesOf, List.utf8Encode]

/-- Where a limit cuts some characters off. -/
structure Cuts (limit : ℕ) (cs front back : List Char) : Prop where
  /-- Nothing is lost. -/
  append : cs = front ++ back
  /-- What is kept has as many bytes as the limit, or fewer. -/
  fits : (bytesOf front).length ≤ limit
  /-- One more character has too many. -/
  next : ∀ c ∈ back.head?, limit < (bytesOf front).length + c.utf8Size

/-- What a reader takes the first bytes of the next character for. -/
def cutPiece (back : List Char) (left : ℕ) : List Piece :=
  if back = [] ∨ left = 0 then [] else [.illFormed left]

/-- The pieces of a text that is cut: the characters that are kept, and one ill-formed piece for a character that the
limit falls into. -/
lemma exists_cut (cs : List Char) (limit : ℕ) :
    ∃ front back, Cuts limit cs front back ∧
      pieces ((bytesOf cs).take limit) =
        front.map (fun c => .char c c.utf8Size) ++ cutPiece back (limit - (bytesOf front).length) := by
  induction cs generalizing limit with
  | nil => exact ⟨[], [], ⟨rfl, Nat.zero_le _, nofun⟩, by simp [pieces, cutPiece]⟩
  | cons c cs ih =>
      have hc := isEncoding_utf8EncodeChar c
      have hlength := String.length_utf8EncodeChar c
      by_cases hfits : c.utf8Size ≤ limit
      · obtain ⟨front, back, ⟨happend, hfront, hnext⟩, hpieces⟩ := ih (limit - c.utf8Size)
        have hsize : (bytesOf (c :: front)).length = c.utf8Size + (bytesOf front).length := by simp [hlength]
        refine ⟨c :: front, back, ⟨by rw [happend, List.cons_append], by omega, fun d hd => ?_⟩, ?_⟩
        · have := hnext d hd
          omega
        · rw [bytesOf_cons, List.take_append, List.take_of_length_le (by omega), hlength, hc.pieces_append, hpieces,
            hsize, hlength, Nat.sub_sub]
          rfl
      · refine ⟨[], c :: cs, ⟨rfl, Nat.zero_le _, fun d hd => ?_⟩, ?_⟩
        · obtain rfl : c = d := by simpa using hd
          simpa using hfits
        · rw [bytesOf_cons, List.take_append_of_le_length (by omega)]
          rcases Nat.eq_zero_or_pos limit with rfl | hpos
          · simp [pieces, cutPiece]
          · rw [hc.pieces_take hpos (by omega)]
            simp [cutPiece, Nat.ne_of_gt hpos]

/-- The text of a file that is loaded up to some bytes: as many characters as have their bytes before the limit, and
a replacement character for one that the limit falls into. -/
def IsLoaded (limit : ℕ) (text contents : String) : Prop :=
  ∃ front back : String, text = front ++ back ∧ (encode front).length ≤ limit ∧
    (∀ c ∈ back.toList.head?, limit < (encode (front.push c)).length) ∧
    contents = front ++ if back = "" ∨ (encode front).length = limit then "" else "\uFFFD"

lemma isLoaded_decodeLossy (text : String) (limit : ℕ) :
    IsLoaded limit text (decodeLossy ((encode text).take limit)) := by
  obtain ⟨front, back, cuts, hpieces⟩ := exists_cut text.toList limit
  refine ⟨.ofList front, .ofList back, ?_, ?_, ?_, ?_⟩
  · rw [← String.ofList_append, ← cuts.append, String.ofList_toList]
  · simpa [encode_eq_bytesOf] using cuts.fits
  · simpa [encode_eq_bytesOf] using cuts.next
  · rw [decodeLossy, encode_eq_bytesOf, hpieces]
    have hfull : limit - (bytesOf front).length = 0 ↔ (bytesOf front).length = limit := by
      have := cuts.fits
      omega
    apply String.toList_inj.mp
    by_cases hcut : back = [] ∨ (bytesOf front).length = limit
    · simp [encode_eq_bytesOf, cutPiece, hfull, hcut, Piece.char?, Function.comp_def]
    · simp [encode_eq_bytesOf, cutPiece, hfull, hcut, Piece.char?, Function.comp_def]

lemma IsLoaded.eq_of_fits {limit : ℕ} {text contents : String} (h : IsLoaded limit text contents)
    (fits : (encode text).length ≤ limit) : contents = text := by
  obtain ⟨front, back, rfl, -, hnext, rfl⟩ := h
  have hnone : back = "" := by
    rw [← String.toList_eq_nil_iff]
    cases hback : back.toList with
    | nil => rfl
    | cons c rest =>
        have hmore := hnext c (by simp [hback])
        have hall : (encode (front.push c)).length ≤ (encode (front ++ back)).length := by
          simp [encode_eq_bytesOf, hback]
        omega
  rw [if_pos (.inl hnone), hnone]

/-! ## Files -/

/-- **What is loaded from a file**, for all trees, all files that are text and every limit: the longest prefix of the
text that has no more bytes, and a replacement character exactly if the limit falls inside a character.  Inputs and
outputs hold the same contents. -/
theorem contents_cut {tree : FileTree} {path text : String} (h : tree.nodeAt path = .ok (.file (encode text)))
    (limit : ℕ) :
    ∃ contents, IsLoaded limit text contents ∧ ((encode text).length ≤ limit → contents = text) ∧
      (∀ component, Files.readPrefix tree path limit component = .ok contents) ∧
      (∀ (config : Configuration) (file : FileValue), config.contentsLimit = limit → file.path = path →
        Binding.loadContents tree config file = pure { file with contents := some contents }) ∧
      ∀ site : Outputs.Site, site.tree = tree → site.config.contentsLimit = limit →
        Outputs.foundValue site false true path =
          .ok (.file { FileValue.ofPath tree path with contents := some contents }) := by
  have hread (component : Component) : Files.readPrefix tree path limit component =
      .ok (decodeLossy ((encode text).take limit)) := by
    rw [Files.readPrefix, h]
    rfl
  have hloaded := isLoaded_decodeLossy text limit
  refine ⟨_, hloaded, hloaded.eq_of_fits, hread, ?_, ?_⟩
  · rintro config file rfl rfl
    rw [Binding.loadContents, hread]
    rfl
  · rintro site rfl rfl
    simp only [Outputs.foundValue, hread]
    rfl

/-- A tree with one file. -/
def fileTree (text : String) : FileTree := ⟨[], [(["u"], .file (encode text))]⟩

lemma nodeAt_fileTree (text : String) : (fileTree text).nodeAt "/u" = .ok (.file (encode text)) := by
  have hleads : (fileTree text).Leads "/u" ["u"] := by
    refine ⟨by decide, by decide, ?_⟩
    have hnames : Path.names "/u" = ["u"] := by decide +kernel
    have hroot : (fileTree text).isDirectoryAt [] = true := rfl
    have hshort : ¬ FileTree.nameLimit < (encode "u").length := by decide +kernel
    rw [hnames, FileTree.walk, hroot, if_neg (by decide), if_neg hshort]
    rfl
  exact hleads.nodeAt_eq rfl fun hslash => absurd hslash (by decide)

/-- Of a character of three bytes only two are loaded. -/
theorem euro_cut :
    (fileTree "a€b").nodeAt "/u" = .ok (.file (encode "a€b")) ∧
      Files.readPrefix (fileTree "a€b") "/u" 3 .outputCollector = .ok "a\uFFFD" ∧
      ∃ contents, IsLoaded 3 "a€b" contents ∧ contents = "a\uFFFD" := by
  have hread : Files.readPrefix (fileTree "a€b") "/u" 3 .outputCollector = .ok "a\uFFFD" := by
    rw [Files.readPrefix, nodeAt_fileTree]
    exact congrArg Except.ok (by decide +kernel)
  obtain ⟨contents, hloaded, -, hcontents, -⟩ := contents_cut (nodeAt_fileTree "a€b") 3
  exact ⟨nodeAt_fileTree _, hread, contents, hloaded, Except.ok.inj ((hcontents _).symm.trans hread)⟩

/-- The first byte of a character of two is loaded as a character of three bytes, with which the text does not
begin. -/
theorem accent_replaced :
    (fileTree "é").nodeAt "/u" = .ok (.file (encode "é")) ∧
      Files.readPrefix (fileTree "é") "/u" 1 .outputCollector = .ok "\uFFFD" ∧
      ¬ "\uFFFD".toList <+: "é".toList ∧ 1 < (encode "\uFFFD").length := by
  refine ⟨nodeAt_fileTree _, ?_, by decide, by decide +kernel⟩
  rw [Files.readPrefix, nodeAt_fileTree]
  exact congrArg Except.ok (by decide +kernel)

end WorkflowEngine.Text
