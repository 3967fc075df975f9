/-
# Case and spaces

`strings.ToLower`, `strings.EqualFold` and `strings.TrimSpace`, character by character.  Texts that
differ in the case of ASCII letters only (`SameLetters`) cannot be told apart by a comparison that
ignores case.
-/
import Mathlib.Data.List.DropRight
import Orchestrator.Store.Keys

namespace Orchestrator

/-! ### Characters -/

lemma toLower_of_large {c : Char} (hc : ¬ c.toNat < 128) : c.toLower = c := by
  unfold Char.toLower
  split
  · rename_i h
    have hle : c.val.toNat ≤ 90 := h.2
    exact absurd (show c.val.toNat < 128 by omega) hc
  · rfl

/-- What holds of the 128 ASCII characters one by one. -/
lemma of_ascii {P : Char → Prop} (h : ∀ n < 128, P (Char.ofNat n)) {c : Char} (hc : c.toNat < 128) :
    P c := by
  simpa using h c.toNat hc

/-- The lower case of the last character of a range. -/
def CaseRange.last (r : CaseRange) : ℕ := r.image + (r.hi - r.lo)

/-- No lower case of the one range is an upper case of the other. -/
def CaseRange.apart (r r' : CaseRange) : Bool :=
  Nat.blt r.last r'.lo || Nat.blt r'.hi r.image ||
    r.step == 2 && r'.step == 2 && (r.image + r'.lo) % 2 == 1

/-- The characters that `isSpace` accepts, by their numbers. -/
def spaceCodes : List ℕ :=
  [0x09, 0x0A, 0x0B, 0x0C, 0x0D, 0x20, 0x85, 0xA0, 0x1680, 0x2000, 0x2001, 0x2002, 0x2003, 0x2004,
   0x2005, 0x2006, 0x2007, 0x2008, 0x2009, 0x200A, 0x2028, 0x2029, 0x202F, 0x205F, 0x3000]

lemma caseRanges_apart : caseRanges.all (fun r => caseRanges.all r.apart) = true := by
  decide +kernel

/-- The lower cases are characters, one in ASCII is that of a single character and its own lower
case, and spaces have no case. -/
lemma caseRanges_sound : ∀ r ∈ caseRanges,
    (r.last < 0xD800 ∨ 0xDFFF < r.image ∧ r.last < 0x110000) ∧
    (r.image < 128 → r.lo = r.hi ∧ (Char.ofNat r.image).toLower = Char.ofNat r.image) ∧
    ∀ n ∈ spaceCodes, (n < r.lo ∨ r.hi < n) ∧ (n < r.image ∨ r.last < n) := by
  decide +kernel

lemma CaseRange.covers_iff {r : CaseRange} {n : ℕ} :
    r.covers n = true ↔ (r.lo ≤ n ∧ n ≤ r.hi) ∧ (n - r.lo) % r.step = 0 := by
  simp [CaseRange.covers]

/-- A character beyond ASCII is its own lower case, or has one by the table. -/
lemma lowerCode_cases (n : ℕ) : lowerCode n = n ∨
    ∃ r ∈ caseRanges, r.covers n = true ∧ lowerCode n = r.image + (n - r.lo) := by
  unfold lowerCode
  split
  · next r hr =>
    refine .inr ⟨r, List.mem_of_find?_eq_some hr, ?_, rfl⟩
    exact List.find?_some (p := fun r : CaseRange => r.covers n) hr
  · exact .inl rfl

lemma lowerCode_lowerCode (n : ℕ) : lowerCode (lowerCode n) = lowerCode n := by
  obtain hsame | ⟨r, hr, hn, himage⟩ := lowerCode_cases n
  · rw [hsame, hsame]
  obtain hsame | ⟨r', hr', hn', -⟩ := lowerCode_cases (lowerCode n)
  · exact hsame
  rw [himage, CaseRange.covers_iff] at hn'
  rw [CaseRange.covers_iff] at hn
  have hapart := List.all_eq_true.mp (List.all_eq_true.mp caseRanges_apart r hr) r' hr'
  simp only [CaseRange.apart, Bool.or_eq_true, Bool.and_eq_true, beq_iff_eq, Nat.blt_eq] at hapart
  rcases hapart with (h | h) | ⟨⟨hstep, hstep'⟩, hodd⟩
  · unfold CaseRange.last at h
    omega
  · omega
  · rw [hstep] at hn
    rw [hstep'] at hn'
    omega

lemma toNat_ofNat {n : ℕ} (h : n.isValidChar) : (Char.ofNat n).toNat = n := by
  rw [Char.ofNat, dif_pos h]
  rfl

lemma toNat_ofNat_lowerCode (c : Char) :
    (Char.ofNat (lowerCode c.toNat)).toNat = lowerCode c.toNat := by
  obtain hsame | ⟨r, hr, hn, himage⟩ := lowerCode_cases c.toNat
  · rw [hsame, Char.ofNat_toNat]
  · obtain ⟨hvalid, -, -⟩ := caseRanges_sound r hr
    rw [CaseRange.covers_iff] at hn
    unfold CaseRange.last at hvalid
    refine toNat_ofNat ?_
    unfold Nat.isValidChar
    omega

lemma lowerChar_lowerChar (c : Char) : lowerChar (lowerChar c) = lowerChar c := by
  by_cases hc : c.toNat < 128
  · exact of_ascii (P := fun c => lowerChar (lowerChar c) = lowerChar c) (by decide) hc
  have hlower : lowerChar c = Char.ofNat (lowerCode c.toNat) := if_neg hc
  rw [hlower, lowerChar, toNat_ofNat_lowerCode]
  split
  · next hsmall =>
    obtain hsame | ⟨r, hr, hn, himage⟩ := lowerCode_cases c.toNat
    · omega
    · rw [CaseRange.covers_iff] at hn
      obtain ⟨hone, hfix⟩ := (caseRanges_sound r hr).2.1 (by omega)
      rw [himage, show c.toNat - r.lo = 0 by omega]
      exact hfix
  · rw [lowerCode_lowerCode]

lemma mem_spaceCodes {c : Char} (h : isSpace c = true) : c.toNat ∈ spaceCodes := by
  have hval : c.val.toNat = c.toNat := rfl
  simp only [isSpace, Bool.or_eq_true, Bool.and_eq_true, decide_eq_true_eq, beq_iff_eq,
    ← UInt32.toNat_inj, UInt32.le_iff_toNat_le, hval, UInt32.toNat_ofNat] at h
  simp only [spaceCodes, List.mem_cons, List.not_mem_nil, or_false]
  omega

lemma isSpace_lowerChar (c : Char) : isSpace (lowerChar c) = isSpace c := by
  by_cases hc : c.toNat < 128
  · exact of_ascii (P := fun c => isSpace (lowerChar c) = isSpace c) (by decide) hc
  rw [lowerChar, if_neg hc]
  obtain hsame | ⟨r, hr, hn, himage⟩ := lowerCode_cases c.toNat
  · rw [hsame, Char.ofNat_toNat]
  · rw [CaseRange.covers_iff] at hn
    obtain ⟨-, -, hspaces⟩ := caseRanges_sound r hr
    have hno : ∀ c', c'.toNat = c.toNat ∨ c'.toNat = lowerCode c.toNat → isSpace c' = false := by
      intro c' hc'
      by_contra hspace
      have hout := hspaces _ (mem_spaceCodes (Bool.eq_true_of_not_eq_false hspace))
      unfold CaseRange.last at hout
      omega
    rw [hno _ (.inl rfl), hno _ (.inr (toNat_ofNat_lowerCode c))]

/-- A function on characters that gives ASCII letters the value of their lower case. -/
lemma comp_toLower {β : Type} {f : Char → β}
    (h : ∀ n < 128, f (Char.ofNat n).toLower = f (Char.ofNat n)) (c : Char) :
    f c.toLower = f c := by
  by_cases hc : c.toNat < 128
  · exact of_ascii (P := fun c => f c.toLower = f c) h hc
  · rw [toLower_of_large hc]

/-- The functions on characters that ignore case do not tell an ASCII letter from its lower case. -/
lemma lowerChar_toLower (c : Char) : lowerChar c.toLower = lowerChar c := comp_toLower (by decide) c

lemma foldChar_toLower (c : Char) : foldChar c.toLower = foldChar c := comp_toLower (by decide) c

lemma isSpace_toLower (c : Char) : isSpace c.toLower = isSpace c := comp_toLower (by decide) c

/-! ### Texts -/

/-- `strings.TrimSpace` on the characters of a text. -/
lemma toList_trimSpace (s : String) :
    (trimSpace s).toList = (s.toList.dropWhile isSpace).rdropWhile isSpace := by
  rw [trimSpace, String.toList_ofList]
  rfl

/-- A trimmed text starts with no space. -/
lemma dropWhile_trimmed (l : List Char) :
    ((l.dropWhile isSpace).rdropWhile isSpace).dropWhile isSpace =
      (l.dropWhile isSpace).rdropWhile isSpace := by
  set t := (l.dropWhile isSpace).rdropWhile isSpace with ht
  rcases hcases : t with _ | ⟨c, rest⟩
  · rfl
  · obtain ⟨tail, htail⟩ : t <+: l.dropWhile isSpace := List.rdropWhile_prefix _ _
    have hhead : (l.dropWhile isSpace).head? = some c := by rw [← htail, hcases]; rfl
    have hc : isSpace c = false := by
      have := List.head?_dropWhile_not isSpace l
      rw [hhead] at this
      simpa using this
    rw [List.dropWhile_cons_of_neg (by simp [hc])]

/-! ### Texts that differ in case only -/

/-- Two texts that differ in the case of ASCII letters only. -/
def SameLetters (a b : String) : Prop := a.toList.map Char.toLower = b.toList.map Char.toLower

instance (a b : String) : Decidable (SameLetters a b) := inferInstanceAs (Decidable (_ = _))

namespace SameLetters

variable {a b : String}

lemma refl (a : String) : SameLetters a a := rfl

lemma symm (h : SameLetters a b) : SameLetters b a := Eq.symm h

lemma trans {c : String} (h : SameLetters a b) (h' : SameLetters b c) : SameLetters a c :=
  Eq.trans h h'

lemma length_eq (h : SameLetters a b) : a.toList.length = b.toList.length := by
  simpa using congrArg List.length h

/-- A function on characters that ignores case has the same values on both. -/
lemma map_eq {β : Type} {f : Char → β} (hf : ∀ c : Char, f c.toLower = f c)
    (h : SameLetters a b) : a.toList.map f = b.toList.map f := by
  have hcomp : f = f ∘ Char.toLower := funext fun c => (hf c).symm
  rw [hcomp, ← List.map_map, ← List.map_map, h]

lemma toLower_eq (h : SameLetters a b) : toLower a = toLower b :=
  congrArg String.ofList (h.map_eq lowerChar_toLower)

protected lemma trimSpace (h : SameLetters a b) : SameLetters (trimSpace a) (trimSpace b) := by
  have hcomp : isSpace ∘ Char.toLower = isSpace := funext isSpace_toLower
  have hmap : ∀ s : String, (trimSpace s).toList.map Char.toLower =
      ((s.toList.map Char.toLower).dropWhile isSpace).rdropWhile isSpace := by
    intro s
    rw [toList_trimSpace, List.dropWhile_map, hcomp, List.rdropWhile, List.rdropWhile,
      ← List.map_reverse, List.dropWhile_map, hcomp, List.map_reverse]
  rw [SameLetters, hmap, hmap, h]

lemma equalFold_eq (h : SameLetters a b) (x : String) : equalFold x a = equalFold x b := by
  rw [equalFold, equalFold, h.map_eq foldChar_toLower]

end SameLetters

end Orchestrator
