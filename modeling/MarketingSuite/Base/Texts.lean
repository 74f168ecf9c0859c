import MarketingSuite.Base.Values
import Mathlib.Data.List.DropRight

/-! # Text

Python's `str.lower` and what comes of `lower` followed by `strip`, the normal form of an address.
The lower case forms are those of the Unicode database; what it says about the surroundings of a
capital sigma (`cased`, `caseIgnorable`) is a parameter. -/

namespace MarketingSuite.Base.Texts

open MarketingSuite.Base.Values

/-! ### Lower case -/

/-- The code points `first`, `first + step`, …, `last`, whose lower case forms are `image`,
`image + step`, … -/
structure CaseRange where
  first : ℕ
  last : ℕ
  step : ℕ
  image : ℕ

namespace CaseRange

/-- The code point is in the range. -/
def has (r : CaseRange) (n : ℕ) : Bool :=
  Nat.ble r.first n && Nat.ble n r.last && Nat.beq ((n - r.first) % r.step) 0

/-- No lower case form of `r` is in the range `q`: it lies beside it, or both take every second code
point and not the same ones. -/
def avoids (r q : CaseRange) : Bool :=
  Nat.blt (r.image + (r.last - r.first)) q.first || Nat.blt q.last r.image ||
    Nat.beq r.step 2 && Nat.beq q.step 2 && !Nat.beq (r.image % 2) (q.first % 2)

end CaseRange

/-- The characters with one lower case form that is another character. -/
def caseRanges : List CaseRange :=
  [⟨65, 90, 1, 97⟩, ⟨192, 214, 1, 224⟩, ⟨216, 222, 1, 248⟩, ⟨256, 302, 2, 257⟩, ⟨306, 310, 2, 307⟩,
   ⟨313, 327, 2, 314⟩, ⟨330, 374, 2, 331⟩, ⟨376, 376, 2, 255⟩, ⟨377, 381, 2, 378⟩,
   ⟨385, 385, 2, 595⟩, ⟨386, 388, 2, 387⟩, ⟨390, 390, 2, 596⟩, ⟨391, 391, 2, 392⟩,
   ⟨393, 394, 1, 598⟩, ⟨395, 395, 2, 396⟩, ⟨398, 398, 2, 477⟩, ⟨399, 399, 2, 601⟩,
   ⟨400, 400, 2, 603⟩, ⟨401, 401, 2, 402⟩, ⟨403, 403, 2, 608⟩, ⟨404, 404, 2, 611⟩,
   ⟨406, 406, 2, 617⟩, ⟨407, 407, 2, 616⟩, ⟨408, 408, 2, 409⟩, ⟨412, 412, 2, 623⟩,
   ⟨413, 413, 2, 626⟩, ⟨415, 415, 2, 629⟩, ⟨416, 420, 2, 417⟩, ⟨422, 422, 2, 640⟩,
   ⟨423, 423, 2, 424⟩, ⟨425, 425, 2, 643⟩, ⟨428, 428, 2, 429⟩, ⟨430, 430, 2, 648⟩,
   ⟨431, 431, 2, 432⟩, ⟨433, 434, 1, 650⟩, ⟨435, 437, 2, 436⟩, ⟨439, 439, 2, 658⟩,
   ⟨440, 440, 2, 441⟩, ⟨444, 444, 2, 445⟩, ⟨452, 452, 2, 454⟩, ⟨453, 453, 2, 454⟩,
   ⟨455, 455, 2, 457⟩, ⟨456, 456, 2, 457⟩, ⟨458, 458, 2, 460⟩, ⟨459, 475, 2, 460⟩,
   ⟨478, 494, 2, 479⟩, ⟨497, 497, 2, 499⟩, ⟨498, 500, 2, 499⟩, ⟨502, 502, 2, 405⟩,
   ⟨503, 503, 2, 447⟩, ⟨504, 542, 2, 505⟩, ⟨544, 544, 2, 414⟩, ⟨546, 562, 2, 547⟩,
   ⟨570, 570, 2, 11365⟩, ⟨571, 571, 2, 572⟩, ⟨573, 573, 2, 410⟩, ⟨574, 574, 2, 11366⟩,
   ⟨577, 577, 2, 578⟩, ⟨579, 579, 2, 384⟩, ⟨580, 580, 2, 649⟩, ⟨581, 581, 2, 652⟩,
   ⟨582, 590, 2, 583⟩, ⟨880, 882, 2, 881⟩, ⟨886, 886, 2, 887⟩, ⟨895, 895, 2, 1011⟩,
   ⟨902, 902, 2, 940⟩, ⟨904, 906, 1, 941⟩, ⟨908, 908, 2, 972⟩, ⟨910, 911, 1, 973⟩,
   ⟨913, 929, 1, 945⟩, ⟨931, 939, 1, 963⟩, ⟨975, 975, 2, 983⟩, ⟨984, 1006, 2, 985⟩,
   ⟨1012, 1012, 2, 952⟩, ⟨1015, 1015, 2, 1016⟩, ⟨1017, 1017, 2, 1010⟩, ⟨1018, 1018, 2, 1019⟩,
   ⟨1021, 1023, 1, 891⟩, ⟨1024, 1039, 1, 1104⟩, ⟨1040, 1071, 1, 1072⟩, ⟨1120, 1152, 2, 1121⟩,
   ⟨1162, 1214, 2, 1163⟩, ⟨1216, 1216, 2, 1231⟩, ⟨1217, 1229, 2, 1218⟩, ⟨1232, 1326, 2, 1233⟩,
   ⟨1329, 1366, 1, 1377⟩, ⟨4256, 4293, 1, 11520⟩, ⟨4295, 4295, 2, 11559⟩, ⟨4301, 4301, 2, 11565⟩,
   ⟨5024, 5103, 1, 43888⟩, ⟨5104, 5109, 1, 5112⟩, ⟨7312, 7354, 1, 4304⟩, ⟨7357, 7359, 1, 4349⟩,
   ⟨7680, 7828, 2, 7681⟩, ⟨7838, 7838, 2, 223⟩, ⟨7840, 7934, 2, 7841⟩, ⟨7944, 7951, 1, 7936⟩,
   ⟨7960, 7965, 1, 7952⟩, ⟨7976, 7983, 1, 7968⟩, ⟨7992, 7999, 1, 7984⟩, ⟨8008, 8013, 1, 8000⟩,
   ⟨8025, 8031, 2, 8017⟩, ⟨8040, 8047, 1, 8032⟩, ⟨8072, 8079, 1, 8064⟩, ⟨8088, 8095, 1, 8080⟩,
   ⟨8104, 8111, 1, 8096⟩, ⟨8120, 8121, 1, 8112⟩, ⟨8122, 8123, 1, 8048⟩, ⟨8124, 8124, 2, 8115⟩,
   ⟨8136, 8139, 1, 8050⟩, ⟨8140, 8140, 2, 8131⟩, ⟨8152, 8153, 1, 8144⟩, ⟨8154, 8155, 1, 8054⟩,
   ⟨8168, 8169, 1, 8160⟩, ⟨8170, 8171, 1, 8058⟩, ⟨8172, 8172, 2, 8165⟩, ⟨8184, 8185, 1, 8056⟩,
   ⟨8186, 8187, 1, 8060⟩, ⟨8188, 8188, 2, 8179⟩, ⟨8486, 8486, 2, 969⟩, ⟨8490, 8490, 2, 107⟩,
   ⟨8491, 8491, 2, 229⟩, ⟨8498, 8498, 2, 8526⟩, ⟨8544, 8559, 1, 8560⟩, ⟨8579, 8579, 2, 8580⟩,
   ⟨9398, 9423, 1, 9424⟩, ⟨11264, 11311, 1, 11312⟩, ⟨11360, 11360, 2, 11361⟩,
   ⟨11362, 11362, 2, 619⟩, ⟨11363, 11363, 2, 7549⟩, ⟨11364, 11364, 2, 637⟩,
   ⟨11367, 11371, 2, 11368⟩, ⟨11373, 11373, 2, 593⟩, ⟨11374, 11374, 2, 625⟩,
   ⟨11375, 11375, 2, 592⟩, ⟨11376, 11376, 2, 594⟩, ⟨11378, 11378, 2, 11379⟩,
   ⟨11381, 11381, 2, 11382⟩, ⟨11390, 11391, 1, 575⟩, ⟨11392, 11490, 2, 11393⟩,
   ⟨11499, 11501, 2, 11500⟩, ⟨11506, 11506, 2, 11507⟩, ⟨42560, 42604, 2, 42561⟩,
   ⟨42624, 42650, 2, 42625⟩, ⟨42786, 42798, 2, 42787⟩, ⟨42802, 42862, 2, 42803⟩,
   ⟨42873, 42875, 2, 42874⟩, ⟨42877, 42877, 2, 7545⟩, ⟨42878, 42886, 2, 42879⟩,
   ⟨42891, 42891, 2, 42892⟩, ⟨42893, 42893, 2, 613⟩, ⟨42896, 42898, 2, 42897⟩,
   ⟨42902, 42920, 2, 42903⟩, ⟨42922, 42922, 2, 614⟩, ⟨42923, 42923, 2, 604⟩,
   ⟨42924, 42924, 2, 609⟩, ⟨42925, 42925, 2, 620⟩, ⟨42926, 42926, 2, 618⟩, ⟨42928, 42928, 2, 670⟩,
   ⟨42929, 42929, 2, 647⟩, ⟨42930, 42930, 2, 669⟩, ⟨42931, 42931, 2, 43859⟩,
   ⟨42932, 42946, 2, 42933⟩, ⟨42948, 42948, 2, 42900⟩, ⟨42949, 42949, 2, 642⟩,
   ⟨42950, 42950, 2, 7566⟩, ⟨42951, 42953, 2, 42952⟩, ⟨42960, 42960, 2, 42961⟩,
   ⟨42966, 42968, 2, 42967⟩, ⟨42997, 42997, 2, 42998⟩, ⟨65313, 65338, 1, 65345⟩,
   ⟨66560, 66599, 1, 66600⟩, ⟨66736, 66771, 1, 66776⟩, ⟨66928, 66938, 1, 66967⟩,
   ⟨66940, 66954, 1, 66979⟩, ⟨66956, 66962, 1, 66995⟩, ⟨66964, 66965, 1, 67003⟩,
   ⟨68736, 68786, 1, 68800⟩, ⟨71840, 71871, 1, 71872⟩, ⟨93760, 93791, 1, 93792⟩,
   ⟨125184, 125217, 1, 125218⟩]

/-- The lower case form of a code point. -/
def lowerCode (n : ℕ) : ℕ :=
  match caseRanges.find? fun r => r.has n with
  | some r => r.image + (n - r.first)
  | none => n

/-- The lower case form of a character, which is two characters for the dotted capital I. -/
def lowerChar (c : Char) : List Char :=
  if c.toNat = 0x130 then ['i', Char.ofNat 0x307] else [Char.ofNat (lowerCode c.toNat)]

/-- What else the Unicode database says about a character. -/
structure CharProperties where
  cased : Char → Bool
  caseIgnorable : Char → Bool

/-- A sigma between these characters (the ones before it from right to left) ends a word: a cased
one comes before it and none after it, not counting the ones to be ignored. -/
def isFinal (u : CharProperties) (before after : List Char) : Bool :=
  (before.dropWhile u.caseIgnorable).head?.any u.cased &&
    !(after.dropWhile u.caseIgnorable).head?.any u.cased

/-- The lower case form of a character between others. -/
def lowerAt (u : CharProperties) (before : List Char) (c : Char) (after : List Char) : List Char :=
  if c.toNat = 0x3a3 then [if isFinal u before after then 'ς' else 'σ'] else lowerChar c

/-- The lower case forms of the characters after `before`. -/
def lowerFrom (u : CharProperties) (before : List Char) : List Char → List Char
  | [] => []
  | c :: l => lowerAt u before c l ++ lowerFrom u (c :: before) l

/-- `str.lower`. -/
def lower (u : CharProperties) (s : String) : String := String.ofList (lowerFrom u [] s.toList)

/-- `email.lower().strip()`. -/
def normalise (u : CharProperties) (s : String) : String := strip (lower u s)

/-! ### Lower case forms are in lower case -/

theorem caseRanges_avoid : ∀ r ∈ caseRanges, ∀ q ∈ caseRanges, r.avoids q = true := by
  have hall : (caseRanges.all fun r => caseRanges.all fun q => r.avoids q) = true := by
    decide +kernel
  simpa only [List.all_eq_true] using hall

theorem CaseRange.has_image {r q : CaseRange} {n : ℕ} (h : r.avoids q = true)
    (hr : r.has n = true) : q.has (r.image + (n - r.first)) = false := by
  by_contra hq
  rw [Bool.not_eq_false] at hq
  simp only [has, avoids, Bool.and_eq_true, Bool.or_eq_true, Bool.not_eq_true', Nat.ble_eq,
    Nat.beq_eq, Nat.blt_eq, ← Bool.not_eq_true] at h hr hq
  obtain ⟨⟨hr1, hr2⟩, hr3⟩ := hr
  obtain ⟨⟨hq1, hq2⟩, hq3⟩ := hq
  rcases h with (h | h) | ⟨⟨hs, hs'⟩, hpar⟩
  · omega
  · omega
  · rw [hs] at hr3
    rw [hs'] at hq3
    omega

theorem caseRanges_avoid_dotted : ∀ r ∈ caseRanges, r.avoids ⟨0x130, 0x130, 2, 0x69⟩ = true := by
  have hall : (caseRanges.all fun r => r.avoids ⟨0x130, 0x130, 2, 0x69⟩) = true := by
    decide +kernel
  simpa only [List.all_eq_true] using hall

theorem lowerCode_cases (n : ℕ) : lowerCode n = n ∨
    ∃ r ∈ caseRanges, r.has n = true ∧ lowerCode n = r.image + (n - r.first) := by
  unfold lowerCode
  cases hf : caseRanges.find? fun r => r.has n with
  | none => exact Or.inl rfl
  | some r =>
    have hr := List.find?_some (p := fun r : CaseRange => r.has n) hf
    exact Or.inr ⟨r, List.mem_of_find?_eq_some hf, hr, rfl⟩

theorem lowerCode_of_avoided {n : ℕ} (h : ∀ q ∈ caseRanges, q.has n = false) :
    lowerCode n = n := by
  have hf : (caseRanges.find? fun r => r.has n) = none := by
    rw [List.find?_eq_none]
    intro q hq
    rw [h q hq]
    exact Bool.false_ne_true
  unfold lowerCode
  rw [hf]

theorem lowerCode_idem (n : ℕ) : lowerCode (lowerCode n) = lowerCode n := by
  rcases lowerCode_cases n with h | ⟨r, hr, hn, h⟩
  · rw [h, h]
  · rw [h]
    exact lowerCode_of_avoided fun q hq => CaseRange.has_image (caseRanges_avoid r hr q hq) hn

theorem lowerCode_ne_dotted {n : ℕ} (hn : n ≠ 0x130) : lowerCode n ≠ 0x130 := by
  intro hd
  rcases lowerCode_cases n with h | ⟨r, hr, hrn, h⟩
  · exact hn (h.symm.trans hd)
  · have himage := CaseRange.has_image (caseRanges_avoid_dotted r hr) hrn
    rw [← h, hd] at himage
    exact absurd himage (by decide)

/-- A character without another lower case form. -/
def Lowered (c : Char) : Prop := lowerCode c.toNat = c.toNat ∧ c.toNat ≠ 0x130

instance (c : Char) : Decidable (Lowered c) := inferInstanceAs (Decidable (_ ∧ _))

theorem Lowered.ne_sigma {c : Char} (h : Lowered c) : c.toNat ≠ 0x3a3 := by
  intro hs
  have hfix := h.1
  rw [hs] at hfix
  exact absurd hfix (by decide)

theorem toNat_ofNat_or (n : ℕ) : (Char.ofNat n).toNat = n ∨ (Char.ofNat n).toNat = 0 := by
  by_cases h : n.isValidChar
  · left
    unfold Char.ofNat
    rw [dif_pos h]
    rfl
  · right
    unfold Char.ofNat
    rw [dif_neg h]
    rfl

theorem lowered_ofNat {n : ℕ} (h : n ≠ 0x130) : Lowered (Char.ofNat (lowerCode n)) := by
  unfold Lowered
  rcases toNat_ofNat_or (lowerCode n) with hn | hn
  · rw [hn]
    exact ⟨lowerCode_idem n, lowerCode_ne_dotted h⟩
  · rw [hn]
    decide

/-! ### The whole string -/

theorem lowerAt_lowered (u : CharProperties) (before : List Char) (c : Char) (after : List Char) :
    ∀ d ∈ lowerAt u before c after, Lowered d := by
  intro d hd
  unfold lowerAt lowerChar at hd
  split at hd
  · rw [List.mem_singleton] at hd
    subst hd
    split <;> decide
  · split at hd
    · have hi : Lowered 'i' := by decide
      have hdot : Lowered (Char.ofNat 0x307) := by decide
      simp only [List.mem_cons, List.not_mem_nil, or_false] at hd
      rcases hd with rfl | rfl
      · exact hi
      · exact hdot
    · rename_i hdotted
      rw [List.mem_singleton] at hd
      subst hd
      exact lowered_ofNat hdotted

theorem lowerAt_of_lowered (u : CharProperties) (before : List Char) {c : Char}
    (after : List Char) (h : Lowered c) : lowerAt u before c after = [c] := by
  unfold lowerAt lowerChar
  rw [if_neg h.ne_sigma, if_neg h.2, h.1, Char.ofNat_toNat]

theorem lowerFrom_lowered (u : CharProperties) (l before : List Char) :
    ∀ d ∈ lowerFrom u before l, Lowered d := by
  induction l generalizing before with
  | nil =>
    intro d hd
    cases hd
  | cons c l ih =>
    intro d hd
    rcases List.mem_append.mp hd with hd | hd
    · exact lowerAt_lowered u before c l d hd
    · exact ih (c :: before) d hd

theorem lowerFrom_of_lowered (u : CharProperties) (l before : List Char)
    (h : ∀ c ∈ l, Lowered c) : lowerFrom u before l = l := by
  induction l generalizing before with
  | nil => rfl
  | cons c l ih =>
    have hc : Lowered c := h c List.mem_cons_self
    have hl : ∀ d ∈ l, Lowered d := fun d hd => h d (List.mem_cons_of_mem c hd)
    unfold lowerFrom
    rw [lowerAt_of_lowered u before l hc, ih (c :: before) hl]
    rfl

/-! ### Spaces at the ends -/

theorem toList_stripOf (p : Char → Bool) (s : String) :
    (stripOf p s).toList = List.rdropWhile p (s.toList.dropWhile p) := by
  unfold stripOf List.rdropWhile
  rw [String.toList_ofList]

theorem infix_stripOf (p : Char → Bool) (s : String) : (stripOf p s).toList <:+: s.toList := by
  rw [toList_stripOf]
  exact (List.rdropWhile_prefix p _).isInfix.trans (List.dropWhile_suffix p).isInfix

theorem mem_strip {s : String} {c : Char} (h : c ∈ (strip s).toList) : c ∈ s.toList :=
  (infix_stripOf isSpace s).subset h

theorem mem_dropWhile {p : Char → Bool} {c : Char} (hc : p c = false) {l : List Char}
    (h : c ∈ l) : c ∈ l.dropWhile p := by
  rw [← List.takeWhile_append_dropWhile (p := p) (l := l), List.mem_append] at h
  rcases h with h | h
  · simp [List.mem_takeWhile_imp h] at hc
  · exact h

theorem mem_stripOf {p : Char → Bool} {s : String} {c : Char} (hc : p c = false)
    (h : c ∈ s.toList) : c ∈ (stripOf p s).toList := by
  rw [toList_stripOf, List.rdropWhile, List.mem_reverse]
  exact mem_dropWhile hc (List.mem_reverse.mpr (mem_dropWhile hc h))

theorem head?_rdropWhile_dropWhile (p : Char → Bool) (l : List Char) {c : Char}
    (h : (List.rdropWhile p (l.dropWhile p)).head? = some c) : p c = false := by
  obtain ⟨l', hl'⟩ := List.rdropWhile_prefix p (l.dropWhile p)
  have hhead : (l.dropWhile p).head? = some c := by
    rw [← hl', List.head?_append, h]
    rfl
  have hnot := List.head?_dropWhile_not p l
  rw [hhead] at hnot
  exact hnot

theorem getLast?_rdropWhile (p : Char → Bool) (l : List Char) {c : Char}
    (h : (List.rdropWhile p l).getLast? = some c) : p c = false := by
  have hne : List.rdropWhile p l ≠ [] := by
    intro hnil
    simp [hnil] at h
  rw [List.getLast?_eq_getLast_of_ne_nil hne, Option.some.injEq] at h
  simpa [h] using List.rdropWhile_last_not p l hne

theorem stripOf_idem (p : Char → Bool) (s : String) : stripOf p (stripOf p s) = stripOf p s := by
  have hlist : (stripOf p (stripOf p s)).toList = (stripOf p s).toList := by
    rw [toList_stripOf, toList_stripOf]
    have hdrop : (List.rdropWhile p (s.toList.dropWhile p)).dropWhile p =
        List.rdropWhile p (s.toList.dropWhile p) := by
      cases hl : List.rdropWhile p (s.toList.dropWhile p) with
      | nil => rfl
      | cons c l =>
        have hc : p c = false := head?_rdropWhile_dropWhile p s.toList (by rw [hl]; rfl)
        exact List.dropWhile_cons_of_neg (by rw [hc]; exact Bool.false_ne_true)
    rw [hdrop]
    exact List.rdropWhile_idempotent p _
  exact String.toList_injective hlist

theorem strip_idem (s : String) : strip (strip s) = strip s := stripOf_idem isSpace s

/-! ### The normal form -/

theorem lower_strip_lower (u : CharProperties) (s : String) :
    lower u (strip (lower u s)) = strip (lower u s) := by
  have hlowered : ∀ c ∈ (strip (lower u s)).toList, Lowered c := by
    intro c hc
    have hmem := mem_strip hc
    unfold lower at hmem
    rw [String.toList_ofList] at hmem
    exact lowerFrom_lowered u s.toList [] c hmem
  have hfix := lowerFrom_of_lowered u _ [] hlowered
  unfold lower at hfix ⊢
  rw [hfix, String.ofList_toList]

/-- **A lower case form is its own lower case form.** -/
theorem lower_idem (u : CharProperties) (s : String) : lower u (lower u s) = lower u s := by
  have hfix := lowerFrom_of_lowered u (lowerFrom u [] s.toList) []
    (lowerFrom_lowered u s.toList [])
  unfold lower
  rw [String.toList_ofList, hfix]

/-- **Normalising twice is normalising once.** -/
theorem normalise_idem (u : CharProperties) (s : String) :
    normalise u (normalise u s) = normalise u s := by
  unfold normalise
  rw [lower_strip_lower, strip_idem]

end MarketingSuite.Base.Texts
