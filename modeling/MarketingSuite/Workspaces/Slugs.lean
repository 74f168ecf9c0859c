import MarketingSuite.Base.Texts
import MarketingSuite.Workspaces.Service

/-! # Slugs

What `WorkspaceService._generate_slug` makes of a name. A slug is a row of words of the letters `a`
to `z` and the digits, with a dash between two of them; a name that has none of their characters
gets the empty slug, and `create_workspace` stores it. -/

namespace MarketingSuite.Workspaces.Slugs

open MarketingSuite.Lib.Programs MarketingSuite.Lib.Tables
open MarketingSuite.Base.Values MarketingSuite.Base.Models MarketingSuite.Base.Schema
open MarketingSuite.Base.Texts MarketingSuite.Repositories.Base
open MarketingSuite.Workspaces.Service

/-- `[a-z0-9]+`. -/
def Word (w : List Char) : Prop := w ≠ [] ∧ ∀ c ∈ w, isSlugChar c = true

/-- `[a-z0-9]+(-[a-z0-9]+)*`. -/
def WellFormed (slug : String) : Prop :=
  ∃ (w : List Char) (ws : List (List Char)), Word w ∧ (∀ v ∈ ws, Word v) ∧
    slug.toList = w ++ ws.flatMap fun v => '-' :: v

/-- Words and dashes, without two dashes in a row. -/
inductive Spaced : List Char → Prop
  | nil : Spaced []
  | dash {l : List Char} : l.head? ≠ some '-' → Spaced l → Spaced ('-' :: l)
  | char {c : Char} {l : List Char} : isSlugChar c = true → Spaced l → Spaced (c :: l)

variable {l : List Char} {c : Char} {b : Bool}

/-! ### Runs of other characters -/

theorem isSlugChar_iff :
    isSlugChar c = true ↔ 97 ≤ c.toNat ∧ c.toNat ≤ 122 ∨ 48 ≤ c.toNat ∧ c.toNat ≤ 57 := by
  simp [isSlugChar, Char.le_def, UInt32.le_iff_toNat_le]

theorem dash_not_slug : isSlugChar '-' = false := by decide

theorem ne_dash (h : isSlugChar c = true) : c ≠ '-' := by
  rintro rfl
  simp [dash_not_slug] at h

theorem mem_dashRuns (hc : isSlugChar c = true) : c ∈ dashRuns b l ↔ c ∈ l := by
  induction l generalizing b with
  | nil => rfl
  | cons d l ih =>
    unfold dashRuns
    split_ifs with hd
    · rw [List.mem_cons, List.mem_cons, ih]
    · have hne : c ≠ d := by
        rintro rfl
        exact hd hc
      rw [ih, List.mem_cons]
      simp [hne]
    · have hne : c ≠ d := by
        rintro rfl
        exact hd hc
      rw [List.mem_cons, ih, List.mem_cons]
      simp [hne, ne_dash hc]

theorem head?_dashRuns (l : List Char) : (dashRuns true l).head? ≠ some '-' := by
  induction l with
  | nil => simp [dashRuns]
  | cons c l ih =>
    unfold dashRuns
    by_cases hc : isSlugChar c = true
    · rw [if_pos hc]
      simpa using ne_dash hc
    · rw [if_neg hc, if_pos rfl]
      exact ih

theorem spaced_dashRuns (b : Bool) (l : List Char) : Spaced (dashRuns b l) := by
  induction l generalizing b with
  | nil => exact .nil
  | cons c l ih =>
    unfold dashRuns
    split_ifs with hc
    · exact .char hc (ih false)
    · exact ih true
    · exact .dash (head?_dashRuns l) (ih true)

theorem dashRuns_of_spaced (h : Spaced l) (hb : b = true → l.head? ≠ some '-') :
    dashRuns b l = l := by
  induction h generalizing b with
  | nil => rfl
  | @dash l hnext hl ih =>
    have hb' : ¬ b = true := fun hbt => hb hbt rfl
    rw [dashRuns, if_neg (by simp [dash_not_slug]), if_neg hb', ih fun _ => hnext]
  | @char c l hc hl ih => rw [dashRuns, if_pos hc, ih (by simp)]

theorem Spaced.of_suffix {l' : List Char} (hl : Spaced l) (h : l' <:+ l) : Spaced l' := by
  induction hl with
  | nil => rw [List.suffix_nil.mp h]; exact .nil
  | dash hnext hl ih =>
    rcases List.suffix_cons_iff.mp h with rfl | h
    · exact .dash hnext hl
    · exact ih h
  | char hc hl ih =>
    rcases List.suffix_cons_iff.mp h with rfl | h
    · exact .char hc hl
    · exact ih h

theorem Spaced.initial {l' : List Char} (hl : Spaced l) (h : l' <+: l) : Spaced l' := by
  induction hl generalizing l' with
  | nil => rw [List.prefix_nil.mp h]; exact .nil
  | dash hnext hl ih =>
    rcases List.prefix_cons_iff.mp h with rfl | ⟨rest, rfl, hrest⟩
    · exact .nil
    · refine .dash (fun hhead => hnext ?_) (ih hrest)
      obtain ⟨more, rfl⟩ := hrest
      rw [List.head?_append, hhead]
      rfl
  | char hc hl ih =>
    rcases List.prefix_cons_iff.mp h with rfl | ⟨rest, rfl, hrest⟩
    · exact .nil
    · exact .char hc (ih hrest)

/-! ### Words -/

/-- A spaced text that does not end with a dash: the characters before the first dash, and a word
after each dash. -/
theorem words_of_spaced (h : Spaced l) (hlast : l.getLast? ≠ some '-') :
    ∃ (w : List Char) (ws : List (List Char)), (∀ c ∈ w, isSlugChar c = true) ∧
      (∀ v ∈ ws, Word v) ∧ l = w ++ ws.flatMap fun v => '-' :: v := by
  induction h with
  | nil => exact ⟨[], [], by simp, by simp, rfl⟩
  | @dash l hnext hl ih =>
    have hne : l ≠ [] := by
      rintro rfl
      exact hlast rfl
    rw [List.getLast?_cons_of_ne_nil hne] at hlast
    obtain ⟨w, ws, hw, hws, rfl⟩ := ih hlast
    have hword : Word w := by
      refine ⟨?_, hw⟩
      rintro rfl
      rcases ws with _ | ⟨v, ws⟩
      · exact hne rfl
      · exact hnext rfl
    refine ⟨[], w :: ws, by simp, ?_, by simp⟩
    exact List.forall_mem_cons.mpr ⟨hword, hws⟩
  | @char c l hc hl ih =>
    have hlast' : l.getLast? ≠ some '-' := by
      intro hd
      rw [List.getLast?_cons, hd] at hlast
      exact hlast rfl
    obtain ⟨w, ws, hw, hws, rfl⟩ := ih hlast'
    exact ⟨c :: w, ws, List.forall_mem_cons.mpr ⟨hc, hw⟩, hws, by simp⟩

/-! ### The slug of a name -/

variable {u : CharProperties} {name : String}

theorem toList_generateSlug (lower : String → String) (name : String) :
    (generateSlug lower name).toList = List.rdropWhile (fun c => c = '-')
      ((dashRuns false (lower name).toList).dropWhile fun c => c = '-') := by
  unfold generateSlug
  rw [toList_stripOf, String.toList_ofList]

theorem spaced_generateSlug (lower : String → String) (name : String) :
    Spaced (generateSlug lower name).toList := by
  rw [toList_generateSlug]
  have hruns := spaced_dashRuns false (lower name).toList
  exact (hruns.of_suffix (List.dropWhile_suffix _)).initial (List.rdropWhile_prefix _ _)

theorem getLast?_generateSlug (lower : String → String) (name : String) :
    (generateSlug lower name).toList.getLast? ≠ some '-' := by
  rw [toList_generateSlug]
  intro hlast
  simpa using getLast?_rdropWhile _ _ hlast

theorem head?_generateSlug (lower : String → String) (name : String) :
    (generateSlug lower name).toList.head? ≠ some '-' := by
  rw [toList_generateSlug]
  intro hhead
  simpa using head?_rdropWhile_dropWhile _ _ hhead

theorem mem_generateSlug (lower : String → String) (hc : isSlugChar c = true) :
    c ∈ (generateSlug lower name).toList ↔ c ∈ (lower name).toList := by
  have hruns : c ∈ (String.ofList (dashRuns false (lower name).toList)).toList ↔
      c ∈ (lower name).toList := by
    rw [String.toList_ofList, mem_dashRuns hc]
  rw [← hruns]
  exact ⟨fun h => (infix_stripOf _ _).subset h, mem_stripOf (by simpa using ne_dash hc)⟩

/-- Which names have a slug that is not empty: it is well formed. -/
theorem wellFormed_iff (lower : String → String) (name : String) :
    WellFormed (generateSlug lower name) ↔ ∃ c ∈ (lower name).toList, isSlugChar c = true := by
  constructor
  · rintro ⟨w, ws, ⟨hne, hw⟩, -, heq⟩
    obtain ⟨c, hc⟩ := List.exists_mem_of_ne_nil w hne
    refine ⟨c, (mem_generateSlug lower (hw c hc)).mp ?_, hw c hc⟩
    rw [heq]
    exact List.mem_append_left _ hc
  · rintro ⟨c, hmem, hc⟩
    have hslug := (mem_generateSlug lower hc).mpr hmem
    have hhead := head?_generateSlug lower name
    have hlast := getLast?_generateSlug lower name
    obtain ⟨w, ws, hw, hws, heq⟩ := words_of_spaced (spaced_generateSlug lower name) hlast
    refine ⟨w, ws, ⟨?_, hw⟩, hws, heq⟩
    rintro rfl
    rw [heq] at hslug hhead
    rcases ws with _ | ⟨v, ws⟩
    · simp at hslug
    · simp at hhead

/-! ### Letters -/

/-- The ranges with a letter `a` to `z` among their forms; the others lie above these letters. -/
theorem caseRanges_letters : ∀ r ∈ caseRanges,
    (122 < r.image ∧ 122 < r.first) ∨ (r.first = 65 ∧ r.last = 90 ∧ r.image = 97) ∨
      (r.first = 0x212a ∧ r.last = 0x212a ∧ r.image = 107) := by
  have hall : (caseRanges.all fun r => Nat.blt 122 r.image && Nat.blt 122 r.first ||
      (Nat.beq r.first 65 && Nat.beq r.last 90 && Nat.beq r.image 97 ||
        Nat.beq r.first 0x212a && Nat.beq r.last 0x212a && Nat.beq r.image 107)) = true := by
    decide +kernel
  simpa only [List.all_eq_true, Bool.or_eq_true, Bool.and_eq_true, Nat.blt_eq, Nat.beq_eq,
    and_assoc] using hall

theorem le_of_has {r : CaseRange} {n : ℕ} (h : r.has n = true) : r.first ≤ n ∧ n ≤ r.last := by
  simp only [CaseRange.has, Bool.and_eq_true, Nat.ble_eq] at h
  exact h.1

theorem lowerCode_slug {n : ℕ} (hn : 97 ≤ n ∧ n ≤ 122 ∨ 48 ≤ n ∧ n ≤ 57) : lowerCode n = n := by
  refine lowerCode_of_avoided fun q hq => ?_
  by_contra hhas
  have hle := le_of_has (by simpa using hhas)
  have hletters := caseRanges_letters q hq
  omega

theorem lowerCode_capital {n : ℕ} (hn : 65 ≤ n ∧ n ≤ 90) : lowerCode n = n + 32 := by
  have hall : ∀ k < 26, lowerCode (65 + k) = 97 + k := by decide +kernel
  obtain ⟨k, rfl⟩ := Nat.exists_eq_add_of_le hn.1
  rw [hall k (by omega)]
  omega

/-- Which code points have a character of a word as their lower case form. -/
theorem lowerCode_mem_iff (n : ℕ) :
    (97 ≤ lowerCode n ∧ lowerCode n ≤ 122 ∨ 48 ≤ lowerCode n ∧ lowerCode n ≤ 57) ↔
      65 ≤ n ∧ n ≤ 90 ∨ 97 ≤ n ∧ n ≤ 122 ∨ 48 ≤ n ∧ n ≤ 57 ∨ n = 0x212a := by
  constructor
  · intro h
    rcases lowerCode_cases n with heq | ⟨r, hr, hhas, heq⟩
    · omega
    · have hle := le_of_has hhas
      have hletters := caseRanges_letters r hr
      omega
  · have hkelvin : lowerCode 0x212a = 107 := by decide +kernel
    rintro (h | h | h | rfl)
    · rw [lowerCode_capital h]
      omega
    · rw [lowerCode_slug (Or.inl h)]
      exact Or.inl h
    · rw [lowerCode_slug (Or.inr h)]
      exact Or.inr h
    · rw [hkelvin]
      omega

/-- A letter `a` to `z` or `A` to `Z`, a digit, the dotted capital I or the Kelvin sign. -/
def Lettered (c : Char) : Prop :=
  65 ≤ c.toNat ∧ c.toNat ≤ 90 ∨ 97 ≤ c.toNat ∧ c.toNat ≤ 122 ∨ 48 ≤ c.toNat ∧ c.toNat ≤ 57 ∨
    c.toNat = 0x130 ∨ c.toNat = 0x212a

instance (c : Char) : Decidable (Lettered c) := by unfold Lettered; infer_instance

/-- The character with a code point that is a letter or a digit. -/
theorem isSlugChar_ofNat (n : ℕ) :
    isSlugChar (Char.ofNat n) = true ↔ 97 ≤ n ∧ n ≤ 122 ∨ 48 ≤ n ∧ n ≤ 57 := by
  have hsmall : ∀ n < 123, (Char.ofNat n).toNat = n := by decide +kernel
  rw [isSlugChar_iff]
  by_cases hn : n < 123
  · rw [hsmall n hn]
  · have hor := toNat_ofNat_or n
    omega

theorem lettered_iff (u : CharProperties) (before after : List Char) (c : Char) :
    (∃ d ∈ lowerAt u before c after, isSlugChar d = true) ↔ Lettered c := by
  unfold lowerAt lowerChar Lettered
  split_ifs with hsigma hfinal hdotted
  · have hslug : isSlugChar 'ς' = false := by decide
    simp [hsigma, hslug]
  · have hslug : isSlugChar 'σ' = false := by decide
    simp [hsigma, hslug]
  · have hslug : isSlugChar 'i' = true := by decide
    simp [hdotted, hslug]
  · simp only [List.mem_singleton, exists_eq_left, isSlugChar_ofNat, lowerCode_mem_iff]
    simp [hdotted]

theorem exists_lettered_iff (u : CharProperties) (before l : List Char) :
    (∃ d ∈ lowerFrom u before l, isSlugChar d = true) ↔ ∃ c ∈ l, Lettered c := by
  induction l generalizing before with
  | nil => simp [lowerFrom]
  | cons c l ih =>
    have hhere := lettered_iff u before l c
    have hrest := ih (c :: before)
    simp only [lowerFrom, List.mem_append, or_and_right, exists_or, hhere, hrest]
    simp

/-! ### Slugs of slugs -/

theorem Spaced.mem (h : Spaced l) (hc : c ∈ l) : c = '-' ∨ isSlugChar c = true := by
  induction h with
  | nil => simp at hc
  | dash _ _ ih =>
    rcases List.mem_cons.mp hc with rfl | hc
    · exact Or.inl rfl
    · exact ih hc
  | char hd _ ih =>
    rcases List.mem_cons.mp hc with rfl | hc
    · exact Or.inr hd
    · exact ih hc

theorem lowered_of_spaced (h : Spaced l) (hc : c ∈ l) : Lowered c := by
  rcases h.mem hc with rfl | hc
  · decide
  · have hcode := isSlugChar_iff.mp hc
    exact ⟨lowerCode_slug hcode, by omega⟩

/-- **A slug is its own slug.** -/
theorem generateSlug_idem (u : CharProperties) (name : String) :
    generateSlug (lower u) (generateSlug (lower u) name) = generateSlug (lower u) name := by
  have hspaced := spaced_generateSlug (lower u) name
  have hlower : lower u (generateSlug (lower u) name) = generateSlug (lower u) name := by
    show String.ofList (lowerFrom u [] (generateSlug (lower u) name).toList) = _
    rw [lowerFrom_of_lowered u _ [] fun c hc => lowered_of_spaced hspaced hc, String.ofList_toList]
  have hruns := dashRuns_of_spaced (b := false) hspaced (by simp)
  conv_lhs => rw [generateSlug, hlower, hruns, String.ofList_toList, generateSlug, stripOf_idem]
  rfl

/-! ### Creating workspaces -/

variable {s s' : Database} {d d' : Draws} {user user' : User} {data data' : WorkspaceCreateInternal}
  {w : Workspace}

theorem orElse_of_not_truthy {a : Option String} {x : String} (h : truthy a = false) :
    orElse a x = x := by
  cases a with
  | none => rfl
  | some a => simp [orElse, by simpa [truthy] using h]

/-- A workspace that is created without a slug has the one of its name. -/
theorem slug_of_create (lower : String → String) (hdata : truthy data.slug = false)
    (h : (createWorkspace lower d user data).Returns s w s') :
    w.slug = generateSlug lower data.name := by
  obtain ⟨_, _, _, _, -, rfl, -⟩ := createWorkspace_spec h
  exact orElse_of_not_truthy hdata

/-- **A slug is taken once**: the next workspace that gets the same one, given or generated, is
refused. -/
theorem duplicate_refused (lower : String → String)
    (h : (createWorkspace lower d user data).Returns s w s')
    (hslug : orElse data'.slug (generateSlug lower data'.name) = w.slug) :
    (createWorkspace lower d' user' data').Raises s'
      (.http 400 "Workspace slug already exists.") s' := by
  obtain ⟨o, W, T, L, -, -, hW, -, rfl⟩ := createWorkspace_spec h
  have hmem : w ∈ W.rows := Table.mem_insert_self hW
  have hget : (Repositories.getBySlug w.slug true).Returns
      { s with workspaces := W, workspaceMembers := T, auditLogs := L } (some w)
      { s with workspaces := W, workspaceMembers := T, auditLogs := L } := by
    refine returns_selectOne_some hmem (by simp) fun q hq hp => ?_
    simp only [Bool.true_or, Bool.and_true, decide_eq_true_eq] at hp
    exact W.eq_of_not_compatible hq hmem (by simp [Keyed.compatible, hp])
  unfold createWorkspace
  rw [hslug]
  refine (Prog.raises_bind_of_returns hget).mpr (Prog.raises_bind.mpr (Or.inl ?_))
  exact Prog.raises_require.mpr ⟨Bool.false_ne_true, rfl, rfl⟩

theorem generateSlug_of_unlettered (u : CharProperties) (h : ∀ c ∈ name.toList, ¬ Lettered c) :
    generateSlug (lower u) name = "" := by
  have hhead := head?_generateSlug (lower u) name
  have hdash : ∀ c ∈ (generateSlug (lower u) name).toList, c = '-' := by
    intro c hc
    refine ((spaced_generateSlug (lower u) name).mem hc).resolve_right fun hslug => ?_
    have hlower := (mem_generateSlug (lower u) hslug).mp hc
    unfold lower at hlower
    rw [String.toList_ofList] at hlower
    obtain ⟨d, hd, hlettered⟩ := (exists_lettered_iff u [] name.toList).mp ⟨c, hlower, hslug⟩
    exact h d hd hlettered
  rw [← String.toList_eq_nil_iff]
  cases hlist : (generateSlug (lower u) name).toList with
  | nil => rfl
  | cons c l =>
    rw [hlist] at hhead hdash
    rw [hdash c List.mem_cons_self] at hhead
    exact absurd rfl hhead

/-- Of the workspaces whose names have no letter, the first one that is created without a slug keeps
the others from being created so. -/
theorem second_unlettered_refused (u : CharProperties)
    (h : (createWorkspace (lower u) d user data).Returns s w s')
    (hdata : truthy data.slug = false) (hname : ∀ c ∈ data.name.toList, ¬ Lettered c)
    (hdata' : truthy data'.slug = false) (hname' : ∀ c ∈ data'.name.toList, ¬ Lettered c) :
    (createWorkspace (lower u) d' user' data').Raises s'
      (.http 400 "Workspace slug already exists.") s' := by
  refine duplicate_refused (lower u) h ?_
  rw [slug_of_create (lower u) hdata h, orElse_of_not_truthy hdata',
    generateSlug_of_unlettered u hname, generateSlug_of_unlettered u hname']

/-- The slug of the name is well formed and its own slug, and no workspace of that name that is
created without a slug has an empty one. -/
structure WellSlugged (u : CharProperties) (name : String) : Prop where
  form : WellFormed (generateSlug (lower u) name)
  idem : generateSlug (lower u) (generateSlug (lower u) name) = generateSlug (lower u) name
  stored : ∀ {s s' : Database} {d : Draws} {user : User} {data : WorkspaceCreateInternal}
    {w : Workspace}, data.name = name → truthy data.slug = false →
      (createWorkspace (lower u) d user data).Returns s w s' → w.slug ≠ ""

/-- **Generated slugs are well formed** for the names with a letter or a digit that is ASCII or
becomes it in lower case, and for no other. -/
theorem wellSlugged_iff (u : CharProperties) (name : String) :
    WellSlugged u name ↔ ∃ c ∈ name.toList, Lettered c := by
  have hform : WellFormed (generateSlug (lower u) name) ↔ ∃ c ∈ name.toList, Lettered c := by
    rw [wellFormed_iff, ← exists_lettered_iff u []]
    unfold lower
    rw [String.toList_ofList]
  refine ⟨fun h => hform.mp h.form, fun h => ⟨hform.mpr h, generateSlug_idem u name, ?_⟩⟩
  rintro s s' d user data w rfl hslug hret hempty
  obtain ⟨w₀, ws, ⟨hne, -⟩, -, heq⟩ := hform.mpr h
  rw [← slug_of_create (lower u) hslug hret, hempty] at heq
  exact hne (List.append_eq_nil_iff.mp heq.symm).1

/-- No character is a letter with a case. -/
def caseless : CharProperties := ⟨fun _ => false, fun _ => false⟩

/-- **A name of question marks has the empty slug.** -/
theorem question_marks_have_no_slug :
    (∃ c ∈ "???".toList, isSpace c = false) ∧ ¬ WellSlugged caseless "???" := by
  have hnone : ∀ c ∈ "???".toList, ¬ Lettered c := by
    intro c hc
    obtain rfl : c = '?' := List.eq_of_mem_replicate (show c ∈ List.replicate 3 '?' from hc)
    decide
  have hmark : '?' ∈ "???".toList := List.mem_cons_self
  refine ⟨⟨'?', hmark, by decide⟩, fun h => ?_⟩
  obtain ⟨w, ws, ⟨hne, -⟩, -, heq⟩ := h.form
  rw [generateSlug_of_unlettered caseless hnone] at heq
  exact hne (List.append_eq_nil_iff.mp heq.symm).1

end MarketingSuite.Workspaces.Slugs
