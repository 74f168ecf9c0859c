import Mathlib.Data.List.Infix
import Mathlib.Data.Set.Image
import Mathlib.Algebra.GroupWithZero.Nat
import Mathlib.Algebra.Order.BigOperators.Group.List
import Mathlib.Tactic.Common

/-! # Patterns with wildcards

Patterns as `LIKE` reads them, over any alphabet: one character stands for any text, one for any
single character, and one takes the meaning of the character behind it away. A text put between two
of the first kind finds what contains it, as long as it has none of the three itself; a text that
has one finds something else, too (`exists_ilike_lighter`). -/

namespace MarketingSuite.Lib.Patterns

/-- The characters with a meaning of their own. -/
structure Wild (α : Type) where
  any : α
  one : α
  escape : α
  any_ne_one : any ≠ one
  any_ne_escape : any ≠ escape
  one_ne_escape : one ≠ escape

/-- What a pattern consists of. -/
inductive Token (α : Type)
  | any
  | one
  | lit (c : α)

variable {α : Type} [DecidableEq α] {w : Wild α}

namespace Wild

/-- The character has a meaning of its own. -/
def Special (w : Wild α) (c : α) : Prop := c = w.any ∨ c = w.one ∨ c = w.escape

instance (w : Wild α) (c : α) : Decidable (w.Special c) := inferInstanceAs (Decidable (_ ∨ _))

/-- No character of the text has a meaning of its own. -/
def Plain (w : Wild α) (l : List α) : Prop := ∀ c ∈ l, ¬ w.Special c

instance (w : Wild α) (l : List α) : Decidable (w.Plain l) :=
  inferInstanceAs (Decidable (∀ c ∈ _, _))

/-- What a character stands for that nothing escapes. -/
def token (w : Wild α) (c : α) : Token α :=
  if c = w.any then .any else if c = w.one then .one else .lit c

/-- The tokens of a pattern; none if it ends with an escape. -/
def tokens (w : Wild α) : List α → Option (List (Token α))
  | [] => some []
  | [c] => if c = w.escape then none else some [w.token c]
  | c :: d :: l =>
    if c = w.escape then (tokens w l).map (Token.lit d :: ·)
    else (tokens w (d :: l)).map (w.token c :: ·)

end Wild

/-- The text fits the tokens. -/
def accepts : List (Token α) → List α → Bool
  | [], t => t.isEmpty
  | .any :: p, t => t.tails.any fun u => accepts p u
  | .one :: p, t =>
    match t with
    | [] => false
    | _ :: t => accepts p t
  | .lit c :: p, t =>
    match t with
    | [] => false
    | d :: t => decide (d = c) && accepts p t

/-- The text fits the pattern, if that is one. -/
def like (w : Wild α) (pattern t : List α) : Option Bool :=
  (w.tokens pattern).map fun p => accepts p t

/-- The pattern that looks for a text anywhere. -/
def around (w : Wild α) (l : List α) : List α := w.any :: (l ++ [w.any])

/-! ### Which texts fit -/

variable {p q : List (Token α)} {l t : List α} {c x : α}

@[simp] theorem accepts_nil : accepts ([] : List (Token α)) t = true ↔ t = [] :=
  List.isEmpty_iff

@[simp] theorem accepts_any :
    accepts (.any :: p) t = true ↔ ∃ u v, t = u ++ v ∧ accepts p v = true := by
  simp only [accepts, List.any_eq_true, List.mem_tails]
  constructor
  · rintro ⟨v, ⟨u, rfl⟩, h⟩
    exact ⟨u, v, rfl, h⟩
  · rintro ⟨u, v, rfl, h⟩
    exact ⟨v, ⟨u, rfl⟩, h⟩

@[simp] theorem accepts_one :
    accepts (.one :: p) t = true ↔ ∃ d u, t = d :: u ∧ accepts p u = true := by
  rcases t with _ | ⟨d, u⟩
  · simp [accepts]
  · simp [accepts]

@[simp] theorem accepts_lit :
    accepts (.lit c :: p) t = true ↔ ∃ u, t = c :: u ∧ accepts p u = true := by
  rcases t with _ | ⟨d, u⟩
  · simp [accepts]
  · simp only [accepts, Bool.and_eq_true, decide_eq_true_eq, List.cons.injEq]
    constructor
    · rintro ⟨rfl, h⟩
      exact ⟨u, ⟨rfl, rfl⟩, h⟩
    · rintro ⟨_, ⟨rfl, rfl⟩, h⟩
      exact ⟨rfl, h⟩

/-- **Patterns compose**: a text fits one pattern and then another if its parts do. -/
theorem accepts_append : accepts (p ++ q) t = true ↔
    ∃ u v, t = u ++ v ∧ accepts p u = true ∧ accepts q v = true := by
  induction p generalizing t with
  | nil => simp
  | cons a p ih =>
    cases a with
    | any =>
      simp only [List.cons_append, accepts_any, ih]
      constructor
      · rintro ⟨u, _, rfl, u', v, rfl, hp, hq⟩
        exact ⟨u ++ u', v, (List.append_assoc u u' v).symm, ⟨u, u', rfl, hp⟩, hq⟩
      · rintro ⟨_, v, rfl, ⟨u, u', rfl, hp⟩, hq⟩
        exact ⟨u, u' ++ v, List.append_assoc u u' v, u', v, rfl, hp, hq⟩
    | one =>
      simp only [List.cons_append, accepts_one, ih]
      constructor
      · rintro ⟨d, _, rfl, u, v, rfl, hp, hq⟩
        exact ⟨d :: u, v, rfl, ⟨d, u, rfl, hp⟩, hq⟩
      · rintro ⟨_, v, rfl, ⟨d, u, rfl, hp⟩, hq⟩
        exact ⟨d, u ++ v, rfl, u, v, rfl, hp, hq⟩
    | lit c =>
      simp only [List.cons_append, accepts_lit, ih]
      constructor
      · rintro ⟨_, rfl, u, v, rfl, hp, hq⟩
        exact ⟨c :: u, v, rfl, ⟨u, rfl, hp⟩, hq⟩
      · rintro ⟨_, v, rfl, ⟨u, rfl, hp⟩, hq⟩
        exact ⟨u ++ v, rfl, u, v, rfl, hp, hq⟩

theorem accepts_lits : accepts (l.map .lit) t = true ↔ t = l := by
  induction l generalizing t with
  | nil => simp
  | cons c l ih =>
    simp only [List.map_cons, accepts_lit, ih]
    constructor
    · rintro ⟨_, rfl, rfl⟩
      rfl
    · rintro rfl
      exact ⟨l, rfl, rfl⟩

/-- Literal characters with any text before and after them fit what contains them. -/
theorem accepts_part : accepts (.any :: (l.map .lit ++ [.any])) t = true ↔ l <:+: t := by
  simp only [accepts_any, accepts_append, accepts_lits, accepts_nil]
  constructor
  · rintro ⟨u, _, rfl, _, v, rfl, rfl, v', _, rfl, rfl⟩
    exact ⟨u, v', by simp⟩
  · rintro ⟨u, v, rfl⟩
    exact ⟨u, l ++ v, by simp, l, v, rfl, rfl, v, [], by simp, rfl⟩

/-! ### Plain texts -/

theorem token_of_not_special (h : ¬ w.Special c) : w.token c = .lit c := by
  simp only [Wild.Special, not_or] at h
  simp [Wild.token, h.1, h.2.1]

theorem tokens_cons (h : c ≠ w.escape) : w.tokens (c :: l) = (w.tokens l).map (w.token c :: ·) := by
  rcases l with _ | ⟨d, l⟩
  · simp [Wild.tokens, h]
  · simp [Wild.tokens, h]

theorem tokens_escape (c : α) (l : List α) :
    w.tokens (w.escape :: c :: l) = (w.tokens l).map (Token.lit c :: ·) := by
  simp [Wild.tokens]

theorem tokens_plain_append (h : w.Plain l) (r : List α) :
    w.tokens (l ++ r) = (w.tokens r).map (l.map .lit ++ ·) := by
  induction l with
  | nil => simp
  | cons c l ih =>
    have hc := h c List.mem_cons_self
    have hl : w.Plain l := fun d hd => h d (List.mem_cons_of_mem c hd)
    have hne : c ≠ w.escape := fun heq => hc (Or.inr (Or.inr heq))
    rw [List.cons_append, tokens_cons hne, ih hl, token_of_not_special hc, Option.map_map]
    rfl

theorem tokens_any : w.tokens [w.any] = some [.any] := by
  simp [Wild.tokens, Wild.token, w.any_ne_escape]

/-- **A plain text between two wildcards** finds what contains it. -/
theorem like_around_of_plain (h : w.Plain l) (t : List α) :
    like w (around w l) t = some (decide (l <:+: t)) := by
  have hany : w.token w.any = .any := if_pos rfl
  have htokens : w.tokens (around w l) = some (.any :: (l.map .lit ++ [.any])) := by
    rw [around, tokens_cons w.any_ne_escape, tokens_plain_append h, tokens_any, hany]
    rfl
  rw [like, htokens, Option.map_some]
  congr 1
  exact Bool.eq_iff_iff.mpr (accepts_part.trans decide_eq_true_iff.symm)

/-! ### Texts that are not plain -/

/-- A text that fits a token: `x` for a wildcard that asks for one character. -/
def sample (x : α) : Token α → List α
  | .any => []
  | .one => [x]
  | .lit c => [c]

theorem accepts_sample (x : α) (p : List (Token α)) : accepts p (p.flatMap (sample x)) = true := by
  induction p with
  | nil => rfl
  | cons a p ih =>
    cases a with
    | any => exact accepts_any.mpr ⟨[], _, rfl, ih⟩
    | one => exact accepts_one.mpr ⟨x, _, rfl, ih⟩
    | lit c => exact accepts_lit.mpr ⟨_, rfl, ih⟩

/-- What a character weighs: an escape more than the character that it stands before. -/
def cost (w : Wild α) (c : α) : ℕ :=
  if c = w.escape then 2 else if w.Special c then 1 else 0

/-- What a text weighs. -/
def weight (w : Wild α) (l : List α) : ℕ := (l.map (cost w)).sum

@[simp] theorem weight_nil : weight w ([] : List α) = 0 := rfl

@[simp] theorem weight_cons : weight w (c :: l) = cost w c + weight w l := rfl

@[simp] theorem weight_append {l' : List α} : weight w (l ++ l') = weight w l + weight w l' := by
  simp [weight]

theorem cost_escape : cost w w.escape = 2 := if_pos rfl

theorem cost_any : cost w w.any = 1 := by
  have hspecial : w.Special w.any := Or.inl rfl
  simp [cost, w.any_ne_escape, hspecial]

theorem cost_of_not_special (h : ¬ w.Special c) : cost w c = 0 := by
  have hne : c ≠ w.escape := fun heq => h (Or.inr (Or.inr heq))
  simp [cost, hne, h]

theorem cost_pos (h : w.Special c) : 0 < cost w c := by
  unfold cost
  split_ifs
  · omega
  · omega

theorem weight_le_of_infix (h : l <:+: t) : weight w l ≤ weight w t := by
  obtain ⟨u, v, rfl⟩ := h
  simp only [weight_append]
  omega

theorem weight_eq_zero_of_plain (h : w.Plain l) : weight w l = 0 := by
  induction l with
  | nil => rfl
  | cons c l ih =>
    have hc := cost_of_not_special (h c List.mem_cons_self)
    have hl := ih fun d hd => h d (List.mem_cons_of_mem c hd)
    rw [weight_cons, hc, hl]

/-- A character with a meaning of its own weighs more than what fits it. -/
theorem weight_sample_token (hx : ¬ w.Special x) (hne : c ≠ w.escape) :
    weight w (sample x (w.token c)) ≤ cost w c ∧
      (w.Special c → weight w (sample x (w.token c)) < cost w c) := by
  by_cases hc : w.Special c
  · have hpos := cost_pos hc
    have hzero : weight w (sample x (w.token c)) = 0 := by
      rcases hc with rfl | rfl | rfl
      · simp [Wild.token, sample]
      · simp [Wild.token, sample, w.any_ne_one.symm, cost_of_not_special hx]
      · exact absurd rfl hne
    rw [hzero]
    exact ⟨Nat.zero_le _, fun _ => hpos⟩
  · rw [token_of_not_special hc]
    exact ⟨by simp [sample], fun h => absurd h hc⟩

/-- **A text with a wildcard or an escape** is read as a pattern that fits a lighter text. -/
theorem exists_tokens_lighter (w : Wild α) (hx : ¬ w.Special x) (l : List α) :
    ∃ p, w.tokens (l ++ [w.any]) = some p ∧ weight w (p.flatMap (sample x)) ≤ weight w l ∧
      (¬ w.Plain l → weight w (p.flatMap (sample x)) < weight w l) := by
  induction hn : l.length using Nat.strong_induction_on generalizing l with
  | _ n ih =>
    rcases l with _ | ⟨c, l⟩
    · refine ⟨[.any], tokens_any, by simp [sample], fun h => ?_⟩
      exact absurd (fun d hd => absurd hd List.not_mem_nil) h
    by_cases hc : c = w.escape
    · subst hc
      rcases l with _ | ⟨d, l⟩
      · -- the escape takes the meaning of the wildcard that is put behind the text
        refine ⟨[.lit w.any], ?_, ?_, fun _ => ?_⟩
        · exact tokens_escape w.any []
        · simp [sample, cost_any, cost_escape]
        · simp [sample, cost_any, cost_escape]
      · obtain ⟨p, hp, hle, -⟩ := ih l.length (by simp at hn; omega) l rfl
        refine ⟨.lit d :: p, ?_, ?_, fun _ => ?_⟩
        · rw [List.cons_append, List.cons_append, tokens_escape, hp]
          rfl
        · simp only [List.flatMap_cons, sample, weight_append, weight_cons, weight_nil, cost_escape]
          omega
        · simp only [List.flatMap_cons, sample, weight_append, weight_cons, weight_nil, cost_escape]
          omega
    · obtain ⟨p, hp, hle, hlt⟩ := ih l.length (by simp at hn; omega) l rfl
      obtain ⟨hcle, hclt⟩ := weight_sample_token hx hc
      refine ⟨w.token c :: p, ?_, ?_, fun hnot => ?_⟩
      · rw [List.cons_append, tokens_cons hc, hp]
        rfl
      · simp only [List.flatMap_cons, weight_append, weight_cons]
        omega
      · simp only [List.flatMap_cons, weight_append, weight_cons]
        by_cases hspecial : w.Special c
        · have := hclt hspecial
          omega
        · have hrest : ¬ w.Plain l := by
            intro hl
            refine hnot fun d hd => ?_
            rcases List.mem_cons.mp hd with rfl | hd
            · exact hspecial
            · exact hl d hd
          have := hlt hrest
          omega

theorem mem_of_lit_mem_tokens (hp : w.tokens l = some p) (hc : .lit c ∈ p) : c ∈ l := by
  induction hn : l.length using Nat.strong_induction_on generalizing l p with
  | _ n ih =>
    rcases l with _ | ⟨a, l⟩
    · rw [← Option.some.inj hp] at hc
      exact absurd hc List.not_mem_nil
    by_cases ha : a = w.escape
    · subst ha
      rcases l with _ | ⟨d, l⟩
      · simp [Wild.tokens] at hp
      · rw [tokens_escape] at hp
        obtain ⟨p', hp', rfl⟩ := Option.map_eq_some_iff.mp hp
        rcases List.mem_cons.mp hc with heq | hc
        · rw [Token.lit.inj heq]
          exact List.mem_cons_of_mem _ List.mem_cons_self
        · have := ih l.length (by simp at hn; omega) hp' hc rfl
          exact List.mem_cons_of_mem _ (List.mem_cons_of_mem _ this)
    · rw [tokens_cons ha] at hp
      obtain ⟨p', hp', rfl⟩ := Option.map_eq_some_iff.mp hp
      rcases List.mem_cons.mp hc with heq | hc
      · have hac : a = c := by
          unfold Wild.token at heq
          split_ifs at heq
          exact (Token.lit.inj heq).symm
        rw [hac]
        exact List.mem_cons_self
      · exact List.mem_cons_of_mem _ (ih l.length (by simp at hn; omega) hp' hc rfl)

/-! ### Without regard to case -/

/-- A way to make characters equal that differ in case: it leaves the characters with a meaning of
their own alone, and makes no other character one of them. -/
structure Folding (w : Wild α) where
  fold : α → α
  special : ∀ c, w.Special c → fold c = c
  plain : ∀ c, ¬ w.Special c → ¬ w.Special (fold c)

/-- The text fits the pattern, without regard to case. -/
def ilike (F : Folding w) (pattern t : List α) : Option Bool :=
  like w (pattern.map F.fold) (t.map F.fold)

/-- `l` occurs in `t`, without regard to case. -/
def Occurs (F : Folding w) (l t : List α) : Prop := l.map F.fold <:+: t.map F.fold

instance (F : Folding w) (l t : List α) : Decidable (Occurs F l t) :=
  inferInstanceAs (Decidable (_ <:+: _))

variable {F : Folding w}

omit [DecidableEq α] in
theorem map_around : (around w l).map F.fold = around w (l.map F.fold) := by
  have hany : F.fold w.any = w.any := F.special _ (Or.inl rfl)
  simp [around, hany]

omit [DecidableEq α] in
theorem plain_map : w.Plain (l.map F.fold) ↔ w.Plain l := by
  constructor
  · intro h c hc hspecial
    refine h (F.fold c) (List.mem_map_of_mem hc) ?_
    rw [F.special c hspecial]
    exact hspecial
  · intro h c hc
    obtain ⟨d, hd, rfl⟩ := List.mem_map.mp hc
    exact F.plain d (h d hd)

/-- **A plain text between two wildcards** finds the texts in which it occurs. -/
theorem ilike_around_of_plain (h : w.Plain l) (t : List α) :
    ilike F (around w l) t = some (decide (Occurs F l t)) := by
  rw [ilike, map_around, like_around_of_plain (plain_map.mpr h)]
  rfl

omit [DecidableEq α] in
/-- A list whose elements have preimages with a property has such a preimage itself. -/
theorem exists_map_eq {P : α → Prop} {f : α → α} (h : ∀ c ∈ l, ∃ d, P d ∧ f d = c) :
    ∃ t : List α, t.map f = l ∧ ∀ d ∈ t, P d := by
  induction l with
  | nil => exact ⟨[], rfl, fun d hd => absurd hd List.not_mem_nil⟩
  | cons c l ih =>
    obtain ⟨hc, hl⟩ := List.forall_mem_cons.mp h
    obtain ⟨d, hd, rfl⟩ := hc
    obtain ⟨t, rfl, ht⟩ := ih hl
    exact ⟨d :: t, rfl, List.forall_mem_cons.mpr ⟨hd, ht⟩⟩

/-- **What a text finds besides**: its pattern fits a text made of its characters, a wildcard and
any plain character, which is lighter if the text is not plain. -/
theorem exists_ilike_lighter (F : Folding w) (hx : ¬ w.Special x) (l : List α) :
    ∃ t : List α, ilike F (around w l) t = some true ∧ (∀ c ∈ t, c = x ∨ c ∈ l ∨ c = w.any) ∧
      (¬ w.Plain l → weight w (t.map F.fold) < weight w (l.map F.fold)) := by
  obtain ⟨p, hp, -, hlt⟩ := exists_tokens_lighter w (F.plain x hx) (l.map F.fold)
  have hpre : ∀ c ∈ p.flatMap (sample (F.fold x)),
      ∃ d, (d = x ∨ d ∈ l ∨ d = w.any) ∧ F.fold d = c := by
    intro c hc
    obtain ⟨a, ha, hca⟩ := List.mem_flatMap.mp hc
    cases a with
    | any => exact absurd hca List.not_mem_nil
    | one => exact ⟨x, Or.inl rfl, (List.mem_singleton.mp hca).symm⟩
    | lit c' =>
      obtain rfl := List.mem_singleton.mp hca
      rcases List.mem_append.mp (mem_of_lit_mem_tokens hp ha) with hmem | hmem
      · obtain ⟨d, hd, rfl⟩ := List.mem_map.mp hmem
        exact ⟨d, Or.inr (Or.inl hd), rfl⟩
      · obtain rfl := List.mem_singleton.mp hmem
        exact ⟨w.any, Or.inr (Or.inr rfl), F.special _ (Or.inl rfl)⟩
  obtain ⟨t, ht, hchars⟩ := exists_map_eq hpre
  refine ⟨t, ?_, hchars, fun hnot => ?_⟩
  · have hany : w.token w.any = .any := if_pos rfl
    have htokens : w.tokens (around w (l.map F.fold)) = some (.any :: p) := by
      rw [around, tokens_cons w.any_ne_escape, hp, hany]
      rfl
    rw [ilike, map_around, like, htokens, ht, Option.map_some]
    exact congrArg some (accepts_any.mpr ⟨[], _, rfl, accepts_sample _ p⟩)
  · rw [ht]
    exact hlt fun h => hnot (plain_map.mp h)

theorem not_occurs_of_lighter (h : weight w (t.map F.fold) < weight w (l.map F.fold)) :
    ¬ Occurs F l t := by
  intro hocc
  have := weight_le_of_infix (w := w) hocc
  omega

end MarketingSuite.Lib.Patterns
