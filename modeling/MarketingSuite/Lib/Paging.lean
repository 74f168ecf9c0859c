import Mathlib.Data.List.Nodup
import Mathlib.Data.List.Perm.Basic
import Mathlib.Order.Lattice
import Mathlib.Tactic.Common

/-! # Reading a list page by page

A query with an offset and a limit gives a part of the list, in an order that goes by a key. The key
may be the same for several things, and then each query may put them in another order. A reader goes
from page to page until one is short. He has read the list exactly if no page ends among things with
the same key: otherwise two queries can be answered so that he gets one of them twice and misses
another one. -/

namespace MarketingSuite.Lib.Paging

variable {α β : Type} [LinearOrder β] {key : α → β} {L A B : List α} {pages : ℕ → List α}
  {p : α → Bool} {n c i j : ℕ} {a : α} {v : β}

/-! ### Arrangements -/

/-- `A` has the things of `L` in an order that the key allows. -/
structure Arranged (key : α → β) (L A : List α) : Prop where
  perm : A.Perm L
  sorted : A.Pairwise fun a b => key a ≤ key b

/-- `f` arranges every list. -/
def Orders (key : α → β) (f : List α → List α) : Prop := ∀ L, Arranged key L (f L)

theorem exists_arranged (key : α → β) (L : List α) : ∃ A, Arranged key L A := by
  refine ⟨L.mergeSort fun a b => decide (key a ≤ key b), List.mergeSort_perm _ _, ?_⟩
  have hsorted : (L.mergeSort fun a b => decide (key a ≤ key b)).Pairwise
      fun a b => decide (key a ≤ key b) = true := by
    refine List.pairwise_mergeSort (fun a b c hab hbc => ?_) (fun a b => ?_) L
    · simp only [decide_eq_true_eq] at hab hbc ⊢
      exact le_trans hab hbc
    · simpa using le_total (key a) (key b)
  exact hsorted.imp fun h => by simpa using h

theorem exists_orders (h : Arranged key L A) : ∃ f, Orders key f ∧ f L = A := by
  classical
  choose g hg using exists_arranged key
  refine ⟨fun L' => if L' = L then A else g L', fun L' => ?_, if_pos rfl⟩
  dsimp only
  split_ifs with hL
  · rw [hL]
    exact h
  · exact hg L'

/-- What comes first in a sorted list, by a test that goes down with the key. -/
theorem eq_filter_append (hs : A.Pairwise fun a b => key a ≤ key b)
    (hp : ∀ a b, key a ≤ key b → p b = true → p a = true) :
    A = A.filter p ++ A.filter fun a => !p a := by
  induction A with
  | nil => rfl
  | cons a A ih =>
    obtain ⟨hle, hs⟩ := List.pairwise_cons.mp hs
    by_cases ha : p a = true
    · rw [List.filter_cons_of_pos ha, List.filter_cons_of_neg (by simp [ha]), List.cons_append,
        ← ih hs]
    · have hnone : ∀ b ∈ a :: A, ¬ p b = true := by
        intro b hb hpb
        rcases List.mem_cons.mp hb with rfl | hb
        · exact ha hpb
        · exact ha (hp a b (hle b hb) hpb)
      rw [List.filter_eq_nil_iff.mpr hnone, List.nil_append]
      refine (List.filter_eq_self.mpr fun b hb => ?_).symm
      simpa using hnone b hb

/-! ### Places -/

/-- How many things have a smaller key. -/
def below (key : α → β) (L : List α) (v : β) : ℕ := L.countP fun a => key a < v

/-- How many things have this key or a smaller one. -/
def upTo (key : α → β) (L : List α) (v : β) : ℕ := L.countP fun a => key a ≤ v

/-- The first `c` places end among things with the same key. -/
def Divided (key : α → β) (L : List α) (c : ℕ) : Prop :=
  ∃ a ∈ L, below key L (key a) < c ∧ c < upTo key L (key a)

instance : Decidable (Divided key L c) := by unfold Divided; infer_instance

theorem not_divided_of_length_le (hc : L.length ≤ c) : ¬ Divided key L c := by
  rintro ⟨a, -, -, hlt⟩
  have hle : upTo key L (key a) ≤ L.length := List.countP_le_length
  omega

theorem below_split (hs : A.Pairwise fun a b => key a ≤ key b) (v : β) :
    ∃ F G, A = F ++ G ∧ F.length = below key A v ∧ (∀ a ∈ F, key a < v) ∧ ∀ a ∈ G, v ≤ key a := by
  refine ⟨_, _, eq_filter_append (p := fun a => decide (key a < v)) hs ?_,
    List.countP_eq_length_filter.symm, fun a ha => ?_, fun a ha => ?_⟩
  · intro a b hab hb
    simp only [decide_eq_true_eq] at hb ⊢
    exact lt_of_le_of_lt hab hb
  · simpa using (List.mem_filter.mp ha).2
  · simpa using (List.mem_filter.mp ha).2

theorem upTo_split (hs : A.Pairwise fun a b => key a ≤ key b) (v : β) :
    ∃ F G, A = F ++ G ∧ F.length = upTo key A v ∧ (∀ a ∈ F, key a ≤ v) ∧ ∀ a ∈ G, v < key a := by
  refine ⟨_, _, eq_filter_append (p := fun a => decide (key a ≤ v)) hs ?_,
    List.countP_eq_length_filter.symm, fun a ha => ?_, fun a ha => ?_⟩
  · intro a b hab hb
    simp only [decide_eq_true_eq] at hb ⊢
    exact le_trans hab hb
  · simpa using (List.mem_filter.mp ha).2
  · simpa using (List.mem_filter.mp ha).2

theorem mem_take_of_upTo_le (hs : A.Pairwise fun a b => key a ≤ key b) (ha : a ∈ A)
    (hc : upTo key A (key a) ≤ c) : a ∈ A.take c := by
  obtain ⟨F, G, hA, hF, -, hG⟩ := upTo_split hs (key a)
  have hmem : a ∈ F := by
    rw [hA] at ha
    rcases List.mem_append.mp ha with ha | ha
    · exact ha
    · exact absurd (hG a ha) (lt_irrefl _)
  have htake : A.take c = F ++ G.take (c - F.length) := by
    conv_lhs => rw [hA]
    rw [List.take_append, List.take_of_length_le (by omega)]
  rw [htake]
  exact List.mem_append_left _ hmem

/-- A thing is not among the first places if they all go to smaller keys. -/
theorem not_mem_take_of_le_below (hs : A.Pairwise fun a b => key a ≤ key b)
    (hc : c ≤ below key A (key a)) : a ∉ A.take c := by
  obtain ⟨F, G, hA, hF, hlt, -⟩ := below_split hs (key a)
  have htake : A.take c = F.take c := by
    conv_lhs => rw [hA]
    exact List.take_append_of_le_length (by omega)
  rw [htake]
  intro hmem
  exact lt_irrefl _ (hlt a (List.mem_of_mem_take hmem))

theorem key_eq (hs : A.Pairwise fun a b => key a ≤ key b) (ha : A[i]? = some a)
    (hlow : below key A v ≤ i) (hup : i < upTo key A v) : key a = v := by
  obtain ⟨F, G, hA, hF, -, hG⟩ := below_split hs v
  obtain ⟨F', G', hA', hF', hle, -⟩ := upTo_split hs v
  refine le_antisymm (hle a ?_) (hG a ?_)
  · have hget : F'[i]? = some a := by
      rw [← ha, hA', List.getElem?_append_left (by omega)]
    exact List.mem_of_getElem? hget
  · have hget : G[i - F.length]? = some a := by
      rw [← ha, hA, List.getElem?_append_right (by omega)]
    exact List.mem_of_getElem? hget

theorem Arranged.below_eq (h : Arranged key L A) (v : β) : below key A v = below key L v :=
  h.perm.countP_eq _

theorem Arranged.upTo_eq (h : Arranged key L A) (v : β) : upTo key A v = upTo key L v :=
  h.perm.countP_eq _

/-- Where the first places do not end among things with the same key, all arrangements agree who gets
them. -/
theorem mem_take_iff (h : Arranged key L A) (hc : ¬ Divided key L c) (ha : a ∈ L) :
    a ∈ A.take c ↔ upTo key L (key a) ≤ c := by
  constructor
  · intro hmem
    by_contra hlt
    have hle : c ≤ below key A (key a) := by
      rw [h.below_eq]
      by_contra hlow
      exact hc ⟨a, ha, by omega, by omega⟩
    exact not_mem_take_of_le_below h.sorted hle hmem
  · intro hle
    exact mem_take_of_upTo_le h.sorted (h.perm.mem_iff.mpr ha) (by rw [h.upTo_eq]; exact hle)

theorem take_perm_take (hL : L.Nodup) (hA : Arranged key L A) (hB : Arranged key L B)
    (hc : ¬ Divided key L c) : (A.take c).Perm (B.take c) := by
  have hnodup : ∀ {C}, Arranged key L C → (C.take c).Nodup := fun hC =>
    (hC.perm.nodup_iff.mpr hL).sublist (List.take_sublist _ _)
  refine (List.perm_ext_iff_of_nodup (hnodup hA) (hnodup hB)).mpr fun a => ?_
  by_cases ha : a ∈ L
  · rw [mem_take_iff hA hc ha, mem_take_iff hB hc ha]
  · have hout : ∀ {C}, Arranged key L C → a ∉ C.take c := fun hC hmem =>
      ha (hC.perm.mem_iff.mp (List.mem_of_mem_take hmem))
    exact iff_of_false (hout hA) (hout hB)

/-! ### The reader -/

/-- The page of size `n` after the first `skip` things. -/
def page (A : List α) (skip n : ℕ) : List α := (A.drop skip).take n

/-- What a reader has after the pages from the `i`-th one to the first that is short. -/
inductive Gathers (pages : ℕ → List α) (n : ℕ) : ℕ → List α → Prop
  | short {i : ℕ} (h : (pages i).length < n) : Gathers pages n i (pages i)
  | full {i : ℕ} {rest : List α} (h : n ≤ (pages i).length) (hrest : Gathers pages n (i + 1) rest) :
      Gathers pages n i (pages i ++ rest)

theorem length_page {skip : ℕ} : (page A skip n).length = min n (A.length - skip) := by
  rw [page, List.length_take, List.length_drop]

theorem take_append_page {skip : ℕ} : A.take skip ++ page A skip n = A.take (skip + n) :=
  List.take_add.symm

/-- **Pages that do not divide the keys** put the list together. -/
theorem exists_gathers (hL : L.Nodup) (hn : 0 < n) (hdiv : ∀ j, ¬ Divided key L (j * n))
    {arr : ℕ → List α} (harr : ∀ i, Arranged key L (arr i)) (i : ℕ) :
    ∃ rest, Gathers (fun i => page (arr i) (i * n) n) n i rest ∧
      ∀ A, Arranged key L A → (A.take (i * n) ++ rest).Perm L := by
  obtain ⟨m, hm⟩ : ∃ m, m = L.length - i * n := ⟨_, rfl⟩
  have hlen : (arr i).length = L.length := (harr i).perm.length_eq
  have hstep : (i + 1) * n = i * n + n := by rw [Nat.add_mul, Nat.one_mul]
  induction m using Nat.strongRecOn generalizing i with
  | _ m ih =>
    by_cases hshort : (page (arr i) (i * n) n).length < n
    · refine ⟨_, .short hshort, fun A hA => ?_⟩
      have hall : (arr i).take (i * n) ++ page (arr i) (i * n) n = arr i := by
        rw [take_append_page]
        rw [length_page] at hshort
        exact List.take_of_length_le (by omega)
      have hfirst := (take_perm_take hL hA (harr i) (hdiv i)).append_right (page (arr i) (i * n) n)
      rw [hall] at hfirst
      exact hfirst.trans (harr i).perm
    · have hfull : n ≤ (page (arr i) (i * n) n).length := Nat.le_of_not_lt hshort
      have hroom : n ≤ L.length - i * n := by
        rw [length_page] at hfull
        omega
      obtain ⟨rest, hrest, hperm⟩ := ih (L.length - (i + 1) * n) (by omega) (i + 1) rfl
        ((harr (i + 1)).perm.length_eq) (by rw [Nat.add_mul (i + 1), Nat.one_mul])
      refine ⟨_, .full hfull hrest, fun A hA => ?_⟩
      have hfirst := (take_perm_take hL hA (harr i) (hdiv i)).append_right (page (arr i) (i * n) n)
      rw [take_append_page, ← hstep] at hfirst
      rw [← List.append_assoc]
      exact (hfirst.append_right rest).trans (hperm (arr i) (harr i))

/-- A reader who got the pages of one arrangement so far has its first places. -/
theorem gathers_front {rest : List α} (h : Gathers pages n i rest) (hij : i ≤ j)
    (hpages : ∀ k, i ≤ k → k < j → pages k = page A (k * n) n) (hj : j * n ≤ A.length) :
    ∃ rest', Gathers pages n j rest' ∧ A.take (i * n) ++ rest = A.take (j * n) ++ rest' := by
  induction h with
  | short hshort =>
    rename_i i
    rcases Nat.eq_or_lt_of_le hij with rfl | hlt
    · exact ⟨_, .short hshort, rfl⟩
    · have hle : (i + 1) * n ≤ j * n := Nat.mul_le_mul_right n hlt
      rw [Nat.add_mul, Nat.one_mul] at hle
      rw [hpages i (Nat.le_refl i) hlt, length_page] at hshort
      omega
  | full hfull hrest ih =>
    rename_i i rest
    rcases Nat.eq_or_lt_of_le hij with rfl | hlt
    · exact ⟨_, .full hfull hrest, rfl⟩
    · obtain ⟨rest', hrest', heq⟩ := ih hlt fun k hik hkj => hpages k (by omega) hkj
      refine ⟨rest', hrest', ?_⟩
      have hstep : (i + 1) * n = i * n + n := by rw [Nat.add_mul, Nat.one_mul]
      rw [← List.append_assoc, hpages i (Nat.le_refl i) hlt, take_append_page, ← hstep]
      exact heq

/-- A reader who gets the pages of one arrangement from now on gets its other places. -/
theorem gathers_back {rest : List α} (h : Gathers pages n i rest)
    (hpages : ∀ k, i ≤ k → pages k = page A (k * n) n) : rest = A.drop (i * n) := by
  induction h with
  | short hshort =>
    rename_i i
    rw [hpages i (Nat.le_refl i), length_page] at hshort
    rw [hpages i (Nat.le_refl i)]
    exact List.take_of_length_le (by rw [List.length_drop]; omega)
  | full hfull hrest ih =>
    rename_i i rest
    have hstep : (i + 1) * n = i * n + n := by rw [Nat.add_mul, Nat.one_mul]
    rw [ih fun k hk => hpages k (by omega), hpages i (Nat.le_refl i), hstep, ← List.drop_drop]
    exact List.take_append_drop n _

/-- A list that is divided can be arranged in two ways, of which one has the last thing before the
cut also behind it. -/
theorem exists_arranged_twice (hdiv : Divided key L c) : ∃ A B a, Arranged key L A ∧
    Arranged key L B ∧ c ≤ A.length ∧ a ∈ A.take c ∧ a ∈ B.drop c := by
  obtain ⟨r, hr, hlow, hup⟩ := hdiv
  obtain ⟨A, hA⟩ := exists_arranged key L
  rw [← hA.below_eq] at hlow
  rw [← hA.upTo_eq] at hup
  have hlen : c < A.length := Nat.lt_of_lt_of_le hup List.countP_le_length
  obtain ⟨k, rfl⟩ : ∃ k, c = k + 1 := ⟨c - 1, by omega⟩
  obtain ⟨a, ha⟩ : ∃ a, A[k]? = some a := ⟨_, List.getElem?_eq_getElem (by omega)⟩
  obtain ⟨b, hb⟩ : ∃ b, A[k + 1]? = some b := ⟨_, List.getElem?_eq_getElem hlen⟩
  have hka : key a = key r := key_eq hA.sorted ha (by omega) (by omega)
  have hkb : key b = key r := key_eq hA.sorted hb (by omega) hup
  have hsplit : A = A.take k ++ a :: b :: A.drop (k + 2) := by
    conv_lhs => rw [← List.take_append_drop k A]
    rw [List.drop_eq_getElem_cons (by omega), List.drop_eq_getElem_cons hlen]
    rw [List.getElem?_eq_getElem (by omega)] at ha hb
    rw [Option.some.inj ha, Option.some.inj hb]
  have hswap : A.Perm (A.take k ++ b :: a :: A.drop (k + 2)) := by
    conv_lhs => rw [hsplit]
    exact (List.Perm.swap b a _).append_left _
  refine ⟨A, A.take k ++ b :: a :: A.drop (k + 2), a, hA, ⟨hswap.symm.trans hA.perm, ?_⟩,
    Nat.le_of_lt hlen, ?_, ?_⟩
  · have hmap : (A.take k ++ b :: a :: A.drop (k + 2)).map key = A.map key := by
      conv_rhs => rw [hsplit]
      simp [hka, hkb]
    have hsorted : (A.map key).Pairwise (· ≤ ·) := List.pairwise_map.mpr hA.sorted
    rw [← hmap] at hsorted
    exact List.pairwise_map.mp hsorted
  · exact List.mem_of_getElem? (i := k) (by rw [List.getElem?_take_of_lt (by omega)]; exact ha)
  · have hk : (A.take k).length = k := List.length_take_of_le (by omega)
    rw [List.drop_append, hk, List.drop_of_length_le (by omega), Nat.add_sub_cancel_left]
    simp

/-- **Exactly when pages put the list together**, however the database orders things with the same
key for each of them: no page ends among things with the same key. -/
theorem gathers_iff (hL : L.Nodup) (hn : 0 < n) :
    (∀ arr : ℕ → List α, (∀ i, Arranged key L (arr i)) →
      ∃ l, Gathers (fun i => page (arr i) (i * n) n) n 0 l ∧ l.Perm L) ↔
    ∀ j, ¬ Divided key L (j * n) := by
  constructor
  · intro h j hdiv
    obtain ⟨A, B, a, hA, hB, hlen, ha, hb⟩ := exists_arranged_twice hdiv
    obtain ⟨l, hl, hperm⟩ := h (fun i => if i < j then A else B) fun i => by
      split_ifs
      · exact hA
      · exact hB
    obtain ⟨rest, hrest, heq⟩ := gathers_front (A := A) hl (Nat.zero_le j)
      (fun k _ hk => by simp only [if_pos hk]) hlen
    rw [Nat.zero_mul, List.take_zero, List.nil_append] at heq
    rw [gathers_back (A := B) hrest fun k hk => by simp only [if_neg (Nat.not_lt.mpr hk)]] at heq
    have hnodup := hperm.nodup_iff.mpr hL
    rw [heq] at hnodup
    exact (List.disjoint_of_nodup_append hnodup) ha hb
  · intro hdiv arr harr
    obtain ⟨l, hl, hperm⟩ := exists_gathers hL hn hdiv harr 0
    refine ⟨l, hl, ?_⟩
    simpa using hperm (arr 0) (harr 0)

/-- Where all keys are the same, only a first page that is not full will do. -/
theorem not_divided_of_const (hn : 0 < n) (hkey : ∀ a ∈ L, key a = v) :
    (∀ j, ¬ Divided key L (j * n)) ↔ L.length ≤ n := by
  have hlow : below key L v = 0 := by
    refine List.countP_eq_zero.mpr fun a ha => ?_
    simp [hkey a ha]
  have hup : upTo key L v = L.length := by
    refine List.countP_eq_length.mpr fun a ha => ?_
    simp [hkey a ha]
  constructor
  · intro h
    by_contra hlt
    rcases L with _ | ⟨a, L⟩
    · simp at hlt
    · refine h 1 ⟨a, by simp, ?_⟩
      rw [hkey a (by simp), hlow, hup]
      omega
  · rintro hle j ⟨a, ha, hj, hlt⟩
    rw [hkey a ha] at hj hlt
    rw [hlow] at hj
    rw [hup] at hlt
    have hpos : 1 ≤ j := by
      by_contra hzero
      rw [show j = 0 by omega, Nat.zero_mul] at hj
      exact Nat.lt_irrefl 0 hj
    have hmul : 1 * n ≤ j * n := Nat.mul_le_mul_right n hpos
    omega

end MarketingSuite.Lib.Paging
