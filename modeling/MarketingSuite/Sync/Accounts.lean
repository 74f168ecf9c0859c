import MarketingSuite.Lib.Upserts
import MarketingSuite.Sync.Engine

/-! # The upsert of accounts

The accounts of a workspace at a provider are a map from account ids to rows, namely the row that
`get_all` lists first. On that map `upsertAccount` is the upsert of the entry, and the loops of the
branches are upserts of all that they read. -/

namespace MarketingSuite.Sync.Accounts

open MarketingSuite.Lib.Programs MarketingSuite.Lib.Tables MarketingSuite.Lib.Upserts
open MarketingSuite.Base.Values MarketingSuite.Base.Models MarketingSuite.Base.Schema
open MarketingSuite.Repositories.Base MarketingSuite.Sync.Engine

/-- A row of `account`: the filters of `get_all`, and not deleted. -/
def isAccount (w : Uuid) (p : ApiProvider) (account : String) (r : SocialAccount) : Bool :=
  r.deletedAt.isNone && ofAccount w p account r

/-- The first account row that `get_all` lists. -/
def stored (T : Table SocialAccount) (w : Uuid) (p : ApiProvider) (account : String) :
    Option SocialAccount :=
  ((T.select (isAccount w p account)).insertionSort fun r q => q.createdAt ≤ r.createdAt).head?

/-- The row that an entry leaves. -/
def put (env : Env) (w : Uuid) (p : ApiProvider) (refresh : Refresh) (a : AccountData)
    (o : Option SocialAccount) : SocialAccount :=
  a.write refresh (o.getD (blank env w p a.accountId))

variable {env : Env} {w : Uuid} {p : ApiProvider} {refresh : Refresh} {a b : AccountData}
  {account : String} {r : SocialAccount} {T T' : Table SocialAccount} {s s' : Database}

/-! ### Rows -/

@[simp] theorem write_write : a.write refresh (b.write refresh r) = a.write refresh r := by
  cases refresh <;> rfl

theorem isAccount_iff : isAccount w p account r = true ↔
    r.deletedAt = none ∧ r.workspaceId = w ∧ r.provider = p ∧ r.accountId = account := by
  simp [isAccount, ofAccount, and_assoc]

theorem isAccount_blank : isAccount w p account (blank env w p account) = true :=
  isAccount_iff.mpr ⟨rfl, rfl, rfl, rfl⟩

theorem put_put (a b : AccountData) (o : Option SocialAccount) (h : a.accountId = b.accountId) :
    put env w p refresh a (some (put env w p refresh b o)) = put env w p refresh a o := by
  rcases o with _ | r
  · simp [put, h]
  · simp [put]

/-! ### The first row -/

theorem stored_eq_some (h : stored T w p account = some r) :
    r ∈ T.rows ∧ isAccount w p account r = true := by
  have hr := List.mem_of_mem_head? h
  rw [List.mem_insertionSort] at hr
  exact Table.mem_select.mp hr

theorem stored_eq_none :
    stored T w p account = none ↔ ∀ r ∈ T.rows, isAccount w p account r = false := by
  rw [stored, List.head?_eq_none_iff, ← List.length_eq_zero_iff, List.length_insertionSort,
    List.length_eq_zero_iff, Table.select, List.filter_eq_nil_iff]
  simp

/-- Updating a row keeps the order of the list, so the first row stays the first. -/
theorem stored_modify {i : Uuid} (h : T.modify i (a.write refresh) = some T') :
    stored T' w p account =
      (stored T w p account).map fun r => if r.id = i then a.write refresh r else r := by
  have hcreated : ∀ r : SocialAccount,
      (if r.id = i then a.write refresh r else r).createdAt = r.createdAt := by
    intro r
    split_ifs <;> rfl
  have hsel : T'.select (isAccount w p account) =
      (T.select (isAccount w p account)).map fun r => if r.id = i then a.write refresh r else r :=
    Table.select_modify (fun _ => rfl) h
  have hsort := List.map_insertionSort (r := fun r q : SocialAccount => q.createdAt ≤ r.createdAt)
    (s := fun r q : SocialAccount => q.createdAt ≤ r.createdAt)
    (fun r : SocialAccount => if r.id = i then a.write refresh r else r)
    (T.select (isAccount w p account)) fun r _ q _ => by rw [hcreated, hcreated]
  rw [stored, stored, hsel, ← hsort, List.head?_map]

/-- A new row of an account that had none is the first one. -/
theorem stored_insert (account : String) (h : T.insert r = some T')
    (hnone : stored T w p r.accountId = none)
    (hr : isAccount w p r.accountId r = true) :
    stored T' w p account = if account = r.accountId then some r else stored T w p account := by
  have hsel : T'.select (isAccount w p account) = T.select (isAccount w p account) ++
      if account = r.accountId then [r] else [] := by
    rw [Table.select_insert h]
    by_cases ha : account = r.accountId
    · rw [ha]
      simp [hr]
    · have hno : isAccount w p account r = false := by
        by_contra hyes
        rw [Bool.not_eq_false] at hyes
        exact ha (isAccount_iff.mp hyes).2.2.2.symm
      simp [hno, ha]
  split_ifs with ha
  · have hnil : T.select (isAccount w p account) = [] := by
      rw [ha]
      exact List.filter_eq_nil_iff.mpr fun q hq => by simp [stored_eq_none.mp hnone q hq]
    rw [stored, hsel, hnil, if_pos ha]
    rfl
  · rw [stored, hsel, if_neg ha, List.append_nil, stored]

/-! ### One entry -/

theorem getAll_returns (s : Database) (w : Uuid) (p : ApiProvider) (account : String) :
    (getAll (ofAccount w p account) SocialAccount.createdAt).Returns s
    (((s.socialAccounts.select (isAccount w p account)).insertionSort
      fun r q => q.createdAt ≤ r.createdAt).take 100) s := by
  unfold getAll
  rw [Prog.returns_bind]
  exact ⟨_, s, Prog.returns_gets.mpr ⟨rfl, rfl⟩, Prog.returns_pure.mpr ⟨rfl, rfl⟩⟩

/-- What an upsert does to the table. -/
inductive Upserted (env : Env) (w : Uuid) (p : ApiProvider) (refresh : Refresh) (a : AccountData)
    (T T' : Table SocialAccount) : Prop
  | updated {r : SocialAccount} (hr : stored T w p a.accountId = some r)
      (h : T.modify r.id (a.write refresh) = some T')
  | created (hnone : stored T w p a.accountId = none)
      (h : T.insert (a.write refresh (blank env w p a.accountId)) = some T')

/-- **`upsertAccount`**: the workspace is there, and the table changes as `Upserted` says. -/
theorem returns_upsertAccount {u : Unit} : (upsertAccount env w p refresh a).Returns s u s' ↔
    s.workspaces.has w = true ∧ ∃ T, Upserted env w p refresh a s.socialAccounts T ∧
      s' = { s with socialAccounts := T } := by
  have hhead : ((((s.socialAccounts.select (isAccount w p a.accountId)).insertionSort
      fun r q => q.createdAt ≤ r.createdAt).take 100).head?) =
      stored s.socialAccounts w p a.accountId := by
    rw [List.head?_take, if_neg (by decide), stored]
  have hget := getAll_returns s w p a.accountId
  unfold upsertAccount
  rw [Prog.returns_bind]
  constructor
  · rintro ⟨l, t, hl, h⟩
    unfold Prog.Returns at hl hget
    obtain ⟨hle, ht⟩ := Prod.mk.inj (hl.symm.trans hget)
    rw [Except.ok.inj hle, hhead, ht] at h
    rcases hst : stored s.socialAccounts w p a.accountId with _ | r
    · rw [hst] at h
      obtain ⟨_, hc, -⟩ := Prog.returns_bind_pure.mp h
      obtain ⟨-, href, T, hT, rfl⟩ := returns_create.mp hc
      exact ⟨href, T, .created hst hT, rfl⟩
    · rw [hst] at h
      obtain ⟨_, hu, -⟩ := Prog.returns_bind_pure.mp h
      obtain ⟨q, hq, hk, -, href, T, hT, rfl⟩ := returns_update.mp hu
      obtain ⟨hr, hacc⟩ := stored_eq_some hst
      have hqr : q = r := s.socialAccounts.eq_of_key_eq hq hr hk
      have hw : q.workspaceId = w := by rw [hqr]; exact (isAccount_iff.mp hacc).2.1
      have href : s.workspaces.has q.workspaceId = true := href
      rw [hw] at href
      exact ⟨href, T, .updated hst hT, rfl⟩
  · rintro ⟨href, T, hup, rfl⟩
    refine ⟨_, s, hget, ?_⟩
    rw [hhead]
    rcases hup with ⟨hst, hT⟩ | ⟨hst, hT⟩
    · rename_i r
      obtain ⟨hr, hacc⟩ := stored_eq_some hst
      have hw : r.workspaceId = w := (isAccount_iff.mp hacc).2.1
      have href : s.workspaces.has (a.write refresh r).workspaceId = true := by
        show s.workspaces.has r.workspaceId = true
        rw [hw]; exact href
      rw [hst]
      exact Prog.returns_bind_pure.mpr
        ⟨_, returns_update.mpr ⟨r, hr, rfl, rfl, href, T, hT, rfl⟩, rfl⟩
    · rw [hst]
      exact Prog.returns_bind_pure.mpr ⟨_, returns_create.mpr ⟨rfl, href, T, hT, rfl⟩, rfl⟩

theorem stored_of_upserted (h : Upserted env w p refresh a T T') :
    stored T' w p = upsert AccountData.accountId (put env w p refresh) (stored T w p) a := by
  funext account
  rcases h with ⟨hst, hT⟩ | ⟨hst, hT⟩
  · rename_i r
    rw [stored_modify hT]
    by_cases hacc : account = a.accountId
    · rw [hacc, upsert_self, hst]
      simp [put]
    · rw [upsert_of_ne _ hacc]
      rcases hq : stored T w p account with _ | q
      · rfl
      · obtain ⟨hqm, hqa⟩ := stored_eq_some hq
        obtain ⟨hrm, hra⟩ := stored_eq_some hst
        have hne : q.id ≠ r.id := by
          intro hid
          have hqr : q = r := T.eq_of_key_eq hqm hrm hid
          rw [hqr] at hqa
          exact hacc ((isAccount_iff.mp hqa).2.2.2.symm.trans (isAccount_iff.mp hra).2.2.2)
        rw [Option.map_some, if_neg hne]
  · have hblank : isAccount w p a.accountId (blank env w p a.accountId) = true := isAccount_blank
    rw [stored_insert account hT hst hblank]
    by_cases hacc : account = a.accountId
    · rw [hacc, upsert_self, hst]
      exact if_pos rfl
    · rw [upsert_of_ne _ hacc]
      exact if_neg hacc

theorem stored_of_upserted_of_ne {w' : Uuid} {p' : ApiProvider}
    (h : Upserted env w p refresh a T T') (hne : ¬ (w' = w ∧ p' = p)) (account : String) :
    stored T' w' p' account = stored T w' p' account := by
  rcases h with ⟨hst, hT⟩ | ⟨hst, hT⟩
  · rename_i r
    rw [stored_modify hT]
    rcases hq : stored T w' p' account with _ | q
    · rfl
    · obtain ⟨hqm, hqa⟩ := stored_eq_some hq
      obtain ⟨hrm, hra⟩ := stored_eq_some hst
      obtain ⟨-, hqw, hqp, -⟩ := isAccount_iff.mp hqa
      obtain ⟨-, hrw, hrp, -⟩ := isAccount_iff.mp hra
      have hid : q.id ≠ r.id := by
        intro hid
        have hqr : q = r := T.eq_of_key_eq hqm hrm hid
        rw [hqr] at hqw hqp
        exact hne ⟨hqw.symm.trans hrw, hqp.symm.trans hrp⟩
      rw [Option.map_some, if_neg hid]
  · have hrows : T'.rows = T.rows ++ [a.write refresh (blank env w p a.accountId)] :=
      Table.insert_eq_some.mp hT
    have hno : isAccount w' p' account (a.write refresh (blank env w p a.accountId)) = false := by
      by_contra hyes
      rw [Bool.not_eq_false] at hyes
      obtain ⟨-, hw, hp, -⟩ := isAccount_iff.mp hyes
      exact hne ⟨hw.symm, hp.symm⟩
    rw [stored, stored, Table.select, Table.select, hrows, List.filter_append]
    simp only [List.filter_cons, hno, Bool.false_eq_true, if_false, List.filter_nil,
      List.append_nil]

/-- The rows after it: those before it, and the one that it wrote. -/
theorem mem_of_upserted (h : Upserted env w p refresh a T T') (hr : r ∈ T'.rows) :
    r ∈ T.rows ∨ r = put env w p refresh a (stored T w p a.accountId) := by
  rcases h with ⟨hst, hT⟩ | ⟨hst, hT⟩
  · rcases (Table.mem_modify hT).mp hr with ⟨hr, -⟩ | ⟨q, hq, hk, rfl⟩
    · exact Or.inl hr
    · have := T.eq_of_key_eq hq (stored_eq_some hst).1 hk
      subst this
      exact Or.inr (by rw [hst]; rfl)
  · rcases (Table.mem_insert hT).mp hr with hr | rfl
    · exact Or.inl hr
    · exact Or.inr (by rw [hst]; rfl)

/-- The keys after it: those before it, and that of a new row. -/
theorem has_of_upserted (h : Upserted env w p refresh a T T') (i : Uuid) :
    T'.has i = true ↔
      T.has i = true ∨ (stored T w p a.accountId = none ∧ i = env.uuid a.accountId) := by
  simp only [Table.has_iff]
  rcases h with ⟨hst, hT⟩ | ⟨hst, hT⟩
  · rename_i r
    rw [hst]
    simp only [reduceCtorEq, false_and, or_false, Table.mem_modify hT]
    constructor
    · rintro ⟨q, ⟨hq, -⟩ | ⟨q', hq, hk, rfl⟩, rfl⟩
      · exact ⟨q, hq, rfl⟩
      · exact ⟨q', hq, rfl⟩
    · rintro ⟨q, hq, rfl⟩
      by_cases hk : Keyed.key q = r.id
      · exact ⟨_, Or.inr ⟨q, hq, hk, rfl⟩, rfl⟩
      · exact ⟨q, Or.inl ⟨hq, hk⟩, rfl⟩
  · simp only [Table.mem_insert hT, hst, true_and]
    constructor
    · rintro ⟨q, hq | rfl, rfl⟩
      · exact Or.inl ⟨q, hq, rfl⟩
      · exact Or.inr rfl
    · rintro (⟨q, hq, rfl⟩ | rfl)
      · exact ⟨q, Or.inl hq, rfl⟩
      · exact ⟨_, Or.inr rfl, rfl⟩

/-- There is an upsert unless the id of a new row is taken. -/
theorem exists_upserted : (∃ T', Upserted env w p refresh a T T') ↔
    (stored T w p a.accountId = none → T.has (env.uuid a.accountId) = false) := by
  constructor
  · rintro ⟨T', ⟨hst, hT⟩ | ⟨hst, hT⟩⟩ hnone
    · rw [hnone] at hst
      exact absurd hst (by simp)
    · rw [← Bool.not_eq_true, Table.has_iff]
      rintro ⟨q, hq, hk⟩
      exact (Table.apart_of_insert hT hq).1 hk
  · intro h
    rcases hst : stored T w p a.accountId with _ | r
    · have hnew := h hst
      rw [← Bool.not_eq_true, Table.has_iff] at hnew
      obtain ⟨T', hT⟩ := Table.exists_insert (T := T)
        (r := a.write refresh (blank env w p a.accountId))
        fun q hq => ⟨fun hk => hnew ⟨q, hq, hk⟩, rfl⟩
      exact ⟨T', .created hst hT⟩
    · obtain ⟨T', hT⟩ := Table.exists_modify (T := T) (k := r.id) (f := a.write refresh)
        (fun _ => rfl) fun _ _ => rfl
      exact ⟨T', .updated hst hT⟩

/-! ### A list of entries -/

/-- What a loop of upserts does to the table. -/
inductive Saved (env : Env) (w : Uuid) (p : ApiProvider) (refresh : Refresh) :
    List AccountData → Table SocialAccount → Table SocialAccount → Prop
  | nil (T : Table SocialAccount) : Saved env w p refresh [] T T
  | cons {a : AccountData} {l : List AccountData} {T U V : Table SocialAccount}
      (h : Upserted env w p refresh a T U) (hs : Saved env w p refresh l U V) :
      Saved env w p refresh (a :: l) T V

variable {l : List AccountData}

theorem returns_saveAll {l : List AccountData} {s s' : Database} :
    (Prog.forEach (upsertAccount env w p refresh) l).Returns s () s' ↔
      (l ≠ [] → s.workspaces.has w = true) ∧
        ∃ T, Saved env w p refresh l s.socialAccounts T ∧ s' = { s with socialAccounts := T } := by
  induction l generalizing s with
  | nil =>
    simp only [Prog.forEach, Prog.returns_pure, ne_eq, not_true, false_implies, true_and]
    constructor
    · rintro rfl
      exact ⟨_, .nil _, rfl⟩
    · rintro ⟨T, ⟨⟩, rfl⟩
      rfl
  | cons a l ih =>
    simp only [Prog.forEach, Prog.returns_bind, returns_upsertAccount, ih]
    constructor
    · rintro ⟨_, _, ⟨hw, U, hU, rfl⟩, -, T, hT, rfl⟩
      exact ⟨fun _ => hw, T, .cons hU hT, rfl⟩
    · rintro ⟨hw, T, hT, rfl⟩
      have hw := hw (List.cons_ne_nil a l)
      cases hT with
      | cons hU hT => exact ⟨(), _, ⟨hw, _, hU, rfl⟩, fun _ => hw, T, hT, rfl⟩

/-- **The loops are upserts into the map of accounts.** -/
theorem stored_of_saved (h : Saved env w p refresh l T T') :
    stored T' w p = upserts AccountData.accountId (put env w p refresh) (stored T w p) l := by
  induction h with
  | nil T => rfl
  | cons h hs ih => rw [ih, stored_of_upserted h]; rfl

theorem stored_of_saved_of_ne {w' : Uuid} {p' : ApiProvider} (h : Saved env w p refresh l T T')
    (hne : ¬ (w' = w ∧ p' = p)) (account : String) :
    stored T' w' p' account = stored T w' p' account := by
  induction h with
  | nil T => rfl
  | cons h hs ih => rw [ih, stored_of_upserted_of_ne h hne]

theorem stored_of_stored (h : Saved env w p refresh l T T') (hr : stored T w p account = some r) :
    ∃ r', stored T' w p account = some r' ∧ r'.id = r.id := by
  rw [stored_of_saved h, upserts_apply put_put]
  rcases lastFor AccountData.accountId l account with _ | e
  · exact ⟨r, hr, rfl⟩
  · exact ⟨_, rfl, by rw [hr]; rfl⟩

theorem mem_of_saved (h : Saved env w p refresh l T T') (hr : r ∈ T'.rows) :
    r ∈ T.rows ∨ ∃ account, stored T' w p account = some r := by
  induction h with
  | nil T => exact Or.inl hr
  | @cons a l T U V hU hs ih =>
    rcases ih hr with hrU | hacc
    · rcases mem_of_upserted hU hrU with hrT | hput
      · exact Or.inl hrT
      · have hst : stored U w p a.accountId = some r := by
          rw [stored_of_upserted hU, upsert_self, hput]
        obtain ⟨r', hr', hid⟩ := stored_of_stored hs hst
        have hrr : r' = r := V.eq_of_key_eq (stored_eq_some hr').1 hr hid
        exact Or.inr ⟨a.accountId, by rw [hr', hrr]⟩
    · exact Or.inr hacc

/-- A loop writes no row that was not there exactly if it leaves the map of accounts alone. -/
theorem subset_iff (h : Saved env w p refresh l T T') :
    (∀ r ∈ T'.rows, r ∈ T.rows) ↔ stored T' w p = stored T w p := by
  constructor
  · intro hsub
    funext account
    rcases hr' : stored T' w p account with _ | r'
    · rcases hr : stored T w p account with _ | r
      · rfl
      · obtain ⟨q, hq, -⟩ := stored_of_stored h hr
        rw [hq] at hr'
        exact absurd hr' (by simp)
    · obtain ⟨hmem, hacc⟩ := stored_eq_some hr'
      have hmem := hsub r' hmem
      rcases hr : stored T w p account with _ | r
      · rw [stored_eq_none.mp hr r' hmem] at hacc
        exact absurd hacc (by simp)
      · obtain ⟨q, hq, hid⟩ := stored_of_stored h hr
        obtain rfl := Option.some.inj (hr'.symm.trans hq)
        rw [T.eq_of_key_eq hmem (stored_eq_some hr).1 hid]
  · intro heq r hr
    rcases mem_of_saved h hr with hr | ⟨account, hr⟩
    · exact hr
    · rw [heq] at hr
      exact (stored_eq_some hr).1

/-- The ids that the new rows get are new: no row has one, and no two are the same. -/
def NewIds (env : Env) (w : Uuid) (p : ApiProvider) (l : List AccountData)
    (T : Table SocialAccount) : Prop :=
  (∀ a ∈ l, stored T w p a.accountId = none → T.has (env.uuid a.accountId) = false) ∧
  ∀ a ∈ l, ∀ b ∈ l, stored T w p a.accountId = none → stored T w p b.accountId = none →
    env.uuid a.accountId = env.uuid b.accountId → a.accountId = b.accountId

theorem upserted_stored_eq_none (h : Upserted env w p refresh a T T') :
    stored T' w p account = none ↔ stored T w p account = none ∧ account ≠ a.accountId := by
  rw [stored_of_upserted h]
  by_cases hacc : account = a.accountId
  · rw [hacc, upsert_self]
    simp
  · rw [upsert_of_ne _ hacc]
    simp [hacc]

theorem newIds_cons (h : Upserted env w p refresh a T T') :
    NewIds env w p (a :: l) T ↔ NewIds env w p l T' := by
  have hid := exists_upserted.mp ⟨T', h⟩
  have hhas : ∀ i, T'.has i = false ↔
      T.has i = false ∧ ¬ (stored T w p a.accountId = none ∧ i = env.uuid a.accountId) := by
    intro i
    rw [← Bool.not_eq_true, has_of_upserted h, not_or, Bool.not_eq_true]
  simp only [NewIds, upserted_stored_eq_none h, hhas]
  constructor
  · rintro ⟨hnew, hdiff⟩
    refine ⟨fun b hb hst => ⟨hnew b (List.mem_cons_of_mem a hb) hst.1, ?_⟩, ?_⟩
    · rintro ⟨hnone, heq⟩
      exact hst.2 (hdiff b (List.mem_cons_of_mem a hb) a List.mem_cons_self hst.1 hnone heq)
    · intro b hb c hc hbst hcst heq
      exact hdiff b (List.mem_cons_of_mem a hb) c (List.mem_cons_of_mem a hc) hbst.1 hcst.1 heq
  · rintro ⟨hnew, hdiff⟩
    -- An entry for the account of `a` is as good as `a` itself.
    have hcase : ∀ b ∈ a :: l, b.accountId = a.accountId ∨ b ∈ l ∧ b.accountId ≠ a.accountId := by
      intro b hb
      by_cases hacc : b.accountId = a.accountId
      · exact Or.inl hacc
      · rcases List.mem_cons.mp hb with rfl | hb
        · exact absurd rfl hacc
        · exact Or.inr ⟨hb, hacc⟩
    refine ⟨fun b hb hst => ?_, fun b hb c hc hbst hcst heq => ?_⟩
    · rcases hcase b hb with hacc | ⟨hb, hacc⟩
      · rw [hacc] at hst ⊢
        exact hid hst
      · exact (hnew b hb ⟨hst, hacc⟩).1
    · rcases hcase b hb with hacc | ⟨hb, hacc⟩ <;> rcases hcase c hc with hacc' | ⟨hc, hacc'⟩
      · rw [hacc, hacc']
      · rw [hacc] at hbst heq
        exact absurd ⟨hbst, heq.symm⟩ (hnew c hc ⟨hcst, hacc'⟩).2
      · rw [hacc'] at hcst heq
        exact absurd ⟨hcst, heq⟩ (hnew b hb ⟨hbst, hacc⟩).2
      · exact hdiff b hb c hc ⟨hbst, hacc⟩ ⟨hcst, hacc'⟩ heq

theorem exists_saved {l : List AccountData} {T : Table SocialAccount} :
    (∃ T', Saved env w p refresh l T T') ↔ NewIds env w p l T := by
  induction l generalizing T with
  | nil =>
    constructor
    · intro _
      exact ⟨fun _ h => absurd h List.not_mem_nil, fun _ h => absurd h List.not_mem_nil⟩
    · intro _
      exact ⟨T, .nil T⟩
  | cons a l ih =>
    constructor
    · rintro ⟨V, hV⟩
      cases hV with
      | cons h hs => exact (newIds_cons h).mpr (ih.mp ⟨V, hs⟩)
    · intro hnew
      obtain ⟨U, hU⟩ := exists_upserted.mpr (hnew.1 a List.mem_cons_self)
      obtain ⟨V, hV⟩ := ih.mpr ((newIds_cons hU).mp hnew)
      exact ⟨V, .cons hU hV⟩

end MarketingSuite.Sync.Accounts
