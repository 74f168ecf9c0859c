import MarketingSuite.Integrations.Connections
import MarketingSuite.Sync.Durability
import MarketingSuite.Sync.Entries

/-! # A sync is a keyed upsert

A sync that goes through leaves one account for every entry, under the name of its last occurrence,
and the other rows as they were; to run it again on the same result changes nothing but the
ciphertexts. It goes through exactly if its result is readable: one entry with a token and without
an id, and no entry of the result is stored. -/

namespace MarketingSuite.Sync.Idempotence

open MarketingSuite.Lib.Programs MarketingSuite.Lib.Tables MarketingSuite.Lib.Upserts
open MarketingSuite.Base.Values MarketingSuite.Base.Models MarketingSuite.Base.Schema
open MarketingSuite.Base.Payloads
open MarketingSuite.Sync.Engine MarketingSuite.Sync.Accounts MarketingSuite.Sync.Results
open MarketingSuite.Sync.Durability MarketingSuite.Sync.Entries
open MarketingSuite.Integrations.Connections (Fernet decrypt_encryptToken)

/-! ### One account for a key -/

/-- There is at most one account that is not deleted for a workspace, a provider and an id. -/
def Unique (T : Table SocialAccount) : Prop :=
  ∀ w p account, ∀ r ∈ T.rows, ∀ q ∈ T.rows, isAccount w p account r = true →
    isAccount w p account q = true → r = q

variable {env : Env} {w : Uuid} {p : ApiProvider} {refresh : Refresh} {a : AccountData}
  {l : List AccountData} {account : String} {r : SocialAccount} {T T' U : Table SocialAccount}

theorem stored_of_unique (hT : Unique T) (hr : r ∈ T.rows) (hacc : isAccount w p account r = true) :
    stored T w p account = some r := by
  rcases hst : stored T w p account with _ | q
  · rw [stored_eq_none.mp hst r hr] at hacc
    cases hacc
  · obtain ⟨hq, hqacc⟩ := stored_eq_some hst
    rw [hT w p account q hq r hr hqacc hacc]

theorem isAccount_write {w' : Uuid} {p' : ApiProvider} :
    isAccount w' p' account (a.write refresh r) = isAccount w' p' account r := rfl

theorem unique_of_upserted (hT : Unique T) (h : Upserted env w p refresh a T U) : Unique U := by
  rcases h with ⟨hst, hU⟩ | ⟨hnone, hU⟩
  · rename_i i
    have hold : ∀ q ∈ U.rows, ∃ q' ∈ T.rows, q = (if q'.id = i.id then a.write refresh q' else q') ∧
        ∀ w' p' account, isAccount w' p' account q = isAccount w' p' account q' := by
      intro q hq
      rw [Table.modify_eq_some.mp hU, List.mem_map] at hq
      obtain ⟨q', hq', rfl⟩ := hq
      refine ⟨q', hq', rfl, fun w' p' account => ?_⟩
      split_ifs
      · rfl
      · rfl
    intro w' p' account q hq q' hq' hacc hacc'
    obtain ⟨o, ho, rfl, hsame⟩ := hold q hq
    obtain ⟨o', ho', rfl, hsame'⟩ := hold q' hq'
    rw [hsame] at hacc
    rw [hsame'] at hacc'
    rw [hT w' p' account o ho o' ho' hacc hacc']
  · have hnew : ∀ w' p' account, ∀ q ∈ T.rows, isAccount w' p' account q = true →
        isAccount w' p' account (a.write refresh (blank env w p a.accountId)) ≠ true := by
      intro w' p' account q hq hacc hacc'
      obtain ⟨-, hw, hp, haccount⟩ := isAccount_iff.mp hacc'
      rw [← hw, ← hp, ← haccount] at hacc
      exact absurd hacc (by simp [show isAccount w p a.accountId q = false from
        stored_eq_none.mp hnone q hq, AccountData.write, blank])
    intro w' p' account q hq q' hq' hacc hacc'
    rcases (Table.mem_insert hU).mp hq with hq | rfl <;>
      rcases (Table.mem_insert hU).mp hq' with hq' | rfl
    · exact hT w' p' account q hq q' hq' hacc hacc'
    · exact absurd hacc' (hnew w' p' account q hq hacc)
    · exact absurd hacc (hnew w' p' account q' hq' hacc')
    · rfl

theorem unique_of_saved (hT : Unique T) (h : Saved env w p refresh l T T') : Unique T' := by
  induction h with
  | nil T => exact hT
  | cons hup hs ih => exact ih (unique_of_upserted hT hup)

/-! ### The other accounts -/

theorem mem_iff_of_upserted (h : Upserted env w p refresh a T U)
    (hr : isAccount w p a.accountId r = false) : r ∈ U.rows ↔ r ∈ T.rows := by
  rcases h with ⟨hst, hU⟩ | ⟨hnone, hU⟩
  · rename_i i
    obtain ⟨hi, hiacc⟩ := stored_eq_some hst
    rw [Table.mem_modify hU]
    constructor
    · rintro (⟨hmem, -⟩ | ⟨q, hq, hk, rfl⟩)
      · exact hmem
      · obtain rfl : q = i := T.eq_of_key_eq hq hi hk
        rw [isAccount_write, hiacc] at hr
        cases hr
    · intro hmem
      refine Or.inl ⟨hmem, fun hk => ?_⟩
      obtain rfl : r = i := T.eq_of_key_eq hmem hi hk
      rw [hiacc] at hr
      cases hr
  · rw [Table.mem_insert hU]
    refine or_iff_left ?_
    rintro rfl
    rw [isAccount_write, isAccount_blank] at hr
    cases hr

/-- **A row that no entry names is left alone.** -/
theorem mem_iff_of_saved (h : Saved env w p refresh l T T')
    (hr : ∀ a ∈ l, isAccount w p a.accountId r = false) : r ∈ T'.rows ↔ r ∈ T.rows := by
  induction h with
  | nil T => exact Iff.rfl
  | cons hup hs ih =>
    rw [ih fun b hb => hr b (List.mem_cons_of_mem _ hb),
      mem_iff_of_upserted hup (hr _ List.mem_cons_self)]

/-! ### A loop over accounts that are there -/

/-- What a loop makes of a row: the last entry for its account is written over it. -/
def rewritten (w : Uuid) (p : ApiProvider) (refresh : Refresh) (l : List AccountData)
    (r : SocialAccount) : SocialAccount :=
  if isAccount w p r.accountId r = true then
    match lastFor AccountData.accountId l r.accountId with
    | some a => a.write refresh r
    | none => r
  else r

theorem rewritten_nil (r : SocialAccount) : rewritten w p refresh [] r = r := by
  unfold rewritten
  split_ifs <;> rfl

theorem rewritten_cons (a : AccountData) (l : List AccountData) (r : SocialAccount) :
    rewritten w p refresh (a :: l) r = rewritten w p refresh l
      (if isAccount w p a.accountId r = true then a.write refresh r else r) := by
  by_cases hacc : isAccount w p a.accountId r = true
  · have haccount : r.accountId = a.accountId := (isAccount_iff.mp hacc).2.2.2
    have hown : isAccount w p r.accountId r = true := by rw [haccount, hacc]
    have hown' : isAccount w p (a.write refresh r).accountId (a.write refresh r) = true := hown
    have hsame : (a.write refresh r).accountId = r.accountId := rfl
    rw [if_pos hacc, rewritten, rewritten, if_pos hown, if_pos hown', hsame, haccount]
    rcases hlast : lastFor AccountData.accountId l a.accountId with _ | b
    · simp only [lastFor, hlast, if_true, Option.none_or]
    · simp only [lastFor, hlast, Option.some_or, write_write]
  · rw [if_neg hacc]
    unfold rewritten
    by_cases hown : isAccount w p r.accountId r = true
    · have hne : a.accountId ≠ r.accountId := by
        intro heq
        rw [heq] at hacc
        exact hacc hown
      rw [if_pos hown, if_pos hown]
      simp only [lastFor, if_neg hne, Option.or_none]
    · rw [if_neg hown, if_neg hown]

/-- **The rows after a loop over accounts that are there**, in their order. -/
theorem rows_of_saved (hT : Unique T) (hl : ∀ a ∈ l, ∃ r, stored T w p a.accountId = some r)
    (h : Saved env w p refresh l T T') :
    T'.rows = T.rows.map (rewritten w p refresh l) := by
  induction h with
  | nil T =>
    exact (List.map_id'' rewritten_nil T.rows).symm
  | @cons a l T U V hup hs ih =>
    have hU := unique_of_upserted hT hup
    have hstored : ∀ b ∈ l, ∃ r, stored U w p b.accountId = some r := by
      intro b hb
      obtain ⟨r, hr⟩ := hl b (List.mem_cons_of_mem _ hb)
      obtain ⟨r', hr', -⟩ := stored_of_stored (.cons hup (.nil U)) hr
      exact ⟨r', hr'⟩
    rw [ih hU hstored]
    obtain ⟨r, hr⟩ := hl a List.mem_cons_self
    rcases hup with ⟨hst, hmod⟩ | ⟨hnone, -⟩
    · rename_i i
      rw [Table.modify_eq_some.mp hmod, List.map_map]
      refine List.map_congr_left fun q hq => ?_
      obtain ⟨hi, hiacc⟩ := stored_eq_some hst
      have hiff : Keyed.key q = i.id ↔ isAccount w p a.accountId q = true := by
        constructor
        · intro hk
          rw [T.eq_of_key_eq hq hi hk]
          exact hiacc
        · intro hqacc
          rw [hT w p a.accountId q hq i hi hqacc hiacc]
          rfl
      rw [rewritten_cons, Function.comp_apply]
      simp only [hiff]
    · rw [hnone] at hr
      cases hr

theorem rewritten_of_saved (hT : Unique T) (h : Saved env w p refresh l T T') (hr : r ∈ T'.rows) :
    rewritten w p refresh l r = r := by
  unfold rewritten
  split_ifs with hown
  · rcases hlast : lastFor AccountData.accountId l r.accountId with _ | a
    · rfl
    · have hst := stored_of_unique (unique_of_saved hT h) hr hown
      rw [stored_of_saved h, upserts_apply put_put, hlast] at hst
      have hput : put env w p refresh a (stored T w p r.accountId) = r := Option.some.inj hst
      rw [← hput]
      exact write_write
  · rfl

/-! ### Up to the ciphertexts -/

/-- A row with its tokens decrypted. -/
def plain (env : Env) (r : SocialAccount) : SocialAccount :=
  { r with accessToken := decryptToken env r.accessToken,
           refreshToken := r.refreshToken.map (decryptToken env) }

/-- The same world later: tokens are encrypted anew, and new rows get other ids. -/
def later (env : Env) (encrypt : ℕ → String → String) (uuid : String → Uuid) (now : Time) : Env :=
  { env with encrypt := encrypt, uuid := uuid, now := now }

def plainEntry (env : Env) (a : AccountData) : AccountData :=
  { a with accessToken := decryptToken env a.accessToken }

def plainRefresh (env : Env) (refresh : Refresh) : Refresh :=
  refresh.map fun x => (x.1.map (decryptToken env), x.2)

/-- The accounts that a result names, with their tokens decrypted. -/
def plainListed (env : Env) (x : Listed) : Listed :=
  ⟨x.provider, plainRefresh env x.refresh, x.accounts.map (plainEntry env)⟩

theorem plain_rewritten (r : SocialAccount) : plain env (rewritten w p refresh l r) =
    rewritten w p (plainRefresh env refresh) (l.map (plainEntry env)) (plain env r) := by
  have hlast : lastFor AccountData.accountId (l.map (plainEntry env)) r.accountId =
      (lastFor AccountData.accountId l r.accountId).map (plainEntry env) :=
    lastFor_map (f := plainEntry env) (fun _ => rfl) l r.accountId
  have hsame : isAccount w p (plain env r).accountId (plain env r) = isAccount w p r.accountId r :=
    rfl
  have haccount : (plain env r).accountId = r.accountId := rfl
  rw [rewritten, rewritten, hsame, haccount, hlast]
  split_ifs
  · rcases lastFor AccountData.accountId l r.accountId with _ | a
    · rfl
    · cases refresh <;> rfl
  · rfl

section Later

variable {connection : IntegrationConnection} {result : Dict} {encrypt : ℕ → String → String}
  {uuid : String → Uuid} {now : Time}

theorem plain_entryAccount (hfernet : Fernet env) (hlater : Fernet (later env encrypt uuid now))
    (k : ℕ) (entry token name : Json) :
    (entryAccount (later env encrypt uuid now) k entry token name).map (plainEntry env) =
      (entryAccount env k entry token name).map (plainEntry env) := by
  unfold entryAccount
  split_ifs
  · have hthen := decrypt_encryptToken hlater k (text env token)
    have hnow := decrypt_encryptToken hfernet k (text env token)
    exact congrArg (fun t => some (AccountData.mk _ _ t)) (hthen.trans hnow.symm)
  · rfl

/-- The token of the connection is there at both times, in two ciphertexts, or at none. -/
theorem bridged_later (hfernet : Fernet env) (hlater : Fernet (later env encrypt uuid now)) :
    (bridged (later env encrypt uuid now) connection = none ∧ bridged env connection = none) ∨
      ∃ token token', bridged (later env encrypt uuid now) connection = some token ∧
        bridged env connection = some token' ∧ decryptToken env token = decryptToken env token' := by
  unfold bridged
  rcases connection.accessToken with _ | token
  · exact Or.inl ⟨rfl, rfl⟩
  by_cases hempty : token = ""
  · exact Or.inl ⟨if_pos hempty, if_pos hempty⟩
  · simp only [if_neg hempty]
    have hthen := decrypt_encryptToken hlater 0 (decryptToken env token)
    have hnow := decrypt_encryptToken hfernet 0 (decryptToken env token)
    exact Or.inr ⟨_, _, rfl, rfl, hthen.trans hnow.symm⟩

theorem plain_refreshOf (hfernet : Fernet env) (hlater : Fernet (later env encrypt uuid now)) :
    plainRefresh env (refreshOf (later env encrypt uuid now) connection) =
      plainRefresh env (refreshOf env connection) := by
  unfold refreshOf
  rcases connection.refreshToken with _ | token
  · rfl
  by_cases hempty : token = ""
  · simp only [if_pos hempty]
    rfl
  · simp only [if_neg hempty]
    have hthen := decrypt_encryptToken hlater 1 (decryptToken env token)
    have hnow := decrypt_encryptToken hfernet 1 (decryptToken env token)
    exact congrArg (fun t => some (some t, _)) (hthen.trans hnow.symm)

theorem plain_map_bridged (hfernet : Fernet env) (hlater : Fernet (later env encrypt uuid now))
    (account name : String) :
    ((bridged (later env encrypt uuid now) connection).map fun token =>
        (⟨account, name, token⟩ : AccountData)).map (plainEntry env) =
      ((bridged env connection).map fun token => ⟨account, name, token⟩).map (plainEntry env) := by
  rcases bridged_later hfernet hlater with ⟨hthen, hnow⟩ | ⟨token, token', hthen, hnow, htoken⟩
  · rw [hthen, hnow]
  · rw [hthen, hnow]
    exact congrArg (fun t => some (AccountData.mk _ _ t)) htoken

theorem plain_businessEntries (hfernet : Fernet env) (hlater : Fernet (later env encrypt uuid now))
    (accounts : Json) :
    (businessEntries (later env encrypt uuid now) connection accounts).map (plainEntry env) =
      (businessEntries env connection accounts).map (plainEntry env) := by
  unfold businessEntries
  rcases bridged_later hfernet hlater with ⟨hthen, hnow⟩ | ⟨token, token', hthen, hnow, htoken⟩
  · rw [hthen, hnow]
  · rw [hthen, hnow]
    simp only [List.map_flatMap, List.map_filterMap]
    refine List.flatMap_congr fun accountData _ => List.filterMap_congr fun location _ => ?_
    unfold locationEntry
    split_ifs
    · exact congrArg (fun t => some (AccountData.mk _ _ t)) htoken
    · rfl

theorem plain_found {key : String} {provider : ApiProvider} {refresh refresh' : Refresh}
    {entries entries' : Json → List AccountData}
    (hrefresh : plainRefresh env refresh' = plainRefresh env refresh)
    (h : ∀ j, (entries' j).map (plainEntry env) = (entries j).map (plainEntry env)) :
    plainListed env (found result key provider refresh' entries') =
      plainListed env (found result key provider refresh entries) := by
  unfold plainListed found
  rw [hrefresh]
  rcases result.lookup key with _ | value
  · rfl
  · rw [h value]

/-- **To read a result later is to read the same**, up to the ciphertexts. -/
theorem plain_listed (hfernet : Fernet env) (hlater : Fernet (later env encrypt uuid now)) :
    plainListed env (listed (later env encrypt uuid now) connection result) =
      plainListed env (listed env connection result) := by
  unfold listed
  split_ifs
  · refine plain_found rfl fun pages => ?_
    unfold pageEntries
    rw [List.map_filterMap, List.map_filterMap]
    exact List.filterMap_congr fun page _ => plain_entryAccount hfernet hlater _ _ _ _
  · refine plain_found rfl fun profiles => ?_
    unfold instagramEntries
    rw [List.map_filterMap, List.map_filterMap]
    exact List.filterMap_congr fun profile _ => plain_entryAccount hfernet hlater _ _ _ _
  · refine plain_found rfl fun profile => ?_
    rw [← Option.toList_map, ← Option.toList_map]
    unfold linkedinEntry
    split_ifs
    · exact congrArg _ (plain_map_bridged hfernet hlater _ _)
    · rfl
  · refine plain_found (plain_refreshOf hfernet hlater) fun profile => ?_
    rw [← Option.toList_map, ← Option.toList_map]
    unfold twitterEntry
    split_ifs
    · exact congrArg _ (plain_map_bridged hfernet hlater _ _)
    · rfl
  · exact plain_found (plain_refreshOf hfernet hlater) (plain_businessEntries hfernet hlater)
  · rfl

end Later

/-! ### The whole job -/

/-- **A keyed upsert**: the keys stay apart, every entry has its account, which is active and has
the name of the last entry for it, and the other rows are as they were. -/
structure Upserts (w : Uuid) (x : Listed) (T T' : Table SocialAccount) : Prop where
  unique : Unique T'
  named : ∀ a ∈ x.accounts, ∃ last r, lastFor AccountData.accountId x.accounts a.accountId =
      some last ∧ r ∈ T'.rows ∧ r.isActive = true ∧ r.name = last.name ∧
    ∀ q ∈ T'.rows, isAccount w x.provider a.accountId q = true ↔ q = r
  others : ∀ r, (∀ a ∈ x.accounts, isAccount w x.provider a.accountId r = false) →
    (r ∈ T'.rows ↔ r ∈ T.rows)

/-- The job goes through as a keyed upsert, and again, at whatever later time, with no change but of
the ciphertexts. -/
def Keyed (env : Env) (payload : Dict) (s : Database) (call : Call) (result : Dict) : Prop :=
  ∃ T, (executeSyncJob env payload).Returns s result { s with socialAccounts := T } ∧
    Upserts call.workspaceId (listed env call.connection result) s.socialAccounts T ∧
    ∀ encrypt uuid now, Fernet (later env encrypt uuid now) → ∃ T',
      (executeSyncJob (later env encrypt uuid now) payload).Returns { s with socialAccounts := T }
        result { s with socialAccounts := T' } ∧
      T'.rows.map (plain env) = T.rows.map (plain env)

variable {payload result : Dict} {s : Database} {call : Call} {x : Listed}

theorem upserts_of_saved (hT : Unique T) (h : Saved env w x.provider x.refresh x.accounts T T') :
    Upserts w x T T' := by
  have hunique := unique_of_saved hT h
  refine ⟨hunique, fun a ha => ?_, fun r hr => mem_iff_of_saved h hr⟩
  obtain ⟨last, hlast⟩ : ∃ last, lastFor AccountData.accountId x.accounts a.accountId = some last :=
    exists_lastFor ha
  have hst : stored T' w x.provider a.accountId =
      some (put env w x.provider x.refresh last (stored T w x.provider a.accountId)) := by
    rw [stored_of_saved h, upserts_apply put_put, hlast]
  obtain ⟨hmem, hacc⟩ := stored_eq_some hst
  refine ⟨last, _, hlast, hmem, rfl, rfl, fun q hq => ⟨fun hqacc => ?_, fun heq => ?_⟩⟩
  · exact hunique w x.provider a.accountId q hq _ hmem hqacc hacc
  · rw [heq]
    exact hacc

/-- **The exact condition**, in the terms of the reading: what the job reads it can read, and there
is a workspace for what it reads. -/
theorem returns_iff (hcall : callOf env payload s = .ok call) (hout : call.outcome = .ok result)
    {v : Database} : (executeSyncJob env payload).Returns s result v ↔
      Readable env call.connection result ∧
      ((listed env call.connection result).accounts ≠ [] →
        s.workspaces.has call.workspaceId = true) ∧
      ∃ T, Saved env call.workspaceId (listed env call.connection result).provider
          (listed env call.connection result).refresh (listed env call.connection result).accounts
          s.socialAccounts T ∧ v = { s with socialAccounts := T } := by
  rw [returns_executeSyncJob]
  constructor
  · rintro ⟨call', hcall', -, hpersist⟩
    obtain rfl := Except.ok.inj (hcall.symm.trans hcall')
    obtain ⟨x, hx, hsave⟩ := returns_persist.mp hpersist
    obtain ⟨hreadable, rfl⟩ := accountsOf_eq_ok.mp hx
    exact ⟨hreadable, returns_saveAll.mp hsave⟩
  · rintro ⟨hreadable, hsave⟩
    exact ⟨call, hcall, hout, returns_persist.mpr
      ⟨_, accountsOf_eq_ok.mpr ⟨hreadable, rfl⟩, returns_saveAll.mpr hsave⟩⟩

theorem stored_of_mem (h : Saved env w p refresh l T T') (ha : a ∈ l) :
    ∃ r, stored T' w p a.accountId = some r := by
  obtain ⟨last, hlast⟩ : ∃ last, lastFor AccountData.accountId l a.accountId = some last :=
    exists_lastFor ha
  rw [stored_of_saved h, upserts_apply put_put, hlast]
  exact ⟨_, rfl⟩

/-- A loop over the same accounts, with other ciphertexts, on what the first one left. -/
theorem plain_of_saved_again {env' : Env} {x x' : Listed}
    (hsame : plainListed env x' = plainListed env x) (hunique : Unique T)
    (hsaved : Saved env w x.provider x.refresh x.accounts T T') :
    ∃ V, Saved env' w x'.provider x'.refresh x'.accounts T' V ∧
      V.rows.map (plain env) = T'.rows.map (plain env) := by
  obtain ⟨provider, refresh, accounts⟩ := x
  obtain ⟨provider', refresh', accounts'⟩ := x'
  obtain ⟨rfl, hrefresh, haccounts⟩ := Listed.mk.inj hsame
  have hstored : ∀ a ∈ accounts', ∃ r, stored T' w provider' a.accountId = some r := by
    intro a ha
    have hmem : plainEntry env a ∈ accounts.map (plainEntry env) := by
      rw [← haccounts]
      exact List.mem_map_of_mem ha
    obtain ⟨b, hb, hab⟩ := List.mem_map.mp hmem
    have hid : (plainEntry env b).accountId = (plainEntry env a).accountId := congrArg _ hab
    have hid : b.accountId = a.accountId := hid
    rw [← hid]
    exact stored_of_mem hsaved hb
  have hids : NewIds env' w provider' accounts' T' := by
    refine ⟨fun a ha hnone => ?_, fun a ha b _ hnone => ?_⟩ <;>
    · obtain ⟨r, hr⟩ := hstored a ha
      rw [hnone] at hr
      cases hr
  obtain ⟨V, hV⟩ : ∃ V, Saved env' w provider' refresh' accounts' T' V := exists_saved.mpr hids
  refine ⟨V, hV, ?_⟩
  rw [rows_of_saved (unique_of_saved hunique hsaved) hstored hV, List.map_map]
  refine List.map_congr_left fun r hr => ?_
  calc plain env (rewritten w provider' refresh' accounts' r)
      = rewritten w provider' (plainRefresh env refresh') (accounts'.map (plainEntry env))
          (plain env r) := plain_rewritten r
    _ = rewritten w provider' (plainRefresh env refresh) (accounts.map (plainEntry env))
          (plain env r) := by rw [hrefresh, haccounts]
    _ = plain env (rewritten w provider' refresh accounts r) := (plain_rewritten r).symm
    _ = plain env r := by rw [rewritten_of_saved hunique hsaved hr]

theorem readable_later {connection : IntegrationConnection} {encrypt : ℕ → String → String}
    {uuid : String → Uuid} {now : Time} :
    Readable (later env encrypt uuid now) connection result ↔ Readable env connection result := by
  have hsome : (bridged (later env encrypt uuid now) connection).isSome =
      (bridged env connection).isSome := by
    unfold bridged
    rcases connection.accessToken with _ | token
    · rfl
    by_cases hempty : token = ""
    · simp only [if_pos hempty]
    · simp only [if_neg hempty, Option.isSome_some]
  unfold Readable TwitterOk
  rw [hsome]
  rfl

/-- **The job again**: it goes through, and changes nothing but the ciphertexts. -/
theorem returns_again (hfernet : Fernet env) {encrypt : ℕ → String → String} {uuid : String → Uuid}
    {now : Time} (hlater : Fernet (later env encrypt uuid now))
    (hcall : callOf env payload s = .ok call) (hout : call.outcome = .ok result)
    (hreadable : Readable env call.connection result)
    (hworkspace : (listed env call.connection result).accounts ≠ [] →
      s.workspaces.has call.workspaceId = true) (hunique : Unique s.socialAccounts)
    (hsaved : Saved env call.workspaceId (listed env call.connection result).provider
      (listed env call.connection result).refresh (listed env call.connection result).accounts
      s.socialAccounts T) :
    ∃ T', (executeSyncJob (later env encrypt uuid now) payload).Returns
        { s with socialAccounts := T } result { s with socialAccounts := T' } ∧
      T'.rows.map (plain env) = T.rows.map (plain env) := by
  have hcall' : callOf (later env encrypt uuid now) payload { s with socialAccounts := T } =
      .ok call := hcall
  have hsame : plainListed env (listed (later env encrypt uuid now) call.connection result) =
      plainListed env (listed env call.connection result) := plain_listed hfernet hlater
  obtain ⟨T', hagain, hplain⟩ := plain_of_saved_again hsame hunique hsaved
  refine ⟨T', (returns_iff hcall' hout).mpr ⟨readable_later.mpr hreadable, fun hne => ?_, T', hagain,
    rfl⟩, hplain⟩
  refine hworkspace fun hnil => hne ?_
  have haccounts := congrArg Listed.accounts hsame
  rw [plainListed, plainListed, hnil] at haccounts
  exact List.map_eq_nil_iff.mp haccounts

/-- **A sync is a keyed, idempotent upsert exactly if its result is readable**, and the workspace is
there if it names an account. -/
theorem keyed_iff (hfernet : Fernet env) (hcall : callOf env payload s = .ok call)
    (hout : call.outcome = .ok result) (hunique : Unique s.socialAccounts)
    (hids : NewIds env call.workspaceId (listed env call.connection result).provider
      (listed env call.connection result).accounts s.socialAccounts) :
    Keyed env payload s call result ↔ Readable env call.connection result ∧
      ((listed env call.connection result).accounts ≠ [] →
        s.workspaces.has call.workspaceId = true) := by
  constructor
  · rintro ⟨T, hret, -⟩
    obtain ⟨hreadable, hworkspace, -⟩ := (returns_iff hcall hout).mp hret
    exact ⟨hreadable, hworkspace⟩
  · rintro ⟨hreadable, hworkspace⟩
    obtain ⟨T, hsaved⟩ := exists_saved.mpr hids
    refine ⟨T, (returns_iff hcall hout).mpr ⟨hreadable, hworkspace, T, hsaved, rfl⟩,
      upserts_of_saved hunique hsaved, fun encrypt uuid now hlater => ?_⟩
    exact returns_again hfernet hlater hcall hout hreadable hworkspace hunique hsaved

/-! ### One profile without an id -/

/-- The workspace 10 is connected to Instagram. -/
def connectedInstagram : Database :=
  { twoStudios with
    integrationConnections :=
      ⟨[⟨50, 10, "instagram", .connected, some "gAAAAEAAB", none, none⟩], by decide⟩ }

/-- Instagram answers with these profiles. -/
def answering (profiles : List Json) : Env :=
  { Social.Refresh.twitter.toEnv with
    connector := fun _ _ _ => .ok [("instagram_accounts", .arr profiles)] }

/-- The sync of the workspace. -/
def syncInstagram : Dict := [("workspace_id", .id 10), ("provider", .str "instagram")]

/-- The call of the connector. -/
def instagramCall (profiles : List Json) : Call :=
  ⟨10, ⟨50, 10, "instagram", .connected, some "gAAAAEAAB", none, none⟩,
    .ok [("instagram_accounts", .arr profiles)]⟩

/-- A profile that comes twice, under two names. -/
def twice : List Json :=
  [.obj [("id", .str "178"), ("username", .str "studio"), ("page_access_token", .str "EAAP")],
    .obj [("id", .str "178"), ("username", .str "atelier"), ("page_access_token", .str "EAAP")]]

/-- A profile without an id, and one with all its fields. -/
def unidentified : List Json :=
  [.obj [("username", .str "studio"), ("page_access_token", .str "EAAP")],
    .obj [("id", .str "178"), ("username", .str "atelier"), ("page_access_token", .str "EAAQ")]]

theorem fernet_answering (profiles : List Json) : Fernet (answering profiles) :=
  ⟨Integrations.Connections.fernet_suite.ne_empty,
    Integrations.Connections.fernet_suite.decrypt_encrypt⟩

theorem keyed_iff_twice : Keyed (answering twice) syncInstagram connectedInstagram
    (instagramCall twice) [("instagram_accounts", .arr twice)] := by
  have hids : NewIds (answering twice) 10 .instagram
      (listed (answering twice) (instagramCall twice).connection
        [("instagram_accounts", .arr twice)]).accounts connectedInstagram.socialAccounts := by
    have hids : ∀ a ∈ (listed (answering twice) (instagramCall twice).connection
        [("instagram_accounts", .arr twice)]).accounts, a.accountId = "178" := by decide
    exact ⟨fun a _ _ => rfl, fun a ha b hb _ _ _ => (hids a ha).trans (hids b hb).symm⟩
  have hempty : Unique connectedInstagram.socialAccounts := fun _ _ _ r hr =>
    absurd hr List.not_mem_nil
  refine (keyed_iff (fernet_answering twice) rfl rfl hempty hids).mpr ⟨?_, fun _ => by decide⟩
  unfold Readable
  rw [if_neg (by decide), if_pos (by decide)]
  intro profiles hprofiles
  obtain rfl := Option.some.inj hprofiles
  refine ⟨⟨twice, rfl⟩, fun profile hprofile => ?_⟩
  have hprofile : profile ∈ twice := hprofile
  rcases List.mem_cons.mp hprofile with rfl | hprofile
  · exact ⟨rfl, fun _ => ⟨rfl, rfl, rfl⟩⟩
  · rw [List.mem_singleton.mp hprofile]
    exact ⟨rfl, fun _ => ⟨rfl, rfl, rfl⟩⟩

/-- The profile with all its fields is not stored, because of the other one. -/
theorem unidentified_profile_stops_sync : ¬ Keyed (answering unidentified) syncInstagram
    connectedInstagram (instagramCall unidentified)
    [("instagram_accounts", .arr unidentified)] := by
  rintro ⟨T, hret, -⟩
  have hraise : ((executeSyncJob (answering unidentified) syncInstagram).run
      connectedInstagram).1 = .error (.keyError "id") := rfl
  rw [Prog.run, hret] at hraise
  cases hraise

end MarketingSuite.Sync.Idempotence
