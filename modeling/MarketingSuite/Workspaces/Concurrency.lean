import MarketingSuite.Workspaces.LastOwner
import MarketingSuite.Workspaces.Requests

/-! # The last active owner and two requests at once

Each of two requests may count, as the other active owner, the one that the other request takes
away, and then both commit. That is the only way in which two requests leave a workspace without an
active owner. -/

namespace MarketingSuite.Workspaces.Concurrency

open MarketingSuite.Lib.Programs MarketingSuite.Lib.Tables MarketingSuite.Lib.Runs
open MarketingSuite.Lib.Transactions
open MarketingSuite.Base.Values MarketingSuite.Base.Models MarketingSuite.Base.Schema
open MarketingSuite.Repositories.Base MarketingSuite.Repositories.Records
open MarketingSuite.Workspaces.Repositories (ownerRoleOf activeHolders mem_activeHolders
  activeHolders_sublist)
open MarketingSuite.Workspaces.LastOwner (HasActiveOwner)
open MarketingSuite.Workspaces.Requests

/-- The committed database and the transactions of the two requests. -/
abbrev Requests : Type := Lib.Transactions.World Database Exc Phase Bool

variable (r : Bool → Request)

/-- The next statement of one of the two requests. -/
abbrev requestStep : Requests → Bool → Requests := step fun b => (r b).next

/-- Both requests begin. -/
abbrev begin (s : Database) : Requests := begun (fun _ => .getMember) s

/-- A request that no statement of the other one interrupts is the call of the service. -/
theorem run_one (b : Bool) (s : Database) :
    (run (requestStep r) (begin s) (List.replicate 9 b)).db = (r b).serve.settle s := by
  have hc : ∀ p v, (solo (r b).next 8 .getMember).Returns s p v → (r b).next p = .commit := by
    intro p v h
    obtain ⟨changed, rfl⟩ := Request.solo_returns_commit h
    rfl
  have halone : (run (requestStep r) (begin s) (List.replicate 9 b)).db =
      (solo (r b).next 8 .getMember).settle s := run_alone (n := 8) (fun _ => Phase.getMember) s hc
  rw [halone, Request.serve_eq_solo]
  rcases (solo (r b).next 8 .getMember).returns_or_raises s with ⟨p, v, h⟩ | ⟨e, v, h⟩
  · rw [Prog.settle_of_returns h, Prog.settle_of_returns (Prog.returns_bind_pure.mpr ⟨p, h, rfl⟩)]
  · rw [Prog.settle_of_raises h, Prog.settle_of_raises (Prog.raises_bind.mpr (Or.inl h))]

/-! ### What a request knows -/

/-- The request does not make anyone an owner. -/
def Away (s : Database) (r : Request) : Prop :=
  ∀ n, r.change = .changeRole n → ∀ o, ownerRoleOf s = some o → n ≠ o.id

/-- The phases after `_protect_owner_role` has let the request pass. -/
def Guarded : Phase → Prop
  | .getMember | .systemRoles _ | .activeMembers _ _ | .commit false => False
  | _ => True

/-- Both requests have passed the guard, and neither has committed. -/
def Overlap (W : Requests) : Prop := ∀ b, ∃ p, (W.sessions b).status = .running p ∧ Guarded p

/-- The request has committed a change. -/
def Effective (W : Requests) (b : Bool) : Prop :=
  (W.sessions b).status = .committed (.commit true)

section Invariant

variable (w : Uuid) (s : Database) (o : Role)

/-- The member was an active owner at the start. -/
def Own (i : Uuid) : Prop := ∃ h ∈ activeHolders s w o.id, h.id = i

/-- If the member was an active owner at the start, another one was, too. -/
def Spare (i : Uuid) : Prop := Own w s o i → ∃ h ∈ activeHolders s w o.id, h.id ≠ i

/-- The requests are about two members. -/
def Distinct : Prop := (r false).memberId ≠ (r true).memberId

/-- What holds of a request in a phase, besides what the objects in the phase say. -/
def Known (b : Bool) : Phase → Prop
  | .getMember => True
  | .systemRoles m => m.id = (r b).memberId ∧ ((m.roleId = o.id ∧ m.status = .active) ∨
      Spare w s o (r b).memberId ∧ (Own w s o (r b).memberId → ¬ Distinct r))
  | .activeMembers m o' => m.id = (r b).memberId ∧ o' = o
  | .getRole m _ | .ownerRole m _ _ | .getById m _ | .update m _ _ =>
      m.id = (r b).memberId ∧ Spare w s o (r b).memberId
  | .record _ _ _ | .commit true => Spare w s o (r b).memberId
  | .commit false => Own w s o (r b).memberId → ¬ Distinct r

/-- The member `i` is no active owner any more, and the others are what they were. -/
def Lost (i : Uuid) (t t' : Database) : Prop :=
  ownerRoleOf t' = ownerRoleOf t ∧
    ∀ h, h ∈ activeHolders t' w o.id ↔ h ∈ activeHolders t w o.id ∧ h.id ≠ i

/-- What a request has written in a phase. -/
def Wrote (b : Bool) (q : Svc Unit) : Phase → Prop
  | .record _ _ _ | .commit true => ∀ t t', q.Returns t () t' → Lost w o (r b).memberId t t'
  | _ => q = pure ()

/-- The transaction of a request. -/
structure Sound (b : Bool) (t : Session Database Exc Phase) : Prop where
  running : ∀ p, t.status = .running p → Known r w s o b p ∧ Wrote r w o b t.writes p
  committed : ∀ p, t.status = .committed p → (∃ changed, p = .commit changed) ∧ Known r w s o b p

/-- **The invariant**: the active owners are those of the start besides the members of the requests
that have committed a change. -/
structure Inv (W : Requests) : Prop where
  ownerRole : ownerRoleOf W.db = some o
  holders : ∀ h, h ∈ activeHolders W.db w o.id ↔
    h ∈ activeHolders s w o.id ∧ ∀ b, Effective W b → (r b).memberId ≠ h.id
  sessions : ∀ b, Sound r w s o b (W.sessions b)

end Invariant

variable {r} {w : Uuid} {s : Database} {o : Role} {W : Requests} {b : Bool}

theorem inv_begin (ho : ownerRoleOf s = some o) : Inv r w s o (begin s) where
  ownerRole := ho
  holders h := by simp [begun, Effective, Session.fresh]
  sessions b := by
    refine ⟨fun p hp => ?_, fun p hp => by cases hp⟩
    obtain rfl : Phase.getMember = p := Status.running.inj hp
    exact ⟨trivial, rfl⟩

/-- A member row of the start that is still an active owner is the row it was. -/
theorem Inv.row_eq {h m : WorkspaceMember} {t : Database}
    (hh : h ∈ activeHolders t w o.id) (hm : m ∈ t.workspaceMembers.rows) (hid : h.id = m.id) :
    h = m := t.workspaceMembers.eq_of_key_eq (mem_activeHolders.mp hh).1 hm hid

/-- What a running request may find of its member: if it was an active owner, it is one, or the other
request has changed it. -/
theorem Inv.own (hI : Inv r w s o W) (hb : ¬ Effective W b) (hown : Own w s o (r b).memberId) :
    (∃ h ∈ activeHolders W.db w o.id, h.id = (r b).memberId) ∨
      ¬ Distinct r ∧ Spare w s o (r b).memberId := by
  obtain ⟨h, hh, hid⟩ := hown
  by_cases hlost : ∃ b', Effective W b' ∧ (r b').memberId = h.id
  · obtain ⟨b', he, hid'⟩ := hlost
    have hne : b' ≠ b := fun heq => hb (heq ▸ he)
    have hsame : (r b').memberId = (r b).memberId := hid'.trans hid
    refine Or.inr ⟨fun hd => hd ?_, ?_⟩
    · cases b <;> cases b' <;> simp_all
    · have hknown := ((hI.sessions b').committed _ he).2
      rw [← hsame]
      exact hknown
  · exact Or.inl ⟨h, (hI.holders h).mpr ⟨hh, fun b' he hid' => hlost ⟨b', he, hid'⟩⟩, hid⟩

/-! ### One statement -/

/-- The Owner role is not what the request asks for. -/
def NotTo (o : Role) (r : Request) : Prop := ∀ n, r.change = .changeRole n → n ≠ o.id

theorem set_loses {r : Request} (ha : NotTo o r) (m : WorkspaceMember) :
    ¬ ((r.set m).status = .active ∧ (r.set m).deletedAt = none ∧ (r.set m).roleId = o.id) := by
  unfold Request.set
  rcases hc : r.change with _ | _ | n
  · simp
  · simp
  · exact fun h => ha n hc h.2.2

theorem lost_of_update {r : Request} (ha : NotTo o r) {i : Uuid} {t t' : Database}
    {a : WorkspaceMember} (h : (update i r.set).Returns t a t') : Lost w o i t t' := by
  obtain ⟨-, -, -, -, -, T, hT, rfl⟩ := returns_update.mp h
  have hT : t.workspaceMembers.modify i r.set = some T := hT
  refine ⟨rfl, fun h => ?_⟩
  rw [mem_activeHolders, mem_activeHolders]
  constructor
  · rintro ⟨hmem, hw, hact, hd, hr⟩
    rcases (Table.mem_modify hT).mp hmem with ⟨hmem, hne⟩ | ⟨q, -, -, rfl⟩
    · exact ⟨⟨hmem, hw, hact, hd, hr⟩, hne⟩
    · exact absurd ⟨hact, hd, hr⟩ (set_loses ha q)
  · rintro ⟨⟨hmem, hp⟩, hne⟩
    exact ⟨Table.mem_modify_of_ne hT hmem hne, hp⟩

theorem Lost.recorded {i : Uuid} {t t' t'' : Database} (h : Lost w o i t t')
    (hr : Recorded t' t'') : Lost w o i t t'' := by
  obtain ⟨N, L, rfl⟩ := hr
  exact h

theorem recorded_of_record {r : Request} {member row : WorkspaceMember} {name : String} {u : Unit}
    {t t' : Database} (h : (r.record member row name).Returns t u t') : Recorded t t' := by
  unfold Request.record at h
  rcases hc : r.change with _ | _ | n
  · rw [hc] at h; exact Members.record_spec h
  · rw [hc] at h; exact Members.record_spec h
  · rw [hc] at h; exact Members.record_spec h

/-- After the guard the request knows that there is another owner to spare. -/
theorem known_passed {m : WorkspaceMember} (hid : m.id = (r b).memberId)
    (hs : Spare w s o (r b).memberId) : Known r w s o b ((r b).passed m) ∧
      ∀ q, q = pure () → Wrote r w o b q ((r b).passed m) := by
  unfold Request.passed
  rcases (r b).change with _ | _ | n
  · exact ⟨⟨hid, hs⟩, fun q hq => hq⟩
  · exact ⟨⟨hid, hs⟩, fun q hq => hq⟩
  · exact ⟨⟨hid, hs⟩, fun q hq => hq⟩

theorem known_found (hI : Inv r w s o W) (hb : ¬ Effective W b) (ha : NotTo o (r b))
    {m : WorkspaceMember} {p : Phase} {t : Database}
    (hm : Members.IsMember W.db w (r b).memberId m) (h : ((r b).found m).Returns W.db p t) :
    Known r w s o b p ∧ ∀ q, q = pure () → Wrote r w o b q p := by
  obtain ⟨hrow, hid, hd, hmw⟩ := hm
  have hactive : Own w s o (r b).memberId → (m.roleId = o.id ∧ m.status = .active) ∨
      ¬ Distinct r ∧ Spare w s o (r b).memberId := by
    intro hown
    rcases hI.own hb hown with ⟨h, hh, hhid⟩ | hlost
    · have hprops := mem_activeHolders.mp hh
      rw [Inv.row_eq hh hrow (hhid.trans hid.symm)] at hprops
      exact Or.inl ⟨hprops.2.2.2.2, hprops.2.2.1⟩
    · exact Or.inr hlost
  rcases Request.found_spec h with ⟨rfl, -⟩ | ⟨rfl, -, hsame⟩
  · refine ⟨⟨hid, ?_⟩, fun q hq => hq⟩
    by_cases hown : Own w s o (r b).memberId
    · rcases hactive hown with hact | ⟨hd, hs⟩
      · exact Or.inl hact
      · exact Or.inr ⟨hs, fun _ => hd⟩
    · exact Or.inr ⟨fun hown' => absurd hown' hown, fun hown' => absurd hown' hown⟩
  · refine ⟨fun hown => ?_, fun q hq => hq⟩
    rcases hactive hown with ⟨hr, hst⟩ | ⟨hd, -⟩
    · rcases hsame with ⟨-, hsusp⟩ | hchange
      · rw [hsusp] at hst; cases hst
      · exact absurd hr (ha _ hchange)
    · exact hd

theorem spare_of_count {t : Database} {i : Uuid}
    (hsub : ∀ h ∈ activeHolders t w o.id, h ∈ activeHolders s w o.id)
    (hlt : 1 < (activeHolders t w o.id).length) : Spare w s o i := by
  rintro ⟨h, hh, rfl⟩
  obtain ⟨h', hh', hne⟩ := t.workspaceMembers.exists_ne activeHolders_sublist hlt h
  exact ⟨h', hsub h' hh', fun hid => hne (Inv.row_eq (hsub h' hh') (mem_activeHolders.mp hh).1 hid)⟩

theorem count_spec {r : Request} {m : WorkspaceMember} {o' : Role} {p : Phase} {t t' : Database}
    (h : (do
      let members ← Repositories.getActiveMembers r.workspace.id
      let activeOwners := members.filter fun m => m.roleId = o'.id
      Prog.require (1 < activeOwners.length)
        (.http 400 "Cannot remove or demote the last active owner of the workspace.")
      pure (r.passed m) : Svc Phase).Returns t p t') :
    1 < (activeHolders t r.workspace.id o'.id).length ∧ p = r.passed m := by
  rw [Prog.returns_bind] at h
  obtain ⟨l, t₁, hl, h⟩ := h
  obtain ⟨rfl, rfl⟩ := Prog.returns_gets.mp hl
  rw [Prog.returns_bind] at h
  obtain ⟨_, t₂, hreq, h⟩ := h
  obtain ⟨hlt, rfl⟩ := Prog.returns_require.mp hreq
  exact ⟨hlt, (Prog.returns_pure.mp h).1⟩

theorem systemRoles_spec {r : Request} {m : WorkspaceMember} {p : Phase} {t t' : Database}
    (ho : ownerRoleOf t = some o)
    (h : (do
      let ownerRole ← Repositories.getOwnerRole
      match ownerRole with
      | none => pure (r.passed m)
      | some o =>
        if m.roleId = o.id ∧ m.status = .active then pure (.activeMembers m o)
        else pure (r.passed m) : Svc Phase).Returns t p t') :
    (m.roleId = o.id ∧ m.status = .active) ∧ p = .activeMembers m o ∨
      ¬ (m.roleId = o.id ∧ m.status = .active) ∧ p = r.passed m := by
  rw [Prog.returns_bind] at h
  obtain ⟨found, t₁, hrole, h⟩ := h
  obtain ⟨rfl, rfl⟩ := Repositories.returns_getOwnerRole.mp hrole
  rw [ho] at h
  simp only [Prog.returns_ite] at h
  split_ifs at h with hm
  · exact Or.inl ⟨hm, (Prog.returns_pure.mp h).1⟩
  · exact Or.inr ⟨hm, (Prog.returns_pure.mp h).1⟩

/-- **A read keeps what is known**, in every phase. -/
theorem known_read (hI : Inv r w s o W) (ha : NotTo o (r b)) (hw : (r b).workspace.id = w)
    {p p' : Phase} {f : Database → Except Exc Phase}
    (hp : (W.sessions b).status = .running p) (hn : (r b).next p = .read f)
    (hf : f W.db = .ok p') :
    Known r w s o b p' ∧ ∀ q, q = pure () → Wrote r w o b q p' := by
  have hb : ¬ Effective W b := fun he => by unfold Effective at he; rw [hp] at he; cases he
  have hknown := ((hI.sessions b).running p hp).1
  have hsub : ∀ h ∈ activeHolders W.db w o.id, h ∈ activeHolders s w o.id :=
    fun h hh => ((hI.holders h).mp hh).1
  cases p with
  | getMember =>
    cases hn
    have hret := Prog.returns_of_fst hf
    rw [Prog.returns_bind] at hret
    obtain ⟨m, t, hget, hret⟩ := hret
    obtain ⟨rfl, hm⟩ := Members.getMember_spec hget
    rw [hw] at hm
    exact known_found hI hb ha hm hret
  | systemRoles m =>
    cases hn
    obtain ⟨hid, hm⟩ := hknown
    rcases systemRoles_spec hI.ownerRole (Prog.returns_of_fst hf) with ⟨-, rfl⟩ | ⟨hno, rfl⟩
    · exact ⟨⟨hid, rfl⟩, fun q hq => hq⟩
    · rcases hm with hact | ⟨hs, -⟩
      · exact absurd hact hno
      · exact known_passed hid hs
  | activeMembers m o' =>
    cases hn
    obtain ⟨hid, rfl⟩ := hknown
    obtain ⟨hlt, rfl⟩ := count_spec (Prog.returns_of_fst hf)
    rw [hw] at hlt
    exact known_passed hid (spare_of_count hsub hlt)
  | getRole m n =>
    cases hn
    have hret := Prog.returns_of_fst hf
    rw [Prog.returns_bind] at hret
    obtain ⟨found, t, -, hret⟩ := hret
    obtain ⟨role, -, rfl⟩ := Prog.returns_bind_pure.mp hret
    exact ⟨hknown, fun q hq => hq⟩
  | ownerRole m n role =>
    cases hn
    have hret := Prog.returns_of_fst hf
    rw [Prog.returns_bind] at hret
    obtain ⟨found, t, -, hret⟩ := hret
    rw [Prog.returns_bind] at hret
    obtain ⟨o', t, -, hret⟩ := hret
    obtain ⟨_, -, rfl⟩ := Prog.returns_bind_pure.mp hret
    exact ⟨hknown, fun q hq => hq⟩
  | getById m name =>
    cases hn
    have hret := Prog.returns_of_fst hf
    rw [Prog.returns_bind] at hret
    obtain ⟨found, t, -, hret⟩ := hret
    obtain ⟨row, -, rfl⟩ := Prog.returns_bind_pure.mp hret
    exact ⟨hknown, fun q hq => hq⟩
  | _ => cases hn

/-- **A write makes the member no owner**, and nothing else is written about members. -/
theorem known_write (hI : Inv r w s o W) (ha : NotTo o (r b)) {p p' : Phase} {q : Svc Unit}
    (hp : (W.sessions b).status = .running p) (hn : (r b).next p = .write q p') :
    Known r w s o b p' ∧ Wrote r w o b ((W.sessions b).writes >>= fun _ => q) p' := by
  obtain ⟨hknown, hwrote⟩ := (hI.sessions b).running p hp
  cases p with
  | update m row name =>
    cases hn
    obtain ⟨hid, hs⟩ := hknown
    have hwrote : (W.sessions b).writes = pure () := hwrote
    refine ⟨hs, fun t t' h => ?_⟩
    rw [hwrote, Prog.pure_bind] at h
    obtain ⟨a, hu, -⟩ := Prog.returns_bind_pure.mp h
    rw [← hid]
    exact lost_of_update ha hu
  | record m row name =>
    cases hn
    refine ⟨hknown, fun t t' h => ?_⟩
    obtain ⟨⟨⟩, t₁, h₁, h₂⟩ := Prog.returns_bind.mp h
    exact (hwrote t t₁ h₁).recorded (recorded_of_record h₂)
  | _ => cases hn

theorem commit_of_next {r : Request} {p : Phase} (hn : r.next p = .commit) :
    ∃ changed, p = .commit changed := by
  cases p with
  | commit changed => exact ⟨changed, rfl⟩
  | _ => cases hn

theorem writes_eq_pure {p : Phase} {f : Database → Except Exc Phase} {q : Svc Unit}
    (hn : (r b).next p = .read f) (hwrote : Wrote r w o b q p) : q = pure () := by
  cases p with
  | getMember => exact hwrote
  | systemRoles m => exact hwrote
  | activeMembers m o' => exact hwrote
  | getRole m n => exact hwrote
  | ownerRole m n role => exact hwrote
  | getById m name => exact hwrote
  | _ => cases hn

/-! ### One step of two requests -/

theorem effective_update_of_ne {t : Session Database Exc Phase} {db : Database} {b' : Bool}
    (h : b' ≠ b) : Effective ⟨db, Function.update W.sessions b t⟩ b' ↔ Effective W b' := by
  simp [Effective, h]

theorem effective_update_self {t : Session Database Exc Phase} {db : Database} :
    Effective ⟨db, Function.update W.sessions b t⟩ b ↔ t.status = .committed (.commit true) := by
  simp [Effective]

theorem sound_update (hI : Inv r w s o W) {t : Session Database Exc Phase} {db : Database}
    (ht : Sound r w s o b t) (b' : Bool) :
    Sound r w s o b' ((⟨db, Function.update W.sessions b t⟩ : Requests).sessions b') := by
  by_cases hb : b' = b
  · subst hb; simpa using ht
  · simpa [hb] using hI.sessions b'

theorem inv_of_kept (hI : Inv r w s o W) {t : Session Database Exc Phase}
    (ht : Sound r w s o b t) (hiff : t.status = .committed (.commit true) ↔ Effective W b) :
    Inv r w s o ⟨W.db, Function.update W.sessions b t⟩ := by
  have hall : ∀ b', Effective ⟨W.db, Function.update W.sessions b t⟩ b' ↔ Effective W b' := by
    intro b'
    by_cases hb : b' = b
    · subst hb; exact effective_update_self.trans hiff
    · exact effective_update_of_ne hb
  refine ⟨hI.ownerRole, fun h => ?_, sound_update hI ht⟩
  simp only [hall]
  exact hI.holders h

theorem inv_of_lost (hI : Inv r w s o W) {t : Session Database Exc Phase} {db : Database}
    (ht : Sound r w s o b t) (hlost : Lost w o (r b).memberId W.db db)
    (hcommit : t.status = .committed (.commit true)) :
    Inv r w s o ⟨db, Function.update W.sessions b t⟩ := by
  obtain ⟨ho, hlost⟩ := hlost
  refine ⟨ho.trans hI.ownerRole, fun h => ?_, sound_update hI ht⟩
  rw [hlost h, hI.holders h, and_assoc]
  refine and_congr_right fun _ => ⟨?_, ?_⟩
  · rintro ⟨hkeep, hne⟩ b' he
    by_cases hb : b' = b
    · rw [hb]; exact fun heq => hne heq.symm
    · exact hkeep b' ((effective_update_of_ne hb).mp he)
  · intro hkeep
    have hne := hkeep b (effective_update_self.mpr hcommit)
    refine ⟨fun b' he => ?_, fun heq => hne heq.symm⟩
    by_cases hb : b' = b
    · rw [hb]; exact hne
    · exact hkeep b' ((effective_update_of_ne hb).mpr he)

theorem effect_requestStep (W : Requests) (b : Bool) :
    ∃ t db, Session.Effect (r b).next W.db (W.sessions b) (t, db) ∧
      requestStep r W b = ⟨db, Function.update W.sessions b t⟩ :=
  exists_effect (fun b => (r b).next) W b

/-- **One statement of either request** keeps the invariant. -/
theorem inv_step (ha : ∀ b, NotTo o (r b)) (hw : ∀ b, (r b).workspace.id = w)
    (hI : Inv r w s o W) (b : Bool) : Inv r w s o (requestStep r W b) := by
  have hsound := hI.sessions b
  obtain ⟨t, db, heffect, hstep⟩ := effect_requestStep (r := r) W b
  have hnot : ∀ {p}, (W.sessions b).status = .running p → ¬ Effective W b := by
    intro p hp he
    unfold Effective at he
    rw [hp] at he; cases he
  rw [hstep]
  cases heffect with
  | stopped h => exact inv_of_kept hI hsound Iff.rfl
  | @read p p' f hp hn hf =>
    have hwrites := writes_eq_pure hn (hsound.running p hp).2
    have hview := Session.view_of_unwritten hwrites W.db
    rw [hview] at hf
    obtain ⟨hknown, hwrote⟩ := known_read hI (ha b) (hw b) hp hn hf
    refine inv_of_kept hI ⟨fun q hq => ?_, fun q hq => by cases hq⟩
      (iff_of_false (fun hq => by cases hq) (hnot hp))
    obtain rfl : p' = q := Status.running.inj hq
    exact ⟨hknown, hwrote _ hwrites⟩
  | @write p p' q v hp hn hq =>
    refine inv_of_kept hI ⟨fun q' hq' => ?_, fun q hq => by cases hq⟩
      (iff_of_false (fun hq => by cases hq) (hnot hp))
    obtain rfl : p' = q' := Status.running.inj hq'
    exact known_write hI (ha b) hp hn
  | @committed p _ hp hn hwr =>
    obtain ⟨changed, rfl⟩ := commit_of_next hn
    obtain ⟨hknown, hwrote⟩ := hsound.running _ hp
    have ht : Sound r w s o b { W.sessions b with status := .committed (.commit changed) } := by
      refine ⟨fun q hq => (by cases hq), fun q hq => ?_⟩
      obtain rfl : Phase.commit changed = q := Status.committed.inj hq
      exact ⟨⟨changed, rfl⟩, hknown⟩
    cases changed with
    | true => exact inv_of_lost hI ht (hwrote _ _ hwr) rfl
    | false =>
      have hpure : (W.sessions b).writes = pure () := hwrote
      rw [hpure] at hwr
      obtain ⟨-, rfl⟩ := Prog.returns_pure.mp hwr
      exact inv_of_kept hI ht (iff_of_false (fun hq => by cases hq) (hnot hp))
  | @failed p e hp =>
    exact inv_of_kept hI ⟨fun q hq => (by cases hq), fun q hq => by cases hq⟩
      (iff_of_false (fun hq => by cases hq) (hnot hp))

/-! ### When the last owner is lost -/

/-- The two members are the active owners of the workspace. -/
def OnlyOwners (w : Uuid) (s : Database) (i j : Uuid) : Prop :=
  i ≠ j ∧ ∃ o, ownerRoleOf s = some o ∧ Own w s o i ∧ Own w s o j ∧
    ∀ m ∈ activeHolders s w o.id, m.id = i ∨ m.id = j

/-- The request has committed. -/
def Committed (W : Requests) (b : Bool) : Prop := ∃ p, (W.sessions b).status = .committed p

theorem not_hasActiveOwner_iff (hI : Inv r w s o W) : ¬ HasActiveOwner w W.db ↔
    ∀ h ∈ activeHolders s w o.id, ∃ b, Effective W b ∧ (r b).memberId = h.id := by
  constructor
  · intro hno h hh
    by_contra hkeep
    exact hno ⟨o, hI.ownerRole, h, (hI.holders h).mpr ⟨hh, fun b he hid => hkeep ⟨b, he, hid⟩⟩⟩
  · rintro hall ⟨o', ho', h, hh⟩
    rw [hI.ownerRole] at ho'
    obtain rfl := Option.some.inj ho'
    obtain ⟨hh, hkeep⟩ := (hI.holders h).mp hh
    obtain ⟨b, he, hid⟩ := hall h hh
    exact hkeep b he hid

/-- **If no active owner is left**, the two requests have taken away the two that there were. -/
theorem onlyOwners_of_lost (hs : HasActiveOwner w s) (ho : ownerRoleOf s = some o)
    (hI : Inv r w s o W) (hno : ¬ HasActiveOwner w W.db) :
    OnlyOwners w s (r false).memberId (r true).memberId ∧ ∀ b, Effective W b := by
  have hall := (not_hasActiveOwner_iff hI).mp hno
  obtain ⟨o', ho', h₀, hh₀⟩ := hs
  rw [ho] at ho'
  obtain rfl := Option.some.inj ho'
  obtain ⟨b, he, hid⟩ := hall h₀ hh₀
  have hspare : Spare w s o (r b).memberId := ((hI.sessions b).committed _ he).2
  obtain ⟨h₁, hh₁, hne⟩ := hspare ⟨h₀, hh₀, hid.symm⟩
  obtain ⟨b', he', hid'⟩ := hall h₁ hh₁
  have hbb : b' ≠ b := fun heq => hne (by rw [← hid', heq])
  have hown : Own w s o (r b).memberId := ⟨h₀, hh₀, hid.symm⟩
  have hown' : Own w s o (r b').memberId := ⟨h₁, hh₁, hid'.symm⟩
  have hids : (r b').memberId ≠ (r b).memberId := fun heq => hne (hid'.symm.trans heq)
  have hboth : ∀ P : Bool → Prop, P b → P b' → P false ∧ P true := by
    intro P hb hb'
    cases b <;> cases b'
    · exact absurd rfl hbb
    · exact ⟨hb, hb'⟩
    · exact ⟨hb', hb⟩
    · exact absurd rfl hbb
  obtain ⟨hown₀, hown₁⟩ := hboth (fun c => Own w s o (r c).memberId) hown hown'
  obtain ⟨he₀, he₁⟩ := hboth (Effective W) he he'
  refine ⟨⟨?_, o, ho, hown₀, hown₁, fun m hm => ?_⟩, fun c => ?_⟩
  · cases b <;> cases b'
    · exact absurd rfl hbb
    · exact hids.symm
    · exact hids
    · exact absurd rfl hbb
  · obtain ⟨c, -, hc⟩ := hall m hm
    cases c
    · exact Or.inl hc.symm
    · exact Or.inr hc.symm
  · cases c
    · exact he₀
    · exact he₁

/-- The request has passed the guard, or has committed a change. -/
def Past (W : Requests) (b : Bool) : Prop :=
  Effective W b ∨ ∃ p, (W.sessions b).status = .running p ∧ Guarded p

/-- While one request has committed its change, the other one has not passed the guard. -/
def OneByOne (W : Requests) : Prop := ∀ b, Effective W b → ¬ Past W !b

/-- **Whoever passes the guard** has counted more than one owner, or has not been asked to. -/
theorem count_of_guarded (hI : Inv r w s o W) (hw : (r b).workspace.id = w) {p p' : Phase}
    {f : Database → Except Exc Phase} (hp : (W.sessions b).status = .running p)
    (hn : (r b).next p = .read f) (hf : f W.db = .ok p') (hbefore : ¬ Guarded p)
    (hafter : Guarded p') : 1 < (activeHolders W.db w o.id).length ∨
      (Own w s o (r b).memberId → ¬ Distinct r) := by
  have hknown := ((hI.sessions b).running p hp).1
  cases p with
  | getMember =>
    cases hn
    have hret := Prog.returns_of_fst hf
    rw [Prog.returns_bind] at hret
    obtain ⟨m, t, -, hret⟩ := hret
    rcases Request.found_spec hret with ⟨rfl, -⟩ | ⟨rfl, -⟩
    · exact hafter.elim
    · exact hafter.elim
  | systemRoles m =>
    cases hn
    rcases systemRoles_spec hI.ownerRole (Prog.returns_of_fst hf) with ⟨-, rfl⟩ | ⟨hno, rfl⟩
    · exact hafter.elim
    · rcases hknown.2 with hact | ⟨-, hd⟩
      · exact absurd hact hno
      · exact Or.inr hd
  | activeMembers m o' =>
    cases hn
    obtain ⟨-, rfl⟩ := hknown
    have hlt := (count_spec (Prog.returns_of_fst hf)).1
    rw [hw] at hlt
    exact Or.inl hlt
  | commit changed => cases hn
  | _ => exact absurd trivial hbefore

/-- With one of the two owners gone, one is left, which the guard does not let go. -/
theorem not_count_of_effective (hI : Inv r w s o W) (hb : Effective W b)
    (hall : ∀ m ∈ activeHolders s w o.id, m.id = (r b).memberId ∨ m.id = (r !b).memberId) :
    ¬ 1 < (activeHolders W.db w o.id).length := by
  intro hlt
  have hid : ∀ h ∈ activeHolders W.db w o.id, h.id = (r !b).memberId := by
    intro h hh
    obtain ⟨hs, hkeep⟩ := (hI.holders h).mp hh
    exact (hall h hs).resolve_left fun heq => hkeep b hb heq.symm
  obtain ⟨h, hh⟩ := List.exists_mem_of_length_pos (Nat.lt_trans Nat.zero_lt_one hlt)
  obtain ⟨h', hh', hne⟩ := W.db.workspaceMembers.exists_ne activeHolders_sublist hlt h
  exact hne (Inv.row_eq hh' (mem_activeHolders.mp hh).1 ((hid h' hh').trans (hid h hh).symm))

theorem OnlyOwners.facts (h : OnlyOwners w s (r false).memberId (r true).memberId)
    (ho : ownerRoleOf s = some o) : Distinct r ∧ (∀ b, Own w s o (r b).memberId) ∧
      ∀ b, ∀ m ∈ activeHolders s w o.id, m.id = (r b).memberId ∨ m.id = (r !b).memberId := by
  obtain ⟨hne, o', ho', h₀, h₁, hall⟩ := h
  rw [ho] at ho'
  obtain rfl := Option.some.inj ho'
  refine ⟨hne, fun b => ?_, fun b m hm => ?_⟩
  · cases b
    · exact h₀
    · exact h₁
  · cases b
    · exact hall m hm
    · exact (hall m hm).symm

theorem guarded_of_effective (he : Effective (requestStep r W b) b) (hnot : ¬ Effective W b) :
    ∃ p, (W.sessions b).status = .running p ∧ Guarded p := by
  obtain ⟨t, db, heffect, hstep⟩ := effect_requestStep (r := r) W b
  simp only [Effective, hstep, Function.update_self] at he hnot
  cases heffect with
  | stopped h => exact absurd he hnot
  | read hp hn hf => cases he
  | write hp hn hq => cases he
  | failed hp => cases he
  | committed hp hn hq =>
    obtain rfl := Status.committed.inj he
    exact ⟨_, hp, trivial⟩

/-- A request passes the guard only if that finds more than one owner, or need not look. -/
theorem past_step (hI : Inv r w s o W) (hw : (r b).workspace.id = w)
    (hp : Past (requestStep r W b) b) : Past W b ∨
      1 < (activeHolders W.db w o.id).length ∨ (Own w s o (r b).memberId → ¬ Distinct r) := by
  rcases hp with heff | ⟨p', hp', hg'⟩
  · by_cases hbefore : Effective W b
    · exact Or.inl (Or.inl hbefore)
    · exact Or.inl (Or.inr (guarded_of_effective heff hbefore))
  obtain ⟨t, db, heffect, hstep⟩ := effect_requestStep (r := r) W b
  simp only [hstep, Function.update_self] at hp'
  cases heffect with
  | stopped h => exact absurd hp' (h p')
  | @read p q f hp hn hf =>
    obtain rfl : q = p' := Status.running.inj hp'
    have hwrites := writes_eq_pure hn ((hI.sessions b).running p hp).2
    have hview := Session.view_of_unwritten hwrites W.db
    rw [hview] at hf
    by_cases hg : Guarded p
    · exact Or.inl (Or.inr ⟨p, hp, hg⟩)
    · exact Or.inr (count_of_guarded hI hw hp hn hf hg hg')
  | @write p q _ _ hp hn hq =>
    refine Or.inl (Or.inr ⟨p, hp, ?_⟩)
    cases p with
    | update m row name => exact trivial
    | record m row name => exact trivial
    | _ => cases hn
  | committed hp hn hq => cases hp'
  | failed hp => cases hp'

theorem past_of_ne {b' : Bool} (h : b' ≠ b) : Past (requestStep r W b) b' ↔ Past W b' := by
  unfold Past Effective
  rw [step_sessions_of_ne h]

theorem effective_of_ne {b' : Bool} (h : b' ≠ b) :
    Effective (requestStep r W b) b' ↔ Effective W b' := by
  unfold Effective
  rw [step_sessions_of_ne h]

/-- **Without an overlap the requests go one by one.** -/
theorem oneByOne_step (hw : ∀ b, (r b).workspace.id = w) (hI : Inv r w s o W)
    (honly : OnlyOwners w s (r false).memberId (r true).memberId) (ho : ownerRoleOf s = some o)
    (hk : OneByOne W) (hno : ¬ Overlap W) (i : Bool) : OneByOne (requestStep r W i) := by
  obtain ⟨hd, hown, hall⟩ := honly.facts ho
  intro b he hp
  by_cases hib : b = i
  · -- the request that moves has committed: the other one has not passed the guard meanwhile
    subst hib
    have hp' : Past W !b := (past_of_ne (Bool.not_ne_self b)).mp hp
    by_cases heff : Effective W b
    · exact hk b heff hp'
    · have hg := guarded_of_effective he heff
      rcases hp' with heff' | hg'
      · refine hk (!b) heff' ?_
        rw [Bool.not_not]
        exact Or.inr hg
      · refine hno fun c => ?_
        by_cases hc : c = b
        · subst hc; exact hg
        · rw [Bool.eq_not_of_ne hc]; exact hg'
  · -- the other one has committed: the guard does not let this one pass
    obtain rfl : i = !b := Bool.eq_not_of_ne (Ne.symm hib)
    have heff : Effective W b := (effective_of_ne hib).mp he
    rcases past_step hI (hw _) hp with hpast | hlt | hapart
    · exact hk b heff hpast
    · exact not_count_of_effective hI heff (hall b) hlt
    · exact hapart (hown _) hd

/-! ### Runs -/

theorem inv_run_begin (hw : ∀ b, (r b).workspace.id = w) (ha : ∀ b, NotTo o (r b))
    (ho : ownerRoleOf s = some o) (l : List Bool) :
    Inv r w s o (run (requestStep r) (begin s) l) :=
  inv_run (I := Inv r w s o) (fun _ b hI => inv_step ha hw hI b) l (inv_begin ho)

/-- A request about one of the two owners that commits has committed a change. -/
theorem effective_of_committed (hI : Inv r w s o W) (hd : Distinct r)
    (hown : Own w s o (r b).memberId) (hc : Committed W b) : Effective W b := by
  obtain ⟨p, hp⟩ := hc
  obtain ⟨⟨changed, rfl⟩, hknown⟩ := (hI.sessions b).committed p hp
  cases changed with
  | true => exact hp
  | false => exact absurd hd (hknown hown)

/-- **Two requests at once leave an active owner** unless they are about the only two there are, both
pass the guard before either commits, and both commit. -/
theorem always_hasActiveOwner_iff (hs : HasActiveOwner w s) (hw : ∀ b, (r b).workspace.id = w)
    (ha : ∀ b, Away s (r b)) (l : List Bool) :
    Always (requestStep r) (fun W => HasActiveOwner w W.db) (begin s) l ↔
      ¬ (OnlyOwners w s (r false).memberId (r true).memberId ∧
        ¬ Always (requestStep r) (fun W => ¬ Overlap W) (begin s) l ∧
        ∀ b, Committed (run (requestStep r) (begin s) l) b) := by
  obtain ⟨o, ho, hh⟩ := hs
  have hto : ∀ b, NotTo o (r b) := fun b n hn => ha b n hn o ho
  have hinv : ∀ l, Inv r w s o (run (requestStep r) (begin s) l) := inv_run_begin hw hto ho
  constructor
  · rintro halways ⟨honly, -, hcommitted⟩
    obtain ⟨hd, hown, hall⟩ := honly.facts ho
    have hend := always_iff.mp halways l (List.prefix_refl l)
    refine (not_hasActiveOwner_iff (hinv l)).mpr (fun h hh => ?_) hend
    have heff := fun b => effective_of_committed (hinv l) hd (hown b) (hcommitted b)
    rcases hall false h hh with hid | hid
    · exact ⟨false, heff false, hid.symm⟩
    · exact ⟨true, heff true, hid.symm⟩
  · intro hskew
    refine always_iff.mpr fun pre hpre => ?_
    by_contra hno
    obtain ⟨honly, heff⟩ := onlyOwners_of_lost ⟨o, ho, hh⟩ ho (hinv pre) hno
    refine hskew ⟨honly, fun hsep => ?_, fun b => ?_⟩
    · -- without an overlap the two commits cannot both have happened
      have hone : Always (requestStep r) (fun W => Inv r w s o W ∧ OneByOne W) (begin s) l :=
        always_of_along (Q := fun W _ => ¬ Overlap W)
          (fun W i hI hov => ⟨inv_step hto hw hI.1 i, oneByOne_step hw hI.1 honly ho hI.2 hov i⟩)
          ⟨inv_begin ho, fun b he => by cases he⟩ (along_of_always (fun _ _ h => h) hsep)
      exact (always_iff.mp hone pre hpre).2 false (heff false) (Or.inl (heff true))
    · obtain ⟨post, rfl⟩ := hpre
      rw [run_append]
      exact ⟨_, committed_run (heff b) post⟩

/-- The studio with its founder (member 11) and a second owner (member 30), who was invited, has
accepted and was promoted. -/
def twoOwners : Database :=
  run (System.step id) System.founded
    [.on (drawsFrom 20 0 "t") 1 10 (.createInvite "admin@example.com" 7),
      .acceptInvite (drawsFrom 30 0 "") 2 "t",
      .on (drawsFrom 40 0 "") 1 10 (.changeRole 30 5)]

/-- The founder removes the second owner, who suspends the founder. -/
def eachOther : Bool → Request
  | false => ⟨drawsFrom 50 0 "", userOf 1 "owner@example.com", System.studio, 30, .remove⟩
  | true => ⟨drawsFrom 60 0 "", userOf 2 "admin@example.com", System.studio, 11, .suspend⟩

/-- The two requests of the owners about each other are within the theorem. -/
theorem always_hasActiveOwner_iff_eachOther : HasActiveOwner 10 twoOwners ∧
    (Always (requestStep eachOther) (fun W => HasActiveOwner 10 W.db) (begin twoOwners)
        (List.replicate 9 false ++ List.replicate 9 true) ↔
      ¬ (OnlyOwners 10 twoOwners 30 11 ∧
        ¬ Always (requestStep eachOther) (fun W => ¬ Overlap W) (begin twoOwners)
          (List.replicate 9 false ++ List.replicate 9 true) ∧
        ∀ b, Committed (run (requestStep eachOther) (begin twoOwners)
          (List.replicate 9 false ++ List.replicate 9 true)) b)) := by
  have hs : HasActiveOwner 10 twoOwners := by decide
  refine ⟨hs, always_hasActiveOwner_iff hs (fun b => by cases b <;> rfl) (fun b n hn => ?_) _⟩
  cases b <;> cases hn

/-- Each request counts both owners before either writes; then the first one commits, then the
second one. -/
theorem owners_remove_each_other : HasActiveOwner 10 twoOwners ∧
    ¬ HasActiveOwner 10 (run (requestStep eachOther) (begin twoOwners)
      [false, false, false, true, true, true, false, false, false, false, true, true, true,
        true]).db := by
  decide

end MarketingSuite.Workspaces.Concurrency
