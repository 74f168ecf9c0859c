import MarketingSuite.Api.Dependencies
import MarketingSuite.Lib.Runs
import MarketingSuite.Repositories.Answers

/-! # The first login

`SupabaseAuthService.get_or_create_user` looks for an active user with the identity of the token and
makes one if there is none. The unique constraints of the table also see the deleted users, and they
see the addresses: a user who was deleted cannot come back, and an address is of the identity that
came first, whoever holds it now. -/

namespace MarketingSuite.Api.FirstLogin

open MarketingSuite.Lib.Programs MarketingSuite.Lib.Tables MarketingSuite.Lib.Runs
open MarketingSuite.Base.Values MarketingSuite.Base.Models MarketingSuite.Base.Schema
open MarketingSuite.Base.Payloads MarketingSuite.Repositories.Base
open MarketingSuite.Repositories.Answers MarketingSuite.Api.Dependencies

/-! ### Logins and deletions -/

/-- One event in the life of the users. -/
inductive Event
  | login (d : Draws) (payload : TokenPayload)
  | delete (userId : Uuid) (now : Time)

/-- `UserRepository.delete`. -/
def deleteUser (userId : Uuid) (now : Time) : Svc Bool :=
  softDelete userId fun u : User => { u with deletedAt := some now }

/-- The call behind an event. -/
def serve (lower : String → String) : Event → Svc Unit
  | .login d payload => do
    let _ ← getOrCreateUser lower d payload
    pure ()
  | .delete userId now => do
    let _ ← deleteUser userId now
    pure ()

/-- The state after an event. -/
def step (lower : String → String) (s : Database) (e : Event) : Database := (serve lower e).settle s

/-- A payload with a well-formed `sub` and an email. -/
structure Verified (payload : TokenPayload) (sub : Uuid) (email : String) : Prop where
  wellFormed : uuidOf payload.sub = .ok sub
  holds : payload.email = some email
  nonempty : email ≠ ""

/-- The address that is stored for an email. -/
def address (lower : String → String) (email : String) : String := strip (lower email)

variable {lower : String → String} {d d' : Draws} {payload : TokenPayload} {sub : Uuid}
  {email : String} {s s' : Database} {user : User}

/-- The user who has signed in with this identity and was not deleted. -/
def Active (s : Database) (sub : Uuid) (user : User) : Prop :=
  user ∈ s.users.rows ∧ user.supabaseUserId = sub ∧ user.deletedAt = none

/-- `user` joins the table, whose constraints allow it. -/
def Inserted (s : Database) (user : User) (s' : Database) : Prop :=
  ∃ U, s.users.insert user = some U ∧ s' = { s with users := U }

/-- The call answers, with the active user or with one that it inserts, and another call with this
payload returns the same user. -/
def Synced (lower : String → String) (s : Database) (d : Draws) (payload : TokenPayload)
    (sub : Uuid) : Prop :=
  Answered (getOrCreateUser lower d payload) s ∧
  ∀ user s', (getOrCreateUser lower d payload).Returns s user s' →
    ((s' = s ∧ Active s sub user) ∨ Inserted s user s') ∧
    ∀ d', (getOrCreateUser lower d' payload).Returns s' user s'

/-- The identity has an active user, or neither it nor the address has ever had a user. -/
def Clear (s : Database) (d : Draws) (sub : Uuid) (address : String) : Prop :=
  (∃ user, Active s sub user) ∨
  ∀ u ∈ s.users.rows, u.supabaseUserId ≠ sub ∧ u.email ≠ address ∧ u.id ≠ d.uuid 1

/-! ### One call -/

theorem isTruthy_of_uuidOf {j : Json} {i : Uuid} (h : uuidOf j = .ok i) : isTruthy j = true := by
  cases j with
  | id j => rfl
  | _ => simp [uuidOf] at h

/-- The user that the lookup found, or a new one. -/
def foundOr (new : User) : Option User → Svc User
  | some user => pure user
  | none => create new

theorem getOrCreateUser_eq {found : Option User} (hv : Verified payload sub email)
    (hget : (getBySupabaseId sub).Returns s found s) :
    getOrCreateUser lower d payload s =
      foundOr (newUser d sub (address lower email)) found s := by
  have htruthy : isTruthy payload.sub = true ∧ truthy payload.email = true := by
    refine ⟨isTruthy_of_uuidOf hv.wellFormed, ?_⟩
    rw [hv.holds]
    simpa [truthy] using hv.nonempty
  have hsub : (Prog.ofExcept (uuidOf payload.sub) : Svc Uuid).Returns s sub s :=
    Prog.returns_ofExcept.mpr ⟨hv.wellFormed, rfl⟩
  unfold getOrCreateUser
  rw [Prog.bind_of_returns (a := ()) (Prog.returns_require.mpr ⟨htruthy, rfl⟩),
    Prog.bind_of_returns hsub, Prog.bind_of_returns hget, hv.holds]
  cases found with
  | none => rfl
  | some u => rfl

/-- The lookup finds the active user, who is the only one with the identity. -/
theorem getBySupabaseId_active (h : Active s sub user) :
    (getBySupabaseId sub).Returns s (some user) s := by
  obtain ⟨hmem, hsub, hdel⟩ := h
  refine returns_selectOne_some hmem (by simp [hsub, hdel]) fun v hv hp => ?_
  simp only [Bool.and_eq_true, decide_eq_true_eq] at hp
  refine s.users.eq_of_not_compatible hv hmem ?_
  simp [Keyed.compatible, hp.1, hsub]

theorem getBySupabaseId_none (h : ¬ ∃ user, Active s sub user) :
    (getBySupabaseId sub).Returns s none s := by
  refine returns_selectOne_none fun v hv hp => h ⟨v, hv, ?_⟩
  simpa [Option.isNone_iff_eq_none] using hp

theorem returns_of_active (hv : Verified payload sub email) (h : Active s sub user) :
    (getOrCreateUser lower d payload).Returns s user s :=
  getOrCreateUser_eq hv (getBySupabaseId_active h)

/-- **The table takes the new user** exactly if no row has its identity, its address or its id. -/
theorem exists_insert_newUser {a : String} : (∃ U, s.users.insert (newUser d sub a) = some U) ↔
    ∀ u ∈ s.users.rows, u.supabaseUserId ≠ sub ∧ u.email ≠ a ∧ u.id ≠ d.uuid 1 := by
  have hapart : ∀ u : User, Apart u (newUser d sub a) ↔
      u.supabaseUserId ≠ sub ∧ u.email ≠ a ∧ u.id ≠ d.uuid 1 := by
    intro u
    have hcomp : Keyed.compatible u (newUser d sub a) =
        (decide (u.email ≠ a) && decide (u.supabaseUserId ≠ sub)) := rfl
    have hkey : Keyed.key u ≠ Keyed.key (newUser d sub a) ↔ u.id ≠ d.uuid 1 := Iff.rfl
    rw [Apart, hcomp, hkey, Bool.and_eq_true, decide_eq_true_eq, decide_eq_true_eq]
    tauto
  constructor
  · rintro ⟨U, hU⟩ u hu
    exact (hapart u).mp (Table.apart_of_insert hU hu)
  · intro h
    exact Table.exists_insert fun u hu => (hapart u).mpr (h u hu)

theorem active_of_insert {a : String} {U : Table User}
    (h : s.users.insert (newUser d sub a) = some U) :
    Active { s with users := U } sub (newUser d sub a) :=
  ⟨Table.mem_insert_self h, rfl, rfl⟩

/-- **Exactly when a login collides with nothing.** -/
theorem synced_iff (hv : Verified payload sub email) :
    Synced lower s d payload sub ↔ Clear s d sub (address lower email) := by
  by_cases hact : ∃ user, Active s sub user
  · obtain ⟨user, hact⟩ := hact
    have hret : (getOrCreateUser lower d payload).Returns s user s :=
      returns_of_active hv hact
    refine iff_of_true ⟨answered_of_returns hret, fun v s' h => ?_⟩ (Or.inl ⟨user, hact⟩)
    obtain ⟨rfl, rfl⟩ := Prog.returns_unique hret h
    exact ⟨Or.inl ⟨rfl, hact⟩, fun d' => returns_of_active hv hact⟩
  · have heq : getOrCreateUser lower d payload s =
        create (newUser d sub (address lower email)) s :=
      getOrCreateUser_eq hv (getBySupabaseId_none hact)
    have hans : Answered (getOrCreateUser lower d payload) s ↔
        ∃ U, s.users.insert (newUser d sub (address lower email)) = some U := by
      have hcreate : Answered (create (newUser d sub (address lower email))) s ↔
          ∃ U, s.users.insert (newUser d sub (address lower email)) = some U := by
        rw [answered_create]
        exact and_iff_right rfl
      rw [← hcreate]
      unfold Answered Prog.Raises
      rw [heq]
    have hclear : Clear s d sub (address lower email) ↔
        ∃ U, s.users.insert (newUser d sub (address lower email)) = some U := by
      rw [exists_insert_newUser]
      exact or_iff_right hact
    rw [hclear, ← hans]
    refine and_iff_left_of_imp fun _ user s' h => ?_
    have hcreate : (create (newUser d sub (address lower email))).Returns s user s' :=
      heq.symm.trans h
    obtain ⟨rfl, -, U, hU, rfl⟩ := returns_create.mp hcreate
    exact ⟨Or.inr ⟨U, hU, rfl⟩, fun d' => returns_of_active hv (active_of_insert hU)⟩

/-! ### Runs -/

/-- A login that gets a verified payload synchronises the user. -/
def Meets (lower : String → String) (s : Database) : Event → Prop
  | .login d payload => ∀ sub email, Verified payload sub email → Synced lower s d payload sub
  | .delete _ _ => True

/-- A login that gets a verified payload finds the way clear. -/
def Allowed (lower : String → String) (s : Database) : Event → Prop
  | .login d payload => ∀ sub email, Verified payload sub email →
      Clear s d sub (address lower email)
  | .delete _ _ => True

/-- **No login of a run collides** exactly if each of them finds the way clear: its identity has an
active user, or neither the identity nor the address has ever had a user. -/
theorem noCollision_iff (lower : String → String) (s : Database) (l : List Event) :
    Along (step lower) (Meets lower) s l ↔ Along (step lower) (Allowed lower) s l := by
  refine along_congr (I := fun _ => True) (fun _ _ _ => trivial) (fun s e _ => ?_) trivial
  cases e with
  | login d payload =>
    exact forall_congr' fun sub => forall_congr' fun email => imp_congr_right fun hv => synced_iff hv
  | delete userId now => exact Iff.rfl

/-- A user signs in, is deleted, and signs in again. -/
def returning : List Event :=
  [.login (drawsFrom 50 0 "") ⟨.id 7, some "ann@example.com"⟩, .delete 51 1,
    .login (drawsFrom 60 2 "") ⟨.id 7, some "ann@example.com"⟩]

/-- The second sign-in ends in an `IntegrityError`: the deleted row still has the identity. -/
theorem returning_collides : ¬ Along (step id) (Meets id) Database.empty returning := by
  rintro ⟨-, -, h, -⟩
  have hans := (h 7 "ann@example.com" ⟨rfl, rfl, by decide⟩).1
  exact Bool.noConfusion (hans .integrity _ rfl)

/-! ### Runs that never collide -/

/-- An event that signs in with this identity and this address, drawing `i` for a new user. -/
def SignsIn (lower : String → String) (e : Event) (sub : Uuid) (a : String) (i : Uuid) : Prop :=
  ∃ d payload email, e = .login d payload ∧ Verified payload sub email ∧ address lower email = a ∧
    d.uuid 1 = i

/-- All users are active, and each was made by one of these logins. -/
def MadeBy (lower : String → String) (past : List Event) (s : Database) : Prop :=
  ∀ u ∈ s.users.rows, u.deletedAt = none ∧ ∃ e ∈ past, SignsIn lower e u.supabaseUserId u.email u.id

theorem verified_of_returns (h : (getOrCreateUser lower d payload).Returns s user s') :
    ∃ sub email, Verified payload sub email := by
  unfold getOrCreateUser at h
  rw [Prog.returns_bind] at h
  obtain ⟨_, t, hreq, h⟩ := h
  obtain ⟨⟨-, hemail⟩, rfl⟩ := Prog.returns_require.mp hreq
  rw [Prog.returns_bind] at h
  obtain ⟨sub, t', hsub, -⟩ := h
  obtain ⟨email, hget⟩ : ∃ email, payload.email = some email := by
    cases hp : payload.email with
    | none => simp [truthy, hp] at hemail
    | some email => exact ⟨email, rfl⟩
  refine ⟨sub, email, (Prog.returns_ofExcept.mp hsub).1, hget, ?_⟩
  simpa [truthy, hget] using hemail

theorem madeBy_login {past : List Event} (h : MadeBy lower past s) :
    MadeBy lower (past ++ [.login d payload]) (step lower s (.login d payload)) := by
  have hold : MadeBy lower (past ++ [.login d payload]) s := fun u hu =>
    ⟨(h u hu).1, (h u hu).2.imp fun e he => ⟨List.mem_append_left _ he.1, he.2⟩⟩
  refine Prog.settle_inv hold fun _ t hret => ?_
  obtain ⟨user, hret, -⟩ := Prog.returns_bind_pure.mp hret
  obtain ⟨sub, email, hv⟩ := verified_of_returns hret
  by_cases hact : ∃ u, Active s sub u
  · obtain ⟨u, hact⟩ := hact
    obtain ⟨-, rfl⟩ := Prog.returns_unique (returns_of_active hv hact) hret
    exact hold
  · have hcreate : (create (newUser d sub (address lower email))).Returns s user t :=
      (getOrCreateUser_eq hv (getBySupabaseId_none hact)).symm.trans hret
    obtain ⟨-, -, U, hU, rfl⟩ := returns_create.mp hcreate
    exact Table.forall_insert hU hold ⟨rfl, _, by simp, d, payload, email, rfl, hv, rfl, rfl⟩

/-- **The run lemma** for users who are not deleted. -/
theorem madeBy_run {past l : List Event} (hl : ∀ e ∈ l, ∃ d payload, e = .login d payload)
    (h : MadeBy lower past s) : MadeBy lower (past ++ l) (run (step lower) s l) := by
  induction l generalizing past s with
  | nil => simpa using h
  | cons e l ih =>
    obtain ⟨d, payload, rfl⟩ := hl e (by simp)
    have hstep : MadeBy lower (past ++ [.login d payload]) (step lower s (.login d payload)) :=
      madeBy_login h
    simpa using ih (fun e he => hl e (by simp [he])) hstep

/-- **Logins that keep apart never collide**: nobody is deleted, an address is of one identity, and
no id is drawn twice. -/
theorem noCollision_of_apart {l : List Event} (hs : s.users.rows = [])
    (hl : ∀ e ∈ l, ∃ d payload, e = .login d payload)
    (haddr : ∀ e ∈ l, ∀ e' ∈ l, ∀ sub sub' a i i', SignsIn lower e sub a i →
      SignsIn lower e' sub' a i' → sub = sub')
    (hid : l.Pairwise fun e e' => ∀ sub sub' a a' i, SignsIn lower e sub a i →
      ¬ SignsIn lower e' sub' a' i) :
    Along (step lower) (Meets lower) s l := by
  refine along_iff.mpr fun pre e hpre => ?_
  have hmem : ∀ e' ∈ pre ++ [e], e' ∈ l := fun e' he' => hpre.subset he'
  have hmade : MadeBy lower pre (run (step lower) s pre) := by
    have hnone : MadeBy lower [] s := fun u hu => by simp [hs] at hu
    simpa using madeBy_run (fun e' he' => hl e' (hmem e' (by simp [he']))) hnone
  obtain ⟨d, payload, rfl⟩ := hl e (hmem e (by simp))
  intro sub email hv
  refine (synced_iff hv).mpr ?_
  by_cases hact : ∃ user, Active (run (step lower) s pre) sub user
  · exact Or.inl hact
  · refine Or.inr fun u hu => ?_
    obtain ⟨hdel, e', he', hsign⟩ := hmade u hu
    have hsub : u.supabaseUserId ≠ sub := fun hsub => hact ⟨u, hu, hsub, hdel⟩
    refine ⟨hsub, fun haddress => hsub ?_, fun hiu => ?_⟩
    · have hlogin : Event.login d payload ∈ l := hmem _ (by simp)
      refine haddr e' (hmem e' (by simp [he'])) _ hlogin _ _ u.email _ (d.uuid 1) hsign ?_
      exact ⟨d, payload, email, rfl, hv, haddress.symm, rfl⟩
    · have hpair := (List.pairwise_append.mp (hid.sublist hpre.sublist)).2.2 e' he' _
        (List.mem_singleton_self _)
      refine hpair _ _ _ _ _ hsign ⟨d, payload, email, rfl, hv, rfl, hiu.symm⟩

end MarketingSuite.Api.FirstLogin
