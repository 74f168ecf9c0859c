import MarketingSuite.Base.Texts
import MarketingSuite.Integrations.Service
import MarketingSuite.Lib.Transactions

/-! # Connecting and disconnecting at the same time

`connect_provider` and `disconnect_provider` statement by statement, any number of them at once. A
connection is looked up in one statement and made in a later one, and no constraint of the table
says that there is one for a workspace and a provider. -/

namespace MarketingSuite.Integrations.Concurrency

open MarketingSuite.Lib.Programs MarketingSuite.Lib.Tables MarketingSuite.Lib.Runs
open MarketingSuite.Lib.Transactions
open MarketingSuite.Base.Values MarketingSuite.Base.Models MarketingSuite.Base.Schema
open MarketingSuite.Base.Texts (CharProperties lower_idem)
open MarketingSuite.Repositories.Base
open MarketingSuite.Sync.Engine (getByWorkspaceAndProvider)
open MarketingSuite.Integrations.Service

/-- What is asked for. -/
inductive Op
  | connect (authCode : String) (codeVerifier : Option String)
  | disconnect
deriving DecidableEq

/-- A request about a workspace and a provider, whose name is in any letter case. -/
structure Request where
  env : Service.Env
  draws : Draws
  workspaceId : Uuid
  provider : String
  op : Op

/-- Where a request is: the statement that comes next, with the objects it holds. `inserted` says
whether the connection is a new one. -/
inductive Phase
  | start
  | lookup (tokens : Tokens)
  | update (existing : IntegrationConnection) (tokens : Tokens)
  | insert (tokens : Tokens)
  | clear (connection : IntegrationConnection)
  | commit (inserted : Bool)

namespace Request

variable (lower : String → String) (r : Request)

/-- The world around the request. -/
def world : Service.Env := { r.env with lower := lower }

/-- What becomes of an exception in the `try` of `connect_provider`. -/
def refused {α : Type} (p : Svc α) : Svc α :=
  p.handle fun e => Prog.raise (refusal (r.world lower).toEnv e)

/-- The call of the service. -/
def serve : Svc Unit :=
  match r.op with
  | .connect authCode codeVerifier => do
    let _ ← connectProvider (r.world lower) r.draws r.workspaceId r.provider authCode codeVerifier
    pure ()
  | .disconnect => do
    let _ ← disconnectProvider (r.world lower).toEnv r.workspaceId r.provider
    pure ()

/-- What a request does first: the exchange with the provider, or the lookup of the connection. -/
def opening : Svc Phase :=
  match r.op with
  | .connect authCode codeVerifier => do
    createConnector (r.world lower).toEnv (lower r.provider)
    let tokens ← r.refused lower
      (Prog.ofExcept (callConnect (r.world lower) (lower r.provider) authCode codeVerifier))
    pure (.lookup tokens)
  | .disconnect => do
    let found ← getByWorkspaceAndProvider r.workspaceId (some (lower r.provider))
    let connection ← orRaise found (.http 404 "Connection not found")
    createConnector (r.world lower).toEnv (lower r.provider)
    pure (.clear connection)

/-- The statements of the two operations. -/
def next : Phase → Statement Database Exc Phase
  | .start => .ask (r.opening lower)
  | .lookup tokens => .ask do
    let existing ← getByWorkspaceAndProvider r.workspaceId (some (lower r.provider))
    match existing with
    | some c => pure (.update c tokens)
    | none => pure (.insert tokens)
  | .update c tokens => .write (r.refused lower do
      let _ ← Repositories.Base.update c.id (tokens.write (r.world lower).toEnv)
      pure ()) (.commit false)
  | .insert tokens => .write (r.refused lower do
      let _ ← create (tokens.write (r.world lower).toEnv
        (blank r.draws r.workspaceId (lower r.provider)))
      pure ()) (.commit true)
  | .clear c => .write (do
      let _ ← Repositories.Base.update c.id cleared
      pure ()) (.commit false)
  | .commit _ => .commit

/-! ### A request alone -/

variable {lower r}

theorem frames_getByWorkspaceAndProvider {w : Uuid} {key : Option String} :
    (getByWorkspaceAndProvider w key).Frames (id : Database → _) :=
  Prog.frames_bind (Prog.frames_gets _) fun _ => Prog.frames_pure _

theorem frames_refused {α : Type} {p : Svc α} (h : p.Frames (id : Database → _)) :
    (r.refused lower p).Frames (id : Database → _) := by
  intro s
  have hs := h s
  unfold refused Prog.handle
  rcases hp : p s with ⟨e | a, t⟩
  · rw [hp] at hs; exact hs
  · rw [hp] at hs; exact hs

theorem frames_opening : (r.opening lower).Frames (id : Database → _) := by
  unfold opening
  rcases r.op with ⟨authCode, codeVerifier⟩ | _
  · exact Prog.frames_bind (Prog.frames_require _ _) fun _ =>
      Prog.frames_bind (frames_refused (Prog.frames_ofExcept _)) fun _ => Prog.frames_pure _
  · exact Prog.frames_bind frames_getByWorkspaceAndProvider fun _ =>
      Prog.frames_bind (frames_orRaise _ _) fun _ =>
        Prog.frames_bind (Prog.frames_require _ _) fun _ => Prog.frames_pure _

theorem refused_bind {α β : Type} (p : Svc α) (f : α → Svc β) :
    r.refused lower (p >>= f) = r.refused lower p >>= fun a => r.refused lower (f a) := by
  funext s
  unfold refused Prog.handle
  simp only [bind]
  rcases p s with ⟨e | a, t⟩ <;> rfl

theorem refused_ask {w : Uuid} {key : Option String} :
    r.refused lower (getByWorkspaceAndProvider w key) = getByWorkspaceAndProvider w key := rfl

theorem frames_lookup {tokens : Tokens} : (do
    let existing ← getByWorkspaceAndProvider r.workspaceId (some (lower r.provider))
    match existing with
    | some c => pure (.update c tokens)
    | none => pure (.insert tokens) : Svc Phase).Frames id := by
  refine Prog.frames_bind frames_getByWorkspaceAndProvider fun existing => ?_
  rcases existing with _ | c
  · exact Prog.frames_pure _
  · exact Prog.frames_pure _

theorem solo_lookup (n : ℕ) (tokens : Tokens) :
    (do let _ ← solo (r.next lower) (n + 2) (.lookup tokens); pure () : Svc Unit) =
      r.refused lower (do
        let _ ← saveConnection (r.world lower).toEnv r.draws r.workspaceId (lower r.provider) tokens
        pure ()) := by
  have hdone : ∀ inserted, solo (r.next lower) n (.commit inserted) =
      (pure (.commit inserted) : Svc Phase) := fun inserted => solo_commit n rfl
  rw [solo_ask _ rfl frames_lookup, saveConnection, Prog.bind_assoc, Prog.bind_assoc, Prog.bind_assoc,
    refused_bind, refused_ask]
  congr 1; funext existing
  rcases existing with _ | c
  · have hinsert : solo (r.next lower) (n + 1) (.insert tokens) = (do
        r.refused lower (do
          let _ ← create (tokens.write (r.world lower).toEnv
            (blank r.draws r.workspaceId (lower r.provider)))
          pure ())
        solo (r.next lower) n (.commit true) : Svc Phase) := solo_write n rfl
    simp only [Prog.pure_bind, hinsert, hdone, Prog.bind_assoc]
    exact Prog.bind_pure _
  · have hupdate : solo (r.next lower) (n + 1) (.update c tokens) = (do
        r.refused lower (do
          let _ ← Repositories.Base.update c.id (tokens.write (r.world lower).toEnv)
          pure ())
        solo (r.next lower) n (.commit false) : Svc Phase) := solo_write n rfl
    simp only [Prog.pure_bind, hupdate, hdone, Prog.bind_assoc]
    exact Prog.bind_pure _

theorem solo_clear (n : ℕ) (c : IntegrationConnection) :
    (do let _ ← solo (r.next lower) (n + 1) (.clear c); pure () : Svc Unit) =
      (do let _ ← Repositories.Base.update c.id cleared; pure () : Svc Unit) := by
  have hclear : solo (r.next lower) (n + 1) (.clear c) = (do
      (do let _ ← Repositories.Base.update c.id cleared; pure ())
      solo (r.next lower) n (.commit false) : Svc Phase) := solo_write n rfl
  have hdone : solo (r.next lower) n (.commit false) = (pure (.commit false) : Svc Phase) :=
    solo_commit n rfl
  simp only [hclear, hdone, Prog.bind_assoc, Prog.pure_bind]

/-- **The statements are the service**: all of them, one after another, do what the call does. -/
theorem serve_eq_solo :
    r.serve lower = (do let _ ← solo (r.next lower) 3 .start; pure () : Svc Unit) := by
  rw [solo_ask _ rfl frames_opening, Prog.bind_assoc]
  unfold serve opening
  rcases r.op with ⟨authCode, codeVerifier⟩ | _
  · simp only [connectProvider, Prog.bind_assoc, Prog.pure_bind, solo_lookup 0]
    congr 1; funext _
    have htry : ∀ p : Svc IntegrationConnection,
        (do let _ ← r.refused lower p; pure () : Svc Unit) =
          r.refused lower (do let _ ← p; pure ()) := fun p => (refused_bind p fun _ => pure ()).symm
    refine (htry _).trans ?_
    rw [Prog.bind_assoc]
    exact refused_bind _ _
  · simp only [disconnectProvider, Prog.bind_assoc, Prog.pure_bind, solo_clear 1]
    rfl

theorem solo_returns_commit {s s' : Database} {p : Phase}
    (h : (solo (r.next lower) 3 .start).Returns s p s') : ∃ inserted, p = .commit inserted := by
  have hdone : ∀ {n inserted t p t'}, (solo (r.next lower) n (.commit inserted)).Returns t p t' →
      p = .commit inserted := by
    intro n inserted t p t' h
    have hcommit : solo (r.next lower) n (.commit inserted) =
        (pure (.commit inserted) : Svc Phase) := solo_commit n rfl
    rw [hcommit] at h
    exact (Prog.returns_pure.mp h).1
  rw [solo_ask _ rfl frames_opening] at h
  obtain ⟨p₁, t, hopen, h⟩ := Prog.returns_bind.mp h
  unfold opening at hopen
  rcases hop : r.op with ⟨authCode, codeVerifier⟩ | _
  · rw [hop] at hopen
    obtain ⟨_, _, -, hopen⟩ := Prog.returns_bind.mp hopen
    obtain ⟨tokens, _, rfl⟩ := Prog.returns_bind_pure.mp hopen
    rw [solo_ask _ rfl frames_lookup] at h
    obtain ⟨p₂, t₂, hlook, h⟩ := Prog.returns_bind.mp h
    obtain ⟨existing, t₃, -, hlook⟩ := Prog.returns_bind.mp hlook
    rcases existing with _ | c
    · obtain ⟨rfl, rfl⟩ := Prog.returns_pure.mp hlook
      obtain ⟨_, _, -, h⟩ := Prog.returns_bind.mp h
      exact ⟨true, hdone h⟩
    · obtain ⟨rfl, rfl⟩ := Prog.returns_pure.mp hlook
      obtain ⟨_, _, -, h⟩ := Prog.returns_bind.mp h
      exact ⟨false, hdone h⟩
  · rw [hop] at hopen
    obtain ⟨_, _, -, hopen⟩ := Prog.returns_bind.mp hopen
    obtain ⟨c, _, -, hopen⟩ := Prog.returns_bind.mp hopen
    obtain ⟨_, _, rfl⟩ := Prog.returns_bind_pure.mp hopen
    obtain ⟨_, _, -, h⟩ := Prog.returns_bind.mp h
    exact ⟨false, hdone h⟩

/-! ### What a statement does -/

theorem read_cases {p p' : Phase} {f : Database → Except Exc Phase} {s : Database}
    (hn : r.next lower p = .read f) (hf : f s = .ok p') :
    (p = .start ∧ ((∃ tokens, p' = .lookup tokens) ∨ ∃ c, p' = .clear c)) ∨
      ∃ tokens, p = .lookup tokens ∧ ((∃ c, p' = .update c tokens) ∨ p' = .insert tokens ∧
        (getByWorkspaceAndProvider r.workspaceId (some (lower r.provider))).Returns s none s) := by
  cases p with
  | start =>
    cases hn
    have hret := Prog.returns_of_fst hf
    unfold opening at hret
    rcases hop : r.op with ⟨authCode, codeVerifier⟩ | _
    · simp only [hop] at hret
      obtain ⟨_, _, -, hret⟩ := Prog.returns_bind.mp hret
      obtain ⟨tokens, -, hp'⟩ := Prog.returns_bind_pure.mp hret
      exact Or.inl ⟨rfl, Or.inl ⟨tokens, hp'⟩⟩
    · simp only [hop] at hret
      obtain ⟨_, _, -, hret⟩ := Prog.returns_bind.mp hret
      obtain ⟨c, _, -, hret⟩ := Prog.returns_bind.mp hret
      obtain ⟨_, -, hp'⟩ := Prog.returns_bind_pure.mp hret
      exact Or.inl ⟨rfl, Or.inr ⟨c, hp'⟩⟩
  | lookup tokens =>
    cases hn
    obtain ⟨existing, t, hlook, hret⟩ := Prog.returns_bind.mp (Prog.returns_of_fst hf)
    have ht := (getByWorkspaceAndProvider_spec hlook).1
    rcases existing with _ | c
    · obtain ⟨hp', -⟩ := Prog.returns_pure.mp hret
      rw [ht] at hlook
      exact Or.inr ⟨tokens, rfl, Or.inr ⟨hp', hlook⟩⟩
    · obtain ⟨hp', -⟩ := Prog.returns_pure.mp hret
      exact Or.inr ⟨tokens, rfl, Or.inl ⟨c, hp'⟩⟩
  | _ => cases hn

theorem returns_refused {α : Type} {p : Svc α} {s s' : Database} {a : α}
    (h : (r.refused lower p).Returns s a s') : p.Returns s a s' := by
  rcases Prog.returns_handle.mp h with h | ⟨e, t, -, h⟩
  · exact h
  · exact (Prog.returns_raise.mp h).elim

/-- What a write does: it changes a row, whose workspace and provider it keeps, or it makes one. -/
theorem write_cases {p p' : Phase} {q : Svc Unit} (hn : r.next lower p = .write q p') :
    (p' = .commit false ∧ ((∃ c tokens, p = .update c tokens) ∨ ∃ c, p = .clear c) ∧
      ∃ (k : Uuid) (f : IntegrationConnection → IntegrationConnection),
        (∀ c, (f c).workspaceId = c.workspaceId) ∧ (∀ c, (f c).provider = c.provider) ∧
        ∀ t t', q.Returns t () t' → ∃ a, (Repositories.Base.update k f).Returns t a t') ∨
      ∃ tokens, p = .insert tokens ∧ p' = .commit true ∧
        ∀ t t', q.Returns t () t' → ∃ c a : IntegrationConnection, c.workspaceId = r.workspaceId ∧
          c.provider = lower r.provider ∧ (create c).Returns t a t' := by
  cases p with
  | update c tokens =>
    cases hn
    refine Or.inl ⟨rfl, Or.inl ⟨c, tokens, rfl⟩, c.id, tokens.write (r.world lower).toEnv,
      fun _ => rfl, fun _ => rfl, fun t t' h => ?_⟩
    obtain ⟨a, hu, -⟩ := Prog.returns_bind_pure.mp (returns_refused h)
    exact ⟨a, hu⟩
  | clear c =>
    cases hn
    refine Or.inl ⟨rfl, Or.inr ⟨c, rfl⟩, c.id, cleared, fun _ => rfl, fun _ => rfl,
      fun t t' h => ?_⟩
    obtain ⟨a, hu, -⟩ := Prog.returns_bind_pure.mp h
    exact ⟨a, hu⟩
  | insert tokens =>
    cases hn
    refine Or.inr ⟨tokens, rfl, rfl, fun t t' h => ?_⟩
    obtain ⟨a, hc, -⟩ := Prog.returns_bind_pure.mp (returns_refused h)
    exact ⟨_, a, rfl, rfl, hc⟩
  | _ => cases hn

theorem commit_of_next {p : Phase} (hn : r.next lower p = .commit) :
    ∃ inserted, p = .commit inserted := by
  cases p with
  | commit inserted => exact ⟨inserted, rfl⟩
  | _ => cases hn

end Request

/-! ### The rows of the table -/

section Keys

variable (u : CharProperties)

/-- What a row is stored under: the workspace, and the lower case name of the provider. -/
def rowKey (c : IntegrationConnection) : Uuid × String :=
  (c.workspaceId, Base.Texts.lower u c.provider)

/-- The keys of the rows. -/
def keys (s : Database) : List (Uuid × String) := s.integrationConnections.rows.map (rowKey u)

/-- **One connection for a workspace and a provider**, whose name is in any letter case. -/
def Unique (s : Database) : Prop :=
  ∀ c ∈ s.integrationConnections.rows, ∀ q ∈ s.integrationConnections.rows,
    c.workspaceId = q.workspaceId →
      Base.Texts.lower u c.provider = Base.Texts.lower u q.provider → c = q

/-- The names are stored in lower case. -/
def LowerCased (s : Database) : Prop :=
  ∀ c ∈ s.integrationConnections.rows, Base.Texts.lower u c.provider = c.provider

/-- What a request is about. -/
def Request.key (r : Request) : Uuid × String := (r.workspaceId, Base.Texts.lower u r.provider)

theorem unique_iff_nodup (s : Database) : Unique u s ↔ (keys u s).Nodup := by
  have hinj := List.nodup_map_iff_inj_on (f := rowKey u) s.integrationConnections.nodup
  unfold keys
  rw [hinj]
  constructor
  · intro h c hc q hq hkey
    obtain ⟨hw, hp⟩ := Prod.mk.inj hkey
    exact h c hc q hq hw hp
  · intro h c hc q hq hw hp
    exact h c hc q hq (Prod.ext hw hp)

/-- What a write of connections does to the keys. -/
def Writes (add : List (Uuid × String)) (s s' : Database) : Prop :=
  keys u s' = keys u s ++ add ∧ (LowerCased u s → LowerCased u s')

/-- A change of a row that keeps its workspace and its provider keeps the keys. -/
theorem writes_of_update {i : Uuid} {f : IntegrationConnection → IntegrationConnection}
    {a : IntegrationConnection} {s s' : Database}
    (hw : ∀ c, (f c).workspaceId = c.workspaceId) (hp : ∀ c, (f c).provider = c.provider)
    (h : (update i f).Returns s a s') : Writes u [] s s' := by
  obtain ⟨-, -, -, -, -, T, hT, rfl⟩ := returns_update.mp h
  have hT : s.integrationConnections.modify i f = some T := hT
  have hrows : T.rows = s.integrationConnections.rows.map fun c => if c.id = i then f c else c :=
    Table.modify_eq_some.mp hT
  have hsame : ∀ c : IntegrationConnection, rowKey u (if c.id = i then f c else c) = rowKey u c := by
    intro c
    split_ifs
    · unfold rowKey; rw [hw, hp]
    · rfl
  constructor
  · change T.rows.map (rowKey u) = s.integrationConnections.rows.map (rowKey u) ++ []
    rw [hrows, List.map_map, List.append_nil]
    exact List.map_congr_left fun c _ => hsame c
  · intro hlow c hc
    have hc : c ∈ T.rows := hc
    rw [hrows, List.mem_map] at hc
    obtain ⟨q, hq, rfl⟩ := hc
    split_ifs
    · rw [hp]; exact hlow q hq
    · exact hlow q hq

theorem writes_of_create {c a : IntegrationConnection} {s s' : Database}
    (hc : Base.Texts.lower u c.provider = c.provider) (h : (create c).Returns s a s') :
    Writes u [rowKey u c] s s' := by
  obtain ⟨-, -, T, hT, rfl⟩ := returns_create.mp h
  have hT : s.integrationConnections.insert c = some T := hT
  have hrows : T.rows = s.integrationConnections.rows ++ [c] := Table.insert_eq_some.mp hT
  constructor
  · change T.rows.map (rowKey u) = s.integrationConnections.rows.map (rowKey u) ++ [rowKey u c]
    rw [hrows, List.map_append]
    rfl
  · exact fun hlow => Table.forall_insert hT hlow hc

/-- Where the names are in lower case, the lookup finds nothing only if the key is not there. -/
theorem not_mem_keys {r : Request} {s s' : Database} (hlow : LowerCased u s)
    (h : (getByWorkspaceAndProvider r.workspaceId
      (some (Base.Texts.lower u r.provider))).Returns s none s') : r.key u ∉ keys u s := by
  intro hmem
  obtain ⟨c, hc, hkey⟩ := List.mem_map.mp hmem
  obtain ⟨hw, hp⟩ := Prod.mk.inj hkey
  rw [hlow c hc] at hp
  exact (getByWorkspaceAndProvider_spec h).2.2 rfl c hc hw (congrArg some hp)

end Keys

/-! ### Any number of requests -/

section Requests

variable {ι : Type} [DecidableEq ι]

/-- The committed database and the transactions of the requests. -/
abbrev Requests (ι : Type) : Type := Lib.Transactions.World Database Exc Phase ι

variable (u : CharProperties) (r : ι → Request)

/-- The next statement of one of the requests. -/
abbrev requestStep : Requests ι → ι → Requests ι :=
  step fun i => (r i).next (Base.Texts.lower u)

/-- All requests begin. -/
abbrev begin (s : Database) : Requests ι := begun (fun _ => .start) s

/-- A request that no statement of another one interrupts is the call of the service. -/
theorem run_one (i : ι) (s : Database) :
    (run (requestStep u r) (begin s) (List.replicate 4 i)).db =
      ((r i).serve (Base.Texts.lower u)).settle s := by
  have hc : ∀ p v, (solo ((r i).next (Base.Texts.lower u)) 3 .start).Returns s p v →
      (r i).next (Base.Texts.lower u) p = .commit := by
    intro p v h
    obtain ⟨inserted, rfl⟩ := Request.solo_returns_commit h
    rfl
  have halone : (run (requestStep u r) (begin s) (List.replicate 4 i)).db =
      (solo ((r i).next (Base.Texts.lower u)) 3 .start).settle s :=
    run_alone (n := 3) (fun _ => Phase.start) s hc
  rw [halone, Request.serve_eq_solo]
  rcases (solo ((r i).next (Base.Texts.lower u)) 3 .start).returns_or_raises s with
    ⟨p, v, h⟩ | ⟨e, v, h⟩
  · rw [Prog.settle_of_returns h, Prog.settle_of_returns (Prog.returns_bind_pure.mpr ⟨p, h, rfl⟩)]
  · rw [Prog.settle_of_raises h, Prog.settle_of_raises (Prog.raises_bind.mpr (Or.inl h))]

/-- The phases of a request that found no connection. -/
def Adding : Phase → Prop
  | .insert _ | .commit true => True
  | _ => False

/-- The request found no connection, and has not committed. -/
def Pending (W : Requests ι) (i : ι) : Prop :=
  ∃ p, (W.sessions i).status = .running p ∧ Adding p

/-- The request has committed a new connection. -/
def Inserted (W : Requests ι) (i : ι) : Prop := (W.sessions i).status = .committed (.commit true)

/-- The request has committed. -/
def Committed (W : Requests ι) (i : ι) : Prop := ∃ p, (W.sessions i).status = .committed p

/-- What a request has written in a phase. -/
def Wrote (key : Uuid × String) (q : Svc Unit) : Phase → Prop
  | .commit true => ∀ t t', q.Returns t () t' → Writes u [key] t t'
  | .commit false => ∀ t t', q.Returns t () t' → Writes u [] t t'
  | _ => q = pure ()

/-- The transaction of a request. -/
structure Sound (s : Database) (key : Uuid × String) (t : Session Database Exc Phase) : Prop where
  wrote : ∀ p, t.status = .running p → Wrote u key t.writes p
  absent : ∀ p, t.status = .running p ∨ t.status = .committed p → Adding p → key ∉ keys u s

/-- **The invariant**: the keys are those of the start and those of the requests that have committed
a new connection, of which one key has one at most exactly if the keys are different. -/
structure Inv (s : Database) (W : Requests ι) : Prop where
  lowerCased : LowerCased u W.db
  mem_keys : ∀ k, k ∈ keys u W.db ↔ k ∈ keys u s ∨ ∃ i, Inserted W i ∧ (r i).key u = k
  nodup : (keys u W.db).Nodup ↔
    ∀ i j, Inserted W i → Inserted W j → (r i).key u = (r j).key u → i = j
  sessions : ∀ i, Sound u s ((r i).key u) (W.sessions i)

variable {u} {r} {s : Database} {W : Requests ι} {i j : ι}

omit [DecidableEq ι] in
theorem inv_begin (hs : LowerCased u s) (hu : Unique u s) : Inv u r s (begin s) where
  lowerCased := hs
  mem_keys k := by simp [begun, Inserted, Session.fresh]
  nodup := by simp [begun, Inserted, Session.fresh, (unique_iff_nodup u s).mp hu]
  sessions i := by
    refine ⟨fun p hp => ?_, fun p hp hadd => ?_⟩
    · obtain rfl : Phase.start = p := Status.running.inj hp
      rfl
    · rcases hp with hp | hp
      · obtain rfl : Phase.start = p := Status.running.inj hp
        exact hadd.elim
      · cases hp

omit [DecidableEq ι] in
/-- The keys of some indices and one more are different exactly if they tell those indices apart. -/
theorem nodup_concat_iff {κ : Type} {l : List κ} {f : ι → κ} {P Q : ι → Prop}
    (hl : l.Nodup ↔ ∀ j k, P j → P k → f j = f k → j = k)
    (hmem : f i ∈ l ↔ ∃ j, P j ∧ f j = f i) (hnot : ¬ P i) (hQ : ∀ j, Q j ↔ P j ∨ j = i) :
    (l ++ [f i]).Nodup ↔ ∀ j k, Q j → Q k → f j = f k → j = k := by
  rw [List.nodup_append]
  simp only [List.nodup_cons, List.not_mem_nil, not_false_eq_true, List.nodup_nil, and_self,
    true_and, List.mem_singleton, forall_eq]
  rw [hl]
  constructor
  · rintro ⟨hone, hdis⟩ j k hj hk hkey
    rcases (hQ j).mp hj with hj' | rfl
    · rcases (hQ k).mp hk with hk' | rfl
      · exact hone j k hj' hk' hkey
      · exact absurd rfl (hdis _ (hmem.mpr ⟨j, hj', hkey⟩))
    · rcases (hQ k).mp hk with hk' | rfl
      · exact absurd rfl (hdis _ (hmem.mpr ⟨k, hk', hkey.symm⟩))
      · rfl
  · intro hone
    refine ⟨fun j k hj hk hkey => hone j k ((hQ j).mpr (Or.inl hj)) ((hQ k).mpr (Or.inl hk)) hkey, ?_⟩
    rintro k hk rfl
    obtain ⟨j, hj, hkey⟩ := hmem.mp hk
    have hji := hone j i ((hQ j).mpr (Or.inl hj)) ((hQ i).mpr (Or.inr rfl)) hkey
    exact hnot (hji ▸ hj)

theorem sound_update (hI : Inv u r s W) {t : Session Database Exc Phase} {db : Database}
    (ht : Sound u s ((r i).key u) t) (j : ι) :
    Sound u s ((r j).key u) ((⟨db, Function.update W.sessions i t⟩ : Requests ι).sessions j) := by
  by_cases hj : j = i
  · subst hj; simpa using ht
  · simpa [hj] using hI.sessions j

theorem inserted_update_of_ne {t : Session Database Exc Phase} {db : Database} (h : j ≠ i) :
    Inserted ⟨db, Function.update W.sessions i t⟩ j ↔ Inserted W j := by simp [Inserted, h]

theorem inserted_update_self {t : Session Database Exc Phase} {db : Database} :
    Inserted ⟨db, Function.update W.sessions i t⟩ i ↔ t.status = .committed (.commit true) := by
  simp [Inserted]

theorem inv_of_kept (hI : Inv u r s W) {t : Session Database Exc Phase} {db : Database}
    (ht : Sound u s ((r i).key u) t) (hw : Writes u [] W.db db)
    (hiff : t.status = .committed (.commit true) ↔ Inserted W i) :
    Inv u r s ⟨db, Function.update W.sessions i t⟩ := by
  obtain ⟨hkeys, hlow⟩ := hw
  have hall : ∀ j, Inserted ⟨db, Function.update W.sessions i t⟩ j ↔ Inserted W j := by
    intro j
    by_cases hj : j = i
    · subst hj; exact inserted_update_self.trans hiff
    · exact inserted_update_of_ne hj
  rw [List.append_nil] at hkeys
  refine ⟨hlow hI.lowerCased, fun k => ?_, ?_, sound_update hI ht⟩
  · simp only [hall]
    rw [hkeys]
    exact hI.mem_keys k
  · simp only [hall]
    rw [hkeys]
    exact hI.nodup

theorem inv_of_inserted (hI : Inv u r s W) {t : Session Database Exc Phase} {db : Database}
    (ht : Sound u s ((r i).key u) t) (hw : Writes u [(r i).key u] W.db db)
    (hcommit : t.status = .committed (.commit true)) (hnot : ¬ Inserted W i) :
    Inv u r s ⟨db, Function.update W.sessions i t⟩ := by
  obtain ⟨hkeys, hlow⟩ := hw
  have hall : ∀ j, Inserted ⟨db, Function.update W.sessions i t⟩ j ↔ Inserted W j ∨ j = i := by
    intro j
    by_cases hj : j = i
    · subst hj; simp [inserted_update_self, hcommit]
    · simp [inserted_update_of_ne hj, hj]
  have habsent : (r i).key u ∉ keys u s := ht.absent _ (Or.inr hcommit) trivial
  refine ⟨hlow hI.lowerCased, fun k => ?_, ?_, sound_update hI ht⟩
  · rw [hkeys, List.mem_append, List.mem_singleton, hI.mem_keys k, or_assoc]
    refine or_congr_right ⟨?_, ?_⟩
    · rintro (⟨j, hj, rfl⟩ | rfl)
      · exact ⟨j, (hall j).mpr (Or.inl hj), rfl⟩
      · exact ⟨i, (hall i).mpr (Or.inr rfl), rfl⟩
    · rintro ⟨j, hj, rfl⟩
      rcases (hall j).mp hj with hj | rfl
      · exact Or.inl ⟨j, hj, rfl⟩
      · exact Or.inr rfl
  · rw [hkeys]
    exact nodup_concat_iff (f := fun j => (r j).key u) hI.nodup
      ((hI.mem_keys _).trans (or_iff_right habsent)) hnot hall

/-! ### One statement -/

omit [DecidableEq ι] in
/-- **A read writes nothing**, and finds no connection only where none is. -/
theorem sound_read (hI : Inv u r s W) {p p' : Phase} {f : Database → Except Exc Phase}
    (hn : (r i).next (Base.Texts.lower u) p = .read f) (hf : f W.db = .ok p') :
    (∀ q, q = pure () → Wrote u ((r i).key u) q p') ∧
      (Adding p' → ¬ Adding p ∧ (r i).key u ∉ keys u W.db) := by
  rcases Request.read_cases hn hf with ⟨rfl, ⟨tokens, rfl⟩ | ⟨c, rfl⟩⟩ |
    ⟨tokens, rfl, ⟨c, rfl⟩ | ⟨rfl, hlook⟩⟩
  · exact ⟨fun q hq => hq, fun hadd => hadd.elim⟩
  · exact ⟨fun q hq => hq, fun hadd => hadd.elim⟩
  · exact ⟨fun q hq => hq, fun hadd => hadd.elim⟩
  · exact ⟨fun q hq => hq, fun _ => ⟨fun h => h, not_mem_keys u hI.lowerCased hlook⟩⟩

/-- **A write adds the key** of the request, if it found no connection, and no other. -/
theorem sound_write {r : Request} {p p' : Phase} {q q' : Svc Unit}
    (hn : r.next (Base.Texts.lower u) p = .write q p') (hwrote : Wrote u (r.key u) q' p) :
    Wrote u (r.key u) (q' >>= fun _ => q) p' ∧ (Adding p' → Adding p) := by
  rcases Request.write_cases hn with ⟨rfl, hfirst, k, f, hw, hp, hq⟩ | ⟨tokens, rfl, rfl, hq⟩
  · have hpure : q' = pure () := by
      rcases hfirst with ⟨c, tokens, rfl⟩ | ⟨c, rfl⟩
      · exact hwrote
      · exact hwrote
    refine ⟨fun t t' h => ?_, fun h => h.elim⟩
    rw [hpure, Prog.pure_bind] at h
    obtain ⟨a, hu⟩ := hq t t' h
    exact writes_of_update u hw hp hu
  · have hpure : q' = pure () := hwrote
    refine ⟨fun t t' h => ?_, fun _ => trivial⟩
    rw [hpure, Prog.pure_bind] at h
    obtain ⟨c, a, hcw, hcp, hc⟩ := hq t t' h
    have hlow : Base.Texts.lower u c.provider = c.provider := by rw [hcp, lower_idem]
    have hkey : rowKey u c = r.key u := Prod.ext hcw (hlow.trans hcp)
    rw [← hkey]
    exact writes_of_create u hlow hc

theorem writes_eq_pure {lower : String → String} {r : Request} {key : Uuid × String} {p : Phase}
    {f : Database → Except Exc Phase} {q : Svc Unit} (hn : r.next lower p = .read f)
    (hwrote : Wrote u key q p) : q = pure () := by
  cases p with
  | start => exact hwrote
  | lookup tokens => exact hwrote
  | _ => cases hn

theorem effect_requestStep (W : Requests ι) (i : ι) :
    ∃ t db, Session.Effect ((r i).next (Base.Texts.lower u)) W.db (W.sessions i) (t, db) ∧
      requestStep u r W i = ⟨db, Function.update W.sessions i t⟩ :=
  exists_effect (fun i => (r i).next (Base.Texts.lower u)) W i

/-- **One statement of any request** keeps the invariant. -/
theorem inv_step (hI : Inv u r s W) (i : ι) : Inv u r s (requestStep u r W i) := by
  have hsound := hI.sessions i
  obtain ⟨t, db, heffect, hstep⟩ := effect_requestStep (u := u) (r := r) W i
  have hnot : ∀ {p}, (W.sessions i).status = .running p → ¬ Inserted W i := by
    intro p hp he
    unfold Inserted at he
    rw [hp] at he; cases he
  have hsame : Writes u [] W.db W.db := ⟨(List.append_nil _).symm, fun h => h⟩
  rw [hstep]
  cases heffect with
  | stopped h => exact inv_of_kept hI hsound hsame Iff.rfl
  | @read p p' f hp hn hf =>
    have hwrites := writes_eq_pure hn (hsound.wrote p hp)
    have hview := Session.view_of_unwritten hwrites W.db
    rw [hview] at hf
    obtain ⟨hwrote, habsent⟩ := sound_read hI hn hf
    refine inv_of_kept hI ⟨fun q hq => ?_, fun q hq hadd => ?_⟩ hsame
      (iff_of_false (fun hq => by cases hq) (hnot hp))
    · obtain rfl : p' = q := Status.running.inj hq
      exact hwrote _ hwrites
    · rcases hq with hq | hq
      · obtain rfl : p' = q := Status.running.inj hq
        exact fun hmem => (habsent hadd).2 ((hI.mem_keys _).mpr (Or.inl hmem))
      · cases hq
  | @write p p' q v hp hn hq =>
    obtain ⟨hwrote, hadds⟩ := sound_write hn (hsound.wrote p hp)
    refine inv_of_kept hI ⟨fun q' hq' => ?_, fun q' hq' hadd => ?_⟩ hsame
      (iff_of_false (fun hq => by cases hq) (hnot hp))
    · obtain rfl : p' = q' := Status.running.inj hq'
      exact hwrote
    · rcases hq' with hq' | hq'
      · obtain rfl : p' = q' := Status.running.inj hq'
        exact hsound.absent p (Or.inl hp) (hadds hadd)
      · cases hq'
  | @committed p db' hp hn hwr =>
    obtain ⟨inserted, rfl⟩ := Request.commit_of_next hn
    have hwrote := hsound.wrote _ hp
    have ht : Sound u s ((r i).key u)
        { W.sessions i with status := .committed (.commit inserted) } := by
      refine ⟨fun q hq => (by cases hq), fun q hq hadd => ?_⟩
      rcases hq with hq | hq
      · cases hq
      · obtain rfl : Phase.commit inserted = q := Status.committed.inj hq
        exact hsound.absent _ (Or.inl hp) hadd
    cases inserted with
    | true => exact inv_of_inserted hI ht (hwrote _ _ hwr) rfl (hnot hp)
    | false =>
      exact inv_of_kept hI ht (hwrote _ _ hwr)
        (iff_of_false (fun hq => by cases hq) (hnot hp))
  | @failed p e hp =>
    refine inv_of_kept hI ⟨fun q hq => (by cases hq), fun q hq hadd => ?_⟩ hsame
      (iff_of_false (fun hq => by cases hq) (hnot hp))
    rcases hq with hq | hq <;> cases hq

/-! ### When there is more than one connection -/

/-- The request found no connection, or has committed a new one. -/
def Past (W : Requests ι) (i : ι) : Prop := Pending W i ∨ Inserted W i

/-- Of two requests, one has not looked yet when the other one has committed a new connection. -/
def OneByOne (W : Requests ι) (i j : ι) : Prop :=
  (Inserted W i → ¬ Past W j) ∧ (Inserted W j → ¬ Past W i)

theorem inserted_step (h : Inserted (requestStep u r W i) i) : Past W i := by
  obtain ⟨t, db, heffect, hstep⟩ := effect_requestStep (u := u) (r := r) W i
  simp only [Inserted, hstep, Function.update_self] at h
  cases heffect with
  | stopped _ => exact Or.inr h
  | read hp hn hf => cases h
  | write hp hn hq => cases h
  | committed hp hn hq =>
    obtain rfl := Status.committed.inj h
    exact Or.inl ⟨_, hp, trivial⟩
  | failed hp => cases h

theorem pending_step (hI : Inv u r s W) (h : Pending (requestStep u r W i) i) :
    Pending W i ∨ (r i).key u ∉ keys u W.db := by
  obtain ⟨t, db, heffect, hstep⟩ := effect_requestStep (u := u) (r := r) W i
  obtain ⟨p', hp', hadd⟩ := h
  simp only [hstep, Function.update_self] at hp'
  cases heffect with
  | stopped _ => exact Or.inl ⟨p', hp', hadd⟩
  | @read p q f hp hn hf =>
    obtain rfl : q = p' := Status.running.inj hp'
    have hwrites := writes_eq_pure hn ((hI.sessions i).wrote p hp)
    have hview := Session.view_of_unwritten hwrites W.db
    rw [hview] at hf
    exact Or.inr ((sound_read hI hn hf).2 hadd).2
  | @write p q _ _ hp hn hq =>
    obtain rfl : q = p' := Status.running.inj hp'
    exact Or.inl ⟨p, hp, (sound_write hn ((hI.sessions i).wrote p hp)).2 hadd⟩
  | committed hp hn hq => cases hp'
  | failed hp => cases hp'

theorem past_of_ne {k : ι} (h : j ≠ k) : Past (requestStep u r W k) j ↔ Past W j := by
  unfold Past Pending Inserted
  rw [step_sessions_of_ne h]

theorem inserted_of_ne {k : ι} (h : j ≠ k) : Inserted (requestStep u r W k) j ↔ Inserted W j := by
  unfold Inserted
  rw [step_sessions_of_ne h]

/-- **Without an overlap two requests about one connection go one by one.** -/
theorem oneByOne_step (hij : i ≠ j) (hkey : (r i).key u = (r j).key u) (hI : Inv u r s W)
    (hk : OneByOne W i j) (hno : ¬ (Pending W i ∧ Pending W j)) (k : ι) :
    OneByOne (requestStep u r W k) i j := by
  have hhalf : ∀ i j, i ≠ j → (r i).key u = (r j).key u → OneByOne W i j →
      ¬ (Pending W i ∧ Pending W j) →
        Inserted (requestStep u r W k) i → ¬ Past (requestStep u r W k) j := by
    intro i j hij hkey hk hno hins hpast
    by_cases hki : i = k
    · subst hki
      have hj : Past W j := (past_of_ne hij.symm).mp hpast
      rcases inserted_step hins with hpend | hins'
      · rcases hj with hj | hj
        · exact hno ⟨hpend, hj⟩
        · exact hk.2 hj (Or.inl hpend)
      · exact hk.1 hins' hj
    · have hi : Inserted W i := (inserted_of_ne hki).mp hins
      by_cases hkj : j = k
      · subst hkj
        have hmem : (r j).key u ∈ keys u W.db :=
          (hI.mem_keys _).mpr (Or.inr ⟨i, hi, hkey⟩)
        rcases hpast with hpend | hins'
        · rcases pending_step hI hpend with hpend' | habsent
          · exact hk.1 hi (Or.inl hpend')
          · exact habsent hmem
        · exact hk.1 hi (inserted_step hins')
      · exact hk.1 hi ((past_of_ne hkj).mp hpast)
  exact ⟨hhalf i j hij hkey hk hno,
    hhalf j i hij.symm hkey.symm ⟨hk.2, hk.1⟩ fun h => hno ⟨h.2, h.1⟩⟩

/-! ### Runs -/

theorem inv_run_begin (hs : LowerCased u s) (hu : Unique u s) (l : List ι) :
    Inv u r s (run (requestStep u r) (begin s) l) :=
  inv_run (I := Inv u r s) (fun _ i hI => inv_step hI i) l (inv_begin hs hu)

/-- Whoever has found no connection has found none, has added one, or fails. -/
theorem past_step (hI : Inv u r s W) (hW : Past W i ∨ ∃ e, (W.sessions i).status = .failed e)
    (k : ι) : Past (requestStep u r W k) i ∨
      ∃ e, ((requestStep u r W k).sessions i).status = .failed e := by
  by_cases hik : i = k
  · subst hik
    obtain ⟨t, db, heffect, hstep⟩ := effect_requestStep (u := u) (r := r) W i
    simp only [Past, Pending, Inserted, hstep, Function.update_self]
    have hadding : ∀ {p}, (W.sessions i).status = .running p → Adding p := by
      intro p hp
      rcases hW with (⟨q, hq, hadd⟩ | hins) | ⟨e, he⟩
      · rw [hp] at hq
        rw [Status.running.inj hq]; exact hadd
      · unfold Inserted at hins; rw [hp] at hins; cases hins
      · rw [hp] at he; cases he
    cases heffect with
    | stopped _ => exact hW
    | @read p q f hp hn hf =>
      have hwrites := writes_eq_pure hn ((hI.sessions i).wrote p hp)
      have hview := Session.view_of_unwritten hwrites W.db
      rw [hview] at hf
      rcases Request.read_cases hn hf with ⟨rfl, -⟩ | ⟨tokens, rfl, -⟩
      · exact (hadding hp).elim
      · exact (hadding hp).elim
    | @write p q _ _ hp hn hq =>
      rcases Request.write_cases hn with ⟨-, hfirst, -⟩ | ⟨tokens, -, rfl, -⟩
      · rcases hfirst with ⟨c, tokens, rfl⟩ | ⟨c, rfl⟩
        · exact (hadding hp).elim
        · exact (hadding hp).elim
      · exact Or.inl (Or.inl ⟨_, rfl, trivial⟩)
    | @committed p _ hp hn hq =>
      obtain ⟨inserted, rfl⟩ := Request.commit_of_next hn
      cases inserted with
      | true => exact Or.inl (Or.inr rfl)
      | false => exact (hadding hp).elim
    | @failed p e hp => exact Or.inr ⟨e, rfl⟩
  · rcases hW with hpast | ⟨e, he⟩
    · exact Or.inl ((past_of_ne hik).mpr hpast)
    · refine Or.inr ⟨e, ?_⟩
      rwa [step_sessions_of_ne hik]

/-- A request that found no connection and then committed has committed a new one. -/
theorem inserted_of_committed (hp : Past W i) (hI : Inv u r s W) (l : List ι)
    (hc : Committed (run (requestStep u r) W l) i) :
    Inserted (run (requestStep u r) W l) i := by
  have hinv : Inv u r s (run (requestStep u r) W l) ∧
      (Past (run (requestStep u r) W l) i ∨
        ∃ e, ((run (requestStep u r) W l).sessions i).status = .failed e) := by
    refine inv_run (I := fun W => Inv u r s W ∧ (Past W i ∨ ∃ e, (W.sessions i).status = .failed e))
      ?_ l ⟨hI, Or.inl hp⟩
    rintro W k ⟨hI, hW⟩
    exact ⟨inv_step hI k, past_step hI hW k⟩
  obtain ⟨p, hp⟩ := hc
  rcases hinv.2 with (⟨q, hq, -⟩ | hins) | ⟨e, he⟩
  · rw [hp] at hq; cases hq
  · exact hins
  · rw [hp] at he; cases he

/-- **There is one connection for a workspace and a provider** in every state of a run, unless two
requests about it both find none before either commits, and both commit. -/
theorem always_unique_iff (hs : LowerCased u s) (hu : Unique u s) (l : List ι) :
    Always (requestStep u r) (fun W => Unique u W.db) (begin s) l ↔
      ¬ ∃ i j, i ≠ j ∧ (r i).key u = (r j).key u ∧
        ¬ Always (requestStep u r) (fun W => ¬ (Pending W i ∧ Pending W j)) (begin s) l ∧
        Committed (run (requestStep u r) (begin s) l) i ∧
        Committed (run (requestStep u r) (begin s) l) j := by
  have hinv : ∀ l, Inv u r s (run (requestStep u r) (begin s) l) := inv_run_begin hs hu
  constructor
  · rintro halways ⟨i, j, hij, hkey, hover, hi, hj⟩
    obtain ⟨pre, hpre, hpend⟩ : ∃ pre, pre <+: l ∧
        (Pending (run (requestStep u r) (begin s) pre) i ∧
          Pending (run (requestStep u r) (begin s) pre) j) := by
      rw [always_iff] at hover
      push Not at hover
      exact hover
    obtain ⟨post, rfl⟩ := hpre
    have hend := always_iff.mp halways _ (List.prefix_refl _)
    rw [run_append] at hi hj hend
    have hinv' := inv_run (I := Inv u r s) (fun _ i hI => inv_step hI i) post (hinv pre)
    rw [unique_iff_nodup, hinv'.nodup] at hend
    exact hij (hend i j (inserted_of_committed (Or.inl hpend.1) (hinv pre) post hi)
      (inserted_of_committed (Or.inl hpend.2) (hinv pre) post hj) hkey)
  · intro hskew
    refine always_iff.mpr fun pre hpre => ?_
    rw [unique_iff_nodup, (hinv pre).nodup]
    intro i j hi hj hkey
    by_contra hij
    refine hskew ⟨i, j, hij, hkey, fun hsep => ?_, ?_, ?_⟩
    · -- without an overlap the two cannot both have committed
      have hone : Always (requestStep u r) (fun W => Inv u r s W ∧ OneByOne W i j) (begin s) l :=
        always_of_along (Q := fun W _ => ¬ (Pending W i ∧ Pending W j))
          (fun W k hI hov => ⟨inv_step hI.1 k, oneByOne_step hij hkey hI.1 hI.2 hov k⟩)
          ⟨inv_begin hs hu, ⟨fun h => (by cases h), fun h => by cases h⟩⟩
          (along_of_always (fun _ _ h => h) hsep)
      exact (always_iff.mp hone pre hpre).2.1 hi (Or.inr hj)
    · obtain ⟨post, rfl⟩ := hpre
      rw [run_append]
      exact ⟨_, committed_run hi post⟩
    · obtain ⟨post, rfl⟩ := hpre
      rw [run_append]
      exact ⟨_, committed_run hj post⟩

end Requests

/-! ### Two callbacks of one flow -/

/-- The workspace 10 connects the mock provider twice at once, under names in different cases. -/
def twice (b : Bool) : Request where
  env :=
    { encrypt := fun _ token => "gAAAA" ++ token
      decrypt := fun token => some token
      lower := id
      strOf := fun _ => ""
      textOf := fun _ => ""
      connector := fun _ _ _ => .ok []
      uuid := fun _ => 0
      now := 0
      connect := fun _ _ _ => .ok ⟨some "access", none, none⟩ }
  draws := drawsFrom (if b then 60 else 50) 0 ""
  workspaceId := 10
  provider := if b then "Mock" else "mock"
  op := .connect "code" none

/-- No character is cased, which decides the final sigma alone. -/
def uncased : CharProperties := ⟨fun _ => false, fun _ => false⟩

/-- Two requests one after the other are within the theorem. -/
theorem always_unique_iff_twice :
    Always (requestStep uncased twice) (fun W => Unique uncased W.db) (begin Database.empty)
        [false, false, false, false, true, true, true, true] ↔
      ¬ ∃ i j, i ≠ j ∧ (twice i).key uncased = (twice j).key uncased ∧
        ¬ Always (requestStep uncased twice) (fun W => ¬ (Pending W i ∧ Pending W j))
          (begin Database.empty) [false, false, false, false, true, true, true, true] ∧
        Committed (run (requestStep uncased twice) (begin Database.empty)
          [false, false, false, false, true, true, true, true]) i ∧
        Committed (run (requestStep uncased twice) (begin Database.empty)
          [false, false, false, false, true, true, true, true]) j :=
  always_unique_iff (fun _ h => absurd h List.not_mem_nil) (fun _ h => absurd h List.not_mem_nil) _

/-- Both look before either commits: the workspace has two connections for the provider. -/
theorem mock_connected_twice :
    Unique uncased Database.empty ∧
    ¬ Unique uncased (run (requestStep uncased twice) (begin Database.empty)
      [false, false, true, true, false, false, true, true]).db := by
  refine ⟨fun _ h => absurd h List.not_mem_nil, fun h => ?_⟩
  rw [unique_iff_nodup] at h
  exact absurd h (by decide)

end MarketingSuite.Integrations.Concurrency
