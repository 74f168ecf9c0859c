import MarketingSuite.Integrations.Connections
import MarketingSuite.Lib.Base64

/-! # The secret service of a process

`SecretService` of `app/integrations/secrets/service.py`. Every process builds one, from the key in
its environment, or from random bytes of its own if there is no key; a ciphertext that it cannot
decrypt it gives back as it is. The API stores tokens and the workers use them, so that without a
key in the environment a worker uses the ciphertexts. `cryptography.fernet` lies outside of the
program.
-/

namespace MarketingSuite.Integrations.Secrets

open MarketingSuite.Lib
open MarketingSuite.Base.Values MarketingSuite.Base.Models
open MarketingSuite.Integrations.Connectors
open MarketingSuite.Integrations.Connections (Fernet)

/-- What `os.urandom(32)` gives, or the bytes that a key stands for. -/
abbrev Bytes32 : Type := {b : List UInt8 // b.length = 32}

/-- `cryptography.fernet`: `Fernet(key)`, and its methods under the key that it has read. A token is
encrypted anew every time, with the time and a random vector, of which the number is short for. -/
structure Package where
  fernet : String → Except Exc Bytes32
  encrypt : Bytes32 → ℕ → String → String
  decrypt : Bytes32 → String → Option String

/-- `base64.urlsafe_b64encode(b).decode()`. -/
def urlsafeB64encode (b : Bytes32) : String := String.ofList (Base64.encode b.val)

/-- What the package documents: a key is 32 bytes in base64, decrypting undoes encrypting under the
same key and is refused under another one, and a ciphertext holds more than its plaintext. -/
structure Package.Documented (package : Package) : Prop where
  accepts : ∀ b, package.fernet (urlsafeB64encode b) = .ok b
  decrypt_encrypt : ∀ key nonce token,
    package.decrypt key (package.encrypt key nonce token) = some token
  rejects : ∀ key key' nonce token, key ≠ key' →
    package.decrypt key' (package.encrypt key nonce token) = none
  longer : ∀ key nonce token, token.length < (package.encrypt key nonce token).length

variable (package : Package)

/-- A `SecretService`, with the key of its `fernet`. -/
structure SecretService where
  key : Bytes32

namespace SecretService

/-- The text of the key: "Provide a default fallback key for local dev if not set". -/
def keyOf (getSecret : String → Option String) (urandom : Bytes32) : String :=
  let key := getSecret "ENCRYPTION_KEY"
  if truthy key = true then key.getD "" else urlsafeB64encode urandom

/-- `SecretService()`. -/
def init (getSecret : String → Option String) (urandom : Bytes32) : Except Exc SecretService := do
  let fernet ← package.fernet (keyOf getSecret urandom)
  return ⟨fernet⟩

variable (service : SecretService)

/-- `encrypt_token`. -/
def encryptToken (nonce : ℕ) (token : String) : String :=
  if token = "" then token else package.encrypt service.key nonce token

/-- `decrypt_token`: "If we can't decrypt, it might not be encrypted or key changed". -/
def decryptToken (encryptedToken : String) : String :=
  if encryptedToken = "" then encryptedToken
  else (package.decrypt service.key encryptedToken).getD encryptedToken

/-- The engine of a process with this service, which encrypts its `k`-th token with `nonce k`. -/
def engine (nonce : ℕ → ℕ) (world : Sync.Engine.Env) : Sync.Engine.Env :=
  { world with
    encrypt := fun k => package.encrypt service.key (nonce k)
    decrypt := package.decrypt service.key }

end SecretService

/-- A process, and what it is that differs from one to the other. -/
structure Process where
  urandom : Bytes32
  nonce : ℕ → ℕ
  suite : Connectors.Env

/-- The suite of the process, with its secret service in the shared environment. -/
def Process.withSecrets (p : Process) (getSecret : String → Option String)
    (service : SecretService) : Connectors.Env :=
  { p.suite with
    toEngine := service.engine package p.nonce p.suite.toEngine
    environ := getSecret }

/-- The second process reads what the first has written, and hands it to the connectors: no value
that it cannot decrypt. -/
structure Portable (getSecret : String → Option String) (p q : Process) (t : String) : Prop where
  reads : ∀ s₁ s₂ k, SecretService.init package getSecret p.urandom = .ok s₁ →
    SecretService.init package getSecret q.urandom = .ok s₂ →
    s₂.decryptToken package (s₁.encryptToken package (p.nonce k) t) = t
  handsOn : ∀ s₁ s₂ k (connection : IntegrationConnection) connector,
    SecretService.init package getSecret p.urandom = .ok s₁ →
    SecretService.init package getSecret q.urandom = .ok s₂ →
    connection.accessToken = some (s₁.encryptToken package (p.nonce k) t) →
    getConnectorInstance (q.withSecrets package getSecret s₂) connection = .ok connector →
    connector.accessToken = some t

variable {package} {getSecret : String → Option String} {p q : Process} {t : String}
  {s₁ s₂ service : SecretService} {nonce : ℕ → ℕ} {world : Sync.Engine.Env}

/-! ### The service and the engine -/

theorem encryptToken_engine (k : ℕ) (token : String) :
    Sync.Engine.encryptToken (service.engine package nonce world) k token =
      service.encryptToken package (nonce k) token := rfl

theorem decryptToken_engine (token : String) :
    Sync.Engine.decryptToken (service.engine package nonce world) token =
      service.decryptToken package token := rfl

theorem ne_empty (h : package.Documented) (key : Bytes32) (n : ℕ) (token : String) :
    package.encrypt key n token ≠ "" := by
  intro hempty
  have hlonger := h.longer key n token
  rw [hempty] at hlonger
  exact absurd hlonger (Nat.not_lt_zero _)

/-- **The engine of a process encrypts as Fernet does**, whatever its key is. -/
theorem fernet_engine (h : package.Documented) : Fernet (service.engine package nonce world) where
  ne_empty k token := ne_empty h service.key (nonce k) token
  decrypt_encrypt k token := h.decrypt_encrypt service.key (nonce k) token

/-! ### Two services -/

theorem decryptToken_of_same (h : package.Documented) (hkey : s₁.key = s₂.key) (n : ℕ)
    (t : String) : s₂.decryptToken package (s₁.encryptToken package n t) = t := by
  unfold SecretService.decryptToken SecretService.encryptToken
  by_cases ht : t = ""
  · rw [if_pos ht, if_pos ht]
  · rw [if_neg ht, if_neg (ne_empty h _ _ _), ← hkey, h.decrypt_encrypt, Option.getD_some]

theorem decryptToken_of_ne (h : package.Documented) (hkey : s₁.key ≠ s₂.key) (ht : t ≠ "") (n : ℕ) :
    s₂.decryptToken package (s₁.encryptToken package n t) = s₁.encryptToken package n t ∧
      s₁.encryptToken package n t ≠ t := by
  unfold SecretService.decryptToken SecretService.encryptToken
  rw [if_neg ht, if_neg (ne_empty h _ _ _), h.rejects _ _ _ _ hkey, Option.getD_none]
  refine ⟨rfl, fun heq => ?_⟩
  have hlonger := h.longer s₁.key n t
  rw [heq] at hlonger
  exact absurd hlonger (Nat.lt_irrefl _)

theorem decryptToken_of_empty (n : ℕ) :
    s₂.decryptToken package (s₁.encryptToken package n "") = "" := by
  unfold SecretService.decryptToken SecretService.encryptToken
  rw [if_pos rfl, if_pos rfl]

/-! ### Two processes -/

/-- With a key in the environment there is one service, if there is any. -/
theorem key_of_configured (hset : truthy (getSecret "ENCRYPTION_KEY") = true)
    (h₁ : SecretService.init package getSecret p.urandom = .ok s₁)
    (h₂ : SecretService.init package getSecret q.urandom = .ok s₂) : s₁.key = s₂.key := by
  have hkey : ∀ b, SecretService.keyOf getSecret b = (getSecret "ENCRYPTION_KEY").getD "" :=
    fun b => if_pos hset
  unfold SecretService.init at h₁ h₂
  rw [hkey] at h₁ h₂
  rw [Except.ok.inj (h₁.symm.trans h₂)]

theorem init_of_not_configured (h : package.Documented)
    (hset : ¬ truthy (getSecret "ENCRYPTION_KEY") = true) (b : Bytes32) :
    SecretService.init package getSecret b = .ok ⟨b⟩ := by
  have hkey : SecretService.keyOf getSecret b = urlsafeB64encode b := if_neg hset
  unfold SecretService.init
  rw [hkey, h.accepts]
  rfl

/-- What the second process does with a token decides what its connectors get. -/
theorem portable_of_reads
    (h : ∀ s₁ s₂ k, SecretService.init package getSecret p.urandom = .ok s₁ →
      SecretService.init package getSecret q.urandom = .ok s₂ →
      s₂.decryptToken package (s₁.encryptToken package (p.nonce k) t) = t) :
    Portable package getSecret p q t := by
  refine ⟨h, fun s₁ s₂ k connection connector h₁ h₂ htoken hconnector => ?_⟩
  unfold getConnectorInstance createConnector at hconnector
  obtain ⟨cls, -, hconnector⟩ := Programs.Prog.bind_eq_ok.mp hconnector
  rw [← Except.ok.inj hconnector, htoken, Option.map_some]
  exact congrArg some (h s₁ s₂ k h₁ h₂)

/-- **Secrets are portable exactly if the key is in the environment**, or there is no secret. -/
theorem portable_iff (h : package.Documented) (hdiffer : p.urandom ≠ q.urandom) :
    Portable package getSecret p q t ↔
      truthy (getSecret "ENCRYPTION_KEY") = true ∨ t = "" := by
  constructor
  · intro hportable
    by_contra hneither
    push Not at hneither
    obtain ⟨hset, ht⟩ := hneither
    have hreads := hportable.reads ⟨p.urandom⟩ ⟨q.urandom⟩ 0
      (init_of_not_configured h hset p.urandom) (init_of_not_configured h hset q.urandom)
    have hkeys : (⟨p.urandom⟩ : SecretService).key ≠ (⟨q.urandom⟩ : SecretService).key := hdiffer
    obtain ⟨hciphertext, hne⟩ := decryptToken_of_ne h hkeys ht (p.nonce 0)
    exact hne (hciphertext.symm.trans hreads)
  · rintro (hset | rfl)
    · exact portable_of_reads fun s₁ s₂ k h₁ h₂ =>
        decryptToken_of_same h (key_of_configured hset h₁ h₂) (p.nonce k) t
    · exact portable_of_reads fun s₁ s₂ k _ _ => decryptToken_of_empty (p.nonce k)

/-! ### An API and a worker -/

/-- The character of a byte. -/
def charOf (b : UInt8) : Char :=
  ⟨b.toUInt32, Or.inl (by
    have hb := b.toNat_lt
    rw [UInt8.toNat_toUInt32]
    omega)⟩

theorem charOf_inj : Function.Injective charOf :=
  fun _ _ h => UInt8.toUInt32_inj.mp (congrArg Char.val h)

/-- Ciphertexts that show their key. -/
def transparent : Package where
  fernet key :=
    match Base64.decode key.toList with
    | some b =>
      if h : b.length = 32 then .ok ⟨b, h⟩
      else .error (.valueError "Fernet key must be 32 url-safe base64-encoded bytes.")
    | none => .error (.valueError "Fernet key must be 32 url-safe base64-encoded bytes.")
  encrypt key _ token := String.ofList ('g' :: key.val.map charOf ++ token.toList)
  decrypt key ciphertext :=
    match ciphertext.toList with
    | 'g' :: l =>
      if l.take 32 = key.val.map charOf then some (String.ofList (l.drop 32)) else none
    | _ => none

theorem take_charOf (key : Bytes32) (l : List Char) :
    (key.val.map charOf ++ l).take 32 = key.val.map charOf ∧
      (key.val.map charOf ++ l).drop 32 = l := by
  have hlength : (key.val.map charOf).length = 32 := by
    rw [List.length_map, key.property]
  exact ⟨List.take_left' hlength, List.drop_left' hlength⟩

theorem documented_transparent : transparent.Documented where
  accepts b := by
    simp only [transparent, urlsafeB64encode, String.toList_ofList, Base64.decode_encode,
      dif_pos b.property]
  decrypt_encrypt key nonce token := by
    obtain ⟨htake, hdrop⟩ := take_charOf key token.toList
    simp only [transparent, String.toList_ofList, List.cons_append, htake, hdrop, if_true,
      String.ofList_toList]
  rejects key key' nonce token hne := by
    obtain ⟨htake, -⟩ := take_charOf key token.toList
    have hother : ¬ key.val.map charOf = key'.val.map charOf := fun h =>
      hne (Subtype.ext (charOf_inj.list_map h))
    simp only [transparent, String.toList_ofList, List.cons_append, htake, if_neg hother]
  longer key nonce token := by
    simp only [transparent, String.length_ofList, List.cons_append, List.length_cons,
      List.length_append, List.length_map, key.property, String.length_toList]
    omega

/-- The process of the API. -/
def api : Process := ⟨⟨List.replicate 32 1, by decide⟩, id, Connections.suite⟩

/-- A worker. -/
def worker : Process := ⟨⟨List.replicate 32 2, by decide⟩, id, Connections.suite⟩

/-- An environment with this key alone. -/
def keyed (key : String) (name : String) : Option String :=
  if name = "ENCRYPTION_KEY" then some key else none

/-- With a key that Fernet accepts, the worker reads what the API has stored. -/
theorem portable_iff_keyed :
    SecretService.init transparent (keyed (urlsafeB64encode ⟨List.replicate 32 7, by decide⟩))
      api.urandom = .ok ⟨⟨List.replicate 32 7, by decide⟩⟩ ∧
    Portable transparent (keyed (urlsafeB64encode ⟨List.replicate 32 7, by decide⟩)) api worker
      "EAAC" :=
  ⟨rfl, (portable_iff documented_transparent (by decide)).mpr (Or.inl (by decide))⟩

/-- Without a key, it uses the ciphertext. -/
theorem not_portable : ¬ Portable transparent (fun _ => none) api worker "EAAC" := by
  intro h
  have hreads := h.reads ⟨api.urandom⟩ ⟨worker.urandom⟩ 0
    (init_of_not_configured documented_transparent (by decide) _)
    (init_of_not_configured documented_transparent (by decide) _)
  exact absurd hreads (by decide)

end MarketingSuite.Integrations.Secrets
