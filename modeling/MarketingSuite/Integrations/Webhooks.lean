import MarketingSuite.Base.Http
import Mathlib.Algebra.Group.Nat.Defs

/-! # Webhooks

`app/integrations/webhooks/verifier.py`, the `verify_signature` of the webhook handlers of Slack,
Facebook, Instagram and LinkedIn under `app/integrations/connectors`, and `receive_webhook` of
`app/api/v1/endpoints/integrations.py`. The endpoint asks the verifier, which has no strategy for
any of the four; no code asks their handlers. HMAC-SHA256 is a function of the key and the message,
and the clock reads whole microseconds. -/

namespace MarketingSuite.Integrations.Webhooks

open MarketingSuite.Base.Values MarketingSuite.Base.Payloads
open MarketingSuite.Base.Http (intOf)

/-- The providers whose connectors have a handler with a signature of their own. -/
inductive Provider
  | slack | facebook | instagram | linkedin
deriving DecidableEq, Repr

/-- The name of a provider in the registry. -/
def Provider.value : Provider → String
  | .slack => "slack"
  | .facebook => "facebook"
  | .instagram => "instagram"
  | .linkedin => "linkedin"

/-- What the code gets from outside: `str.lower`, HMAC-SHA256, the clock, the secret of a provider,
`json.loads`, and decoding that ignores what is no UTF-8. -/
structure Env where
  lower : String → String
  hmacSha256 : ByteArray → ByteArray → Fin 32 → Fin 256
  now : Time
  secret : Provider → String
  json : ByteArray → Option Json
  decodeIgnore : ByteArray → String

/-- A request: its body, and its headers by name. -/
structure Request where
  body : ByteArray
  headers : String → Option String

/-! ### Texts -/

/-- A hexadecimal digit. -/
def hexDigit (n : Fin 16) : Char :=
  "0123456789abcdef".toList.getD n.val '0'

/-- The two digits of a byte. -/
def hexByte (b : Fin 256) : List Char :=
  [hexDigit ⟨b.val / 16, by omega⟩, hexDigit ⟨b.val % 16, by omega⟩]

/-- `hmac.new(key, msg, sha256).hexdigest()`. -/
def hexdigest (env : Env) (key : String) (msg : ByteArray) : String :=
  String.ofList ((List.ofFn (env.hmacSha256 key.toUTF8 msg)).flatMap hexByte)

/-- `str.isascii`. -/
def isAscii (s : String) : Bool := s.toList.all fun c => c.toNat < 128

/-- `hmac.compare_digest` on strings. -/
def compareDigest (a b : String) : Except Exc Bool :=
  if isAscii a = true ∧ isAscii b = true then .ok (a = b) else .error .typeError

/-- An integer that no double can hold. -/
def overflowsFloat (t : ℤ) : Bool := 2 ^ 1024 - 2 ^ 970 ≤ t.natAbs

/-! ### The handlers of the connectors -/

section Handlers

variable (env : Env) (secret : String) (payload : ByteArray)

/-- `SlackWebhookHandler.verify_signature`. -/
def SlackWebhookHandler.verifySignature (signature timestamp : Option String) :
    Except Exc Bool :=
  if truthy signature = false ∨ truthy timestamp = false then .ok false
  else
    let signature := signature.getD ""
    let timestamp := timestamp.getD ""
    match intOf timestamp with
    | none => .ok false
    | some t =>
      if overflowsFloat t = true then .error (.raised "int too large to convert to float")
      else if seconds (60 * 5) < (env.now - seconds t).natAbs then .ok false
      else match String.fromUTF8? payload with
        | none => .error (.valueError "'utf-8' codec can't decode")
        | some text =>
          let sigBasestring := "v0:" ++ timestamp ++ ":" ++ text
          compareDigest ("v0=" ++ hexdigest env secret sigBasestring.toUTF8) signature

/-- `FacebookWebhookHandler.verify_signature`. -/
def FacebookWebhookHandler.verifySignature (signature : Option String) : Except Exc Bool :=
  match signature with
  | none => .ok false
  | some signature =>
    if signature = "" ∨ "sha256=".toList.isPrefixOf signature.toList = false then .ok false
    else compareDigest (hexdigest env secret payload) (String.ofList (signature.toList.drop 7))

/-- `InstagramWebhookHandler.verify_signature`. -/
def InstagramWebhookHandler.verifySignature (signature : Option String) : Except Exc Bool :=
  FacebookWebhookHandler.verifySignature env secret payload signature

/-- `LinkedInWebhookHandler.verify_signature`. -/
def LinkedInWebhookHandler.verifySignature (signature : Option String) : Except Exc Bool :=
  match signature with
  | none => .ok false
  | some signature =>
    if signature = "" then .ok false
    else compareDigest (hexdigest env secret payload) signature

end Handlers

/-- The handler of a provider, on the signature header of the provider. -/
def handlerVerifies (env : Env) (r : Request) : Provider → Except Exc Bool
  | .slack => SlackWebhookHandler.verifySignature env (env.secret .slack) r.body
      (r.headers "X-Slack-Signature") (r.headers "X-Slack-Request-Timestamp")
  | .facebook => FacebookWebhookHandler.verifySignature env (env.secret .facebook) r.body
      (r.headers "X-Hub-Signature-256")
  | .instagram => InstagramWebhookHandler.verifySignature env (env.secret .instagram) r.body
      (r.headers "X-Hub-Signature-256")
  | .linkedin => LinkedInWebhookHandler.verifySignature env (env.secret .linkedin) r.body
      (r.headers "X-LI-Signature")

/-! ### The endpoint -/

/-- `WebhookVerifier.verify_signature`. -/
def WebhookVerifier.verifySignature (env : Env) (provider : String) (r : Request) : Bool :=
  let provider := env.lower provider
  if provider = "slack" then true
  else if provider = "mock" then r.headers "X-Mock-Signature" = some "valid_signature"
  else false

/-- The event that `WebhookDispatcher.dispatch` publishes. -/
structure WebhookEvent where
  eventName : String
  workspaceId : Uuid
  payload : Json
  provider : String

/-- `WebhookDispatcher.dispatch`; the event is validated when it is built. -/
def dispatch (env : Env) (provider : String) (payload workspaceId : Json) :
    Except Exc WebhookEvent :=
  match workspaceId, payload with
  | .id w, .obj l =>
    .ok ⟨"integration." ++ env.lower provider ++ ".webhook_received", w, .obj l, provider⟩
  | _, _ => .error .validation

/-- `receive_webhook`. -/
def receiveWebhook (env : Env) (provider : String) (r : Request) : Except Exc WebhookEvent :=
  if WebhookVerifier.verifySignature env provider r = false then
    .error (.http 401 "Invalid webhook signature")
  else do
    let payload := (env.json r.body).getD (.obj [("raw_data", .str (env.decodeIgnore r.body))])
    let first ← get payload "workspace_id" .null
    let second ← get payload "mock_account_id" .null
    let workspaceId := either first second
    if isTruthy workspaceId = false then
      .error (.http 400 "Could not determine workspace from payload")
    else dispatch env provider payload workspaceId

/-- The request gets past the verification of the endpoint. -/
def PastVerification (env : Env) (provider : String) (r : Request) : Prop :=
  receiveWebhook env provider r ≠ .error (.http 401 "Invalid webhook signature")

/-- The provider has signed the request: its header is the HMAC of the body under its secret, for
Slack together with a timestamp of the last or the next five minutes. -/
def Genuine (env : Env) (r : Request) : Provider → Prop
  | .slack => ∃ timestamp t text, r.headers "X-Slack-Request-Timestamp" = some timestamp ∧
      intOf timestamp = some t ∧ overflowsFloat t = false ∧
      (env.now - seconds t).natAbs ≤ seconds (60 * 5) ∧ String.fromUTF8? r.body = some text ∧
      r.headers "X-Slack-Signature" = some ("v0=" ++
        hexdigest env (env.secret .slack) ("v0:" ++ timestamp ++ ":" ++ text).toUTF8)
  | .facebook => r.headers "X-Hub-Signature-256" =
      some ("sha256=" ++ hexdigest env (env.secret .facebook) r.body)
  | .instagram => r.headers "X-Hub-Signature-256" =
      some ("sha256=" ++ hexdigest env (env.secret .instagram) r.body)
  | .linkedin => r.headers "X-LI-Signature" = some (hexdigest env (env.secret .linkedin) r.body)

/-- The endpoint and the handler of the provider agree on the request. -/
def Agrees (env : Env) (p : Provider) (name : String) (r : Request) : Prop :=
  PastVerification env name r ↔ handlerVerifies env r p = .ok true

/-! ### What the handlers accept -/

variable {env : Env} {key secret name : String} {payload msg : ByteArray} {r : Request}
  {signature timestamp : Option String} {p : Provider}

theorem hexByte_ascii (b : Fin 256) : ∀ c ∈ hexByte b, c.toNat < 128 := by
  have hdigit : ∀ n : Fin 16, (hexDigit n).toNat < 128 := by decide
  intro c hc
  rcases List.mem_cons.mp hc with rfl | hc
  · exact hdigit _
  · rw [List.mem_singleton.mp hc]
    exact hdigit _

theorem isAscii_append {a b : String} (ha : isAscii a = true) (hb : isAscii b = true) :
    isAscii (a ++ b) = true := by
  unfold isAscii at ha hb ⊢
  rw [String.toList_append, List.all_append, ha, hb]
  rfl

theorem isAscii_hexdigest : isAscii (hexdigest env key msg) = true := by
  unfold isAscii hexdigest
  rw [String.toList_ofList, List.all_eq_true]
  intro c hc
  obtain ⟨b, -, hb⟩ := List.mem_flatMap.mp hc
  simpa using hexByte_ascii b c hb

theorem hexdigest_ne_empty : hexdigest env key msg ≠ "" := by
  intro h
  have hlist := congrArg String.toList h
  simp [hexdigest, hexByte, List.ofFn_succ] at hlist

theorem compareDigest_iff {a b : String} (ha : isAscii a = true) :
    compareDigest a b = .ok true ↔ b = a := by
  unfold compareDigest
  constructor
  · intro h
    split_ifs at h
    simpa [eq_comm] using h
  · rintro rfl
    simp [ha]

theorem facebook_iff : FacebookWebhookHandler.verifySignature env secret payload signature = .ok true ↔
    signature = some ("sha256=" ++ hexdigest env secret payload) := by
  rcases signature with _ | signature
  · simp [FacebookWebhookHandler.verifySignature]
  · simp only [FacebookWebhookHandler.verifySignature, Option.some.injEq]
    split_ifs with h
    · refine iff_of_false (by simp) ?_
      rintro rfl
      rcases h with h | h
      · have hlist := congrArg String.toList h
        simp at hlist
      · simp at h
    · have hpre : "sha256=".toList <+: signature.toList := by
        rw [← List.isPrefixOf_iff_prefix]
        simpa using fun hno => h (Or.inr hno)
      obtain ⟨rest, hrest⟩ := hpre
      have hdrop : signature.toList.drop 7 = rest := by
        rw [← hrest]
        simp
      rw [compareDigest_iff isAscii_hexdigest, hdrop, ← String.toList_inj, String.toList_ofList,
        ← String.toList_inj, String.toList_append, ← hrest, List.append_cancel_left_eq]

theorem linkedin_iff : LinkedInWebhookHandler.verifySignature env secret payload signature = .ok true ↔
    signature = some (hexdigest env secret payload) := by
  rcases signature with _ | signature
  · simp [LinkedInWebhookHandler.verifySignature]
  · simp only [LinkedInWebhookHandler.verifySignature, Option.some.injEq]
    split_ifs with h
    · subst h
      exact iff_of_false (by simp) fun heq => hexdigest_ne_empty heq.symm
    · exact compareDigest_iff isAscii_hexdigest

theorem given_of_signed {x ts : String} {t : ℤ} (ht : intOf ts = some t) :
    ¬ (truthy (some ("v0=" ++ x)) = false ∨ truthy (some ts) = false) := by
  have hts : ts ≠ "" := by
    rintro rfl
    have hempty : intOf "" = none := by decide
    rw [hempty] at ht
    simp at ht
  have hsig : "v0=" ++ x ≠ "" := by
    intro h
    have hlist := congrArg String.toList h
    simp at hlist
  simp only [truthy, decide_eq_false_iff_not, not_not, not_or]
  exact ⟨hsig, hts⟩

theorem slack_iff :
    SlackWebhookHandler.verifySignature env secret payload signature timestamp = .ok true ↔
      ∃ ts t text, timestamp = some ts ∧ intOf ts = some t ∧ overflowsFloat t = false ∧
        (env.now - seconds t).natAbs ≤ seconds (60 * 5) ∧ String.fromUTF8? payload = some text ∧
        signature = some ("v0=" ++ hexdigest env secret ("v0:" ++ ts ++ ":" ++ text).toUTF8) := by
  have hv0 : isAscii "v0=" = true := by decide
  unfold SlackWebhookHandler.verifySignature
  constructor
  · intro h
    have hgiven : ¬ (truthy signature = false ∨ truthy timestamp = false) := by
      intro hgiven
      rw [if_pos hgiven] at h
      simp at h
    rw [if_neg hgiven] at h
    obtain ⟨hsig, hts⟩ := not_or.mp hgiven
    rcases signature with _ | sig
    · exact absurd rfl hsig
    rcases timestamp with _ | ts
    · exact absurd rfl hts
    dsimp only [Option.getD_some] at h
    rcases ht : intOf ts with _ | t
    · simp [ht] at h
    · simp only [ht] at h
      have hover : overflowsFloat t = false := by
        by_contra hover
        rw [if_pos (by simpa using hover)] at h
        simp at h
      rw [if_neg (by simp [hover])] at h
      have hold : ¬ seconds (60 * 5) < (env.now - seconds t).natAbs := by
        intro hold
        rw [if_pos hold] at h
        simp at h
      rw [if_neg hold] at h
      rcases htext : String.fromUTF8? payload with _ | text
      · simp [htext] at h
      · simp only [htext] at h
        have heq := (compareDigest_iff (isAscii_append hv0 isAscii_hexdigest)).mp h
        exact ⟨ts, t, text, rfl, ht, hover, Int.not_lt.mp hold, rfl, by rw [heq]⟩
  · rintro ⟨ts, t, text, rfl, ht, hover, hnow, htext, rfl⟩
    rw [if_neg (given_of_signed ht)]
    have hold : ¬ seconds (60 * 5) < (env.now - seconds t).natAbs := Int.not_lt.mpr hnow
    simp only [Option.getD_some, ht, hover, Bool.false_eq_true, if_false, if_neg hold, htext]
    exact (compareDigest_iff (isAscii_append hv0 isAscii_hexdigest)).mpr rfl

/-- **The handlers accept what the provider has signed.** -/
theorem handlerVerifies_iff (env : Env) (r : Request) (p : Provider) :
    handlerVerifies env r p = .ok true ↔ Genuine env r p := by
  cases p with
  | slack => exact slack_iff
  | facebook => exact facebook_iff
  | instagram => exact facebook_iff
  | linkedin => exact linkedin_iff

theorem pastVerification_iff (env : Env) (name : String) (r : Request) :
    PastVerification env name r ↔ WebhookVerifier.verifySignature env name r = true := by
  unfold PastVerification receiveWebhook
  split_ifs with h
  · simp [h]
  · refine iff_of_true (fun hraise => ?_) (by simpa using h)
    generalize (env.json r.body).getD (.obj [("raw_data", .str (env.decodeIgnore r.body))]) =
      payload at hraise
    cases payload with
    | obj l =>
      simp only [Base.Payloads.get, bind, Except.bind] at hraise
      split_ifs at hraise
      · simp at hraise
      · unfold dispatch at hraise
        split at hraise
        · simp at hraise
        · simp at hraise
    | _ => simp [Base.Payloads.get, bind, Except.bind] at hraise

/-- **The endpoint and the handlers agree** on the signed requests of Slack, and on the unsigned
ones of the other three. -/
theorem agrees_iff (env : Env) (p : Provider) (name : String) (r : Request)
    (hname : env.lower name = p.value) :
    Agrees env p name r ↔ (Genuine env r p ↔ p = .slack) := by
  have hverifier : WebhookVerifier.verifySignature env name r = true ↔ p = .slack := by
    unfold WebhookVerifier.verifySignature
    rw [hname]
    cases p <;> simp [Provider.value]
  unfold Agrees
  rw [pastVerification_iff, handlerVerifies_iff, hverifier]
  exact iff_comm

/-- A deployment whose digests are all zero, at the instant 0. -/
def zeroDigests : Env where
  lower := id
  hmacSha256 _ _ _ := 0
  now := 0
  secret _ := "secret"
  json _ := none
  decodeIgnore _ := ""

/-- A request without a header. -/
def bare : Request := ⟨.empty, fun _ => none⟩

theorem agrees_on_bare_facebook : Agrees zeroDigests .facebook "facebook" bare :=
  (agrees_iff zeroDigests .facebook "facebook" bare rfl).mpr (by simp [Genuine, bare])

/-- **Anybody's request is one of Slack**: the endpoint takes it without a signature, which the
handler refuses. -/
theorem unsigned_slack_accepted : ¬ Agrees zeroDigests .slack "slack" bare := by
  have hpast : PastVerification zeroDigests "slack" bare :=
    (pastVerification_iff zeroDigests "slack" bare).mpr (by decide)
  intro h
  have haccepts : Genuine zeroDigests bare .slack := (handlerVerifies_iff ..).mp (h.mp hpast)
  obtain ⟨ts, -, -, hts, -⟩ := haccepts
  simp [bare] at hts

end MarketingSuite.Integrations.Webhooks
