import MarketingSuite.Lib.Programs
import Mathlib.Data.Int.Notation
import Mathlib.Data.Nat.Notation

/-! # Values

Identifiers, instants, JSON values, the exceptions the services raise, and the enumerations of
`app/constants/enums.py`. Random identifiers, random tokens and clock readings are inputs of a call
(`Draws`), so that a statement about every draw covers every source of randomness and every
clock. -/

namespace MarketingSuite.Base.Values

/-- A UUID. -/
abbrev Uuid : Type := ℕ

/-- An instant, in microseconds. -/
abbrev Time : Type := ℤ

/-- `timedelta(days=n)`. -/
def days (n : ℕ) : Time := n * 86400000000

/-- `timedelta(minutes=n)`. -/
def minutes (n : ℕ) : Time := n * 60000000

/-- `timedelta(seconds=n)`. -/
def seconds (n : ℤ) : Time := n * 1000000

/-- The random and ambient values a call gets: `uuid k` is the `k`-th identifier it draws, `now k`
its `k`-th reading of the clock, `token` what `secrets.token_urlsafe` returns. -/
structure Draws where
  uuid : ℕ → Uuid
  now : ℕ → Time
  token : String

/-- Draws whose identifiers start at `n`, at the instant `t`. -/
def drawsFrom (n : ℕ) (t : Time) (token : String) : Draws := ⟨fun k => n + k, fun _ => t, token⟩

/-- A Python `datetime`: an instant of the UTC time line, and whether it carries a time zone. -/
structure DateTime where
  instant : Time
  aware : Bool
deriving DecidableEq, Repr

/-- What the services raise. -/
inductive Exc
  | http (status : ℕ) (detail : String)
  | integrity
  | multipleResults
  | attributeError
  | typeError
  | keyError (key : String)
  | valueError (text : String)
  | validation
  | dataError
  | integration (text : String)
  | oauthToken (text : String)
  | jobExecution (text : String)
  | raised (text : String)
deriving DecidableEq, Repr

/-- JSON values, as the `JSONB` columns hold them; `id` and `time` are the string forms of an
identifier and of a `datetime`. -/
inductive Json
  | null
  | bool (b : Bool)
  | int (n : ℤ)
  | str (s : String)
  | id (i : Uuid)
  | time (t : DateTime)
  | arr (l : List Json)
  | obj (l : List (String × Json))
deriving Repr

/-- A field of a partial update: `none` if it is unset, `some none` if it is null. -/
abbrev PatchField (α : Type) : Type := Option (Option α)

/-- Python's `a < b` on datetimes, which raises (`none`) if one is naive and the other is not. -/
def DateTime.lt (a b : DateTime) : Option Bool :=
  if a.aware = b.aware then some (a.instant < b.instant) else none

/-- What a `timestamptz` column gives back: an aware value (the server's clock is UTC). -/
def DateTime.stored (a : DateTime) : DateTime := { a with aware := true }

/-- What it gives back if the local time of the client that binds the value is `zone` ahead of UTC: a
naive value is taken for that local time. -/
def DateTime.storedIn (zone : Time) (a : DateTime) : DateTime :=
  if a.aware = true then a else ⟨a.instant - zone, true⟩

/-- The truth value of an optional string. -/
def truthy : Option String → Bool
  | none => false
  | some s => s ≠ ""

/-- Python's `a or b` on an optional and a plain string. -/
def orElse (a : Option String) (b : String) : String :=
  match a with
  | none => b
  | some s => if s = "" then b else s

/-- The characters that `str.strip` removes, and that separate words for `str.split`. -/
def isSpace (c : Char) : Bool :=
  let n := c.toNat
  9 ≤ n && n ≤ 13 || 28 ≤ n && n ≤ 32 || n = 0x85 || n = 0xa0 || n = 0x1680 ||
    0x2000 ≤ n && n ≤ 0x200a || n = 0x2028 || n = 0x2029 || n = 0x202f || n = 0x205f || n = 0x3000

/-- The text without the characters in `p` at its ends. -/
def stripOf (p : Char → Bool) (s : String) : String :=
  String.ofList ((s.toList.dropWhile p).reverse.dropWhile p).reverse

/-- `str.strip`. -/
def strip (s : String) : String := stripOf isSpace s

theorem orElse_of_ne_empty {s b : String} (h : s ≠ "") : orElse (some s) b = s := if_neg h

/-! ### Enumerations -/

inductive WorkspaceStatus
  | active | suspended | archived | trial
deriving DecidableEq, Repr

inductive MemberStatus
  | pending | active | suspended | removed
deriving DecidableEq, Repr

inductive InviteStatus
  | pending | accepted | revoked | expired
deriving DecidableEq, Repr

inductive NotificationType
  | system | alert | message | billing
deriving DecidableEq, Repr

inductive NotificationPriority
  | low | normal | high | urgent
deriving DecidableEq, Repr

inductive CampaignStatus
  | draft | active | paused | completed | archived
deriving DecidableEq, Repr

inductive ScheduleStatus
  | scheduled | published | failed | paused | cancelled
deriving DecidableEq, Repr

/-- `ScheduleStatus.value`. -/
def ScheduleStatus.value : ScheduleStatus → String
  | .scheduled => "SCHEDULED"
  | .published => "PUBLISHED"
  | .failed => "FAILED"
  | .paused => "PAUSED"
  | .cancelled => "CANCELLED"

/-- `CampaignStatus.value`. -/
def CampaignStatus.value : CampaignStatus → String
  | .draft => "DRAFT"
  | .active => "ACTIVE"
  | .paused => "PAUSED"
  | .completed => "COMPLETED"
  | .archived => "ARCHIVED"

inductive ContentType
  | socialPost | email | blog | advertisement | landingPage | sms | other
deriving DecidableEq, Repr

inductive ContentStatus
  | draft | inReview | approved | rejected | ready
deriving DecidableEq, Repr

inductive ApiProvider
  | openai | claude | gemini | «meta» | linkedin | google | stripe | mock | instagram | twitter
deriving DecidableEq, Repr

inductive AssetType
  | image | video | document | audio | logo | icon | other
deriving DecidableEq, Repr

/-- `ApiProvider.value`. -/
def ApiProvider.value : ApiProvider → String
  | .openai => "OPENAI"
  | .claude => "CLAUDE"
  | .gemini => "GEMINI"
  | .meta => "META"
  | .linkedin => "LINKEDIN"
  | .google => "GOOGLE"
  | .stripe => "STRIPE"
  | .mock => "MOCK"
  | .instagram => "INSTAGRAM"
  | .twitter => "TWITTER"

inductive RoleType
  | system | custom
deriving DecidableEq, Repr

inductive PublishStatus
  | pending | published | failed
deriving DecidableEq, Repr

inductive JobStatus
  | pending | queued | running | retrying | completed | failed | cancelled
deriving DecidableEq, Repr

inductive JobPriority
  | low | default | high | critical
deriving DecidableEq, Repr

inductive ConnectionStatus
  | pending | connected | disconnected | error | expired
deriving DecidableEq, Repr

end MarketingSuite.Base.Values
