import MarketingSuite.Integrations.Webhooks

/-! # Signatures

What the `verify_signature` of the four webhook handlers does on every body and every header. A
handler that answers at all answers right; it fails to answer where it decodes a body that is no
UTF-8, where it compares a header that is no ASCII, and where Slack's timestamp is too large for the
clock to be subtracted from it. -/

namespace MarketingSuite.Integrations.Signatures

open MarketingSuite.Base.Values MarketingSuite.Integrations.Webhooks
open MarketingSuite.Base.Http (intOf)

/-- A call of `verify_signature`: the handler, and the headers it is given. -/
inductive Check
  | slack (signature timestamp : Option String)
  | facebook (signature : Option String)
  | instagram (signature : Option String)
  | linkedin (signature : Option String)
deriving DecidableEq, Repr

section Calls

variable (env : Env) (secret : String) (payload : ByteArray)

/-- The call, on a body. -/
def Check.verifySignature : Check → Except Exc Bool
  | .slack signature timestamp =>
    SlackWebhookHandler.verifySignature env secret payload signature timestamp
  | .facebook signature => FacebookWebhookHandler.verifySignature env secret payload signature
  | .instagram signature => InstagramWebhookHandler.verifySignature env secret payload signature
  | .linkedin signature => LinkedInWebhookHandler.verifySignature env secret payload signature

/-- A timestamp within five minutes of the clock. -/
def Recent (t : ℤ) : Prop := (env.now - seconds t).natAbs ≤ seconds (60 * 5)

instance (t : ℤ) : Decidable (Recent env t) := by unfold Recent; infer_instance

/-- The headers carry the digest of the signed bytes under the secret; for Slack the bytes are
`v0:`, the timestamp, `:` and the body, and the timestamp is a recent integer. -/
def Check.Signed : Check → Prop
  | .slack signature timestamp => ∃ text t, timestamp = some text ∧ intOf text = some t ∧
      Recent env t ∧ signature =
        some ("v0=" ++ hexdigest env secret (("v0:" ++ text ++ ":").toUTF8 ++ payload))
  | .facebook signature => signature = some ("sha256=" ++ hexdigest env secret payload)
  | .instagram signature => signature = some ("sha256=" ++ hexdigest env secret payload)
  | .linkedin signature => signature = some (hexdigest env secret payload)

/-- The call returns a boolean, which is true exactly if the headers carry the signature. -/
def Check.IsExact (c : Check) : Prop :=
  ∃ b, c.verifySignature env secret payload = .ok b ∧ (b = true ↔ c.Signed env secret payload)

/-- What the handler compares or decodes lies in the domain of the comparison and of the decoding.
Slack's gets that far only with both headers and a timestamp that is an integer. -/
def Check.InDomain : Check → Prop
  | .slack signature timestamp => ∀ s text t, signature = some s → s ≠ "" →
      timestamp = some text → intOf text = some t → overflowsFloat t = false ∧
        (Recent env t → (String.fromUTF8? payload).isSome = true ∧ isAscii s = true)
  | .facebook signature => ∀ s, signature = some s →
      "sha256=".toList.isPrefixOf s.toList = true → isAscii s = true
  | .instagram signature => ∀ s, signature = some s →
      "sha256=".toList.isPrefixOf s.toList = true → isAscii s = true
  | .linkedin signature => ∀ s, signature = some s → isAscii s = true

end Calls

variable {env : Env} {secret : String} {payload : ByteArray} {signature timestamp : Option String}
  {t : ℤ}

/-! ### Where the handlers return -/

theorem compareDigest_returns {a b : String} (ha : isAscii a = true) :
    (∃ r, compareDigest a b = .ok r) ↔ isAscii b = true := by
  unfold compareDigest
  by_cases hb : isAscii b = true
  · simp [ha, hb]
  · simp [hb]

theorem isAscii_drop {s : String} (h : "sha256=".toList.isPrefixOf s.toList = true) :
    isAscii (String.ofList (s.toList.drop 7)) = isAscii s := by
  obtain ⟨rest, hrest⟩ := List.isPrefixOf_iff_prefix.mp h
  unfold isAscii
  rw [String.toList_ofList, ← hrest]
  simp

theorem facebook_returns :
    (∃ b, FacebookWebhookHandler.verifySignature env secret payload signature = .ok b) ↔
      ∀ s, signature = some s → "sha256=".toList.isPrefixOf s.toList = true → isAscii s = true := by
  rcases signature with _ | s
  · simp [FacebookWebhookHandler.verifySignature]
  · simp only [FacebookWebhookHandler.verifySignature, Option.some.injEq, forall_eq']
    split_ifs with h
    · refine iff_of_true ⟨_, rfl⟩ fun hpre => ?_
      rcases h with rfl | h
      · rfl
      · exact absurd (hpre.symm.trans h) (by simp)
    · have hpre : "sha256=".toList.isPrefixOf s.toList = true := by
        simpa using fun hno => h (Or.inr hno)
      rw [compareDigest_returns isAscii_hexdigest, isAscii_drop hpre]
      exact ⟨fun hs _ => hs, fun hs => hs hpre⟩

theorem linkedin_returns :
    (∃ b, LinkedInWebhookHandler.verifySignature env secret payload signature = .ok b) ↔
      ∀ s, signature = some s → isAscii s = true := by
  rcases signature with _ | s
  · simp [LinkedInWebhookHandler.verifySignature]
  · simp only [LinkedInWebhookHandler.verifySignature, Option.some.injEq, forall_eq']
    split_ifs with h
    · subst h
      exact iff_of_true ⟨_, rfl⟩ rfl
    · exact compareDigest_returns isAscii_hexdigest

theorem slack_compares {s text : String} (hs : s ≠ "") (ht : intOf text = some t) :
    (∃ b, SlackWebhookHandler.verifySignature env secret payload (some s) (some text) = .ok b) ↔
      overflowsFloat t = false ∧
        (Recent env t → (String.fromUTF8? payload).isSome = true ∧ isAscii s = true) := by
  have hv0 : isAscii "v0=" = true := by decide
  have hgiven : ¬ (truthy (some s) = false ∨ truthy (some text) = false) := by
    have htext : text ≠ "" := by
      rintro rfl
      have hempty : intOf "" = none := by decide
      simp [hempty] at ht
    simp [truthy, hs, htext]
  unfold SlackWebhookHandler.verifySignature
  rw [if_neg hgiven]
  simp only [Option.getD_some, ht]
  by_cases hover : overflowsFloat t = true
  · simp [hover]
  rw [if_neg hover]
  by_cases hold : seconds (60 * 5) < (env.now - seconds t).natAbs
  · have hrecent : ¬ Recent env t := Int.not_le.mpr hold
    rw [if_pos hold]
    exact iff_of_true ⟨false, rfl⟩ ⟨by simpa using hover, fun h => absurd h hrecent⟩
  · have hrecent : Recent env t := Int.not_lt.mp hold
    rw [if_neg hold]
    cases String.fromUTF8? payload with
    | none => simp [hrecent]
    | some body =>
      rw [compareDigest_returns (isAscii_append hv0 isAscii_hexdigest)]
      simp [hover, hrecent]

theorem slack_returns :
    (∃ b, SlackWebhookHandler.verifySignature env secret payload signature timestamp = .ok b) ↔
      (Check.slack signature timestamp).InDomain env payload := by
  unfold Check.InDomain
  constructor
  · rintro hret s text t rfl hs rfl ht
    exact (slack_compares hs ht).mp hret
  · intro hdom
    by_cases hgiven : truthy signature = false ∨ truthy timestamp = false
    · exact ⟨false, by rw [SlackWebhookHandler.verifySignature, if_pos hgiven]⟩
    obtain ⟨hsig, htime⟩ := not_or.mp hgiven
    rcases signature with _ | s
    · exact absurd rfl hsig
    rcases timestamp with _ | text
    · exact absurd rfl htime
    have hs : s ≠ "" := by simpa [truthy] using hsig
    rcases ht : intOf text with _ | t
    · refine ⟨false, ?_⟩
      rw [SlackWebhookHandler.verifySignature, if_neg hgiven]
      simp only [Option.getD_some, ht]
    · exact (slack_compares hs ht).mpr (hdom s text t rfl hs rfl ht)

theorem returns_iff (c : Check) :
    (∃ b, c.verifySignature env secret payload = .ok b) ↔ c.InDomain env payload := by
  cases c with
  | slack signature timestamp => exact slack_returns
  | facebook signature => exact facebook_returns
  | instagram signature => exact facebook_returns
  | linkedin signature => exact linkedin_returns

/-! ### What the answers say -/

theorem toUTF8_of_fromUTF8? {text : String} (h : String.fromUTF8? payload = some text) :
    text.toUTF8 = payload := by
  unfold String.fromUTF8? at h
  split_ifs at h with hvalid
  rw [← Option.some.inj h]
  rfl

theorem toUTF8_base {text body : String} (h : String.fromUTF8? payload = some body) :
    ("v0:" ++ text ++ ":" ++ body).toUTF8 = ("v0:" ++ text ++ ":").toUTF8 ++ payload := by
  rw [← toUTF8_of_fromUTF8? h]
  exact String.toByteArray_append

theorem slack_true_iff (hdom : (Check.slack signature timestamp).InDomain env payload) :
    SlackWebhookHandler.verifySignature env secret payload signature timestamp = .ok true ↔
      (Check.slack signature timestamp).Signed env secret payload := by
  rw [slack_iff]
  constructor
  · rintro ⟨text, t, body, hts, ht, -, hrecent, hbody, hsig⟩
    exact ⟨text, t, hts, ht, hrecent, by rw [hsig, toUTF8_base hbody]⟩
  · rintro ⟨text, t, hts, ht, hrecent, hsig⟩
    have hne : ∀ x : String, "v0=" ++ x ≠ "" := fun x h => by
      have hlist := congrArg String.toList h
      simp at hlist
    obtain ⟨hover, hreads⟩ := hdom _ text t hsig (hne _) hts ht
    obtain ⟨body, hbody⟩ := Option.isSome_iff_exists.mp (hreads hrecent).1
    exact ⟨text, t, body, hts, ht, hover, hrecent, hbody, by rw [hsig, toUTF8_base hbody]⟩

theorem true_iff {c : Check} (hdom : c.InDomain env payload) :
    c.verifySignature env secret payload = .ok true ↔ c.Signed env secret payload := by
  cases c with
  | slack signature timestamp => exact slack_true_iff hdom
  | facebook signature => exact facebook_iff
  | instagram signature => exact facebook_iff
  | linkedin signature => exact linkedin_iff

/-- **Signature checks are total and exact** within the domains of the comparison, of the decoding
and of the conversion to a float, and nowhere else. -/
theorem exact_signature_iff (env : Env) (secret : String) (payload : ByteArray) (c : Check) :
    c.IsExact env secret payload ↔ c.InDomain env payload := by
  constructor
  · rintro ⟨b, hb, -⟩
    exact (returns_iff c).mp ⟨b, hb⟩
  · intro hdom
    obtain ⟨b, hb⟩ : ∃ b, c.verifySignature env secret payload = .ok b := (returns_iff c).mpr hdom
    have htrue : c.verifySignature env secret payload = .ok true ↔ c.Signed env secret payload :=
      true_iff hdom
    rw [hb, Except.ok.injEq] at htrue
    exact ⟨b, hb, htrue⟩

/-- **A header that is no ASCII makes the handler raise.** -/
theorem raises_on_latin_header :
    ¬ (Check.facebook (some "sha256=é")).IsExact zeroDigests "secret" .empty := by
  rintro ⟨b, hb, -⟩
  have hraise : FacebookWebhookHandler.verifySignature zeroDigests "secret" .empty
      (some "sha256=é") = .error .typeError := by decide +kernel
  exact absurd (hraise.symm.trans hb) (by simp)

end MarketingSuite.Integrations.Signatures
