import BankStatementProcessor.LicenseServer.Webhooks

/-!
# Signed webhooks

* `only_signed_calls_count` — what a run of webhook calls does to the database is done by those
  that carry the signature of their body, in their order
* `event_has_effect_once` — an event that was acknowledged is acknowledged for good, and has no
  further effect
-/

namespace LicenseServer

open Infra

/-! ## The ledger -/

section

variable {db db' : Db} {d : Delivery} {eventId : String}

theorem applyMutation_events {now : Timestamp} {m : WebhookMutation}
    (h : applyMutation db now m = .ok db') :
    db'.paymentWebhookEvents = db.paymentWebhookEvents := by
  cases m with
  | none | markPaymentFailed =>
    cases h
    rfl
  | updateSubscriptionStatus subscriptionId status e license =>
    cases license <;> cases h <;> rfl
  | refundPayment paymentId license | markPaymentDisputed paymentId license
  | resolveDispute paymentId license merchantWon =>
    cases license <;> cases h <;> rfl
  | activateSubscriptionAndLicense paymentId subscriptionId e license g =>
    obtain ⟨db₁, hact, hlicense⟩ := applyMutation_activate_eq_ok h
    have hevents : db₁.paymentWebhookEvents = db.paymentWebhookEvents := by
      unfold Db.activatePayment at hact
      split at hact
      · cases hact
      · cases hact
        rfl
    rcases hlicense with ⟨licenseId, rfl, rfl⟩ | ⟨licenseKey, maxDevices, days, rfl, hinsert⟩
    · exact hevents
    · unfold Db.insertLicense at hinsert
      split at hinsert
      · split at hinsert
        · cases hinsert
          exact hevents
        · cases hinsert
      · cases hinsert

theorem claim_eq_some {now : Timestamp} {new : NewPaymentWebhookEvent}
    (h : db.claim now new = some db') : ∃ e, e.provider = new.provider ∧ e.eventId = new.eventId ∧
      db'.paymentWebhookEvents.rows = db.paymentWebhookEvents.rows ++ [e] := by
  unfold Db.claim at h
  split at h
  · cases h
  · cases h
    exact ⟨⟨_, _, _, _, _, _⟩, rfl, rfl, rfl⟩

/-- An event that is known stays known. -/
theorem EventProcessed.deliver (h : db.EventProcessed provider eventId) :
    (deliver db d).EventProcessed provider eventId := by
  by_cases hcommits : Commits db d
  · obtain ⟨m, c, db', hm, hclaim, happly⟩ := hcommits
    rw [deliver_eq hm hclaim happly]
    obtain ⟨e, he, heq⟩ := h
    obtain ⟨e', -, -, hrows⟩ := claim_eq_some hclaim
    refine ⟨e, ?_, heq⟩
    rw [applyMutation_events happly, hrows]
    exact List.mem_append_left _ he
  · rwa [deliver_of_not_commits hcommits]

/-- A delivery that commits makes its event known. -/
theorem Commits.eventProcessed (h : Commits db d) :
    (deliver db d).EventProcessed provider d.eventId := by
  obtain ⟨m, c, db', hm, hclaim, happly⟩ := h
  rw [deliver_eq hm hclaim happly]
  obtain ⟨e, hprovider, hid, hrows⟩ := claim_eq_some hclaim
  refine ⟨e, ?_, hprovider, hid⟩
  rw [applyMutation_events happly, hrows]
  exact List.mem_append_right _ List.mem_cons_self

end

/-! ## Runs of webhook calls -/

section

variable {lib : WebhookLib} {secret : Option String} {db : Db} {c c' : WebhookCall}
  {d d' : Delivery}

/-- **Only signed calls count.** Whoever else calls the webhook, and however often, the database is
what the events of the signed calls make of it. -/
theorem only_signed_calls_count (lib : WebhookLib) (secret : Option String) (db : Db)
    (calls : List WebhookCall) :
    run (serveWebhook lib secret) db calls =
      run deliver db (calls.filterMap (·.delivery? lib secret)) := by
  induction calls generalizing db with
  | nil => rfl
  | cons call calls ih =>
    rw [run_cons, ih]
    cases hdelivery : call.delivery? lib secret with
    | none =>
      rw [List.filterMap_cons_none hdelivery, serveWebhook_of_not_isDelivery]
      intro d hd
      rw [delivery?_eq_some.mpr hd] at hdelivery
      cases hdelivery
    | some d =>
      rw [List.filterMap_cons_some hdelivery, run_cons,
        serveWebhook_of_isDelivery (delivery?_eq_some.mp hdelivery)]

theorem eventProcessed_run {eventId : String} (h : db.EventProcessed provider eventId)
    (calls : List WebhookCall) :
    (run (serveWebhook lib secret) db calls).EventProcessed provider eventId := by
  refine invariant_run (I := fun db : Db => db.EventProcessed provider eventId)
    (fun db call h => ?_) calls h
  by_cases hdelivery : ∃ d, call.IsDelivery lib secret d
  · obtain ⟨d, hd⟩ := hdelivery
    rw [serveWebhook_of_isDelivery hd]
    exact EventProcessed.deliver h
  · rwa [serveWebhook_of_not_isDelivery (not_exists.mp hdelivery)]

theorem webhook_ok_iff (h : c.IsDelivery lib secret d) : (webhook lib secret db c).1 = .ok () ↔
    db.EventProcessed provider d.eventId ∨ Commits db d := by
  rw [webhook_of_isDelivery h, ← processWebhookEvent_eq_ok]
  cases (processWebhookEvent db d.env d.eventId d.payload).1 with
  | error e => simp [Except.mapError]
  | ok u => simp [Except.mapError]

/-- **An event has its effect once.** A call that is not acknowledged has changed nothing, so that
it can be sent again. Once it is acknowledged, every later call with the same event id is
acknowledged too, and changes nothing. -/
theorem event_has_effect_once (pre mid : List WebhookCall) (hd : c.IsDelivery lib secret d)
    (hd' : c'.IsDelivery lib secret d') (hid : d'.eventId = d.eventId) :
    ((webhook lib secret (run (serveWebhook lib secret) db pre) c).1 ≠ .ok () →
        run (serveWebhook lib secret) db (pre ++ [c]) = run (serveWebhook lib secret) db pre) ∧
      ((webhook lib secret (run (serveWebhook lib secret) db pre) c).1 = .ok () →
        webhook lib secret (run (serveWebhook lib secret) db (pre ++ c :: mid)) c' =
          (.ok (), run (serveWebhook lib secret) db (pre ++ c :: mid))) := by
  rw [run_append, run_append, run_cons, run_cons, run_nil, serveWebhook_of_isDelivery hd,
    ne_eq, webhook_ok_iff hd]
  generalize run (serveWebhook lib secret) db pre = db₁
  constructor
  · intro hfails
    exact deliver_of_not_commits fun hcommits => hfails (Or.inr hcommits)
  · intro hok
    have hknown : (deliver db₁ d).EventProcessed provider d.eventId := by
      rcases hok with hknown | hcommits
      · exact EventProcessed.deliver hknown
      · exact hcommits.eventProcessed
    have hlater : (run (serveWebhook lib secret) (deliver db₁ d) mid).EventProcessed _ _ :=
      eventProcessed_run hknown mid
    rw [← hid] at hlater
    generalize run (serveWebhook lib secret) (deliver db₁ d) mid = db₂ at hlater ⊢
    have hsame : deliver db₂ d' = db₂ :=
      deliver_of_not_commits fun hcommits => hcommits.not_processed hlater
    refine Prod.ext ((webhook_ok_iff hd').mpr (Or.inl hlater)) ?_
    rw [webhook_of_isDelivery hd', hsame]

/-- Stands for the hash functions and the JSON reader. -/
def sampleWebhookLib : WebhookLib where
  hmacSha256 key message := key ++ message
  sha256 bytes := bytes
  fromUtf8Lossy _ := ""
  payloadFromSlice _ := .ok ⟨"invoice.paid", .null⟩

def sampleBody : List UInt8 := asBytes "\x7b\x7d".toList

def sampleWebhookCall : WebhookCall where
  env := sampleEnv 1
  signature := some (String.ofList (Hex.encode (asBytes "key".toList ++ sampleBody)))
  eventId := some "evt_1"
  body := sampleBody

theorem isDelivery_sampleWebhookCall : sampleWebhookCall.IsDelivery sampleWebhookLib (some "key")
    ⟨sampleEnv 1, "evt_1", ⟨"invoice.paid", .null⟩⟩ := by
  refine ⟨⟨"key", rfl, _, rfl, ?_⟩, _, rfl, rfl⟩
  rw [String.toList_ofList]
  exact Hex.isHexOf_encode _

/-- An event that is sent again is acknowledged. -/
theorem sample_is_acknowledged_again :
    webhook sampleWebhookLib (some "key") (run (serveWebhook sampleWebhookLib (some "key")) .empty
        [sampleWebhookCall]) sampleWebhookCall =
      (.ok (), run (serveWebhook sampleWebhookLib (some "key")) .empty [sampleWebhookCall]) := by
  have hok : (webhook sampleWebhookLib (some "key") .empty sampleWebhookCall).1 = .ok () := by
    decide +kernel
  exact (event_has_effect_once [] [] isDelivery_sampleWebhookCall isDelivery_sampleWebhookCall
    rfl).2 hok

end

end LicenseServer
