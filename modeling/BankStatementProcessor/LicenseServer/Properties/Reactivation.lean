import BankStatementProcessor.LicenseServer.Interleaving

/-!
# Reactivation in parallel

The guard against reviving a refunded payment is a read; the write comes later.
`no_reactivation` — after a refund or lost dispute no activation makes the payment succeed
again or revives a revoked licence, as long as nothing of the kind falls between the two
steps of an event about the payment.
-/

namespace LicenseServer

open Infra TwoPhase

namespace WebhookMutation

/-- A refund of the payment, or a dispute the merchant lost. -/
def Terminal (pid : ℕ) : WebhookMutation → Prop
  | .refundPayment paymentId _ => paymentId = pid
  | .resolveDispute paymentId _ merchantWon => paymentId = pid ∧ merchantWon = false
  | _ => False

def ActivatesPayment (pid : ℕ) : WebhookMutation → Prop
  | .activateSubscriptionAndLicense paymentId _ _ _ _ => paymentId = pid
  | _ => False

/-- It leaves the payment in a status that activations respect. -/
def ClosesPayment (pid : ℕ) (m : WebhookMutation) : Prop :=
  m.paymentWrite = some (pid, .refunded) ∨ m.paymentWrite = some (pid, .disputed)

instance (pid : ℕ) : ∀ m, Decidable (Terminal pid m)
  | .refundPayment paymentId _ => inferInstanceAs (Decidable (paymentId = pid))
  | .resolveDispute paymentId _ merchantWon =>
    inferInstanceAs (Decidable (paymentId = pid ∧ merchantWon = false))
  | .activateSubscriptionAndLicense _ _ _ _ _ | .markPaymentFailed _
  | .updateSubscriptionStatus _ _ _ _ | .markPaymentDisputed _ _ | .none => instDecidableFalse

instance (pid : ℕ) : ∀ m, Decidable (ActivatesPayment pid m)
  | .activateSubscriptionAndLicense paymentId _ _ _ _ =>
    inferInstanceAs (Decidable (paymentId = pid))
  | .refundPayment _ _ | .resolveDispute _ _ _ | .markPaymentFailed _
  | .updateSubscriptionStatus _ _ _ _ | .markPaymentDisputed _ _ | .none => instDecidableFalse

instance (pid : ℕ) (m : WebhookMutation) : Decidable (ClosesPayment pid m) := by
  unfold ClosesPayment
  infer_instance

/-- `m` makes untrue what `m'` was read from: it closes the payment that `m'` activates or
fails, or revokes the licence that `m'` extends. -/
def Overtakes (pid : ℕ) (m m' : WebhookMutation) : Prop :=
  (m'.ActivatesPayment pid ∧
    (m.ClosesPayment pid ∨ ∃ w ∈ m'.licenseWrite, m.licenseWrite = some (w.1, .revoked))) ∨
  (m' = .markPaymentFailed pid ∧ m.ClosesPayment pid)

instance (pid : ℕ) (m m' : WebhookMutation) : Decidable (Overtakes pid m m') := by
  unfold Overtakes
  infer_instance

theorem Terminal.paymentWrite {pid : ℕ} {m : WebhookMutation} (h : m.Terminal pid) :
    m.paymentWrite = some (pid, .refunded) := by
  cases m with
  | refundPayment paymentId license =>
    cases h
    rfl
  | resolveDispute paymentId license merchantWon =>
    obtain ⟨rfl, rfl⟩ := h
    rfl
  | _ => exact h.elim

/-- No mutation makes a payment pending, and only one makes it failed. -/
theorem paymentWrite_eq {pid : ℕ} {status : PaymentStatus} {m : WebhookMutation}
    (h : m.paymentWrite = some (pid, status)) :
    status = .succeeded ∨ status = .refunded ∨ status = .disputed ∨
      (status = .failed ∧ m = .markPaymentFailed pid) := by
  cases m with
  | resolveDispute paymentId license merchantWon =>
    cases merchantWon <;> simp_all [WebhookMutation.paymentWrite]
  | _ => simp_all [WebhookMutation.paymentWrite]

end WebhookMutation

/-! ## What has to be ruled out -/

def BackToSucceeded (pid : ℕ) (db db' : Db) : Prop :=
  (∃ q ∈ db.payments.rows, q.id = pid ∧ q.status ≠ .succeeded) ∧
    ∃ q ∈ db'.payments.rows, q.id = pid ∧ q.status = .succeeded

def RevivesLicense (db db' : Db) : Prop :=
  ∃ k ∈ db.licenses.rows, k.status = .revoked ∧
    ∃ k' ∈ db'.licenses.rows, k'.id = k.id ∧ k'.status = .active

instance (pid : ℕ) (db db' : Db) : Decidable (BackToSucceeded pid db db') := by
  unfold BackToSucceeded
  infer_instance

instance (db db' : Db) : Decidable (RevivesLicense db db') := by
  unfold RevivesLicense
  infer_instance

section

variable (payloads : String → RazorpayWebhookPayload) (pid : ℕ)

/-- The step writes an activation of the payment that makes it succeed again, or a revoked
licence active again. -/
def Reactivates (c : WebhookConfig) : WebhookStep → Prop
  | .resolve _ _ => False
  | .apply e env => ∃ m ∈ (c.phase e).mutation, m.ActivatesPayment pid ∧
      (BackToSucceeded pid c.store ((webhooks payloads).step c (.apply e env)).store ∨
        RevivesLicense c.store ((webhooks payloads).step c (.apply e env)).store)

instance (c : WebhookConfig) : ∀ st, Decidable (Reactivates payloads pid c st)
  | .resolve _ _ => instDecidableFalse
  | .apply e env => inferInstanceAs (Decidable (∃ m ∈ (c.phase e).mutation, m.ActivatesPayment pid ∧
      (BackToSucceeded pid c.store ((webhooks payloads).step c (.apply e env)).store ∨
        RevivesLicense c.store ((webhooks payloads).step c (.apply e env)).store)))

/-- Event `e` is about to apply a refund or lost dispute of the payment. -/
def AppliesTerminal (c : WebhookConfig) (e : String) (env : CallEnv) : Prop :=
  ∃ m ∈ (c.phase e).mutation, m.Terminal pid ∧
    (claimAndApply c.store env.txNow (newEvent e (payloads e)) m).map Prod.fst = .ok .applied

instance (c : WebhookConfig) (e : String) (env : CallEnv) :
    Decidable (AppliesTerminal payloads pid c e env) := by
  unfold AppliesTerminal
  infer_instance

end

/-! ## What holds after the refund -/

/-- The payment is settled: it is refunded, disputed or succeeded. -/
def Decided (pid : ℕ) (db : Db) : Prop :=
  ∀ q ∈ db.payments.rows, q.id = pid → q.status ≠ .pending ∧ q.status ≠ .failed

/-- What an activation of the payment was read from. No failure of it is in flight. -/
structure ReadStillHolds (pid : ℕ) (db : Db) (m : WebhookMutation) : Prop where
  succeeded : m.ActivatesPayment pid → ∀ q ∈ db.payments.rows, q.id = pid → q.status = .succeeded
  live : m.ActivatesPayment pid → ∀ w ∈ m.licenseWrite, ∀ k ∈ db.licenses.rows, k.id = w.1 → k.Live
  not_failed : m ≠ .markPaymentFailed pid

section

variable {payloads : String → RazorpayWebhookPayload} {pid : ℕ} {db : Db} {e : String}
  {env : CallEnv} {m m' : WebhookMutation}

theorem readStillHolds_of_resolve (h : Decided pid db)
    (hres : (webhooks payloads).resolve db e env = some m) : ReadStillHolds pid db m := by
  cases resolution_of_resolve hres with
  | ignored => exact ⟨fun h => h.elim, fun h => h.elim, by simp⟩
  | @acts s p event howns hev haccepted =>
    refine ⟨?_, ?_, ?_⟩
    · intro hact q hq hid
      cases event with
      | captured g e =>
        obtain rfl : q = p := db.payments.eq_of_key hq howns.payment (hid.trans hact.symm)
        have hdecided := h q hq hid
        have hopen : ¬ (q.status = .refunded ∨ q.status = .disputed) := haccepted
        cases hstatus : q.status <;> simp_all
      | _ => exact hact.elim
    · intro _ w hw k hk hid
      obtain ⟨l, status⟩ := w
      obtain ⟨k', hfind, hk'⟩ := findLatest_of_licenseWrite hw
      obtain ⟨hmem, -, hlive⟩ := Db.mem_of_findLatestBySubscription hfind
      rw [db.licenses.eq_of_key hk hmem (hid.trans hk'.symm)]
      exact hlive
    · intro hfailed
      cases event with
      | failed =>
        cases hfailed
        exact haccepted (fun hpending => (h p howns.payment rfl).1 hpending)
      | _ => cases hfailed

theorem decided_apply (h : Decided pid db) (hm : ReadStillHolds pid db m) :
    Decided pid ((webhooks payloads).apply db e m env) := by
  rcases apply_cases payloads db e m env with hsame | ⟨hp, -⟩
  · rw [hsame]
    exact h
  · intro q' hq' hid
    obtain ⟨q, hq, hqid, hstatus⟩ := hp q' hq'
    have hold := h q hq (hqid.trans hid)
    rw [hstatus]
    cases hw : m.paymentWrite with
    | none => exact hold
    | some w =>
      obtain ⟨i, status⟩ := w
      rw [written_some]
      split
      · next hi =>
        rcases WebhookMutation.paymentWrite_eq hw with rfl | rfl | rfl | ⟨rfl, rfl⟩
        · simp
        · simp
        · simp
        · exact absurd (by rw [← hi, hqid, hid]) hm.not_failed
      · exact hold

/-- A write that does not overtake `m'` leaves what `m'` was read from. -/
theorem readStillHolds_apply (hm : ReadStillHolds pid db m) (h' : ReadStillHolds pid db m')
    (hover : ¬ m.Overtakes pid m') :
    ReadStillHolds pid ((webhooks payloads).apply db e m env) m' := by
  rcases apply_cases payloads db e m env with hsame | ⟨hp, hl⟩
  · rw [hsame]
    exact h'
  · refine ⟨?_, ?_, h'.not_failed⟩
    · intro hact q' hq' hid
      obtain ⟨q, hq, hqid, hstatus⟩ := hp q' hq'
      have hold := h'.succeeded hact q hq (hqid.trans hid)
      rw [hstatus]
      cases hw : m.paymentWrite with
      | none => exact hold
      | some w =>
        obtain ⟨i, status⟩ := w
        rw [written_some]
        split
        · next hi =>
          -- `m` writes the payment that `m'` activates, and leaves it succeeded
          have hpid : i = pid := by rw [← hi, hqid, hid]
          subst hpid
          rcases WebhookMutation.paymentWrite_eq hw with rfl | rfl | rfl | ⟨-, hfailed⟩
          · rfl
          · exact absurd (Or.inl ⟨hact, Or.inl (Or.inl hw)⟩) hover
          · exact absurd (Or.inl ⟨hact, Or.inl (Or.inr hw)⟩) hover
          · exact absurd hfailed hm.not_failed
        · exact hold
    · intro hact w hw k' hk' hid
      rcases hl.row k' hk' with ⟨k, hk, hkid, -, hstatus⟩ | ⟨-, -, hactive⟩
      · have hold : k.Live := h'.live hact w hw k hk (hkid.trans hid)
        unfold License.Live
        rw [hstatus]
        cases hmw : m.licenseWrite with
        | none => exact hold
        | some v =>
          obtain ⟨i, status⟩ := v
          rw [written_some]
          split
          · next hi =>
            -- `m` writes the licence that `m'` extends, and does not revoke it
            rintro rfl
            refine hover (Or.inl ⟨hact, Or.inr ⟨w, hw, ?_⟩⟩)
            rw [hmw, ← hi, hkid, hid]
          · exact hold
      · simp [License.Live, hactive]

/-- An activation of which `ReadStillHolds` reactivates nothing. -/
theorem not_reactivates {c : WebhookConfig} {st : WebhookStep}
    (h : ∀ e env, st = .apply e env → ∀ m, c.phase e = .inFlight m → ReadStillHolds pid c.store m) :
    ¬ Reactivates payloads pid c st := by
  cases st with
  | resolve e env => exact id
  | apply e env =>
    rintro ⟨m, hm, hact, hback⟩
    rw [Option.mem_def, Phase.mutation_eq_some] at hm
    have hold := h e env rfl m hm
    rw [step_apply_inFlight hm] at hback
    -- the payment had succeeded already, and the licence was not revoked
    rcases hback with ⟨⟨q, hq, hid, hne⟩, -⟩ | ⟨k, hk, hrevoked, k', hk', hid, hactive⟩
    · exact hne (hold.succeeded hact q hq hid)
    · rcases apply_cases payloads c.store e m env with hsame | ⟨-, hl⟩
      · rw [hsame] at hk'
        rw [c.store.licenses.eq_of_key hk' hk hid, hrevoked] at hactive
        cases hactive
      · rcases hl.row k' hk' with ⟨k₀, hk₀, hkid, -, hstatus⟩ | ⟨hnext, -⟩
        · obtain rfl : k₀ = k := c.store.licenses.eq_of_key hk₀ hk (hkid.trans hid)
          rw [hactive] at hstatus
          cases hw : m.licenseWrite with
          | none =>
            rw [hw] at hstatus
            exact absurd (hstatus.trans hrevoked) (by simp)
          | some w =>
            obtain ⟨i, status⟩ := w
            rw [hw, written_some] at hstatus
            split at hstatus
            · next hi => exact hold.live hact _ hw k₀ hk₀ hi hrevoked
            · exact absurd (hstatus.trans hrevoked) (by simp)
        · have := c.store.licenses.below k hk
          omega

end

/--
**After a refund or lost dispute of a payment has been applied, no activation of the payment
reactivates anything**, in every schedule in which, from there on, no write closes the payment
or revokes its licence between the two steps of an event that would activate or fail it.
-/
theorem no_reactivation (payloads : String → RazorpayWebhookPayload) (pid : ℕ) (db : Db)
    (pre post : List WebhookStep) (e : String) (env : CallEnv)
    (hterminal : AppliesTerminal payloads pid (run (webhooks payloads).step (start db) pre) e env)
    (hundisturbed : Undisturbed (webhooks payloads) (fun _ => WebhookMutation.Overtakes pid)
      (run (webhooks payloads).step (start db) pre) (.apply e env :: post)) :
    EveryStep (webhooks payloads).step (fun c st => ¬ Reactivates payloads pid c st)
      (run (webhooks payloads).step (start db) (pre ++ [.apply e env])) post := by
  rw [run_append, run_cons, run_nil]
  generalize run (webhooks payloads).step (start db) pre = c at *
  obtain ⟨m, hm, hterm, happlied⟩ := hterminal
  rw [Option.mem_def, Phase.mutation_eq_some] at hm
  have hsettled : Settled (Decided pid) (ReadStillHolds pid)
      ((webhooks payloads).step c (.apply e env)) post := by
    constructor
    · -- the terminal write leaves the payment refunded
      have hafter : PaymentsAfter m.paymentWrite c.store
          ((webhooks payloads).apply c.store e m env) := by
        cases hclaim : claimAndApply c.store env.txNow (newEvent e (payloads e)) m with
        | error err =>
          rw [hclaim] at happlied
          cases happlied
        | ok r =>
          obtain ⟨outcome, db'⟩ := r
          rw [hclaim] at happlied
          obtain rfl : outcome = .applied := Except.ok.inj happlied
          have := (after_of_applied hclaim).1
          simpa only [webhooks, hclaim] using this
      rw [step_apply_inFlight hm]
      intro q' hq' hid
      obtain ⟨q, -, hqid, hstatus⟩ := hafter q' hq'
      rw [hterm.paymentWrite, written_some, if_pos (hqid.trans hid)] at hstatus
      simp [hstatus]
    · -- an event that the terminal write overtakes is not written any more
      intro e' he' m' hm'
      obtain ⟨hflight, hne⟩ := inFlight_of_apply hm'
      have hover := hundisturbed.1 m (by simp [hm]) e' he' (hne ⟨m, hm⟩) m' (by simp [hflight])
      have hcloses : m.ClosesPayment pid := Or.inl hterm.paymentWrite
      have hnot : ¬ m'.ActivatesPayment pid := fun hact => hover (Or.inl ⟨hact, Or.inl hcloses⟩)
      exact ⟨fun hact => absurd hact hnot, fun hact => absurd hact hnot,
        fun hfailed => hover (Or.inr ⟨hfailed, hcloses⟩)⟩
  rw [everyStep_iff]
  rintro mid st rest rfl
  have hmid : Settled (Decided pid) (ReadStillHolds pid)
      (run (webhooks payloads).step ((webhooks payloads).step c (.apply e env)) mid)
      (st :: rest) := by
    refine settled_run ?_ ?_ ?_ hsettled hundisturbed.2
    · exact fun _ _ _ _ hI hres => readStillHolds_of_resolve hI hres
    · exact fun _ _ _ _ hI hm => decided_apply hI hm
    · exact fun _ _ _ _ _ _ hm hm' hover => readStillHolds_apply hm hm' hover
  refine not_reactivates ?_
  rintro e' env' rfl m' hm'
  exact hmid.2 e' (by simp) m' hm'

/-- The charge is applied, and its refund is resolved. -/
def refundResolved : List WebhookStep :=
  [.resolve "evt_activated" (sampleEnv 1), .apply "evt_activated" (sampleEnv 1),
   .resolve "evt_refund" (sampleEnv 2)]

theorem redelivery_after_refund :
    EveryStep (webhooks samplePayloads).step (fun c st => ¬ Reactivates samplePayloads 1 c st)
      (run (webhooks samplePayloads).step (start sampleDb)
        (refundResolved ++ [.apply "evt_refund" (sampleEnv 2)]))
      [.resolve "evt_charged" (sampleEnv 3), .apply "evt_charged" (sampleEnv 3)] :=
  no_reactivation samplePayloads 1 sampleDb refundResolved _ "evt_refund" (sampleEnv 2) (by decide)
    (by decide)

/-- A redelivery that was resolved before the refund is applied after it. -/
theorem reactivated_by_overtaken_redelivery :
    ¬ ∀ payloads pid db pre post e env,
      AppliesTerminal payloads pid (run (webhooks payloads).step (start db) pre) e env →
      EveryStep (webhooks payloads).step (fun c st => ¬ Reactivates payloads pid c st)
        (run (webhooks payloads).step (start db) (pre ++ [.apply e env])) post := by
  intro h
  have hrun := h samplePayloads 1 sampleDb
    (.resolve "evt_activated" (sampleEnv 1) :: .apply "evt_activated" (sampleEnv 1) ::
      [.resolve "evt_charged" (sampleEnv 2), .resolve "evt_refund" (sampleEnv 2)])
    [.apply "evt_charged" (sampleEnv 3)] "evt_refund" (sampleEnv 2) (by decide)
  exact absurd hrun (by decide)

end LicenseServer
