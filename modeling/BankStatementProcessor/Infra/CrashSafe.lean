import BankStatementProcessor.Infra.StateMachine

/-!
# Scripts that may be cut off

A script is a list of steps, each of which is done whole or not at all. An attempt to run it may
crash after any number of steps, and the next attempt starts again with the script it finds
then.

A script in stages is run from the first stage that is not recorded as done, after some steps
that every attempt makes. It survives a crash inside a stage if the steps made so far change
nothing when they are made again. `Resumable` collects what has to be shown of each stage, and
`Resumable.run` gives what then holds after any number of attempts.
-/

namespace Infra

variable {σ α : Type*}

/-- Run a script to its end. -/
def execAll (exec : α → σ → Option σ) (as : List α) (s : σ) : Option σ :=
  as.foldlM (fun s a => exec a s) s

inductive Outcome (σ : Type*)
  | crashed (s : σ)
  | failed (s : σ)
  | completed (s : σ)

def Outcome.state : Outcome σ → σ
  | crashed s => s
  | failed s => s
  | completed s => s

/-- Run a script that crashes after `crash` steps, if that many are made. -/
def attempt (exec : α → σ → Option σ) : List α → Option ℕ → σ → Outcome σ
  | [], _, s => .completed s
  | _ :: _, some 0, s => .crashed s
  | a :: as, crash, s =>
    match exec a s with
    | none => .failed s
    | some s' => attempt exec as (crash.map Nat.pred) s'

section

variable {exec : α → σ → Option σ} {s s' final : σ} {a : α} {as bs : List α} {n : ℕ}

@[simp] theorem execAll_nil : execAll exec [] s = some s := rfl

@[simp] theorem execAll_cons : execAll exec (a :: as) s = (exec a s).bind (execAll exec as) := rfl

theorem execAll_append :
    execAll exec (as ++ bs) s = (execAll exec as s).bind (execAll exec bs) := by
  induction as generalizing s with
  | nil => rfl
  | cons a as ih =>
    rw [List.cons_append, execAll_cons, execAll_cons, Option.bind_assoc]
    congr 1
    funext s'
    exact ih

/-- A script whose steps change nothing changes nothing. -/
theorem execAll_of_settled (h : ∀ a ∈ as, exec a s = some s) : execAll exec as s = some s := by
  induction as with
  | nil => rfl
  | cons a as ih =>
    rw [execAll_cons, h a List.mem_cons_self, Option.bind_some]
    exact ih fun a' ha' => h a' (List.mem_cons_of_mem _ ha')

/-- Where the steps made so far change nothing the script goes on as if it had not been cut. -/
theorem execAll_resume (h : execAll exec (as.take n) s = some s')
    (hagain : execAll exec (as.take n) s' = some s') :
    execAll exec as s' = execAll exec as s := by
  rw [← List.take_append_drop n as, execAll_append, execAll_append, h, hagain]

/-- An attempt that is not cut off runs the script. -/
theorem attempt_none (h : execAll exec as s = some final) :
    attempt exec as none s = .completed final := by
  induction as generalizing s with
  | nil => rw [← Option.some.inj h]; rfl
  | cons a as ih =>
    rw [execAll_cons] at h
    obtain ⟨s₁, hstep, hrest⟩ := Option.bind_eq_some_iff.mp h
    rw [attempt, hstep]
    · exact ih hrest
    · simp

/-- An attempt fails at the first step that fails. -/
theorem attempt_failed (h : execAll exec as s = some s') (ha : exec a s' = none) :
    attempt exec (as ++ a :: bs) none s = .failed s' := by
  induction as generalizing s with
  | nil =>
    rw [← Option.some.inj h] at ha ⊢
    rw [List.nil_append, attempt, ha]
    simp
  | cons b as ih =>
    rw [execAll_cons] at h
    obtain ⟨s₁, hstep, hrest⟩ := Option.bind_eq_some_iff.mp h
    rw [List.cons_append, attempt, hstep]
    · exact ih hrest
    · simp

/-- What an attempt leaves is what the steps made have led to. -/
theorem attempt_state (h : execAll exec as s = some final) (crash : Option ℕ) :
    execAll exec (as.take (crash.getD as.length)) s = some (attempt exec as crash s).state := by
  cases crash with
  | none => rw [Option.getD_none, List.take_length, h, attempt_none h]; rfl
  | some n =>
    rw [Option.getD_some]
    induction as generalizing s n with
    | nil => rw [List.take_nil]; rfl
    | cons a as ih =>
      cases n with
      | zero => rfl
      | succ n =>
        rw [execAll_cons] at h
        obtain ⟨s₁, hstep, hrest⟩ := Option.bind_eq_some_iff.mp h
        rw [List.take_succ_cons, execAll_cons, hstep, Option.bind_some, attempt, hstep]
        · exact ih hrest n
        · simp

end

/-! ## Scripts in stages -/

/-- The crash does not come right after a step of the bad kind. -/
def SafeCrash (bad : α → Bool) (as : List α) (n : ℕ) : Prop :=
  ∀ a ∈ (as.take n).getLast?, bad a = false

/-- What is to be shown of each stage. `pre` are the steps every attempt makes first. -/
structure Resumable (exec : α → σ → Option σ) (bad : α → Bool) (pre : List α)
    (stages : List (List α)) (script : σ → List α) (Stage : ℕ → σ → Prop) : Prop where
  le_length : ∀ {k s}, Stage k s → k ≤ stages.length
  script_eq : ∀ {k s}, Stage k s → script s = (stages.drop k).flatten
  settled : ∀ {k s}, Stage k s → ∀ a ∈ pre, exec a s = some s
  again : ∀ {n s s'}, execAll exec (pre.take n) s = some s' →
    execAll exec (pre.take n) s' = some s'
  done : ∀ {k s stage}, Stage k s → stages[k]? = some stage →
    ∃ s', execAll exec stage s = some s' ∧ Stage (k + 1) s'
  inside : ∀ {k s stage n}, Stage k s → stages[k]? = some stage → n < stage.length →
    SafeCrash bad stage n → ∃ s', execAll exec (stage.take n) s = some s' ∧ Stage k s' ∧
      execAll exec (stage.take n) s' = some s'

namespace Resumable

variable {exec : α → σ → Option σ} {bad : α → Bool} {pre : List α} {stages : List (List α)}
  {script : σ → List α} {Stage : ℕ → σ → Prop} {s final : σ}

/-- From every stage the script can be run to its end. -/
theorem exists_final (h : Resumable exec bad pre stages script Stage) {k : ℕ} (hs : Stage k s) :
    ∃ final, execAll exec (stages.drop k).flatten s = some final ∧ Stage stages.length final := by
  generalize hrest : stages.drop k = rest
  induction rest generalizing k s with
  | nil =>
    rw [List.drop_eq_nil_iff] at hrest
    have hle := h.le_length hs
    obtain rfl : k = stages.length := by omega
    exact ⟨s, rfl, hs⟩
  | cons stage rest ih =>
    have hget : stages[k]? = some stage := by
      rw [← List.head?_drop, hrest, List.head?_cons]
    have hdrop : stages.drop (k + 1) = rest := by
      rw [← List.tail_drop, hrest, List.tail_cons]
    obtain ⟨s', hexec, hs'⟩ := h.done hs hget
    obtain ⟨final, hfinal, hstage⟩ := ih hs' hdrop
    refine ⟨final, ?_, hstage⟩
    rw [List.flatten_cons, execAll_append, hexec, Option.bind_some, hfinal]

/-- A crash on the way leaves a stage from which the script leads to the same end. -/
theorem exists_stage (h : Resumable exec bad pre stages script Stage) {k n : ℕ} (hs : Stage k s)
    (hsafe : SafeCrash bad (stages.drop k).flatten n) :
    ∃ k' s', execAll exec ((stages.drop k).flatten.take n) s = some s' ∧ Stage k' s' ∧
      execAll exec (stages.drop k').flatten s' = execAll exec (stages.drop k).flatten s := by
  generalize hrest : stages.drop k = rest at hsafe ⊢
  induction rest generalizing k s n with
  | nil => exact ⟨k, s, by simp, hs, by rw [hrest]⟩
  | cons stage rest ih =>
    have hget : stages[k]? = some stage := by
      rw [← List.head?_drop, hrest, List.head?_cons]
    have hdrop : stages.drop (k + 1) = rest := by
      rw [← List.tail_drop, hrest, List.tail_cons]
    rw [List.flatten_cons] at hsafe ⊢
    by_cases hn : n < stage.length
    · -- the crash comes inside the stage
      have htake : (stage ++ rest.flatten).take n = stage.take n :=
        List.take_append_of_le_length (Nat.le_of_lt hn)
      rw [SafeCrash, htake] at hsafe
      obtain ⟨s', hexec, hs', hagain⟩ := h.inside hs hget hn hsafe
      refine ⟨k, s', by rw [htake, hexec], hs', ?_⟩
      rw [hrest, List.flatten_cons]
      exact execAll_resume (by rw [htake, hexec]) (by rw [htake, hagain])
    · obtain ⟨s₁, hexec, hs₁⟩ := h.done hs hget
      have htake : (stage ++ rest.flatten).take n =
          stage ++ rest.flatten.take (n - stage.length) := by
        rw [List.take_append, List.take_of_length_le (by omega)]
      have hsafe' : SafeCrash bad rest.flatten (n - stage.length) := by
        intro a ha
        refine hsafe a ?_
        rw [htake, List.getLast?_append, Option.mem_def.mp ha]
        rfl
      obtain ⟨k', s', hexec', hs', hsame⟩ := ih hs₁ hdrop hsafe'
      refine ⟨k', s', ?_, hs', ?_⟩
      · rw [htake, execAll_append, hexec, Option.bind_some, hexec']
      · rw [hsame, execAll_append, hexec, Option.bind_some]

/-- The steps that every attempt makes lead to a stage from which the script ends in `final`. -/
def LeadsTo (exec : α → σ → Option σ) (pre : List α) (stages : List (List α))
    (Stage : ℕ → σ → Prop) (final s : σ) : Prop :=
  ∃ k s₀, execAll exec pre s = some s₀ ∧ Stage k s₀ ∧
    execAll exec (stages.drop k).flatten s₀ = some final

/-- The steps of an attempt; the script is read after the first steps. -/
def steps (exec : α → σ → Option σ) (pre : List α) (script : σ → List α) (s : σ) : List α :=
  pre ++ script ((execAll exec pre s).getD s)

theorem LeadsTo.execAll (h : Resumable exec bad pre stages script Stage)
    (hs : LeadsTo exec pre stages Stage final s) :
    execAll exec (steps exec pre script s) s = some final := by
  obtain ⟨k, s₀, hpre, hstage, hfinal⟩ := hs
  rw [steps, hpre, Option.getD_some, h.script_eq hstage, execAll_append, hpre, Option.bind_some,
    hfinal]

/-- A crash that is safe leads to the same end. -/
theorem LeadsTo.attempt (h : Resumable exec bad pre stages script Stage)
    (hs : LeadsTo exec pre stages Stage final s) {crash : Option ℕ}
    (hsafe : ∀ n ∈ crash, SafeCrash bad (steps exec pre script s) n) :
    LeadsTo exec pre stages Stage final (attempt exec (steps exec pre script s) crash s).state := by
  have hstate := attempt_state (hs.execAll h) crash
  generalize (Infra.attempt exec (steps exec pre script s) crash s).state = s' at hstate ⊢
  have hall := hs.execAll h
  obtain ⟨k, s₀, hpre, hstage, hfinal⟩ := hs
  have hsteps : steps exec pre script s = pre ++ (stages.drop k).flatten := by
    rw [steps, hpre, Option.getD_some, h.script_eq hstage]
  rw [hsteps] at hstate hsafe hall
  cases crash with
  | none =>
    -- nothing was cut off, so everything is done
    rw [Option.getD_none, List.take_length, hall, Option.some.injEq] at hstate
    rw [← hstate]
    obtain ⟨final', hfinal', hdone⟩ := h.exists_final hstage
    rw [hfinal, Option.some.injEq] at hfinal'
    rw [← hfinal'] at hdone
    refine ⟨stages.length, final, execAll_of_settled (h.settled hdone), hdone, ?_⟩
    rw [List.drop_length]
    rfl
  | some n =>
    rw [Option.getD_some] at hstate
    by_cases hn : n < pre.length
    · have htake : (pre ++ (stages.drop k).flatten).take n = pre.take n :=
        List.take_append_of_le_length (Nat.le_of_lt hn)
      rw [htake] at hstate
      exact ⟨k, s₀, (execAll_resume hstate (h.again hstate)).trans hpre, hstage, hfinal⟩
    · have htake : (pre ++ (stages.drop k).flatten).take n =
          pre ++ (stages.drop k).flatten.take (n - pre.length) := by
        rw [List.take_append, List.take_of_length_le (by omega)]
      have hsafe' : SafeCrash bad (stages.drop k).flatten (n - pre.length) := by
        intro a ha
        refine hsafe n rfl a ?_
        rw [htake, List.getLast?_append, Option.mem_def.mp ha]
        rfl
      obtain ⟨k', s₁, hexec, hs₁, hsame⟩ := h.exists_stage hstage hsafe'
      rw [htake, execAll_append, hpre, Option.bind_some, hexec, Option.some.injEq] at hstate
      rw [← hstate]
      exact ⟨k', s₁, execAll_of_settled (h.settled hs₁), hs₁, hsame.trans hfinal⟩

end Resumable

end Infra
