import Mathlib.Data.List.Basic

/-!
# Runs of a state machine

A machine is its step function. `EveryStep` says something about each step of a run, in
terms of the state the step starts from, which is how a property "no later step does X" and
a condition "no step may do Y" are both written.

`invariant_run` is the induction over a run. `EveryStep.of_invariant` goes from an invariant
that holds under a condition to a property of every step.
-/

namespace Infra

variable {σ α τ β : Type*}

def run (step : σ → α → σ) (s : σ) (as : List α) : σ := as.foldl step s

variable {step : σ → α → σ}

@[simp] theorem run_nil (s : σ) : run step s [] = s := rfl

@[simp] theorem run_cons (s : σ) (a : α) (as : List α) :
    run step s (a :: as) = run step (step s a) as := rfl

theorem run_append (s : σ) (as bs : List α) :
    run step s (as ++ bs) = run step (run step s as) bs :=
  List.foldl_append

/-- The machine that remembers what it has read. -/
theorem run_snoc (s as : List α) : run (fun s a => s ++ [a]) s as = s ++ as := by
  induction as generalizing s with
  | nil => rw [run_nil, List.append_nil]
  | cons a as ih => rw [run_cons, ih, List.append_assoc, List.singleton_append]

/-- `P` holds of each step of the run, taken with the state it starts from. -/
def EveryStep (step : σ → α → σ) (P : σ → α → Prop) : σ → List α → Prop
  | _, [] => True
  | s, a :: as => P s a ∧ EveryStep step P (step s a) as

instance EveryStep.decidable (step : σ → α → σ) (P : σ → α → Prop)
    [∀ s a, Decidable (P s a)] : ∀ s as, Decidable (EveryStep step P s as)
  | _, [] => instDecidableTrue
  | s, a :: as =>
    have := EveryStep.decidable step P (step s a) as
    inferInstanceAs (Decidable (P s a ∧ EveryStep step P (step s a) as))

variable {P Q : σ → α → Prop}

theorem EveryStep.append {s : σ} {as bs : List α} :
    EveryStep step P s (as ++ bs) ↔
      EveryStep step P s as ∧ EveryStep step P (run step s as) bs := by
  induction as generalizing s with
  | nil => simp [EveryStep]
  | cons a as ih => simp [EveryStep, ih, and_assoc]

/-- A property of every step, read at one place of the run. -/
theorem everyStep_iff {s : σ} {as : List α} :
    EveryStep step P s as ↔
      ∀ pre a post, as = pre ++ a :: post → P (run step s pre) a := by
  constructor
  · rintro h pre a post rfl
    exact (EveryStep.append.mp h).2.1
  · intro h
    induction as generalizing s with
    | nil => trivial
    | cons a as ih =>
      refine ⟨h [] a as rfl, ih ?_⟩
      rintro pre b post rfl
      exact h (a :: pre) b post rfl

/-- What each step preserves, the whole run preserves. -/
theorem invariant_run {I : σ → Prop} (hstep : ∀ s a, I s → I (step s a)) {s : σ}
    (as : List α) (h : I s) : I (run step s as) := by
  induction as generalizing s with
  | nil => exact h
  | cons a as ih => exact ih (hstep s a h)

/-- What each step preserves under a condition, a run whose steps all meet it preserves. -/
theorem EveryStep.invariant {I : σ → Prop} (hstep : ∀ s a, I s → P s a → I (step s a)) {s : σ}
    {as : List α} (h : EveryStep step P s as) (hI : I s) : I (run step s as) := by
  induction as generalizing s with
  | nil => exact hI
  | cons a as ih => exact ih h.2 (hstep s a hI h.1)

/-- The property of every step that an invariant gives under the condition. -/
theorem EveryStep.of_invariant {I : σ → Prop} (hstep : ∀ s a, I s → P s a → I (step s a))
    (hQ : ∀ s a, I s → P s a → Q s a) {s : σ} {as : List α} (h : EveryStep step P s as)
    (hI : I s) : EveryStep step Q s as := by
  induction as generalizing s with
  | nil => trivial
  | cons a as ih => exact ⟨hQ s a hI h.1, ih h.2 (hstep s a hI h.1)⟩

theorem EveryStep.imp (h : ∀ s a, P s a → Q s a) {s : σ} {as : List α}
    (hP : EveryStep step P s as) : EveryStep step Q s as :=
  hP.of_invariant (I := fun _ => True) (fun _ _ _ _ => trivial) (fun s a _ => h s a) trivial

theorem EveryStep.congr (h : ∀ s a, P s a ↔ Q s a) {s : σ} {as : List α} :
    EveryStep step P s as ↔ EveryStep step Q s as :=
  ⟨.imp fun s a => (h s a).mp, .imp fun s a => (h s a).mpr⟩

/-! ## Runs that may fail -/

section

variable {f : σ → α → Option σ} {I : σ → Prop} {as : List α} {s s' : σ}

/-- What each step preserves, a run that completes preserves. -/
theorem invariant_foldlM (hstep : ∀ s, ∀ a ∈ as, ∀ s', f s a = some s' → I s → I s')
    (h : as.foldlM f s = some s') (hI : I s) : I s' := by
  induction as generalizing s with
  | nil =>
    rw [← Option.some.inj h]
    exact hI
  | cons a as ih =>
    rw [List.foldlM_cons, Option.bind_eq_bind, Option.bind_eq_some_iff] at h
    obtain ⟨s₁, hs₁, hrest⟩ := h
    exact ih (fun s b hb => hstep s b (List.mem_cons_of_mem _ hb)) hrest
      (hstep s a List.mem_cons_self s₁ hs₁ hI)

end

/-! ## Simulation -/

/-- Each step of the concrete machine is matched by steps of the abstract one. -/
def Simulates (step : σ → α → σ) (step' : τ → β → τ) (R : σ → τ → Prop) : Prop :=
  ∀ s a t, R s t → ∃ bs, R (step s a) (run step' t bs)

/-- A run of the concrete machine is matched by a run of the abstract one. -/
theorem simulates_run {step' : τ → β → τ} {R : σ → τ → Prop} (h : Simulates step step' R) {s : σ}
    {t : τ} (as : List α) (hR : R s t) : ∃ bs, R (run step s as) (run step' t bs) := by
  induction as generalizing s t with
  | nil => exact ⟨[], hR⟩
  | cons a as ih =>
    obtain ⟨bs, hbs⟩ := h s a t hR
    obtain ⟨cs, hcs⟩ := ih hbs
    exact ⟨bs ++ cs, by rw [run_append]; exact hcs⟩

/-- A view on which each step does what `f` gives for it goes through the run of these. -/
theorem EveryStep.run_view {view : σ → τ} {step' : τ → β → τ} {f : α → Option β} {I : σ → Prop}
    (hI : ∀ s a, I s → P s a → I (step s a))
    (hview : ∀ s a, I s → P s a → view (step s a) = run step' (view s) (f a).toList) {s : σ}
    {as : List α} (h : EveryStep step P s as) (hs : I s) :
    view (run step s as) = run step' (view s) (as.filterMap f) := by
  induction as generalizing s with
  | nil => rfl
  | cons a as ih =>
    have hrest := ih h.2 (hI s a hs h.1)
    rw [hview s a hs h.1] at hrest
    rw [run_cons, hrest]
    cases hf : f a with
    | none => rw [List.filterMap_cons_none hf]; rfl
    | some b => rw [List.filterMap_cons_some hf]; rfl

/-! ## Assignments -/

section

variable [DecidableEq α] {f : α → β}

/-- The machine whose steps assign a value to a key. -/
def assign (f : α → β) (w : α × β) : α → β := Function.update f w.1 w.2

theorem run_assign_of_agree {ws : List (α × β)} {k : α} {v : β}
    (h : ∀ w ∈ ws, w.1 = k → w.2 = v) (hk : f k = v ∨ ∃ w ∈ ws, w.1 = k) :
    run assign f ws k = v := by
  induction ws generalizing f with
  | nil =>
    rcases hk with hk | ⟨w, hw, -⟩
    · exact hk
    · cases hw
  | cons w ws ih =>
    have hrest : ∀ w ∈ ws, w.1 = k → w.2 = v := fun w hw => h w (List.mem_cons_of_mem _ hw)
    rw [run_cons]
    refine ih hrest ?_
    by_cases hw : w.1 = k
    · left
      rw [← hw, assign, Function.update_self]
      exact h w List.mem_cons_self hw
    · rcases hk with hk | ⟨w', hw', hk⟩
      · left
        rw [assign, Function.update_of_ne (Ne.symm hw), hk]
      · rcases List.mem_cons.mp hw' with rfl | hw'
        · exact absurd hk hw
        · exact Or.inr ⟨w', hw', hk⟩

/-- After a run of assignments every one of them holds just in case no two of them disagree. -/
theorem run_assign_agree_iff {ws : List (α × β)} :
    (∀ w ∈ ws, run assign f ws w.1 = w.2) ↔ ∀ w ∈ ws, ∀ w' ∈ ws, w.1 = w'.1 → w.2 = w'.2 := by
  constructor
  · intro h w hw w' hw' hkey
    rw [← h w hw, ← h w' hw', hkey]
  · intro h w hw
    exact run_assign_of_agree (fun w' hw' hkey => h w' hw' w hw hkey) (Or.inr ⟨w, hw, rfl⟩)

end

end Infra
