import Mathlib.Logic.Function.Basic
import BankStatementProcessor.Infra.StateMachine

/-!
# Events that read first and write later

Each event has two steps: `resolve` reads the store and fixes a mutation, `apply` writes that
mutation without reading again. Steps of different events interleave freely, and the input
`ι` of a step is what the step reads besides the store (a clock, random draws).

What a resolver read (`Holds`) may no longer be true when its mutation is written.
`settled_run` says when it still is: no `apply` of the schedule disturbs a mutation that is in
flight and written later. The conditions on `Holds` and `Disturbs` are those of a
rely/guarantee proof, stated once for all schedules.
-/

namespace Infra

/-- The two steps of each event `ε`, over stores `σ`, mutations `μ` and step inputs `ι`. -/
structure TwoPhase (σ ε μ ι : Type*) where
  /-- `none`: the read failed and the event ends without a write. -/
  resolve : σ → ε → ι → Option μ
  apply : σ → ε → μ → ι → σ

inductive Phase (μ : Type*)
  | waiting
  | inFlight (m : μ)
  | finished

/-- The mutation in flight. -/
def Phase.mutation {μ : Type*} : Phase μ → Option μ
  | .inFlight m => some m
  | _ => none

@[simp] theorem Phase.mutation_eq_some {μ : Type*} {ph : Phase μ} {m : μ} :
    ph.mutation = some m ↔ ph = .inFlight m := by
  cases ph <;> simp [Phase.mutation]

namespace TwoPhase

variable {σ ε μ ι : Type*}

structure Config (σ ε μ : Type*) where
  store : σ
  phase : ε → Phase μ

inductive Step (ε ι : Type*)
  | resolve (e : ε) (i : ι)
  | apply (e : ε) (i : ι)

/-- Every event still waits. -/
def start (s : σ) : Config σ ε μ := { store := s, phase := fun _ => .waiting }

/-- The events that the schedule writes. -/
def applied (steps : List (Step ε ι)) : List ε :=
  steps.filterMap fun
    | .resolve _ _ => none
    | .apply e _ => some e

@[simp] theorem applied_resolve {e : ε} {i : ι} {rest : List (Step ε ι)} :
    applied (.resolve e i :: rest) = applied rest := rfl

@[simp] theorem applied_apply {e : ε} {i : ι} {rest : List (Step ε ι)} :
    applied (.apply e i :: rest) = e :: applied rest := rfl

/-- The store satisfies `Inv`, and what each mutation that is still to be written was read
from holds. -/
def Settled (Inv : σ → Prop) (Holds : σ → μ → Prop) (c : Config σ ε μ)
    (steps : List (Step ε ι)) : Prop :=
  Inv c.store ∧ ∀ e ∈ applied steps, ∀ m, c.phase e = .inFlight m → Holds c.store m

theorem settled_start {Inv : σ → Prop} {Holds : σ → μ → Prop} {s : σ} (h : Inv s)
    (steps : List (Step ε ι)) : Settled Inv Holds (start s : Config σ ε μ) steps :=
  ⟨h, by intro e _ m he; cases he⟩

variable [DecidableEq ε] (T : TwoPhase σ ε μ ι)

/-- A step of an event that is not in the phase the step needs changes nothing. -/
def step (c : Config σ ε μ) : Step ε ι → Config σ ε μ
  | .resolve e i =>
    match c.phase e with
    | .waiting =>
      match T.resolve c.store e i with
      | some m => { c with phase := Function.update c.phase e (.inFlight m) }
      | none => { c with phase := Function.update c.phase e .finished }
    | _ => c
  | .apply e i =>
    match c.phase e with
    | .inFlight m =>
      { store := T.apply c.store e m i, phase := Function.update c.phase e .finished }
    | _ => c

variable {T} {c : Config σ ε μ} {e : ε} {i : ι} {m : μ}

theorem step_resolve_store : (T.step c (.resolve e i)).store = c.store := by
  simp only [step]
  split
  · split <;> rfl
  · rfl

theorem step_apply_inFlight (h : c.phase e = .inFlight m) :
    T.step c (.apply e i) =
      { store := T.apply c.store e m i, phase := Function.update c.phase e .finished } := by
  simp only [step, h]

theorem step_apply_of_not_inFlight (h : ∀ m, c.phase e ≠ .inFlight m) :
    T.step c (.apply e i) = c := by
  cases hp : c.phase e with
  | inFlight m => exact absurd hp (h m)
  | waiting => simp only [step, hp]
  | finished => simp only [step, hp]

/-- A mutation in flight after a `resolve` was in flight before, or has just been read. -/
theorem inFlight_of_resolve {e' : ε} {m' : μ}
    (h : (T.step c (.resolve e i)).phase e' = .inFlight m') :
    c.phase e' = .inFlight m' ∨ (e' = e ∧ T.resolve c.store e i = some m') := by
  simp only [step] at h
  split at h
  · split at h
    · next m hm =>
      by_cases he : e' = e
      · subst he
        simp only [Function.update_self] at h
        cases h
        exact Or.inr ⟨rfl, hm⟩
      · simp only [Function.update_of_ne he] at h
        exact Or.inl h
    · by_cases he : e' = e
      · subst he
        simp only [Function.update_self] at h
        cases h
      · simp only [Function.update_of_ne he] at h
        exact Or.inl h
  · exact Or.inl h

/-- A mutation in flight after an `apply` was in flight before and belongs to another event. -/
theorem inFlight_of_apply {e' : ε} {m' : μ}
    (h : (T.step c (.apply e i)).phase e' = .inFlight m') :
    c.phase e' = .inFlight m' ∧ ((∃ m, c.phase e = .inFlight m) → e' ≠ e) := by
  cases hp : c.phase e with
  | inFlight m =>
    rw [step_apply_inFlight hp] at h
    by_cases he : e' = e
    · subst he
      simp at h
    · simp only [Function.update_of_ne he] at h
      exact ⟨h, fun _ => he⟩
  | waiting =>
    simp only [step, hp] at h
    exact ⟨h, by rintro ⟨m, hm⟩; cases hm⟩
  | finished =>
    simp only [step, hp] at h
    exact ⟨h, by rintro ⟨m, hm⟩; cases hm⟩

/-- The step writes no mutation that disturbs one in flight which `rest` still writes. -/
def UndisturbedAt (Disturbs : σ → μ → μ → Prop) (c : Config σ ε μ) (rest : List (Step ε ι)) :
    Step ε ι → Prop
  | .resolve _ _ => True
  | .apply e _ => ∀ m ∈ (c.phase e).mutation, ∀ e' ∈ applied rest, e' ≠ e →
      ∀ m' ∈ (c.phase e').mutation, ¬ Disturbs c.store m m'

/-- No step of the schedule disturbs a mutation between its `resolve` and its `apply`. -/
def Undisturbed (T : TwoPhase σ ε μ ι) (Disturbs : σ → μ → μ → Prop) :
    Config σ ε μ → List (Step ε ι) → Prop
  | _, [] => True
  | c, st :: rest => UndisturbedAt Disturbs c rest st ∧ Undisturbed T Disturbs (T.step c st) rest

instance UndisturbedAt.decidable (Disturbs : σ → μ → μ → Prop)
    [∀ s m m', Decidable (Disturbs s m m')] (c : Config σ ε μ) (rest : List (Step ε ι)) :
    ∀ st, Decidable (UndisturbedAt Disturbs c rest st)
  | .resolve _ _ => instDecidableTrue
  | .apply e _ => inferInstanceAs (Decidable (∀ m ∈ (c.phase e).mutation, ∀ e' ∈ applied rest,
      e' ≠ e → ∀ m' ∈ (c.phase e').mutation, ¬ Disturbs c.store m m'))

instance Undisturbed.decidable (T : TwoPhase σ ε μ ι) (Disturbs : σ → μ → μ → Prop)
    [∀ s m m', Decidable (Disturbs s m m')] :
    ∀ (c : Config σ ε μ) (steps : List (Step ε ι)), Decidable (Undisturbed T Disturbs c steps)
  | _, [] => instDecidableTrue
  | c, st :: rest =>
    have := Undisturbed.decidable T Disturbs (T.step c st) rest
    inferInstanceAs (Decidable (UndisturbedAt Disturbs c rest st ∧
      Undisturbed T Disturbs (T.step c st) rest))

variable {Inv : σ → Prop} {Holds : σ → μ → Prop} {Disturbs : σ → μ → μ → Prop}

/--
One step of an undisturbed schedule keeps the configuration settled: a resolver establishes
`Holds` of its own mutation, and a write keeps `Inv` and the `Holds` of every mutation it
does not disturb.
-/
theorem settled_step
    (hres : ∀ s e i m, Inv s → T.resolve s e i = some m → Holds s m)
    (hinv : ∀ s e m i, Inv s → Holds s m → Inv (T.apply s e m i))
    (happ : ∀ s e m i m', Inv s → Holds s m → Holds s m' → ¬ Disturbs s m m' →
      Holds (T.apply s e m i) m')
    {st : Step ε ι} {rest : List (Step ε ι)} (hc : Settled Inv Holds c (st :: rest))
    (hu : UndisturbedAt Disturbs c rest st) : Settled Inv Holds (T.step c st) rest := by
  obtain ⟨hI, hH⟩ := hc
  cases st with
  | resolve e i =>
    refine ⟨by rw [step_resolve_store]; exact hI, ?_⟩
    intro e' he' m' h
    rw [step_resolve_store]
    rcases inFlight_of_resolve h with h | ⟨rfl, h⟩
    · exact hH e' he' m' h
    · exact hres _ _ _ _ hI h
  | apply e i =>
    cases hp : c.phase e with
    | inFlight m =>
      have hm : Holds c.store m := hH e (by simp) m hp
      refine ⟨by rw [step_apply_inFlight hp]; exact hinv _ _ _ _ hI hm, ?_⟩
      intro e' he' m' h
      obtain ⟨h', hne⟩ := inFlight_of_apply h
      rw [step_apply_inFlight hp]
      -- the other mutations in flight keep what they were read from
      exact happ _ _ _ _ _ hI hm (hH e' (by simp [he']) m' h')
        (hu m (by simp [hp]) e' he' (hne ⟨m, hp⟩) m' (by simp [h']))
    | waiting =>
      rw [step_apply_of_not_inFlight (by simp [hp])]
      exact ⟨hI, fun e' he' => hH e' (by simp [he'])⟩
    | finished =>
      rw [step_apply_of_not_inFlight (by simp [hp])]
      exact ⟨hI, fun e' he' => hH e' (by simp [he'])⟩

theorem Undisturbed.append {pre post : List (Step ε ι)}
    (hu : Undisturbed T Disturbs c (pre ++ post)) :
    Undisturbed T Disturbs (run T.step c pre) post := by
  induction pre generalizing c with
  | nil => exact hu
  | cons st pre ih => exact ih hu.2

/-- **At every point of an undisturbed schedule the configuration is settled.** -/
theorem settled_run
    (hres : ∀ s e i m, Inv s → T.resolve s e i = some m → Holds s m)
    (hinv : ∀ s e m i, Inv s → Holds s m → Inv (T.apply s e m i))
    (happ : ∀ s e m i m', Inv s → Holds s m → Holds s m' → ¬ Disturbs s m m' →
      Holds (T.apply s e m i) m')
    {pre post : List (Step ε ι)} (hc : Settled Inv Holds c (pre ++ post))
    (hu : Undisturbed T Disturbs c (pre ++ post)) :
    Settled Inv Holds (run T.step c pre) post := by
  induction pre generalizing c with
  | nil => exact hc
  | cons st pre ih => exact ih (settled_step hres hinv happ hc hu.1) hu.2

end TwoPhase

end Infra
