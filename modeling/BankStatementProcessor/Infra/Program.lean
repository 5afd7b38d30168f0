import BankStatementProcessor.Infra.StateMachine
import Mathlib.Logic.Function.Basic

/-!
# Programs of atomic actions

A program reads and writes a shared store in atomic actions, each with an input from outside
(a clock, say). `Prog.eval` runs it alone. In a `Pool` any number of programs interleave.

`Along G I R s p` is the rely and guarantee of a program: from now on, in any store that
satisfies `I` and that the others have brought about within `G`, each action does `R`. A pool
whose programs satisfy it keeps `I`, and every step of it is an `R` (`Pool.Guarded.run`).
`Quiet S Q` says that a program whose result satisfies `Q` does nothing but `S` on the way.
`Ends J G I Q s p` is about its result: with inputs in `J`, and whatever the others do within `G`,
the result and the store it leaves are in `Q` (`Pool.Guarded.ends`).
-/

namespace Infra

/-- A return value, or an atomic action: what it writes, and how the program goes on with the
input and the store it has seen. -/
inductive Prog (σ ι α : Type)
  | ret (a : α)
  | act (write : ι → σ → σ) (next : ι → σ → Prog σ ι α)

namespace Prog

variable {σ ι α β : Type}

def bind : Prog σ ι α → (α → Prog σ ι β) → Prog σ ι β
  | ret a, f => f a
  | act write next, f => act write fun i s => (next i s).bind f

instance : Monad (Prog σ ι) where
  pure := ret
  bind := bind

/-- An action that writes nothing. -/
def query (f : ι → σ → α) : Prog σ ι α := act (fun _ s => s) fun i s => ret (f i s)

/-- An action that reads and writes at once. -/
def atomically (f : ι → σ → α × σ) : Prog σ ι α :=
  act (fun i s => (f i s).2) fun i s => ret (f i s).1

@[simp] theorem act_map (f : α → β) (write : ι → σ → σ) (next : ι → σ → Prog σ ι α) :
    (f <$> act write next) = act write fun i s => f <$> next i s := rfl

/-- The result of a program that has ended. -/
def result? : Prog σ ι α → Option α
  | ret a => some a
  | act _ _ => none

theorem eq_ret_of_result? {p : Prog σ ι α} {a : α} (h : p.result? = some a) : p = ret a := by
  cases p with
  | ret b => rw [Option.some.inj h]
  | act write next => cases h

/-! ## Alone -/

/-- The program runs to its end, with one input for all of its actions. -/
def eval (i : ι) : Prog σ ι α → σ → α × σ
  | ret a, s => (a, s)
  | act write next, s => (next i s).eval i (write i s)

@[simp] theorem eval_act (i : ι) (write : ι → σ → σ) (next : ι → σ → Prog σ ι α) (s : σ) :
    (act write next).eval i s = (next i s).eval i (write i s) := rfl

theorem eval_bind (i : ι) (p : Prog σ ι α) (f : α → Prog σ ι β) (s : σ) :
    (p >>= f).eval i s = (f (p.eval i s).1).eval i (p.eval i s).2 := by
  induction p generalizing s with
  | ret a => rfl
  | act write next ih => exact ih i s (write i s)

theorem eval_map (i : ι) (p : Prog σ ι α) (f : α → β) (s : σ) :
    (f <$> p).eval i s = (f (p.eval i s).1, (p.eval i s).2) :=
  eval_bind i p (fun a => ret (f a)) s

/-! ## Rely and guarantee -/

/-- Whatever the others do within `G` and `I`, each action of the program does `R`. -/
def Along (G : σ → σ → Prop) (I : σ → Prop) (R : σ → σ → Prop) : σ → Prog σ ι α → Prop
  | _, ret _ => True
  | s, act write next =>
    ∀ i t, G s t → I t → R t (write i t) ∧ Along G I R (write i t) (next i t)

/-- No run of the program ends with a result in `Q`. -/
def Avoids (Q : α → Prop) : Prog σ ι α → Prop
  | ret a => ¬ Q a
  | act _ next => ∀ i s, Avoids Q (next i s)

/-- A run that ends with a result in `Q` does nothing but `S`. -/
def Quiet (S : σ → σ → Prop) (Q : α → Prop) : Prog σ ι α → Prop
  | ret _ => True
  | act write next => ∀ i s, (S s (write i s) ∨ Avoids Q (next i s)) ∧ Quiet S Q (next i s)

/-- With inputs in `J`, and whatever the others do within `G`, the program ends in `Q`. -/
def Ends (J : ι → Prop) (G : σ → σ → Prop) (I : σ → Prop) (Q : σ → α → Prop) : σ → Prog σ ι α → Prop
  | s, ret a => Q s a
  | s, act write next =>
    ∀ i t, J i → G s t → I t → Ends J G I Q (write i t) (next i t)

section

variable {G R R' : σ → σ → Prop} {I : σ → Prop} {S : σ → σ → Prop} {Q : α → Prop}

theorem Along.later (htrans : ∀ r s t, G r s → G s t → G r t) {s t : σ} {p : Prog σ ι α}
    (h : Along G I R s p) (hst : G s t) : Along G I R t p := by
  cases p with
  | ret a => trivial
  | act write next => exact fun i u htu hI => h i u (htrans s t u hst htu) hI

theorem along_bind (hrefl : ∀ s, G s s) (htrans : ∀ r s t, G r s → G s t → G r t)
    (hR : ∀ s t, I s → R s t → G s t) {s : σ} {p : Prog σ ι α} {f : α → Prog σ ι β}
    (h : Along G I R s p) (hf : ∀ a t, G s t → Along G I R t (f a)) : Along G I R s (p >>= f) := by
  induction p generalizing s with
  | ret a => exact hf a s (hrefl s)
  | act write next ih =>
    intro i t hst hI
    obtain ⟨hdo, hrest⟩ := h i t hst hI
    refine ⟨hdo, ih i t hrest fun a u hu => hf a u ?_⟩
    exact htrans s t u hst (htrans t _ u (hR t _ hI hdo) hu)

theorem along_map {f : α → β} {s : σ} {p : Prog σ ι α} :
    Along G I R s (f <$> p) ↔ Along G I R s p := by
  induction p generalizing s with
  | ret a => exact Iff.rfl
  | act write next ih => simp only [act_map, Along, ih]

theorem avoids_map {f : α → β} {Q : β → Prop} {p : Prog σ ι α} :
    Avoids Q (f <$> p) ↔ Avoids (fun a => Q (f a)) p := by
  induction p with
  | ret a => exact Iff.rfl
  | act write next ih => simp only [act_map, Avoids, ih]

theorem quiet_map {f : α → β} {Q : β → Prop} {p : Prog σ ι α} :
    Quiet S Q (f <$> p) ↔ Quiet S (fun a => Q (f a)) p := by
  induction p with
  | ret a => exact Iff.rfl
  | act write next ih => simp only [act_map, Quiet, avoids_map, ih]

theorem avoids_imp {Q' : α → Prop} (hQ : ∀ a, Q' a → Q a) {p : Prog σ ι α}
    (h : Avoids Q p) : Avoids Q' p := by
  induction p with
  | ret a => exact fun ha => h (hQ a ha)
  | act write next ih => exact fun i s => ih i s (h i s)

theorem quiet_imp {Q' : α → Prop} (hQ : ∀ a, Q' a → Q a) {p : Prog σ ι α}
    (h : Quiet S Q p) : Quiet S Q' p := by
  induction p with
  | ret a => trivial
  | act write next ih =>
    intro i s
    obtain ⟨hdo, hrest⟩ := h i s
    exact ⟨hdo.imp_right (avoids_imp hQ), ih i s hrest⟩

/-- A program that runs alone keeps the invariant. -/
theorem Along.eval (hrefl : ∀ s, G s s) (hR : ∀ s t, I s → R s t → G s t ∧ I t) {s : σ}
    {p : Prog σ ι α} (h : Along G I R s p) (hI : I s) (i : ι) : I (p.eval i s).2 := by
  induction p generalizing s with
  | ret a => exact hI
  | act write next ih =>
    obtain ⟨hdo, hrest⟩ := h i s (hrefl s) hI
    exact ih i s hrest (hR s _ hI hdo).2

/-! ### Programs that can fail -/

variable {ε : Type} {s : σ} {Q : Except ε β → Prop}

theorem run_map (f : α → β) (x : ExceptT ε (Prog σ ι) α) :
    (f <$> x).run = Except.map f <$> x.run := by
  change ExceptT.map f x = _
  unfold ExceptT.map ExceptT.mk
  refine congrArg (Prog.bind x) (funext fun r => ?_)
  cases r <;> rfl

theorem along_except_bind (hrefl : ∀ s, G s s) (htrans : ∀ r s t, G r s → G s t → G r t)
    (hR : ∀ s t, I s → R s t → G s t) {x : ExceptT ε (Prog σ ι) α}
    {f : α → ExceptT ε (Prog σ ι) β} (h : Along G I R s x.run)
    (hf : ∀ a t, G s t → Along G I R t (f a).run) : Along G I R s (x >>= f).run := by
  refine along_bind hrefl htrans hR (f := ExceptT.bindCont f) h ?_
  intro r t ht
  cases r with
  | ok a => exact hf a t ht
  | error e => trivial

theorem along_query_bind (hrefl : ∀ s, R s s) {g : ι → σ → α} {f : α → ExceptT ε (Prog σ ι) β}
    (h : ∀ i t, G s t → I t → Along G I R t (f (g i t)).run) :
    Along G I R s (ExceptT.lift (query g) >>= f).run :=
  fun i t hst hI => ⟨hrefl t, h i t hst hI⟩

theorem along_atomically_bind {g : ι → σ → α × σ} {f : α → ExceptT ε (Prog σ ι) β}
    (h : ∀ i t, G s t → I t → R t (g i t).2 ∧ Along G I R (g i t).2 (f (g i t).1).run) :
    Along G I R s (ExceptT.lift (atomically g) >>= f).run :=
  h

section

variable {J : ι → Prop} {P : σ → α → Prop} {Q : σ → β → Prop} {p : Prog σ ι α}

theorem Ends.later (htrans : ∀ r s t, G r s → G s t → G r t)
    (hP : ∀ a s t, P s a → G s t → P t a) {t : σ} (h : Ends J G I P s p) (hst : G s t) :
    Ends J G I P t p := by
  cases p with
  | ret a => exact hP a s t h hst
  | act write next => exact fun i u hi htu hI => h i u hi (htrans s t u hst htu) hI

theorem ends_bind {f : α → Prog σ ι β} (h : Ends J G I P s p)
    (hf : ∀ a t, P t a → Ends J G I Q t (f a)) : Ends J G I Q s (p >>= f) := by
  induction p generalizing s with
  | ret a => exact hf a s h
  | act write next ih => exact fun i t hi hst hI => ih i t (h i t hi hst hI)

theorem ends_map {f : α → β} : Ends J G I Q s (f <$> p) ↔ Ends J G I (fun t a => Q t (f a)) s p := by
  induction p generalizing s with
  | ret a => exact Iff.rfl
  | act write next ih => simp only [act_map, Ends, ih]

theorem ends_imp {P' : σ → α → Prop} (hP : ∀ a t, P t a → P' t a) (h : Ends J G I P s p) :
    Ends J G I P' s p := by
  induction p generalizing s with
  | ret a => exact hP a s h
  | act write next ih => exact fun i t hi hst hI => ih i t (h i t hi hst hI)

theorem ends_true (p : Prog σ ι α) (s : σ) : Ends J G I (fun _ _ => True) s p := by
  induction p generalizing s with
  | ret a => trivial
  | act write next ih => exact fun i t _ _ _ => ih i t (write i t)

theorem ends_except_bind {x : ExceptT ε (Prog σ ι) α} {f : α → ExceptT ε (Prog σ ι) β}
    {P : σ → Except ε α → Prop} {Q : σ → Except ε β → Prop} (h : Ends J G I P s x.run)
    (hok : ∀ a t, P t (.ok a) → Ends J G I Q t (f a).run)
    (herror : ∀ e t, P t (.error e) → Q t (.error e)) : Ends J G I Q s (x >>= f).run := by
  refine ends_bind (f := ExceptT.bindCont f) h fun r t hr => ?_
  cases r with
  | ok a => exact hok a t hr
  | error e => exact herror e t hr

theorem ends_query_bind {g : ι → σ → α} {f : α → ExceptT ε (Prog σ ι) β}
    {Q : σ → Except ε β → Prop}
    (h : ∀ i t, J i → G s t → I t → Ends J G I Q t (f (g i t)).run) :
    Ends J G I Q s (ExceptT.lift (query g) >>= f).run :=
  h

theorem ends_atomically_bind {g : ι → σ → α × σ} {f : α → ExceptT ε (Prog σ ι) β}
    {Q : σ → Except ε β → Prop}
    (h : ∀ i t, J i → G s t → I t → Ends J G I Q (g i t).2 (f (g i t).1).run) :
    Ends J G I Q s (ExceptT.lift (atomically g) >>= f).run :=
  h

end

theorem avoids_query_bind {g : ι → σ → α} {f : α → ExceptT ε (Prog σ ι) β}
    (h : ∀ i s, Avoids Q (f (g i s)).run) : Avoids Q (ExceptT.lift (query g) >>= f).run :=
  h

theorem quiet_query_bind (hrefl : ∀ s, S s s) {g : ι → σ → α} {f : α → ExceptT ε (Prog σ ι) β}
    (h : ∀ i s, Quiet S Q (f (g i s)).run) : Quiet S Q (ExceptT.lift (query g) >>= f).run :=
  fun i s => ⟨Or.inl (hrefl s), h i s⟩

theorem quiet_atomically_bind {g : ι → σ → α × σ} {f : α → ExceptT ε (Prog σ ι) β}
    (h : ∀ i s, (S s (g i s).2 ∨ Avoids Q (f (g i s).1).run) ∧ Quiet S Q (f (g i s).1).run) :
    Quiet S Q (ExceptT.lift (atomically g) >>= f).run :=
  h

end

end Prog

/-! ## Interleaving -/

/-- A store and the programs that share it, each at the point it has reached. -/
structure Pool (σ ι α κ : Type) where
  store : σ
  calls : κ → Prog σ ι α

namespace Pool

open Prog

variable {σ ι α κ : Type} [DecidableEq κ]

/-- The next action of one program. -/
def step (p : Pool σ ι α κ) (e : κ × ι) : Pool σ ι α κ :=
  match p.calls e.1 with
  | ret _ => p
  | act write next =>
    { store := write e.2 p.store
      calls := Function.update p.calls e.1 (next e.2 p.store) }

section

variable {p : Pool σ ι α κ} {e : κ × ι}

theorem step_ret {a : α} (h : p.calls e.1 = ret a) : p.step e = p := by
  simp only [step, h]

theorem step_act {write : ι → σ → σ} {next : ι → σ → Prog σ ι α}
    (h : p.calls e.1 = act write next) :
    (p.step e).store = write e.2 p.store ∧
      (p.step e).calls e.1 = next e.2 p.store ∧
      ∀ k, k ≠ e.1 → (p.step e).calls k = p.calls k := by
  have hstep : p.step e =
      { store := write e.2 p.store
        calls := Function.update p.calls e.1 (next e.2 p.store) } := by
    simp only [step, h]
  rw [hstep]
  exact ⟨rfl, Function.update_self .., fun k hk => Function.update_of_ne hk ..⟩

theorem calls_step_of_ne {k : κ} (hk : k ≠ e.1) : (p.step e).calls k = p.calls k := by
  cases h : p.calls e.1 with
  | ret a => rw [step_ret h]
  | act write next => exact (step_act h).2.2 k hk

end

/-- A program that is scheduled until its end, and nothing else, is evaluated. -/
theorem run_replicate (p : Pool σ ι α κ) (k : κ) (i : ι) :
    ∃ n, (run step p (List.replicate n (k, i))).calls k = ret ((p.calls k).eval i p.store).1 ∧
      (run step p (List.replicate n (k, i))).store = ((p.calls k).eval i p.store).2 := by
  generalize hq : p.calls k = q
  induction q generalizing p with
  | ret a => exact ⟨0, hq, rfl⟩
  | act write next ih =>
    obtain ⟨hstore, hcall, -⟩ := step_act (e := (k, i)) hq
    obtain ⟨n, hn, hs⟩ := ih i p.store (p.step (k, i)) hcall
    refine ⟨n + 1, ?_, ?_⟩
    · rw [List.replicate_succ, run_cons, hn, hstore, eval_act]
    · rw [List.replicate_succ, run_cons, hs, hstore, eval_act]

section

variable {G : σ → σ → Prop} {I : σ → Prop} {R : κ → σ → σ → Prop}

/-- The store satisfies `I`, and every program keeps to its guarantee. -/
def Guarded (G : σ → σ → Prop) (I : σ → Prop) (R : κ → σ → σ → Prop) (p : Pool σ ι α κ) : Prop :=
  I p.store ∧ ∀ k, Along G I (R k) p.store (p.calls k)

/-- One step: it stutters or is what its program guarantees, and the pool stays guarded. -/
theorem Guarded.step (hrefl : ∀ s, G s s) (htrans : ∀ r s t, G r s → G s t → G r t)
    (hR : ∀ k s t, I s → R k s t → G s t ∧ I t) {p : Pool σ ι α κ} (h : Guarded G I R p)
    (e : κ × ι) :
    Guarded G I R (p.step e) ∧
      ((p.step e).store = p.store ∨ R e.1 p.store (p.step e).store) := by
  cases hcall : p.calls e.1 with
  | ret a =>
    rw [step_ret hcall]
    exact ⟨h, Or.inl rfl⟩
  | act write next =>
    obtain ⟨hstore, hnext, hothers⟩ := step_act hcall
    have halong := h.2 e.1
    rw [hcall] at halong
    obtain ⟨hdo, hrest⟩ := halong e.2 p.store (hrefl p.store) h.1
    obtain ⟨hG, hI⟩ := hR e.1 p.store _ h.1 hdo
    rw [← hstore] at hdo hrest hG hI
    refine ⟨⟨hI, fun k => ?_⟩, Or.inr hdo⟩
    by_cases hk : k = e.1
    · subst hk
      rw [hnext]
      exact hrest
    · rw [hothers k hk]
      exact (h.2 k).later htrans hG

/-- **A guarded pool keeps its invariant, and each step does what its program guarantees.** -/
theorem Guarded.run (hrefl : ∀ s, G s s) (htrans : ∀ r s t, G r s → G s t → G r t)
    (hR : ∀ k s t, I s → R k s t → G s t ∧ I t) {p : Pool σ ι α κ} (h : Guarded G I R p)
    (es : List (κ × ι)) :
    Guarded G I R (run Pool.step p es) ∧
      EveryStep Pool.step
        (fun p e => (p.step e).store = p.store ∨ R e.1 p.store (p.step e).store) p es := by
  induction es generalizing p with
  | nil => exact ⟨h, trivial⟩
  | cons e es ih =>
    obtain ⟨hnext, hdo⟩ := h.step hrefl htrans hR e
    obtain ⟨hend, hrest⟩ := ih hnext
    exact ⟨hend, hdo, hrest⟩

/-- **A program of a guarded pool that ends, ends as it does among such others.** -/
theorem Guarded.ends (hrefl : ∀ s, G s s) (htrans : ∀ r s t, G r s → G s t → G r t)
    (hR : ∀ k s t, I s → R k s t → G s t ∧ I t) {J : ι → Prop} {P : σ → α → Prop}
    (hP : ∀ a s t, P s a → G s t → P t a) {p : Pool σ ι α κ} (h : Guarded G I R p) {k : κ}
    (hk : Ends J G I P p.store (p.calls k)) (es : List (κ × ι)) (hes : ∀ e ∈ es, J e.2) :
    Ends J G I P (Infra.run Pool.step p es).store ((Infra.run Pool.step p es).calls k) := by
  induction es generalizing p with
  | nil => exact hk
  | cons e es ih =>
    have hrest : ∀ e ∈ es, J e.2 := fun e he => hes e (List.mem_cons_of_mem _ he)
    obtain ⟨hnext, hdo⟩ := h.step hrefl htrans hR e
    refine ih hnext ?_ hrest
    have hgrow : G p.store (p.step e).store := by
      rcases hdo with heq | hdo
      · rw [heq]
        exact hrefl p.store
      · exact (hR e.1 p.store _ h.1 hdo).1
    by_cases hke : k = e.1
    · subst hke
      cases hcall : p.calls e.1 with
      | ret a =>
        rw [step_ret hcall]
        exact hcall ▸ hk
      | act write next =>
        obtain ⟨hstore, hcalls, -⟩ := step_act hcall
        rw [hstore, hcalls]
        rw [hcall] at hk
        exact hk e.2 p.store (hes e List.mem_cons_self) (hrefl p.store) h.1
    · rw [calls_step_of_ne hke]
      exact hk.later htrans hP hgrow

variable {S : σ → σ → Prop} {Q : α → Prop}

theorem not_of_avoids {p : Pool σ ι α κ} {k : κ} (h : Avoids Q (p.calls k)) {es : List (κ × ι)}
    {a : α} (hend : (Infra.run Pool.step p es).calls k = ret a) : ¬ Q a := by
  induction es generalizing p with
  | nil =>
    rw [run_nil] at hend
    rw [hend] at h
    exact h
  | cons e es ih =>
    refine ih (p := p.step e) ?_ hend
    by_cases hk : k = e.1
    · subst hk
      cases hcall : p.calls e.1 with
      | ret b =>
        rw [step_ret hcall]
        exact h
      | act write next =>
        rw [(step_act hcall).2.1]
        rw [hcall] at h
        exact h e.2 p.store
    · rw [calls_step_of_ne hk]
      exact h

/-- A quiet program that ends with a result in `Q` has done nothing but `S`. -/
theorem everyStep_of_quiet (hS : ∀ s, S s s) {p : Pool σ ι α κ} {k : κ}
    (h : Quiet S Q (p.calls k)) {es : List (κ × ι)} {a : α}
    (hend : (Infra.run Pool.step p es).calls k = ret a) (ha : Q a) :
    EveryStep Pool.step (fun p e => e.1 = k → S p.store (p.step e).store) p es := by
  induction es generalizing p with
  | nil => trivial
  | cons e es ih =>
    by_cases hk : e.1 = k
    · subst hk
      cases hcall : p.calls e.1 with
      | ret b =>
        refine ⟨fun _ => ?_, ih ?_ hend⟩
        · rw [step_ret hcall]
          exact hS _
        · rw [step_ret hcall]
          exact h
      | act write next =>
        obtain ⟨hstore, hnext, -⟩ := step_act hcall
        rw [hcall] at h
        obtain ⟨hdo, hrest⟩ := h e.2 p.store
        refine ⟨fun _ => ?_, ih ?_ hend⟩
        · rw [hstore]
          refine hdo.resolve_right fun havoid => ?_
          rw [← hnext] at havoid
          exact not_of_avoids havoid hend ha
        · rw [hnext]
          exact hrest
    · refine ⟨fun hk' => absurd hk' hk, ih ?_ hend⟩
      rw [calls_step_of_ne (Ne.symm hk)]
      exact h

end

end Pool

end Infra
