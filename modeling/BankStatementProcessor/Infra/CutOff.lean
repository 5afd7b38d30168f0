import BankStatementProcessor.Infra.Program

/-!
# Programs that are cut off

A program of atomic actions may be cut off between any two of them, by a crash or by an action
that fails. `Prog.cutOff` runs it so.

`Meets i I Q` is the triple for such runs: `I` holds of every store on the way, and `Q` of the
result and the last store. `Meets.cutOff` says what that gives of a run, cut off or not.
-/

namespace Infra.Prog

variable {σ ι α β ε : Type}

/-- Run a program alone, with one input for all of its actions, and cut it off after `cut` of
them, if it does that many. -/
def cutOff (i : ι) : Prog σ ι α → Option ℕ → σ → Option α × σ
  | ret a, _, s => (some a, s)
  | act _ _, some 0, s => (none, s)
  | act write next, some (n + 1), s => (next i s).cutOff i (some n) (write i s)
  | act write next, none, s => (next i s).cutOff i none (write i s)

/-- The invariant holds on the way, and the postcondition in the end. -/
def Meets (i : ι) (I : σ → Prop) (Q : α → σ → Prop) : Prog σ ι α → σ → Prop
  | ret a, s => I s ∧ Q a s
  | act write next, s => I s ∧ (next i s).Meets i I Q (write i s)

variable {i : ι} {I : σ → Prop} {Q R : α → σ → Prop} {p : Prog σ ι α} {s : σ}

/-- A run that is not cut off is an evaluation. -/
theorem cutOff_none (i : ι) (p : Prog σ ι α) (s : σ) :
    p.cutOff i none s = (some (p.eval i s).1, (p.eval i s).2) := by
  induction p generalizing s with
  | ret a => rfl
  | act write next ih => exact ih i s (write i s)

theorem Meets.cutOff (h : p.Meets i I Q s) (cut : Option ℕ) :
    I (p.cutOff i cut s).2 ∧ ∀ a, (p.cutOff i cut s).1 = some a → Q a (p.cutOff i cut s).2 := by
  induction p generalizing s cut with
  | ret a =>
    refine ⟨h.1, fun b hb => ?_⟩
    rw [← Option.some.inj hb]
    exact h.2
  | act write next ih =>
    match cut with
    | some 0 => exact ⟨h.1, nofun⟩
    | some (n + 1) => exact ih i s h.2 (some n)
    | none => exact ih i s h.2 none

theorem Meets.eval (h : p.Meets i I Q s) : Q (p.eval i s).1 (p.eval i s).2 := by
  have hrun := (h.cutOff none).2
  rw [cutOff_none] at hrun
  exact hrun _ rfl

theorem Meets.imp (h : p.Meets i I Q s) (hQ : ∀ a s, I s → Q a s → R a s) : p.Meets i I R s := by
  induction p generalizing s with
  | ret a => exact ⟨h.1, hQ a s h.1 h.2⟩
  | act write next ih => exact ⟨h.1, ih i s h.2⟩

theorem Meets.bind {f : α → Prog σ ι β} {Q' : β → σ → Prop} (h : p.Meets i I Q s)
    (hf : ∀ a s, I s → Q a s → (f a).Meets i I Q' s) : (p >>= f).Meets i I Q' s := by
  induction p generalizing s with
  | ret a => exact hf a s h.1 h.2
  | act write next ih => exact ⟨h.1, ih i s h.2⟩

/-! ## Programs that can fail -/

variable {f : α → ExceptT ε (Prog σ ι) β} {Q : Except ε β → σ → Prop}

theorem Meets.except_bind {x : ExceptT ε (Prog σ ι) α} {P : Except ε α → σ → Prop}
    (h : Meets i I P x.run s) (hok : ∀ a s, I s → P (.ok a) s → Meets i I Q (f a).run s)
    (herror : ∀ e s, I s → P (.error e) s → Q (.error e) s) : Meets i I Q (x >>= f).run s := by
  refine Meets.bind (f := ExceptT.bindCont f) h fun r t hI hr => ?_
  cases r with
  | ok a => exact hok a t hI hr
  | error e => exact ⟨hI, herror e t hI hr⟩

theorem meets_query_bind {g : ι → σ → α} (hI : I s) (h : Meets i I Q (f (g i s)).run s) :
    Meets i I Q (ExceptT.lift (query g) >>= f).run s :=
  ⟨hI, h⟩

theorem meets_atomically_bind {g : ι → σ → α × σ} (hI : I s)
    (h : Meets i I Q (f (g i s).1).run (g i s).2) :
    Meets i I Q (ExceptT.lift (atomically g) >>= f).run s :=
  ⟨hI, h⟩

theorem meets_throw {e : ε} (hI : I s) (h : Q (.error e) s) :
    Meets i I Q (throw e : ExceptT ε (Prog σ ι) β).run s :=
  ⟨hI, h⟩

theorem meets_pure {b : β} (hI : I s) (h : Q (.ok b) s) :
    Meets i I Q (pure b : ExceptT ε (Prog σ ι) β).run s :=
  ⟨hI, h⟩

end Infra.Prog
