import Mathlib.Algebra.BigOperators.Group.List.Basic
import Mathlib.Tactic.Abel

/-!
# Double entry

Legs of vouchers, each a debit and a credit of one ledger, and what a list of them moves on a
ledger.
-/

namespace Infra

structure Leg (L A : Type*) where
  ledger : L
  debit : A
  credit : A
deriving DecidableEq, Repr

section

variable {L A : Type*} [DecidableEq L] [AddCommGroup A]

/-- Debits less credits of the ledger. -/
def net (l : L) (legs : List (Leg L A)) : A :=
  (legs.map fun leg => if leg.ledger = l then leg.debit - leg.credit else 0).sum

variable {l dr cr : L} {a : A} {legs legs' : List (Leg L A)}

@[simp] theorem net_nil : net l ([] : List (Leg L A)) = 0 := rfl

@[simp] theorem net_cons {leg : Leg L A} : net l (leg :: legs) =
    (if leg.ledger = l then leg.debit - leg.credit else 0) + net l legs := by
  simp [net]

@[simp] theorem net_append : net l (legs ++ legs') = net l legs + net l legs' := by
  simp [net]

theorem net_flatMap {X : Type*} (xs : List X) (f : X → List (Leg L A)) :
    net l (xs.flatMap f) = (xs.map fun x => net l (f x)).sum := by
  induction xs with
  | nil => rfl
  | cons x xs ih => rw [List.flatMap_cons, net_append, ih, List.map_cons, List.sum_cons]

/-- The two legs of an amount that is moved from `cr` to `dr`. -/
def posting (dr cr : L) (a : A) : List (Leg L A) :=
  [{ ledger := dr, debit := a, credit := 0 }, { ledger := cr, debit := 0, credit := a }]

theorem net_posting_debit (h : cr ≠ dr) : net dr (posting dr cr a) = a := by
  simp [posting, h]

theorem net_posting_credit (h : dr ≠ cr) : net cr (posting dr cr a) = -a := by
  simp [posting, h]

theorem net_posting_self : net l (posting l l a) = 0 := by
  simp [posting]

end

end Infra
