import Mathlib.Data.List.Basic
import Mathlib.Tactic.Common

/-!
# Resumable stream machines

A machine reads a stream that arrives in pieces. A step either takes some of the
unread symbols, possibly with output, or waits for more of them; a step that can
be taken is taken in the same way whatever arrives behind. Running such a machine
until it waits, each time a piece arrives, is the same as running it once on all
the pieces joined, so how a stream is cut has no effect.
-/

namespace Resumable

/-- A machine with states `σ` over symbols `α` and outputs `β`. -/
structure Machine (σ α β : Type*) where
  step : σ → List α → Option (σ × List α × List β)
  measure : σ → List α → ℕ
  step_measure : ∀ {s xs s' rest out}, step s xs = some (s', rest, out) →
    measure s' rest < measure s xs
  step_append : ∀ {s xs s' rest out} (ys : List α), step s xs = some (s', rest, out) →
    step s (xs ++ ys) = some (s', rest ++ ys, out)

/-- A state with the symbols still unread and the output so far. -/
structure Drained (σ α β : Type*) where
  state : σ
  unread : List α
  out : List β

namespace Machine

variable {σ α β : Type*} (m : Machine σ α β)

/-- Put output in front. -/
def emit (out : List β) (d : Drained σ α β) : Drained σ α β := { d with out := out ++ d.out }

@[simp] theorem emit_nil (d : Drained σ α β) : emit [] d = d := rfl

@[simp] theorem emit_emit (o₁ o₂ : List β) (d : Drained σ α β) :
    emit o₁ (emit o₂ d) = emit (o₁ ++ o₂) d := by
  simp [emit]

/-- Run until the machine waits. -/
def drain (s : σ) (xs : List α) : Drained σ α β :=
  match _h : m.step s xs with
  | none => { state := s, unread := xs, out := [] }
  | some (s', rest, out) => emit out (drain s' rest)
termination_by m.measure s xs
decreasing_by exact m.step_measure _h

theorem drain_of_none {s : σ} {xs : List α} (h : m.step s xs = none) :
    m.drain s xs = { state := s, unread := xs, out := [] } := by
  rw [drain]
  split
  · rfl
  · simp_all

theorem drain_of_some {s s' : σ} {xs rest : List α} {out : List β}
    (h : m.step s xs = some (s', rest, out)) :
    m.drain s xs = emit out (m.drain s' rest) := by
  rw [drain]
  split
  · simp_all
  · rename_i h'
    rw [h] at h'
    cases h'
    rfl

/-- Induction along a run of the machine. -/
theorem drain_induction {motive : σ → List α → Prop}
    (waits : ∀ s xs, m.step s xs = none → motive s xs)
    (steps : ∀ s xs s' rest out, m.step s xs = some (s', rest, out) → motive s' rest →
      motive s xs) (s : σ) (xs : List α) : motive s xs := by
  induction hn : m.measure s xs using Nat.strongRecOn generalizing s xs with
  | ind n ih =>
      cases h : m.step s xs with
      | none => exact waits s xs h
      | some r =>
          obtain ⟨s', rest, out⟩ := r
          exact steps s xs s' rest out h (ih _ (hn ▸ m.step_measure h) s' rest rfl)

/-- What every step keeps, draining keeps. -/
theorem drain_invariant (inv : σ → Prop)
    (hstep : ∀ s xs s' rest out, m.step s xs = some (s', rest, out) → inv s → inv s')
    (s : σ) (xs : List α) (hs : inv s) : inv (m.drain s xs).state := by
  induction s, xs using m.drain_induction with
  | waits s xs h => rwa [m.drain_of_none h]
  | steps s xs s' rest out h ih =>
      rw [m.drain_of_some h]
      exact ih (hstep s xs s' rest out h hs)

/-- A drained machine waits. -/
theorem drain_waits (s : σ) (xs : List α) :
    m.step (m.drain s xs).state (m.drain s xs).unread = none := by
  induction s, xs using m.drain_induction with
  | waits s xs h => rwa [m.drain_of_none h]
  | steps s xs s' rest out h ih =>
      rw [m.drain_of_some h]
      exact ih

/-- Draining a longer stream is draining its first part and going on from there. -/
theorem drain_append (s : σ) (xs ys : List α) :
    m.drain s (xs ++ ys) =
      emit (m.drain s xs).out (m.drain (m.drain s xs).state ((m.drain s xs).unread ++ ys)) := by
  induction s, xs using m.drain_induction with
  | waits s xs h => rw [m.drain_of_none h, emit_nil]
  | steps s xs s' rest out h ih =>
      rw [m.drain_of_some h, m.drain_of_some (m.step_append ys h), ih, emit_emit]
      rfl

end Machine

end Resumable
