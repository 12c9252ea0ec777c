import Mathlib.Algebra.BigOperators.Group.Finset.Basic
import Ros2Sh.Lib.Run

/-!
# Machines side by side

Machines of several kinds run beside each other, each in a state of its own; a step is a step of one of them, and the
others stand still.

What each machine keeps by itself all of them keep (`forall_of_step`), and a quantity that is given away in each step
of one machine is given away in each step of all (`sum_lt_of_step`).
-/

namespace Ros2Sh.Lib

variable {ρ : Type*} [DecidableEq ρ] {σ α : ρ → Type*} {step : ∀ r, σ r → α r → Option (σ r)} {s t : ∀ r, σ r}

/-- One of the machines takes a step. -/
def stepEach (step : ∀ r, σ r → α r → Option (σ r)) (s : ∀ r, σ r) (a : Σ r, α r) : Option (∀ r, σ r) :=
  (step a.1 (s a.1) a.2).map (Function.update s a.1)

theorem stepEach_eq_some {r : ρ} {a : α r} :
    stepEach step s ⟨r, a⟩ = some t ↔ ∃ u, step r (s r) a = some u ∧ t = Function.update s r u := by
  simp [stepEach, eq_comm]

/-- **Invariant rule.**  What holds of every machine holds still when the machine that moved keeps it. -/
theorem forall_of_step {I : ∀ r, σ r → Prop} {r : ρ} {a : α r} (hs : ∀ r, I r (s r))
    (h : stepEach step s ⟨r, a⟩ = some t) (hu : ∀ u, step r (s r) a = some u → I r u) (r' : ρ) : I r' (t r') := by
  obtain ⟨u, hstep, rfl⟩ := stepEach_eq_some.mp h
  rcases eq_or_ne r' r with rfl | hne
  · rw [Function.update_self]
    exact hu u hstep
  · rw [Function.update_of_ne hne]
    exact hs r'

/-- A machine has moved by the action, or stands where it stood. -/
theorem step_or_eq {a : Σ r, α r} (h : stepEach step s a = some t) (r : ρ) :
    t r = s r ∨ ∃ b, a = ⟨r, b⟩ ∧ step r (s r) b = some (t r) := by
  obtain ⟨r', b⟩ := a
  obtain ⟨u, hstep, rfl⟩ := stepEach_eq_some.mp h
  rcases eq_or_ne r r' with rfl | hne
  · right
    exact ⟨b, rfl, by rw [hstep, Function.update_self]⟩
  · left
    rw [Function.update_of_ne hne]

/-! ### Sums -/

section Sum

variable [Fintype ρ] {r : ρ} {a : α r}

theorem sum_add_of_eq_off {f g : ρ → ℕ} (h : ∀ r' ≠ r, f r' = g r') : ∑ r', f r' + g r = ∑ r', g r' + f r := by
  rw [← Finset.add_sum_erase _ f (Finset.mem_univ r), ← Finset.add_sum_erase _ g (Finset.mem_univ r)]
  have hrest : ∑ r' ∈ Finset.univ.erase r, f r' = ∑ r' ∈ Finset.univ.erase r, g r' :=
    Finset.sum_congr rfl fun r' hr' => h r' (Finset.ne_of_mem_erase hr')
  omega

/-- **Sum rule.**  What the machine that moves gives away, all of them give away. -/
theorem sum_lt_of_step {w : ∀ r, σ r → ℕ} (h : stepEach step s ⟨r, a⟩ = some t)
    (hu : ∀ u, step r (s r) a = some u → w r u < w r (s r)) : ∑ r', w r' (t r') < ∑ r', w r' (s r') := by
  obtain ⟨u, hstep, rfl⟩ := stepEach_eq_some.mp h
  have hless := hu u hstep
  have hoff : ∀ r' ≠ r, w r' (Function.update s r u r') = w r' (s r') := by
    intro r' hne
    rw [Function.update_of_ne hne]
  have hsum := sum_add_of_eq_off hoff
  simp only [Function.update_self] at hsum
  omega

end Sum

end Ros2Sh.Lib
