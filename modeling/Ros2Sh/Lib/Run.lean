import Mathlib.Data.List.Basic

/-!
# Runs of a partial step function

A machine is a function `step : σ → α → Option σ`: `none` says that the action is not enabled in the state.
`run step s as` executes the actions `as` one after the other, and `Along step C s as` says that the condition
`C` holds of every state of that run and of the action taken there.

Two rules are used everywhere:

* `run_inv` — what every guarded step preserves holds at the end of every guarded run;
* `along_of_inv` — what the invariant and the guard give for one step holds along the whole run.

A third one, `run_simulates`, relates a run to an abstract state that follows its actions, `leads_of_rank` and
`leads_of_measure` find a run that ends where it should, and two more compare a quantity at the end of a run with the
peak of another one over the states of the run (`peak_le_of_mono`, `run_inv_of_peak`).
-/

namespace Ros2Sh.Lib

variable {σ α : Type*} {step : σ → α → Option σ} {s u : σ} {a : α} {as : List α}

/-- Execute the actions in order; `none` when one of them is not enabled. -/
def run (step : σ → α → Option σ) (s : σ) : List α → Option σ
  | [] => some s
  | a :: as => (step s a).bind fun t => run step t as

@[simp] theorem run_nil : run step s [] = some s := rfl

theorem run_cons : run step s (a :: as) = some u ↔ ∃ t, step s a = some t ∧ run step t as = some u := by
  simp [run, Option.bind_eq_some_iff]

/-- The condition `C` holds before every step of the run, of the state and of the action taken. -/
def Along (step : σ → α → Option σ) (C : σ → α → Prop) (s : σ) : List α → Prop
  | [] => True
  | a :: as => C s a ∧ ∀ t, step s a = some t → Along step C t as

instance decidableAlong (step : σ → α → Option σ) (C : σ → α → Prop) [∀ s a, Decidable (C s a)] :
    ∀ (s : σ) (as : List α), Decidable (Along step C s as)
  | _, [] => isTrue trivial
  | s, a :: as =>
    match h : step s a with
    | none => decidable_of_iff (C s a) ⟨fun hc => ⟨hc, by simp [h]⟩, fun hc => hc.1⟩
    | some t =>
      haveI := decidableAlong step C t as
      decidable_of_iff (C s a ∧ Along step C t as)
        ⟨fun hc => ⟨hc.1, fun u hu => by rw [h] at hu; cases hu; exact hc.2⟩, fun hc => ⟨hc.1, hc.2 t h⟩⟩

variable {C D : σ → α → Prop} {I : σ → Prop}

theorem Along.imp (h : ∀ s a, C s a → D s a) (hc : Along step C s as) : Along step D s as := by
  induction as generalizing s with
  | nil => trivial
  | cons a as ih => exact ⟨h s a hc.1, fun t ht => ih (hc.2 t ht)⟩

theorem Along.and (hc : Along step C s as) (hd : Along step D s as) :
    Along step (fun s a => C s a ∧ D s a) s as := by
  induction as generalizing s with
  | nil => trivial
  | cons a as ih => exact ⟨⟨hc.1, hd.1⟩, fun t ht => ih (hc.2 t ht) (hd.2 t ht)⟩

theorem along_of_forall {P : α → Prop} (h : ∀ a ∈ as, P a) : Along step (fun _ a => P a) s as := by
  induction as generalizing s with
  | nil => trivial
  | cons a as ih =>
    exact ⟨h a (List.mem_cons_self ..), fun t _ => ih fun b hb => h b (List.mem_cons_of_mem _ hb)⟩

/-- **Invariant rule.**  What the guarded steps preserve holds at the end of a guarded run. -/
theorem run_inv (hstep : ∀ s a t, I s → C s a → step s a = some t → I t) (h0 : I s) (hc : Along step C s as)
    (hr : run step s as = some u) : I u := by
  induction as generalizing s with
  | nil =>
    obtain rfl : s = u := by simpa using hr
    exact h0
  | cons a as ih =>
    obtain ⟨t, ht, hu⟩ := run_cons.mp hr
    exact ih (hstep s a t h0 hc.1 ht) (hc.2 t ht) hu

/-- **Step rule.**  What the invariant and the guard give for one step holds along every guarded run. -/
theorem along_of_inv (hstep : ∀ s a t, I s → C s a → step s a = some t → I t)
    (hD : ∀ s a, I s → C s a → D s a) (h0 : I s) (hc : Along step C s as) : Along step D s as := by
  induction as generalizing s with
  | nil => trivial
  | cons a as ih => exact ⟨hD s a h0 hc.1, fun t ht => ih (hstep s a t h0 hc.1 ht) (hc.2 t ht)⟩

/-- The invariant rule for a machine whose every step preserves the invariant. -/
theorem run_inv_of_step (hstep : ∀ s a t, I s → step s a = some t → I t) (h0 : I s)
    (hr : run step s as = some u) : I u := by
  have hc : Along step (fun _ _ => True) s as := along_of_forall (P := fun _ => True) fun _ _ => trivial
  exact run_inv (fun s a t hs _ ht => hstep s a t hs ht) h0 hc hr

/-- **Simulation rule.**  A relation to an abstract state that every step preserves, when the abstract state follows
the actions, relates the ends of the two runs. -/
theorem run_simulates {β : Type*} {follow : β → α → β} {R : σ → β → Prop} {b : β}
    (hstep : ∀ s b a t, R s b → step s a = some t → R t (follow b a)) (h0 : R s b) (hr : run step s as = some u) :
    R u (as.foldl follow b) := by
  induction as generalizing s b with
  | nil =>
    obtain rfl : s = u := by simpa using hr
    exact h0
  | cons a as ih =>
    obtain ⟨t, ht, hu⟩ := run_cons.mp hr
    exact ih (hstep s b a t h0 ht) hu

/-! ### Continuations -/

/-- A guarded run leads from one state to the other. -/
def Leads (step : σ → α → Option σ) (C : σ → α → Prop) (s u : σ) : Prop :=
  ∃ as, Along step C s as ∧ run step s as = some u

theorem Leads.refl (s : σ) : Leads step C s s := ⟨[], trivial, rfl⟩

theorem Leads.head {t : σ} (hc : C s a) (ht : step s a = some t) (hl : Leads step C t u) : Leads step C s u := by
  obtain ⟨as, halong, hrun⟩ := hl
  refine ⟨a :: as, ⟨hc, fun t' ht' => ?_⟩, run_cons.mpr ⟨t, ht, hrun⟩⟩
  obtain rfl := Option.some.inj (ht.symm.trans ht')
  exact halong

theorem Leads.trans {t : σ} (hst : Leads step C s t) (htu : Leads step C t u) : Leads step C s u := by
  obtain ⟨as, halong, hrun⟩ := hst
  induction as generalizing s with
  | nil =>
    obtain rfl : s = t := by simpa using hrun
    exact htu
  | cons a as ih =>
    obtain ⟨s', hs', hrest⟩ := run_cons.mp hrun
    exact .head halong.1 hs' (ih (halong.2 s' hs') hrest)

/-- The invariant rule for a continuation. -/
theorem Leads.inv (hstep : ∀ s a t, I s → C s a → step s a = some t → I t) (h0 : I s) (hl : Leads step C s u) :
    I u := by
  obtain ⟨as, halong, hrun⟩ := hl
  exact run_inv hstep h0 halong hrun

/-- **Progress rule.**  Where every state of a positive rank has a guarded step to one of the next rank below, a guarded
run leads to a state of the rank zero. -/
theorem leads_of_rank {R : ℕ → σ → Prop} (hstep : ∀ n s, R (n + 1) s → ∃ a t, C s a ∧ step s a = some t ∧ R n t)
    {n : ℕ} (h0 : R n s) : ∃ u, Leads step C s u ∧ R 0 u := by
  induction n generalizing s with
  | zero => exact ⟨s, .refl s, h0⟩
  | succ n ih =>
    obtain ⟨a, t, hc, ht, hn⟩ := hstep n s h0
    obtain ⟨u, hl, hu⟩ := ih hn
    exact ⟨u, .head hc ht hl, hu⟩

/-- **Measure rule.**  Where every state short of the goal has a guarded step that keeps the invariant and makes the
measure less, a guarded run leads to the goal. -/
theorem leads_of_measure {m : σ → ℕ} {G : σ → Prop}
    (hstep : ∀ s, I s → ¬ G s → ∃ a t, C s a ∧ step s a = some t ∧ I t ∧ m t < m s) (h0 : I s) :
    ∃ u, Leads step C s u ∧ I u ∧ G u := by
  generalize hn : m s = n
  induction n using Nat.strongRecOn generalizing s with
  | ind n ih =>
    by_cases hgoal : G s
    · exact ⟨s, .refl s, h0, hgoal⟩
    · obtain ⟨a, t, hc, ht, hinv, hless⟩ := hstep s h0 hgoal
      obtain ⟨u, hl, hu⟩ := ih (m t) (hn ▸ hless) hinv rfl
      exact ⟨u, .head hc ht hl, hu⟩

/-! ### Peaks -/

/-- The largest value of `f` in the states of the run. -/
def peak (step : σ → α → Option σ) (f : σ → ℕ) (s : σ) : List α → ℕ
  | [] => f s
  | a :: as =>
    match step s a with
    | none => f s
    | some t => max (f s) (peak step f t as)

variable {f g : σ → ℕ} {n : ℕ}

theorem le_peak : f s ≤ peak step f s as := by
  unfold peak
  split
  · exact Nat.le_refl _
  · split
    · exact Nat.le_refl _
    · exact Nat.le_max_left _ _

/-- **Lower rule.**  A quantity that never falls ends at the peak of what it bounds, at least. -/
theorem peak_le_of_mono (hstep : ∀ s a t, I s → step s a = some t → I t)
    (hmono : ∀ s a t, I s → step s a = some t → g s ≤ g t) (hfg : ∀ s, I s → f s ≤ g s) (h0 : I s)
    (hr : run step s as = some u) : peak step f s as ≤ g u := by
  induction as generalizing s with
  | nil =>
    obtain rfl : s = u := by simpa using hr
    exact hfg s h0
  | cons a as ih =>
    obtain ⟨t, ht, hu⟩ := run_cons.mp hr
    have hrest := ih (hstep s a t h0 ht) hu
    have hg : g t ≤ g u := by
      have hkept : ∀ x b y, I x ∧ g t ≤ g x → step x b = some y → I y ∧ g t ≤ g y := fun x b y hx hy =>
        ⟨hstep x b y hx.1 hy, Nat.le_trans hx.2 (hmono x b y hx.1 hy)⟩
      exact (run_inv_of_step hkept ⟨hstep s a t h0 ht, Nat.le_refl _⟩ hu).2
    have hs : f s ≤ g u := Nat.le_trans (hfg s h0) (Nat.le_trans (hmono s a t h0 ht) hg)
    simp only [peak, ht]
    exact Nat.max_le.mpr ⟨hs, hrest⟩

/-- **Upper rule.**  An invariant may use that the quantity stays below its peak in every state it reaches. -/
theorem run_inv_of_peak (hstep : ∀ s a t, I s → f t ≤ n → step s a = some t → I t) (h0 : I s)
    (hn : peak step f s as ≤ n) (hr : run step s as = some u) : I u := by
  induction as generalizing s with
  | nil =>
    obtain rfl : s = u := by simpa using hr
    exact h0
  | cons a as ih =>
    obtain ⟨t, ht, hu⟩ := run_cons.mp hr
    simp only [peak, ht] at hn
    have hrest : peak step f t as ≤ n := Nat.le_trans (Nat.le_max_right _ _) hn
    exact ih (hstep s a t h0 (Nat.le_trans le_peak hrest) ht) hrest hu

end Ros2Sh.Lib
