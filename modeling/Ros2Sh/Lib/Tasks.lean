import Mathlib.Data.Fintype.Card
import Mathlib.Data.Set.Finite.Basic
import Mathlib.Logic.Relation
import Ros2Sh.Lib.Run

/-!
# Tasks that bring further tasks

Tasks are pending, in any number.  One of them at a time is done, in any order, and brings further tasks with it.

The work is bounded, in whatever order it is done, exactly when no pending task begins an endless chain (`bounded_iff`).
When the tasks follow the edges of a graph, and finitely many of its nodes can be reached, an endless chain is a cycle
that can be reached (`bounded_iff_acyclic`).
-/

namespace Ros2Sh.Lib

variable {α β : Type*} {brings : α → List α} {pending l l' rest : List α} {a b : α} {m n : ℕ}

/-- The task `j` is done. -/
def doTask (brings : α → List α) (pending : List α) (j : ℕ) : Option (List α) :=
  pending[j]?.map fun a => pending.eraseIdx j ++ brings a

theorem doTask_eq_some {j : ℕ} : doTask brings pending j = some rest ↔
    ∃ a, pending[j]? = some a ∧ rest = pending.eraseIdx j ++ brings a := by
  simp [doTask, eq_comm]

/-- However the tasks are done, there is an end. -/
def Bounded (brings : α → List α) (pending : List α) : Prop :=
  ∃ n, ∀ js rest, run (doTask brings) pending js = some rest → js.length ≤ n

/-- The task brings the other one. -/
def Brings (brings : α → List α) (b a : α) : Prop := b ∈ brings a

/-! ### The number of tasks there are to be done -/

/-- The tasks, and all that they bring, are `n` in number. -/
inductive Amounts (brings : α → List α) : List α → ℕ → Prop
  | nil : Amounts brings [] 0
  | cons {a : α} {as : List α} {m n : ℕ} (hbrings : Amounts brings (brings a) m) (has : Amounts brings as n) :
      Amounts brings (a :: as) (m + n + 1)

theorem Amounts.append (h : Amounts brings l m) (h' : Amounts brings l' n) : Amounts brings (l ++ l') (m + n) := by
  induction h with
  | nil => rwa [List.nil_append, Nat.zero_add]
  | @cons a as m k hbrings _ _ ih =>
    have hcons : Amounts brings (a :: (as ++ l')) (m + (k + n) + 1) := .cons hbrings ih
    rwa [show m + (k + n) + 1 = m + k + 1 + n by omega] at hcons

/-- A task is one of the number, besides the others and what it brings. -/
theorem Amounts.eraseIdx (h : Amounts brings l n) {j : ℕ} (hj : l[j]? = some a) :
    ∃ m k, Amounts brings (l.eraseIdx j) m ∧ Amounts brings (brings a) k ∧ n = m + k + 1 := by
  induction h generalizing j with
  | nil => cases hj
  | @cons b as m n hbrings has _ ih =>
    cases j with
    | zero =>
      obtain rfl : b = a := Option.some.inj hj
      exact ⟨n, m, has, hbrings, by omega⟩
    | succ j =>
      obtain ⟨m', k, hm, hk, rfl⟩ := ih hj
      exact ⟨m + m' + 1, k, .cons hbrings hm, hk, by omega⟩

theorem Amounts.length_le (h : Amounts brings pending n) {js : List ℕ}
    (hr : run (doTask brings) pending js = some rest) : js.length ≤ n := by
  induction js generalizing pending n with
  | nil => exact Nat.zero_le n
  | cons j js ih =>
    obtain ⟨next, hnext, hrest⟩ := run_cons.mp hr
    obtain ⟨a, ha, rfl⟩ := doTask_eq_some.mp hnext
    obtain ⟨m, k, hm, hk, rfl⟩ := h.eraseIdx ha
    exact Nat.succ_le_succ (ih (hm.append hk) hrest)

theorem amounts_length (h : ∀ a ∈ l, brings a = []) : Amounts brings l l.length := by
  induction l with
  | nil => exact .nil
  | cons a l ih =>
    have ha : Amounts brings (brings a) 0 := h a (List.mem_cons_self ..) ▸ .nil
    have hcons : Amounts brings (a :: l) (0 + l.length + 1) := .cons ha (ih fun b hb => h b (List.mem_cons_of_mem _ hb))
    rwa [Nat.zero_add] at hcons

theorem exists_amounts (h : ∀ a ∈ l, Acc (Brings brings) a) : ∃ n, Amounts brings l n := by
  have hone : ∀ a, Acc (Brings brings) a → ∃ n, Amounts brings (brings a) n := by
    intro a ha
    induction ha with
    | intro a _ ih =>
      -- what the task brings, one after the other
      have hall : ∀ bs : List α, (∀ b ∈ bs, Brings brings b a) → ∃ n, Amounts brings bs n := by
        intro bs hbs
        induction bs with
        | nil => exact ⟨0, .nil⟩
        | cons b bs ihbs =>
          obtain ⟨m, hm⟩ := ih b (hbs b (List.mem_cons_self ..))
          obtain ⟨n, hn⟩ := ihbs fun b hb => hbs b (List.mem_cons_of_mem _ hb)
          exact ⟨_, .cons hm hn⟩
      exact hall (brings a) fun b hb => hb
  induction l with
  | nil => exact ⟨0, .nil⟩
  | cons a l ih =>
    obtain ⟨m, hm⟩ := hone a (h a (List.mem_cons_self ..))
    obtain ⟨n, hn⟩ := ih fun b hb => h b (List.mem_cons_of_mem _ hb)
    exact ⟨_, .cons hm hn⟩

/-- A task that begins an endless chain keeps the work going. -/
theorem exists_run_of_not_acc (ha : a ∈ pending) (hacc : ¬ Acc (Brings brings) a) (n : ℕ) :
    ∃ js rest, run (doTask brings) pending js = some rest ∧ js.length = n := by
  induction n generalizing a pending with
  | zero => exact ⟨[], pending, rfl, rfl⟩
  | succ n ih =>
    obtain ⟨j, hj⟩ := List.mem_iff_getElem?.mp ha
    obtain ⟨b, hb, hbacc⟩ : ∃ b, b ∈ brings a ∧ ¬ Acc (Brings brings) b := by
      by_contra hnone
      refine hacc (.intro a fun b hb => ?_)
      by_contra hbacc
      exact hnone ⟨b, hb, hbacc⟩
    obtain ⟨js, rest, hr, hlength⟩ := ih (List.mem_append_right (pending.eraseIdx j) hb) hbacc
    exact ⟨j :: js, rest, run_cons.mpr ⟨_, doTask_eq_some.mpr ⟨a, hj, rfl⟩, hr⟩, congrArg Nat.succ hlength⟩

/-- **The work is bounded** exactly when no task begins an endless chain. -/
theorem bounded_iff : Bounded brings pending ↔ ∀ a ∈ pending, Acc (Brings brings) a := by
  constructor
  · rintro ⟨n, hn⟩ a ha
    by_contra hacc
    obtain ⟨js, rest, hr, hlength⟩ := exists_run_of_not_acc ha hacc (n + 1)
    have hle := hn js rest hr
    omega
  · intro h
    obtain ⟨n, hn⟩ := exists_amounts h
    exact ⟨n, fun js rest hr => hn.length_le hr⟩

/-! ### Tasks along a graph -/

section Graph

variable {E : β → β → Prop} {f : α → β} {Good : α → Prop} {x : β}

/-- The tasks that are good follow the edges: they bring good tasks, at least one at each successor and none
elsewhere. -/
structure Follows (brings : α → List α) (Good : α → Prop) (f : α → β) (E : β → β → Prop) : Prop where
  forth : ∀ a, Good a → ∀ b ∈ brings a, Good b ∧ E (f a) (f b)
  back : ∀ a, Good a → ∀ y, E (f a) y → ∃ b ∈ brings a, f b = y

theorem Follows.acc_iff (h : Follows brings Good f E) (ha : Good a) :
    Acc (Brings brings) a ↔ Acc (fun y x => E x y) (f a) := by
  constructor
  · intro hacc
    induction hacc with
    | intro a _ ih =>
      refine .intro _ fun y hy => ?_
      obtain ⟨b, hb, rfl⟩ := h.back a ha y hy
      exact ih b hb (h.forth a ha b hb).1
  · intro hacc
    generalize hx : f a = x at hacc
    induction hacc generalizing a with
    | intro x _ ih =>
      subst hx
      refine .intro _ fun b hb => ?_
      obtain ⟨hgood, hedge⟩ := h.forth a ha b hb
      exact ih (f b) hedge hgood rfl

theorem not_self_of_acc {r : β → β → Prop} (h : Acc r x) : ¬ r x x := by
  induction h with
  | intro x _ ih => exact fun hself => ih x hself hself

/-- No endless chain of edges begins in a node exactly when no cycle can be reached from it. -/
theorem acc_iff_acyclic (hfinite : {y | Relation.ReflTransGen E x y}.Finite) :
    Acc (fun y x => E x y) x ↔ ∀ y, Relation.ReflTransGen E x y → ¬ Relation.TransGen E y y := by
  constructor
  · intro hacc y hxy
    have hy : Acc (fun y x => E x y) y := by
      induction hxy with
      | refl => exact hacc
      | tail _ hedge ih => exact ih.inv hedge
    exact fun hcycle => not_self_of_acc hy.transGen (Relation.transGen_swap.mp hcycle)
  · intro hacyclic
    have := hfinite.to_subtype
    let r : {y | Relation.ReflTransGen E x y} → {y | Relation.ReflTransGen E x y} → Prop :=
      fun z y => Relation.TransGen E y z
    have : IsTrans _ r := ⟨fun _ _ _ hab hbc => hbc.trans hab⟩
    have : Std.Irrefl r := ⟨fun y => hacyclic y y.2⟩
    have hwf : WellFounded r := Finite.wellFounded_of_trans_of_irrefl r
    have hacc : ∀ y : {y | Relation.ReflTransGen E x y}, Acc (fun y x => E x y) y.1 := by
      intro y
      induction y using hwf.induction with
      | h y ih => exact .intro _ fun z hz => ih ⟨z, y.2.tail hz⟩ (.single hz)
    exact hacc ⟨x, .refl⟩

theorem acyclic_of_rank {rank : β → ℕ} (hup : ∀ x y, E x y → rank x < rank y) (x : β) : ¬ Relation.TransGen E x x := by
  intro hcycle
  have hlift : Relation.TransGen (· < ·) (rank x) (rank x) := hcycle.lift rank hup
  rw [Relation.transGen_eq_self] at hlift
  exact hlift.ne rfl

/-- **The work along a graph is bounded** exactly when no cycle can be reached. -/
theorem Follows.bounded_iff_acyclic (h : Follows brings Good f E) (hgood : ∀ a ∈ pending, Good a)
    (hfinite : ∀ a ∈ pending, {y | Relation.ReflTransGen E (f a) y}.Finite) :
    Bounded brings pending ↔
      ∀ a ∈ pending, ∀ y, Relation.ReflTransGen E (f a) y → ¬ Relation.TransGen E y y := by
  rw [bounded_iff]
  refine forall₂_congr fun a ha => ?_
  rw [h.acc_iff (hgood a ha), acc_iff_acyclic (hfinite a ha)]

end Graph

end Ros2Sh.Lib
