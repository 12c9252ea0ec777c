import Mathlib.Data.Set.Finite.Basic
import Mathlib.Data.Finset.Card
import Mathlib.Logic.Relation

/-!
# Worklist traversal

A loop is a step function `step : σ → Option σ` that returns `none` when the loop is over, and `Ends step s t` says that
the loop, begun in `s`, ends in `t`.

The worklist traversal visits the nodes that can be reached from a root: a node is taken off the list, and unless it was
visited before, it is visited and its successors are put on the list.  The list may hold nodes several times, and the
graph may have cycles.  If finitely many nodes can be reached, the loop ends, having visited each of them once and
nothing else (`ends_of_finite`): each turn either shortens the list or uses up a node that was not visited.
-/

namespace Ros2Sh.Lib

section Loop

variable {σ τ : Type*} {step : σ → Option σ} {s t : σ}

/-- The loop begun in the first state ends in the second. -/
inductive Ends (step : σ → Option σ) : σ → σ → Prop
  | done {s : σ} (h : step s = none) : Ends step s s
  | turn {s t u : σ} (h : step s = some t) (hrest : Ends step t u) : Ends step s u

theorem Ends.step_eq_none (h : Ends step s t) : step t = none := by
  induction h with
  | done h => exact h
  | turn _ _ ih => exact ih

/-- **Loop rule.**  What every turn preserves holds where the loop ends. -/
theorem Ends.inv {I : σ → Prop} (hstep : ∀ s t, I s → step s = some t → I t) (h : Ends step s t) (h0 : I s) : I t := by
  induction h with
  | done _ => exact h0
  | turn h _ ih => exact ih (hstep _ _ h0 h)

theorem Ends.map {step' : τ → Option τ} {f : σ → τ} (hf : ∀ s, step' (f s) = (step s).map f) (h : Ends step s t) :
    Ends step' (f s) (f t) := by
  induction h with
  | done h => exact .done (by rw [hf, h]; rfl)
  | turn h _ ih => exact .turn (by rw [hf, h]; rfl) ih

end Loop

namespace Worklist

/-- The nodes still to be looked at, the next one first, and those visited, in the order of the visits. -/
structure State (α : Type*) where
  todo : List α
  visited : List α

/-- One turn. -/
def step {α : Type*} [DecidableEq α] (next : α → List α) (s : State α) : Option (State α) :=
  match s.todo with
  | [] => none
  | a :: todo =>
    if a ∈ s.visited then some { s with todo := todo }
    else some ⟨(next a).reverse ++ todo, s.visited ++ [a]⟩

/-- The second node can be reached from the first. -/
def Reaches {α : Type*} (next : α → List α) : α → α → Prop := Relation.ReflTransGen fun a b => b ∈ next a

variable {α : Type*} {next : α → List α} {root : α} {s t : State α}

/-- The invariant: only nodes that can be reached are met, none is visited twice, and the root and the successors of
visited nodes are visited or will be looked at. -/
structure Inv (next : α → List α) (root : α) (s : State α) : Prop where
  todo : ∀ a ∈ s.todo, Reaches next root a
  visited : ∀ a ∈ s.visited, Reaches next root a
  nodup : s.visited.Nodup
  start : root ∈ s.todo ∨ root ∈ s.visited
  closed : ∀ a ∈ s.visited, ∀ b ∈ next a, b ∈ s.todo ∨ b ∈ s.visited

theorem inv_initial (next : α → List α) (root : α) : Inv next root ⟨[root], []⟩ where
  todo _ ha := List.mem_singleton.mp ha ▸ .refl
  visited := nofun
  nodup := List.nodup_nil
  start := .inl (List.mem_singleton_self root)
  closed := nofun

/-- Where the loop ends, every node that can be reached was visited. -/
theorem Inv.mem_visited_iff (h : Inv next root t) (htodo : t.todo = []) {a : α} :
    a ∈ t.visited ↔ Reaches next root a := by
  have hno : ∀ b, ¬ b ∈ t.todo := fun b hb => by
    rw [htodo] at hb
    cases hb
  constructor
  · exact h.visited a
  · intro ha
    induction ha with
    | refl => exact h.start.resolve_left (hno root)
    | tail _ hb ih => exact (h.closed _ ih _ hb).resolve_left (hno _)

variable [DecidableEq α]

theorem step_cases (h : step next s = some t) : ∃ a todo, s.todo = a :: todo ∧
    ((a ∈ s.visited ∧ t = ⟨todo, s.visited⟩) ∨
      (a ∉ s.visited ∧ t = ⟨(next a).reverse ++ todo, s.visited ++ [a]⟩)) := by
  unfold step at h
  split at h
  · cases h
  · rename_i a todo htodo
    refine ⟨a, todo, htodo, ?_⟩
    split at h
    · exact .inl ⟨‹_›, (Option.some.inj h).symm⟩
    · exact .inr ⟨‹_›, (Option.some.inj h).symm⟩

theorem inv_step (h : Inv next root s) (hstep : step next s = some t) : Inv next root t := by
  obtain ⟨a, todo, htodo, ⟨ha, rfl⟩ | ⟨ha, rfl⟩⟩ := step_cases hstep
  · have hmem : ∀ b, b ∈ s.todo ∨ b ∈ s.visited → b ∈ todo ∨ b ∈ s.visited := by
      rintro b (hb | hb)
      · rw [htodo] at hb
        rcases List.mem_cons.mp hb with rfl | hb
        · exact .inr ha
        · exact .inl hb
      · exact .inr hb
    exact ⟨fun b hb => h.todo b (htodo ▸ List.mem_cons_of_mem _ hb), h.visited, h.nodup, hmem _ h.start,
      fun b hb d hd => hmem d (h.closed b hb d hd)⟩
  · have hreach : Reaches next root a := h.todo a (htodo ▸ List.mem_cons_self ..)
    have hmem : ∀ b, b ∈ s.todo ∨ b ∈ s.visited → b ∈ (next a).reverse ++ todo ∨ b ∈ s.visited ++ [a] := by
      rintro b (hb | hb)
      · rw [htodo] at hb
        rcases List.mem_cons.mp hb with rfl | hb
        · exact .inr (List.mem_append_right _ (List.mem_singleton_self b))
        · exact .inl (List.mem_append_right _ hb)
      · exact .inr (List.mem_append_left _ hb)
    refine ⟨fun b hb => ?_, fun b hb => ?_, ?_, hmem _ h.start, fun b hb d hd => ?_⟩
    · rcases List.mem_append.mp hb with hnext | hb
      · exact hreach.tail (List.mem_reverse.mp hnext)
      · exact h.todo b (htodo ▸ List.mem_cons_of_mem _ hb)
    · rcases List.mem_append.mp hb with hb | hb
      · exact h.visited b hb
      · exact List.mem_singleton.mp hb ▸ hreach
    · exact List.nodup_append.mpr ⟨h.nodup, List.nodup_cons.mpr ⟨List.not_mem_nil, List.nodup_nil⟩,
        fun b hb d hd heq => ha (List.mem_singleton.mp hd ▸ heq ▸ hb)⟩
    · rcases List.mem_append.mp hb with hb | hb
      · exact hmem d (h.closed b hb d hd)
      · obtain rfl := List.mem_singleton.mp hb
        exact .inl (List.mem_append_left _ (List.mem_reverse.mpr hd))

theorem Inv.length_le {R : Finset α} (hR : ∀ a, Reaches next root a → a ∈ R) (h : Inv next root s) :
    s.visited.length ≤ R.card := by
  rw [← List.toFinset_card_of_nodup h.nodup]
  refine Finset.card_le_card fun a ha => ?_
  exact hR a (h.visited a (List.mem_toFinset.mp ha))

/-- The loop ends: a turn either uses up a node that was not visited, or shortens the list. -/
theorem exists_ends {R : Finset α} (hR : ∀ a, Reaches next root a → a ∈ R) (s : State α) (h : Inv next root s) :
    ∃ t, Ends (step next) s t := by
  cases hstep : step next s with
  | none => exact ⟨s, .done hstep⟩
  | some t =>
    have ht := inv_step h hstep
    obtain ⟨u, hu⟩ := exists_ends hR t ht
    exact ⟨u, .turn hstep hu⟩
termination_by (R.card - s.visited.length, s.todo.length)
decreasing_by
  have hlength := ht.length_le hR
  obtain ⟨a, todo, htodo, ⟨-, rfl⟩ | ⟨-, rfl⟩⟩ := step_cases hstep
  · rw [htodo]
    exact Prod.Lex.right _ (Nat.lt_succ_self _)
  · rw [List.length_append, List.length_singleton] at hlength
    refine Prod.Lex.left _ _ ?_
    rw [List.length_append, List.length_singleton]
    omega

theorem todo_eq_nil (h : step next s = none) : s.todo = [] := by
  unfold step at h
  split at h
  · assumption
  · split at h <;> cases h

/-- **Worklist traversal** of a graph in which finitely many nodes can be reached: the loop ends, and the nodes visited
are those that can be reached, each of them once. -/
theorem ends_of_finite (next : α → List α) (root : α) (hfinite : {a | Reaches next root a}.Finite) :
    ∃ t, Ends (step next) ⟨[root], []⟩ t ∧ t.visited.Nodup ∧ ∀ a, a ∈ t.visited ↔ Reaches next root a := by
  have hR : ∀ a, Reaches next root a → a ∈ hfinite.toFinset := fun a ha => hfinite.mem_toFinset.mpr ha
  obtain ⟨t, ht⟩ := exists_ends hR ⟨[root], []⟩ (inv_initial next root)
  have hinv : Inv next root t := ht.inv (fun _ _ => inv_step) (inv_initial next root)
  exact ⟨t, ht, hinv.nodup, fun _ => hinv.mem_visited_iff (todo_eq_nil ht.step_eq_none)⟩

end Worklist

end Ros2Sh.Lib
