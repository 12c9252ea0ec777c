import Mathlib.Data.List.Nodup
import Mathlib.Data.List.Perm.Basic
import Mathlib.Tactic.Common

/-!
# Pools of reusable objects

A pool hands out objects and takes them back.  Objects are numbered in the order in which they were created, so a
pool is the list of the objects it holds and the number of objects ever created: `pop` takes any object the pool
holds, and creates the next one when it holds none; `recycle` puts an object back.

`Conserves p out` says that the objects in the pool and those in `out` are together exactly the objects ever created,
each once.  Everything one wants to know of the ownership of the objects follows from it (`Conserves.free_nodup`,
`Conserves.disjoint`, `Conserves.out_nodup`, `Conserves.length`), and `pop` and `recycle` preserve it.

The objects that are out are held by the members of a list of users; `heldBy` collects them, and the last section says
what it becomes when one user changes.
-/

namespace Ros2Sh.Lib

/-- A pool: the objects it holds, and the number of objects ever created for it. -/
structure Pool where
  free : List ℕ
  created : ℕ
  deriving DecidableEq, Repr

namespace Pool

/-- A pool filled with `n` new objects. -/
def ofDepth (n : ℕ) : Pool := ⟨List.range n, n⟩

/-- `pop` may return `o`: it is one of the objects in the pool, or the pool is empty and `o` is created. -/
def pop (p : Pool) (o : ℕ) : Option Pool :=
  if o ∈ p.free then some { p with free := p.free.erase o }
  else if p.free = [] ∧ o = p.created then some { p with created := p.created + 1 }
  else none

def recycle (p : Pool) (o : ℕ) : Pool := { p with free := o :: p.free }

/-- The objects in the pool and the objects in `out` are the objects ever created, each once. -/
def Conserves (p : Pool) (out : List ℕ) : Prop := (p.free ++ out).Perm (List.range p.created)

section Conserves

variable {p p' : Pool} {out out' : List ℕ} {o : ℕ}

theorem conserves_iff_count :
    Conserves p out ↔ ∀ o, p.free.count o + out.count o = if o < p.created then 1 else 0 := by
  unfold Conserves
  rw [List.perm_iff_count]
  refine forall_congr' fun o => ?_
  rw [List.count_append, List.count_range]

theorem conserves_ofDepth (n : ℕ) : Conserves (ofDepth n) [] := by
  simp [Conserves, ofDepth]

theorem Conserves.congr (h : Conserves p out) (hp : out.Perm out') : Conserves p out' :=
  (List.Perm.append_left _ hp.symm).trans h

theorem Conserves.free_nodup (h : Conserves p out) : p.free.Nodup :=
  (List.nodup_append.mp (h.nodup_iff.mpr List.nodup_range)).1

theorem Conserves.out_nodup (h : Conserves p out) : out.Nodup :=
  (List.nodup_append.mp (h.nodup_iff.mpr List.nodup_range)).2.1

theorem Conserves.disjoint (h : Conserves p out) (ho : o ∈ p.free) : o ∉ out := fun ho' =>
  (List.nodup_append.mp (h.nodup_iff.mpr List.nodup_range)).2.2 o ho o ho' rfl

theorem Conserves.length (h : Conserves p out) : p.free.length + out.length = p.created := by
  simpa using h.length_eq

theorem Conserves.pop (h : Conserves p out) (hp : p.pop o = some p') : Conserves p' (o :: out) := by
  rw [conserves_iff_count] at h ⊢
  intro x
  have hx := h x
  unfold Pool.pop at hp
  split at hp
  · rename_i hmem
    obtain rfl := Option.some.inj hp
    have hpos := List.count_pos_iff.mpr hmem
    simp only [List.count_erase, List.count_cons]
    by_cases hxo : o = x
    · subst hxo
      simp only [beq_self_eq_true, if_true]; omega
    · simp only [beq_iff_eq, hxo, if_false]; omega
  · split at hp
    · rename_i hnew
      obtain rfl := Option.some.inj hp
      obtain ⟨hnil, rfl⟩ := hnew
      simp only [hnil, List.count_nil, Nat.zero_add, List.count_cons] at hx ⊢
      by_cases hxo : p.created = x
      · subst hxo
        simp only [Nat.lt_irrefl, if_false] at hx
        simp [hx]
      · have hlt : x < p.created + 1 ↔ x < p.created := by omega
        simp only [beq_iff_eq, hxo, if_false, Nat.add_zero, hx, hlt]
    · cases hp

theorem Conserves.recycle (h : Conserves p (o :: out)) : Conserves (p.recycle o) out := by
  refine List.Perm.trans ?_ h
  have hmid : (p.free ++ o :: out).Perm (o :: (p.free ++ out)) := List.perm_middle
  exact hmid.symm

end Conserves

end Pool

/-! ### The objects held by a list of users -/

section HeldBy

variable {κ : Type*} {f : κ → List ℕ} {l : List κ} {i j : ℕ} {a b : κ} {o : ℕ}

/-- The objects held by the users of a list. -/
def heldBy (f : κ → List ℕ) (l : List κ) : List ℕ := l.flatMap f

theorem heldBy_append_single : heldBy f (l ++ [a]) = heldBy f l ++ f a := by
  simp [heldBy]

theorem split_at (hi : l[i]? = some a) : l = l.take i ++ a :: l.drop (i + 1) := by
  obtain ⟨hlt, rfl⟩ := List.getElem?_eq_some_iff.mp hi
  rw [← List.drop_eq_getElem_cons hlt, List.take_append_drop]

/-- What one user holds, and the rest. -/
theorem heldBy_perm (hi : l[i]? = some a) :
    (heldBy f l).Perm (f a ++ heldBy f (l.take i ++ l.drop (i + 1))) := by
  conv_lhs => rw [split_at hi]
  simp only [heldBy, List.flatMap_append, List.flatMap_cons]
  rw [← List.append_assoc, ← List.append_assoc]
  exact List.Perm.append_right _ List.perm_append_comm

/-- The same rest, when the user changes. -/
theorem heldBy_set_perm (hi : l[i]? = some a) :
    (heldBy f (l.set i b)).Perm (f b ++ heldBy f (l.take i ++ l.drop (i + 1))) := by
  obtain ⟨hlt, -⟩ := List.getElem?_eq_some_iff.mp hi
  have hset : (l.set i b)[i]? = some b := by simp [hlt]
  have h := heldBy_perm (f := f) hset
  rwa [List.take_set_of_le (Nat.le_refl i), List.drop_set_of_lt (Nat.lt_succ_self i)] at h

theorem heldBy_set_gain {x : List ℕ} (hi : l[i]? = some a) (h : f b = x ++ f a) :
    (heldBy f (l.set i b)).Perm (x ++ heldBy f l) := by
  have h1 := heldBy_set_perm (f := f) (b := b) hi
  rw [h, List.append_assoc] at h1
  exact h1.trans (List.Perm.append_left x (heldBy_perm hi).symm)

theorem heldBy_set_drop {x : List ℕ} (hi : l[i]? = some a) (h : f a = x ++ f b) :
    (heldBy f l).Perm (x ++ heldBy f (l.set i b)) := by
  have h1 := heldBy_perm (f := f) hi
  rw [h, List.append_assoc] at h1
  exact h1.trans (List.Perm.append_left x (heldBy_set_perm hi).symm)

theorem heldBy_set_same (hi : l[i]? = some a) (h : f b = f a) :
    (heldBy f (l.set i b)).Perm (heldBy f l) :=
  heldBy_set_gain (x := []) hi h

theorem heldBy_exclusive (hn : (heldBy f l).Nodup) (hi : l[i]? = some a) (hj : l[j]? = some b) (hij : i ≠ j)
    (ho : o ∈ f a) : o ∉ f b := by
  intro hob
  have hrest : o ∈ heldBy f (l.take i ++ l.drop (i + 1)) := by
    rw [heldBy, List.mem_flatMap]
    refine ⟨b, ?_, hob⟩
    rw [List.mem_append]
    rcases Nat.lt_or_gt_of_ne hij with hlt | hgt
    · right
      rw [List.mem_iff_getElem?]
      exact ⟨j - (i + 1), by rw [List.getElem?_drop, ← hj]; congr 1; omega⟩
    · left
      rw [List.mem_iff_getElem?]
      exact ⟨j, by rw [List.getElem?_take_of_lt hgt, hj]⟩
  have hn' := (heldBy_perm (f := f) hi).nodup_iff.mp hn
  exact (List.nodup_append.mp hn').2.2 o ho o hrest rfl

theorem mem_heldBy (hi : l[i]? = some a) (ho : o ∈ f a) : o ∈ heldBy f l := by
  rw [heldBy, List.mem_flatMap]
  exact ⟨a, List.mem_of_getElem? hi, ho⟩

end HeldBy

end Ros2Sh.Lib
