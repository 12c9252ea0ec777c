import Mathlib.Logic.Function.Basic

/-!
# Tables filled by assignments

A table is a partial function of the key, and `assignAll` makes a list of assignments in order; a later one overwrites
an earlier one of the same key.  If the assignments are `Consistent`, none of them overwrites another value, and the
table depends on the set of assignments only, not on their order or on how often each is made (`assignAll_congr`).
-/

namespace Ros2Sh.Lib

variable {κ ν : Type*} [DecidableEq κ] {table : κ → Option ν} {entries entries' : List (κ × ν)} {k : κ} {v : ν}

/-- `table[k] = v`, for each of the entries in turn. -/
def assignAll (table : κ → Option ν) (entries : List (κ × ν)) : κ → Option ν :=
  entries.foldl (fun t e => Function.update t e.1 (some e.2)) table

/-- No two assignments give a key different values. -/
def Consistent (entries : List (κ × ν)) : Prop :=
  ∀ e ∈ entries, ∀ e' ∈ entries, e.1 = e'.1 → e.2 = e'.2

theorem assignAll_append : assignAll table (entries ++ entries') = assignAll (assignAll table entries) entries' :=
  List.foldl_append ..

theorem assignAll_cons {e : κ × ν} :
    assignAll table (e :: entries) = assignAll (Function.update table e.1 (some e.2)) entries := rfl

theorem assignAll_of_forall_ne (h : ∀ e ∈ entries, e.1 ≠ k) : assignAll table entries k = table k := by
  induction entries generalizing table with
  | nil => rfl
  | cons e entries ih =>
    have hne : k ≠ e.1 := (h e (List.mem_cons_self ..)).symm
    rw [assignAll_cons, ih fun e' he' => h e' (List.mem_cons_of_mem _ he'), Function.update_of_ne hne]

theorem mem_or_of_assignAll (h : assignAll table entries k = some v) : (k, v) ∈ entries ∨ table k = some v := by
  induction entries generalizing table with
  | nil => exact .inr h
  | cons e entries ih =>
    rw [assignAll_cons] at h
    rcases ih h with hmem | htable
    · exact .inl (List.mem_cons_of_mem _ hmem)
    · by_cases hk : k = e.1
      · subst hk
        rw [Function.update_self] at htable
        obtain rfl := Option.some.inj htable
        exact .inl (List.mem_cons_self ..)
      · rw [Function.update_of_ne hk] at htable
        exact .inr htable

/-- **A consistent assignment stays**, whatever is assigned before and after it. -/
theorem assignAll_of_mem (hc : Consistent entries) (h : (k, v) ∈ entries) : assignAll table entries k = some v := by
  induction entries generalizing table with
  | nil => cases h
  | cons e entries ih =>
    have hc' : Consistent entries := fun a ha b hb =>
      hc a (List.mem_cons_of_mem _ ha) b (List.mem_cons_of_mem _ hb)
    rw [assignAll_cons]
    by_cases hmem : (k, v) ∈ entries
    · exact ih hc' hmem
    · obtain rfl : (k, v) = e := (List.mem_cons.mp h).resolve_right hmem
      by_cases hlater : ∃ e' ∈ entries, e'.1 = k
      · obtain ⟨⟨k', v'⟩, he', hkey⟩ := hlater
        obtain rfl : k' = k := hkey
        have hv : v = v' := hc (k', v) (List.mem_cons_self ..) (k', v') (List.mem_cons_of_mem _ he') rfl
        exact absurd (hv ▸ he') hmem
      · have hne : ∀ e' ∈ entries, e'.1 ≠ k := fun e' he' hkey => hlater ⟨e', he', hkey⟩
        rw [assignAll_of_forall_ne hne, Function.update_self]

/-- The assignments shadow the table. -/
theorem assignAll_eq_or : assignAll table entries k = (assignAll (fun _ => none) entries k).or (table k) := by
  induction entries generalizing table with
  | nil => rfl
  | cons e entries ih =>
    have hupdate : Function.update table e.1 (some e.2) k =
        (Function.update (fun _ => none) e.1 (some e.2) k).or (table k) := by
      by_cases hk : k = e.1
      · subst hk
        rw [Function.update_self, Function.update_self, Option.some_or]
      · rw [Function.update_of_ne hk, Function.update_of_ne hk, Option.none_or]
    calc assignAll table (e :: entries) k
        = (assignAll (fun _ => none) entries k).or (Function.update table e.1 (some e.2) k) := ih
      _ = ((assignAll (fun _ => none) entries k).or (Function.update (fun _ => none) e.1 (some e.2) k)).or
            (table k) := by rw [hupdate, Option.or_assoc]
      _ = (assignAll (fun _ => none) (e :: entries) k).or (table k) := by rw [assignAll_cons, ← ih]

/-- **Consistent assignments may be made in any order**, and repeated. -/
theorem assignAll_congr (hc : Consistent entries) (hmem : ∀ e, e ∈ entries ↔ e ∈ entries') :
    assignAll table entries = assignAll table entries' := by
  have hc' : Consistent entries' := fun a ha b hb => hc a ((hmem a).mpr ha) b ((hmem b).mpr hb)
  funext k
  by_cases h : ∃ e ∈ entries, e.1 = k
  · obtain ⟨⟨k', v⟩, he, rfl⟩ := h
    rw [assignAll_of_mem hc he, assignAll_of_mem hc' ((hmem _).mp he)]
  · have hne : ∀ e ∈ entries, e.1 ≠ k := fun e he hkey => h ⟨e, he, hkey⟩
    rw [assignAll_of_forall_ne hne, assignAll_of_forall_ne fun e he => hne e ((hmem e).mpr he)]

end Ros2Sh.Lib
