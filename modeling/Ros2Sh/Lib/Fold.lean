import Mathlib.Data.List.Forall2
import Mathlib.Data.List.Induction

/-!
# Loops that may throw

A `for` loop whose body may throw is `List.foldlM` in `Except`.  The rules below open such a loop at its head, at its
last turn and in the middle, and give what a condition that every turn preserves gives at the end.  A loop that only
appends one result a turn is `List.mapM`; it goes through exactly when every turn does.  `Outcome` says what holds of a
computation at either of its ends.
-/

namespace Ros2Sh.Lib

variable {ε α β σ : Type} {f : σ → α → Except ε σ} {s t : σ} {a : α} {as bs : List α}

/-- A computation that goes through, seen from its last part. -/
theorem bind_eq_ok {x : Except ε α} {g : α → Except ε β} {b : β} :
    (x >>= g) = .ok b ↔ ∃ a, x = .ok a ∧ g a = .ok b := by
  cases x with
  | error e => simp [bind, Except.bind]
  | ok a => simp [bind, Except.bind]

theorem map_eq_ok {x : Except ε α} {g : α → β} {b : β} : x.map g = .ok b ↔ ∃ a, x = .ok a ∧ g a = b := by
  cases x with
  | error e => simp [Except.map]
  | ok a => simp [Except.map]

theorem foldlM_nil_ok : ([] : List α).foldlM f s = .ok t ↔ s = t := by
  simp [pure, Except.pure]

theorem foldlM_cons_ok : (a :: as).foldlM f s = .ok t ↔ ∃ u, f s a = .ok u ∧ as.foldlM f u = .ok t := by
  rw [List.foldlM_cons, bind_eq_ok]

theorem foldlM_append_ok :
    (as ++ bs).foldlM f s = .ok t ↔ ∃ u, as.foldlM f s = .ok u ∧ bs.foldlM f u = .ok t := by
  rw [List.foldlM_append, bind_eq_ok]

theorem foldlM_snoc_ok :
    (as ++ [a]).foldlM f s = .ok t ↔ ∃ u, as.foldlM f s = .ok u ∧ f u a = .ok t := by
  rw [foldlM_append_ok]
  refine exists_congr fun u => and_congr_right fun _ => ?_
  rw [foldlM_cons_ok]
  constructor
  · rintro ⟨v, hv, hnil⟩
    rwa [← foldlM_nil_ok.mp hnil]
  · intro ht
    exact ⟨t, ht, foldlM_nil_ok.mpr rfl⟩

/-- **Loop rule.**  What every turn preserves holds at the end of the loop. -/
theorem foldlM_inv {I : σ → Prop} (hf : ∀ s, ∀ a ∈ as, ∀ t, I s → f s a = .ok t → I t) (h0 : I s)
    (h : as.foldlM f s = .ok t) : I t := by
  induction as generalizing s with
  | nil =>
    obtain rfl := foldlM_nil_ok.mp h
    exact h0
  | cons a as ih =>
    obtain ⟨u, hu, ht⟩ := foldlM_cons_ok.mp h
    have hIu : I u := hf s a (List.mem_cons_self ..) u h0 hu
    exact ih (fun s b hb => hf s b (List.mem_cons_of_mem _ hb)) hIu ht

/-- The exception that ends a loop, seen from the turn that throws it. -/
theorem foldlM_inv_error {I : σ → Prop} {J : ε → Prop} {e : ε} (hf : ∀ s, ∀ a ∈ as, ∀ t, I s → f s a = .ok t → I t)
    (he : ∀ s, ∀ a ∈ as, ∀ e, I s → f s a = .error e → J e) (h0 : I s) (h : as.foldlM f s = .error e) : J e := by
  induction as generalizing s with
  | nil => cases h
  | cons a as ih =>
    rw [List.foldlM_cons] at h
    cases hturn : f s a with
    | error e' =>
      rw [hturn] at h
      obtain rfl := Except.error.inj h
      exact he s a (List.mem_cons_self ..) e' h0 hturn
    | ok u =>
      rw [hturn] at h
      have hIu : I u := hf s a (List.mem_cons_self ..) u h0 hturn
      exact ih (fun s b hb => hf s b (List.mem_cons_of_mem _ hb)) (fun s b hb => he s b (List.mem_cons_of_mem _ hb))
        hIu h

/-- **Loop rule**, for an invariant of the state and of the elements that the loop has gone through. -/
theorem foldlM_inv_prefix {I : List α → σ → Prop}
    (hf : ∀ done a s t, I done s → f s a = .ok t → I (done ++ [a]) t) (h0 : I [] s)
    (h : as.foldlM f s = .ok t) : I as t := by
  induction as using List.reverseRecOn generalizing t with
  | nil =>
    obtain rfl := foldlM_nil_ok.mp h
    exact h0
  | append_singleton as a ih =>
    obtain ⟨u, hu, ht⟩ := foldlM_snoc_ok.mp h
    exact hf as a u t (ih hu) ht

/-- A loop goes through if no turn throws in a state that the invariant allows. -/
theorem exists_foldlM_ok {I : List α → σ → Prop}
    (hf : ∀ done a s t, I done s → f s a = .ok t → I (done ++ [a]) t)
    (hok : ∀ done, ∀ a ∈ as, ∀ s, I done s → ∃ t, f s a = .ok t) (h0 : I [] s) : ∃ t, as.foldlM f s = .ok t := by
  induction as using List.reverseRecOn with
  | nil => exact ⟨s, rfl⟩
  | append_singleton as a ih =>
    obtain ⟨u, hu⟩ := ih fun done b hb => hok done b (List.mem_append_left _ hb)
    have hI : I as u := foldlM_inv_prefix hf h0 hu
    obtain ⟨t, ht⟩ := hok as a (List.mem_append_right _ (List.mem_singleton_self a)) u hI
    exact ⟨t, foldlM_snoc_ok.mpr ⟨u, hu, ht⟩⟩

/-- A loop that appends one result a turn. -/
theorem mapM_eq_ok_iff {g : α → Except ε β} {bs : List β} :
    as.mapM g = .ok bs ↔ List.Forall₂ (fun a b => g a = .ok b) as bs := by
  induction as generalizing bs with
  | nil => simp [pure, Except.pure, eq_comm]
  | cons a as ih =>
    rw [List.mapM_cons, bind_eq_ok, List.forall₂_cons_left_iff]
    refine exists_congr fun b => ?_
    rw [bind_eq_ok]
    constructor
    · rintro ⟨hb, bs', hbs', heq⟩
      exact ⟨bs', hb, ih.mp hbs', (Except.ok.inj heq).symm⟩
    · rintro ⟨bs', hb, hbs', rfl⟩
      exact ⟨hb, bs', ih.mpr hbs', rfl⟩

theorem exists_mem_of_forall₂ {R : α → β → Prop} {bs : List β} (h : List.Forall₂ R as bs) (ha : a ∈ as) :
    ∃ b ∈ bs, R a b := by
  induction h with
  | nil => cases ha
  | @cons a' b as bs hab _ ih =>
    rcases List.mem_cons.mp ha with rfl | ha
    · exact ⟨b, List.mem_cons_self .., hab⟩
    · obtain ⟨b', hb', hab'⟩ := ih ha
      exact ⟨b', List.mem_cons_of_mem _ hb', hab'⟩

theorem mem_of_mapM {g : α → Except ε β} {bs : List β} (h : as.mapM g = .ok bs) {b : β} :
    b ∈ bs ↔ ∃ a ∈ as, g a = .ok b := by
  have hturns := mapM_eq_ok_iff.mp h
  constructor
  · intro hb
    obtain ⟨a, ha, hab⟩ := exists_mem_of_forall₂ hturns.flip hb
    exact ⟨a, ha, hab⟩
  · rintro ⟨a, ha, hab⟩
    obtain ⟨b', hb', hab'⟩ := exists_mem_of_forall₂ hturns ha
    rwa [Except.ok.inj (hab.symm.trans hab')]

theorem mapM_eq_ok_map {g : α → Except ε β} {r : α → β} (h : ∀ a ∈ as, g a = .ok (r a)) :
    as.mapM g = .ok (as.map r) := by
  rw [mapM_eq_ok_iff, List.forall₂_map_right_iff, List.forall₂_same]
  exact h

theorem map_eq_of_mapM {γ : Type} {g : α → Except ε β} {bs : List β} {p : α → γ} {q : β → γ}
    (hg : ∀ a b, g a = .ok b → p a = q b) (h : as.mapM g = .ok bs) : as.map p = bs.map q := by
  have hturns := mapM_eq_ok_iff.mp h
  rw [← List.forall₂_eq_eq_eq, List.forall₂_map_left_iff, List.forall₂_map_right_iff]
  exact hturns.imp fun a b hab => hg a b hab

theorem exists_mapM_ok_iff {g : α → Except ε β} : (∃ bs, as.mapM g = .ok bs) ↔ ∀ a ∈ as, ∃ b, g a = .ok b := by
  induction as with
  | nil => simp [pure, Except.pure]
  | cons a as ih =>
    rw [List.forall_mem_cons, ← ih]
    constructor
    · rintro ⟨bs, hbs⟩
      obtain ⟨b, bs', hb, hbs', -⟩ := List.forall₂_cons_left_iff.mp (mapM_eq_ok_iff.mp hbs)
      exact ⟨⟨b, hb⟩, bs', mapM_eq_ok_iff.mpr hbs'⟩
    · rintro ⟨⟨b, hb⟩, bs, hbs⟩
      exact ⟨b :: bs, mapM_eq_ok_iff.mpr (.cons hb (mapM_eq_ok_iff.mp hbs))⟩

/-! ### Both ends of a computation -/

section Outcome

variable {P P' : α → Prop} {Q : β → Prop} {E E' : ε → Prop} {x : Except ε α}

/-- However the computation ends: `P` holds of its result, or `E` of what it throws. -/
def Outcome (P : α → Prop) (E : ε → Prop) : Except ε α → Prop
  | .ok a => P a
  | .error e => E e

theorem Outcome.imp (h : Outcome P E x) (hP : ∀ a, P a → P' a) (hE : ∀ e, E e → E' e) : Outcome P' E' x := by
  cases x with
  | ok a => exact hP a h
  | error e => exact hE e h

theorem Outcome.bind {g : α → Except ε β} (hx : Outcome P E x) (hg : ∀ a, P a → Outcome Q E (g a)) :
    Outcome Q E (x >>= g) := by
  cases x with
  | ok a => exact hg a hx
  | error e => exact hx

/-- **Loop rule**, for both ends of a loop. -/
theorem Outcome.foldlM {I : List α → σ → Prop}
    (hf : ∀ done, ∀ a ∈ as, ∀ s, done ⊆ as → I done s → Outcome (I (done ++ [a])) E (f s a)) (h0 : I [] s) :
    Outcome (I as) E (as.foldlM f s) := by
  suffices h : ∀ done, done <+: as → Outcome (I done) E (done.foldlM f s) from h as List.prefix_rfl
  intro done
  induction done using List.reverseRecOn with
  | nil => exact fun _ => h0
  | append_singleton done a ih =>
    intro hdone
    have hprefix : done <+: as := (List.prefix_append done [a]).trans hdone
    have ha : a ∈ as := hdone.subset (List.mem_append_right done (List.mem_singleton_self a))
    have hturn : [a].foldlM f = fun u => f u a := funext fun u => by simp
    rw [List.foldlM_append, hturn]
    exact (ih hprefix).bind fun u hu => hf done a ha u hprefix.subset hu

end Outcome

end Ros2Sh.Lib
