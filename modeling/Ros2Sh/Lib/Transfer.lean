import Mathlib.Data.List.Forall2
import Mathlib.Logic.Function.Basic
import Ros2Sh.Lib.Fold

/-!
# Conversions that write into a target

A conversion takes a value and what its target holds, and returns what the target holds afterwards; it may throw.  Two
combinators build the conversion of a composite value from those of its parts:

* `convertEach` converts the elements of a sequence into the elements of the target, one by one;
* `assignField`, in a loop, converts the members of a record by name.  A record is a partial function of the name, and
  accessing a member that is missing throws.

`Transfers convert R T` says what a conversion is for: a value that has a counterpart in the relation `R` is converted
into a counterpart, whatever the target held, if only its shape was right (`T`), and the shape stays right.
The rules for the combinators are `transfers_each` and `transfers_fields`.  They have converses, `convertEach_ok` and
`assignFields_ok`: a conversion of a composite value that goes through converts every part.
-/

namespace Ros2Sh.Lib

variable {ε κ V W : Type} {convert : V → W → Except ε W} {R : V → W → Prop} {T : W → Prop}

/-- A value with a counterpart is converted into a counterpart, into every target of the right shape. -/
def Transfers (convert : V → W → Except ε W) (R : V → W → Prop) (T : W → Prop) : Prop :=
  ∀ v w before, R v w → T before → ∃ after, convert v before = .ok after ∧ R v after ∧ T after

/-! ### Sequences -/

/-- Convert the elements of a sequence into the elements of the target; `short` is thrown when the target is shorter. -/
def convertEach (short : ε) (convert : V → W → Except ε W) : List V → List W → Except ε (List W)
  | [], _ => .ok []
  | _ :: _, [] => .error short
  | v :: vs, w :: ws => do
    let w' ← convert v w
    let ws' ← convertEach short convert vs ws
    return w' :: ws'

variable {short : ε}

/-- The sequences of counterparts are counterparts, if the target has been given the right length. -/
theorem transfers_each (h : Transfers convert R T) {vs : List V} {ws before : List W} (hR : List.Forall₂ R vs ws)
    (hlen : before.length = vs.length) (hT : ∀ w ∈ before, T w) :
    ∃ after, convertEach short convert vs before = .ok after ∧ List.Forall₂ R vs after ∧ ∀ w ∈ after, T w := by
  induction hR generalizing before with
  | nil => exact ⟨[], rfl, .nil, by simp⟩
  | @cons v w vs ws hvw _ ih =>
    obtain _ | ⟨b, bs⟩ := before
    · simp at hlen
    · obtain ⟨a, ha, hRa, hTa⟩ := h v w b hvw (hT b (List.mem_cons_self ..))
      have hlen' : bs.length = vs.length := by simpa using hlen
      obtain ⟨as, has, hRas, hTas⟩ := ih hlen' fun w hw => hT w (List.mem_cons_of_mem _ hw)
      have hall : convertEach short convert (v :: vs) (b :: bs) = .ok (a :: as) := by
        simp [convertEach, ha, has, bind, Except.bind, pure, Except.pure]
      exact ⟨a :: as, hall, .cons hRa hRas, List.forall_mem_cons.mpr ⟨hTa, hTas⟩⟩

theorem exists_forall₂ {vs : List V} (h : ∀ v ∈ vs, ∃ w, R v w ∧ T w) :
    ∃ ws, List.Forall₂ R vs ws ∧ ∀ w ∈ ws, T w := by
  induction vs with
  | nil => exact ⟨[], .nil, by simp⟩
  | cons v vs ih =>
    obtain ⟨w, hvw, hw⟩ := h v (List.mem_cons_self ..)
    obtain ⟨ws, hws, hT⟩ := ih fun v hv => h v (List.mem_cons_of_mem _ hv)
    exact ⟨w :: ws, .cons hvw hws, List.forall_mem_cons.mpr ⟨hw, hT⟩⟩

theorem convertEach_ok {v : V} {vs : List V} {before after : List W}
    (h : convertEach short convert (v :: vs) before = .ok after) :
    ∃ b a, b ∈ before ∧ convert v b = .ok a := by
  obtain _ | ⟨b, bs⟩ := before
  · cases h
  · obtain ⟨a, ha, -⟩ := bind_eq_ok.mp h
    exact ⟨b, a, List.mem_cons_self .., ha⟩

/-! ### Records -/

section Record

/-- `record[name]`. -/
def member (missing : κ → ε) (record : κ → Option V) (name : κ) : Except ε V :=
  match record name with
  | none => .error (missing name)
  | some v => .ok v

theorem member_eq_ok {missing : κ → ε} {record : κ → Option V} {name : κ} {v : V} :
    member missing record name = .ok v ↔ record name = some v := by
  unfold member
  cases record name <;> simp

variable [DecidableEq κ]

/-- `convert(source[name], target[name])`. -/
def assignField (missing : κ → ε) (source : κ → Option V) (target : κ → Option W)
    (field : κ × (V → W → Except ε W)) : Except ε (κ → Option W) := do
  let v ← member missing source field.1
  let w ← member missing target field.1
  let w' ← field.2 v w
  return Function.update target field.1 (some w')

variable {missing : κ → ε} {source : κ → Option V} {target after : κ → Option W} {name : κ}
  {field : κ × (V → W → Except ε W)} {fields : List (κ × (V → W → Except ε W))}

theorem assignField_eq_ok :
    assignField missing source target field = .ok after ↔
      ∃ v w w', source field.1 = some v ∧ target field.1 = some w ∧ field.2 v w = .ok w' ∧
        after = Function.update target field.1 (some w') := by
  unfold assignField
  simp only [bind_eq_ok, member_eq_ok, pure, Except.pure, Except.ok.injEq]
  constructor
  · rintro ⟨v, hv, w, hw, w', hw', rfl⟩
    exact ⟨v, w, w', hv, hw, hw', rfl⟩
  · rintro ⟨v, w, w', hv, hw, hw', rfl⟩
    exact ⟨v, hv, w, hw, w', hw', rfl⟩

/-- The loop over fields of distinct names whose members can all be converted: each member of the result satisfies what
its own conversion ensures, and the other members are those of the target. -/
theorem assignFields_of {Q : κ → W → Prop} (hn : (fields.map Prod.fst).Nodup)
    (h : ∀ field ∈ fields, ∃ v w w', source field.1 = some v ∧ target field.1 = some w ∧ field.2 v w = .ok w' ∧
      Q field.1 w') :
    ∃ after, fields.foldlM (assignField missing source) target = .ok after ∧
      (∀ field ∈ fields, ∃ w', after field.1 = some w' ∧ Q field.1 w') ∧
        ∀ name, name ∉ fields.map Prod.fst → after name = target name := by
  induction fields generalizing target with
  | nil => exact ⟨target, rfl, by simp, fun _ _ => rfl⟩
  | cons field fields ih =>
    rw [List.map_cons, List.nodup_cons] at hn
    obtain ⟨v, w, w', hv, hw, hw', hQ⟩ := h field (List.mem_cons_self ..)
    -- the conversions of the other fields see the target as it was: their names are different
    have hrest : ∀ other ∈ fields, ∃ x y y', source other.1 = some x ∧
        Function.update target field.1 (some w') other.1 = some y ∧ other.2 x y = .ok y' ∧ Q other.1 y' := by
      intro other hother
      have hne : other.1 ≠ field.1 := by
        intro heq
        exact hn.1 (heq ▸ List.mem_map_of_mem hother)
      simpa [Function.update_of_ne hne] using h other (List.mem_cons_of_mem _ hother)
    obtain ⟨after, hafter, hin, hout⟩ := ih hn.2 hrest
    refine ⟨after, foldlM_cons_ok.mpr ⟨_, assignField_eq_ok.mpr ⟨v, w, w', hv, hw, hw', rfl⟩, hafter⟩, ?_, ?_⟩
    · intro other hother
      rcases List.mem_cons.mp hother with rfl | hother
      · exact ⟨w', by rw [hout _ hn.1]; simp, hQ⟩
      · exact hin other hother
    · intro name hname
      rw [List.map_cons, List.mem_cons, not_or] at hname
      rw [hout name hname.2, Function.update_of_ne hname.1]

theorem transfers_fields {S : κ → V → W → Prop} {T : κ → W → Prop} {counterpart : κ → Option W}
    (hn : (fields.map Prod.fst).Nodup) (h : ∀ field ∈ fields, Transfers field.2 (S field.1) (T field.1))
    (hS : ∀ field ∈ fields, ∃ v w, source field.1 = some v ∧ counterpart field.1 = some w ∧ S field.1 v w)
    (hT : ∀ field ∈ fields, ∃ w, target field.1 = some w ∧ T field.1 w) :
    ∃ after, fields.foldlM (assignField missing source) target = .ok after ∧
      (∀ field ∈ fields, ∃ w, after field.1 = some w ∧ (∃ v, source field.1 = some v ∧ S field.1 v w) ∧ T field.1 w) ∧
        ∀ name, name ∉ fields.map Prod.fst → after name = target name := by
  refine assignFields_of (Q := fun name w => (∃ v, source name = some v ∧ S name v w) ∧ T name w) hn ?_
  intro field hfield
  obtain ⟨v, w, hv, -, hvw⟩ := hS field hfield
  obtain ⟨b, hb, hTb⟩ := hT field hfield
  obtain ⟨a, ha, hSa, hTa⟩ := h field hfield v w b hvw hTb
  exact ⟨v, b, a, hv, hb, ha, ⟨v, hv, hSa⟩, hTa⟩

/-- A loop that goes through finds every member in the source and in the target, and converts it. -/
theorem assignFields_ok (hn : (fields.map Prod.fst).Nodup)
    (h : fields.foldlM (assignField missing source) target = .ok after) :
    ∀ field ∈ fields, ∃ v w w', source field.1 = some v ∧ target field.1 = some w ∧ field.2 v w = .ok w' := by
  induction fields generalizing target with
  | nil => simp
  | cons field fields ih =>
    rw [List.map_cons, List.nodup_cons] at hn
    obtain ⟨target', hfirst, hrest⟩ := foldlM_cons_ok.mp h
    obtain ⟨v, w, w', hv, hw, hw', rfl⟩ := assignField_eq_ok.mp hfirst
    intro other hother
    rcases List.mem_cons.mp hother with rfl | hother
    · exact ⟨v, w, w', hv, hw, hw'⟩
    · have hne : other.1 ≠ field.1 := by
        intro heq
        exact hn.1 (heq ▸ List.mem_map_of_mem hother)
      simpa [Function.update_of_ne hne] using ih hn.2 hrest other hother

end Record

end Ros2Sh.Lib
