import Ros2Sh.Converter.Template

/-!
# The same message on both sides

`FieldType.Counterparts` says when a ROS 2 value and dynamic data are the same message: their leaves convert to each
other, and they have the same fields, the placeholder aside.  The relation is what the converters are measured against.
It is functional in both directions (`counterparts_agree`, `counterparts_unique`), every value has a counterpart
(`exists_xtypes_counterpart`, `exists_ros2_counterpart`), and the three kinds of conversions a converter is built of
yield counterparts when their parts do (`transfers_leaf`, `transfers_sequence`, `transfers_struct`).
-/

namespace Ros2Sh.Converter

open Ros2Sh.Lib

variable {τ R X A B C : Type}

/-! ### Relations and shapes of values -/

def Container.Allows : Container → ℕ → Prop
  | .array size, n => n = size
  | .boundedSequence bound, n => n ≤ bound
  | .unboundedSequence, _ => True

def LeafRel (S : A → B → Prop) (v : Value A) (w : Value B) : Prop := ∃ a b, v = .leaf a ∧ w = .leaf b ∧ S a b

/-- Sequences of related elements, of a length the container allows. -/
def SequenceRel (container : Container) (S : Value A → Value B → Prop) (v : Value A) (w : Value B) : Prop :=
  ∃ vs ws, v = .seq vs ∧ w = .seq ws ∧ container.Allows vs.length ∧ List.Forall₂ S vs ws

/-- Structures whose members other than the placeholder are related. -/
def StructRel (fields : List String) (S : String → Value A → Value B → Prop) (v : Value A) (w : Value B) : Prop :=
  ∃ l k, v = .struct l ∧ w = .struct k ∧
    ∀ name ∈ fields, name ≠ placeholder → ∃ a b, l name = some a ∧ k name = some b ∧ S name a b

def IsLeaf (L : A → Prop) (v : Value A) : Prop := ∃ a, v = .leaf a ∧ L a

def IsSequence (container : Container) (T : Value A → Prop) (v : Value A) : Prop :=
  ∃ vs, v = .seq vs ∧ container.Allows vs.length ∧ ∀ w ∈ vs, T w

/-- A structure with exactly the members among `fields` that are kept. -/
def IsStruct (keep : String → Bool) (fields : List String) (T : String → Value A → Prop) (v : Value A) : Prop :=
  ∃ l, v = .struct l ∧ (∀ name, (l name).isSome ↔ name ∈ fields ∧ keep name) ∧
    ∀ name w, l name = some w → T name w

/-- The values of the type, with leaves in `L`, and with the members of each structure that are kept. -/
def FieldType.HasType (L : τ → A → Prop) (keep : String → Bool) : FieldType τ → Value A → Prop
  | .primitive type => IsLeaf (L type)
  | .message fields type => IsStruct keep fields fun name => (type name).HasType L keep
  | .sequence container element => IsSequence container (element.HasType L keep)

/-- The C++ type has a member for every field. -/
def inRos2 : String → Bool := fun _ => true

/-- The line that declares the placeholder is filtered out of the IDL text from which the dynamic type is made. -/
def inXtypes (name : String) : Bool := name ≠ placeholder

/-- Values of the right type, whatever their leaves. -/
abbrev FieldType.Shape (keep : String → Bool) (t : FieldType τ) : Value A → Prop := t.HasType (fun _ _ => True) keep

/-- A primitive ROS 2 value and a primitive xtypes value that convert to each other, whatever the targets held. -/
def IsCore.LeafCounterparts (c : IsCore τ R X) (type : τ) (r : R) (x : X) : Prop :=
  (∀ before, c.toXtype type r before = .ok x) ∧ ∀ before, c.fromXtype type x before = .ok r

/-- The ROS 2 value and the dynamic data are the same message. -/
def FieldType.Counterparts (c : IsCore τ R X) : FieldType τ → Value R → Value X → Prop
  | .primitive type => LeafRel (c.LeafCounterparts type)
  | .message fields type => StructRel fields fun name => (type name).Counterparts c
  | .sequence container element => SequenceRel container (element.Counterparts c)

/-- The values agree on every field other than a placeholder, at every depth. -/
def FieldType.Agree : FieldType τ → Value A → Value A → Prop
  | .primitive _ => LeafRel Eq
  | .message fields type => StructRel fields fun name => (type name).Agree
  | .sequence container element => SequenceRel container element.Agree

/-- The field names of every structure are distinct, and no container is bound to be empty. -/
def FieldType.WellFormed : FieldType τ → Prop
  | .primitive _ => True
  | .message fields type => fields.Nodup ∧ ∀ name ∈ fields, (type name).WellFormed
  | .sequence container element => container ≠ .array 0 ∧ container ≠ .boundedSequence 0 ∧ element.WellFormed

/-- What is assumed of the core library.  `ros2` and `xtypes` are the representable primitive values: each converts to a
value that converts back to it, whatever the targets held.  Resizing gives the right length and elements of the right
type. -/
structure IsCore.Lawful (c : IsCore τ R X) (ros2 : τ → R → Prop) (xtypes : τ → X → Prop) : Prop where
  toXtype : ∀ type r, ros2 type r → ∃ x, c.LeafCounterparts type r x
  fromXtype : ∀ type x, xtypes type x → ∃ r, c.LeafCounterparts type r x
  inhabited : ∀ type, ∃ r, ros2 type r
  length_resizeRos2 : ∀ element n vs, (c.resizeRos2 element n vs).length = n
  length_resizeXtype : ∀ element n vs, (c.resizeXtype element n vs).length = n
  resizeRos2 : ∀ element n vs, (∀ v ∈ vs, element.Shape inRos2 v) →
    ∀ v ∈ c.resizeRos2 element n vs, element.Shape inRos2 v
  resizeXtype : ∀ element n vs, (∀ v ∈ vs, element.Shape inXtypes v) →
    ∀ v ∈ c.resizeXtype element n vs, element.Shape inXtypes v

section Relations

variable {container : Container} {fields : List String} {v v' : Value A} {w w' : Value B} {u : Value C}

theorem leafRel_flip {S : A → B → Prop} (h : LeafRel S v w) : LeafRel (fun b a => S a b) w v := by
  obtain ⟨a, b, rfl, rfl, hab⟩ := h
  exact ⟨b, a, rfl, rfl, hab⟩

theorem sequenceRel_flip {S : Value A → Value B → Prop} (h : SequenceRel container S v w) :
    SequenceRel container (fun b a => S a b) w v := by
  obtain ⟨vs, ws, rfl, rfl, hlen, hvw⟩ := h
  exact ⟨ws, vs, rfl, rfl, by rwa [← hvw.length_eq], hvw.flip⟩

theorem structRel_flip {S : String → Value A → Value B → Prop} (h : StructRel fields S v w) :
    StructRel fields (fun name b a => S name a b) w v := by
  obtain ⟨l, k, rfl, rfl, hlk⟩ := h
  refine ⟨k, l, rfl, rfl, fun name hname hne => ?_⟩
  obtain ⟨a, b, ha, hb, hab⟩ := hlk name hname hne
  exact ⟨b, a, hb, ha, hab⟩

theorem sequenceRel_join {S : Value A → Value B → Prop} {S' : Value A → Value B → Prop} {U : Value A → Value A → Prop}
    (hU : ∀ a a' b, S a b → S' a' b → U a a') (h : SequenceRel container S v w) (h' : SequenceRel container S' v' w) :
    SequenceRel container U v v' := by
  obtain ⟨vs, ws, rfl, rfl, hlen, hvw⟩ := h
  obtain ⟨vs', ws', rfl, hws, -, hvw'⟩ := h'
  obtain rfl : ws = ws' := by simpa using hws
  refine ⟨vs, vs', rfl, rfl, hlen, ?_⟩
  clear hlen hws
  induction hvw generalizing vs' with
  | nil =>
    cases hvw'
    exact .nil
  | @cons a b vs ws hab _ ih =>
    obtain ⟨a', vs', hab', htail, rfl⟩ := List.forall₂_cons_right_iff.mp hvw'
    exact .cons (hU a a' b hab hab') (ih vs' htail)

theorem structRel_join {S S' : String → Value A → Value B → Prop} {U : String → Value A → Value A → Prop}
    (hU : ∀ name ∈ fields, ∀ a a' b, S name a b → S' name a' b → U name a a') (h : StructRel fields S v w)
    (h' : StructRel fields S' v' w) : StructRel fields U v v' := by
  obtain ⟨l, k, rfl, rfl, hlk⟩ := h
  obtain ⟨l', k', rfl, hk, hlk'⟩ := h'
  obtain rfl : k = k' := by simpa using hk
  refine ⟨l, l', rfl, rfl, fun name hname hne => ?_⟩
  obtain ⟨a, b, ha, hb, hab⟩ := hlk name hname hne
  obtain ⟨a', b', ha', hb', hab'⟩ := hlk' name hname hne
  obtain rfl : b = b' := Option.some.inj (hb.symm.trans hb')
  exact ⟨a, a', ha, ha', hU name hname a a' b hab hab'⟩

end Relations

/-! ### The converters yield counterparts -/

section Transfers

variable {container : Container} {fields : List String} {keep : String → Bool}

theorem transfers_leaf {f : A → B → Except String B} {S : A → B → Prop}
    (h : ∀ a b, S a b → ∀ before, f a before = .ok b) :
    Transfers (convertLeaf f) (LeafRel S) (IsLeaf fun _ => True) := by
  rintro v w before ⟨a, b, rfl, rfl, hab⟩ ⟨b₀, rfl, -⟩
  exact ⟨.leaf b, by simp [convertLeaf, h a b hab b₀, Except.map], ⟨a, b, rfl, rfl, hab⟩, b, rfl, trivial⟩

theorem transfers_sequence {convert : Conversion A B} {resize : ℕ → List (Value B) → List (Value B)}
    {S : Value A → Value B → Prop} {T : Value B → Prop} (h : Transfers convert S T)
    (hlen : ∀ n ws, (resize n ws).length = n) (hT : ∀ n ws, (∀ w ∈ ws, T w) → ∀ w ∈ resize n ws, T w) :
    Transfers (convertSequence resize convert) (SequenceRel container S) (IsSequence container T) := by
  rintro v w before ⟨vs, ws, rfl, rfl, hallows, hvw⟩ ⟨bs, rfl, -, hbs⟩
  obtain ⟨after, hafter, hrel, hshape⟩ := transfers_each h hvw (hlen vs.length bs) (hT vs.length bs hbs)
  have hconvert : convertSequence resize convert (.seq vs) (.seq bs) = .ok (.seq after) := by
    rw [convertSequence, hafter]
    rfl
  refine ⟨.seq after, hconvert, ⟨vs, after, rfl, rfl, hallows, hrel⟩, after, rfl, ?_, hshape⟩
  rwa [← hrel.length_eq]

/-- A generated function whose fields are those of the structure other than the placeholder. -/
theorem transfers_struct {selected : List (String × Conversion A B)} {S : String → Value A → Value B → Prop}
    {T : String → Value B → Prop} (hkeep : ∀ name, name ≠ placeholder → keep name = true)
    (hn : (selected.map Prod.fst).Nodup)
    (hnames : ∀ name, name ∈ selected.map Prod.fst ↔ name ∈ fields ∧ name ≠ placeholder)
    (h : ∀ field ∈ selected, Transfers field.2 (S field.1) (T field.1)) :
    Transfers (convertFields selected) (StructRel fields S) (IsStruct keep fields T) := by
  rintro v w before ⟨l, k, rfl, rfl, hlk⟩ ⟨k₀, rfl, hmem, hshape⟩
  have hselected : ∀ field ∈ selected, field.1 ∈ fields ∧ field.1 ≠ placeholder := fun field hfield =>
    (hnames field.1).mp (List.mem_map_of_mem hfield)
  have hS : ∀ field ∈ selected, ∃ a b, l field.1 = some a ∧ k field.1 = some b ∧ S field.1 a b := fun field hfield =>
    hlk field.1 (hselected field hfield).1 (hselected field hfield).2
  have hT : ∀ field ∈ selected, ∃ b, k₀ field.1 = some b ∧ T field.1 b := by
    intro field hfield
    obtain ⟨hin, hne⟩ := hselected field hfield
    obtain ⟨b, hb⟩ := Option.isSome_iff_exists.mp ((hmem field.1).mpr ⟨hin, hkeep field.1 hne⟩)
    exact ⟨b, hb, hshape field.1 b hb⟩
  obtain ⟨after, hafter, hin, hout⟩ := transfers_fields hn h hS hT
  refine ⟨.struct after, by rw [convertFields, hafter]; rfl, ⟨l, after, rfl, rfl, ?_⟩, after, rfl, ?_, ?_⟩
  · intro name hname hne
    obtain ⟨field, hfield, rfl⟩ := List.mem_map.mp ((hnames name).mpr ⟨hname, hne⟩)
    obtain ⟨b, hb, ⟨a, ha, hab⟩, -⟩ := hin field hfield
    exact ⟨a, b, ha, hb, hab⟩
  · intro name
    rw [← hmem name]
    by_cases hsel : name ∈ selected.map Prod.fst
    · obtain ⟨field, hfield, rfl⟩ := List.mem_map.mp hsel
      obtain ⟨b, hb, -⟩ := hin field hfield
      obtain ⟨b₀, hb₀, -⟩ := hT field hfield
      simp [hb, hb₀]
    · rw [hout name hsel]
  · intro name b hb
    by_cases hsel : name ∈ selected.map Prod.fst
    · obtain ⟨field, hfield, rfl⟩ := List.mem_map.mp hsel
      obtain ⟨b', hb', -, hTb⟩ := hin field hfield
      rwa [Option.some.inj (hb.symm.trans hb')]
    · rw [hout name hsel] at hb
      exact hshape name b hb

end Transfers

/-! ### Counterparts determine each other -/

section Unique

variable {c : IsCore τ R X}

theorem counterparts_agree (t : FieldType τ) {m m' : Value R} {d : Value X} (h : t.Counterparts c m d)
    (h' : t.Counterparts c m' d) : t.Agree m m' := by
  induction t generalizing m m' d with
  | primitive type =>
    obtain ⟨r, x, rfl, rfl, hrx⟩ := h
    obtain ⟨r', x', rfl, hx, hrx'⟩ := h'
    obtain rfl : x = x' := by simpa using hx
    have hr := (hrx.2 r).symm.trans (hrx'.2 r)
    exact ⟨r, r', rfl, rfl, by simpa using hr⟩
  | message fields type ih =>
    have hjoin : ∀ name ∈ fields, ∀ a a' b, (type name).Counterparts c a b → (type name).Counterparts c a' b →
        (type name).Agree a a' := fun name _ a a' b hab hab' => ih name hab hab'
    exact structRel_join hjoin h h'
  | sequence container element ih =>
    have hjoin : ∀ a a' b, element.Counterparts c a b → element.Counterparts c a' b → element.Agree a a' :=
      fun a a' b hab hab' => ih hab hab'
    exact sequenceRel_join hjoin h h'

/-- The counterpart of a ROS 2 value is unique among the dynamic data of the type. -/
theorem counterparts_unique (t : FieldType τ) {m : Value R} {d d' : Value X} (h : t.Counterparts c m d)
    (h' : t.Counterparts c m d') (hd : t.Shape inXtypes d) (hd' : t.Shape inXtypes d') : d = d' := by
  induction t generalizing m d d' with
  | primitive type =>
    obtain ⟨r, x, rfl, rfl, hrx⟩ := h
    obtain ⟨r', x', hr, rfl, hrx'⟩ := h'
    obtain rfl : r = r' := by simpa using hr
    have hx := (hrx.1 x).symm.trans (hrx'.1 x)
    simpa using hx
  | message fields type ih =>
    obtain ⟨l, k, rfl, rfl, hlk⟩ := h
    obtain ⟨l', k', hl, rfl, hlk'⟩ := h'
    obtain rfl : l = l' := by simpa using hl
    obtain ⟨k₁, hk₁, hmem, hshape⟩ := hd
    obtain ⟨k₂, hk₂, hmem', hshape'⟩ := hd'
    obtain rfl : k = k₁ := by simpa using hk₁
    obtain rfl : k' = k₂ := by simpa using hk₂
    have heq : k = k' := by
      funext name
      by_cases hname : name ∈ fields ∧ inXtypes name = true
      · have hne : name ≠ placeholder := by simpa [inXtypes] using hname.2
        obtain ⟨a, b, ha, hb, hab⟩ := hlk name hname.1 hne
        obtain ⟨a', b', ha', hb', hab'⟩ := hlk' name hname.1 hne
        obtain rfl : a = a' := Option.some.inj (ha.symm.trans ha')
        rw [hb, hb', ih name hab hab' (hshape name b hb) (hshape' name b' hb')]
      · have hnone : k name = none := by simpa using fun h => hname ((hmem name).mp h)
        have hnone' : k' name = none := by simpa using fun h => hname ((hmem' name).mp h)
        rw [hnone, hnone']
    rw [heq]
  | sequence container element ih =>
    obtain ⟨vs, ws, rfl, rfl, -, hvw⟩ := h
    obtain ⟨vs', ws', hvs, rfl, -, hvw'⟩ := h'
    obtain rfl : vs = vs' := by simpa using hvs
    obtain ⟨ws₁, hws₁, -, hshape⟩ := hd
    obtain ⟨ws₂, hws₂, -, hshape'⟩ := hd'
    obtain rfl : ws = ws₁ := by simpa using hws₁
    obtain rfl : ws' = ws₂ := by simpa using hws₂
    have heq : ws = ws' := by
      clear hws₁ hws₂ hvs
      induction hvw generalizing ws' with
      | nil =>
        cases hvw'
        rfl
      | @cons a b vs ws hab _ ihtail =>
        obtain ⟨b', ws', hab', htail, rfl⟩ := List.forall₂_cons_left_iff.mp hvw'
        rw [List.forall_mem_cons] at hshape hshape'
        rw [ih hab hab' hshape.1 hshape'.1, ihtail ws' htail hshape.2 hshape'.2]
    rw [heq]

end Unique

/-! ### Every value has a counterpart -/

section Exists

variable {c : IsCore τ R X} {ros2 : τ → R → Prop} {xtypes : τ → X → Prop}

/-- A partial function with a chosen value at each of the names of a set, and nowhere else. -/
theorem exists_members {P : String → Prop} {Q : String → Value A → Prop} (h : ∀ name, P name → ∃ v, Q name v) :
    ∃ k : String → Option (Value A), (∀ name, (k name).isSome ↔ P name) ∧ ∀ name v, k name = some v → Q name v := by
  have hchoice : ∀ name, ∃ o : Option (Value A), (o.isSome ↔ P name) ∧ ∀ v, o = some v → Q name v := by
    intro name
    by_cases hP : P name
    · obtain ⟨v, hv⟩ := h name hP
      exact ⟨some v, by simp [hP], fun w hw => Option.some.inj hw ▸ hv⟩
    · exact ⟨none, by simp [hP], by simp⟩
  choose k hk using hchoice
  exact ⟨k, fun name => (hk name).1, fun name => (hk name).2⟩

theorem exists_xtypes_counterpart (hc : c.Lawful ros2 xtypes) (t : FieldType τ) {m : Value R}
    (hm : t.HasType ros2 inRos2 m) : ∃ d, t.Counterparts c m d ∧ t.Shape inXtypes d := by
  induction t generalizing m with
  | primitive type =>
    obtain ⟨r, rfl, hr⟩ := hm
    obtain ⟨x, hx⟩ := hc.toXtype type r hr
    exact ⟨.leaf x, ⟨r, x, rfl, rfl, hx⟩, x, rfl, trivial⟩
  | message fields type ih =>
    obtain ⟨l, rfl, hmem, htype⟩ := hm
    have hfield : ∀ name, name ∈ fields ∧ inXtypes name = true →
        ∃ w, ∃ v, l name = some v ∧ (type name).Counterparts c v w ∧ (type name).Shape inXtypes w := by
      intro name hname
      obtain ⟨v, hv⟩ := Option.isSome_iff_exists.mp ((hmem name).mpr ⟨hname.1, rfl⟩)
      obtain ⟨w, hvw, hw⟩ := ih name (htype name v hv)
      exact ⟨w, v, hv, hvw, hw⟩
    obtain ⟨k, hk, hkq⟩ := exists_members hfield
    refine ⟨.struct k, ⟨l, k, rfl, rfl, fun name hname hne => ?_⟩, k, rfl, hk, fun name w hw => ?_⟩
    · obtain ⟨w, hw⟩ := Option.isSome_iff_exists.mp ((hk name).mpr ⟨hname, by simp [inXtypes, hne]⟩)
      obtain ⟨v, hv, hvw, -⟩ := hkq name w hw
      exact ⟨v, w, hv, hw, hvw⟩
    · obtain ⟨-, -, -, hshape⟩ := hkq name w hw
      exact hshape
  | sequence container element ih =>
    obtain ⟨vs, rfl, hallows, hvs⟩ := hm
    obtain ⟨ws, hvw, hws⟩ := exists_forall₂ fun v hv => ih (hvs v hv)
    exact ⟨.seq ws, ⟨vs, ws, rfl, rfl, hallows, hvw⟩, ws, rfl, by rwa [← hvw.length_eq], hws⟩

theorem exists_ros2_counterpart (hc : c.Lawful ros2 xtypes) (t : FieldType τ) {d : Value X}
    (hd : t.HasType xtypes inXtypes d) : ∃ m, t.Counterparts c m d := by
  induction t generalizing d with
  | primitive type =>
    obtain ⟨x, rfl, hx⟩ := hd
    obtain ⟨r, hr⟩ := hc.fromXtype type x hx
    exact ⟨.leaf r, r, x, rfl, rfl, hr⟩
  | message fields type ih =>
    obtain ⟨k, rfl, hmem, htype⟩ := hd
    have hfield : ∀ name, name ∈ fields ∧ inXtypes name = true →
        ∃ v, ∃ w, k name = some w ∧ (type name).Counterparts c v w := by
      intro name hname
      obtain ⟨w, hw⟩ := Option.isSome_iff_exists.mp ((hmem name).mpr hname)
      obtain ⟨v, hvw⟩ := ih name (htype name w hw)
      exact ⟨v, w, hw, hvw⟩
    obtain ⟨l, hl, hlq⟩ := exists_members hfield
    refine ⟨.struct l, l, k, rfl, rfl, fun name hname hne => ?_⟩
    obtain ⟨v, hv⟩ := Option.isSome_iff_exists.mp ((hl name).mpr ⟨hname, by simp [inXtypes, hne]⟩)
    obtain ⟨w, hw, hvw⟩ := hlq name v hv
    exact ⟨v, w, hv, hw, hvw⟩
  | sequence container element ih =>
    obtain ⟨ws, rfl, hallows, hws⟩ := hd
    have heach : ∀ w ∈ ws, ∃ v, element.Counterparts c v w ∧ True := fun w hw =>
      (ih (hws w hw)).imp fun v hv => ⟨hv, trivial⟩
    obtain ⟨vs, hvw, -⟩ := exists_forall₂ heach
    exact ⟨.seq vs, vs, ws, rfl, rfl, by rwa [← hvw.length_eq], hvw.flip⟩

theorem FieldType.HasType.shape {L : τ → A → Prop} {keep : String → Bool} (t : FieldType τ) {v : Value A}
    (h : t.HasType L keep v) : t.Shape keep v := by
  induction t generalizing v with
  | primitive type =>
    obtain ⟨a, rfl, -⟩ := h
    exact ⟨a, rfl, trivial⟩
  | message fields type ih =>
    obtain ⟨l, rfl, hmem, htype⟩ := h
    exact ⟨l, rfl, hmem, fun name w hw => ih name (htype name w hw)⟩
  | sequence container element ih =>
    obtain ⟨vs, rfl, hallows, hvs⟩ := h
    exact ⟨vs, rfl, hallows, fun w hw => ih (hvs w hw)⟩

end Exists

end Ros2Sh.Converter
