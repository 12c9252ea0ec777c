import Ros2Sh.Converter.Counterparts

/-!
# Conversions lose nothing

Each converter turns a value into a counterpart, whatever its target held (`transfers_toXtype`,
`transfers_fromXtype`), and counterparts determine each other; so a conversion there and back returns the value.

The converters do so only if they leave the placeholder out, since the dynamic data has no such member.  The message
template does when the placeholder is the only field, the service template never does; `roundTrips_iff` states exactly
which specifications are converted without loss.  For the specifications that are not, the conversion of a value with an
element in every sequence (`FieldType.inhabitant`) throws.
-/

namespace Ros2Sh.Converter

open Ros2Sh.Lib

variable {τ R X A : Type}

/-! ### The structures that are converted without loss -/

/-- Every structure that is converted on the way leaves the placeholder out: it has no such field, or it is a message
with no other field. -/
def FieldType.Convertible : FieldType τ → Prop
  | .primitive _ => True
  | .message fields type => fields = [placeholder] ∨ placeholder ∉ fields ∧ ∀ name ∈ fields, (type name).Convertible
  | .sequence _ element => element.Convertible

/-- The structure seen as the type of a field. -/
def Structure.toType (s : Structure τ) : FieldType τ := .message s.fields s.type

/-- The fields selected by a template are those of the structure other than the placeholder. -/
structure Selects (c : IsCore τ R X) (s : Structure τ) (selected : List (String × Convert R X)) : Prop where
  nodup : (selected.map Prod.fst).Nodup
  names : ∀ name, name ∈ selected.map Prod.fst ↔ name ∈ s.fields ∧ name ≠ placeholder
  convert : ∀ field ∈ selected, field.2 = (s.type field.1).convert c

section Structures

variable {c : IsCore τ R X} {s : Structure τ} {selected : List (String × Convert R X)}

theorem map_fst_converts (c : IsCore τ R X) (s : Structure τ) : (s.converts c).map Prod.fst = s.fields := by
  simp [Structure.converts, Function.comp_def]

theorem eq_convert_of_mem_converts {field : String × Convert R X} (h : field ∈ s.converts c) :
    field.2 = (s.type field.1).convert c := by
  obtain ⟨name, -, rfl⟩ := List.mem_map.mp h
  rfl

theorem selects_sortedByName (hn : s.fields.Nodup) (hp : placeholder ∉ s.fields) :
    Selects c s (sortedByName (s.converts c)) where
  nodup := nodup_sortedByName (by rwa [map_fst_converts])
  names name := by
    rw [((sortedByName_perm (s.converts c)).map Prod.fst).mem_iff, map_fst_converts]
    refine ⟨fun h => ⟨h, ?_⟩, fun h => h.1⟩
    rintro rfl
    exact hp h
  convert field hfield := eq_convert_of_mem_converts (mem_sortedByName.mp hfield)

/-- The message template selects rightly also when there is nothing but the placeholder. -/
theorem selects_alphabeticalFields (hn : s.fields.Nodup) (hp : s.fields = [placeholder] ∨ placeholder ∉ s.fields) :
    Selects c s (alphabeticalFields (s.converts c)) := by
  rw [alphabeticalFields_eq, map_fst_converts]
  rcases hp with hp | hp
  · rw [if_pos hp]
    exact ⟨List.nodup_nil, by simp [hp], by simp⟩
  · have hne : s.fields ≠ [placeholder] := by
      intro h
      exact hp (h ▸ List.mem_singleton_self _)
    rw [if_neg hne]
    exact selects_sortedByName hn hp

variable (h : Selects c s selected)
include h

theorem Selects.toXtype
    (hfields : ∀ name ∈ s.fields, name ≠ placeholder → Transfers ((s.type name).convert c).toXtypeField
      ((s.type name).Counterparts c) ((s.type name).Shape inXtypes)) :
    Transfers (toXtype selected) (s.toType.Counterparts c) (s.toType.Shape inXtypes) := by
  refine transfers_struct (fun name hne => by simp [inXtypes, hne]) ?_ ?_ ?_
  · simpa [Function.comp_def] using h.nodup
  · simpa [Function.comp_def] using h.names
  · intro field hfield
    obtain ⟨selectedField, hsel, rfl⟩ := List.mem_map.mp hfield
    obtain ⟨hin, hne⟩ := (h.names _).mp (List.mem_map_of_mem hsel)
    simpa [h.convert _ hsel] using hfields _ hin hne

theorem Selects.toRos2
    (hfields : ∀ name ∈ s.fields, name ≠ placeholder → Transfers ((s.type name).convert c).fromXtypeField
      (fun d m => (s.type name).Counterparts c m d) ((s.type name).Shape inRos2)) :
    Transfers (toRos2 selected) (fun d m => s.toType.Counterparts c m d) (s.toType.Shape inRos2) := by
  have hstruct : Transfers (Converter.toRos2 selected)
      (StructRel s.fields fun name d m => (s.type name).Counterparts c m d) (s.toType.Shape inRos2) := by
    refine transfers_struct (fun name hne => rfl) ?_ ?_ ?_
    · simpa [Function.comp_def] using h.nodup
    · simpa [Function.comp_def] using h.names
    · intro field hfield
      obtain ⟨selectedField, hsel, rfl⟩ := List.mem_map.mp hfield
      obtain ⟨hin, hne⟩ := (h.names _).mp (List.mem_map_of_mem hsel)
      simpa [h.convert _ hsel] using hfields _ hin hne
  intro d m before hrel hshape
  obtain ⟨after, hafter, hrel', hshape'⟩ := hstruct d m before (structRel_flip hrel) hshape
  exact ⟨after, hafter, structRel_flip hrel', hshape'⟩

end Structures

/-! ### Both directions -/

section Directions

variable {c : IsCore τ R X} {ros2 : τ → R → Prop} {xtypes : τ → X → Prop}

theorem transfers_toXtype (hc : c.Lawful ros2 xtypes) (t : FieldType τ) (hw : t.WellFormed) (ht : t.Convertible) :
    Transfers (t.convert c).toXtypeField (t.Counterparts c) (t.Shape inXtypes) := by
  induction t with
  | primitive type => exact transfers_leaf fun r x hrx => hrx.1
  | message fields type ih =>
    have hp : fields = [placeholder] ∨ placeholder ∉ fields := ht.imp_right fun h => h.1
    have hsel : Selects c ⟨fields, type⟩ (alphabeticalFields (Structure.converts c ⟨fields, type⟩)) :=
      selects_alphabeticalFields hw.1 hp
    refine hsel.toXtype fun name hname hne => ?_
    rcases ht with hone | ⟨-, hall⟩
    · exact absurd (by simpa [hone] using hname) hne
    · exact ih name (hw.2 name hname) (hall name hname)
  | sequence container element ih =>
    exact transfers_sequence (ih hw.2.2 ht) (hc.length_resizeXtype element) (hc.resizeXtype element)

theorem transfers_fromXtype (hc : c.Lawful ros2 xtypes) (t : FieldType τ) (hw : t.WellFormed) (ht : t.Convertible) :
    Transfers (t.convert c).fromXtypeField (fun d m => t.Counterparts c m d) (t.Shape inRos2) := by
  induction t with
  | primitive type =>
    intro d m before hrel hshape
    have hleaf : Transfers (convertLeaf (c.fromXtype type)) (LeafRel fun x r => c.LeafCounterparts type r x)
        (IsLeaf fun _ => True) := transfers_leaf fun x r hrx => hrx.2
    obtain ⟨after, hafter, hrel', hshape'⟩ := hleaf d m before (leafRel_flip hrel) hshape
    exact ⟨after, hafter, leafRel_flip hrel', hshape'⟩
  | message fields type ih =>
    have hp : fields = [placeholder] ∨ placeholder ∉ fields := ht.imp_right fun h => h.1
    have hsel : Selects c ⟨fields, type⟩ (alphabeticalFields (Structure.converts c ⟨fields, type⟩)) :=
      selects_alphabeticalFields hw.1 hp
    refine hsel.toRos2 fun name hname hne => ?_
    rcases ht with hone | ⟨-, hall⟩
    · exact absurd (by simpa [hone] using hname) hne
    · exact ih name (hw.2 name hname) (hall name hname)
  | sequence container element ih =>
    intro d m before hrel hshape
    have hseq : Transfers (convertSequence (c.resizeRos2 element) (element.convert c).fromXtypeField)
        (SequenceRel container fun d m => element.Counterparts c m d) (IsSequence container (element.Shape inRos2)) :=
      transfers_sequence (ih hw.2.2 ht) (hc.length_resizeRos2 element) (hc.resizeRos2 element)
    obtain ⟨after, hafter, hrel', hshape'⟩ := hseq d m before (sequenceRel_flip hrel) hshape
    exact ⟨after, hafter, sequenceRel_flip hrel', hshape'⟩

end Directions

/-! ### A value that reaches every structure -/

/-- The containers are not left empty if they need not be. -/
def Container.someLength : Container → ℕ
  | .array size => size
  | .boundedSequence bound => min 1 bound
  | .unboundedSequence => 1

/-- A value with an element in every sequence. -/
def FieldType.inhabitant (keep : String → Bool) (leaf : τ → A) : FieldType τ → Value A
  | .primitive type => .leaf (leaf type)
  | .message fields type =>
    .struct fun name => if name ∈ fields ∧ keep name then some ((type name).inhabitant keep leaf) else none
  | .sequence container element => .seq (List.replicate container.someLength (element.inhabitant keep leaf))

theorem Container.allows_someLength (k : Container) : k.Allows k.someLength := by
  cases k with
  | array size => exact rfl
  | boundedSequence bound => exact Nat.min_le_right 1 bound
  | unboundedSequence => trivial

theorem hasType_inhabitant {L : τ → A → Prop} {keep : String → Bool} {leaf : τ → A} (h : ∀ type, L type (leaf type))
    (t : FieldType τ) : t.HasType L keep (t.inhabitant keep leaf) := by
  induction t with
  | primitive type => exact ⟨leaf type, rfl, h type⟩
  | message fields type ih =>
    refine ⟨_, rfl, fun name => ?_, fun name w hw => ?_⟩
    · by_cases hname : name ∈ fields ∧ keep name = true <;> simp [hname]
    · by_cases hname : name ∈ fields ∧ keep name = true
      · rw [if_pos hname] at hw
        exact Option.some.inj hw ▸ ih name
      · simp [hname] at hw
  | sequence container element ih =>
    refine ⟨_, rfl, by simpa using container.allows_someLength, fun w hw => ?_⟩
    rwa [List.eq_of_mem_replicate hw]

section Converse

variable {c : IsCore τ R X} {ros2 : τ → R → Prop} {xtypes : τ → X → Prop} {leaf : τ → R}

/-- If the inhabitant of a structure is converted, then no selected field is the placeholder, and the inhabitants of
their types are converted. -/
theorem toXtype_inhabitant_ok {s : Structure τ} {selected : List (String × Convert R X)} {before after : Value X}
    (hn : (selected.map Prod.fst).Nodup) (hb : s.toType.Shape inXtypes before)
    (h : toXtype selected (s.toType.inhabitant inRos2 leaf) before = .ok after) :
    ∀ field ∈ selected, field.1 ≠ placeholder ∧ ∃ w w', (s.type field.1).Shape inXtypes w ∧
      field.2.toXtypeField ((s.type field.1).inhabitant inRos2 leaf) w = .ok w' := by
  obtain ⟨k, rfl, hmem, hshape⟩ := hb
  rw [toXtype, Structure.toType, FieldType.inhabitant, convertFields] at h
  obtain ⟨k', hk', -⟩ := map_eq_ok.mp h
  intro field hfield
  have hn' : ((selected.map fun field => (field.1, field.2.toXtypeField)).map Prod.fst).Nodup := by
    simpa [Function.comp_def] using hn
  obtain ⟨v, w, w', hv, hw, hconv⟩ := assignFields_ok hn' hk' _ (List.mem_map_of_mem hfield)
  have hkept : inXtypes field.1 = true := ((hmem field.1).mp (by rw [hw]; rfl)).2
  refine ⟨by simpa [inXtypes] using hkept, w, w', hshape field.1 w hw, ?_⟩
  by_cases hname : field.1 ∈ s.fields ∧ inRos2 field.1 = true
  · rw [if_pos hname] at hv
    rwa [Option.some.inj hv]
  · rw [if_neg hname] at hv
    cases hv

theorem convertible_fields_of_ok {s : Structure τ} {before after : Value X} (hn : s.fields.Nodup)
    (hb : s.toType.Shape inXtypes before)
    (h : toXtype (sortedByName (s.converts c)) (s.toType.inhabitant inRos2 leaf) before = .ok after)
    (ih : ∀ name ∈ s.fields, ∀ w w', (s.type name).Shape inXtypes w →
      ((s.type name).convert c).toXtypeField ((s.type name).inhabitant inRos2 leaf) w = .ok w' →
        (s.type name).Convertible) :
    placeholder ∉ s.fields ∧ ∀ name ∈ s.fields, (s.type name).Convertible := by
  have hn' : ((sortedByName (s.converts c)).map Prod.fst).Nodup := nodup_sortedByName (by rwa [map_fst_converts])
  have hfield := toXtype_inhabitant_ok hn' hb h
  have hsel : ∀ name ∈ s.fields, (name, (s.type name).convert c) ∈ sortedByName (s.converts c) := fun name hname =>
    mem_sortedByName.mpr (List.mem_map_of_mem hname)
  constructor
  · intro hp
    exact (hfield _ (hsel placeholder hp)).1 rfl
  · intro name hname
    obtain ⟨-, w, w', hw, hconv⟩ := hfield _ (hsel name hname)
    exact ih name hname w w' hw hconv

theorem convertible_of_ok (hc : c.Lawful ros2 xtypes) (t : FieldType τ) (hw : t.WellFormed) {before after : Value X}
    (hb : t.Shape inXtypes before)
    (h : (t.convert c).toXtypeField (t.inhabitant inRos2 leaf) before = .ok after) : t.Convertible := by
  induction t generalizing before after with
  | primitive type => trivial
  | message fields type ih =>
    by_cases hp : fields = [placeholder]
    · exact .inl hp
    · right
      have halpha : alphabeticalFields (Structure.converts c ⟨fields, type⟩) =
          sortedByName (Structure.converts c ⟨fields, type⟩) := by
        rw [alphabeticalFields_eq, map_fst_converts, if_neg hp]
      have hloop : toXtype (sortedByName (Structure.converts c ⟨fields, type⟩))
          ((FieldType.message fields type).inhabitant inRos2 leaf) before = .ok after := by
        rw [← halpha]
        exact h
      exact convertible_fields_of_ok (s := ⟨fields, type⟩) hw.1 hb hloop
        fun name hname w w' hshape hconv => ih name (hw.2 name hname) hshape hconv
  | sequence container element ih =>
    obtain ⟨ws, rfl, -, hws⟩ := hb
    obtain ⟨harray, hbounded, helement⟩ := hw
    obtain ⟨n, hn⟩ : ∃ n, container.someLength = n + 1 := by
      refine Nat.exists_eq_add_one.mpr ?_
      cases container with
      | array size => exact Nat.pos_of_ne_zero fun h0 => harray (h0 ▸ rfl)
      | boundedSequence bound =>
        have hpos : 0 < bound := Nat.pos_of_ne_zero fun h0 => hbounded (h0 ▸ rfl)
        exact Nat.lt_min.mpr ⟨Nat.one_pos, hpos⟩
      | unboundedSequence => exact Nat.one_pos
    simp only [FieldType.convert, FieldType.inhabitant, convertSequence, hn, List.replicate_succ] at h
    obtain ⟨as, heach, -⟩ := map_eq_ok.mp h
    obtain ⟨b, a, hbmem, hconv⟩ := convertEach_ok heach
    exact ih helement (hc.resizeXtype element _ ws hws b hbmem) hconv

end Converse

/-! ### Round trips -/

section RoundTrips

variable {c : IsCore τ R X} {ros2 : τ → R → Prop} {xtypes : τ → X → Prop}

/-- A structure converted to xtypes and back, or to ROS 2 and back, whatever the two targets held. -/
structure RoundTrips (ros2 : τ → R → Prop) (xtypes : τ → X → Prop) (s : Structure τ) (toXtype : Conversion R X)
    (toRos2 : Conversion X R) : Prop where
  message : ∀ m before before', s.toType.HasType ros2 inRos2 m → s.toType.Shape inXtypes before →
    s.toType.Shape inRos2 before' →
      ∃ d m', toXtype m before = .ok d ∧ toRos2 d before' = .ok m' ∧ s.toType.Agree m m'
  data : ∀ d before before', s.toType.HasType xtypes inXtypes d → s.toType.Shape inRos2 before →
    s.toType.Shape inXtypes before' → ∃ m, toRos2 d before = .ok m ∧ toXtype m before' = .ok d

def Specification.RoundTrips (c : IsCore τ R X) (ros2 : τ → R → Prop) (xtypes : τ → X → Prop) :
    Specification τ → Prop
  | .message s =>
    Converter.RoundTrips ros2 xtypes s (convertToXtype (s.converts c)) (convertToRos2 (s.converts c))
  | .service request response =>
    Converter.RoundTrips ros2 xtypes request (requestToXtype (request.converts c))
        (requestToRos2 (request.converts c)) ∧
      Converter.RoundTrips ros2 xtypes response (responseToXtype (response.converts c))
        (responseToRos2 (response.converts c))

def Specification.WellFormed : Specification τ → Prop
  | .message s => s.toType.WellFormed
  | .service request response => request.toType.WellFormed ∧ response.toType.WellFormed

/-- No structure that is converted declares the placeholder, except a message that declares nothing else. -/
def Specification.Convertible : Specification τ → Prop
  | .message s => s.toType.Convertible
  | .service request response =>
    (placeholder ∉ request.fields ∧ ∀ name ∈ request.fields, (request.type name).Convertible) ∧
      (placeholder ∉ response.fields ∧ ∀ name ∈ response.fields, (response.type name).Convertible)

/-- The structures whose converters select the right fields lose nothing. -/
theorem Selects.roundTrips (hc : c.Lawful ros2 xtypes) {s : Structure τ} {selected : List (String × Convert R X)}
    (hw : s.toType.WellFormed) (h : Selects c s selected)
    (hs : ∀ name ∈ s.fields, name ≠ placeholder → (s.type name).Convertible) :
    Converter.RoundTrips ros2 xtypes s (Converter.toXtype selected) (Converter.toRos2 selected) := by
  have htoX : Transfers (Converter.toXtype selected) (s.toType.Counterparts c) (s.toType.Shape inXtypes) :=
    h.toXtype fun name hname hne => transfers_toXtype hc _ (hw.2 name hname) (hs name hname hne)
  have htoR : Transfers (Converter.toRos2 selected) (fun d m => s.toType.Counterparts c m d) (s.toType.Shape inRos2) :=
    h.toRos2 fun name hname hne => transfers_fromXtype hc _ (hw.2 name hname) (hs name hname hne)
  constructor
  · intro m before before' hm hb hb'
    obtain ⟨d₀, hd₀, -⟩ := exists_xtypes_counterpart hc s.toType hm
    obtain ⟨d, hd, hmd, -⟩ := htoX m d₀ before hd₀ hb
    obtain ⟨m', hm', hmd', -⟩ := htoR d m before' hmd hb'
    exact ⟨d, m', hd, hm', counterparts_agree s.toType hmd hmd'⟩
  · intro d before before' hd hb hb'
    obtain ⟨m₀, hm₀⟩ := exists_ros2_counterpart hc s.toType hd
    obtain ⟨m, hm, hmd, -⟩ := htoR d m₀ before hm₀ hb
    obtain ⟨d', hd', hmd', hshape⟩ := htoX m d before' hmd hb'
    obtain rfl := counterparts_unique s.toType hmd hmd' hd.shape hshape
    exact ⟨m, hm, hd'⟩

theorem RoundTrips.inhabitant_ok (hc : c.Lawful ros2 xtypes) {s : Structure τ} {toX : Conversion R X}
    {toR : Conversion X R} (h : Converter.RoundTrips ros2 xtypes s toX toR) :
    ∃ (leaf : τ → R) (before after : Value X), s.toType.Shape inXtypes before ∧
      toX (s.toType.inhabitant inRos2 leaf) before = .ok after := by
  choose leaf hleaf using hc.inhabited
  have hm : s.toType.HasType ros2 inRos2 (s.toType.inhabitant inRos2 leaf) := hasType_inhabitant hleaf s.toType
  obtain ⟨before, -, hb⟩ := exists_xtypes_counterpart hc s.toType hm
  obtain ⟨d, m', hd, -, -⟩ := h.message _ before _ hm hb hm.shape
  exact ⟨leaf, before, d, hb, hd⟩

/-- The service template converts a structure without loss exactly when it does not declare the placeholder and the
messages in it are converted without loss. -/
theorem roundTrips_sortedByName_iff (hc : c.Lawful ros2 xtypes) {s : Structure τ} (hw : s.toType.WellFormed) :
    Converter.RoundTrips ros2 xtypes s (toXtype (sortedByName (s.converts c))) (toRos2 (sortedByName (s.converts c))) ↔
      placeholder ∉ s.fields ∧ ∀ name ∈ s.fields, (s.type name).Convertible := by
  constructor
  · intro h
    obtain ⟨leaf, before, after, hb, hafter⟩ := h.inhabitant_ok hc
    exact convertible_fields_of_ok hw.1 hb hafter
      fun name hname w w' hshape hconv => convertible_of_ok hc _ (hw.2 name hname) hshape hconv
  · intro h
    exact (selects_sortedByName hw.1 h.1).roundTrips hc hw fun name hname _ => h.2 name hname

/-- The message template also converts the message that declares the placeholder alone. -/
theorem roundTrips_alphabeticalFields_iff (hc : c.Lawful ros2 xtypes) {s : Structure τ} (hw : s.toType.WellFormed) :
    Converter.RoundTrips ros2 xtypes s (convertToXtype (s.converts c)) (convertToRos2 (s.converts c)) ↔
      s.toType.Convertible := by
  constructor
  · intro h
    obtain ⟨leaf, before, after, hb, hafter⟩ := h.inhabitant_ok hc
    exact convertible_of_ok hc s.toType hw hb hafter
  · intro h
    have hp : s.fields = [placeholder] ∨ placeholder ∉ s.fields := h.imp_right fun h => h.1
    refine (selects_alphabeticalFields hw.1 hp).roundTrips hc hw fun name hname hne => ?_
    rcases h with hone | ⟨-, hall⟩
    · exact absurd (by simpa [hone] using hname) hne
    · exact hall name hname

/-- **Lossless conversion.**  The generated converters of a specification lose nothing, in either direction and whatever
their targets held, exactly when no structure converted on the way declares the placeholder, messages that declare
nothing else aside. -/
theorem roundTrips_iff (hc : c.Lawful ros2 xtypes) {spec : Specification τ} (hw : spec.WellFormed) :
    spec.RoundTrips c ros2 xtypes ↔ spec.Convertible := by
  cases spec with
  | message s => exact roundTrips_alphabeticalFields_iff hc hw
  | service request response =>
    exact and_congr (roundTrips_sortedByName_iff hc hw.1) (roundTrips_sortedByName_iff hc hw.2)

end RoundTrips

/-! ### A core library with one primitive type -/

/-- Numbers on both sides, and new elements of a sequence filled with zeros. -/
def numberCore : IsCore Unit ℕ ℕ where
  fromXtype _ x _ := .ok x
  toXtype _ r _ := .ok r
  resizeRos2 element n vs := (vs ++ List.replicate n (element.inhabitant inRos2 fun _ => 0)).take n
  resizeXtype element n vs := (vs ++ List.replicate n (element.inhabitant inXtypes fun _ => 0)).take n

theorem mem_resized {T : Value A → Prop} {new : Value A} {n : ℕ} {vs : List (Value A)} (hnew : T new)
    (hvs : ∀ v ∈ vs, T v) : ∀ v ∈ (vs ++ List.replicate n new).take n, T v := by
  intro v hv
  rcases List.mem_append.mp (List.mem_of_mem_take hv) with hv | hv
  · exact hvs v hv
  · rwa [List.eq_of_mem_replicate hv]

theorem numberCore_lawful : numberCore.Lawful (fun _ _ => True) fun _ _ => True where
  toXtype _ r _ := ⟨r, fun _ => rfl, fun _ => rfl⟩
  fromXtype _ x _ := ⟨x, fun _ => rfl, fun _ => rfl⟩
  inhabited _ := ⟨0, trivial⟩
  length_resizeRos2 element n vs := by simp [numberCore]
  length_resizeXtype element n vs := by simp [numberCore]
  resizeRos2 element n vs := mem_resized (hasType_inhabitant (fun _ => trivial) element)
  resizeXtype element n vs := mem_resized (hasType_inhabitant (fun _ => trivial) element)

/-- A message with a number, and a sequence of messages without fields. -/
def numbersMessage : Specification Unit := .message ⟨["ticks", "events"], fun name =>
  if name = "events" then .sequence .unboundedSequence (.message [placeholder] fun _ => .primitive ())
  else .primitive ()⟩

theorem roundTrips_iff_numbersMessage :
    numbersMessage.RoundTrips numberCore (fun _ _ => True) (fun _ _ => True) ↔ numbersMessage.Convertible := by
  have hw : numbersMessage.WellFormed := by
    refine ⟨by decide, fun name _ => ?_⟩
    by_cases hname : name = "events" <;> simp [hname, FieldType.WellFormed]
  exact roundTrips_iff numberCore_lawful hw

/-- The request of a service that declares no request field in its `.idl` file. -/
def emptyRequest : Structure Unit := ⟨[placeholder], fun _ => .primitive ()⟩

/-- A service with an empty request is not converted: its dynamic data has no placeholder to convert. -/
theorem not_roundTrips_emptyRequest :
    ¬ (Specification.service emptyRequest emptyRequest).RoundTrips numberCore (fun _ _ => True) fun _ _ => True := by
  intro h
  have hm : emptyRequest.toType.Shape inRos2 (emptyRequest.toType.inhabitant inRos2 fun _ => 0) :=
    hasType_inhabitant (fun _ => trivial) _
  have hb : emptyRequest.toType.Shape inXtypes (emptyRequest.toType.inhabitant inXtypes fun _ => 0) :=
    hasType_inhabitant (fun _ => trivial) _
  obtain ⟨d, m, hd, -, -⟩ := h.1.message _ _ _ hm hb hm
  have hthrows : requestToXtype (emptyRequest.converts numberCore) (emptyRequest.toType.inhabitant inRos2 fun _ => 0)
      (emptyRequest.toType.inhabitant inXtypes fun _ => 0) =
        .error "no member structure_needs_at_least_one_member" := rfl
  rw [hthrows] at hd
  cases hd

end Ros2Sh.Converter
