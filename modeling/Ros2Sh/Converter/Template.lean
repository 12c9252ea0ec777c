import Mathlib.Data.List.Sort
import Mathlib.Data.Nat.Notation
import Ros2Sh.Lib.Transfer

/-!
# The generated converters

`convert__msg.cpp.em` and `convert__srv.cpp.em` generate, for a message and for the request and the response of a
service, a function that converts the structure to ROS 2 and one that converts it to xtypes.  Each consists of one
statement a field, in the alphabetical order of the names; the message template leaves the only field of an otherwise
empty structure out.  `utils::Convert` of the Integration Service core converts the fields: the primitive ones, the
sequences element by element, and the messages through the functions generated for them.

A value is a tree; a structure is a partial function of the name of the member.  The ROS 2 values and the dynamic data
differ in their leaves.
-/

namespace Ros2Sh.Converter

open Ros2Sh.Lib

/-- The member a structure gets when its `.idl` file declares none. -/
def placeholder : String := "structure_needs_at_least_one_member"

/-- A value of a field, with leaves in `A`. -/
inductive Value (A : Type)
  | leaf (a : A)
  | struct (member : String → Option (Value A))
  | seq (elements : List (Value A))

inductive Container
  | array (size : ℕ)
  | boundedSequence (bound : ℕ)
  | unboundedSequence

/-- The type of a field; `τ` are the primitive types.  A message has the names of its fields, in order, and a type for
each. -/
inductive FieldType (τ : Type)
  | primitive (type : τ)
  | message (fields : List String) (type : String → FieldType τ)
  | sequence (container : Container) (element : FieldType τ)

variable {τ R X A B : Type}

/-- A conversion of a value into a target; it takes what the target held before. -/
abbrev Conversion (A B : Type) := Value A → Value B → Except String (Value B)

/-- `utils::Convert<T>`. -/
structure Convert (R X : Type) where
  fromXtypeField : Conversion X R
  toXtypeField : Conversion R X

/-! ### The conversions of the core library -/

/-- What the converters use of the Integration Service core: how it converts the primitive types, and how it resizes a
sequence whose elements have the given type. -/
structure IsCore (τ R X : Type) where
  fromXtype : τ → X → R → Except String R
  toXtype : τ → R → X → Except String X
  resizeRos2 : FieldType τ → ℕ → List (Value R) → List (Value R)
  resizeXtype : FieldType τ → ℕ → List (Value X) → List (Value X)

-- The C++ types exclude the last case of each of these three functions.

def convertLeaf (convert : A → B → Except String B) : Conversion A B
  | .leaf a, .leaf b => (convert a b).map .leaf
  | _, _ => .error "not a primitive type"

def convertSequence (resize : ℕ → List (Value B) → List (Value B)) (convert : Conversion A B) : Conversion A B
  | .seq source, .seq target =>
    (convertEach "index out of range" convert source (resize source.length target)).map .seq
  | _, _ => .error "not a sequence"

/-- The body of a generated function: `Convert<T>::…_field(from["f"], to["f"])` for each of the fields. -/
def convertFields (fields : List (String × Conversion A B)) : Conversion A B
  | .struct source, .struct target =>
    (fields.foldlM (assignField (fun name => "no member " ++ name) source) target).map .struct
  | _, _ => .error "not a structure"

/-! ### The templates -/

section Fields

variable {α : Type}

/-- `sorted(fields, key=lambda x: x.name)`. -/
def sortedByName (fields : List (String × α)) : List (String × α) :=
  fields.insertionSort fun a b => a.1 ≤ b.1

/-- `alphabetical_fields` of the message template. -/
def alphabeticalFields (fields : List (String × α)) : List (String × α) :=
  match sortedByName fields with
  | [field] => if field.1 = placeholder then [] else [field]
  | sorted => sorted

def alphabeticalRequestFields (fields : List (String × α)) : List (String × α) := sortedByName fields

def alphabeticalResponseFields (fields : List (String × α)) : List (String × α) := sortedByName fields

end Fields

def toRos2 (fields : List (String × Convert R X)) : Conversion X R :=
  convertFields (fields.map fun field => (field.1, field.2.fromXtypeField))

def toXtype (fields : List (String × Convert R X)) : Conversion R X :=
  convertFields (fields.map fun field => (field.1, field.2.toXtypeField))

section Functions

variable (fields : List (String × Convert R X))

def convertToRos2 : Conversion X R := toRos2 (alphabeticalFields fields)

def convertToXtype : Conversion R X := toXtype (alphabeticalFields fields)

def requestToRos2 : Conversion X R := toRos2 (alphabeticalRequestFields fields)

def requestToXtype : Conversion R X := toXtype (alphabeticalRequestFields fields)

def responseToRos2 : Conversion X R := toRos2 (alphabeticalResponseFields fields)

def responseToXtype : Conversion R X := toXtype (alphabeticalResponseFields fields)

end Functions

/-- `utils::Convert` of the C++ type of a field. -/
def FieldType.convert (c : IsCore τ R X) : FieldType τ → Convert R X
  | .primitive type => ⟨convertLeaf (c.fromXtype type), convertLeaf (c.toXtype type)⟩
  | .message fields type =>
    let converts := fields.map fun name => (name, (type name).convert c)
    ⟨convertToRos2 converts, convertToXtype converts⟩
  | .sequence _ element =>
    ⟨convertSequence (c.resizeRos2 element) (element.convert c).fromXtypeField,
      convertSequence (c.resizeXtype element) (element.convert c).toXtypeField⟩

/-- A message, a request or a response: its fields in order, and their types. -/
structure Structure (τ : Type) where
  fields : List String
  type : String → FieldType τ

/-- The fields with their `utils::Convert`. -/
def Structure.converts (c : IsCore τ R X) (s : Structure τ) : List (String × Convert R X) :=
  s.fields.map fun name => (name, (s.type name).convert c)

inductive Specification (τ : Type)
  | message (fields : Structure τ)
  | service (request response : Structure τ)

/-! ### Which fields the templates select -/

section Selected

variable {α : Type} {fields : List (String × α)} {field : String × α}

theorem sortedByName_perm (fields : List (String × α)) : (sortedByName fields).Perm fields :=
  List.perm_insertionSort _ fields

theorem mem_sortedByName : field ∈ sortedByName fields ↔ field ∈ fields := (sortedByName_perm fields).mem_iff

theorem sortedByName_eq_singleton : sortedByName fields = [field] ↔ fields = [field] := by
  constructor
  · intro h
    have hp := sortedByName_perm fields
    rw [h] at hp
    exact List.singleton_perm.mp hp |>.symm
  · rintro rfl
    rfl

/-- The message template selects every field, unless the placeholder is the only one. -/
theorem alphabeticalFields_eq (fields : List (String × α)) :
    alphabeticalFields fields = if fields.map Prod.fst = [placeholder] then [] else sortedByName fields := by
  unfold alphabeticalFields
  split
  · rename_i field h
    rw [sortedByName_eq_singleton] at h
    subst h
    by_cases hp : field.1 = placeholder <;> simp [hp, sortedByName]
  · rename_i hne
    have hmap : fields.map Prod.fst ≠ [placeholder] := by
      intro hmap
      obtain ⟨field, hfield, -⟩ := List.map_eq_singleton_iff.mp hmap
      exact hne field (sortedByName_eq_singleton.mpr hfield)
    rw [if_neg hmap]

theorem nodup_sortedByName (hn : (fields.map Prod.fst).Nodup) : ((sortedByName fields).map Prod.fst).Nodup :=
  ((sortedByName_perm fields).map _).nodup_iff.mpr hn

end Selected

end Ros2Sh.Converter
