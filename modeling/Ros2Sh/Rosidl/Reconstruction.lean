import Ros2Sh.Rosidl.ParserExt
import Ros2Sh.Rosidl.ReferenceAdapter

/-!
# From a message definition through its IDL form

A message definition is turned into IDL by `rosidl_adapter`; `rosidl_parser_ext.py` makes a specification of the IDL
form again, where the `.msg` path makes one of the definition itself.  This file compares the two.

`TypeDecl.rebuilt` is the declaration that `build_type_string` writes for the IDL form of a type, if it does not raise
(`buildTypeString_toIdl`).  It differs from the original declaration in three ways:

* the IDL form of `char` is that of `uint8`, and the table maps it back to `uint8`;
* the bound of a bounded string is read from the member's own type: outside of a sequence or array that raises, since
  the attribute has another name, and inside of one it is lost;
* a message type is written with its package only inside of a sequence or array; outside, `rosidl_adapter.Type` rejects
  it for want of a context.

The main results are `fields_reconstructed`, which attributes the two paths share, and `accepts_iff`, which messages the
`.idl` path accepts.
-/

namespace Ros2Sh.Rosidl

open Ros2Sh.Lib

/-! ### Definitions and their IDL form -/

/-- The name of a primitive type in IDL. -/
def Primitive.idlName (p : Primitive) : String := (msgTypeToIdl.lookup p.name).getD p.name

def Base.toIdl (context : PackageName) : Base → AbstractType
  | primitive p => .basicType p.idlName
  | string false none => .unboundedString
  | string false (some bound) => .boundedString bound
  | string true none => .unboundedWString
  | string true (some bound) => .boundedWString bound
  | message none name => .namespacedType [context.text, "msg"] name.text
  | message (some pkg) name => .namespacedType [pkg.text, "msg"] name.text

def Suffix.toIdl (element : AbstractType) : Suffix → AbstractType
  | none => element
  | unboundedSequence => .unboundedSequence element
  | boundedSequence bound => .boundedSequence element bound
  | array size => .array element size

def TypeDecl.toIdl (context : PackageName) (t : TypeDecl) : AbstractType := t.suffix.toIdl (t.base.toIdl context)

/-- A field of a message definition, with the annotations of its IDL form. -/
structure FieldDecl where
  name : String
  valid : isValidFieldName name
  type : TypeDecl
  annotations : List Annotation

def FieldDecl.toMember (context : PackageName) (f : FieldDecl) : Member :=
  ⟨f.type.toIdl context, f.name, f.annotations⟩

inductive ConstantType
  | primitive (p : Primitive)
  | string (maximumSize : ℕ)

def ConstantType.toIdl : ConstantType → AbstractType
  | primitive p => .basicType p.idlName
  | string maximumSize => .boundedString maximumSize

structure ConstantDecl where
  name : String
  type : ConstantType
  value : PyValue

def ConstantDecl.toIdl (c : ConstantDecl) : IdlConstant := ⟨c.name, c.type.toIdl, c.value⟩

/-- The definition of the message `name` in the package `pkg`. -/
structure MessageDecl where
  pkg : PackageName
  name : MessageName
  fields : List FieldDecl
  constants : List ConstantDecl
  nodup_fields : (fields.map (·.name)).Nodup
  nodup_constants : (constants.map (·.name)).Nodup

def MessageDecl.toIdl (m : MessageDecl) : IdlMessage :=
  ⟨m.fields.map (·.toMember m.pkg), m.constants.map (·.toIdl)⟩

/-! ### The declaration that is written for the IDL form -/

/-- The primitive type that the table gives for the IDL form. -/
def Primitive.rebuilt : Primitive → Primitive
  | char => uint8
  | p => p

/-- The declaration that `build_type_string` writes, unless it raises. -/
def TypeDecl.rebuilt (context : PackageName) (t : TypeDecl) : Option TypeDecl :=
  match t.base, t.suffix with
  | .primitive p, suffix => some ⟨.primitive p.rebuilt, suffix⟩
  | .string wide none, suffix => some ⟨.string wide none, suffix⟩
  | .string _ (some _), .none => none
  | .string wide (some _), suffix => some ⟨.string wide none, suffix⟩
  | .message _ name, .none => some ⟨.message none name, .none⟩
  | .message pkg name, suffix => some ⟨.message (some (pkg.getD context)) name, suffix⟩

section Table

theorem idlTypeToMsg_idlName (p : Primitive) : idlTypeToMsg p.idlName = some p.rebuilt.name := by
  cases p <;> decide

theorem lower_of_idlTypeToMsg {type : String} (h : (idlTypeToMsg type).isSome) :
    ∀ c ∈ type.toList, c.isUpper = false ∧ c ≠ '/' := by
  have htable : msgTypeToIdl.reverse.all fun entry =>
      entry.2.toList.all fun c => decide (c.isUpper = false ∧ c ≠ '/') := by decide
  unfold idlTypeToMsg at h
  rw [Option.isSome_map, Option.isSome_iff_exists] at h
  obtain ⟨entry, hentry⟩ := h
  have heq : entry.2 = type := by simpa using List.find?_some hentry
  have hall := List.all_eq_true.mp htable entry (List.mem_of_find?_eq_some hentry)
  rw [heq] at hall
  exact fun c hc => of_decide_eq_true (List.all_eq_true.mp hall c hc)

theorem idlTypeToMsg_messageName (name : MessageName) : idlTypeToMsg name.text = none := by
  by_contra h
  have hlower := lower_of_idlTypeToMsg (Option.isSome_iff_ne_none.mpr h)
  have hvalid := name.valid
  unfold isValidMessageName at hvalid
  split at hvalid
  · cases hvalid
  · rename_i c cs hcs
    rw [Bool.and_eq_true] at hvalid
    have hfalse := (hlower c (hcs ▸ List.mem_cons_self ..)).1
    rw [hvalid.1] at hfalse
    cases hfalse

theorem idlTypeToMsg_qualified (pkg name : String) : idlTypeToMsg (pkg ++ "/" ++ name) = none := by
  by_contra h
  exact (lower_of_idlTypeToMsg (Option.isSome_iff_ne_none.mpr h) '/' (by simp)).2 rfl

theorem idlTypeToMsg_stringName (wide : Bool) : idlTypeToMsg (stringName wide) = some (stringName wide) := by
  cases wide <;> decide

end Table

section Build

variable {context : PackageName}

theorem resolveTypename_toIdl (t : TypeDecl) :
    resolveTypename (t.toIdl context) = resolveTypename (t.base.toIdl context) := by
  obtain ⟨base, suffix⟩ := t
  cases suffix <;> rfl

theorem addBrackets_toIdl (t : TypeDecl) (s : String) : addBrackets (t.toIdl context) s = s ++ t.suffix.text := by
  obtain ⟨base, suffix⟩ := t
  cases suffix with
  | none => match base with
    | .primitive _ | .string false none | .string false (some _) | .string true none | .string true (some _)
    | .message none _ | .message (some _) _ => simp [TypeDecl.toIdl, Suffix.toIdl, Base.toIdl, addBrackets, Suffix.text]
  | unboundedSequence => rfl
  | boundedSequence bound => rfl
  | array size => rfl

theorem qualify_of_not_message {t : TypeDecl} (h : ∀ pkg name, t.base ≠ .message pkg name) (s : String) :
    qualify (t.toIdl context) s = .ok s := by
  obtain ⟨base, suffix⟩ := t
  match base with
  | .primitive _ | .string false none | .string false (some _) | .string true none | .string true (some _) =>
    cases suffix <;> rfl
  | .message pkg name => exact absurd rfl (h pkg name)

theorem isBoundedString_toIdl (t : TypeDecl) :
    (t.toIdl context).isBoundedString = true ↔ t.suffix = .none ∧ t.base.stringUpperBound ≠ none := by
  obtain ⟨base, suffix⟩ := t
  cases suffix with
  | none => match base with
    | .primitive _ | .string false none | .string false (some _) | .string true none | .string true (some _)
    | .message none _ | .message (some _) _ =>
      simp [TypeDecl.toIdl, Suffix.toIdl, Base.toIdl, AbstractType.isBoundedString, Base.stringUpperBound]
  | unboundedSequence => simp [TypeDecl.toIdl, Suffix.toIdl, AbstractType.isBoundedString]
  | boundedSequence bound => simp [TypeDecl.toIdl, Suffix.toIdl, AbstractType.isBoundedString]
  | array size => simp [TypeDecl.toIdl, Suffix.toIdl, AbstractType.isBoundedString]

/-- Writing a type that is not a bounded string, once its name is known. -/
theorem buildTypeString_of_name {t : TypeDecl} {name written : String}
    (hq : qualify (t.toIdl context) (resolveTypename (t.base.toIdl context)) = .ok name)
    (hm : (idlTypeToMsg name).getD name = written) (hb : t.suffix = .none → t.base.stringUpperBound = none) :
    buildTypeString (t.toIdl context) = .ok (written ++ t.suffix.text) := by
  have hbounded : (t.toIdl context).isBoundedString = false := by
    rw [Bool.eq_false_iff, ne_eq, isBoundedString_toIdl]
    exact fun h => h.2 (hb h.1)
  unfold buildTypeString
  rw [resolveTypename_toIdl, hq]
  simp only [bind, Except.bind, addStringBound, hbounded, hm, addBrackets_toIdl, pure, Except.pure]
  rfl

/-- **What `build_type_string` writes** for the IDL form of a type. -/
theorem buildTypeString_toIdl (t : TypeDecl) :
    buildTypeString (t.toIdl context) =
      match t.rebuilt context with
      | some t' => .ok t'.text
      | none => .error (.attributeError "string_upper_bound") := by
  obtain ⟨base, suffix⟩ := t
  match base with
  | .primitive p =>
    have hq := @qualify_of_not_message context ⟨.primitive p, suffix⟩ (by simp) p.idlName
    exact buildTypeString_of_name hq (by rw [idlTypeToMsg_idlName]; rfl) fun _ => rfl
  | .string wide none =>
    have hq := @qualify_of_not_message context ⟨.string wide none, suffix⟩ (by simp) (stringName wide)
    have hname : resolveTypename (Base.toIdl context (.string wide none)) = stringName wide := by cases wide <;> rfl
    rw [← hname] at hq
    exact buildTypeString_of_name hq (by rw [hname, idlTypeToMsg_stringName]; rfl) fun _ => rfl
  | .string wide (some bound) =>
    have hq := @qualify_of_not_message context ⟨.string wide (some bound), suffix⟩ (by simp) (stringName wide)
    have hname : resolveTypename (Base.toIdl context (.string wide (some bound))) = stringName wide := by
      cases wide <;> rfl
    rw [← hname] at hq
    cases suffix with
    | none => cases wide <;> rfl
    | unboundedSequence =>
      exact buildTypeString_of_name hq (by rw [hname, idlTypeToMsg_stringName]; rfl) fun h => by cases h
    | boundedSequence n =>
      exact buildTypeString_of_name hq (by rw [hname, idlTypeToMsg_stringName]; rfl) fun h => by cases h
    | array n => exact buildTypeString_of_name hq (by rw [hname, idlTypeToMsg_stringName]; rfl) fun h => by cases h
  | .message pkg name =>
    have hwritten : ∀ pkg' : String, (idlTypeToMsg (pkg' ++ "/" ++ name.text)).getD (pkg' ++ "/" ++ name.text) =
        pkg' ++ "/" ++ name.text := by
      intro pkg'
      rw [idlTypeToMsg_qualified]
      rfl
    cases suffix with
    | none =>
      have hbare : (idlTypeToMsg name.text).getD name.text = name.text := by
        rw [idlTypeToMsg_messageName]
        rfl
      cases pkg <;> exact buildTypeString_of_name rfl hbare fun _ => rfl
    | unboundedSequence => cases pkg <;> exact buildTypeString_of_name rfl (hwritten _) fun h => by cases h
    | boundedSequence n => cases pkg <;> exact buildTypeString_of_name rfl (hwritten _) fun h => by cases h
    | array n => cases pkg <;> exact buildTypeString_of_name rfl (hwritten _) fun h => by cases h

end Build

/-! ### Members -/

section Members

variable {A : Adapter} {context : PackageName}

theorem typePkgName_toIdl (t : TypeDecl) : typePkgName (t.toIdl context) = .ok none := by
  obtain ⟨base, suffix⟩ := t
  cases suffix with
  | none => match base with
    | .primitive _ | .string false none | .string false (some _) | .string true none | .string true (some _)
    | .message none _ | .message (some _) _ => rfl
  | unboundedSequence => rfl
  | boundedSequence bound => rfl
  | array size => rfl

theorem processMember_toMember {f : FieldDecl} {t : TypeDecl} (h : f.type.rebuilt context = some t) :
    processMember A (f.toMember context) =
      A.type t.text none >>= fun type => findAnnotationValue f.annotations "default" >>= fun defaultValue =>
        A.field type f.name (defaultValueString defaultValue) := by
  unfold processMember FieldDecl.toMember
  rw [buildTypeString_toIdl, typePkgName_toIdl, h]
  rfl

/-- A turn of `process_members` that goes through has written a declaration, which `Type` reads without a context. -/
theorem processMember_ok (hA : A.Grammar) {f : FieldDecl} {field : Field}
    (h : processMember A (f.toMember context) = .ok field) :
    field.name = f.name ∧ ∃ t, f.type.rebuilt context = some t ∧ A.type t.text none = .ok field.type := by
  cases hrebuilt : f.type.rebuilt context with
  | none =>
    unfold processMember FieldDecl.toMember at h
    rw [buildTypeString_toIdl, hrebuilt] at h
    cases h
  | some t =>
    rw [processMember_toMember hrebuilt] at h
    obtain ⟨type, htype, h⟩ := bind_eq_ok.mp h
    obtain ⟨defaultValue, -, h⟩ := bind_eq_ok.mp h
    obtain ⟨hftype, hfname⟩ := hA.field _ _ _ _ h
    exact ⟨hfname, t, rfl, hftype ▸ htype⟩

theorem processMember_of_ok (hA : A.Grammar) {f : FieldDecl} {t : TypeDecl} {type : MsgType}
    (hd : ∀ a ∈ f.annotations, a.name ≠ "default") (hr : f.type.rebuilt context = some t)
    (ht : A.type t.text none = .ok type) : ∃ field, processMember A (f.toMember context) = .ok field := by
  have hfind : findAnnotationValue f.annotations "default" = .ok .none := by
    unfold findAnnotationValue
    have hnone : f.annotations.find? (fun a => a.name = "default") = none := by
      rw [List.find?_eq_none]
      intro a ha
      simpa using hd a ha
    rw [hnone]
  obtain ⟨field, hfield⟩ := hA.field_without_default type f.name f.valid
  refine ⟨field, ?_⟩
  rw [processMember_toMember hr, ht, hfind]
  exact hfield

end Members

/-! ### Which attributes the two paths share -/

/-- The `Type` of the `.idl` path against that of the `.msg` path.  Nothing is said of the bound of a bounded string
inside of a sequence or array. -/
structure Reconstructed (t : TypeDecl) (msg idl : MsgType) : Prop where
  type : t.base ≠ .primitive .char → idl.type = msg.type
  char : t.base = .primitive .char → idl.type = "uint8"
  pkgName : idl.pkgName = msg.pkgName
  stringUpperBound : t.suffix = .none ∨ t.base.stringUpperBound = none → idl.stringUpperBound = msg.stringUpperBound
  isArray : idl.isArray = msg.isArray
  arraySize : idl.arraySize = msg.arraySize
  isUpperBound : idl.isUpperBound = msg.isUpperBound

/-- The declaration that is written is a bare message name, or it can be read without a context and says the same. -/
theorem rebuilt_cases {context : PackageName} {t t' : TypeDecl} (h : t.rebuilt context = some t') :
    (∃ pkg name, t = ⟨.message pkg name, .none⟩ ∧ t' = ⟨.message none name, .none⟩) ∨
      t'.NeedsNoContext ∧ Reconstructed t (t.parsed context) (t'.parsed context) := by
  obtain ⟨base, suffix⟩ := t
  match base, suffix, h with
  | .primitive p, suffix, h =>
    obtain rfl := Option.some.inj h
    refine .inr ⟨by simp [TypeDecl.NeedsNoContext], ?_, ?_, rfl, fun _ => rfl, rfl, rfl, rfl⟩
    · intro hne
      cases p <;> first | rfl | exact absurd rfl hne
    · rintro hchar
      obtain rfl : p = .char := by simpa using hchar
      rfl
  | .string wide none, suffix, h =>
    obtain rfl := Option.some.inj h
    exact .inr ⟨by simp [TypeDecl.NeedsNoContext], fun _ => rfl, nofun, rfl, fun _ => rfl, rfl, rfl, rfl⟩
  | .string wide (some bound), .unboundedSequence, h | .string wide (some bound), .boundedSequence _, h
  | .string wide (some bound), .array _, h =>
    obtain rfl := Option.some.inj h
    refine .inr ⟨by simp [TypeDecl.NeedsNoContext], fun _ => rfl, nofun, rfl, fun h => ?_, rfl, rfl, rfl⟩
    rcases h with h | h <;> cases h
  | .message pkg name, .none, h => exact .inl ⟨pkg, name, rfl, (Option.some.inj h).symm⟩
  | .message pkg name, .unboundedSequence, h | .message pkg name, .boundedSequence _, h
  | .message pkg name, .array _, h =>
    obtain rfl := Option.some.inj h
    refine .inr ⟨by simp [TypeDecl.NeedsNoContext], fun _ => rfl, nofun, ?_, fun _ => rfl, rfl, rfl, rfl⟩
    cases pkg <;> rfl

section Fields

variable {A : Adapter} {context : PackageName}

theorem field_reconstructed (hA : A.Grammar) {f : FieldDecl} {field : Field}
    (h : processMember A (f.toMember context) = .ok field) :
    field.name = f.name ∧ ∃ msg, A.type f.type.text (some context.text) = .ok msg ∧
      Reconstructed f.type msg field.type := by
  obtain ⟨hname, t, hrebuilt, htype⟩ := processMember_ok hA h
  refine ⟨hname, f.type.parsed context, hA.type f.type context, ?_⟩
  rcases rebuilt_cases hrebuilt with ⟨pkg, name, -, rfl⟩ | ⟨hneeds, hrec⟩
  · obtain ⟨e, he⟩ := hA.no_context name .none
    rw [he] at htype
    cases htype
  · rw [hA.type_without_context t context hneeds] at htype
    exact Except.ok.inj htype ▸ hrec

/-- The fields made from the IDL form have the names and the types that the `.msg` path gives them. -/
def SameFields (A : Adapter) (context : PackageName) (decls : List FieldDecl) (fields : List Field) : Prop :=
  List.Forall₂ (fun f field => field.name = f.name ∧ A.type f.type.text (some context.text) = .ok field.type)
    decls fields

/-- **The `.idl` path reconstructs the fields**: whenever `process_members` completes, the fields have the same names
in the same order, and their types agree with those of the `.msg` path in the attributes that `Reconstructed` lists. -/
theorem fields_reconstructed (hA : A.Grammar) {decls : List FieldDecl} {fields : List Field}
    (h : processMembers A (decls.map (·.toMember context)) = .ok fields) :
    List.Forall₂ (fun f field => field.name = f.name ∧ ∃ msg, A.type f.type.text (some context.text) = .ok msg ∧
      Reconstructed f.type msg field.type) decls fields := by
  have hfields := mapM_eq_ok_iff.mp h
  rw [List.forall₂_map_left_iff] at hfields
  exact hfields.imp fun f field hf => field_reconstructed hA hf

end Fields

def geometryMsgs : PackageName := ⟨"geometry_msgs", by decide⟩

def poseName : MessageName := ⟨"Pose", by decide⟩

/-- `string frame` -/
def frameField : FieldDecl := ⟨"frame", by decide, ⟨.string false none, .none⟩, []⟩

/-- `Pose[<=8] waypoints` -/
def waypointsField : FieldDecl := ⟨"waypoints", by decide, ⟨.message none poseName, .boundedSequence 8⟩, []⟩

/-- `char letter` -/
def letterField : FieldDecl := ⟨"letter", by decide, ⟨.primitive .char, .none⟩, []⟩

/-- `string<=5[] labels` -/
def labelsField : FieldDecl := ⟨"labels", by decide, ⟨.string false (some 5), .unboundedSequence⟩, []⟩

theorem fields_reconstructed_waypoints :
    ∃ fields,
      processMembers referenceAdapter ([frameField, waypointsField].map (·.toMember geometryMsgs)) = .ok fields ∧
        List.Forall₂ (fun f field => field.name = f.name ∧
          ∃ msg, referenceAdapter.type f.type.text (some geometryMsgs.text) = .ok msg ∧
            Reconstructed f.type msg field.type) [frameField, waypointsField] fields := by
  have h : processMembers referenceAdapter ([frameField, waypointsField].map (·.toMember geometryMsgs)) =
      .ok [⟨⟨"string", none, none, false, none, false⟩, "frame", none⟩,
        ⟨⟨"Pose", some "geometry_msgs", none, true, some 8, true⟩, "waypoints", none⟩] := by decide
  exact ⟨_, h, fields_reconstructed referenceAdapter_grammar h⟩

/-- A `char` comes back as `uint8`, and a bounded string inside of a sequence loses its bound. -/
theorem fields_not_same :
    (∃ fields, processMembers referenceAdapter ([letterField].map (·.toMember geometryMsgs)) = .ok fields ∧
        ¬ SameFields referenceAdapter geometryMsgs [letterField] fields) ∧
      ∃ fields, processMembers referenceAdapter ([labelsField].map (·.toMember geometryMsgs)) = .ok fields ∧
        ¬ SameFields referenceAdapter geometryMsgs [labelsField] fields := by
  constructor
  · refine ⟨[⟨⟨"uint8", none, none, false, none, false⟩, "letter", none⟩], by decide, ?_⟩
    unfold SameFields
    decide
  · refine ⟨[⟨⟨"string", none, none, true, none, false⟩, "labels", none⟩], by decide, ?_⟩
    unfold SameFields
    decide

/-! ### Which messages are accepted -/

/-- `parse_idl_message` returns a specification of the message. -/
def Accepts (A : Adapter) (m : MessageDecl) : Prop :=
  ∃ spec, parseIdlMessage A m.pkg.text m.name.text m.toIdl = .ok spec

/-- Not a message type or a bounded string, unless inside of a sequence or array. -/
def TypeDecl.Acceptable (t : TypeDecl) : Prop :=
  t.suffix = .none → (∀ pkg name, t.base ≠ .message pkg name) ∧ t.base.stringUpperBound = none

/-- Types that are acceptable, and constants of primitive types only, which `rosidl_adapter.Constant` accepts. -/
structure Acceptable (A : Adapter) (m : MessageDecl) : Prop where
  fields : ∀ f ∈ m.fields, f.type.Acceptable
  constants : ∀ c ∈ m.constants, ∃ p, c.type = .primitive p ∧ ∃ k, A.constant p.rebuilt.name c.name c.value = .ok k

section Accepted

variable {A : Adapter} {context : PackageName}

theorem rebuilt_eq_none {t : TypeDecl} :
    t.rebuilt context = none ↔ t.suffix = .none ∧ t.base.stringUpperBound ≠ none := by
  obtain ⟨base, suffix⟩ := t
  match base, suffix with
  | .primitive p, suffix => simp [TypeDecl.rebuilt, Base.stringUpperBound]
  | .string wide none, suffix => simp [TypeDecl.rebuilt, Base.stringUpperBound]
  | .string wide (some bound), .none => simp [TypeDecl.rebuilt, Base.stringUpperBound]
  | .string wide (some bound), .unboundedSequence | .string wide (some bound), .boundedSequence _
  | .string wide (some bound), .array _ => simp [TypeDecl.rebuilt]
  | .message pkg name, .none | .message pkg name, .unboundedSequence | .message pkg name, .boundedSequence _
  | .message pkg name, .array _ => simp [TypeDecl.rebuilt, Base.stringUpperBound]

/-- A field without a default value is accepted unless it is a message type or a bounded string of its own. -/
theorem exists_processMember_iff (hA : A.Grammar) {f : FieldDecl} (hd : ∀ a ∈ f.annotations, a.name ≠ "default") :
    (∃ field, processMember A (f.toMember context) = .ok field) ↔ f.type.Acceptable := by
  constructor
  · rintro ⟨field, hfield⟩ hsuffix
    obtain ⟨-, t, hrebuilt, htype⟩ := processMember_ok hA hfield
    constructor
    · intro pkg name hbase
      have heq : f.type = ⟨.message pkg name, .none⟩ := by rw [← hbase, ← hsuffix]
      rw [heq] at hrebuilt
      obtain rfl := Option.some.inj hrebuilt
      obtain ⟨e, he⟩ := hA.no_context name .none
      rw [he] at htype
      cases htype
    · by_contra hbound
      rw [rebuilt_eq_none.mpr ⟨hsuffix, hbound⟩] at hrebuilt
      cases hrebuilt
  · intro h
    cases hrebuilt : f.type.rebuilt context with
    | none =>
      obtain ⟨hsuffix, hbound⟩ := rebuilt_eq_none.mp hrebuilt
      exact absurd (h hsuffix).2 hbound
    | some t =>
      rcases rebuilt_cases hrebuilt with ⟨pkg, name, heq, -⟩ | ⟨hneeds, -⟩
      · rw [heq] at h
        exact absurd rfl ((h rfl).1 pkg name)
      · exact processMember_of_ok hA hd hrebuilt (hA.type_without_context t context hneeds)

theorem exists_processConstant_iff {c : ConstantDecl} :
    (∃ k, processConstant A c.toIdl = .ok k) ↔
      ∃ p, c.type = .primitive p ∧ ∃ k, A.constant p.rebuilt.name c.name c.value = .ok k := by
  obtain ⟨name, type, value⟩ := c
  cases type with
  | primitive p =>
    have heq : processConstant A (ConstantDecl.toIdl ⟨name, .primitive p, value⟩) =
        A.constant p.rebuilt.name name value := by
      unfold processConstant
      simp only [ConstantDecl.toIdl, ConstantType.toIdl, AbstractType.typename, bind, Except.bind, idlTypeToMsg_idlName]
    rw [heq]
    exact ⟨fun h => ⟨p, rfl, h⟩, fun ⟨q, hq, h⟩ => by cases hq; exact h⟩
  | string maximumSize =>
    constructor
    · rintro ⟨k, hk⟩
      cases hk
    · rintro ⟨p, hp, -⟩
      cases hp

/-- The names of a definition are distinct, so only its members and its constants can make `parse_idl_message` raise. -/
theorem accepts_iff_processed (hA : A.Grammar) {m : MessageDecl} :
    Accepts A m ↔ (∃ fields, processMembers A m.toIdl.members = .ok fields) ∧
      ∃ constants, processConstants A m.toIdl.constants = .ok constants := by
  constructor
  · rintro ⟨spec, hspec⟩
    obtain ⟨fields, hfields, hspec⟩ := bind_eq_ok.mp hspec
    obtain ⟨constants, hconstants, -⟩ := bind_eq_ok.mp hspec
    exact ⟨⟨fields, hfields⟩, constants, hconstants⟩
  · rintro ⟨⟨fields, hfields⟩, constants, hconstants⟩
    have hnf : (fields.map (·.name)).Nodup := by
      rw [← processMembers_names hA hfields]
      simpa [MessageDecl.toIdl, FieldDecl.toMember, Function.comp_def] using m.nodup_fields
    have hnc : (constants.map (·.name)).Nodup := by
      rw [← processConstants_names hA hconstants]
      simpa [MessageDecl.toIdl, ConstantDecl.toIdl, Function.comp_def] using m.nodup_constants
    obtain ⟨spec, hspec⟩ := hA.messageSpecification_of_nodup m.pkg m.name fields constants hnf hnc
    exact ⟨spec, bind_eq_ok.mpr ⟨fields, hfields, bind_eq_ok.mpr ⟨constants, hconstants, hspec⟩⟩⟩

theorem not_accepts_of_raises {m : MessageDecl} {e : PyError}
    (h : parseIdlMessage A m.pkg.text m.name.text m.toIdl = .error e) : ¬ Accepts A m := by
  rintro ⟨spec, hspec⟩
  cases h.symm.trans hspec

theorem exists_processMembers_iff (hA : A.Grammar) {m : MessageDecl}
    (hd : ∀ f ∈ m.fields, ∀ a ∈ f.annotations, a.name ≠ "default") :
    (∃ fields, processMembers A m.toIdl.members = .ok fields) ↔ ∀ f ∈ m.fields, f.type.Acceptable := by
  unfold processMembers MessageDecl.toIdl
  rw [exists_mapM_ok_iff, List.forall_mem_map]
  exact forall₂_congr fun f hf => exists_processMember_iff hA (hd f hf)

theorem exists_processConstants_iff {m : MessageDecl} :
    (∃ constants, processConstants A m.toIdl.constants = .ok constants) ↔
      ∀ c ∈ m.constants, ∃ p, c.type = .primitive p ∧ ∃ k, A.constant p.rebuilt.name c.name c.value = .ok k := by
  unfold processConstants MessageDecl.toIdl
  rw [exists_mapM_ok_iff, List.forall_mem_map]
  exact forall₂_congr fun c _ => exists_processConstant_iff

/-- **Which messages the `.idl` path accepts**, of those whose fields have no default values. -/
theorem accepts_iff (hA : A.Grammar) {m : MessageDecl}
    (hd : ∀ f ∈ m.fields, ∀ a ∈ f.annotations, a.name ≠ "default") : Accepts A m ↔ Acceptable A m := by
  rw [accepts_iff_processed hA, exists_processMembers_iff hA hd, exists_processConstants_iff]
  exact ⟨fun h => ⟨h.1, h.2⟩, fun h => ⟨h.fields, h.constants⟩⟩

end Accepted

/-- A message with the fields `string frame` and `Pose[<=8] waypoints` and the constant `uint8 MAXIMUM=8`. -/
def routeMessage : MessageDecl where
  pkg := geometryMsgs
  name := ⟨"Route", by decide⟩
  fields := [frameField, waypointsField]
  constants := [⟨"MAXIMUM", .primitive .uint8, .other "8"⟩]
  nodup_fields := by decide
  nodup_constants := by decide

theorem accepts_iff_routeMessage : Accepts referenceAdapter routeMessage ↔ Acceptable referenceAdapter routeMessage :=
  accepts_iff referenceAdapter_grammar (by decide)

/-- A message with the field `Pose pose`. -/
def stampedMessage : MessageDecl where
  pkg := geometryMsgs
  name := ⟨"Stamped", by decide⟩
  fields := [⟨"pose", by decide, ⟨.message none poseName, .none⟩, []⟩]
  constants := []
  nodup_fields := by decide
  nodup_constants := by decide

/-- A message with the field `string<=5 label`. -/
def labelMessage : MessageDecl where
  pkg := geometryMsgs
  name := ⟨"Label", by decide⟩
  fields := [⟨"label", by decide, ⟨.string false (some 5), .none⟩, []⟩]
  constants := []
  nodup_fields := by decide
  nodup_constants := by decide

/-- A message with the constant `string WORLD=world`. -/
def worldMessage : MessageDecl where
  pkg := geometryMsgs
  name := ⟨"World", by decide⟩
  fields := []
  constants := [⟨"WORLD", .string 5, .str "world"⟩]
  nodup_fields := by decide
  nodup_constants := by decide

theorem not_accepts_plain_message :
    ¬ Accepts referenceAdapter stampedMessage ∧ ¬ Accepts referenceAdapter labelMessage ∧
      ¬ Accepts referenceAdapter worldMessage := by
  have hstamped : parseIdlMessage referenceAdapter "geometry_msgs" "Stamped" stampedMessage.toIdl =
      .error (.raised "InvalidResourceName") := by decide
  have hlabel : parseIdlMessage referenceAdapter "geometry_msgs" "Label" labelMessage.toIdl =
      .error (.attributeError "string_upper_bound") := by decide
  have hworld : parseIdlMessage referenceAdapter "geometry_msgs" "World" worldMessage.toIdl =
      .error (.attributeError "typename") := by decide
  exact ⟨not_accepts_of_raises hstamped, not_accepts_of_raises hlabel, not_accepts_of_raises hworld⟩

end Ros2Sh.Rosidl
