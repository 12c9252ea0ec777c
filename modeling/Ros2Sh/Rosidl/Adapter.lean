import Mathlib.Data.List.Infix
import Mathlib.Data.PNat.Defs
import Mathlib.Data.Nat.Notation
import Ros2Sh.Rosidl.Definition

/-!
# The objects of `rosidl_adapter.parser`

The specification that the templates are applied to consists of these objects.  Their constructors check their arguments
and raise; they are the parameter `Adapter`.

What is assumed of the constructors is `Adapter.Grammar`: `Type` reads the notation of the `.msg` files, a base with an
optional array suffix, and rejects a message type for which it is given no package; the others keep their arguments,
and a message specification is only rejected for its names.  The notation is `TypeDecl`.
-/

namespace Ros2Sh.Rosidl

/-- The attributes of a `Type`. -/
structure MsgType where
  type : String
  pkgName : Option String
  stringUpperBound : Option ℕ
  isArray : Bool
  arraySize : Option ℕ
  isUpperBound : Bool
  deriving DecidableEq, Repr

structure Field where
  type : MsgType
  name : String
  defaultValue : Option String
  deriving DecidableEq, Repr

structure Constant where
  type : String
  name : String
  value : PyValue
  deriving DecidableEq, Repr

structure MessageSpecification where
  pkgName : String
  msgName : String
  fields : List Field
  constants : List Constant
  deriving DecidableEq, Repr

structure ServiceSpecification where
  pkgName : String
  srvName : String
  request : MessageSpecification
  response : MessageSpecification
  deriving DecidableEq, Repr

/-- The constructors `Type(type_string, context_package_name)`, `Field(type, name, default_value_string)`,
`Constant(primitive_type, name, value)`, `MessageSpecification(pkg_name, msg_name, fields, constants)` and
`ServiceSpecification(pkg_name, srv_name, request, response)`. -/
structure Adapter where
  type : String → Option String → Except PyError MsgType
  field : MsgType → String → Option String → Except PyError Field
  constant : String → String → PyValue → Except PyError Constant
  messageSpecification : String → String → List Field → List Constant → Except PyError MessageSpecification
  serviceSpecification :
    String → String → MessageSpecification → MessageSpecification → Except PyError ServiceSpecification

def stringUpperBoundToken : String := "<="

def arrayUpperBoundToken : String := "<="

def serviceRequestMessageSuffix : String := "_Request"

def serviceResponseMessageSuffix : String := "_Response"

/-! ### Names -/

/-- `[A-Z][A-Za-z0-9]*` -/
def isValidMessageName (name : String) : Bool :=
  match name.toList with
  | [] => false
  | c :: cs => c.isUpper && cs.all Char.isAlphanum

/-- `[a-z][a-z0-9_]*` without two underscores in a row and without an underscore at the end. -/
def isValidFieldName (name : String) : Bool :=
  match name.toList with
  | [] => false
  | c :: cs => c.isLower && cs.all (fun c => c.isLower || c.isDigit || c == '_') &&
      decide (¬ ['_', '_'] <:+: cs) && cs.getLast? != some '_'

def isValidPackageName (name : String) : Bool := isValidFieldName name

structure MessageName where
  text : String
  valid : isValidMessageName text

structure PackageName where
  text : String
  valid : isValidPackageName text

/-! ### The notation of the `.msg` files -/

inductive Primitive
  | bool | byte | char | float32 | float64
  | int8 | uint8 | int16 | uint16 | int32 | uint32 | int64 | uint64
  deriving DecidableEq, Repr

def Primitive.name : Primitive → String
  | bool => "bool" | byte => "byte" | char => "char" | float32 => "float32" | float64 => "float64"
  | int8 => "int8" | uint8 => "uint8" | int16 => "int16" | uint16 => "uint16"
  | int32 => "int32" | uint32 => "uint32" | int64 => "int64" | uint64 => "uint64"

/-- The base of a type.  A message type without a package is one of the package of the declaration. -/
inductive Base
  | primitive (p : Primitive)
  | string (wide : Bool) (bound : Option ℕ+)
  | message (pkg : Option PackageName) (name : MessageName)

inductive Suffix
  | none
  | unboundedSequence
  | boundedSequence (bound : ℕ+)
  | array (size : ℕ+)

structure TypeDecl where
  base : Base
  suffix : Suffix

def stringName (wide : Bool) : String := if wide then "wstring" else "string"

def Base.text : Base → String
  | primitive p => p.name
  | string wide none => stringName wide
  | string wide (some bound) => stringName wide ++ stringUpperBoundToken ++ toString (bound : ℕ)
  | message none name => name.text
  | message (some pkg) name => pkg.text ++ "/" ++ name.text

def Suffix.text : Suffix → String
  | none => ""
  | unboundedSequence => "[]"
  | boundedSequence bound => "[" ++ (arrayUpperBoundToken ++ toString (bound : ℕ)) ++ "]"
  | array size => "[" ++ toString (size : ℕ) ++ "]"

def TypeDecl.text (t : TypeDecl) : String := t.base.text ++ t.suffix.text

/-- The name of the type. -/
def Base.type : Base → String
  | primitive p => p.name
  | string wide _ => stringName wide
  | message _ name => name.text

/-- The package of a message type, declared in the package `context`. -/
def Base.pkgName (context : PackageName) : Base → Option String
  | primitive _ | string _ _ => none
  | message none _ => some context.text
  | message (some pkg) _ => some pkg.text

def Base.stringUpperBound : Base → Option ℕ
  | string _ (some bound) => some bound
  | primitive _ | string _ none | message _ _ => none

def Suffix.isArray : Suffix → Bool
  | none => false
  | unboundedSequence | boundedSequence _ | array _ => true

def Suffix.arraySize : Suffix → Option ℕ
  | none | unboundedSequence => Option.none
  | boundedSequence size | array size => some size

def Suffix.isUpperBound : Suffix → Bool
  | boundedSequence _ => true
  | none | unboundedSequence | array _ => false

/-- What the notation stands for. -/
def TypeDecl.parsed (context : PackageName) (t : TypeDecl) : MsgType :=
  ⟨t.base.type, t.base.pkgName context, t.base.stringUpperBound, t.suffix.isArray, t.suffix.arraySize,
    t.suffix.isUpperBound⟩

/-- The type can be told without the package of the declaration. -/
def TypeDecl.NeedsNoContext (t : TypeDecl) : Prop := ∀ name, t.base ≠ .message none name

structure Adapter.Grammar (A : Adapter) : Prop where
  type : ∀ (t : TypeDecl) (context : PackageName), A.type t.text (some context.text) = .ok (t.parsed context)
  type_without_context : ∀ (t : TypeDecl) (context : PackageName), t.NeedsNoContext →
    A.type t.text none = .ok (t.parsed context)
  no_context : ∀ (name : MessageName) (suffix : Suffix),
    ∃ e, A.type (TypeDecl.text ⟨.message none name, suffix⟩) none = .error e
  field : ∀ type name defaultValue f, A.field type name defaultValue = .ok f → f.type = type ∧ f.name = name
  field_without_default : ∀ type name, isValidFieldName name → ∃ f, A.field type name none = .ok f
  constant : ∀ type name value c, A.constant type name value = .ok c → c.name = name
  messageSpecification : ∀ pkgName msgName fields constants spec,
    A.messageSpecification pkgName msgName fields constants = .ok spec → spec.fields = fields
  messageSpecification_of_nodup : ∀ (pkg : PackageName) (name : MessageName) (fields : List Field)
    (constants : List Constant), (fields.map (·.name)).Nodup → (constants.map (·.name)).Nodup →
      ∃ spec, A.messageSpecification pkg.text name.text fields constants = .ok spec
  serviceSpecification : ∀ pkgName srvName request response spec,
    A.serviceSpecification pkgName srvName request response = .ok spec →
      spec.request = request ∧ spec.response = response

end Ros2Sh.Rosidl
