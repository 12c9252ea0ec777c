import Mathlib.Data.Nat.Notation

/-!
# The objects of `rosidl_parser.definition`

What `parse_idl_file` reads a `.idl` file into: types, members, constants and messages.  A type of Python's class
hierarchy is a constructor of `AbstractType`, an `isinstance` test is a pattern or a predicate, and an attribute is a
function that raises for the classes that do not have it.
-/

namespace Ros2Sh.Rosidl

/-- The exceptions the scripts can meet. -/
inductive PyError
  | attributeError (name : String)
  | keyError (key : String)
  | indexError
  | raised (what : String) -- by `rosidl_adapter`
  deriving DecidableEq, Repr

/-- A value of an annotation or of a constant. -/
inductive PyValue
  | none
  | str (text : String)
  | other (text : String) -- a number or a truth value; `text` is `str()` of it
  deriving DecidableEq, Repr

inductive AbstractType
  | basicType (typename : String)
  | namedType (name : String)
  | namespacedType (namespaces : List String) (name : String)
  | boundedString (maximumSize : ℕ)
  | unboundedString
  | boundedWString (maximumSize : ℕ)
  | unboundedWString
  | array (valueType : AbstractType) (size : ℕ)
  | boundedSequence (valueType : AbstractType) (maximumSize : ℕ)
  | unboundedSequence (valueType : AbstractType)
  deriving DecidableEq, Repr

namespace AbstractType

/-- `t.typename` -/
def typename : AbstractType → Except PyError String
  | .basicType typename => .ok typename
  | _ => .error (.attributeError "typename")

/-- `t.namespaces` -/
def namespaces : AbstractType → Except PyError (List String)
  | .namespacedType namespaces _ => .ok namespaces
  | _ => .error (.attributeError "namespaces")

/-- `t.string_upper_bound`; the bounded strings call their bound `maximum_size`. -/
def stringUpperBound (_ : AbstractType) : Except PyError String := .error (.attributeError "string_upper_bound")

/-- `t.value_type`, of an `AbstractNestedType`. -/
def valueType? : AbstractType → Option AbstractType
  | .array valueType _ | .boundedSequence valueType _ | .unboundedSequence valueType => some valueType
  | _ => none

/-- `isinstance(t, NamedType)` -/
def isNamedType : AbstractType → Bool
  | .namedType _ => true
  | _ => false

/-- `isinstance(t, BoundedString)` or `isinstance(t, BoundedWString)` -/
def isBoundedString : AbstractType → Bool
  | .boundedString _ | .boundedWString _ => true
  | _ => false

end AbstractType

/-- An annotation with its parameters, as in `@default (value=5)`. -/
structure Annotation where
  name : String
  value : List (String × PyValue)
  deriving DecidableEq, Repr

structure Member where
  type : AbstractType
  name : String
  annotations : List Annotation
  deriving DecidableEq, Repr

structure IdlConstant where
  name : String
  type : AbstractType
  value : PyValue
  deriving DecidableEq, Repr

structure IdlMessage where
  members : List Member
  constants : List IdlConstant
  deriving DecidableEq, Repr

structure IdlService where
  requestMessage : IdlMessage
  responseMessage : IdlMessage
  deriving DecidableEq, Repr

end Ros2Sh.Rosidl
