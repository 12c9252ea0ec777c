import Mathlib.Data.Nat.Notation

/-!
# YAML nodes as yaml-cpp hands them out

A `Node` is what a `const YAML::Node&` can be.  `operator[]` of a missing key returns a node that is not defined, which
tests as false, and which may not be indexed further; so every access is `index` followed by a test or by a conversion,
and both can throw.
-/

namespace Ros2Sh.Lib.Yaml

inductive Node
  | undefined
  | null
  | scalar (text : String)
  | sequence (nodes : List Node)
  | map (entries : List (String × Node))

/-- The exceptions of yaml-cpp. -/
inductive Error
  | invalidNode
  | badSubscript (key : String)
  | badConversion
  deriving DecidableEq, Repr

/-- `node[key]`. -/
def Node.index : Node → String → Except Error Node
  | .undefined, _ => .error .invalidNode
  | .scalar _, key => .error (.badSubscript key)
  | .null, _ | .sequence _, _ => .ok .undefined
  | .map entries, key => .ok ((entries.lookup key).getD .undefined)

/-- A node converted to `bool`. -/
def Node.isDefined : Node → Bool
  | .undefined => false
  | .null | .scalar _ | .sequence _ | .map _ => true

/-- The conversions `as<std::string>` and `as<uint64_t>`, which depend on the version of the library. -/
structure Conversions where
  asString : Node → Except Error String
  asUnsigned : Node → Except Error ℕ

/-- Conversions that read scalars only, and numbers in decimal. -/
def scalarConversions : Conversions where
  asString
    | .scalar text => .ok text
    | .undefined | .null | .sequence _ | .map _ => .error .badConversion
  asUnsigned
    | .scalar text => match text.toNat? with
      | some n => .ok n
      | none => .error .badConversion
    | .undefined | .null | .sequence _ | .map _ => .error .badConversion

end Ros2Sh.Lib.Yaml
