import Ros2Sh.Lib.Fold
import Ros2Sh.Rosidl.Adapter

/-!
# `rosidl_parser_ext.py`

The functions that make a message specification out of the parsed `.idl` file of a message.  For each member,
`build_type_string` writes the type in the notation of the `.msg` files, and `rosidl_adapter.Type` reads it.
-/

namespace Ros2Sh.Rosidl

open Ros2Sh.Lib

/-- The table of `rosidl_adapter.msg`. -/
def msgTypeToIdl : List (String × String) :=
  [("bool", "boolean"), ("byte", "octet"), ("char", "uint8"), ("int8", "int8"), ("uint8", "uint8"),
    ("int16", "int16"), ("uint16", "uint16"), ("int32", "int32"), ("uint32", "uint32"), ("int64", "int64"),
    ("uint64", "uint64"), ("float32", "float"), ("float64", "double"), ("string", "string"), ("wstring", "wstring")]

/-- `IDL_TYPE_TO_MSG = {v: k for k, v in MSG_TYPE_TO_IDL.items()}`: the last entry of a value counts. -/
def idlTypeToMsg (type : String) : Option String :=
  (msgTypeToIdl.reverse.find? fun entry => entry.2 = type).map (·.1)

/-- `resolve_typename`. -/
def resolveTypename : AbstractType → String
  | .basicType typename => typename
  | .boundedWString _ | .unboundedWString => "wstring"
  | .boundedString _ | .unboundedString => "string"
  | .namedType name => name
  | .array valueType _ | .boundedSequence valueType _ | .unboundedSequence valueType => resolveTypename valueType
  | .namespacedType _ name => name

/-- `l[0]` -/
def firstOf {α : Type} : List α → Except PyError α
  | [] => .error .indexError
  | a :: _ => .ok a

/-- The package before the name of a message type, when it is the type of the elements of a nested type. -/
def qualify (memberType : AbstractType) (typeString : String) : Except PyError String :=
  match memberType.valueType? with
  | some (.namespacedType namespaces _) => return (← firstOf namespaces) ++ "/" ++ typeString
  | _ => return typeString

/-- The bound after the name of a bounded string. -/
def addStringBound (memberType : AbstractType) (typeString : String) : Except PyError String :=
  if memberType.isBoundedString then
    return typeString ++ (stringUpperBoundToken ++ (← memberType.stringUpperBound))
  else return typeString

/-- The brackets after the name of a nested type. -/
def addBrackets (memberType : AbstractType) (typeString : String) : String :=
  match memberType with
  | .boundedSequence _ maximumSize => typeString ++ ("[" ++ (arrayUpperBoundToken ++ toString maximumSize) ++ "]")
  | .array _ size => typeString ++ ("[" ++ toString size ++ "]")
  | .unboundedSequence _ => typeString ++ "[]"
  | _ => typeString

/-- `build_type_string`. -/
def buildTypeString (memberType : AbstractType) : Except PyError String := do
  let typeString ← qualify memberType (resolveTypename memberType)
  let typeString := (idlTypeToMsg typeString).getD typeString
  let typeString ← addStringBound memberType typeString
  return addBrackets memberType typeString

/-- `find_annotation_value(annotations, name)`. -/
def findAnnotationValue (annotations : List Annotation) (name : String) : Except PyError PyValue :=
  match annotations.find? fun a => a.name = name with
  | none => .ok .none
  | some a =>
    match a.value.lookup "value" with
    | none => .error (.keyError "value")
    | some value => .ok value

/-- `None` and strings stay, and `str()` is taken of anything else. -/
def defaultValueString : PyValue → Option String
  | .none => none
  | .str text | .other text => some text

section Process

variable (A : Adapter)

/-- A turn of the loop of `process_constants`. -/
def processConstant (c : IdlConstant) : Except PyError Constant := do
  let typename ← c.type.typename
  match idlTypeToMsg typename with
  | none => .error (.keyError typename)
  | some typename => A.constant typename c.name c.value

def processConstants (constants : List IdlConstant) : Except PyError (List Constant) :=
  constants.mapM (processConstant A)

/-- `type_pkg_name`: only a `NamedType` is asked for its namespaces. -/
def typePkgName (type : AbstractType) : Except PyError (Option String) :=
  if type.isNamedType then return some (← firstOf (← type.namespaces)) else return none

/-- A turn of the loop of `process_members`. -/
def processMember (m : Member) : Except PyError Field := do
  let typeString ← buildTypeString m.type
  let pkgName ← typePkgName m.type
  let fieldType ← A.type typeString pkgName
  let defaultValue ← findAnnotationValue m.annotations "default"
  A.field fieldType m.name (defaultValueString defaultValue)

def processMembers (members : List Member) : Except PyError (List Field) := members.mapM (processMember A)

/-- `parse_idl_message`. -/
def parseIdlMessage (pkgName msgName : String) (idlMsg : IdlMessage) : Except PyError MessageSpecification := do
  let fields ← processMembers A idlMsg.members
  let constants ← processConstants A idlMsg.constants
  A.messageSpecification pkgName msgName fields constants

/-- `parse_idl_to_service_spec`, of a file that contains the service `idlSrv`. -/
def parseIdlToServiceSpec (pkgName srvName : String) (idlSrv : IdlService) : Except PyError ServiceSpecification := do
  let requestMessage ← parseIdlMessage A pkgName (srvName ++ serviceRequestMessageSuffix) idlSrv.requestMessage
  let responseMessage ← parseIdlMessage A pkgName (srvName ++ serviceResponseMessageSuffix) idlSrv.responseMessage
  A.serviceSpecification pkgName srvName requestMessage responseMessage

end Process

/-! ### The names stay -/

section Names

variable {A : Adapter}

theorem processMember_name (hA : A.Grammar) {m : Member} {field : Field} (h : processMember A m = .ok field) :
    m.name = field.name := by
  obtain ⟨typeString, -, h⟩ := bind_eq_ok.mp h
  obtain ⟨pkgName, -, h⟩ := bind_eq_ok.mp h
  obtain ⟨fieldType, -, h⟩ := bind_eq_ok.mp h
  obtain ⟨defaultValue, -, h⟩ := bind_eq_ok.mp h
  exact (hA.field _ _ _ _ h).2.symm

theorem processMembers_names (hA : A.Grammar) {members : List Member} {fields : List Field}
    (h : processMembers A members = .ok fields) : members.map (·.name) = fields.map (·.name) :=
  map_eq_of_mapM (fun _ _ hm => processMember_name hA hm) h

theorem processConstant_name (hA : A.Grammar) {c : IdlConstant} {constant : Constant}
    (h : processConstant A c = .ok constant) : c.name = constant.name := by
  obtain ⟨typename, -, h⟩ := bind_eq_ok.mp h
  split at h
  · cases h
  · exact (hA.constant _ _ _ _ h).symm

theorem processConstants_names (hA : A.Grammar) {cs : List IdlConstant} {constants : List Constant}
    (h : processConstants A cs = .ok constants) : cs.map (·.name) = constants.map (·.name) :=
  map_eq_of_mapM (fun _ _ hc => processConstant_name hA hc) h

theorem parseIdlMessage_names (hA : A.Grammar) {pkgName msgName : String} {idlMsg : IdlMessage}
    {spec : MessageSpecification} (h : parseIdlMessage A pkgName msgName idlMsg = .ok spec) :
    spec.fields.map (·.name) = idlMsg.members.map (·.name) := by
  obtain ⟨fields, hfields, h⟩ := bind_eq_ok.mp h
  obtain ⟨constants, -, h⟩ := bind_eq_ok.mp h
  rw [hA.messageSpecification _ _ _ _ _ h, processMembers_names hA hfields]

theorem parseIdlToServiceSpec_names (hA : A.Grammar) {pkgName srvName : String} {idlSrv : IdlService}
    {spec : ServiceSpecification} (h : parseIdlToServiceSpec A pkgName srvName idlSrv = .ok spec) :
    spec.request.fields.map (·.name) = idlSrv.requestMessage.members.map (·.name) ∧
      spec.response.fields.map (·.name) = idlSrv.responseMessage.members.map (·.name) := by
  obtain ⟨request, hrequest, h⟩ := bind_eq_ok.mp h
  obtain ⟨response, hresponse, h⟩ := bind_eq_ok.mp h
  obtain ⟨hreq, hres⟩ := hA.serviceSpecification _ _ _ _ _ h
  rw [hreq, hres]
  exact ⟨parseIdlMessage_names hA hrequest, parseIdlMessage_names hA hresponse⟩

end Names

end Ros2Sh.Rosidl
