import Mathlib.Data.Set.Function
import Ros2Sh.Lib.Text
import Ros2Sh.Rosidl.Generate
import Ros2Sh.Rosidl.PackageInfo

/-!
# Where the generated code is written, and how it is named

`generate_file` computes the path of an output file by taking the name of the template apart; the templates write the
path of the header of a message into the include lines of the messages and services that use it, and put names made of
the package and the type into the header guards and the namespaces.

The paths written for a package are distinct, each include line is the path at which the header of the message is
written, and the guards and namespaces of distinct interfaces are distinct (`neither_collide_nor_dangle`).  What carries
this is that names of types have no separator in them, and names of packages no doubled underscore.
-/

namespace Ros2Sh.Rosidl

open Ros2Sh.Lib

/-! ### Paths -/

/-- `text.split(sep)` -/
def split (sep : Char) (text : String) : List String := (text.toList.splitOn sep).map String.ofList

/-- `get_message_type_name`. -/
def getMessageTypeName : Spec → String
  | .message spec => spec.msgName
  | .service spec => spec.srvName

/-- The name of the file that `generate_file` writes. -/
def outputFilename (template typeName : String) : Except PyError String :=
  let baseName := (split '/' template).getLastD ""
  let components := split '.' baseName
  let components := if components.getLast? = some "em" then components.dropLast else components
  match components with
  | [] => .error .indexError
  | component :: components => .ok (".".intercalate ((component ++ "__" ++ typeName) :: components))

/-- The path at which `generate_file` writes. -/
def generateFile (template destination : String) (spec : Spec) : Except PyError String := do
  let filename ← outputFilename template (getMessageTypeName spec)
  return "/".intercalate [destination, filename]

/-- The paths at which `generate_files` writes, in order; `subdir` is its parameter `prefix`. -/
def generateFiles (sourceDir headerDir : String) (specs : List Spec) (cppFiles hppFiles : List String)
    (subdir : String) : Except PyError (List String) := do
  let written ← specs.mapM fun spec => do
    let sources ← cppFiles.mapM fun cppFile => generateFile cppFile (sourceDir ++ "/" ++ subdir) spec
    let headers ← hppFiles.mapM fun hppFile => generateFile hppFile (headerDir ++ "/" ++ subdir) spec
    return sources ++ headers
  return written.flatten

/-- The installed templates. -/
inductive Template
  | msgCpp | msgHpp | srvCpp
  deriving DecidableEq, Repr

def Template.file : Template → String
  | msgCpp => "convert__msg.cpp.em"
  | msgHpp => "convert__msg.hpp.em"
  | srvCpp => "convert__srv.cpp.em"

/-- The templates are in the directory `resources`. -/
def Template.path (resources : String) (t : Template) : String := resources ++ "/" ++ t.file

/-- `main`, for the messages and services of a package. -/
def generatePackage (resources sourceDir headerDir : String) (messages : List MessageSpecification)
    (services : List ServiceSpecification) : Except PyError (List String) := do
  let msgFiles ← generateFiles sourceDir headerDir (messages.map .message) [Template.msgCpp.path resources]
    [Template.msgHpp.path resources] "msg"
  let srvFiles ← generateFiles sourceDir headerDir (services.map .service) [Template.srvCpp.path resources] [] "srv"
  return msgFiles ++ srvFiles

/-- The header directory of a package, in the include directory `include`. -/
def headerDir (includeDir package : String) : String := includeDir ++ "/is/rosidl/ros2/" ++ package

/-! ### Names in the templates -/

/-- `'is/rosidl/ros2/{}/msg/convert__msg__{}.hpp'.format(pkg_name, type)` -/
def converterInclude (pkgName type : String) : String :=
  "is/rosidl/ros2/" ++ pkgName ++ "/msg/convert__msg__" ++ type ++ ".hpp"

/-- The keys of `conversion_dependencies`. -/
def conversionDependencies (fields : List Field) : List String :=
  fields.filterMap fun field =>
    if field.type.isPrimitiveType then none
    else field.type.pkgName.map fun pkgName => converterInclude pkgName field.type.type

namespace Spec

def subdir : Spec → String
  | .message _ => "msg"
  | .service _ => "srv"

def pkgName : Spec → String
  | .message spec => spec.pkgName
  | .service spec => spec.pkgName

def fields : Spec → List Field
  | .message spec => spec.fields
  | .service spec => spec.request.fields ++ spec.response.fields

/-- `namespace_variable` or `namespace_variable_srv`; `snake` is `get_header_filename_from_msg_name`. -/
def namespaceVariable (snake : String → String) (spec : Spec) : String :=
  "__".intercalate ["convert", spec.pkgName, spec.subdir, snake (getMessageTypeName spec)]

end Spec

/-- `text.upper()` -/
def upper (text : String) : String := String.ofList (text.toList.map Char.toUpper)

/-- `header_guard_variable`. -/
def headerGuardVariable (snake : String → String) (spec : MessageSpecification) : String :=
  "__".intercalate (["_IS_SH_ROS2_ROSIDL__ROS2", spec.pkgName, "MSG__CONVERT__MSG", snake spec.msgName ++ "_HPP_"].map
    upper)

/-- The names are those of a package and of a type. -/
structure Spec.ValidNames (spec : Spec) : Prop where
  pkg : isValidPackageName spec.pkgName
  type : isValidMessageName (getMessageTypeName spec)

/-- The same package, kind and type. -/
def SameInterface (a b : Spec) : Prop :=
  a.pkgName = b.pkgName ∧ a.subdir = b.subdir ∧ getMessageTypeName a = getMessageTypeName b

/-! ### The name of a file -/

section Files

def Template.stem : Template → String
  | msgCpp | msgHpp => "convert__msg"
  | srvCpp => "convert__srv"

def Template.extension : Template → String
  | msgCpp | srvCpp => "cpp"
  | msgHpp => "hpp"

/-- The name of the file that is written with the template for a type. -/
def Template.filename (t : Template) (typeName : String) : String := t.stem ++ "__" ++ typeName ++ "." ++ t.extension

variable {t t' : Template} {name name' resources : String}

theorem split_last {directory file : String} (h : '/' ∉ file.toList) :
    (split '/' (directory ++ "/" ++ file)).getLastD "" = file := by
  have hlist : (directory ++ "/" ++ file).toList = directory.toList ++ '/' :: file.toList := by simp
  have hlast : (split '/' (directory ++ "/" ++ file)).getLast? = some file := by
    unfold split
    rw [hlist, List.getLast?_map, getLast?_splitOn h, Option.map_some, String.ofList_toList]
  rw [List.getLastD_eq_getLast?, hlast]
  rfl

theorem outputFilename_path (resources : String) (t : Template) (typeName : String) :
    outputFilename (t.path resources) typeName = .ok (t.filename typeName) := by
  have hfile : '/' ∉ t.file.toList := by cases t <;> decide
  have hsplit : split '.' t.file = [t.stem, t.extension, "em"] := by cases t <;> decide
  have hlast : (split '/' (t.path resources)).getLastD "" = t.file := split_last hfile
  unfold outputFilename
  simp only [hlast, hsplit]
  rw [if_pos (show [t.stem, t.extension, "em"].getLast? = some "em" from rfl)]
  rfl

theorem generateFile_path (resources destination : String) (t : Template) (spec : Spec) :
    generateFile (t.path resources) destination spec =
      .ok (destination ++ "/" ++ t.filename (getMessageTypeName spec)) := by
  unfold generateFile
  rw [outputFilename_path]
  rfl

theorem isAlphanum_of_mem (h : isValidMessageName name) {c : Char} (hc : c ∈ name.toList) : c.isAlphanum = true := by
  unfold isValidMessageName at h
  split at h
  · cases h
  · rename_i d ds hlist
    rw [hlist] at hc
    obtain ⟨hupper, hall⟩ := Bool.and_eq_true_iff.mp h
    rcases List.mem_cons.mp hc with rfl | hc
    · show (c.isAlpha || c.isDigit) = true
      rw [show c.isAlpha = (c.isUpper || c.isLower) from rfl, hupper]
      rfl
    · exact List.all_eq_true.mp hall c hc

theorem slash_not_mem_filename (h : isValidMessageName name) : '/' ∉ (t.filename name).toList := by
  intro hmem
  have hname : '/' ∉ name.toList := fun hm => absurd (isAlphanum_of_mem h hm) (by decide)
  have hstem : '/' ∉ t.stem.toList := by cases t <;> decide
  have hextension : '/' ∉ t.extension.toList := by cases t <;> decide
  unfold Template.filename at hmem
  simp [hname, hstem, hextension] at hmem

/-- **The name of a file** tells the template and the type. -/
theorem filename_inj (h : isValidMessageName name) (h' : isValidMessageName name')
    (heq : t.filename name = t'.filename name') : t = t' ∧ name = name' := by
  have hdot : ∀ {t : Template} {name : String}, isValidMessageName name →
      '.' ∉ t.stem.toList ++ "__".toList ++ name.toList := by
    intro t name h hmem
    rcases List.mem_append.mp hmem with hmem | hmem
    · exact absurd hmem (by cases t <;> decide)
    · exact absurd (isAlphanum_of_mem h hmem) (by decide)
  have hlist : (t.stem.toList ++ "__".toList ++ name.toList) ++ '.' :: t.extension.toList =
      (t'.stem.toList ++ "__".toList ++ name'.toList) ++ '.' :: t'.extension.toList := by
    simpa [Template.filename] using congrArg String.toList heq
  obtain ⟨hfront, hextension⟩ := append_cons_inj (hdot h) (hdot h') hlist
  have hlength : (t.stem.toList ++ "__".toList).length = (t'.stem.toList ++ "__".toList).length := by
    cases t <;> cases t' <;> decide
  obtain ⟨hstem, hname⟩ := List.append_inj hfront hlength
  refine ⟨?_, String.toList_inj.mp hname⟩
  have hstems := List.append_cancel_right hstem
  cases t <;> cases t' <;> first | rfl | exact absurd hextension (by decide) | exact absurd hstems (by decide)

end Files

/-! ### The paths of a package -/

section Paths

variable {resources sourceDir hdrDir : String} {messages : List MessageSpecification}
  {services : List ServiceSpecification}

/-- A file that is written: where, with which template, and for which type. -/
structure Written where
  destination : String
  template : Template
  typeName : String

def Written.path (w : Written) : String := w.destination ++ "/" ++ w.template.filename w.typeName

/-- The files that are written for a package. -/
def writtenFiles (sourceDir hdrDir : String) (messages : List MessageSpecification)
    (services : List ServiceSpecification) : List Written :=
  messages.flatMap (fun m => [⟨sourceDir ++ "/" ++ "msg", .msgCpp, m.msgName⟩,
    ⟨hdrDir ++ "/" ++ "msg", .msgHpp, m.msgName⟩]) ++
  services.map fun s => ⟨sourceDir ++ "/" ++ "srv", .srvCpp, s.srvName⟩

theorem generateFile_templates (resources destination : String) (ts : List Template) (spec : Spec) :
    (ts.map (Template.path resources)).mapM (fun template => generateFile template destination spec) =
      .ok (ts.map fun t => Written.path ⟨destination, t, getMessageTypeName spec⟩) := by
  rw [List.mapM_map]
  exact mapM_eq_ok_map fun t _ => generateFile_path resources destination t spec

theorem generateFiles_eq (resources sourceDir hdrDir : String) (specs : List Spec) (cs hs : List Template)
    (subdir : String) :
    generateFiles sourceDir hdrDir specs (cs.map (Template.path resources)) (hs.map (Template.path resources)) subdir =
      .ok (specs.flatMap fun spec =>
        cs.map (fun t => Written.path ⟨sourceDir ++ "/" ++ subdir, t, getMessageTypeName spec⟩) ++
          hs.map fun t => Written.path ⟨hdrDir ++ "/" ++ subdir, t, getMessageTypeName spec⟩) := by
  unfold generateFiles
  rw [mapM_eq_ok_map fun spec _ => by
    rw [generateFile_templates, generateFile_templates]
    rfl]
  rw [List.flatMap_def]
  rfl

theorem generatePackage_eq (resources sourceDir hdrDir : String) (messages : List MessageSpecification)
    (services : List ServiceSpecification) :
    generatePackage resources sourceDir hdrDir messages services =
      .ok ((writtenFiles sourceDir hdrDir messages services).map Written.path) := by
  have hmessages := generateFiles_eq resources sourceDir hdrDir (messages.map .message) [.msgCpp] [.msgHpp] "msg"
  have hservices := generateFiles_eq resources sourceDir hdrDir (services.map .service) [.srvCpp] [] "srv"
  unfold generatePackage writtenFiles
  simp only [List.map_cons, List.map_nil, List.append_nil] at hmessages hservices
  rw [hmessages, hservices, List.map_append, List.map_flatMap, List.map_map, List.flatMap_map, List.flatMap_map,
    ← List.map_eq_flatMap]
  rfl

theorem nodup_paths {written : List Written} (hvalid : ∀ w ∈ written, isValidMessageName w.typeName)
    (h : (written.map fun w => (w.template, w.typeName)).Nodup) : (written.map Written.path).Nodup := by
  have hne : written.Pairwise fun w w' => (w.template, w.typeName) ≠ (w'.template, w'.typeName) :=
    List.pairwise_map.mp h
  refine List.pairwise_map.mpr (hne.imp_of_mem fun {w w'} hw hw' hdiffer heq => hdiffer ?_)
  have hlist : w.destination.toList ++ '/' :: (w.template.filename w.typeName).toList =
      w'.destination.toList ++ '/' :: (w'.template.filename w'.typeName).toList := by
    simpa [Written.path] using congrArg String.toList heq
  obtain ⟨-, hfilename⟩ := append_cons_inj_last (slash_not_mem_filename (hvalid w hw))
    (slash_not_mem_filename (hvalid w' hw')) hlist
  obtain ⟨htemplate, htype⟩ := filename_inj (hvalid w hw) (hvalid w' hw') (String.toList_inj.mp hfilename)
  rw [htemplate, htype]

theorem nodup_writtenFiles (hmessages : (messages.map (·.msgName)).Nodup)
    (hservices : (services.map (·.srvName)).Nodup) :
    ((writtenFiles sourceDir hdrDir messages services).map fun w => (w.template, w.typeName)).Nodup := by
  unfold writtenFiles
  rw [List.map_append, List.map_flatMap, List.map_map, List.nodup_append, List.nodup_flatMap]
  refine ⟨⟨fun m _ => by simp, ?_⟩, ?_, ?_⟩
  · refine (List.pairwise_map.mp hmessages).imp fun {m m'} hne => ?_
    intro pair hm hm'
    simp only [List.map_cons, List.map_nil, List.mem_cons, List.not_mem_nil, or_false] at hm hm'
    rcases hm with rfl | rfl <;> rcases hm' with heq | heq <;> simp_all
  · refine List.pairwise_map.mpr ((List.pairwise_map.mp hservices).imp fun {s s'} hne heq => hne ?_)
    exact (Prod.mk.inj heq).2
  · intro pair hpair pair' hpair' heq
    obtain ⟨m, -, hm⟩ := List.mem_flatMap.mp hpair
    obtain ⟨s, -, rfl⟩ := List.mem_map.mp hpair'
    subst heq
    simp at hm

end Paths

/-! ### The include lines -/

section Includes

variable {resources includeDir line : String} {fields : List Field} {field : Field}

/-- The header of the message `type` of the package is written at `line` in the include directory. -/
def HeaderAt (resources includeDir package type line : String) : Prop :=
  ∀ m : MessageSpecification, m.pkgName = package → m.msgName = type →
    generateFile (Template.msgHpp.path resources) (headerDir includeDir package ++ "/" ++ "msg") (.message m) =
      .ok (includeDir ++ "/" ++ line)

theorem headerAt_converterInclude (resources includeDir package type : String) :
    HeaderAt resources includeDir package type (converterInclude package type) := by
  intro m _ hname
  have hdir : "/is/rosidl/ros2/" = "/" ++ "is/rosidl/ros2/" := by decide
  have hfile : "/msg/convert__msg__" = "/" ++ "msg" ++ "/" ++ "convert__msg" ++ "__" := by decide
  have hextension : ".hpp" = "." ++ "hpp" := by decide
  rw [generateFile_path, show getMessageTypeName (.message m) = type from hname]
  unfold headerDir converterInclude Template.filename Template.stem Template.extension
  rw [hdir, hfile, hextension]
  simp only [String.append_assoc]

theorem mem_conversionDependencies : line ∈ conversionDependencies fields ↔
    ∃ field ∈ fields, ∃ package, field.type.pkgName = some package ∧
      line = converterInclude package field.type.type := by
  have hkey : ∀ field : Field, (if field.type.isPrimitiveType then none
      else field.type.pkgName.map fun pkgName => converterInclude pkgName field.type.type) =
        field.type.pkgName.map fun pkgName => converterInclude pkgName field.type.type := by
    intro field
    unfold MsgType.isPrimitiveType
    cases field.type.pkgName <;> rfl
  unfold conversionDependencies
  rw [List.mem_filterMap]
  simp only [hkey, Option.map_eq_some_iff]
  constructor
  · rintro ⟨field, hfield, package, hpackage, rfl⟩
    exact ⟨field, hfield, package, hpackage, rfl⟩
  · rintro ⟨field, hfield, package, hpackage, rfl⟩
    exact ⟨field, hfield, package, hpackage, rfl⟩

/-- **The include lines** are the paths of the headers of the message types in the fields. -/
theorem mem_conversionDependencies_iff_headerAt : line ∈ conversionDependencies fields ↔
    ∃ field ∈ fields, ∃ package, field.type.pkgName = some package ∧
      HeaderAt resources includeDir package field.type.type line := by
  rw [mem_conversionDependencies]
  constructor
  · rintro ⟨field, hfield, package, hpackage, rfl⟩
    exact ⟨field, hfield, package, hpackage, headerAt_converterInclude _ _ _ _⟩
  · rintro ⟨field, hfield, package, hpackage, hline⟩
    refine ⟨field, hfield, package, hpackage, ?_⟩
    have hwritten := headerAt_converterInclude resources includeDir package field.type.type ⟨_, _, [], []⟩ rfl rfl
    have hpaths := Except.ok.inj ((hline ⟨_, _, [], []⟩ rfl rfl).symm.trans hwritten)
    have hlist : (includeDir ++ "/").toList ++ line.toList =
        (includeDir ++ "/").toList ++ (converterInclude package field.type.type).toList := by
      rw [← String.toList_append, ← String.toList_append, hpaths]
    exact String.toList_inj.mp (List.append_cancel_left hlist)

end Includes

/-! ### Guards and namespaces -/

section Names

variable {name name' : String} {snake : String → String}

theorem noPair_of_isValidPackageName (h : isValidPackageName name) : ¬ ['_', '_'] <:+: name.toList ++ ['_'] := by
  unfold isValidPackageName isValidFieldName at h
  split at h
  · cases h
  · rename_i c cs hlist
    simp only [Bool.and_eq_true, decide_eq_true_eq, bne_iff_ne] at h
    obtain ⟨⟨⟨hlower, -⟩, hpair⟩, hlast⟩ := h
    have hc : '_' ≠ c := by
      rintro rfl
      exact absurd hlower (by decide)
    rw [hlist, List.cons_append, List.infix_cons_iff]
    rintro (hhead | ⟨before, after, heq⟩)
    · exact hc (List.cons_prefix_cons.mp hhead).1
    · -- the pair is in `cs`, or its second half is the underscore that was added
      rcases List.eq_nil_or_concat' after with rfl | ⟨after, d, rfl⟩
      · have hcs : before ++ ['_'] ++ ['_'] = cs ++ ['_'] := by simpa using heq
        obtain rfl := List.append_cancel_right hcs
        exact hlast (List.getLast?_concat ..)
      · have hcs : before ++ ['_', '_'] ++ after ++ [d] = cs ++ ['_'] := by simpa using heq
        obtain ⟨rfl, -⟩ := List.append_inj' hcs rfl
        exact hpair ⟨before, after, rfl⟩

theorem toNat_toUpper (c : Char) :
    c.toUpper.toNat = if 97 ≤ c.toNat ∧ c.toNat ≤ 122 then c.toNat - 32 else c.toNat := by
  unfold Char.toUpper
  have hiff : ('a'.val ≤ c.val ∧ c.val ≤ 'z'.val) ↔ 97 ≤ c.toNat ∧ c.toNat ≤ 122 := by
    rw [UInt32.le_iff_toNat_le, UInt32.le_iff_toNat_le]
    exact Iff.rfl
  by_cases h : 'a'.val ≤ c.val ∧ c.val ≤ 'z'.val
  · have hc := hiff.mp h
    rw [dif_pos h, if_pos hc]
    show (c.val + ('A'.val - 'a'.val)).toNat = c.toNat - 32
    rw [UInt32.toNat_add]
    show (c.toNat + 4294967264) % 2 ^ 32 = c.toNat - 32
    omega
  · rw [dif_neg h, if_neg fun hc => h (hiff.mpr hc)]

theorem isUpper_iff (c : Char) : c.isUpper = true ↔ 65 ≤ c.toNat ∧ c.toNat ≤ 90 := by
  unfold Char.isUpper
  rw [decide_eq_true_iff]
  show 'A'.val ≤ c.val ∧ c.val ≤ 'Z'.val ↔ _
  rw [UInt32.le_iff_toNat_le, UInt32.le_iff_toNat_le]
  exact Iff.rfl

/-- Characters that are not upper-case letters can be told after `upper()`. -/
theorem toUpper_inj {c d : Char} (hc : c.isUpper = false) (hd : d.isUpper = false) (h : c.toUpper = d.toUpper) :
    c = d := by
  have hnat := congrArg Char.toNat h
  have hc' : ¬ (65 ≤ c.toNat ∧ c.toNat ≤ 90) := by
    rw [← isUpper_iff, hc]
    decide
  have hd' : ¬ (65 ≤ d.toNat ∧ d.toNat ≤ 90) := by
    rw [← isUpper_iff, hd]
    decide
  rw [toNat_toUpper, toNat_toUpper] at hnat
  have heq : c.toNat = d.toNat := by
    split at hnat <;> split at hnat <;> omega
  exact Char.toNat_inj.mp heq

theorem map_toUpper_inj {xs ys : List Char} (hx : ∀ c ∈ xs, c.isUpper = false) (hy : ∀ c ∈ ys, c.isUpper = false)
    (h : xs.map Char.toUpper = ys.map Char.toUpper) : xs = ys := by
  induction xs generalizing ys with
  | nil => exact (List.map_eq_nil_iff.mp h.symm).symm
  | cons c xs ih =>
    cases ys with
    | nil => cases h
    | cons d ys =>
      obtain ⟨hhead, htail⟩ := List.cons.inj h
      rw [toUpper_inj (hx c (List.mem_cons_self ..)) (hy d (List.mem_cons_self ..)) hhead,
        ih (fun c hc => hx c (List.mem_cons_of_mem _ hc)) (fun d hd => hy d (List.mem_cons_of_mem _ hd)) htail]

theorem toUpper_eq_underscore {c : Char} : c.toUpper = '_' ↔ c = '_' := by
  constructor
  · intro h
    have hnat := congrArg Char.toNat h
    rw [toNat_toUpper] at hnat
    have heq : c.toNat = '_'.toNat := by
      change _ = 95 at hnat ⊢
      split at hnat <;> omega
    exact Char.toNat_inj.mp heq
  · rintro rfl
    decide

theorem noPair_map_toUpper {xs : List Char} (h : ¬ ['_', '_'] <:+: xs ++ ['_']) :
    ¬ ['_', '_'] <:+: xs.map Char.toUpper ++ ['_'] := by
  have hmap : xs.map Char.toUpper ++ ['_'] = (xs ++ ['_']).map Char.toUpper := by
    rw [List.map_append]
    rfl
  rw [hmap, List.infix_map_iff]
  rintro ⟨ys, hys, hupper⟩
  obtain ⟨c, ys, rfl, hc, htail⟩ := List.map_eq_cons_iff.mp hupper.symm
  obtain ⟨d, ys, rfl, hd, hnil⟩ := List.map_eq_cons_iff.mp htail
  obtain rfl := List.map_eq_nil_iff.mp hnil
  obtain rfl := toUpper_eq_underscore.mp hc
  obtain rfl := toUpper_eq_underscore.mp hd
  exact h hys

theorem isUpper_of_mem_package (h : isValidPackageName name) {c : Char} (hc : c ∈ name.toList) :
    c.isUpper = false := by
  have hlower : ∀ d : Char, d.isLower = true → d.isUpper = false := by
    intro d hd
    have hrange : 97 ≤ d.toNat :=
      UInt32.le_iff_toNat_le.mp (of_decide_eq_true (Bool.and_eq_true_iff.mp hd).1 : 'a'.val ≤ d.val)
    rw [← Bool.not_eq_true, isUpper_iff]
    omega
  have hdigit : ∀ d : Char, d.isDigit = true → d.isUpper = false := by
    intro d hd
    have hrange : d.toNat ≤ 57 :=
      UInt32.le_iff_toNat_le.mp (of_decide_eq_true (Bool.and_eq_true_iff.mp hd).2 : d.val ≤ '9'.val)
    rw [← Bool.not_eq_true, isUpper_iff]
    omega
  unfold isValidPackageName isValidFieldName at h
  split at h
  · cases h
  · rename_i d ds hlist
    simp only [Bool.and_eq_true, List.all_eq_true, Bool.or_eq_true, beq_iff_eq] at h
    obtain ⟨⟨⟨hd, hall⟩, -⟩, -⟩ := h
    rw [hlist] at hc
    rcases List.mem_cons.mp hc with rfl | hc
    · exact hlower c hd
    · rcases hall c hc with (hc | hc) | rfl
      · exact hlower c hc
      · exact hdigit c hc
      · decide

variable {a b : Spec}

/-- **The namespaces** of distinct interfaces are distinct. -/
theorem sameInterface_of_namespaceVariable_eq (ha : a.ValidNames) (hb : b.ValidNames)
    (hsnake : snake (getMessageTypeName a) = snake (getMessageTypeName b) →
      getMessageTypeName a = getMessageTypeName b)
    (h : a.namespaceVariable snake = b.namespaceVariable snake) : SameInterface a b := by
  have hparts : ∀ spec : Spec, (spec.namespaceVariable snake).toList = "convert__".toList ++ (spec.pkgName.toList ++
      '_' :: '_' :: (spec.subdir.toList ++ ("__".toList ++ (snake (getMessageTypeName spec)).toList))) := by
    intro spec
    unfold Spec.namespaceVariable
    rw [String.toList_intercalate]
    simp [List.intercalate]
  have hlist := congrArg String.toList h
  rw [hparts, hparts] at hlist
  obtain ⟨hpkg, hrest⟩ := append_pair_inj (noPair_of_isValidPackageName ha.pkg) (noPair_of_isValidPackageName hb.pkg)
    (List.append_cancel_left hlist)
  have hlength : ∀ spec : Spec, spec.subdir.toList.length = 3 := by
    intro spec
    cases spec with
    | message _ => exact (by decide : "msg".toList.length = 3)
    | service _ => exact (by decide : "srv".toList.length = 3)
  obtain ⟨hsubdir, hname⟩ := List.append_inj hrest ((hlength a).trans (hlength b).symm)
  exact ⟨String.toList_inj.mp hpkg, String.toList_inj.mp hsubdir,
    hsnake (String.toList_inj.mp (List.append_cancel_left hname))⟩

/-- **The header guards** of distinct messages are distinct. -/
theorem same_of_headerGuardVariable_eq {m m' : MessageSpecification} (hm : isValidPackageName m.pkgName)
    (hm' : isValidPackageName m'.pkgName) (hlower : ∀ c ∈ (snake m.msgName).toList, c.isUpper = false)
    (hlower' : ∀ c ∈ (snake m'.msgName).toList, c.isUpper = false)
    (hsnake : snake m.msgName = snake m'.msgName → m.msgName = m'.msgName)
    (h : headerGuardVariable snake m = headerGuardVariable snake m') :
    m.pkgName = m'.pkgName ∧ m.msgName = m'.msgName := by
  have hparts : ∀ m : MessageSpecification, (headerGuardVariable snake m).toList =
      ((upper "_IS_SH_ROS2_ROSIDL__ROS2").toList ++ "__".toList) ++ (m.pkgName.toList.map Char.toUpper ++
        '_' :: '_' :: (((upper "MSG__CONVERT__MSG").toList ++ "__".toList) ++
          ((snake m.msgName).toList.map Char.toUpper ++ "_HPP_".toList.map Char.toUpper))) := by
    intro m
    unfold headerGuardVariable
    rw [String.toList_intercalate]
    simp [List.intercalate, upper]
  have hlist := congrArg String.toList h
  rw [hparts, hparts] at hlist
  obtain ⟨hpkg, hrest⟩ := append_pair_inj (noPair_map_toUpper (noPair_of_isValidPackageName hm))
    (noPair_map_toUpper (noPair_of_isValidPackageName hm')) (List.append_cancel_left hlist)
  have hname := List.append_cancel_right (List.append_cancel_left hrest)
  exact ⟨String.toList_inj.mp (map_toUpper_inj (fun c => isUpper_of_mem_package hm)
      (fun c => isUpper_of_mem_package hm') hpkg),
    hsnake (String.toList_inj.mp (map_toUpper_inj hlower hlower' hname))⟩

end Names

/-! ### Generated files -/

section Generated

variable (snake : String → String) (S : Set Spec) (resources sourceDir includeDir : String)

/-- What is to hold of the code that is generated for the interfaces in `S`, which may belong to several packages: no
file of a package is written twice, the include lines are the paths of the headers that they are to include, and
guards and namespaces tell the interfaces. -/
structure NeitherCollideNorDangle : Prop where
  paths : ∀ package messages services, (∀ m ∈ messages, .message m ∈ S ∧ m.pkgName = package) →
    (∀ s ∈ services, .service s ∈ S ∧ s.pkgName = package) → (messages.map (·.msgName)).Nodup →
      (services.map (·.srvName)).Nodup →
        ∃ paths, generatePackage resources sourceDir (headerDir includeDir package) messages services = .ok paths ∧
          paths.Nodup
  includes : ∀ spec ∈ S, ∀ line, line ∈ conversionDependencies spec.fields ↔
    ∃ field ∈ spec.fields, ∃ package, field.type.pkgName = some package ∧
      HeaderAt resources includeDir package field.type.type line
  namespaces : ∀ a ∈ S, ∀ b ∈ S, a.namespaceVariable snake = b.namespaceVariable snake → SameInterface a b
  guards : ∀ m m', .message m ∈ S → .message m' ∈ S → headerGuardVariable snake m = headerGuardVariable snake m' →
    m.pkgName = m'.pkgName ∧ m.msgName = m'.msgName

/-- **The generated files** neither collide nor dangle, when the snake case of the names in question is injective and,
as that conversion has it, without upper-case letters. -/
theorem neither_collide_nor_dangle (hvalid : ∀ spec ∈ S, spec.ValidNames)
    (hinj : Set.InjOn snake {name | ∃ spec ∈ S, getMessageTypeName spec = name})
    (hlower : ∀ spec ∈ S, ∀ c ∈ (snake (getMessageTypeName spec)).toList, c.isUpper = false) :
    NeitherCollideNorDangle snake S resources sourceDir includeDir where
  paths package messages services hmessages hservices hnodup hnodup' := by
    refine ⟨_, generatePackage_eq .., nodup_paths (fun w hw => ?_) (nodup_writtenFiles hnodup hnodup')⟩
    rcases List.mem_append.mp hw with hw | hw
    · obtain ⟨m, hm, hw⟩ := List.mem_flatMap.mp hw
      have hname : w.typeName = m.msgName := by
        rcases List.mem_cons.mp hw with rfl | hw
        · rfl
        · obtain rfl := List.mem_singleton.mp hw
          rfl
      rw [hname]
      exact (hvalid _ (hmessages m hm).1).type
    · obtain ⟨s, hs, rfl⟩ := List.mem_map.mp hw
      exact (hvalid _ (hservices s hs).1).type
  includes _ _ _ := mem_conversionDependencies_iff_headerAt
  namespaces a ha b hb h :=
    sameInterface_of_namespaceVariable_eq (hvalid a ha) (hvalid b hb) (hinj ⟨a, ha, rfl⟩ ⟨b, hb, rfl⟩) h
  guards m m' hm hm' h :=
    same_of_headerGuardVariable_eq (hvalid _ hm).pkg (hvalid _ hm').pkg (hlower _ hm) (hlower _ hm')
      (hinj ⟨_, hm, rfl⟩ ⟨_, hm', rfl⟩) h

end Generated

/-- The message `nav_msgs/msg/Path` with a field of the type `geometry_msgs/PoseStamped[]`. -/
def pathMessage : Spec :=
  .message ⟨"nav_msgs", "Path", [⟨⟨"PoseStamped", some "geometry_msgs", none, true, none, false⟩, "poses", none⟩], []⟩

/-- The service `nav_msgs/srv/SetMap`. -/
def setMapService : Spec := .service ⟨"nav_msgs", "SetMap", ⟨"nav_msgs", "SetMap_Request", [], []⟩,
  ⟨"nav_msgs", "SetMap_Response", [], []⟩⟩

theorem neither_collide_nor_dangle_nav_msgs :
    NeitherCollideNorDangle (fun name => if name = "Path" then "path" else "set_map") {pathMessage, setMapService}
      "/opt/ros/resources" "/tmp/src" "/tmp/include" := by
  refine neither_collide_nor_dangle _ _ _ _ _ ?_ ?_ ?_
  · rintro spec (rfl | rfl)
    · exact ⟨by decide, by decide⟩
    · exact ⟨by decide, by decide⟩
  · rintro name ⟨spec, rfl | rfl, rfl⟩ name' ⟨spec', rfl | rfl, rfl⟩ h
    · rfl
    · exact absurd h (by decide)
    · exact absurd h (by decide)
    · rfl
  · have hlower : ∀ text : String, (text.toList.all fun c => !c.isUpper) → ∀ c ∈ text.toList, c.isUpper = false := by
      intro text h c hc
      simpa using List.all_eq_true.mp h c hc
    rintro spec (rfl | rfl)
    · exact hlower _ (by decide)
    · exact hlower _ (by decide)

end Ros2Sh.Rosidl
