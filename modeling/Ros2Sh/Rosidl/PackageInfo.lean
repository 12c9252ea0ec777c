import Ros2Sh.Rosidl.Reconstruction

/-!
# `find_package_info`

`is_ros2_rosidl_find_package_info.py` looks through the share directory of a package: it lists the interface files and
collects the packages of the message types that their fields have.  Messages and services are scanned alike, first the
`.msg` or `.srv` files and then the `.idl` files of the interfaces that have none.

The scans take different notions of a dependency.  Of a field it is the package of its type, also when the type is an
array; of a member of an `.idl` file it is the package of a type that *is* a message, so the elements of a sequence or
an array are left out.  The listing is right in any case, and the dependencies are complete exactly when each package of
such elements is named by another field (`complete_iff`).
-/

namespace Ros2Sh.Rosidl

open Ros2Sh.Lib

/-! ### The script -/

/-- The path of an interface file. -/
structure InterfaceFile where
  directory : String
  stem : String
  suffix : String
  deriving DecidableEq, Repr

/-- `PackageInfo`. -/
structure PackageInfo where
  pkgName : String
  msgFiles : List InterfaceFile
  srvFiles : List InterfaceFile
  dependencies : List String
  deriving DecidableEq, Repr

/-- A file and what the parser makes of it. -/
structure ParsedFile (α : Type) where
  stem : String
  content : Except PyError α

/-- The files of `msg/` or `srv/`, in the order in which `glob` lists them: those in the native format, and the `.idl`
files with their elements of the type `Message` or `Service`. -/
structure InterfaceDir (N I : Type) where
  native : List (ParsedFile N)
  idl : List (ParsedFile (List I))

/-- The share directory of a package.  Each of its two directories may be missing. -/
structure ShareDir where
  pkgName : String
  path : String
  messageDir : Option (InterfaceDir MessageSpecification IdlMessage)
  serviceDir : Option (InterfaceDir ServiceSpecification IdlService)

/-- `field.type.is_primitive_type()` -/
def MsgType.isPrimitiveType (type : MsgType) : Bool := type.pkgName.isNone

def fieldDependency (field : Field) : Option String :=
  if field.type.isPrimitiveType then none else field.type.pkgName

def memberDependency (m : Member) : Except PyError (List String) := do
  match m.type with
  | .namespacedType namespaces _ => return [← firstOf namespaces]
  | _ => return []

/-- What differs between the scans of `msg/` and of `srv/`. -/
structure Scan (N I : Type) where
  directory : String -- also the suffix of the native files
  fields : N → List Field
  members : I → List Member
  directory_ne : directory ≠ "idl"

def messageScan : Scan MessageSpecification IdlMessage where
  directory := "msg"
  fields msg := msg.fields
  members idlMsg := idlMsg.members
  directory_ne := by decide

def serviceScan : Scan ServiceSpecification IdlService where
  directory := "srv"
  fields srv := srv.request.fields ++ srv.response.fields
  members idlSrv := idlSrv.requestMessage.members ++ idlSrv.responseMessage.members
  directory_ne := by decide

/-- The `.idl` files that are not ignored. -/
def InterfaceDir.listedIdl {N I : Type} (dir : InterfaceDir N I) : List (ParsedFile (List I)) :=
  dir.idl.filter fun file => file.stem ∉ dir.native.map (·.stem)

namespace Scan

variable {N I : Type} (sc : Scan N I) (share : String) (dir : InterfaceDir N I)

def nativeFile (stem : String) : InterfaceFile := ⟨share ++ "/" ++ sc.directory, stem, sc.directory⟩

def idlFile (stem : String) : InterfaceFile := ⟨share ++ "/" ++ sc.directory, stem, "idl"⟩

def nativeDependencies (file : ParsedFile N) : Except PyError (List String) := do
  let spec ← file.content
  return (sc.fields spec).filterMap fieldDependency

def idlDependencies (file : ParsedFile (List I)) : Except PyError (List String) := do
  let elements ← file.content
  let interface ← firstOf elements
  return (← (sc.members interface).mapM memberDependency).flatten

/-- The files listed and the dependencies found. -/
def run : Except PyError (List InterfaceFile × List String) := do
  let native ← dir.native.mapM sc.nativeDependencies
  let idl ← dir.listedIdl.mapM sc.idlDependencies
  return (dir.native.map (fun file => sc.nativeFile share file.stem) ++
    dir.listedIdl.map fun file => sc.idlFile share file.stem, native.flatten ++ idl.flatten)

def runIfExists (dir : Option (InterfaceDir N I)) : Except PyError (List InterfaceFile × List String) :=
  match dir with
  | none => return ([], [])
  | some dir => sc.run share dir

end Scan

/-- `find_package_info`, of a package whose share directory was found. -/
def findPackageInfo (share : ShareDir) : Except PyError PackageInfo := do
  let messages ← messageScan.runIfExists share.path share.messageDir
  let services ← serviceScan.runIfExists share.path share.serviceDir
  return ⟨share.pkgName, messages.1, services.1, messages.2 ++ services.2⟩

/-! ### What a package depends on -/

namespace AbstractType

/-- The package of a type that is a message. -/
def ownPackage : AbstractType → Option String
  | .namespacedType namespaces _ => namespaces.head?
  | _ => none

/-- The package of a message type, or of the message type of the elements of a nested type. -/
def messagePackage : AbstractType → Option String
  | .array valueType _ | .boundedSequence valueType _ | .unboundedSequence valueType => valueType.messagePackage
  | type => type.ownPackage

/-- The message type that the type is, or that its elements have, has a package. -/
def Resolved : AbstractType → Prop
  | .array valueType _ | .boundedSequence valueType _ | .unboundedSequence valueType => valueType.Resolved
  | .namespacedType namespaces _ => namespaces ≠ []
  | _ => True

end AbstractType

namespace Scan

variable {N I : Type} (sc : Scan N I) (share : String) (dir : InterfaceDir N I)

/-- The fields of a native file. -/
def nativeFields (file : ParsedFile N) : List Field :=
  match file.content with
  | .ok spec => sc.fields spec
  | .error _ => []

/-- The members of the interface in an `.idl` file. -/
def idlMembers (file : ParsedFile (List I)) : List Member :=
  match file.content with
  | .ok (interface :: _) => sc.members interface
  | .ok [] | .error _ => []

/-- The files can be parsed, and no two of one format have the same stem. -/
structure WellFormed : Prop where
  nodup_native : (dir.native.map (·.stem)).Nodup
  nodup_idl : (dir.idl.map (·.stem)).Nodup
  native : ∀ file ∈ dir.native, ∃ spec, file.content = .ok spec
  idl : ∀ file ∈ dir.idl, ∃ interface rest, file.content = .ok (interface :: rest) ∧
    ∀ m ∈ sc.members interface, m.type.Resolved

/-- One file is listed for every stem, the native one if there is one. -/
structure OnePerStem (files : List InterfaceFile) : Prop where
  nodup : (files.map (·.stem)).Nodup
  stems : ∀ stem, stem ∈ files.map (·.stem) ↔ stem ∈ dir.native.map (·.stem) ∨ stem ∈ dir.idl.map (·.stem)
  native : ∀ stem ∈ dir.native.map (·.stem), sc.nativeFile share stem ∈ files
  idl : ∀ stem ∈ dir.idl.map (·.stem), stem ∉ dir.native.map (·.stem) → sc.idlFile share stem ∈ files

/-- A listed file has a field whose type is a message of the package `pkg`, or a sequence or an array of it. -/
def HasField (files : List InterfaceFile) (pkg : String) : Prop :=
  (∃ file ∈ dir.native, sc.nativeFile share file.stem ∈ files ∧
      ∃ field ∈ sc.nativeFields file, field.type.pkgName = some pkg) ∨
    ∃ file ∈ dir.idl, sc.idlFile share file.stem ∈ files ∧
      ∃ m ∈ sc.idlMembers file, m.type.messagePackage = some pkg

/-- The package `pkg` is named by a field of a native file, or by a member that is itself a message. -/
def NamesPlainly (pkg : String) : Prop :=
  (∃ file ∈ dir.native, ∃ field ∈ sc.nativeFields file, field.type.pkgName = some pkg) ∨
    ∃ file ∈ dir.listedIdl, ∃ m ∈ sc.idlMembers file, m.type.ownPackage = some pkg

/-- The package `pkg` is named by the elements of a sequence or of an array in an `.idl` file. -/
def NamesWrapped (pkg : String) : Prop :=
  ∃ file ∈ dir.listedIdl, ∃ m ∈ sc.idlMembers file, ∃ valueType, m.type.valueType? = some valueType ∧
    valueType.messagePackage = some pkg

end Scan

/-! ### What a scan finds -/

section Scans

variable {N I : Type} {sc : Scan N I} {share : String} {dir : InterfaceDir N I} {pkg : String}

theorem fieldDependency_eq (field : Field) : fieldDependency field = field.type.pkgName := by
  unfold fieldDependency MsgType.isPrimitiveType
  cases field.type.pkgName <;> rfl

theorem memberDependency_eq {m : Member} (h : m.type.Resolved) :
    memberDependency m = .ok m.type.ownPackage.toList := by
  unfold memberDependency
  cases htype : m.type with
  | namespacedType namespaces name =>
    cases namespaces with
    | nil =>
      rw [htype] at h
      exact absurd rfl h
    | cons pkg rest => rfl
  | basicType | namedType | boundedString | unboundedString | boundedWString | unboundedWString | array
  | boundedSequence | unboundedSequence => rfl

theorem nativeDependencies_eq {file : ParsedFile N} (h : ∃ spec, file.content = .ok spec) :
    sc.nativeDependencies file = .ok ((sc.nativeFields file).filterMap (·.type.pkgName)) := by
  obtain ⟨spec, hspec⟩ := h
  have hfields : (fun field => fieldDependency field) = fun field : Field => field.type.pkgName :=
    funext fieldDependency_eq
  unfold Scan.nativeDependencies Scan.nativeFields
  rw [hspec, ← hfields]
  rfl

theorem idlDependencies_eq {file : ParsedFile (List I)}
    (h : ∃ interface rest, file.content = .ok (interface :: rest) ∧ ∀ m ∈ sc.members interface, m.type.Resolved) :
    sc.idlDependencies file = .ok ((sc.idlMembers file).filterMap (·.type.ownPackage)) := by
  obtain ⟨interface, rest, hcontent, hresolved⟩ := h
  unfold Scan.idlDependencies Scan.idlMembers
  rw [hcontent]
  show (do return (← (sc.members interface).mapM memberDependency).flatten) = Except.ok _
  rw [mapM_eq_ok_map fun m hm => memberDependency_eq (hresolved m hm)]
  show Except.ok ((sc.members interface).map fun m => m.type.ownPackage.toList).flatten = _
  rw [List.filterMap_eq_flatMap_toList, List.flatMap_def]

/-- The files that a scan lists. -/
def Scan.listed (sc : Scan N I) (share : String) (dir : InterfaceDir N I) : List InterfaceFile :=
  dir.native.map (fun file => sc.nativeFile share file.stem) ++
    dir.listedIdl.map fun file => sc.idlFile share file.stem

/-- The dependencies that a scan finds. -/
def Scan.found (sc : Scan N I) (dir : InterfaceDir N I) : List String :=
  (dir.native.flatMap fun file => (sc.nativeFields file).filterMap (·.type.pkgName)) ++
    dir.listedIdl.flatMap fun file => (sc.idlMembers file).filterMap (·.type.ownPackage)

theorem run_eq (h : sc.WellFormed dir) : sc.run share dir = .ok (sc.listed share dir, sc.found dir) := by
  have hnative : dir.native.mapM sc.nativeDependencies = .ok (dir.native.map fun file =>
      (sc.nativeFields file).filterMap (·.type.pkgName)) :=
    mapM_eq_ok_map fun file hfile => nativeDependencies_eq (h.native file hfile)
  have hidl : dir.listedIdl.mapM sc.idlDependencies = .ok (dir.listedIdl.map fun file =>
      (sc.idlMembers file).filterMap (·.type.ownPackage)) :=
    mapM_eq_ok_map fun file hfile => idlDependencies_eq (h.idl file (List.mem_of_mem_filter hfile))
  unfold Scan.run
  rw [hnative, hidl]
  rfl

theorem mem_listedIdl {file : ParsedFile (List I)} :
    file ∈ dir.listedIdl ↔ file ∈ dir.idl ∧ file.stem ∉ dir.native.map (·.stem) := by
  unfold InterfaceDir.listedIdl
  rw [List.mem_filter, decide_eq_true_iff]

theorem nativeFile_mem_listed {stem : String} (h : stem ∈ dir.native.map (·.stem)) :
    sc.nativeFile share stem ∈ sc.listed share dir := by
  obtain ⟨file, hfile, rfl⟩ := List.mem_map.mp h
  exact List.mem_append_left _ (List.mem_map_of_mem hfile)

/-- An `.idl` file is listed when there is no native file with its stem. -/
theorem idlFile_mem_listed_iff {stem : String} (h : stem ∈ dir.idl.map (·.stem)) :
    sc.idlFile share stem ∈ sc.listed share dir ↔ stem ∉ dir.native.map (·.stem) := by
  constructor
  · intro hlisted
    rcases List.mem_append.mp hlisted with hnative | hidl
    · obtain ⟨file, -, hfile⟩ := List.mem_map.mp hnative
      exact absurd (congrArg InterfaceFile.suffix hfile) sc.directory_ne
    · obtain ⟨file, hmem, hfile⟩ := List.mem_map.mp hidl
      have hstem : file.stem = stem := congrArg InterfaceFile.stem hfile
      exact hstem ▸ (mem_listedIdl.mp hmem).2
  · intro hnative
    obtain ⟨file, hfile, rfl⟩ := List.mem_map.mp h
    exact List.mem_append_right _ (List.mem_map_of_mem (mem_listedIdl.mpr ⟨hfile, hnative⟩))

theorem stems_listed : (sc.listed share dir).map (·.stem) =
    dir.native.map (·.stem) ++ dir.listedIdl.map (·.stem) := by
  unfold Scan.listed
  rw [List.map_append, List.map_map, List.map_map]
  rfl

/-- **The listing** is right: one file for every stem, the native one if there is one. -/
theorem onePerStem_listed (h : sc.WellFormed dir) : sc.OnePerStem share dir (sc.listed share dir) where
  nodup := by
    have hidl : (dir.listedIdl.map (·.stem)).Nodup := h.nodup_idl.sublist (List.filter_sublist.map _)
    rw [stems_listed, List.nodup_append]
    refine ⟨h.nodup_native, hidl, fun stem hnative stem' hmem heq => ?_⟩
    obtain ⟨file, hfile, rfl⟩ := List.mem_map.mp hmem
    exact (mem_listedIdl.mp hfile).2 (heq ▸ hnative)
  stems stem := by
    rw [stems_listed, List.mem_append]
    constructor
    · rintro (hnative | hmem)
      · exact .inl hnative
      · obtain ⟨file, hfile, rfl⟩ := List.mem_map.mp hmem
        exact .inr (List.mem_map_of_mem (mem_listedIdl.mp hfile).1)
    · rintro (hnative | hidl)
      · exact .inl hnative
      · by_cases hnative : stem ∈ dir.native.map (·.stem)
        · exact .inl hnative
        · obtain ⟨file, hfile, rfl⟩ := List.mem_map.mp hidl
          exact .inr (List.mem_map_of_mem (mem_listedIdl.mpr ⟨hfile, hnative⟩))
  native _ hstem := nativeFile_mem_listed hstem
  idl _ hstem hnative := (idlFile_mem_listed_iff hstem).mpr hnative

theorem mem_found_iff : pkg ∈ sc.found dir ↔ sc.NamesPlainly dir pkg := by
  unfold Scan.found Scan.NamesPlainly
  simp only [List.mem_append, List.mem_flatMap, List.mem_filterMap]

/-- The package of a message type is that of the type itself, or of its elements. -/
theorem messagePackage_eq_some_iff {type : AbstractType} : type.messagePackage = some pkg ↔
    type.ownPackage = some pkg ∨ ∃ valueType, type.valueType? = some valueType ∧
      valueType.messagePackage = some pkg := by
  cases type <;> simp [AbstractType.messagePackage, AbstractType.ownPackage, AbstractType.valueType?]

theorem hasField_listed_iff : sc.HasField share dir (sc.listed share dir) pkg ↔
    sc.NamesPlainly dir pkg ∨ sc.NamesWrapped dir pkg := by
  have hidl : ∀ file ∈ dir.idl, sc.idlFile share file.stem ∈ sc.listed share dir ↔ file ∈ dir.listedIdl := by
    intro file hfile
    rw [idlFile_mem_listed_iff (List.mem_map_of_mem hfile), mem_listedIdl]
    exact (and_iff_right hfile).symm
  constructor
  · rintro (⟨file, hfile, -, hfield⟩ | ⟨file, hfile, hlisted, m, hm, htype⟩)
    · exact .inl (.inl ⟨file, hfile, hfield⟩)
    · have hlisted' := (hidl file hfile).mp hlisted
      rcases messagePackage_eq_some_iff.mp htype with hown | hnested
      · exact .inl (.inr ⟨file, hlisted', m, hm, hown⟩)
      · exact .inr ⟨file, hlisted', m, hm, hnested⟩
  · rintro ((⟨file, hfile, hfield⟩ | ⟨file, hlisted, m, hm, hown⟩) | ⟨file, hlisted, m, hm, hnested⟩)
    · exact .inl ⟨file, hfile, nativeFile_mem_listed (List.mem_map_of_mem hfile), hfield⟩
    · have hfile := (mem_listedIdl.mp hlisted).1
      exact .inr ⟨file, hfile, (hidl file hfile).mpr hlisted, m, hm, messagePackage_eq_some_iff.mpr (.inl hown)⟩
    · have hfile := (mem_listedIdl.mp hlisted).1
      exact .inr ⟨file, hfile, (hidl file hfile).mpr hlisted, m, hm, messagePackage_eq_some_iff.mpr (.inr hnested)⟩

end Scans

/-! ### Completeness -/

section Complete

variable (share : ShareDir)

/-- A directory that is missing holds no files. -/
def ShareDir.messages : InterfaceDir MessageSpecification IdlMessage := share.messageDir.getD ⟨[], []⟩

def ShareDir.services : InterfaceDir ServiceSpecification IdlService := share.serviceDir.getD ⟨[], []⟩

structure ShareDir.WellFormed : Prop where
  messages : messageScan.WellFormed share.messages
  services : serviceScan.WellFormed share.services

/-- The files of the package are listed, and its dependencies are the packages of all message types in the fields of
these files. -/
def Complete : Prop :=
  ∃ info, findPackageInfo share = .ok info ∧ messageScan.OnePerStem share.path share.messages info.msgFiles ∧
    serviceScan.OnePerStem share.path share.services info.srvFiles ∧
      ∀ pkg, pkg ∈ info.dependencies ↔ messageScan.HasField share.path share.messages info.msgFiles pkg ∨
        serviceScan.HasField share.path share.services info.srvFiles pkg

/-- Every package that the elements of a sequence or an array in an `.idl` file name is also named plainly. -/
def WrappedNamedPlainly : Prop :=
  ∀ pkg, messageScan.NamesWrapped share.messages pkg ∨ serviceScan.NamesWrapped share.services pkg →
    messageScan.NamesPlainly share.messages pkg ∨ serviceScan.NamesPlainly share.services pkg

variable {share}

theorem runIfExists_eq {N I : Type} (sc : Scan N I) (path : String) (dir : Option (InterfaceDir N I)) :
    sc.runIfExists path dir = sc.run path (dir.getD ⟨[], []⟩) := by
  cases dir <;> rfl

theorem findPackageInfo_eq (h : share.WellFormed) : findPackageInfo share =
    .ok ⟨share.pkgName, messageScan.listed share.path share.messages, serviceScan.listed share.path share.services,
      messageScan.found share.messages ++ serviceScan.found share.services⟩ := by
  have hmessages : messageScan.run share.path (share.messageDir.getD ⟨[], []⟩) = _ := run_eq h.messages
  have hservices : serviceScan.run share.path (share.serviceDir.getD ⟨[], []⟩) = _ := run_eq h.services
  unfold findPackageInfo
  rw [runIfExists_eq, runIfExists_eq, hmessages, hservices]
  rfl

/-- **The dependencies of a package** are complete exactly when each package that is only named by the elements of
sequences and arrays in `.idl` files is named by another field as well. -/
theorem complete_iff (share : ShareDir) (h : share.WellFormed) : Complete share ↔ WrappedNamedPlainly share := by
  unfold Complete WrappedNamedPlainly
  rw [findPackageInfo_eq h]
  constructor
  · rintro ⟨info, hinfo, -, -, hdependencies⟩ pkg hwrapped
    obtain rfl := Except.ok.inj hinfo
    have hpkg := (hdependencies pkg).mpr (hwrapped.imp (fun hm => hasField_listed_iff.mpr (.inr hm))
      fun hs => hasField_listed_iff.mpr (.inr hs))
    rwa [List.mem_append, mem_found_iff, mem_found_iff] at hpkg
  · intro hplain
    refine ⟨_, rfl, onePerStem_listed h.messages, onePerStem_listed h.services, fun pkg => ?_⟩
    rw [List.mem_append, mem_found_iff, mem_found_iff, hasField_listed_iff, hasField_listed_iff]
    constructor
    · rintro (hm | hs)
      · exact .inl (.inl hm)
      · exact .inr (.inl hs)
    · rintro ((hm | hwrapped) | hs | hwrapped)
      · exact .inl hm
      · exact hplain pkg (.inl hwrapped)
      · exact .inr hs
      · exact hplain pkg (.inr hwrapped)

end Complete

/-! ### The two formats -/

/-- A declared type names the same package in both formats. -/
theorem messagePackage_toIdl (t : TypeDecl) (context : PackageName) :
    (t.toIdl context).messagePackage = (t.parsed context).pkgName := by
  have hbase : ∀ base : Base, (base.toIdl context).messagePackage = base.pkgName context := by
    intro base
    rcases base with p | ⟨wide, bound⟩ | ⟨_ | pkg, name⟩
    · rfl
    · cases wide <;> cases bound <;> rfl
    · rfl
    · rfl
  rcases t with ⟨base, suffix⟩
  cases suffix <;> exact hbase base

/-- **Either format** of the same fields has the same packages. -/
theorem packages_either_format (fields : List FieldDecl) (context : PackageName) :
    (fields.map (·.toMember context)).filterMap (·.type.messagePackage) =
      fields.filterMap fun f => (f.type.parsed context).pkgName := by
  rw [List.filterMap_map]
  congr 1
  funext f
  exact messagePackage_toIdl f.type context

/-! ### A path message -/

/-- `std_msgs::msg::Header header;` and `sequence<geometry_msgs::msg::PoseStamped> poses;` -/
def pathMembers : List Member :=
  [⟨.namespacedType ["std_msgs", "msg"] "Header", "header", []⟩,
    ⟨.unboundedSequence (.namespacedType ["geometry_msgs", "msg"] "PoseStamped"), "poses", []⟩]

/-- A package whose only file is `msg/Path.idl`. -/
def pathShare : ShareDir where
  pkgName := "nav_msgs"
  path := "/opt/ros/share/nav_msgs"
  messageDir := some ⟨[], [⟨"Path", .ok [⟨pathMembers, []⟩]⟩]⟩
  serviceDir := none

theorem wellFormed_pathShare : pathShare.WellFormed where
  messages :=
    { nodup_native := List.nodup_nil
      nodup_idl := List.nodup_cons.mpr ⟨List.not_mem_nil, List.nodup_nil⟩
      native := nofun
      idl := by
        intro file hfile
        obtain rfl := List.mem_singleton.mp hfile
        refine ⟨_, _, rfl, fun m hm => ?_⟩
        rcases List.mem_cons.mp hm with rfl | hm
        · exact List.cons_ne_nil _ _
        · obtain rfl := List.mem_singleton.mp hm
          exact List.cons_ne_nil _ _ }
  services := ⟨List.nodup_nil, List.nodup_nil, nofun, nofun⟩

theorem complete_iff_pathShare : Complete pathShare ↔ WrappedNamedPlainly pathShare :=
  complete_iff pathShare wellFormed_pathShare

/-- The package `geometry_msgs` of the elements of `poses` is missing. -/
theorem not_complete_pathShare : pathShare.WellFormed ∧ ¬ Complete pathShare := by
  refine ⟨wellFormed_pathShare, ?_⟩
  rintro ⟨info, hinfo, -, -, hdependencies⟩
  have hfound : findPackageInfo pathShare =
      .ok ⟨"nav_msgs", [⟨"/opt/ros/share/nav_msgs/msg", "Path", "idl"⟩], [], ["std_msgs"]⟩ := by decide
  obtain rfl := Except.ok.inj (hinfo.symm.trans hfound)
  have hfield : messageScan.HasField pathShare.path pathShare.messages
      [⟨"/opt/ros/share/nav_msgs/msg", "Path", "idl"⟩] "geometry_msgs" := by
    refine .inr ⟨_, List.mem_singleton_self _, ?_, _, List.mem_cons_of_mem _ (List.mem_singleton_self _), rfl⟩
    decide
  exact absurd ((hdependencies "geometry_msgs").mpr (.inl hfield)) (by decide)

end Ros2Sh.Rosidl
