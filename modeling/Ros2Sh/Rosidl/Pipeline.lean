import Ros2Sh.Rosidl.OutputPaths
import Ros2Sh.Rosidl.Packages
import Ros2Sh.Rosidl.Reconstruction

/-!
# From a package to the includes of the code generated for it

`is_ros2_rosidl_find_package_info.py` prints the packages that a package depends on, and the generator is run for the
package and for each of these.  This file puts the two scripts together: the files that the first one lists, the second
one reads (`InterfaceDir.readFile`), and the message types in the fields become include lines.

The scripts have complementary notions of a `.idl` file.  The first one takes the package of a field whose type is a
message, which the second one rejects (`ownPackage_of_processMember`); the second one takes sequences and arrays of
messages, which the first one leaves out.  So a `.idl` file for which code is generated contributes no dependency at
all, and the include lines of all the code that is generated are met by it exactly when the packages that the `.idl`
files name are also reached by other fields (`includes_closed_iff`).
-/

namespace Ros2Sh.Rosidl

open Ros2Sh.Lib

/-! ### Reading the listed files -/

/-- What a file holds that is opened by its path. -/
def contentOf {α : Type} (files : List (ParsedFile α)) (stem : String) : Except PyError α :=
  match files.find? fun file => file.stem = stem with
  | none => .error (.raised "FileNotFoundError")
  | some file => file.content

/-- The branch of `generate_files` that makes the specification of a listed file; `parse` is the function of
`rosidl_parser_ext.py` for the `.idl` files. -/
def InterfaceDir.readFile {N I : Type} (dir : InterfaceDir N I) (parse : String → I → Except PyError N)
    (file : InterfaceFile) : Except PyError N :=
  if file.suffix = "idl" then do
    let interface ← firstOf (← contentOf dir.idl file.stem)
    parse file.stem interface
  else contentOf dir.native file.stem

section Generate

variable (A : Adapter) (share : ShareDir)

/-- `parse_idl_to_message_spec` or `parse_message_file`. -/
def readMessage : InterfaceFile → Except PyError MessageSpecification :=
  share.messages.readFile (parseIdlMessage A share.pkgName)

/-- `parse_idl_to_service_spec` or `parse_service_file`. -/
def readService : InterfaceFile → Except PyError ServiceSpecification :=
  share.services.readFile (parseIdlToServiceSpec A share.pkgName)

/-- What is generated for a package: the specifications, and the paths that are written. -/
structure Generated where
  messages : List MessageSpecification
  services : List ServiceSpecification
  paths : List String

/-- The generator, run for a package with the files that were listed for it. -/
def generate (resources sourceDir includeDir : String) (info : PackageInfo) : Except PyError Generated := do
  let messages ← info.msgFiles.mapM (readMessage A share)
  let services ← info.srvFiles.mapM (readService A share)
  let paths ← generatePackage resources sourceDir (headerDir includeDir info.pkgName) messages services
  return ⟨messages, services, paths⟩

/-- The specifications that the templates are applied to. -/
def Generated.specs (g : Generated) : List Spec := g.messages.map .message ++ g.services.map .service

end Generate

/-! ### What the `.idl` files contribute -/

section Members

variable {A : Adapter} {context : PackageName} {f : FieldDecl} {field : Field}

/-- A field whose type is a message is rejected. -/
theorem ownPackage_of_processMember (hA : A.Grammar) (h : processMember A (f.toMember context) = .ok field) :
    (f.toMember context).type.ownPackage = none := by
  obtain ⟨-, t, hrebuilt, htype⟩ := processMember_ok hA h
  rcases rebuilt_cases hrebuilt with ⟨pkg, name, -, rfl⟩ | ⟨hneeds, -⟩
  · obtain ⟨e, he⟩ := hA.no_context name .none
    rw [he] at htype
    cases htype
  · obtain ⟨name, valid, ⟨base, suffix⟩, annotations⟩ := f
    cases suffix with
    | none => match base with
      | .primitive _ | .string false none | .string false (some _) | .string true none | .string true (some _) => rfl
      | .message pkg name =>
        obtain rfl := Option.some.inj hrebuilt
        exact absurd rfl (hneeds name)
    | unboundedSequence => rfl
    | boundedSequence bound => rfl
    | array size => rfl

theorem pkgName_of_processMember (hA : A.Grammar) (h : processMember A (f.toMember context) = .ok field) :
    field.type.pkgName = (f.toMember context).type.messagePackage ∧
      (field.type.pkgName.isSome → isValidMessageName field.type.type) := by
  obtain ⟨-, msg, hmsg, hrec⟩ := field_reconstructed hA h
  rw [hA.type f.type context] at hmsg
  obtain rfl := Except.ok.inj hmsg
  have hpackage : field.type.pkgName = (f.toMember context).type.messagePackage := by
    rw [hrec.pkgName]
    exact (messagePackage_toIdl f.type context).symm
  refine ⟨hpackage, fun hsome => ?_⟩
  obtain ⟨name, valid, ⟨base, suffix⟩, annotations⟩ := f
  match base with
  | .primitive _ | .string _ _ =>
    rw [hrec.pkgName] at hsome
    cases hsome
  | .message pkg name =>
    have htype : field.type.type = name.text := hrec.type nofun
    rw [htype]
    exact name.valid

end Members

/-- What is assumed of the constructors besides the grammar: a specification keeps its name. -/
structure Adapter.KeepsNames (A : Adapter) : Prop where
  messageSpecification : ∀ pkgName msgName fields constants spec,
    A.messageSpecification pkgName msgName fields constants = .ok spec → spec.msgName = msgName
  serviceSpecification : ∀ pkgName srvName request response spec,
    A.serviceSpecification pkgName srvName request response = .ok spec → spec.srvName = srvName

/-- The specification of a `.idl` file has the name of the file, and its fields are made of the members one by one. -/
structure Scan.Parses {N I : Type} (sc : Scan N I) (A : Adapter) (name : N → String)
    (parse : String → I → Except PyError N) : Prop where
  name : ∀ stem interface spec, parse stem interface = .ok spec → name spec = stem
  fields : ∀ stem interface spec, parse stem interface = .ok spec →
    List.Forall₂ (fun m field => processMember A m = .ok field) (sc.members interface) (sc.fields spec)

section Parses

variable {A : Adapter}

theorem forall₂_of_parseIdlMessage (hA : A.Grammar) {pkgName msgName : String} {idlMsg : IdlMessage}
    {spec : MessageSpecification} (h : parseIdlMessage A pkgName msgName idlMsg = .ok spec) :
    List.Forall₂ (fun m field => processMember A m = .ok field) idlMsg.members spec.fields := by
  obtain ⟨fields, hfields, h⟩ := bind_eq_ok.mp h
  obtain ⟨constants, -, h⟩ := bind_eq_ok.mp h
  rw [hA.messageSpecification _ _ _ _ _ h]
  exact mapM_eq_ok_iff.mp hfields

theorem msgName_of_parseIdlMessage (hnames : A.KeepsNames) {pkgName msgName : String} {idlMsg : IdlMessage}
    {spec : MessageSpecification} (h : parseIdlMessage A pkgName msgName idlMsg = .ok spec) :
    spec.msgName = msgName := by
  obtain ⟨fields, -, h⟩ := bind_eq_ok.mp h
  obtain ⟨constants, -, h⟩ := bind_eq_ok.mp h
  exact hnames.messageSpecification _ _ _ _ _ h

theorem srvName_of_parseIdlToServiceSpec (hnames : A.KeepsNames) {pkgName srvName : String} {idlSrv : IdlService}
    {spec : ServiceSpecification} (h : parseIdlToServiceSpec A pkgName srvName idlSrv = .ok spec) :
    spec.srvName = srvName := by
  obtain ⟨request, -, h⟩ := bind_eq_ok.mp h
  obtain ⟨response, -, h⟩ := bind_eq_ok.mp h
  exact hnames.serviceSpecification _ _ _ _ _ h

theorem messageScan_parses (hA : A.Grammar) (hnames : A.KeepsNames) (pkgName : String) :
    messageScan.Parses A MessageSpecification.msgName (parseIdlMessage A pkgName) where
  name _ _ _ h := msgName_of_parseIdlMessage hnames h
  fields _ _ _ h := forall₂_of_parseIdlMessage hA h

theorem serviceScan_parses (hA : A.Grammar) (hnames : A.KeepsNames) (pkgName : String) :
    serviceScan.Parses A ServiceSpecification.srvName (parseIdlToServiceSpec A pkgName) where
  name _ _ _ h := srvName_of_parseIdlToServiceSpec hnames h
  fields srvName idlSrv spec h := by
    obtain ⟨request, hrequest, h⟩ := bind_eq_ok.mp h
    obtain ⟨response, hresponse, h⟩ := bind_eq_ok.mp h
    obtain ⟨hreq, hres⟩ := hA.serviceSpecification _ _ _ _ _ h
    show List.Forall₂ _ (idlSrv.requestMessage.members ++ idlSrv.responseMessage.members)
      (spec.request.fields ++ spec.response.fields)
    rw [hreq, hres]
    exact List.rel_append (forall₂_of_parseIdlMessage hA hrequest) (forall₂_of_parseIdlMessage hA hresponse)

end Parses

/-! ### The packages that the specifications name -/

section Named

variable {N I : Type} {A : Adapter} {sc : Scan N I} {share : String} {dir : InterfaceDir N I}
  {name : N → String} {parse : String → I → Except PyError N} {context : PackageName} {pkg : String}

theorem contentOf_of_mem {α : Type} {files : List (ParsedFile α)} {file : ParsedFile α}
    (hnodup : (files.map (·.stem)).Nodup) (hfile : file ∈ files) : contentOf files file.stem = file.content := by
  have hfind : files.find? (fun f => f.stem = file.stem) = some file := by
    induction files with
    | nil => cases hfile
    | cons f files ih =>
      rw [List.map_cons, List.nodup_cons] at hnodup
      rcases List.mem_cons.mp hfile with rfl | hfile
      · simp
      · have hne : f.stem ≠ file.stem := fun heq => hnodup.1 (heq ▸ List.mem_map_of_mem hfile)
        rw [List.find?_cons, decide_eq_false hne]
        exact ih hnodup.2 hfile
  unfold contentOf
  rw [hfind]

theorem readFile_native (hw : sc.WellFormed dir) {file : ParsedFile N} (hfile : file ∈ dir.native) :
    dir.readFile parse (sc.nativeFile share file.stem) = file.content := by
  unfold InterfaceDir.readFile
  rw [if_neg (show (sc.nativeFile share file.stem).suffix ≠ "idl" from sc.directory_ne)]
  exact contentOf_of_mem hw.nodup_native hfile

theorem readFile_idl (hw : sc.WellFormed dir) {file : ParsedFile (List I)} (hfile : file ∈ dir.idl) {interface : I}
    {rest : List I} (hcontent : file.content = .ok (interface :: rest)) :
    dir.readFile parse (sc.idlFile share file.stem) = parse file.stem interface := by
  unfold InterfaceDir.readFile
  rw [if_pos (show (sc.idlFile share file.stem).suffix = "idl" from rfl)]
  rw [show contentOf dir.idl (sc.idlFile share file.stem).stem = file.content from
    contentOf_of_mem hw.nodup_idl hfile, hcontent]
  rfl

/-- The directory holds interfaces of the package: the files can be parsed and have valid names, which `rosidl_adapter`
gives the specifications of the native ones, and those in `.idl` are written for the fields of a definition. -/
structure Scan.Declared (sc : Scan N I) (name : N → String) (context : PackageName) (dir : InterfaceDir N I) :
    Prop where
  wellFormed : sc.WellFormed dir
  stems : ∀ stem, stem ∈ dir.native.map (·.stem) ∨ stem ∈ dir.idl.map (·.stem) → isValidMessageName stem
  native : ∀ file ∈ dir.native, ∀ spec, file.content = .ok spec → name spec = file.stem ∧
    ∀ field ∈ sc.fields spec, field.type.pkgName.isSome → isValidMessageName field.type.type
  idl : ∀ file ∈ dir.idl, ∀ interface rest, file.content = .ok (interface :: rest) →
    ∃ decls : List FieldDecl, sc.members interface = decls.map (·.toMember context)

/-- A field of the specification of a listed file has a message type of the package, or a sequence or an array of it. -/
def Scan.SpecNames (sc : Scan N I) (share : String) (dir : InterfaceDir N I) (parse : String → I → Except PyError N)
    (pkg : String) : Prop :=
  ∃ file ∈ sc.listed share dir, ∃ spec, dir.readFile parse file = .ok spec ∧
    ∃ field ∈ sc.fields spec, field.type.pkgName = some pkg

theorem spec_of_listedIdl (hd : sc.Declared name context dir) (hp : sc.Parses A name parse) {file : ParsedFile (List I)}
    (hfile : file ∈ dir.listedIdl) {spec : N} (hspec : dir.readFile parse (sc.idlFile share file.stem) = .ok spec) :
    ∃ decls : List FieldDecl, sc.idlMembers file = decls.map (·.toMember context) ∧
      List.Forall₂ (fun m field => processMember A m = .ok field) (sc.idlMembers file) (sc.fields spec) := by
  have hmem := (mem_listedIdl.mp hfile).1
  obtain ⟨interface, rest, hcontent, -⟩ := hd.wellFormed.idl file hmem
  have hmembers : sc.idlMembers file = sc.members interface := by
    unfold Scan.idlMembers
    rw [hcontent]
  rw [readFile_idl hd.wellFormed hmem hcontent] at hspec
  obtain ⟨decls, hdecls⟩ := hd.idl file hmem interface rest hcontent
  rw [hmembers]
  exact ⟨decls, hdecls, hp.fields _ _ _ hspec⟩

/-- **A `.idl` file for which code is generated** contributes no dependency. -/
theorem ownPackage_of_read (hA : A.Grammar) (hd : sc.Declared name context dir) (hp : sc.Parses A name parse)
    {file : ParsedFile (List I)} (hfile : file ∈ dir.listedIdl) {spec : N}
    (hspec : dir.readFile parse (sc.idlFile share file.stem) = .ok spec) {m : Member} (hm : m ∈ sc.idlMembers file) :
    m.type.ownPackage = none := by
  obtain ⟨decls, hdecls, hfields⟩ := spec_of_listedIdl hd hp hfile hspec
  obtain ⟨field, -, hprocess⟩ := exists_mem_of_forall₂ hfields hm
  rw [hdecls] at hm
  obtain ⟨f, -, rfl⟩ := List.mem_map.mp hm
  exact ownPackage_of_processMember hA hprocess

theorem valid_of_read (hA : A.Grammar) (hd : sc.Declared name context dir) (hp : sc.Parses A name parse)
    {file : InterfaceFile} (hfile : file ∈ sc.listed share dir) {spec : N}
    (hspec : dir.readFile parse file = .ok spec) :
    name spec = file.stem ∧
      ∀ field ∈ sc.fields spec, field.type.pkgName.isSome → isValidMessageName field.type.type := by
  rcases List.mem_append.mp hfile with hnative | hidl
  · obtain ⟨parsed, hparsed, rfl⟩ := List.mem_map.mp hnative
    rw [readFile_native hd.wellFormed hparsed] at hspec
    exact hd.native parsed hparsed spec hspec
  · obtain ⟨parsed, hparsed, rfl⟩ := List.mem_map.mp hidl
    obtain ⟨decls, hdecls, hfields⟩ := spec_of_listedIdl hd hp hparsed hspec
    constructor
    · have hmem := (mem_listedIdl.mp hparsed).1
      obtain ⟨interface, rest, hcontent, -⟩ := hd.wellFormed.idl parsed hmem
      rw [readFile_idl hd.wellFormed hmem hcontent] at hspec
      exact hp.name _ _ _ hspec
    · intro field hfield hsome
      obtain ⟨m, hm, hprocess⟩ := exists_mem_of_forall₂ hfields.flip hfield
      have hprocess' : processMember A m = .ok field := hprocess
      obtain ⟨f, -, rfl⟩ := List.mem_map.mp (hdecls ▸ hm)
      exact (pkgName_of_processMember hA hprocess').2 hsome

variable (hA : A.Grammar) (hd : sc.Declared name context dir) (hp : sc.Parses A name parse)
  (hread : ∀ file ∈ sc.listed share dir, ∃ spec, dir.readFile parse file = .ok spec)
include hA hd hp hread

/-- The dependencies found are the packages in the native files. -/
theorem mem_found_iff_native : pkg ∈ sc.found dir ↔
    ∃ file ∈ dir.native, ∃ field ∈ sc.nativeFields file, field.type.pkgName = some pkg := by
  rw [mem_found_iff]
  refine or_iff_left ?_
  rintro ⟨file, hfile, m, hm, hown⟩
  obtain ⟨spec, hspec⟩ := hread _ (List.mem_append_right _ (List.mem_map_of_mem hfile))
  rw [ownPackage_of_read hA hd hp hfile hspec hm] at hown
  cases hown

/-- The specifications name the packages found, and those of the elements of sequences and arrays in `.idl` files. -/
theorem specNames_iff : sc.SpecNames share dir parse pkg ↔ pkg ∈ sc.found dir ∨ sc.NamesWrapped dir pkg := by
  rw [mem_found_iff_native hA hd hp hread]
  constructor
  · rintro ⟨file, hfile, spec, hspec, field, hfield, hpkg⟩
    rcases List.mem_append.mp hfile with hnative | hidl
    · obtain ⟨parsed, hparsed, rfl⟩ := List.mem_map.mp hnative
      rw [readFile_native hd.wellFormed hparsed] at hspec
      refine .inl ⟨parsed, hparsed, field, ?_, hpkg⟩
      unfold Scan.nativeFields
      rwa [hspec]
    · obtain ⟨parsed, hparsed, rfl⟩ := List.mem_map.mp hidl
      obtain ⟨decls, hdecls, hfields⟩ := spec_of_listedIdl hd hp hparsed hspec
      obtain ⟨m, hm, hprocess⟩ := exists_mem_of_forall₂ hfields.flip hfield
      have hown := ownPackage_of_read hA hd hp hparsed hspec hm
      have hprocess' : processMember A m = .ok field := hprocess
      obtain ⟨f, -, rfl⟩ := List.mem_map.mp (hdecls ▸ hm)
      have hpackage := (pkgName_of_processMember hA hprocess').1.symm.trans hpkg
      refine .inr ⟨parsed, hparsed, _, hm, ?_⟩
      exact (messagePackage_eq_some_iff.mp hpackage).resolve_left fun h => by
        rw [hown] at h
        cases h
  · rintro (⟨file, hfile, field, hfield, hpkg⟩ | ⟨file, hfile, m, hm, hwrapped⟩)
    · obtain ⟨spec, hcontent⟩ := hd.wellFormed.native file hfile
      refine ⟨_, nativeFile_mem_listed (List.mem_map_of_mem hfile), spec, ?_, field, ?_, hpkg⟩
      · rw [readFile_native hd.wellFormed hfile, hcontent]
      · unfold Scan.nativeFields at hfield
        rwa [hcontent] at hfield
    · have hlisted : sc.idlFile share file.stem ∈ sc.listed share dir :=
        List.mem_append_right _ (List.mem_map_of_mem hfile)
      obtain ⟨spec, hspec⟩ := hread _ hlisted
      obtain ⟨decls, hdecls, hfields⟩ := spec_of_listedIdl hd hp hfile hspec
      obtain ⟨field, hfield, hprocess⟩ := exists_mem_of_forall₂ hfields hm
      obtain ⟨f, -, rfl⟩ := List.mem_map.mp (hdecls ▸ hm)
      refine ⟨_, hlisted, spec, hspec, field, hfield, ?_⟩
      rw [(pkgName_of_processMember hA hprocess).1]
      exact messagePackage_eq_some_iff.mpr (.inr hwrapped)

end Named

/-! ### A package -/

/-- The share directory of the package, as it is installed. -/
structure ShareDir.Installed (share : ShareDir) (package : PackageName) : Prop where
  pkgName : share.pkgName = package.text
  messages : messageScan.Declared MessageSpecification.msgName package share.messages
  services : serviceScan.Declared ServiceSpecification.srvName package share.services

/-- The elements of a sequence or of an array in a `.idl` file of the package are messages of the package `pkg`. -/
def ShareDir.NamesWrapped (share : ShareDir) (pkg : String) : Prop :=
  messageScan.NamesWrapped share.messages pkg ∨ serviceScan.NamesWrapped share.services pkg

section Package

variable {A : Adapter} {share : ShareDir} {package : PackageName} {resources sourceDir includeDir pkg type : String}
  {info : PackageInfo} {g : Generated}

/-- The two scripts went through for the package. -/
structure PackageBuilt (A : Adapter) (share : ShareDir) (resources sourceDir includeDir : String) (info : PackageInfo)
    (g : Generated) : Prop where
  found : findPackageInfo share = .ok info
  generated : generate A share resources sourceDir includeDir info = .ok g

theorem ShareDir.Installed.info_eq (hi : share.Installed package) (h : findPackageInfo share = .ok info) :
    info = ⟨package.text, messageScan.listed share.path share.messages, serviceScan.listed share.path share.services,
      messageScan.found share.messages ++ serviceScan.found share.services⟩ := by
  rw [findPackageInfo_eq ⟨hi.messages.wellFormed, hi.services.wellFormed⟩, hi.pkgName] at h
  exact (Except.ok.inj h).symm

theorem PackageBuilt.generated_eq (hb : PackageBuilt A share resources sourceDir includeDir info g) :
    info.msgFiles.mapM (readMessage A share) = .ok g.messages ∧
      info.srvFiles.mapM (readService A share) = .ok g.services ∧ g.paths =
        (writtenFiles sourceDir (headerDir includeDir info.pkgName) g.messages g.services).map Written.path := by
  obtain ⟨messages, hmessages, h⟩ := bind_eq_ok.mp hb.generated
  obtain ⟨services, hservices, h⟩ := bind_eq_ok.mp h
  rw [generatePackage_eq] at h
  obtain rfl := Except.ok.inj h
  exact ⟨hmessages, hservices, rfl⟩

variable (hb : PackageBuilt A share resources sourceDir includeDir info g) (hi : share.Installed package)
include hb hi

theorem PackageBuilt.readMessages :
    (messageScan.listed share.path share.messages).mapM (readMessage A share) = .ok g.messages := by
  have hmessages := hb.generated_eq.1
  rwa [hi.info_eq hb.found] at hmessages

theorem PackageBuilt.readServices :
    (serviceScan.listed share.path share.services).mapM (readService A share) = .ok g.services := by
  have hservices := hb.generated_eq.2.1
  rwa [hi.info_eq hb.found] at hservices

variable (hA : A.Grammar) (hnames : A.KeepsNames)
include hA hnames

/-- **The packages in the code generated for a package** are its dependencies, and those that its `.idl` files name in
sequences and arrays. -/
theorem PackageBuilt.names_iff : (∃ spec ∈ g.specs, ∃ field ∈ spec.fields, field.type.pkgName = some pkg) ↔
    pkg ∈ info.dependencies ∨ share.NamesWrapped pkg := by
  have hreadMessages := hb.readMessages hi
  have hreadServices := hb.readServices hi
  have hmessages : messageScan.SpecNames share.path share.messages (parseIdlMessage A share.pkgName) pkg ↔ _ :=
    specNames_iff hA hi.messages (messageScan_parses hA hnames share.pkgName) (exists_mapM_ok_iff.mp ⟨_, hreadMessages⟩)
  have hservices : serviceScan.SpecNames share.path share.services (parseIdlToServiceSpec A share.pkgName) pkg ↔ _ :=
    specNames_iff hA hi.services (serviceScan_parses hA hnames share.pkgName) (exists_mapM_ok_iff.mp ⟨_, hreadServices⟩)
  have hspecs : (∃ spec ∈ g.specs, ∃ field ∈ spec.fields, field.type.pkgName = some pkg) ↔
      messageScan.SpecNames share.path share.messages (parseIdlMessage A share.pkgName) pkg ∨
        serviceScan.SpecNames share.path share.services (parseIdlToServiceSpec A share.pkgName) pkg := by
    constructor
    · rintro ⟨spec, hspec, field, hfield, hpkg⟩
      rcases List.mem_append.mp hspec with hspec | hspec
      · obtain ⟨m, hm, rfl⟩ := List.mem_map.mp hspec
        obtain ⟨file, hfile, hread⟩ := (mem_of_mapM hreadMessages).mp hm
        exact .inl ⟨file, hfile, m, hread, field, hfield, hpkg⟩
      · obtain ⟨s, hs, rfl⟩ := List.mem_map.mp hspec
        obtain ⟨file, hfile, hread⟩ := (mem_of_mapM hreadServices).mp hs
        exact .inr ⟨file, hfile, s, hread, field, hfield, hpkg⟩
    · rintro (⟨file, hfile, m, hread, field, hfield, hpkg⟩ | ⟨file, hfile, s, hread, field, hfield, hpkg⟩)
      · have hm := (mem_of_mapM hreadMessages).mpr ⟨file, hfile, hread⟩
        exact ⟨.message m, List.mem_append_left _ (List.mem_map_of_mem hm), field, hfield, hpkg⟩
      · have hs := (mem_of_mapM hreadServices).mpr ⟨file, hfile, hread⟩
        exact ⟨.service s, List.mem_append_right _ (List.mem_map_of_mem hs), field, hfield, hpkg⟩
  rw [hspecs, hmessages, hservices, hi.info_eq hb.found, List.mem_append]
  unfold ShareDir.NamesWrapped
  exact or_or_or_comm

theorem PackageBuilt.valid : (∀ m ∈ g.messages, isValidMessageName m.msgName) ∧
    (∀ s ∈ g.services, isValidMessageName s.srvName) ∧
      ∀ spec ∈ g.specs, ∀ field ∈ spec.fields, field.type.pkgName.isSome → isValidMessageName field.type.type := by
  have hreadMessages := hb.readMessages hi
  have hreadServices := hb.readServices hi
  have hstem : ∀ {N I : Type} {sc : Scan N I} {name : N → String} {dir : InterfaceDir N I},
      sc.Declared name package dir → ∀ file ∈ sc.listed share.path dir, isValidMessageName file.stem := by
    intro N I sc name dir hd file hfile
    have hmem := List.mem_map_of_mem (f := fun file : InterfaceFile => file.stem) hfile
    exact hd.stems _ (((onePerStem_listed hd.wellFormed).stems _).mp hmem)
  have hmessage : ∀ m ∈ g.messages, isValidMessageName m.msgName ∧
      ∀ field ∈ m.fields, field.type.pkgName.isSome → isValidMessageName field.type.type := by
    intro m hm
    obtain ⟨file, hfile, hread⟩ := (mem_of_mapM hreadMessages).mp hm
    obtain ⟨hname, hfields⟩ := valid_of_read hA hi.messages (messageScan_parses hA hnames _) hfile hread
    exact ⟨hname ▸ hstem hi.messages file hfile, hfields⟩
  have hservice : ∀ s ∈ g.services, isValidMessageName s.srvName ∧
      ∀ field ∈ serviceScan.fields s, field.type.pkgName.isSome → isValidMessageName field.type.type := by
    intro s hs
    obtain ⟨file, hfile, hread⟩ := (mem_of_mapM hreadServices).mp hs
    obtain ⟨hname, hfields⟩ := valid_of_read hA hi.services (serviceScan_parses hA hnames _) hfile hread
    exact ⟨hname ▸ hstem hi.services file hfile, hfields⟩
  refine ⟨fun m hm => (hmessage m hm).1, fun s hs => (hservice s hs).1, fun spec hspec => ?_⟩
  rcases List.mem_append.mp hspec with hspec | hspec
  · obtain ⟨m, hm, rfl⟩ := List.mem_map.mp hspec
    exact (hmessage m hm).2
  · obtain ⟨s, hs, rfl⟩ := List.mem_map.mp hspec
    exact (hservice s hs).2

theorem PackageBuilt.exists_message_iff :
    (∃ m ∈ g.messages, m.msgName = type) ↔ type ∈ info.msgFiles.map (·.stem) := by
  have hreadMessages := hb.readMessages hi
  rw [hi.info_eq hb.found, List.mem_map]
  constructor
  · rintro ⟨m, hm, rfl⟩
    obtain ⟨file, hfile, hread⟩ := (mem_of_mapM hreadMessages).mp hm
    exact ⟨file, hfile, (valid_of_read hA hi.messages (messageScan_parses hA hnames _) hfile hread).1.symm⟩
  · rintro ⟨file, hfile, rfl⟩
    obtain ⟨m, hread⟩ := exists_mapM_ok_iff.mp ⟨_, hreadMessages⟩ file hfile
    exact ⟨m, (mem_of_mapM hreadMessages).mpr ⟨file, hfile, hread⟩,
      (valid_of_read hA hi.messages (messageScan_parses hA hnames _) hfile hread).1⟩

/-- A header of the package is at the path of its include line, and no other file is there. -/
theorem PackageBuilt.header_mem_iff (htype : isValidMessageName type) :
    includeDir ++ "/" ++ converterInclude pkg type ∈ g.paths ↔
      pkg = package.text ∧ type ∈ info.msgFiles.map (·.stem) := by
  obtain ⟨hmessages, hservices, -⟩ := hb.valid hi hA hnames
  have hpackage : info.pkgName = package.text := congrArg PackageInfo.pkgName (hi.info_eq hb.found)
  have hpath : includeDir ++ "/" ++ converterInclude pkg type =
      Written.path ⟨headerDir includeDir pkg ++ "/" ++ "msg", .msgHpp, type⟩ := by
    have hheader := headerAt_converterInclude resources includeDir pkg type ⟨pkg, type, [], []⟩ rfl rfl
    rw [generateFile_path] at hheader
    exact (Except.ok.inj hheader).symm
  rw [hpath, hb.generated_eq.2.2, hpackage, List.mem_map, ← hb.exists_message_iff hi hA hnames]
  constructor
  · rintro ⟨w, hw, heq⟩
    have hvalid : isValidMessageName w.typeName := by
      rcases List.mem_append.mp hw with hw | hw
      · obtain ⟨m, hm, hw⟩ := List.mem_flatMap.mp hw
        rcases List.mem_pair.mp hw with rfl | rfl <;> exact hmessages m hm
      · obtain ⟨s, hs, rfl⟩ := List.mem_map.mp hw
        exact hservices s hs
    have hlist : w.destination.toList ++ '/' :: (w.template.filename w.typeName).toList =
        (headerDir includeDir pkg ++ "/" ++ "msg").toList ++ '/' :: (Template.msgHpp.filename type).toList := by
      simpa [Written.path] using congrArg String.toList heq
    obtain ⟨hdestination, hfilename⟩ := append_cons_inj_last (slash_not_mem_filename hvalid)
      (slash_not_mem_filename htype) hlist
    obtain ⟨htemplate, hname⟩ := filename_inj hvalid htype (String.toList_inj.mp hfilename)
    -- only the headers are written with this template
    rcases List.mem_append.mp hw with hw | hw
    · obtain ⟨m, hm, hw⟩ := List.mem_flatMap.mp hw
      rcases List.mem_pair.mp hw with rfl | rfl
      · cases htemplate
      · refine ⟨?_, m, hm, hname⟩
        have hdirectories : includeDir.toList ++ ("/is/rosidl/ros2/".toList ++ (package.text.toList ++ "/msg".toList)) =
            includeDir.toList ++ ("/is/rosidl/ros2/".toList ++ (pkg.toList ++ "/msg".toList)) := by
          simpa [headerDir] using hdestination
        have hrest := List.append_cancel_left (List.append_cancel_left hdirectories)
        exact (String.toList_inj.mp (List.append_cancel_right hrest)).symm
    · obtain ⟨s, hs, rfl⟩ := List.mem_map.mp hw
      cases htemplate
  · rintro ⟨rfl, m, hm, rfl⟩
    exact ⟨_, List.mem_append_left _ (List.mem_flatMap.mpr ⟨m, hm, List.mem_cons_of_mem _ (List.mem_singleton_self _)⟩),
      rfl⟩

end Package

/-! ### All the packages -/

/-- The share directories of all packages, what `find_package_info` returns for each, and what the generator makes of
it. -/
structure Workspace where
  share : String → ShareDir
  info : String → PackageInfo
  generated : String → Generated

section Workspace

variable (w : Workspace) (includeDir : String → String) (pkgs : List String)

/-- Every include line in the code generated for the packages is the path of a header that is generated for one of
them. -/
def IncludesClosed : Prop :=
  ∀ pkg ∈ pkgs, ∀ spec ∈ (w.generated pkg).specs, ∀ line ∈ conversionDependencies spec.fields,
    ∃ pkg' ∈ pkgs, includeDir pkg' ++ "/" ++ line ∈ (w.generated pkg').paths

/-- The packages that `.idl` files name in sequences and arrays are among the packages. -/
def WrappedListed : Prop := ∀ pkg ∈ pkgs, ∀ pkg', (w.share pkg).NamesWrapped pkg' → pkg' ∈ pkgs

/-- The two scripts went through for a package that is installed. -/
structure Workspace.Built (A : Adapter) (resources : String) (sourceDir includeDir : String → String) (pkg : String) :
    Prop where
  installed : ∃ package : PackageName, package.text = pkg ∧ (w.share pkg).Installed package
  built : PackageBuilt A (w.share pkg) resources (sourceDir pkg) (includeDir pkg) (w.info pkg) (w.generated pkg)

/-- The message types in the fields exist. -/
def Workspace.Resolves : Prop :=
  ∀ pkg spec field package, spec ∈ (w.generated pkg).specs → field ∈ spec.fields →
    field.type.pkgName = some package → field.type.type ∈ (w.info package).msgFiles.map (·.stem)

variable {w includeDir pkgs} {A : Adapter} {resources root : String} {sourceDir : String → String}

/-- A list of packages that is closed under the dependencies. -/
theorem includesClosed_iff_wrappedListed (hA : A.Grammar) (hnames : A.KeepsNames) (hresolves : w.Resolves)
    (hbuilt : ∀ pkg ∈ pkgs, w.Built A resources sourceDir includeDir pkg)
    (hclosed : ∀ pkg ∈ pkgs, ∀ pkg' ∈ (w.info pkg).dependencies, pkg' ∈ pkgs) :
    IncludesClosed w includeDir pkgs ↔ WrappedListed w pkgs := by
  constructor
  · intro h pkg hpkg pkg' hwrapped
    obtain ⟨⟨package, -, hi⟩, hb⟩ := hbuilt pkg hpkg
    obtain ⟨spec, hspec, field, hfield, hname⟩ := (hb.names_iff hi hA hnames).mpr (.inr hwrapped)
    have hvalid := (hb.valid hi hA hnames).2.2 spec hspec field hfield (by rw [hname]; rfl)
    obtain ⟨pkg'', hpkg'', hpath⟩ := h pkg hpkg spec hspec _
      (mem_conversionDependencies.mpr ⟨field, hfield, pkg', hname, rfl⟩)
    obtain ⟨⟨package'', rfl, hi''⟩, hb''⟩ := hbuilt pkg'' hpkg''
    obtain ⟨rfl, -⟩ := (hb''.header_mem_iff hi'' hA hnames hvalid).mp hpath
    exact hpkg''
  · intro h pkg hpkg spec hspec line hline
    obtain ⟨field, hfield, pkg', hname, rfl⟩ := mem_conversionDependencies.mp hline
    obtain ⟨⟨package, -, hi⟩, hb⟩ := hbuilt pkg hpkg
    have hvalid := (hb.valid hi hA hnames).2.2 spec hspec field hfield (by rw [hname]; rfl)
    have hlisted : pkg' ∈ pkgs := by
      rcases (hb.names_iff hi hA hnames).mp ⟨spec, hspec, field, hfield, hname⟩ with hdependency | hwrapped
      · exact hclosed pkg hpkg pkg' hdependency
      · exact h pkg hpkg pkg' hwrapped
    obtain ⟨⟨package', rfl, hi'⟩, hb'⟩ := hbuilt pkg' hlisted
    exact ⟨_, hlisted,
      (hb'.header_mem_iff hi' hA hnames hvalid).mpr ⟨rfl, hresolves pkg spec field _ hspec hfield hname⟩⟩

/-- **The include lines are met** by the code that is generated for the packages that `print_package_info` lists, and
for the root, exactly when it lists every package that a `.idl` file of these names in a sequence or an array.  The
packages that can be reached are finitely many, and the message types that their fields name exist. -/
theorem includes_closed_iff (w : Workspace) (root : String) (hfinite : {pkg | Reachable w.info root pkg}.Finite)
    (hA : A.Grammar) (hnames : A.KeepsNames) (hresolves : w.Resolves)
    (hbuilt : ∀ pkg, Reachable w.info root pkg → w.Built A resources sourceDir includeDir pkg)
    (iterate : List String → List String) (hiterate : ∀ names, (iterate names).Perm names) :
    ∃ s o, Ends (Traversal.step w.info) (.initial root) s ∧ packageOutput iterate root s.inspectedPackages = .ok o ∧
      (IncludesClosed w includeDir (root :: o.dependencyList) ↔ WrappedListed w (root :: o.dependencyList)) := by
  obtain ⟨s, hends, htraversed⟩ := ends_traverse hfinite
  obtain ⟨o, ho, hlisted⟩ := listed_packageOutput hiterate htraversed
  have hmem : ∀ pkg, pkg ∈ root :: o.dependencyList ↔ Reachable w.info root pkg := by
    intro pkg
    rw [List.mem_cons, hlisted.dependencies]
    constructor
    · rintro (rfl | ⟨hreachable, -⟩)
      · exact .refl
      · exact hreachable
    · intro hreachable
      by_cases hpkg : pkg = root
      · exact .inl hpkg
      · exact .inr ⟨hreachable, hpkg⟩
  refine ⟨s, o, hends, ho, includesClosed_iff_wrappedListed hA hnames hresolves
    (fun pkg hpkg => hbuilt pkg ((hmem pkg).mp hpkg)) fun pkg hpkg pkg' hdependency => ?_⟩
  exact (hmem pkg').mpr (((hmem pkg).mp hpkg).tail hdependency)

end Workspace

/-! ### Two packages -/

theorem referenceAdapter_keepsNames : referenceAdapter.KeepsNames where
  messageSpecification pkgName msgName fields constants spec h := by
    simp only [referenceAdapter] at h
    split at h
    · cases h
      rfl
    · cases h
  serviceSpecification pkgName srvName request response spec h := by
    cases h
    rfl

def navMsgs : PackageName := ⟨"nav_msgs", by decide⟩

def stampedName : MessageName := ⟨"PoseStamped", by decide⟩

/-- `geometry_msgs/PoseStamped[] poses` -/
def posesField : FieldDecl :=
  ⟨"poses", by decide, ⟨.message (some geometryMsgs) stampedName, .unboundedSequence⟩, []⟩

/-- `Path.msg` and `Goals.idl` with the field, and `PoseStamped.msg` without fields. -/
def navShare (pkg : String) : ShareDir where
  pkgName := pkg
  path := "/opt/ros/share/" ++ pkg
  messageDir :=
    if pkg = "nav_msgs" then
      some ⟨[⟨"Path", .ok ⟨"nav_msgs", "Path", [⟨posesField.type.parsed navMsgs, "poses", none⟩], []⟩⟩],
        [⟨"Goals", .ok [⟨[posesField.toMember navMsgs], []⟩]⟩]⟩
    else if pkg = "geometry_msgs" then some ⟨[⟨"PoseStamped", .ok ⟨"geometry_msgs", "PoseStamped", [], []⟩⟩], []⟩
    else none
  serviceDir := none

def navInfo (pkg : String) : PackageInfo := (findPackageInfo (navShare pkg)).toOption.getD ⟨pkg, [], [], []⟩

def navGenerate (pkg : String) : Except PyError Generated :=
  generate referenceAdapter (navShare pkg) "/resources" ("/build/" ++ pkg) "/build" (navInfo pkg)

def navWorkspace : Workspace := ⟨navShare, navInfo, fun pkg => (navGenerate pkg).toOption.getD ⟨[], [], []⟩⟩

theorem eq_ok_getD {α : Type} {x : Except PyError α} (h : x.toOption.isSome) (d : α) :
    x = .ok (x.toOption.getD d) := by
  cases x with
  | ok a => rfl
  | error e => cases h

theorem reachable_navInfo {pkg : String} (h : Reachable navInfo "nav_msgs" pkg) :
    pkg = "nav_msgs" ∨ pkg = "geometry_msgs" := by
  induction h with
  | refl => exact .inl rfl
  | tail _ hdependency ih =>
    rcases ih with rfl | rfl
    · exact .inr (List.mem_singleton.mp hdependency)
    · cases hdependency

theorem declared_navShare {pkg : String} (h : pkg = "nav_msgs" ∨ pkg = "geometry_msgs") :
    ∃ package : PackageName, package.text = pkg ∧ (navShare pkg).Installed package := by
  have hservices : ∀ package, serviceScan.Declared ServiceSpecification.srvName package ⟨[], []⟩ := fun _ =>
    ⟨⟨List.nodup_nil, List.nodup_nil, nofun, nofun⟩, fun _ h => by simp at h, nofun, nofun⟩
  rcases h with rfl | rfl
  · refine ⟨navMsgs, rfl, rfl, ⟨⟨by decide, by decide, ?_, ?_⟩, ?_, ?_, ?_⟩, hservices _⟩
    · rintro file hfile
      obtain rfl := List.mem_singleton.mp hfile
      exact ⟨_, rfl⟩
    · rintro file hfile
      obtain rfl := List.mem_singleton.mp hfile
      refine ⟨_, _, rfl, fun m hm => ?_⟩
      obtain rfl := List.mem_singleton.mp hm
      exact List.cons_ne_nil _ _
    · rintro stem (hstem | hstem)
      · obtain rfl := List.mem_singleton.mp hstem
        decide
      · obtain rfl := List.mem_singleton.mp hstem
        decide
    · rintro file hfile spec hspec
      obtain rfl := List.mem_singleton.mp hfile
      obtain rfl := Except.ok.inj hspec
      refine ⟨rfl, fun field hfield _ => ?_⟩
      obtain rfl := List.mem_singleton.mp hfield
      decide
    · rintro file hfile interface rest hcontent
      obtain rfl := List.mem_singleton.mp hfile
      cases hcontent
      exact ⟨[posesField], rfl⟩
  · refine ⟨geometryMsgs, rfl, rfl, ⟨⟨by decide, by decide, ?_, nofun⟩, ?_, ?_, nofun⟩, hservices _⟩
    · rintro file hfile
      obtain rfl := List.mem_singleton.mp hfile
      exact ⟨_, rfl⟩
    · rintro stem (hstem | hstem)
      · obtain rfl := List.mem_singleton.mp hstem
        decide
      · cases hstem
    · rintro file hfile spec hspec
      obtain rfl := List.mem_singleton.mp hfile
      obtain rfl := Except.ok.inj hspec
      exact ⟨rfl, nofun⟩

theorem built_navWorkspace {pkg : String} (h : pkg = "nav_msgs" ∨ pkg = "geometry_msgs") :
    navWorkspace.Built referenceAdapter "/resources" ("/build/" ++ ·) (fun _ => "/build") pkg where
  installed := declared_navShare h
  built := by
    have hfound : (findPackageInfo (navShare pkg)).toOption.isSome := by rcases h with rfl | rfl <;> decide
    have hgenerated : (navGenerate pkg).toOption.isSome := by rcases h with rfl | rfl <;> decide
    exact ⟨eq_ok_getD hfound _, eq_ok_getD hgenerated _⟩

theorem resolves_navWorkspace : navWorkspace.Resolves := by
  intro pkg spec field package hspec hfield hpackage
  have hfields := List.mem_map_of_mem (f := Spec.fields) hspec
  by_cases hnav : pkg = "nav_msgs"
  · subst hnav
    have hposes : (navWorkspace.generated "nav_msgs").specs.map Spec.fields =
        List.replicate 2 [⟨posesField.type.parsed navMsgs, "poses", none⟩] := by
      decide
    rw [hposes] at hfields
    rw [List.eq_of_mem_replicate hfields] at hfield
    obtain rfl := List.mem_singleton.mp hfield
    obtain rfl := Option.some.inj hpackage
    decide
  · by_cases hgeometry : pkg = "geometry_msgs"
    · subst hgeometry
      have hnone : (navWorkspace.generated "geometry_msgs").specs.map Spec.fields = [[]] := by decide
      rw [hnone] at hfields
      rw [List.mem_singleton.mp hfields] at hfield
      cases hfield
    · have hshare : navShare pkg = ⟨pkg, "/opt/ros/share/" ++ pkg, none, none⟩ := by
        rw [navShare, if_neg hnav, if_neg hgeometry]
      have hgenerate : navGenerate pkg = .ok ⟨[], [], []⟩ := by
        rw [navGenerate, navInfo, hshare]
        rfl
      have hspecs : (navWorkspace.generated pkg).specs = [] := by
        show ((navGenerate pkg).toOption.getD ⟨[], [], []⟩).specs = []
        rw [hgenerate]
        rfl
      rw [hspecs] at hspec
      cases hspec

theorem includes_closed_iff_navWorkspace :
    ∃ s o, Ends (Traversal.step navInfo) (.initial "nav_msgs") s ∧
      packageOutput id "nav_msgs" s.inspectedPackages = .ok o ∧
      (IncludesClosed navWorkspace (fun _ => "/build") ("nav_msgs" :: o.dependencyList) ↔
        WrappedListed navWorkspace ("nav_msgs" :: o.dependencyList)) :=
  includes_closed_iff navWorkspace "nav_msgs"
    (Set.Finite.subset (Set.toFinite {"nav_msgs", "geometry_msgs"}) fun _ hpkg => reachable_navInfo hpkg)
    referenceAdapter_grammar referenceAdapter_keepsNames resolves_navWorkspace
    (fun _ hpkg => built_navWorkspace (reachable_navInfo hpkg)) id fun _ => .refl _

end Ros2Sh.Rosidl
