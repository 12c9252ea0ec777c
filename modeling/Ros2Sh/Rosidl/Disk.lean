import Ros2Sh.Lib.Table
import Ros2Sh.Rosidl.IncludePaths
import Ros2Sh.Rosidl.Pipeline

/-!
# What the generator leaves on the disk

`generate_file` expands the template into a buffer, makes the directory and then writes the file, so a template that
cannot be expanded leaves no trace.  But the files are written one after the other, and any of them may fail: the next
interface cannot be read, or the operating system refuses.  The generator is then run again, on what the attempts so far
have left.

The outputs are as if nothing had been there before.  An attempt that fails leaves each output as it was or complete,
except the one that it was writing; and the first attempt that goes through leaves all of them complete
(`generates_despite_failures`).
-/

namespace Ros2Sh.Rosidl

open Ros2Sh.Lib

/-! ### The operating system -/

/-- The texts of the files. -/
abbrev Files := String → Option String

/-- The files, and what else decides what the operating system does: directories, permissions, space. -/
structure Disk (D : Type) where
  files : Files
  rest : D

/-- The operations that the script uses, with the error that they raise.  When `write` fails, a part of the text may
have been written. -/
structure System (D : Type) where
  pathExists : Disk D → String → Bool
  makedirs : Disk D → String → D × Option PyError
  openForWriting : Disk D → String → D × Option PyError
  write : Disk D → String → String → D × Option (PyError × String)

/-- An error, and the disk at that time. -/
structure Failed (D : Type) where
  error : PyError
  disk : Disk D

namespace Disk

variable {D : Type}

/-- An operation that leaves the disk alone. -/
def reading {α : Type} (disk : Disk D) (x : Except PyError α) : Except (Failed D) α :=
  x.mapError fun e => ⟨e, disk⟩

/-- `if not os.path.exists(destination): os.makedirs(destination)` -/
def makeDirectory (system : System D) (destination : String) (disk : Disk D) : Except (Failed D) (Disk D) :=
  if system.pathExists disk destination then .ok disk
  else
    match system.makedirs disk destination with
    | (rest, none) => .ok { disk with rest := rest }
    | (rest, some e) => .error ⟨e, { disk with rest := rest }⟩

/-- `with open(path, 'w') as file: file.write(text)`, which first empties the file. -/
def writeFile (system : System D) (path text : String) (disk : Disk D) : Except (Failed D) (Disk D) :=
  match system.openForWriting disk path with
  | (rest, some e) => .error ⟨e, { disk with rest := rest }⟩
  | (rest, none) =>
    let opened : Disk D := ⟨Function.update disk.files path (some ""), rest⟩
    match system.write opened path text with
    | (rest, none) => .ok ⟨Function.update opened.files path (some text), rest⟩
    | (rest, some (e, written)) => .error ⟨e, ⟨Function.update opened.files path (some written), rest⟩⟩

end Disk

/-! ### The script -/

inductive Subdir
  | msg | srv
  deriving DecidableEq, Repr

/-- The parameter `prefix` of `generate_files`. -/
def Subdir.text : Subdir → String
  | msg => "msg"
  | srv => "srv"

/-- `context`; its function for the names of headers is always the same. -/
structure Context where
  idl : String
  spec : Spec
  subdir : Subdir

/-- What the script calls: the preprocessor, in an environment that `env` prints, the parsers and the template
engine. -/
structure Tools where
  adapter : Adapter
  environment : String
  preprocess : Files → List String → Except PyError String
  idlMessages : Files → String → InterfaceFile → Except PyError (List IdlMessage)
  idlServices : Files → String → InterfaceFile → Except PyError (List IdlService)
  parseMessageFile : Files → String → InterfaceFile → Except PyError MessageSpecification
  parseServiceFile : Files → String → InterfaceFile → Except PyError ServiceSpecification
  expand : String → Context → Except PyError String

namespace Tools

variable (T : Tools) (files : Files) (package : String)

/-- `get_idl_from_file` -/
def getIdlFromFile (idlFile : InterfaceFile) (includes : Option String) : Except PyError String :=
  match preprocessCmd includes idlFile.str with
  | none => .error (.raised "TypeError")
  | some command => do
    let unrolledIdl ← T.preprocess files command
    return String.join (((splitlines unrolledIdl).filter keepsLine).map fun line => line ++ "\n")

/-- `parse_idl_to_message_spec` or `parse_message_file`. -/
def readMessage (idlFile : InterfaceFile) : Except PyError MessageSpecification :=
  if idlFile.suffix = "idl" then do
    let idlMsg ← firstOf (← T.idlMessages files package idlFile)
    parseIdlMessage T.adapter package idlFile.stem idlMsg
  else T.parseMessageFile files package idlFile

/-- `parse_idl_to_service_spec` or `parse_service_file`. -/
def readService (idlFile : InterfaceFile) : Except PyError ServiceSpecification :=
  if idlFile.suffix = "idl" then do
    let idlSrv ← firstOf (← T.idlServices files package idlFile)
    parseIdlToServiceSpec T.adapter package idlFile.stem idlSrv
  else T.parseServiceFile files package idlFile

def readSpec (idlFile : InterfaceFile) : Subdir → Except PyError Spec
  | .msg => (T.readMessage files package idlFile).map .message
  | .srv => (T.readService files package idlFile).map .service

/-- What the loop of `generate_files` makes of a file before it applies the templates. -/
def readContext (includes : Option String) (subdir : Subdir) (idlFile : InterfaceFile) : Except PyError Context := do
  let idl ← T.getIdlFromFile files { idlFile with suffix := "idl" } includes
  let spec ← T.readSpec files package idlFile subdir
  return ⟨idl, spec, subdir⟩

/-- `interpreter.file(open(template, 'r'))` -/
def expandFile (template : String) (context : Context) : Except PyError String :=
  match files template with
  | none => .error (.raised "FileNotFoundError")
  | some text => T.expand text context

end Tools

/-- The arguments of the script. -/
structure Arguments where
  package : String
  sourceDir : String
  headerDir : String
  msgIdlFiles : List InterfaceFile
  msgCppFiles : List String
  msgHppFiles : List String
  srvIdlFiles : List InterfaceFile
  srvCppFiles : List String
  srvHppFiles : List String

namespace Disk

variable {D : Type} (T : Tools) (system : System D)

/-- `generate_file` -/
def generateFile (template destination : String) (context : Context) (disk : Disk D) :
    Except (Failed D) (Disk D) := do
  let outputFilePath ← disk.reading (Rosidl.generateFile template destination context.spec)
  let text ← disk.reading (T.expandFile disk.files template context)
  let disk ← disk.makeDirectory system destination
  disk.writeFile system outputFilePath text

/-- `generate_files` -/
def generateFiles (package sourceDir headerDir : String) (idlFiles : List InterfaceFile)
    (cppFiles hppFiles : List String) (subdir : Subdir) (disk : Disk D) : Except (Failed D) (Disk D) :=
  let includes := findIdlIncludePaths T.environment
  idlFiles.foldlM (fun disk idlFile => do
    let context ← disk.reading (T.readContext disk.files package includes subdir idlFile)
    let disk ← cppFiles.foldlM (fun disk cppFile =>
      disk.generateFile T system cppFile (sourceDir ++ "/" ++ subdir.text) context) disk
    hppFiles.foldlM (fun disk hppFile =>
      disk.generateFile T system hppFile (headerDir ++ "/" ++ subdir.text) context) disk) disk

/-- `main` -/
def main (args : Arguments) (disk : Disk D) : Except (Failed D) (Disk D) := do
  let disk ← disk.generateFiles T system args.package args.sourceDir args.headerDir args.msgIdlFiles args.msgCppFiles
    args.msgHppFiles .msg
  disk.generateFiles T system args.package args.sourceDir args.headerDir args.srvIdlFiles args.srvCppFiles
    args.srvHppFiles .srv

end Disk

/-! ### What is to be generated -/

namespace Arguments

variable (args : Arguments)

def idlFiles : Subdir → List InterfaceFile
  | .msg => args.msgIdlFiles
  | .srv => args.srvIdlFiles

def cppFiles : Subdir → List String
  | .msg => args.msgCppFiles
  | .srv => args.srvCppFiles

def hppFiles : Subdir → List String
  | .msg => args.msgHppFiles
  | .srv => args.srvHppFiles

/-- The files that the templates are applied to. -/
def sources : List (Subdir × InterfaceFile) :=
  (args.idlFiles .msg).map (fun file => (.msg, file)) ++ (args.idlFiles .srv).map fun file => (.srv, file)

/-- The templates for the files of a kind, and the directories of their outputs. -/
def targets (subdir : Subdir) : List (String × String) :=
  (args.cppFiles subdir).map (fun cppFile => (cppFile, args.sourceDir ++ "/" ++ subdir.text)) ++
    (args.hppFiles subdir).map fun hppFile => (hppFile, args.headerDir ++ "/" ++ subdir.text)

end Arguments

/-- One of the outputs. -/
structure Job where
  subdir : Subdir
  idlFile : InterfaceFile
  template : String
  destination : String

/-- The jobs for a file. -/
def Arguments.jobsOf (args : Arguments) (source : Subdir × InterfaceFile) : List Job :=
  (args.targets source.1).map fun target => ⟨source.1, source.2, target.1, target.2⟩

def Arguments.jobs (args : Arguments) : List Job := args.sources.flatMap args.jobsOf

/-- The directories of the outputs. -/
def Arguments.directories (args : Arguments) : Set String := {directory | ∃ j ∈ args.jobs, j.destination = directory}

section Makes

variable (T : Tools) (args : Arguments) (files : Files)

def Tools.contextOf (subdir : Subdir) (idlFile : InterfaceFile) : Except PyError Context :=
  T.readContext files args.package (findIdlIncludePaths T.environment) subdir idlFile

/-- The output of a job, for an interface and a template that are read from `files`. -/
def Job.Makes (j : Job) (output : String × String) : Prop :=
  ∃ context, T.contextOf args files j.subdir j.idlFile = .ok context ∧
    Rosidl.generateFile j.template j.destination context.spec = .ok output.1 ∧
    T.expandFile files j.template context = .ok output.2

/-- The paths of the outputs. -/
def outputPaths : Set String :=
  {path | ∃ j ∈ args.jobs, ∃ context, T.contextOf args files j.subdir j.idlFile = .ok context ∧
    Rosidl.generateFile j.template j.destination context.spec = .ok path}

/-- The generator does not read what it writes. -/
structure ReadsApart : Prop where
  contexts : ∀ files', (∀ path ∉ outputPaths T args files, files' path = files path) →
    ∀ source ∈ args.sources, T.contextOf args files' source.1 source.2 = T.contextOf args files source.1 source.2
  templates : ∀ j ∈ args.jobs, j.template ∉ outputPaths T args files

end Makes

/-! ### One attempt -/

/-- The operating system raises no error for these directories and files. -/
structure System.Serves {D : Type} (system : System D) (directories paths : Set String) : Prop where
  makedirs : ∀ disk, ∀ directory ∈ directories, (system.makedirs disk directory).2 = none
  openForWriting : ∀ disk, ∀ path ∈ paths, (system.openForWriting disk path).2 = none
  write : ∀ disk, ∀ path ∈ paths, ∀ text, (system.write disk path text).2 = none

section Attempt

variable {D : Type} (T : Tools) (args : Arguments) (files : Files) (system : System D)

/-- Each file can be read, and the templates for it be expanded. -/
def Generable : Prop :=
  ∀ source ∈ args.sources, (∃ context, T.contextOf args files source.1 source.2 = .ok context) ∧
    ∀ j ∈ args.jobsOf source, ∃ output, j.Makes T args files output

/-- The disk `before`, with the outputs of the jobs `js`. -/
def Wrote (before : Disk D) (js : List Job) (d : Disk D) : Prop :=
  ∃ outputs, List.Forall₂ (Job.Makes T args files) js outputs ∧ d.files = assignAll before.files outputs

/-- What an error leaves, and what it comes from. -/
structure Interrupted (before : Disk D) (e : Failed D) : Prop where
  disk : ∃ js outputs, js ⊆ args.jobs ∧ List.Forall₂ (Job.Makes T args files) js outputs ∧
    (e.disk.files = assignAll before.files outputs ∨ ∃ path ∈ outputPaths T args files,
      (∃ part, e.disk.files = Function.update (assignAll before.files outputs) path (some part)) ∧
        ∃ disk text, (system.write disk path text).2 ≠ none)
  reason : ¬ (system.Serves args.directories (outputPaths T args files) ∧ Generable T args files)

end Attempt

section Outcome

variable {D : Type} {T : Tools} {args : Arguments} {files : Files} {system : System D} {before d : Disk D}
  {js : List Job} {j : Job} {source : Subdir × InterfaceFile} {context : Context}

theorem outcome_reading {α : Type} {P : α → Prop} {E : Failed D → Prop} {x : Except PyError α}
    (hP : ∀ a, x = .ok a → P a) (hE : ∀ e, x = .error e → E ⟨e, d⟩) : Outcome P E (d.reading x) := by
  cases x with
  | ok a => exact hP a rfl
  | error e => exact hE e rfl

theorem outcome_makeDirectory (system : System D) (destination : String) (d : Disk D) :
    Outcome (fun t => t.files = d.files)
      (fun e => e.disk.files = d.files ∧ ∃ disk, (system.makedirs disk destination).2 ≠ none)
      (d.makeDirectory system destination) := by
  unfold Disk.makeDirectory
  split
  · exact rfl
  · split
    · exact rfl
    · rename_i rest e hraised
      refine ⟨rfl, d, ?_⟩
      rw [hraised]
      exact Option.some_ne_none e

theorem outcome_writeFile (system : System D) (path text : String) (d : Disk D) :
    Outcome (fun t => t.files = Function.update d.files path (some text))
      (fun e => (e.disk.files = d.files ∧ ∃ disk, (system.openForWriting disk path).2 ≠ none) ∨
        (∃ part, e.disk.files = Function.update d.files path (some part)) ∧
          ∃ disk, (system.write disk path text).2 ≠ none)
      (d.writeFile system path text) := by
  unfold Disk.writeFile
  split
  · rename_i rest e hraised
    refine .inl ⟨rfl, d, ?_⟩
    rw [hraised]
    exact Option.some_ne_none e
  · rename_i rest hopened
    dsimp only
    split
    · exact Function.update_idem ..
    · rename_i rest' e written hraised
      refine .inr ⟨⟨written, Function.update_idem ..⟩, ⟨Function.update d.files path (some ""), rest⟩, ?_⟩
      rw [hraised]
      exact Option.some_ne_none _

theorem mem_jobs : j ∈ args.jobs ↔ ∃ source ∈ args.sources, j ∈ args.jobsOf source := List.mem_flatMap

theorem mem_outputPaths_of_makes {output : String × String} (hj : j ∈ args.jobs)
    (h : j.Makes T args files output) : output.1 ∈ outputPaths T args files := by
  obtain ⟨context, hcontext, hpath, -⟩ := h
  exact ⟨j, hj, context, hcontext, hpath⟩

theorem assignAll_of_notMem_outputPaths {outputs : List (String × String)} {path : String} (hjs : js ⊆ args.jobs)
    (houtputs : List.Forall₂ (Job.Makes T args files) js outputs) (hpath : path ∉ outputPaths T args files) :
    assignAll before.files outputs path = before.files path := by
  refine assignAll_of_forall_ne fun output houtput heq => hpath ?_
  obtain ⟨j, hj, hmakes⟩ := exists_mem_of_forall₂ houtputs.flip houtput
  exact heq ▸ mem_outputPaths_of_makes (hjs hj) hmakes

/-- The attempt started where the files besides the outputs are those of the beginning. -/
def StartsFrom (T : Tools) (args : Arguments) (files : Files) (before : Disk D) : Prop :=
  ∀ path ∉ outputPaths T args files, before.files path = files path

theorem Wrote.startsFrom (hstart : StartsFrom T args files before) (hjs : js ⊆ args.jobs)
    (h : Wrote T args files before js d) : StartsFrom T args files d := by
  obtain ⟨outputs, houtputs, hfiles⟩ := h
  intro path hpath
  rw [hfiles, assignAll_of_notMem_outputPaths hjs houtputs hpath, hstart path hpath]

theorem Interrupted.startsFrom {e : Failed D} (hstart : StartsFrom T args files before)
    (h : Interrupted T args files system before e) : StartsFrom T args files e.disk := by
  obtain ⟨js, outputs, hjs, houtputs, hor⟩ := h.disk
  intro path hpath
  have hkept : assignAll before.files outputs path = files path :=
    (assignAll_of_notMem_outputPaths hjs houtputs hpath).trans (hstart path hpath)
  rcases hor with hfiles | ⟨torn, htorn, ⟨part, hfiles⟩, -⟩
  · rw [hfiles, hkept]
  · have hne : path ≠ torn := fun heq => hpath (heq ▸ htorn)
    rw [hfiles, Function.update_of_ne hne, hkept]

/-- An error before the next output is begun. -/
theorem Wrote.interrupted {e : Failed D} (hjs : js ⊆ args.jobs) (h : Wrote T args files before js d)
    (hdisk : e.disk.files = d.files)
    (hreason : ¬ (system.Serves args.directories (outputPaths T args files) ∧
      Generable T args files)) : Interrupted T args files system before e := by
  obtain ⟨outputs, houtputs, hfiles⟩ := h
  exact ⟨⟨js, outputs, hjs, houtputs, .inl (hdisk.trans hfiles)⟩, hreason⟩

/-- **One output.** -/
theorem outcome_generateFile (hapart : ReadsApart T args files) (hstart : StartsFrom T args files before)
    (hsource : source ∈ args.sources) (hj : j ∈ args.jobsOf source) (hjs : js ⊆ args.jobs)
    (hcontext : T.contextOf args files j.subdir j.idlFile = .ok context) (h : Wrote T args files before js d) :
    Outcome (Wrote T args files before (js ++ [j])) (Interrupted T args files system before)
      (d.generateFile T system j.template j.destination context) := by
  have hjobs : j ∈ args.jobs := mem_jobs.mpr ⟨source, hsource, hj⟩
  have htemplate : d.files j.template = files j.template :=
    h.startsFrom hstart hjs _ (hapart.templates j hjobs)
  have hexpand : T.expandFile d.files j.template context = T.expandFile files j.template context := by
    unfold Tools.expandFile
    rw [htemplate]
  -- a job that is generable does not raise while the output is made
  have hmakes : Generable T args files → ∃ path text,
      Rosidl.generateFile j.template j.destination context.spec = .ok path ∧
        T.expandFile files j.template context = .ok text := by
    intro hgenerable
    obtain ⟨output, context', hcontext', hpath, htext⟩ := (hgenerable source hsource).2 j hj
    obtain rfl := Except.ok.inj (hcontext'.symm.trans hcontext)
    exact ⟨output.1, output.2, hpath, htext⟩
  unfold Disk.generateFile
  rw [hexpand]
  refine (outcome_reading (P := fun path => Rosidl.generateFile j.template j.destination context.spec = .ok path)
    (fun path hpath => hpath) fun e he => ?_).bind fun path hpath => ?_
  · refine h.interrupted hjs rfl fun hreason => ?_
    obtain ⟨path, text, hpath, -⟩ := hmakes hreason.2
    rw [he] at hpath
    cases hpath
  refine (outcome_reading (P := fun text => T.expandFile files j.template context = .ok text)
    (fun text htext => htext) fun e he => ?_).bind fun text htext => ?_
  · refine h.interrupted hjs rfl fun hreason => ?_
    obtain ⟨path, text, -, htext⟩ := hmakes hreason.2
    rw [he] at htext
    cases htext
  have hmade : j.Makes T args files (path, text) := ⟨context, hcontext, hpath, htext⟩
  have hmem : path ∈ outputPaths T args files := mem_outputPaths_of_makes hjobs hmade
  obtain ⟨outputs, houtputs, hfiles⟩ := h
  refine ((outcome_makeDirectory system j.destination d).imp (fun t ht => ht) ?_).bind fun t ht => ?_
  · rintro e ⟨hdisk, disk, hraised⟩
    exact ⟨⟨js, outputs, hjs, houtputs, .inl (hdisk.trans hfiles)⟩,
      fun hreason => hraised (hreason.1.makedirs disk _ ⟨j, hjobs, rfl⟩)⟩
  refine (outcome_writeFile system path text t).imp (fun u hu => ?_) ?_
  · refine ⟨outputs ++ [(path, text)], List.rel_append houtputs (.cons hmade .nil), ?_⟩
    rw [hu, ht, hfiles, assignAll_append]
    rfl
  · rw [ht, hfiles]
    rintro e (⟨hdisk, disk, hraised⟩ | ⟨hdisk, disk, hraised⟩)
    · exact ⟨⟨js, outputs, hjs, houtputs, .inl hdisk⟩,
        fun hreason => hraised (hreason.1.openForWriting disk path hmem)⟩
    · exact ⟨⟨js, outputs, hjs, houtputs, .inr ⟨path, hmem, hdisk, disk, text, hraised⟩⟩,
        fun hreason => hraised (hreason.1.write disk path hmem text)⟩

end Outcome

/-! ### All outputs -/

section Main

variable {D : Type} {T : Tools} {args : Arguments} {files : Files} {system : System D} {before d : Disk D}
  {js : List Job} {source : Subdir × InterfaceFile}

/-- A turn of the loop of `generate_files`. -/
def Disk.turn (T : Tools) (system : System D) (args : Arguments) (disk : Disk D) (source : Subdir × InterfaceFile) :
    Except (Failed D) (Disk D) := do
  let context ← disk.reading (T.contextOf args disk.files source.1 source.2)
  (args.jobsOf source).foldlM (fun disk j => disk.generateFile T system j.template j.destination context) disk

theorem generateFiles_eq_foldlM (T : Tools) (system : System D) (args : Arguments) (subdir : Subdir) (d : Disk D) :
    d.generateFiles T system args.package args.sourceDir args.headerDir (args.idlFiles subdir) (args.cppFiles subdir)
      (args.hppFiles subdir) subdir =
        ((args.idlFiles subdir).map fun file => (subdir, file)).foldlM (Disk.turn T system args) d := by
  rw [List.foldlM_map]
  unfold Disk.generateFiles Disk.turn Arguments.jobsOf Arguments.targets
  simp only [List.map_append, List.map_map, List.foldlM_append, List.foldlM_map]
  rfl

theorem main_eq (T : Tools) (system : System D) (args : Arguments) (d : Disk D) :
    d.main T system args = args.sources.foldlM (Disk.turn T system args) d := by
  have hsrv := funext (generateFiles_eq_foldlM T system args .srv)
  unfold Arguments.sources
  rw [List.foldlM_append, ← generateFiles_eq_foldlM, ← hsrv]
  rfl

/-- **One interface.** -/
theorem outcome_turn (hapart : ReadsApart T args files) (hstart : StartsFrom T args files before)
    (hsource : source ∈ args.sources) (hjs : js ⊆ args.jobs) (h : Wrote T args files before js d) :
    Outcome (Wrote T args files before (js ++ args.jobsOf source)) (Interrupted T args files system before)
      (Disk.turn T system args d source) := by
  have hread : T.contextOf args d.files source.1 source.2 = T.contextOf args files source.1 source.2 :=
    hapart.contexts d.files (h.startsFrom hstart hjs) source hsource
  unfold Disk.turn
  rw [hread]
  refine (outcome_reading (P := fun context => T.contextOf args files source.1 source.2 = .ok context)
    (fun context hcontext => hcontext) fun e he => ?_).bind fun context hcontext => ?_
  · refine h.interrupted hjs rfl fun hreason => ?_
    obtain ⟨context, hcontext⟩ := (hreason.2 source hsource).1
    rw [he] at hcontext
    cases hcontext
  refine Outcome.foldlM (I := fun done => Wrote T args files before (js ++ done)) (fun done j hj t hdone ht => ?_) ?_
  · have hjobs : js ++ done ⊆ args.jobs :=
      List.append_subset.mpr ⟨hjs, fun j hj => mem_jobs.mpr ⟨source, hsource, hdone hj⟩⟩
    obtain ⟨target, -, rfl⟩ := List.mem_map.mp hj
    rw [← List.append_assoc]
    exact outcome_generateFile hapart hstart hsource hj hjobs hcontext ht
  · rw [List.append_nil]
    exact h

/-- **One attempt.** -/
theorem outcome_main (hapart : ReadsApart T args files) (hstart : StartsFrom T args files before) :
    Outcome (Wrote T args files before args.jobs) (Interrupted T args files system before)
      (before.main T system args) := by
  rw [main_eq]
  refine Outcome.foldlM (I := fun done => Wrote T args files before (done.flatMap args.jobsOf))
    (fun done source hsource d hdone hd => ?_) ⟨[], .nil, rfl⟩
  have hjs : done.flatMap args.jobsOf ⊆ args.jobs := by
    intro j hj
    obtain ⟨source', hsource', hj⟩ := List.mem_flatMap.mp hj
    exact mem_jobs.mpr ⟨source', hdone hsource', hj⟩
  rw [List.flatMap_append, List.flatMap_singleton]
  exact outcome_turn hapart hstart hsource hjs hd

end Main

/-! ### Several attempts -/

/-- What an attempt leaves, however it ends. -/
def leaves {D : Type} : Except (Failed D) (Disk D) → Disk D
  | .ok disk => disk
  | .error e => e.disk

/-- The disk after some attempts, each on what the one before has left. -/
def attempts {D : Type} (T : Tools) (args : Arguments) (disk : Disk D) (systems : List (System D)) : Disk D :=
  systems.foldl (fun disk system => leaves (disk.main T system args)) disk

/-- The generator, called with the installed templates for the files of a package. -/
structure Installed where
  resources : String
  package : String
  sourceDir : String
  headerDir : String
  msgFiles : List InterfaceFile
  srvFiles : List InterfaceFile

def Installed.arguments (b : Installed) : Arguments where
  package := b.package
  sourceDir := b.sourceDir
  headerDir := b.headerDir
  msgIdlFiles := b.msgFiles
  msgCppFiles := [Template.msgCpp.path b.resources]
  msgHppFiles := [Template.msgHpp.path b.resources]
  srvIdlFiles := b.srvFiles
  srvCppFiles := [Template.srvCpp.path b.resources]
  srvHppFiles := []

/-- The files are named for their interfaces, of which there is one file each. -/
structure Installed.NamesFiles (b : Installed) : Prop where
  valid : ∀ subdir, ∀ file ∈ b.arguments.idlFiles subdir, isValidMessageName file.stem
  nodup : ∀ subdir, ((b.arguments.idlFiles subdir).map (·.stem)).Nodup

/-- What is assumed of the parsers: a specification has the name of its file. -/
structure Tools.KeepsNames (T : Tools) : Prop where
  adapter : T.adapter.KeepsNames
  parseMessageFile : ∀ files package file spec, T.parseMessageFile files package file = .ok spec →
    spec.msgName = file.stem
  parseServiceFile : ∀ files package file spec, T.parseServiceFile files package file = .ok spec →
    spec.srvName = file.stem

section Recovers

variable {D : Type} (T : Tools) (b : Installed) (files : Files)

/-- The outputs for the interfaces and templates in `files` are complete, and everything else is as it was there. -/
structure Completed (t : Disk D) (messages : List MessageSpecification) (services : List ServiceSpecification)
    (outputs : List (String × String)) : Prop where
  readMessages : b.msgFiles.mapM (T.readMessage files b.package) = .ok messages
  readServices : b.srvFiles.mapM (T.readService files b.package) = .ok services
  paths : generatePackage b.resources b.sourceDir b.headerDir messages services = .ok (outputs.map (·.1))
  made : List.Forall₂ (Job.Makes T b.arguments files) b.arguments.jobs outputs
  written : ∀ output ∈ outputs, t.files output.1 = some output.2
  others : ∀ path ∉ outputs.map (·.1), t.files path = files path

/-- The file is as it was, or it is an output that is complete. -/
def Intact (d t : Disk D) (path : String) : Prop :=
  t.files path = d.files path ∨
    ∃ j ∈ b.arguments.jobs, ∃ text, j.Makes T b.arguments files (path, text) ∧ t.files path = some text

/-- What is to hold of an attempt on the disk `d`, if it was `files` before the first attempt. -/
structure Recovers (d : Disk D) (system : System D) : Prop where
  untouched : ∀ path ∉ outputPaths T b.arguments files, d.files path = files path
  completes : ∀ t, d.main T system b.arguments = .ok t →
    ∃ messages services outputs, Completed T b files t messages services outputs
  fails : ∀ e, d.main T system b.arguments = .error e →
    (∀ path, Intact T b files d e.disk path) ∨
      ∃ torn, (∃ disk text, (system.write disk torn text).2 ≠ none) ∧ ∀ path ≠ torn, Intact T b files d e.disk path
  goesThrough : system.Serves b.arguments.directories (outputPaths T b.arguments files) →
    ((∃ t, d.main T system b.arguments = .ok t) ↔ Generable T b.arguments files)

end Recovers

section Installed

variable {D : Type} {T : Tools} {b : Installed} {files : Files} {system : System D} {d : Disk D} {j j' : Job}
  {js : List Job} {output output' : String × String} {outputs : List (String × String)}

def Template.subdir : Template → Subdir
  | msgCpp | msgHpp => .msg
  | srvCpp => .srv

/-- The directory of the outputs of a template. -/
def Installed.destination (b : Installed) : Template → String
  | .msgCpp => b.sourceDir ++ "/" ++ "msg"
  | .msgHpp => b.headerDir ++ "/" ++ "msg"
  | .srvCpp => b.sourceDir ++ "/" ++ "srv"

/-- The job for a template and a file. -/
def Installed.job (b : Installed) (t : Template) (file : InterfaceFile) : Job :=
  ⟨t.subdir, file, t.path b.resources, b.destination t⟩

def Installed.pathOf (b : Installed) (t : Template) (stem : String) : String :=
  b.destination t ++ "/" ++ t.filename stem

/-- The outputs in the order in which they are written. -/
def Installed.pairs (b : Installed) : List (Template × InterfaceFile) :=
  b.msgFiles.flatMap (fun file => [(.msgCpp, file), (.msgHpp, file)]) ++ b.srvFiles.map fun file => (.srvCpp, file)

theorem jobs_installed (b : Installed) : b.arguments.jobs = b.pairs.map fun pair => b.job pair.1 pair.2 := by
  unfold Arguments.jobs Arguments.sources Installed.pairs
  rw [List.flatMap_append, List.flatMap_map, List.flatMap_map, List.map_append, List.map_flatMap, List.map_map,
    List.map_eq_flatMap]
  rfl

theorem mem_jobs_installed :
    j ∈ b.arguments.jobs ↔ ∃ t, ∃ file ∈ b.arguments.idlFiles t.subdir, j = b.job t file := by
  rw [jobs_installed, List.mem_map]
  constructor
  · rintro ⟨⟨t, file⟩, hpair, rfl⟩
    refine ⟨t, file, ?_, rfl⟩
    rcases List.mem_append.mp hpair with hpair | hpair
    · obtain ⟨file', hfile', hpair⟩ := List.mem_flatMap.mp hpair
      rcases List.mem_pair.mp hpair with heq | heq <;> cases heq <;> exact hfile'
    · obtain ⟨file', hfile', heq⟩ := List.mem_map.mp hpair
      cases heq
      exact hfile'
  · rintro ⟨t, file, hfile, rfl⟩
    refine ⟨(t, file), ?_, rfl⟩
    cases t with
    | msgCpp => exact List.mem_append_left _ (List.mem_flatMap.mpr ⟨file, hfile, List.mem_cons_self ..⟩)
    | msgHpp =>
      exact List.mem_append_left _
        (List.mem_flatMap.mpr ⟨file, hfile, List.mem_cons_of_mem _ (List.mem_singleton_self _)⟩)
    | srvCpp => exact List.mem_append_right _ (List.mem_map_of_mem hfile)

theorem name_of_readMessage (hT : T.KeepsNames) {package : String} {file : InterfaceFile} {m : MessageSpecification}
    (h : T.readMessage files package file = .ok m) : m.msgName = file.stem := by
  unfold Tools.readMessage at h
  split at h
  · obtain ⟨idlMsgs, -, h⟩ := bind_eq_ok.mp h
    obtain ⟨idlMsg, -, h⟩ := bind_eq_ok.mp h
    exact msgName_of_parseIdlMessage hT.adapter h
  · exact hT.parseMessageFile _ _ _ _ h

theorem name_of_readService (hT : T.KeepsNames) {package : String} {file : InterfaceFile} {s : ServiceSpecification}
    (h : T.readService files package file = .ok s) : s.srvName = file.stem := by
  unfold Tools.readService at h
  split at h
  · obtain ⟨idlSrvs, -, h⟩ := bind_eq_ok.mp h
    obtain ⟨idlSrv, -, h⟩ := bind_eq_ok.mp h
    exact srvName_of_parseIdlToServiceSpec hT.adapter h
  · exact hT.parseServiceFile _ _ _ _ h

theorem name_of_contextOf (hT : T.KeepsNames) {args : Arguments} {subdir : Subdir} {file : InterfaceFile}
    {context : Context} (h : T.contextOf args files subdir file = .ok context) :
    getMessageTypeName context.spec = file.stem := by
  obtain ⟨idl, -, h⟩ := bind_eq_ok.mp h
  obtain ⟨spec, hspec, h⟩ := bind_eq_ok.mp h
  obtain rfl := Except.ok.inj h
  cases subdir with
  | msg =>
    obtain ⟨m, hm, rfl⟩ := map_eq_ok.mp hspec
    exact name_of_readMessage hT hm
  | srv =>
    obtain ⟨s, hs, rfl⟩ := map_eq_ok.mp hspec
    exact name_of_readService hT hs

theorem path_of_contextOf (hT : T.KeepsNames) {t : Template} {file : InterfaceFile} {context : Context} {path : String}
    (hcontext : T.contextOf b.arguments files t.subdir file = .ok context)
    (hpath : Rosidl.generateFile (t.path b.resources) (b.destination t) context.spec = .ok path) :
    path = b.pathOf t file.stem := by
  have hwritten := generateFile_path b.resources (b.destination t) t context.spec
  rw [name_of_contextOf hT hcontext] at hwritten
  exact Except.ok.inj (hpath.symm.trans hwritten)

theorem path_of_makes (hT : T.KeepsNames) {t : Template} {file : InterfaceFile}
    (h : (b.job t file).Makes T b.arguments files output) : output.1 = b.pathOf t file.stem := by
  obtain ⟨context, hcontext, hpath, -⟩ := h
  exact path_of_contextOf hT hcontext hpath

theorem pathOf_of_mem_outputPaths (hT : T.KeepsNames) {path : String} (h : path ∈ outputPaths T b.arguments files) :
    ∃ t, ∃ file ∈ b.arguments.idlFiles t.subdir, path = b.pathOf t file.stem := by
  obtain ⟨j, hj, context, hcontext, hpath⟩ := h
  obtain ⟨t, file, hfile, rfl⟩ := mem_jobs_installed.mp hj
  exact ⟨t, file, hfile, path_of_contextOf hT hcontext hpath⟩

theorem pathOf_inj {t t' : Template} {stem stem' : String} (h : isValidMessageName stem) (h' : isValidMessageName stem')
    (heq : b.pathOf t stem = b.pathOf t' stem') : t = t' ∧ stem = stem' := by
  have hlist : (b.destination t).toList ++ '/' :: (t.filename stem).toList =
      (b.destination t').toList ++ '/' :: (t'.filename stem').toList := by
    simpa [Installed.pathOf] using congrArg String.toList heq
  obtain ⟨-, hfilename⟩ := append_cons_inj_last (slash_not_mem_filename h) (slash_not_mem_filename h') hlist
  exact filename_inj h h' (String.toList_inj.mp hfilename)

theorem makes_unique (h : j.Makes T b.arguments files output) (h' : j.Makes T b.arguments files output') :
    output = output' := by
  obtain ⟨context, hcontext, hpath, htext⟩ := h
  obtain ⟨context', hcontext', hpath', htext'⟩ := h'
  obtain rfl := Except.ok.inj (hcontext.symm.trans hcontext')
  exact Prod.ext (Except.ok.inj (hpath.symm.trans hpath')) (Except.ok.inj (htext.symm.trans htext'))

/-- **No two jobs have the same output.** -/
theorem job_unique (hT : T.KeepsNames) (hb : b.NamesFiles) (hj : j ∈ b.arguments.jobs) (hj' : j' ∈ b.arguments.jobs)
    (h : j.Makes T b.arguments files output) (h' : j'.Makes T b.arguments files output')
    (heq : output.1 = output'.1) : j = j' := by
  obtain ⟨t, file, hfile, rfl⟩ := mem_jobs_installed.mp hj
  obtain ⟨t', file', hfile', rfl⟩ := mem_jobs_installed.mp hj'
  rw [path_of_makes hT h, path_of_makes hT h'] at heq
  obtain ⟨rfl, hstem⟩ := pathOf_inj (hb.valid _ _ hfile) (hb.valid _ _ hfile') heq
  rw [List.inj_on_of_nodup_map (hb.nodup t.subdir) hfile hfile' hstem]

theorem consistent_outputs (hT : T.KeepsNames) (hb : b.NamesFiles) (hjs : js ⊆ b.arguments.jobs)
    (h : List.Forall₂ (Job.Makes T b.arguments files) js outputs) : Consistent outputs := by
  intro o ho o' ho' heq
  obtain ⟨j, hj, hmakes⟩ := exists_mem_of_forall₂ h.flip ho
  obtain ⟨j', hj', hmakes'⟩ := exists_mem_of_forall₂ h.flip ho'
  have hmakes : j.Makes T b.arguments files o := hmakes
  have hmakes' : j'.Makes T b.arguments files o' := hmakes'
  obtain rfl := job_unique hT hb (hjs hj) (hjs hj') hmakes hmakes' heq
  rw [makes_unique hmakes hmakes']

/-! ### After some attempts -/

theorem path_mem_outputs_iff
    (h : List.Forall₂ (Job.Makes T b.arguments files) b.arguments.jobs outputs) {path : String} :
    path ∈ outputs.map (·.1) ↔ path ∈ outputPaths T b.arguments files := by
  constructor
  · intro hmem
    obtain ⟨output, houtput, rfl⟩ := List.mem_map.mp hmem
    obtain ⟨j, hj, hmakes⟩ := exists_mem_of_forall₂ h.flip houtput
    exact mem_outputPaths_of_makes hj hmakes
  · rintro ⟨j, hj, context, hcontext, hpath⟩
    obtain ⟨output, houtput, context', hcontext', hpath', -⟩ := exists_mem_of_forall₂ h hj
    obtain rfl := Except.ok.inj (hcontext.symm.trans hcontext')
    obtain rfl := Except.ok.inj (hpath.symm.trans hpath')
    exact List.mem_map_of_mem houtput

theorem paths_of_makes (hT : T.KeepsNames)
    (h : List.Forall₂ (Job.Makes T b.arguments files) b.arguments.jobs outputs) :
    outputs.map (·.1) = b.pairs.map fun pair => b.pathOf pair.1 pair.2.stem := by
  rw [jobs_installed, List.forall₂_map_left_iff] at h
  have hpaths : List.Forall₂ (fun pair output => b.pathOf pair.1 pair.2.stem = output.1) b.pairs outputs :=
    h.imp fun pair output hmakes => (path_of_makes hT hmakes).symm
  rw [← List.forall₂_eq_eq_eq, List.forall₂_map_left_iff, List.forall₂_map_right_iff]
  exact hpaths.flip.imp fun _ _ heq => heq.symm

theorem generatePackage_outputs (hT : T.KeepsNames) {messages : List MessageSpecification}
    {services : List ServiceSpecification} (hmessages : b.msgFiles.mapM (T.readMessage files b.package) = .ok messages)
    (hservices : b.srvFiles.mapM (T.readService files b.package) = .ok services)
    (h : List.Forall₂ (Job.Makes T b.arguments files) b.arguments.jobs outputs) :
    generatePackage b.resources b.sourceDir b.headerDir messages services = .ok (outputs.map (·.1)) := by
  have hmsgNames : b.msgFiles.map (·.stem) = messages.map (·.msgName) :=
    map_eq_of_mapM (fun _ _ hm => (name_of_readMessage hT hm).symm) hmessages
  have hsrvNames : b.srvFiles.map (·.stem) = services.map (·.srvName) :=
    map_eq_of_mapM (fun _ _ hs => (name_of_readService hT hs).symm) hservices
  have hmsgPaths : b.msgFiles.flatMap (fun file => [b.pathOf .msgCpp file.stem, b.pathOf .msgHpp file.stem]) =
      messages.flatMap fun m => [b.pathOf .msgCpp m.msgName, b.pathOf .msgHpp m.msgName] := by
    calc b.msgFiles.flatMap (fun file => [b.pathOf .msgCpp file.stem, b.pathOf .msgHpp file.stem])
        = (b.msgFiles.map (·.stem)).flatMap (fun name => [b.pathOf .msgCpp name, b.pathOf .msgHpp name]) := by
          rw [List.flatMap_map]
      _ = messages.flatMap fun m => [b.pathOf .msgCpp m.msgName, b.pathOf .msgHpp m.msgName] := by
          rw [hmsgNames, List.flatMap_map]
  have hsrvPaths : b.srvFiles.map (fun file => b.pathOf .srvCpp file.stem) =
      services.map fun s => b.pathOf .srvCpp s.srvName := by
    calc b.srvFiles.map (fun file => b.pathOf .srvCpp file.stem)
        = (b.srvFiles.map (·.stem)).map (b.pathOf .srvCpp) := by
          rw [List.map_map]
          rfl
      _ = services.map fun s => b.pathOf .srvCpp s.srvName := by
          rw [hsrvNames, List.map_map]
          rfl
  rw [generatePackage_eq, paths_of_makes hT h]
  unfold writtenFiles Installed.pairs
  rw [List.map_append, List.map_append, List.map_flatMap, List.map_flatMap, List.map_map, List.map_map]
  exact congrArg Except.ok (congrArg₂ (· ++ ·) hmsgPaths.symm hsrvPaths.symm)

theorem leaves_of_outcome {I : Disk D → Prop} {x : Except (Failed D) (Disk D)}
    (h : Outcome I (fun e => I e.disk) x) : I (leaves x) := by
  cases x with
  | ok t => exact h
  | error e => exact h

theorem startsFrom_attempts {args : Arguments} (hapart : ReadsApart T args files) (hd : StartsFrom T args files d)
    (systems : List (System D)) : StartsFrom T args files (attempts T args d systems) := by
  induction systems generalizing d with
  | nil => exact hd
  | cons system systems ih =>
    have hattempt : Outcome (Wrote T args files d args.jobs) (Interrupted T args files system d)
        (d.main T system args) := outcome_main hapart hd
    refine ih (leaves_of_outcome (hattempt.imp (fun t ht => ?_) fun e he => ?_))
    · exact ht.startsFrom hd (List.Subset.refl _)
    · exact he.startsFrom hd

theorem exists_context (h : List.Forall₂ (Job.Makes T b.arguments files) b.arguments.jobs outputs) (t : Template)
    {file : InterfaceFile} (hfile : file ∈ b.arguments.idlFiles t.subdir) :
    ∃ context, T.contextOf b.arguments files t.subdir file = .ok context := by
  obtain ⟨output, -, context, hcontext, -⟩ := exists_mem_of_forall₂ h (mem_jobs_installed.mpr ⟨t, file, hfile, rfl⟩)
  exact ⟨context, hcontext⟩

theorem exists_spec (h : List.Forall₂ (Job.Makes T b.arguments files) b.arguments.jobs outputs) (t : Template)
    {file : InterfaceFile} (hfile : file ∈ b.arguments.idlFiles t.subdir) :
    ∃ spec, T.readSpec files b.package file t.subdir = .ok spec := by
  obtain ⟨context, hcontext⟩ := exists_context h t hfile
  obtain ⟨idl, -, hcontext⟩ := bind_eq_ok.mp hcontext
  obtain ⟨spec, hspec, -⟩ := bind_eq_ok.mp hcontext
  exact ⟨spec, hspec⟩

theorem generable_of_made (h : List.Forall₂ (Job.Makes T b.arguments files) b.arguments.jobs outputs) :
    Generable T b.arguments files := by
  intro source hsource
  refine ⟨?_, fun j hj => ?_⟩
  · rcases List.mem_append.mp hsource with hmem | hmem
    · obtain ⟨file, hfile, rfl⟩ := List.mem_map.mp hmem
      exact exists_context h .msgCpp hfile
    · obtain ⟨file, hfile, rfl⟩ := List.mem_map.mp hmem
      exact exists_context h .srvCpp hfile
  · obtain ⟨output, -, hmakes⟩ := exists_mem_of_forall₂ h (mem_jobs.mpr ⟨source, hsource, hj⟩)
    exact ⟨output, hmakes⟩

/-- **An attempt that goes through.** -/
theorem Wrote.completed (hT : T.KeepsNames) (hb : b.NamesFiles) (hd : StartsFrom T b.arguments files d) {t : Disk D}
    (h : Wrote T b.arguments files d b.arguments.jobs t) :
    ∃ messages services outputs, Completed T b files t messages services outputs := by
  obtain ⟨outputs, hmade, hfiles⟩ := h
  obtain ⟨messages, hmessages⟩ : ∃ messages, b.msgFiles.mapM (T.readMessage files b.package) = .ok messages := by
    refine exists_mapM_ok_iff.mpr fun file hfile => ?_
    obtain ⟨spec, hspec⟩ := exists_spec hmade .msgCpp hfile
    obtain ⟨m, hm, -⟩ := map_eq_ok.mp hspec
    exact ⟨m, hm⟩
  obtain ⟨services, hservices⟩ : ∃ services, b.srvFiles.mapM (T.readService files b.package) = .ok services := by
    refine exists_mapM_ok_iff.mpr fun file hfile => ?_
    obtain ⟨spec, hspec⟩ := exists_spec hmade .srvCpp hfile
    obtain ⟨s, hs, -⟩ := map_eq_ok.mp hspec
    exact ⟨s, hs⟩
  have hpaths := generatePackage_outputs hT hmessages hservices hmade
  refine ⟨messages, services, outputs, hmessages, hservices, hpaths, hmade, fun output houtput => ?_,
    fun path hpath => ?_⟩
  · rw [hfiles]
    exact assignAll_of_mem (consistent_outputs hT hb (List.Subset.refl _) hmade) houtput
  · rw [hfiles, assignAll_of_forall_ne fun output houtput heq => hpath (List.mem_map.mpr ⟨output, houtput, heq⟩)]
    exact hd path fun hmem => hpath ((path_mem_outputs_iff hmade).mpr hmem)

theorem intact_of_made (hT : T.KeepsNames) (hb : b.NamesFiles) (hjs : js ⊆ b.arguments.jobs)
    (hmade : List.Forall₂ (Job.Makes T b.arguments files) js outputs) {t : Disk D} {path : String}
    (ht : t.files path = assignAll d.files outputs path) : Intact T b files d t path := by
  by_cases hpath : ∃ output ∈ outputs, output.1 = path
  · obtain ⟨⟨_, text⟩, houtput, rfl⟩ := hpath
    obtain ⟨j, hj, hmakes⟩ := exists_mem_of_forall₂ hmade.flip houtput
    exact .inr ⟨j, hjs hj, text, hmakes, ht.trans (assignAll_of_mem (consistent_outputs hT hb hjs hmade) houtput)⟩
  · exact .inl (ht.trans (assignAll_of_forall_ne fun output houtput heq => hpath ⟨output, houtput, heq⟩))

/-- **An attempt that fails** tears one file at most, when this could not be written. -/
theorem Interrupted.intact (hT : T.KeepsNames) (hb : b.NamesFiles) {e : Failed D}
    (h : Interrupted T b.arguments files system d e) : (∀ path, Intact T b files d e.disk path) ∨
      ∃ torn, (∃ disk text, (system.write disk torn text).2 ≠ none) ∧
        ∀ path ≠ torn, Intact T b files d e.disk path := by
  obtain ⟨js, outputs, hjs, hmade, hor⟩ := h.disk
  rcases hor with hfiles | ⟨torn, -, ⟨part, hfiles⟩, hraised⟩
  · exact .inl fun path => intact_of_made hT hb hjs hmade (congrFun hfiles path)
  · refine .inr ⟨torn, hraised, fun path hne => intact_of_made hT hb hjs hmade ?_⟩
    rw [hfiles, Function.update_of_ne hne]

end Installed

/-- **The generator recovers from failures.**  Whatever happened in the attempts before, an attempt that goes through
leaves what the first one would have left, and one that fails tears one file at most.  When the operating system raises
no error, it goes through exactly if the interfaces can be read and the templates be expanded. -/
theorem generates_despite_failures {D : Type} {T : Tools} (hT : T.KeepsNames) {b : Installed} (hb : b.NamesFiles)
    (before : Disk D) (hapart : ReadsApart T b.arguments before.files) (systems : List (System D)) (system : System D) :
    Recovers T b before.files (attempts T b.arguments before systems) system := by
  have hd : StartsFrom T b.arguments before.files (attempts T b.arguments before systems) :=
    startsFrom_attempts hapart (fun _ _ => rfl) systems
  have hattempt : Outcome (Wrote T b.arguments before.files (attempts T b.arguments before systems) b.arguments.jobs)
      (Interrupted T b.arguments before.files system (attempts T b.arguments before systems))
      ((attempts T b.arguments before systems).main T system b.arguments) := outcome_main hapart hd
  refine ⟨hd, fun t ht => ?_, fun e he => ?_, fun hserves => ⟨?_, fun hgenerable => ?_⟩⟩
  · rw [ht] at hattempt
    exact hattempt.completed hT hb hd
  · rw [he] at hattempt
    exact hattempt.intact hT hb
  · rintro ⟨t, ht⟩
    rw [ht] at hattempt
    obtain ⟨outputs, hmade, -⟩ := hattempt
    exact generable_of_made hmade
  · cases hmain : (attempts T b.arguments before systems).main T system b.arguments with
    | ok t => exact ⟨t, rfl⟩
    | error e =>
      rw [hmain] at hattempt
      exact absurd ⟨hserves, hgenerable⟩ hattempt.reason

/-! ### A message without fields -/

def emptyMsg : InterfaceFile := ⟨"/opt/ros/share/std_msgs/msg", "Empty", "msg"⟩

def emptyPath : String := "/opt/ros/share/std_msgs/msg/Empty.idl"

def emptyIdl : String := "struct Empty \x7b\n  uint8 structure_needs_at_least_one_member;\n\x7d;\n"

/-- What the preprocessor makes of a file without directives: the text after its line markers. -/
def lineMarked (path text : String) : String :=
  "# 1 \"" ++ path ++ "\"\n# 1 \"<built-in>\"\n# 1 \"<command-line>\"\n# 1 \"" ++ path ++ "\"\n" ++ text

/-- The tools for this message, whose `.idl` file holds no directives. -/
def emptyTools : Tools where
  adapter := referenceAdapter
  environment := "AMENT_PREFIX_PATH=/opt/ros\n"
  preprocess files command :=
    match files (command.getLastD "") with
    | none => .error (.raised "CalledProcessError")
    | some text => .ok (lineMarked (command.getLastD "") text)
  idlMessages _ _ _ := .ok []
  idlServices _ _ _ := .ok []
  parseMessageFile files package file :=
    if files file.str = some "" then .ok ⟨package, file.stem, [], []⟩ else .error (.raised "FileNotFoundError")
  parseServiceFile _ _ _ := .error (.raised "FileNotFoundError")
  expand template context := .ok (if template = "@(idl)" then context.idl else template)

def emptyInstalled : Installed := ⟨"/resources", "std_msgs", "/build/src", "/build/include", [emptyMsg], []⟩

def emptyDisk : Disk Unit where
  files := fun path =>
    if path = "/opt/ros/share/std_msgs/msg/Empty.msg" then some ""
    else if path = "/opt/ros/share/std_msgs/msg/Empty.idl" then some emptyIdl
    else if path = "/resources/convert__msg.cpp.em" then some "@(idl)"
    else if path = "/resources/convert__msg.hpp.em" then some "#pragma once\n"
    else none
  rest := ()

/-- The disk is full: a file can be opened, but nothing be written to it. -/
def fullSystem : System Unit where
  pathExists _ _ := false
  makedirs _ _ := ((), none)
  openForWriting _ _ := ((), none)
  write _ _ _ := ((), some (.raised "OSError", ""))

def workingSystem : System Unit := { fullSystem with write := fun _ _ _ => ((), none) }

theorem emptyTools_keepsNames : emptyTools.KeepsNames where
  adapter := referenceAdapter_keepsNames
  parseMessageFile files package file spec h := by
    simp only [emptyTools] at h
    split at h
    · cases h
      rfl
    · cases h
  parseServiceFile files package file spec h := nomatch h

theorem emptyInstalled_namesFiles : emptyInstalled.NamesFiles where
  valid subdir file hfile := by
    cases subdir with
    | msg =>
      obtain rfl := List.mem_singleton.mp hfile
      decide
    | srv => cases hfile
  nodup subdir := by cases subdir <;> decide

theorem contextOf_emptyMsg {files : Files} (hmsg : files "/opt/ros/share/std_msgs/msg/Empty.msg" = some "")
    (hidl : files "/opt/ros/share/std_msgs/msg/Empty.idl" = some emptyIdl) :
    emptyTools.contextOf emptyInstalled.arguments files .msg emptyMsg =
      .ok ⟨"struct Empty \x7b\n\x7d;\n", .message ⟨"std_msgs", "Empty", [], []⟩, .msg⟩ := by
  have hcommand : preprocessCmd (findIdlIncludePaths emptyTools.environment) "/opt/ros/share/std_msgs/msg/Empty.idl" =
      some ["cpp", "-H", "-I/opt/ros/share", "/opt/ros/share/std_msgs/msg/Empty.idl"] := by decide
  have hpath : ({ emptyMsg with suffix := "idl" } : InterfaceFile).str = "/opt/ros/share/std_msgs/msg/Empty.idl" := by
    decide
  have hunrolled : emptyTools.preprocess files
      ["cpp", "-H", "-I/opt/ros/share", "/opt/ros/share/std_msgs/msg/Empty.idl"] =
        .ok (lineMarked emptyPath emptyIdl) := by
    show (match files "/opt/ros/share/std_msgs/msg/Empty.idl" with
      | none => _
      | some text => _) = _
    rw [hidl]
    rfl
  have hkept : String.join (((splitlines (lineMarked emptyPath emptyIdl)).filter keepsLine).map
      fun line => line ++ "\n") = "struct Empty \x7b\n\x7d;\n" := by
    decide +kernel
  have hget : emptyTools.getIdlFromFile files { emptyMsg with suffix := "idl" }
      (findIdlIncludePaths emptyTools.environment) = .ok "struct Empty \x7b\n\x7d;\n" := by
    unfold Tools.getIdlFromFile
    rw [hpath, hcommand]
    show emptyTools.preprocess files _ >>= _ = _
    rw [hunrolled]
    exact congrArg Except.ok hkept
  have hread : emptyTools.readMessage files "std_msgs" emptyMsg = .ok ⟨"std_msgs", "Empty", [], []⟩ := by
    have hstr : emptyMsg.str = "/opt/ros/share/std_msgs/msg/Empty.msg" := by decide
    show (if files emptyMsg.str = some "" then _ else _) = _
    rw [hstr, if_pos hmsg]
    rfl
  unfold Tools.contextOf Tools.readContext Tools.readSpec
  rw [hget]
  show (emptyTools.readMessage files "std_msgs" emptyMsg).map Spec.message >>= _ = _
  rw [hread]
  rfl

theorem contextOf_emptyDisk : emptyTools.contextOf emptyInstalled.arguments emptyDisk.files .msg emptyMsg =
    .ok ⟨"struct Empty \x7b\n\x7d;\n", .message ⟨"std_msgs", "Empty", [], []⟩, .msg⟩ :=
  contextOf_emptyMsg rfl rfl

theorem notMem_outputPaths_empty {path : String} (hcpp : path ≠ "/build/src/msg/convert__msg__Empty.cpp")
    (hhpp : path ≠ "/build/include/msg/convert__msg__Empty.hpp") :
    path ∉ outputPaths emptyTools emptyInstalled.arguments emptyDisk.files := by
  intro hmem
  obtain ⟨t, file, hfile, rfl⟩ := pathOf_of_mem_outputPaths emptyTools_keepsNames hmem
  cases t with
  | msgCpp =>
    obtain rfl := List.mem_singleton.mp hfile
    exact hcpp (by decide)
  | msgHpp =>
    obtain rfl := List.mem_singleton.mp hfile
    exact hhpp (by decide)
  | srvCpp => cases hfile

theorem readsApart_empty : ReadsApart emptyTools emptyInstalled.arguments emptyDisk.files where
  contexts files hfiles source hsource := by
    obtain rfl := List.mem_singleton.mp hsource
    have hmsg : files "/opt/ros/share/std_msgs/msg/Empty.msg" = some "" :=
      hfiles _ (notMem_outputPaths_empty (by decide) (by decide))
    have hidl : files "/opt/ros/share/std_msgs/msg/Empty.idl" = some emptyIdl :=
      hfiles _ (notMem_outputPaths_empty (by decide) (by decide))
    exact (contextOf_emptyMsg hmsg hidl).trans contextOf_emptyDisk.symm
  templates j hj := by
    obtain ⟨t, file, hfile, rfl⟩ := mem_jobs_installed.mp hj
    have hcpp : t.path "/resources" ≠ "/build/src/msg/convert__msg__Empty.cpp" := by cases t <;> decide
    have hhpp : t.path "/resources" ≠ "/build/include/msg/convert__msg__Empty.hpp" := by cases t <;> decide
    exact notMem_outputPaths_empty hcpp hhpp

theorem generable_empty : Generable emptyTools emptyInstalled.arguments emptyDisk.files := by
  intro source hsource
  obtain rfl := List.mem_singleton.mp hsource
  refine ⟨⟨_, contextOf_emptyDisk⟩, fun j hj => ?_⟩
  rcases List.mem_pair.mp hj with rfl | rfl
  · exact ⟨(_, _), _, contextOf_emptyDisk, generateFile_path "/resources" _ .msgCpp _, rfl⟩
  · exact ⟨(_, _), _, contextOf_emptyDisk, generateFile_path "/resources" _ .msgHpp _, rfl⟩

/-- The disk is full twice, and then it works. -/
theorem generates_despite_failures_fullDisk : ∃ t messages services outputs,
    (attempts emptyTools emptyInstalled.arguments emptyDisk [fullSystem, fullSystem]).main emptyTools workingSystem
      emptyInstalled.arguments = .ok t ∧
        Completed emptyTools emptyInstalled emptyDisk.files t messages services outputs := by
  have hrecovers := generates_despite_failures emptyTools_keepsNames emptyInstalled_namesFiles emptyDisk
    readsApart_empty [fullSystem, fullSystem] workingSystem
  obtain ⟨t, ht⟩ := (hrecovers.goesThrough ⟨fun _ _ _ => rfl, fun _ _ _ => rfl, fun _ _ _ _ => rfl⟩).mpr
    generable_empty
  obtain ⟨messages, services, outputs, hcompleted⟩ := hrecovers.completes t ht
  exact ⟨t, messages, services, outputs, ht, hcompleted⟩

end Ros2Sh.Rosidl
