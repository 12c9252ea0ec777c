import Ros2Sh.Lib.Worklist
import Ros2Sh.Rosidl.PackageInfo

/-!
# `traverse_packages` and `print_package_info`

`is_ros2_rosidl_find_package_info.py` finds the packages that a package depends on, directly or not, by a worklist
traversal, and prints them together with the interface files.  The result of `find_package_info` for each package is
the parameter `info`; nothing is assumed of the dependencies it names.

The traversal simulates the one of `Lib.Worklist`, whose visits are the calls of `find_package_info` and the keys of the
dictionary (`ends_traverse`).
-/

namespace Ros2Sh.Rosidl

open Ros2Sh.Lib

/-! ### The scripts -/

/-- The variables of `traverse_packages`, and the packages for which it has called `find_package_info` so far.  The end
of the queue, where packages are added and taken off, comes first. -/
structure Traversal where
  packageQueue : List String
  inspectedPackages : List (String × PackageInfo)
  calls : List String

namespace Traversal

def initial (rootPkgName : String) : Traversal := ⟨[rootPkgName], [], []⟩

/-- A turn of the `while` loop. -/
def step (info : String → PackageInfo) (s : Traversal) : Option Traversal :=
  match s.packageQueue with
  | [] => none
  | nextPkg :: packageQueue =>
    if nextPkg ∈ s.inspectedPackages.map (·.1) then some { s with packageQueue := packageQueue }
    else
      some ⟨(info nextPkg).dependencies.reverse ++ packageQueue,
        s.inspectedPackages ++ [(nextPkg, info nextPkg)], s.calls ++ [nextPkg]⟩

end Traversal

/-- `str(f)` -/
def InterfaceFile.str (f : InterfaceFile) : String := f.directory ++ "/" ++ f.stem ++ "." ++ f.suffix

/-- The lists that `print_package_info` makes. -/
structure PackageOutput where
  dependencyList : List String
  messageFiles : List InterfaceFile
  serviceFiles : List InterfaceFile
  fileDependencies : List InterfaceFile

/-- What it prints of them. -/
def PackageOutput.text (o : PackageOutput) : String :=
  ";".intercalate ["#".intercalate o.dependencyList, "#".intercalate (o.messageFiles.map InterfaceFile.str),
    "#".intercalate (o.serviceFiles.map InterfaceFile.str), "#".intercalate (o.fileDependencies.map InterfaceFile.str)]

/-- The lists of `print_package_info`; `iterate` is the order in which the elements of a set are iterated over. -/
def packageOutput (iterate : List String → List String) (rootPkgName : String)
    (pkgInfoDict : List (String × PackageInfo)) : Except PyError PackageOutput :=
  match pkgInfoDict.lookup rootPkgName with
  | none => .error (.keyError rootPkgName)
  | some rootInfo =>
    .ok { dependencyList := iterate ((pkgInfoDict.map (·.1)).erase rootPkgName)
          messageFiles := rootInfo.msgFiles
          serviceFiles := rootInfo.srvFiles
          fileDependencies := pkgInfoDict.flatMap fun entry =>
            entry.2.msgFiles ++ if entry.1 = rootPkgName then entry.2.srvFiles else [] }

/-- `print_package_info`. -/
def printPackageInfo (iterate : List String → List String) (rootPkgName : String)
    (pkgInfoDict : List (String × PackageInfo)) : Except PyError String :=
  (packageOutput iterate rootPkgName pkgInfoDict).map PackageOutput.text

/-! ### What they are to compute -/

section Packages

variable (info : String → PackageInfo) (root : String)

/-- The root package depends on the package, directly or not, or is the package: it can be reached from the root along
the dependencies. -/
def Reachable (pkg : String) : Prop :=
  Relation.ReflTransGen (fun pkg pkg' => pkg' ∈ (info pkg).dependencies) root pkg

/-- `find_package_info` was called once for each package that can be reached and for no other, and the dictionary holds
the results. -/
structure Traversed (s : Traversal) : Prop where
  calledOnce : s.calls.Nodup
  called : ∀ pkg, pkg ∈ s.calls ↔ Reachable info root pkg
  keysOnce : (s.inspectedPackages.map (·.1)).Nodup
  keys : ∀ pkg, pkg ∈ s.inspectedPackages.map (·.1) ↔ Reachable info root pkg
  values : ∀ entry ∈ s.inspectedPackages, entry.2 = info entry.1

/-- The lists name the packages that can be reached other than the root, each once, the files of the root, and the
message files of all packages with the service files of the root, each file as often as `find_package_info` gives it. -/
structure Listed (o : PackageOutput) : Prop where
  once : o.dependencyList.Nodup
  dependencies : ∀ pkg, pkg ∈ o.dependencyList ↔ Reachable info root pkg ∧ pkg ≠ root
  messageFiles : o.messageFiles = (info root).msgFiles
  serviceFiles : o.serviceFiles = (info root).srvFiles
  fileDependencies : o.fileDependencies.Perm
    ((root :: o.dependencyList).flatMap (fun pkg => (info pkg).msgFiles) ++ (info root).srvFiles)

variable {info root}

/-! ### The traversal -/

/-- The variables in terms of the packages visited. -/
def traversalOf (info : String → PackageInfo) (w : Worklist.State String) : Traversal :=
  ⟨w.todo, w.visited.map fun pkg => (pkg, info pkg), w.visited⟩

theorem keys_traversalOf (info : String → PackageInfo) (w : Worklist.State String) :
    (traversalOf info w).inspectedPackages.map (·.1) = w.visited := by
  show (w.visited.map fun pkg => (pkg, info pkg)).map (·.1) = w.visited
  rw [List.map_map]
  exact List.map_id _

theorem step_traversalOf (info : String → PackageInfo) (w : Worklist.State String) :
    (traversalOf info w).step info =
      (Worklist.step (fun pkg => (info pkg).dependencies) w).map (traversalOf info) := by
  unfold Traversal.step Worklist.step
  rw [keys_traversalOf]
  cases htodo : w.todo with
  | nil =>
    have hqueue : (traversalOf info w).packageQueue = [] := htodo
    rw [hqueue]
    rfl
  | cons nextPkg todo =>
    have hqueue : (traversalOf info w).packageQueue = nextPkg :: todo := htodo
    rw [hqueue]
    by_cases hvisited : nextPkg ∈ w.visited
    · simp only [hvisited, if_true, Option.map_some]
      rfl
    · simp only [hvisited, if_false, Option.map_some]
      unfold traversalOf
      rw [List.map_append]
      rfl

/-- **The traversal** ends, and has computed what can be reached. -/
theorem ends_traverse (hfinite : {pkg | Reachable info root pkg}.Finite) :
    ∃ s, Ends (Traversal.step info) (.initial root) s ∧ Traversed info root s := by
  obtain ⟨w, hends, hnodup, hvisited⟩ :=
    Worklist.ends_of_finite (fun pkg => (info pkg).dependencies) root hfinite
  refine ⟨traversalOf info w, hends.map (step_traversalOf info), hnodup, hvisited, ?_, ?_, fun entry hentry => ?_⟩
  · rwa [keys_traversalOf]
  · rwa [keys_traversalOf]
  · obtain ⟨pkg, -, rfl⟩ := List.mem_map.mp hentry
    rfl

/-! ### The output -/

theorem lookup_root {s : Traversal} (h : Traversed info root s) :
    s.inspectedPackages.lookup root = some (info root) := by
  have hroot : root ∈ s.inspectedPackages.map (·.1) := (h.keys root).mpr .refl
  have hvalues := h.values
  generalize s.inspectedPackages = dict at hroot hvalues
  induction dict with
  | nil => cases hroot
  | cons entry dict ih =>
    rw [List.lookup_cons]
    by_cases hentry : root = entry.1
    · rw [hentry, beq_self_eq_true]
      exact congrArg some (hvalues entry (List.mem_cons_self ..))
    · rw [beq_false_of_ne hentry]
      exact ih ((List.mem_cons.mp hroot).resolve_left hentry) fun e he => hvalues e (List.mem_cons_of_mem _ he)

theorem inspectedPackages_eq {s : Traversal} (h : Traversed info root s) :
    s.inspectedPackages = (s.inspectedPackages.map (·.1)).map fun pkg => (pkg, info pkg) := by
  rw [List.map_map]
  conv_lhs => rw [← List.map_id s.inspectedPackages]
  refine List.map_congr_left fun entry hentry => ?_
  exact Prod.ext rfl (h.values entry hentry)

/-- The files in the dictionary are those of its packages. -/
theorem perm_fileDependencies (info : String → PackageInfo) {keys others : List String}
    (hperm : keys.Perm (root :: others)) (hroot : root ∉ others) :
    ((keys.map fun pkg => (pkg, info pkg)).flatMap fun entry =>
      entry.2.msgFiles ++ if entry.1 = root then entry.2.srvFiles else []).Perm
      ((root :: others).flatMap (fun pkg => (info pkg).msgFiles) ++ (info root).srvFiles) := by
  have hothers : (others.flatMap fun pkg => (info pkg).msgFiles ++ if pkg = root then (info pkg).srvFiles else []) =
      others.flatMap fun pkg => (info pkg).msgFiles := by
    refine List.flatMap_congr fun pkg hpkg => ?_
    have hne : pkg ≠ root := fun heq => hroot (heq ▸ hpkg)
    rw [if_neg hne, List.append_nil]
  rw [List.flatMap_map]
  refine (hperm.flatMap_right _).trans ?_
  rw [List.flatMap_cons, List.flatMap_cons, hothers, if_pos rfl, List.append_assoc, List.append_assoc]
  exact List.perm_append_comm.append_left _

theorem listed_packageOutput {s : Traversal} {iterate : List String → List String}
    (hiterate : ∀ names, (iterate names).Perm names) (h : Traversed info root s) :
    ∃ o, packageOutput iterate root s.inspectedPackages = .ok o ∧ Listed info root o := by
  have hothers : ∀ pkg, pkg ∈ iterate ((s.inspectedPackages.map (·.1)).erase root) ↔
      Reachable info root pkg ∧ pkg ≠ root := by
    intro pkg
    rw [(hiterate _).mem_iff, h.keysOnce.mem_erase_iff, h.keys]
    exact and_comm
  unfold packageOutput
  rw [lookup_root h]
  refine ⟨_, rfl, (hiterate _).nodup_iff.mpr (h.keysOnce.erase root), hothers, rfl, rfl, ?_⟩
  have hkeys : (s.inspectedPackages.map (·.1)).Perm
      (root :: iterate ((s.inspectedPackages.map (·.1)).erase root)) :=
    (List.perm_cons_erase ((h.keys root).mpr .refl)).trans ((hiterate _).symm.cons root)
  have hperm := perm_fileDependencies info hkeys fun hroot => ((hothers root).mp hroot).2 rfl
  rwa [← inspectedPackages_eq h] at hperm

/-- **The packages** found and printed are those that can be reached from the root.  The line that is printed holds the
four lists, with semicolons between the lists and number signs between the names and paths of each. -/
theorem packages_traversed_and_printed (info : String → PackageInfo) (root : String)
    (hfinite : {pkg | Reachable info root pkg}.Finite) :
    ∃ s, Ends (Traversal.step info) (.initial root) s ∧ Traversed info root s ∧
      ∀ iterate : List String → List String, (∀ names, (iterate names).Perm names) →
        let paths (files : List InterfaceFile) : String :=
          "#".intercalate (files.map fun f => f.directory ++ "/" ++ f.stem ++ "." ++ f.suffix)
        ∃ o, Listed info root o ∧ printPackageInfo iterate root s.inspectedPackages =
          .ok (";".intercalate ["#".intercalate o.dependencyList, paths o.messageFiles, paths o.serviceFiles,
            paths o.fileDependencies]) := by
  obtain ⟨s, hends, htraversed⟩ := ends_traverse hfinite
  refine ⟨s, hends, htraversed, fun iterate hiterate => ?_⟩
  obtain ⟨o, ho, hlisted⟩ := listed_packageOutput hiterate htraversed
  refine ⟨o, hlisted, ?_⟩
  rw [printPackageInfo, ho]
  rfl

end Packages

/-- Two packages that depend on each other, and the second one on itself. -/
def cyclicInfo (pkgName : String) : PackageInfo where
  pkgName := pkgName
  msgFiles := [⟨"/share/" ++ pkgName ++ "/msg", "Status", "msg"⟩]
  srvFiles := []
  dependencies := if pkgName = "nav" then ["geo", "geo"] else if pkgName = "geo" then ["nav", "geo"] else []

theorem packages_traversed_and_printed_cyclic :
    ∃ s, Ends (Traversal.step cyclicInfo) (.initial "nav") s ∧ Traversed cyclicInfo "nav" s ∧
      ∀ iterate : List String → List String, (∀ names, (iterate names).Perm names) →
        let paths (files : List InterfaceFile) : String :=
          "#".intercalate (files.map fun f => f.directory ++ "/" ++ f.stem ++ "." ++ f.suffix)
        ∃ o, Listed cyclicInfo "nav" o ∧ printPackageInfo iterate "nav" s.inspectedPackages =
          .ok (";".intercalate ["#".intercalate o.dependencyList, paths o.messageFiles, paths o.serviceFiles,
            paths o.fileDependencies]) := by
  refine packages_traversed_and_printed cyclicInfo "nav" (Set.Finite.subset (Set.toFinite {"nav", "geo"}) ?_)
  intro pkg hpkg
  induction hpkg with
  | refl => exact .inl rfl
  | tail _ hdep ih =>
    rcases ih with rfl | rfl
    · rcases List.mem_cons.mp hdep with rfl | hdep
      · exact .inr rfl
      · exact .inr (List.mem_singleton.mp hdep)
    · rcases List.mem_cons.mp hdep with rfl | hdep
      · exact .inl rfl
      · exact .inr (List.mem_singleton.mp hdep)

end Ros2Sh.Rosidl
