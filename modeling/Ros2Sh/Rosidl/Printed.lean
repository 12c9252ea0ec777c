import Ros2Sh.Lib.Text
import Ros2Sh.Rosidl.Packages

/-!
# What `print_package_info` prints, read back

The script prints four lists in one line, with a semicolon between the lists and a number sign between their elements.
Nothing is escaped.  So splitting the line again gives the lists back exactly when neither sign occurs in the name of a
package or in the path of a file that is printed (`printed_readable_iff`), in whatever order the names are iterated
over.
-/

namespace Ros2Sh.Rosidl

open Ros2Sh.Lib

/-- The lists that are found in the text, when it is split at the semicolons and each part at the number signs. -/
def readLists (text : String) : List (List String) :=
  (text.toList.splitOn ';').map fun part => (partsOf '#' part).map String.ofList

def PackageOutput.lists (o : PackageOutput) : List (List String) :=
  [o.dependencyList, o.messageFiles.map InterfaceFile.str, o.serviceFiles.map InterfaceFile.str,
    o.fileDependencies.map InterfaceFile.str]

/-- Neither of the two signs occurs in the text. -/
def NoSeparator (text : String) : Prop := ';' ∉ text.toList ∧ '#' ∉ text.toList

/-- Neither of the two signs occurs in a name or a path that is printed for the root package. -/
structure Separable (info : String → PackageInfo) (root : String) : Prop where
  packages : ∀ pkg, Reachable info root pkg → pkg ≠ root → NoSeparator pkg
  messageFiles : ∀ pkg, Reachable info root pkg → ∀ file ∈ (info pkg).msgFiles, NoSeparator file.str
  serviceFiles : ∀ file ∈ (info root).srvFiles, NoSeparator file.str

section Text

variable {o : PackageOutput} {info : String → PackageInfo} {root : String}

theorem toList_text (o : PackageOutput) : o.text.toList = [';'].intercalate
    ((o.lists.map fun names => names.map String.toList).map fun parts => ['#'].intercalate parts) := by
  unfold PackageOutput.text
  rw [String.toList_intercalate]
  simp only [PackageOutput.lists, List.map_cons, List.map_nil, String.toList_intercalate]
  rfl

theorem map_ofList_iff {parts : List (List (List Char))} {lists : List (List String)} :
    parts.map (fun part => part.map String.ofList) = lists ↔
      parts = lists.map fun names => names.map String.toList := by
  constructor
  · rintro rfl
    simp
  · rintro rfl
    simp

/-- **The text can be read back** when neither sign occurs in a name and no list has the empty name only. -/
theorem readLists_text_iff (o : PackageOutput) : readLists o.text = o.lists ↔
    ∀ names ∈ o.lists, names ≠ [""] ∧ ∀ name ∈ names, NoSeparator name := by
  have hsplit : readLists o.text =
      ((o.text.toList.splitOn ';').map (partsOf '#')).map fun part => part.map String.ofList := by
    unfold readLists
    rw [List.map_map]
    rfl
  have hempty : ∀ names : List String, names.map String.toList = [[]] ↔ names = [""] := by
    intro names
    rw [List.map_eq_singleton_iff]
    simp
  rw [hsplit, map_ofList_iff, toList_text, lists_read_back_iff (by decide) (by simp [PackageOutput.lists])]
  simp only [List.forall_mem_map, ne_eq, hempty]
  rfl

theorem str_ne (file : InterfaceFile) : file.str ≠ "" := by
  intro h
  have hlist := congrArg String.toList h
  simp [InterfaceFile.str] at hlist

theorem Listed.mem_fileDependencies (h : Listed info root o) {file : InterfaceFile} : file ∈ o.fileDependencies ↔
    (∃ pkg, Reachable info root pkg ∧ file ∈ (info pkg).msgFiles) ∨ file ∈ (info root).srvFiles := by
  have hkeys : ∀ pkg, pkg ∈ root :: o.dependencyList ↔ Reachable info root pkg := by
    intro pkg
    rw [List.mem_cons, h.dependencies]
    constructor
    · rintro (rfl | ⟨hreachable, -⟩)
      · exact .refl
      · exact hreachable
    · intro hreachable
      by_cases hroot : pkg = root
      · exact .inl hroot
      · exact .inr ⟨hreachable, hroot⟩
  rw [h.fileDependencies.mem_iff, List.mem_append, List.mem_flatMap]
  simp only [hkeys]

/-- The names and paths in the lists are those of the packages that can be reached. -/
theorem Listed.separable_iff (h : Listed info root o) (hnames : ∀ pkg, Reachable info root pkg → pkg ≠ "") :
    (∀ names ∈ o.lists, names ≠ [""] ∧ ∀ name ∈ names, NoSeparator name) ↔ Separable info root := by
  have hpackages : o.dependencyList ≠ [""] := by
    intro heq
    have hmem : "" ∈ o.dependencyList := heq ▸ List.mem_singleton_self ""
    exact hnames "" ((h.dependencies "").mp hmem).1 rfl
  have hfiles : ∀ files : List InterfaceFile, files.map InterfaceFile.str ≠ [""] := by
    intro files heq
    obtain ⟨file, -, hfile⟩ := List.map_eq_singleton_iff.mp heq
    exact str_ne file hfile
  constructor
  · intro hlists
    obtain ⟨hdependency, hmessage, hservice, hfile⟩ := (List.forall_mem_cons.trans
      (and_congr_right' (List.forall_mem_cons.trans (and_congr_right' List.forall_mem_cons)))).mp hlists
    refine ⟨fun pkg hreachable hne => ?_, fun pkg hreachable file hmem => ?_, fun file hmem => ?_⟩
    · exact hdependency.2 pkg ((h.dependencies pkg).mpr ⟨hreachable, hne⟩)
    · refine (hfile _ (List.mem_singleton_self _)).2 _ (List.mem_map_of_mem ?_)
      exact h.mem_fileDependencies.mpr (.inl ⟨pkg, hreachable, hmem⟩)
    · exact hservice.2 _ (List.mem_map_of_mem (h.serviceFiles ▸ hmem))
  · intro hseparable
    have hmessages : ∀ name ∈ o.messageFiles.map InterfaceFile.str, NoSeparator name := by
      rw [h.messageFiles]
      exact List.forall_mem_map.mpr (hseparable.messageFiles root .refl)
    have hservices : ∀ name ∈ o.serviceFiles.map InterfaceFile.str, NoSeparator name := by
      rw [h.serviceFiles]
      exact List.forall_mem_map.mpr hseparable.serviceFiles
    have hfileDependencies : ∀ name ∈ o.fileDependencies.map InterfaceFile.str, NoSeparator name := by
      refine List.forall_mem_map.mpr fun file hmem => ?_
      rcases h.mem_fileDependencies.mp hmem with ⟨pkg, hreachable, hmem⟩ | hmem
      · exact hseparable.messageFiles pkg hreachable file hmem
      · exact hseparable.serviceFiles file hmem
    intro names hmem
    simp only [PackageOutput.lists, List.mem_cons, List.not_mem_nil, or_false] at hmem
    rcases hmem with rfl | rfl | rfl | rfl
    · refine ⟨hpackages, fun pkg hpkg => ?_⟩
      obtain ⟨hreachable, hne⟩ := (h.dependencies pkg).mp hpkg
      exact hseparable.packages pkg hreachable hne
    · exact ⟨hfiles _, hmessages⟩
    · exact ⟨hfiles _, hservices⟩
    · exact ⟨hfiles _, hfileDependencies⟩

/-- **The printed line can be read back**, whatever the order of the names, exactly when neither sign occurs in a name
or path that is printed. -/
theorem printed_readable_iff (info : String → PackageInfo) (root : String)
    (hfinite : {pkg | Reachable info root pkg}.Finite) (hnames : ∀ pkg, Reachable info root pkg → pkg ≠ "") :
    ∃ s, Ends (Traversal.step info) (.initial root) s ∧
      ∀ iterate : List String → List String, (∀ names, (iterate names).Perm names) →
        ∃ o, printPackageInfo iterate root s.inspectedPackages = .ok o.text ∧ Listed info root o ∧
          (readLists o.text = o.lists ↔ Separable info root) := by
  obtain ⟨s, hends, htraversed⟩ := ends_traverse hfinite
  refine ⟨s, hends, fun iterate hiterate => ?_⟩
  obtain ⟨o, ho, hlisted⟩ := listed_packageOutput hiterate htraversed
  refine ⟨o, ?_, hlisted, (readLists_text_iff o).trans (hlisted.separable_iff hnames)⟩
  rw [printPackageInfo, ho]
  rfl

end Text

theorem reachable_cyclicInfo {pkg : String} (h : Reachable cyclicInfo "nav" pkg) : pkg = "nav" ∨ pkg = "geo" := by
  have hdependencies : ∀ pkg, ∀ dependency ∈ (cyclicInfo pkg).dependencies,
      dependency = "nav" ∨ dependency = "geo" := by
    intro pkg dependency hmem
    unfold cyclicInfo at hmem
    dsimp only at hmem
    split_ifs at hmem <;> simp_all
  induction h with
  | refl => exact .inl rfl
  | tail _ hdependency _ => exact hdependencies _ _ hdependency

/-- The line that is printed for the two packages can be read back. -/
theorem printed_readable_iff_cyclic : ∃ s, Ends (Traversal.step cyclicInfo) (.initial "nav") s ∧
    ∀ iterate : List String → List String, (∀ names, (iterate names).Perm names) →
      ∃ o, printPackageInfo iterate "nav" s.inspectedPackages = .ok o.text ∧ Listed cyclicInfo "nav" o ∧
        readLists o.text = o.lists := by
  have hfinite : {pkg | Reachable cyclicInfo "nav" pkg}.Finite :=
    (Set.toFinite {"nav", "geo"}).subset fun _ h => reachable_cyclicInfo h
  have hnames : ∀ pkg, Reachable cyclicInfo "nav" pkg → pkg ≠ "" := by
    intro pkg h
    rcases reachable_cyclicInfo h with rfl | rfl <;> decide
  have hseparable : Separable cyclicInfo "nav" := by
    refine ⟨fun pkg h _ => ?_, fun pkg h file hfile => ?_, fun file hfile => (nomatch hfile)⟩
    · rcases reachable_cyclicInfo h with rfl | rfl <;> exact ⟨by decide, by decide⟩
    · obtain rfl := List.mem_singleton.mp hfile
      rcases reachable_cyclicInfo h with rfl | rfl <;> exact ⟨by decide, by decide⟩
  obtain ⟨s, hends, hprinted⟩ := printed_readable_iff cyclicInfo "nav" hfinite hnames
  refine ⟨s, hends, fun iterate hiterate => ?_⟩
  obtain ⟨o, ho, hlisted, hread⟩ := hprinted iterate hiterate
  exact ⟨o, ho, hlisted, hread.mpr hseparable⟩

end Ros2Sh.Rosidl
