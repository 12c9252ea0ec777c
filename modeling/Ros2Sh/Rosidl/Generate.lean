import Mathlib.Data.List.Infix
import Ros2Sh.Converter.Template
import Ros2Sh.Rosidl.ReferenceAdapter
import Ros2Sh.Rosidl.ParserExt

/-!
# `is_ros2_rosidl_generate.py`

`generate_files` applies the templates to two things that it obtains from the same interface on different ways: the
specification, from which the templates choose the members that the generated functions index, and the text of the
`.idl` file, which is embedded into the generated code and from which the dynamic type is made at run time.
`get_idl_from_file` drops the lines of the text that mention the member of an otherwise empty structure.

This file compares the two.  The result is `touchesMembers_iff`: which interfaces the generated functions index exactly
the members that the embedded structures have.
-/

namespace Ros2Sh.Rosidl

open Ros2Sh.Lib Ros2Sh.Converter

/-! ### The embedded text -/

/-- The structures that converters are generated for. -/
inductive Part
  | message
  | request
  | response
  deriving DecidableEq, Repr

/-- A line that the preprocessor puts out.  `member` is the member of one of the structures that the line declares, if
it declares one. -/
structure Line where
  text : String
  member : Option (Part × String)
  named : ∀ part name, member = some (part, name) → name.toList <:+: text.toList
  code : member ≠ none → text ≠ "" ∧ text.toList.head? ≠ some '#'

/-- `line and line[0] != "#" and "structure_needs_at_least_one_member" not in line`. -/
def keepsLine (line : String) : Bool :=
  line != "" && line.toList.head? != some '#' && !decide (placeholder.toList <:+: line.toList)

/-- `get_idl_from_file`; the text is that of its lines. -/
def getIdlFromFile (unrolledIdl : List Line) : List Line := unrolledIdl.filter fun line => keepsLine line.text

/-- The member of the structure `part` that a line declares. -/
def Line.declared (part : Part) (line : Line) : Option String :=
  match line.member with
  | none => none
  | some (part', name) => if part' = part then some name else none

/-- The members of the structure `part` in a text. -/
def members (part : Part) (idl : List Line) : List String := idl.filterMap (Line.declared part)

/-- What the preprocessor puts out for a `.idl` file. -/
structure UnrolledIdl where
  lines : List Line
  nodup : ∀ part, (members part lines).Nodup

/-! ### The specification -/

inductive Spec
  | message (spec : MessageSpecification)
  | service (spec : ServiceSpecification)

def Spec.structures : Spec → List (Part × MessageSpecification)
  | message spec => [(.message, spec)]
  | service spec => [(.request, spec.request), (.response, spec.response)]

def fieldNames (spec : MessageSpecification) : List String := spec.fields.map (·.name)

/-- The members of a structure for which `declared` are declared, in IDL: a structure needs at least one. -/
def idlMembers (declared : List String) : List String := if declared = [] then [placeholder] else declared

/-- The specifications that `generate_files` can obtain together with a text.  For a `.msg` or `.srv` file,
`rosidl_adapter` has written the `.idl` file for the fields of the specification; a `.idl` file is read by
`rosidl_parser`, and then by the functions of `rosidl_parser_ext.py`. -/
inductive Obtained (A : Adapter) (package name : String) (idl : UnrolledIdl) : Spec → Prop
  | fromMsg (spec : MessageSpecification) (h : members .message idl.lines = idlMembers (fieldNames spec)) :
      Obtained A package name idl (.message spec)
  | fromSrv (spec : ServiceSpecification) (hreq : members .request idl.lines = idlMembers (fieldNames spec.request))
      (hres : members .response idl.lines = idlMembers (fieldNames spec.response)) :
      Obtained A package name idl (.service spec)
  | messageFromIdl (idlMsg : IdlMessage) (spec : MessageSpecification)
      (h : idlMsg.members.map (·.name) = idlMembers (members .message idl.lines))
      (hspec : parseIdlMessage A package name idlMsg = .ok spec) : Obtained A package name idl (.message spec)
  | serviceFromIdl (idlSrv : IdlService) (spec : ServiceSpecification)
      (hreq : idlSrv.requestMessage.members.map (·.name) = idlMembers (members .request idl.lines))
      (hres : idlSrv.responseMessage.members.map (·.name) = idlMembers (members .response idl.lines))
      (hspec : parseIdlToServiceSpec A package name idlSrv = .ok spec) : Obtained A package name idl (.service spec)

/-- The fields of a specification, as the templates sort them. -/
def namedFields (spec : MessageSpecification) : List (String × MsgType) := spec.fields.map fun f => (f.name, f.type)

/-- The names with which the generated functions index the dynamic data. -/
def indexedNames (part : Part) (spec : MessageSpecification) : List String :=
  match part with
  | .message => (alphabeticalFields (namedFields spec)).map (·.1)
  | .request => (alphabeticalRequestFields (namedFields spec)).map (·.1)
  | .response => (alphabeticalResponseFields (namedFields spec)).map (·.1)

/-- The generated functions index exactly the members of the embedded structure. -/
def TouchesMembers (idl : UnrolledIdl) (part : Part) (spec : MessageSpecification) : Prop :=
  ∀ name, name ∈ indexedNames part spec ↔ name ∈ members part (getIdlFromFile idl.lines)

/-- A message whose only field is the placeholder. -/
def IsEmptyMessage (part : Part) (spec : MessageSpecification) : Prop :=
  part = .message ∧ fieldNames spec = [placeholder]

/-- No field is the placeholder, and no line that declares one mentions it; or the structure is an empty message. -/
def Unfiltered (idl : UnrolledIdl) (part : Part) (spec : MessageSpecification) : Prop :=
  IsEmptyMessage part spec ∨
    placeholder ∉ fieldNames spec ∧ ∀ line ∈ idl.lines, ∀ name ∈ fieldNames spec, line.declared part = some name →
      ¬ placeholder.toList <:+: line.text.toList

/-! ### Lines -/

section Lines

variable {part : Part} {name : String} {line : Line} {lines : List Line}

theorem declared_eq_some : line.declared part = some name ↔ line.member = some (part, name) := by
  unfold Line.declared
  cases hm : line.member with
  | none => simp
  | some entry =>
    obtain ⟨part', name'⟩ := entry
    by_cases hp : part' = part
    · simp [hp]
    · simp [hp]

theorem mem_members : name ∈ members part lines ↔ ∃ line ∈ lines, line.declared part = some name :=
  List.mem_filterMap

/-- The filter keeps a line that declares a member unless it mentions the placeholder. -/
theorem keepsLine_iff (h : line.declared part = some name) :
    keepsLine line.text = true ↔ ¬ placeholder.toList <:+: line.text.toList := by
  have hmember : line.member ≠ none := by
    rw [declared_eq_some.mp h]
    exact Option.some_ne_none _
  obtain ⟨hne, hhead⟩ := line.code hmember
  simp [keepsLine, hne, hhead]

theorem mem_members_getIdlFromFile :
    name ∈ members part (getIdlFromFile lines) ↔
      ∃ line ∈ lines, line.declared part = some name ∧ ¬ placeholder.toList <:+: line.text.toList := by
  unfold getIdlFromFile
  rw [mem_members]
  refine exists_congr fun line => ?_
  rw [List.mem_filter, and_assoc]
  refine and_congr_right fun _ => ?_
  constructor
  · rintro ⟨hkeeps, hdeclared⟩
    exact ⟨hdeclared, (keepsLine_iff hdeclared).mp hkeeps⟩
  · rintro ⟨hdeclared, hclean⟩
    exact ⟨(keepsLine_iff hdeclared).mpr hclean, hdeclared⟩

theorem placeholder_not_mem : placeholder ∉ members part (getIdlFromFile lines) := by
  rw [mem_members_getIdlFromFile]
  rintro ⟨line, -, hdeclared, hclean⟩
  exact hclean (line.named part placeholder (declared_eq_some.mp hdeclared))

theorem line_unique (idl : UnrolledIdl) {line line' : Line} (hl : line ∈ idl.lines) (hl' : line' ∈ idl.lines)
    (h : line.declared part = some name) (h' : line'.declared part = some name) : line = line' := by
  have hpair := List.pairwise_filterMap.mp (idl.nodup part)
  have hunique : idl.lines.Pairwise fun a b => a.declared part = some name → b.declared part = some name → a = b :=
    hpair.imp fun hne ha hb => absurd rfl (hne name ha name hb)
  have hflip := hunique.imp fun hab hb ha => (hab ha hb).symm
  exact hunique.forall_of_forall_of_flip (fun a _ _ _ => rfl) hflip hl hl' h h'

end Lines

/-! ### The fields of the specification and the members of the text -/

/-- How the names of the fields and the members of the text are related, before the filter. -/
def Agree (fields members : List String) : Prop := members = idlMembers fields ∨ fields = idlMembers members

theorem mem_idlMembers {declared : List String} {name : String} (hne : name ≠ placeholder) :
    name ∈ idlMembers declared ↔ name ∈ declared := by
  unfold idlMembers
  split
  · rename_i hnil
    simp [hnil, hne]
  · rfl

/-- The two differ in the placeholder at most. -/
theorem mem_iff_of_agree {fields members : List String} {name : String} (h : Agree fields members)
    (hne : name ≠ placeholder) : name ∈ fields ↔ name ∈ members := by
  rcases h with rfl | rfl
  · exact (mem_idlMembers hne).symm
  · exact mem_idlMembers hne

/-- Whichever file the specification comes from. -/
theorem agree_of_obtained {A : Adapter} (hA : A.Grammar) {package name : String} {idl : UnrolledIdl} {spec : Spec}
    (h : Obtained A package name idl spec) :
    ∀ s ∈ spec.structures, Agree (fieldNames s.2) (members s.1 idl.lines) := by
  cases h with
  | fromMsg spec h =>
    intro s hs
    obtain rfl := List.mem_singleton.mp hs
    exact .inl h
  | fromSrv spec hreq hres =>
    intro s hs
    rcases List.mem_pair.mp hs with rfl | rfl
    · exact .inl hreq
    · exact .inl hres
  | messageFromIdl idlMsg spec h hspec =>
    intro s hs
    obtain rfl := List.mem_singleton.mp hs
    exact .inr ((parseIdlMessage_names hA hspec).trans h)
  | serviceFromIdl idlSrv spec hreq hres hspec =>
    obtain ⟨hrequest, hresponse⟩ := parseIdlToServiceSpec_names hA hspec
    intro s hs
    rcases List.mem_pair.mp hs with rfl | rfl
    · exact .inr (hrequest.trans hreq)
    · exact .inr (hresponse.trans hres)

/-! ### The members that the generated functions touch -/

theorem map_fst_namedFields (spec : MessageSpecification) : (namedFields spec).map (·.1) = fieldNames spec := by
  simp [namedFields, fieldNames, Function.comp_def]

theorem mem_map_sortedByName {α : Type} {fields : List (String × α)} {name : String} :
    name ∈ (sortedByName fields).map (·.1) ↔ name ∈ fields.map (·.1) :=
  ((sortedByName_perm fields).map _).mem_iff

/-- The functions index the fields of the specification, but none of an empty message. -/
theorem mem_indexedNames {part : Part} {spec : MessageSpecification} {name : String} :
    name ∈ indexedNames part spec ↔ ¬ IsEmptyMessage part spec ∧ name ∈ fieldNames spec := by
  cases part with
  | message =>
    unfold indexedNames IsEmptyMessage
    simp only [alphabeticalFields_eq, map_fst_namedFields]
    split
    · rename_i hempty
      simp [hempty]
    · rename_i hne
      rw [mem_map_sortedByName, map_fst_namedFields]
      simp [hne]
  | request =>
    unfold indexedNames IsEmptyMessage alphabeticalRequestFields
    rw [mem_map_sortedByName, map_fst_namedFields]
    simp
  | response =>
    unfold indexedNames IsEmptyMessage alphabeticalResponseFields
    rw [mem_map_sortedByName, map_fst_namedFields]
    simp

section Structure

variable {idl : UnrolledIdl} {part : Part} {spec : MessageSpecification}

theorem touchesMembers_of_isEmptyMessage (hagree : Agree (fieldNames spec) (members part idl.lines))
    (h : IsEmptyMessage part spec) : TouchesMembers idl part spec := by
  intro name
  have hindexed : name ∉ indexedNames part spec := by
    rw [mem_indexedNames]
    exact fun hmem => hmem.1 h
  have hembedded : name ∉ members part (getIdlFromFile idl.lines) := by
    intro hmem
    have hne : name ≠ placeholder := by
      rintro rfl
      exact placeholder_not_mem hmem
    obtain ⟨line, hline, hdeclared, -⟩ := mem_members_getIdlFromFile.mp hmem
    have hfield := (mem_iff_of_agree hagree hne).mpr (mem_members.mpr ⟨line, hline, hdeclared⟩)
    rw [h.2, List.mem_singleton] at hfield
    exact hne hfield
  exact iff_of_false hindexed hembedded

/-- **One structure.** -/
theorem touchesMembers_structure_iff (hagree : Agree (fieldNames spec) (members part idl.lines)) :
    TouchesMembers idl part spec ↔ Unfiltered idl part spec := by
  by_cases hempty : IsEmptyMessage part spec
  · exact iff_of_true (touchesMembers_of_isEmptyMessage hagree hempty) (.inl hempty)
  constructor
  · intro h
    have hembedded : ∀ name ∈ fieldNames spec, name ∈ members part (getIdlFromFile idl.lines) := fun name hname =>
      (h name).mp (mem_indexedNames.mpr ⟨hempty, hname⟩)
    refine .inr ⟨fun hmem => placeholder_not_mem (hembedded placeholder hmem), ?_⟩
    intro line hline name hname hdeclared
    obtain ⟨line', hline', hdeclared', hclean⟩ := mem_members_getIdlFromFile.mp (hembedded name hname)
    rwa [line_unique idl hline hline' hdeclared hdeclared']
  · rintro (h | ⟨hplaceholder, hclean⟩) name
    · exact absurd h hempty
    rw [mem_indexedNames, mem_members_getIdlFromFile]
    constructor
    · rintro ⟨-, hname⟩
      have hne : name ≠ placeholder := fun heq => hplaceholder (heq ▸ hname)
      obtain ⟨line, hline, hdeclared⟩ := mem_members.mp ((mem_iff_of_agree hagree hne).mp hname)
      exact ⟨line, hline, hdeclared, hclean line hline name hname hdeclared⟩
    · rintro ⟨line, hline, hdeclared, hkept⟩
      have hne : name ≠ placeholder := by
        rintro rfl
        exact hkept (line.named part placeholder (declared_eq_some.mp hdeclared))
      exact ⟨hempty, (mem_iff_of_agree hagree hne).mpr (mem_members.mpr ⟨line, hline, hdeclared⟩)⟩

end Structure

/-- **Which interfaces the generated functions touch exactly the embedded members of.** -/
theorem touchesMembers_iff {A : Adapter} (hA : A.Grammar) {package name : String} {idl : UnrolledIdl} {spec : Spec}
    (h : Obtained A package name idl spec) :
    (∀ s ∈ spec.structures, TouchesMembers idl s.1 s.2) ↔ ∀ s ∈ spec.structures, Unfiltered idl s.1 s.2 :=
  forall₂_congr fun s hs => touchesMembers_structure_iff (agree_of_obtained hA h s hs)

/-- The text for a message with the field `int32 data`. -/
def numberIdl : UnrolledIdl where
  lines := [⟨"# 1 \"Number.idl\"", none, nofun, nofun⟩,
    ⟨"      int32 data;", some (.message, "data"), by rintro _ _ ⟨⟩; decide, by decide⟩]
  nodup := by
    intro part
    cases part <;> decide

def numberSpec : MessageSpecification :=
  ⟨"example_msgs", "Number", [⟨⟨"int32", none, none, false, none, false⟩, "data", none⟩], []⟩

theorem touchesMembers_iff_numberSpec :
    (∀ s ∈ (Spec.message numberSpec).structures, TouchesMembers numberIdl s.1 s.2) ↔
      ∀ s ∈ (Spec.message numberSpec).structures, Unfiltered numberIdl s.1 s.2 := by
  have hspec : parseIdlMessage referenceAdapter "example_msgs" "Number" ⟨[⟨.basicType "int32", "data", []⟩], []⟩ =
      .ok numberSpec := by decide
  exact touchesMembers_iff referenceAdapter_grammar (.messageFromIdl _ numberSpec (by decide) hspec)

/-- The text for a service whose request has no fields, with the field `int32 count` in the response. -/
def resetIdl : UnrolledIdl where
  lines := [⟨"      uint8 structure_needs_at_least_one_member;", some (.request, placeholder),
      by rintro _ _ ⟨⟩; decide, by decide⟩,
    ⟨"      int32 count;", some (.response, "count"), by rintro _ _ ⟨⟩; decide, by decide⟩]
  nodup := by
    intro part
    cases part <;> decide

def resetSrv : IdlService := ⟨⟨[⟨.basicType "uint8", placeholder, []⟩], []⟩, ⟨[⟨.basicType "int32", "count", []⟩], []⟩⟩

/-- The generated request functions index the placeholder, which the filter has dropped. -/
theorem not_touchesMembers_emptyRequest :
    ∃ spec, Obtained referenceAdapter "example_srvs" "Reset" resetIdl (.service spec) ∧
      ¬ ∀ s ∈ (Spec.service spec).structures, TouchesMembers resetIdl s.1 s.2 := by
  have hspec : parseIdlToServiceSpec referenceAdapter "example_srvs" "Reset" resetSrv = .ok
      ⟨"example_srvs", "Reset",
        ⟨"example_srvs", "Reset_Request", [⟨⟨"uint8", none, none, false, none, false⟩, placeholder, none⟩], []⟩,
        ⟨"example_srvs", "Reset_Response", [⟨⟨"int32", none, none, false, none, false⟩, "count", none⟩], []⟩⟩ := by
    decide
  refine ⟨_, .serviceFromIdl resetSrv _ (by decide) (by decide) hspec, fun h => ?_⟩
  have hrequest := h _ (List.mem_cons_self ..) placeholder
  exact placeholder_not_mem (hrequest.mp (by decide))

end Ros2Sh.Rosidl
