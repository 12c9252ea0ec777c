import Mathlib.Data.List.TakeWhile
import Mathlib.Tactic.Common
import Ros2Sh.Rosidl.Adapter
import Ros2Sh.Lib.Fold

/-!
# A reference adapter

An `Adapter` whose `Type` constructor follows that of `rosidl_adapter`: it cuts the brackets off at the last `[`, looks
the rest up among the primitive types, tries it as a bounded string, and otherwise splits it at `/`.
`referenceAdapter_grammar` shows that it reads the notation as `Adapter.Grammar` assumes, so that what is proved under
this assumption is not empty.
-/

namespace Ros2Sh.Rosidl

open Ros2Sh.Lib

/-! ### The constructor -/

/-- `int(digits)`, of a number that has to be positive. -/
def parsePositive (digits : List Char) : Except PyError ℕ :=
  if digits ≠ [] ∧ digits.all Char.isDigit ∧ 0 < Nat.ofDigitChars 10 digits 0 then
    .ok (Nat.ofDigitChars 10 digits 0)
  else .error (.raised "TypeError")

def primitiveTypes : List String :=
  ["bool", "byte", "char", "float32", "float64", "int8", "uint8", "int16", "uint16", "int32", "uint32", "int64",
    "uint64", "string", "wstring"]

/-- The attributes of a `BaseType`. -/
structure BaseType where
  type : String
  pkgName : Option String
  stringUpperBound : Option ℕ

def parseNamed (pkg name : String) : Except PyError BaseType :=
  if isValidPackageName pkg ∧ isValidMessageName name then .ok ⟨name, some pkg, none⟩
  else .error (.raised "InvalidResourceName")

def parseBase (s : List Char) (context : Option String) : Except PyError BaseType :=
  if String.ofList s ∈ primitiveTypes then .ok ⟨String.ofList s, none, none⟩
  else if "string<=".toList <+: s then do return ⟨"string", none, some (← parsePositive (s.drop 8))⟩
  else if "wstring<=".toList <+: s then do return ⟨"wstring", none, some (← parsePositive (s.drop 9))⟩
  else
    match s.dropWhile (· ≠ '/'), context with
    | [], none => .error (.raised "InvalidResourceName")
    | [], some pkg => parseNamed pkg (String.ofList s)
    | _ :: name, _ => parseNamed (String.ofList (s.takeWhile (· ≠ '/'))) (String.ofList name)

/-- The attributes that the brackets of a type give. -/
structure Brackets where
  isArray : Bool
  arraySize : Option ℕ
  isUpperBound : Bool

def parseBrackets (inner : List Char) : Except PyError Brackets :=
  if inner = [] then .ok ⟨true, none, false⟩
  else if "<=".toList <+: inner then do return ⟨true, some (← parsePositive (inner.drop 2)), true⟩
  else do return ⟨true, some (← parsePositive inner), false⟩

/-- The type without its brackets, and what they say. -/
def cutBrackets (s : List Char) : Except PyError (List Char × Brackets) :=
  match s.reverse with
  | ']' :: r =>
    match r.dropWhile (· ≠ '[') with
    | [] => .error (.raised "TypeError")
    | _ :: base => do return (base.reverse, ← parseBrackets (r.takeWhile (· ≠ '[')).reverse)
  | _ => .ok (s, ⟨false, none, false⟩)

def referenceType (typeString : String) (context : Option String) : Except PyError MsgType := do
  let (base, brackets) ← cutBrackets typeString.toList
  let baseType ← parseBase base context
  return ⟨baseType.type, baseType.pkgName, baseType.stringUpperBound, brackets.isArray, brackets.arraySize,
    brackets.isUpperBound⟩

/-- Names are checked; default values and constants are accepted as they are. -/
def referenceAdapter : Adapter where
  type := referenceType
  field type name defaultValue :=
    if isValidFieldName name then .ok ⟨type, name, defaultValue⟩ else .error (.raised "NameError")
  constant type name value := .ok ⟨type, name, value⟩
  messageSpecification pkgName msgName fields constants :=
    if (fields.map (·.name)).Nodup ∧ (constants.map (·.name)).Nodup then .ok ⟨pkgName, msgName, fields, constants⟩
    else .error (.raised "ValueError")
  serviceSpecification pkgName srvName request response := .ok ⟨pkgName, srvName, request, response⟩

/-! ### Characters -/

/-- A character that is not a separator of the notation. -/
def Plain (c : Char) : Prop := c ≠ '/' ∧ c ≠ '<' ∧ c ≠ '[' ∧ c ≠ ']'

instance (c : Char) : Decidable (Plain c) :=
  inferInstanceAs (Decidable (c ≠ '/' ∧ c ≠ '<' ∧ c ≠ '[' ∧ c ≠ ']'))

theorem plain_of_isAlphanum {c : Char} (h : c.isAlphanum) : Plain c := by
  refine ⟨?_, ?_, ?_, ?_⟩ <;>
  · rintro rfl
    exact absurd h (by decide)

theorem isAlphanum_of_isUpper {c : Char} (h : c.isUpper) : c.isAlphanum := by
  show ((c.isUpper || c.isLower) || c.isDigit) = true
  rw [h, Bool.true_or, Bool.true_or]

theorem isAlphanum_of_isLower {c : Char} (h : c.isLower) : c.isAlphanum := by
  show ((c.isUpper || c.isLower) || c.isDigit) = true
  rw [h, Bool.or_true, Bool.true_or]

theorem isAlphanum_of_isDigit {c : Char} (h : c.isDigit) : c.isAlphanum := by
  show ((c.isUpper || c.isLower) || c.isDigit) = true
  rw [h, Bool.or_true]

theorem plain_messageName (name : MessageName) : ∀ c ∈ name.text.toList, Plain c := by
  have hvalid := name.valid
  unfold isValidMessageName at hvalid
  split at hvalid
  · cases hvalid
  · rename_i c cs hcs
    rw [Bool.and_eq_true, List.all_eq_true] at hvalid
    intro d hd
    rw [hcs, List.mem_cons] at hd
    rcases hd with rfl | hd
    · exact plain_of_isAlphanum (isAlphanum_of_isUpper hvalid.1)
    · exact plain_of_isAlphanum (hvalid.2 d hd)

theorem plain_packageName (pkg : PackageName) : ∀ c ∈ pkg.text.toList, Plain c := by
  have hvalid := pkg.valid
  unfold isValidPackageName isValidFieldName at hvalid
  split at hvalid
  · cases hvalid
  · rename_i c cs hcs
    simp only [Bool.and_eq_true, List.all_eq_true, Bool.or_eq_true, beq_iff_eq] at hvalid
    obtain ⟨⟨⟨hc, hall⟩, -⟩, -⟩ := hvalid
    intro d hd
    rw [hcs, List.mem_cons] at hd
    rcases hd with rfl | hd
    · exact plain_of_isAlphanum (isAlphanum_of_isLower hc)
    · rcases hall d hd with (hlower | hdigit) | rfl
      · exact plain_of_isAlphanum (isAlphanum_of_isLower hlower)
      · exact plain_of_isAlphanum (isAlphanum_of_isDigit hdigit)
      · decide

theorem isDigit_of_mem_toString {n : ℕ} : ∀ c ∈ (toString n).toList, c.isDigit := by
  intro c hc
  rw [Nat.toString_eq_repr, Nat.toList_repr] at hc
  exact Nat.isDigit_of_mem_toDigits (by decide) (by decide) hc

theorem plain_toString (n : ℕ) : ∀ c ∈ (toString n).toList, Plain c := fun c hc =>
  plain_of_isAlphanum (isAlphanum_of_isDigit (isDigit_of_mem_toString c hc))

theorem parsePositive_toString (n : ℕ+) : parsePositive (toString (n : ℕ)).toList = .ok (n : ℕ) := by
  have hvalue : Nat.ofDigitChars 10 (toString (n : ℕ)).toList 0 = n := by
    rw [Nat.toString_eq_repr, Nat.toList_repr, Nat.ofDigitChars_ten_toDigits]
  have hne : (toString (n : ℕ)).toList ≠ [] := by
    rw [Nat.toString_eq_repr, Nat.toList_repr]
    exact Nat.toDigits_ne_nil
  have hall : (toString (n : ℕ)).toList.all Char.isDigit := List.all_eq_true.mpr isDigit_of_mem_toString
  unfold parsePositive
  rw [hvalue, if_pos ⟨hne, hall, n.pos⟩]

/-! ### Brackets -/

theorem parseBrackets_bounded (n : ℕ+) :
    parseBrackets ("<=".toList ++ (toString (n : ℕ)).toList) = .ok ⟨true, some (n : ℕ), true⟩ := by
  have hne : "<=".toList ++ (toString (n : ℕ)).toList ≠ [] := by simp
  have hdrop : ("<=".toList ++ (toString (n : ℕ)).toList).drop 2 = (toString (n : ℕ)).toList := rfl
  rw [parseBrackets, if_neg hne, if_pos (List.prefix_append _ _), hdrop, parsePositive_toString]
  rfl

theorem parseBrackets_size (n : ℕ+) :
    parseBrackets (toString (n : ℕ)).toList = .ok ⟨true, some (n : ℕ), false⟩ := by
  have hne : (toString (n : ℕ)).toList ≠ [] := by
    rw [Nat.toString_eq_repr, Nat.toList_repr]
    exact Nat.toDigits_ne_nil
  have hnot : ¬ "<=".toList <+: (toString (n : ℕ)).toList := by
    intro h
    exact (plain_toString n '<' (h.subset (by decide))).2.1 rfl
  rw [parseBrackets, if_neg hne, if_neg hnot, parsePositive_toString]
  rfl

theorem cutBrackets_none {base : List Char} (h : ∀ c ∈ base, c ≠ ']') :
    cutBrackets base = .ok (base, ⟨false, none, false⟩) := by
  unfold cutBrackets
  split
  · rename_i r hr
    have hmem : ']' ∈ base := List.mem_reverse.mp (hr ▸ List.mem_cons_self ..)
    exact absurd rfl (h ']' hmem)
  · rfl

theorem cutBrackets_append {base inner : List Char} (h : ∀ c ∈ inner, c ≠ '[') :
    cutBrackets (base ++ ('[' :: inner ++ [']'])) = (parseBrackets inner).map fun brackets => (base, brackets) := by
  have hreverse : (base ++ ('[' :: inner ++ [']'])).reverse = ']' :: (inner.reverse ++ '[' :: base.reverse) := by
    simp
  have hinner : ∀ c ∈ inner.reverse, decide (c ≠ '[') = true := by
    intro c hc
    simpa using h c (List.mem_reverse.mp hc)
  have hdrop : (inner.reverse ++ '[' :: base.reverse).dropWhile (fun c => decide (c ≠ '[')) = '[' :: base.reverse := by
    rw [List.dropWhile_append_of_pos hinner]
    simp
  have htake : (inner.reverse ++ '[' :: base.reverse).takeWhile (fun c => decide (c ≠ '[')) = inner.reverse := by
    rw [List.takeWhile_append_of_pos hinner]
    simp
  unfold cutBrackets
  rw [hreverse]
  simp only [hdrop, htake, List.reverse_reverse]
  cases parseBrackets inner <;> rfl

theorem cutBrackets_text {base : List Char} (h : ∀ c ∈ base, c ≠ ']') (suffix : Suffix) :
    cutBrackets (base ++ suffix.text.toList) =
      .ok (base, ⟨suffix.isArray, suffix.arraySize, suffix.isUpperBound⟩) := by
  cases suffix with
  | none =>
    have hcut := cutBrackets_none h
    simpa [Suffix.text, Suffix.isArray, Suffix.arraySize, Suffix.isUpperBound] using hcut
  | unboundedSequence =>
    exact @cutBrackets_append base [] (by simp)
  | boundedSequence bound =>
    have hinner : ∀ c ∈ "<=".toList ++ (toString (bound : ℕ)).toList, c ≠ '[' := by
      intro c hc
      rcases List.mem_append.mp hc with hc | hc
      · rintro rfl
        exact absurd hc (by decide)
      · exact (plain_toString bound c hc).2.2.1
    have hcut := @cutBrackets_append base _ hinner
    rw [parseBrackets_bounded] at hcut
    simpa [Suffix.text, arrayUpperBoundToken, Suffix.isArray, Suffix.arraySize, Suffix.isUpperBound, Except.map]
      using hcut
  | array size =>
    have hcut := @cutBrackets_append base _ fun c hc => (plain_toString size c hc).2.2.1
    rw [parseBrackets_size] at hcut
    simpa [Suffix.text, Suffix.isArray, Suffix.arraySize, Suffix.isUpperBound, Except.map] using hcut

/-! ### Bases -/

theorem plain_of_mem_primitiveTypes : ∀ name ∈ primitiveTypes, ∀ c ∈ name.toList, Plain c ∧ c.isUpper = false := by
  have htable : primitiveTypes.all (fun name => name.toList.all fun c => decide (Plain c ∧ c.isUpper = false)) := by
    decide
  intro name hname c hc
  exact of_decide_eq_true (List.all_eq_true.mp (List.all_eq_true.mp htable name hname) c hc)

theorem not_mem_primitiveTypes {s : List Char} {c : Char} (hc : c ∈ s) (h : ¬ (Plain c ∧ c.isUpper = false)) :
    String.ofList s ∉ primitiveTypes := by
  intro hmem
  exact h (plain_of_mem_primitiveTypes _ hmem c (by simpa using hc))

theorem not_prefix_of_plain {s t : List Char} (hs : ∀ c ∈ s, c ≠ '<') (ht : '<' ∈ t) : ¬ t <+: s := fun h =>
  hs '<' (h.subset ht) rfl

theorem parseBase_primitiveType {name : String} (h : name ∈ primitiveTypes) (context : Option String) :
    parseBase name.toList context = .ok ⟨name, none, none⟩ := by
  unfold parseBase
  rw [String.ofList_toList, if_pos h]

theorem parseBase_boundedString (wide : Bool) (bound : ℕ+) (context : Option String) :
    parseBase (Base.text (.string wide (some bound))).toList context =
      .ok ⟨stringName wide, none, some (bound : ℕ)⟩ := by
  have htext : (Base.text (.string wide (some bound))).toList =
      (stringName wide).toList ++ "<=".toList ++ (toString (bound : ℕ)).toList := by
    simp [Base.text, stringUpperBoundToken]
  have hmem : '<' ∈ (stringName wide).toList ++ "<=".toList ++ (toString (bound : ℕ)).toList :=
    List.mem_append_left _ (List.mem_append_right _ (by decide))
  rw [htext]
  unfold parseBase
  rw [if_neg (not_mem_primitiveTypes hmem (by decide))]
  cases wide with
  | false =>
    have hprefix : "string<=".toList <+: (stringName false).toList ++ "<=".toList ++ (toString (bound : ℕ)).toList :=
      List.prefix_append "string<=".toList _
    have hdrop : ((stringName false).toList ++ "<=".toList ++ (toString (bound : ℕ)).toList).drop 8 =
        (toString (bound : ℕ)).toList := rfl
    rw [if_pos hprefix, hdrop, parsePositive_toString]
    rfl
  | true =>
    have hnot : ¬ "string<=".toList <+: (stringName true).toList ++ "<=".toList ++ (toString (bound : ℕ)).toList := by
      rintro ⟨t, ht⟩
      have hhead : some 's' = some 'w' := congrArg List.head? ht
      exact absurd hhead (by decide)
    have hprefix : "wstring<=".toList <+: (stringName true).toList ++ "<=".toList ++ (toString (bound : ℕ)).toList :=
      List.prefix_append "wstring<=".toList _
    have hdrop : ((stringName true).toList ++ "<=".toList ++ (toString (bound : ℕ)).toList).drop 9 =
        (toString (bound : ℕ)).toList := rfl
    rw [if_neg hnot, if_pos hprefix, hdrop, parsePositive_toString]
    rfl

theorem parseNamed_names (pkg : PackageName) (name : MessageName) :
    parseNamed pkg.text name.text = .ok ⟨name.text, some pkg.text, none⟩ := by
  rw [parseNamed, if_pos ⟨pkg.valid, name.valid⟩]

theorem parseBase_qualified (pkg : PackageName) (name : MessageName) (context : Option String) :
    parseBase (pkg.text ++ "/" ++ name.text).toList context = .ok ⟨name.text, some pkg.text, none⟩ := by
  have htext : (pkg.text ++ "/" ++ name.text).toList = pkg.text.toList ++ '/' :: name.text.toList := by simp
  have hslash : '/' ∈ pkg.text.toList ++ '/' :: name.text.toList := by simp
  have hless : ∀ c ∈ pkg.text.toList ++ '/' :: name.text.toList, c ≠ '<' := by
    intro c hc
    rcases List.mem_append.mp hc with hc | hc
    · exact (plain_packageName pkg c hc).2.1
    · rcases List.mem_cons.mp hc with rfl | hc
      · decide
      · exact (plain_messageName name c hc).2.1
  have hpkg : ∀ c ∈ pkg.text.toList, decide (c ≠ '/') = true := by
    intro c hc
    simpa using (plain_packageName pkg c hc).1
  have hdrop : (pkg.text.toList ++ '/' :: name.text.toList).dropWhile (fun c => decide (c ≠ '/')) =
      '/' :: name.text.toList := by
    rw [List.dropWhile_append_of_pos hpkg]
    simp
  have htake : (pkg.text.toList ++ '/' :: name.text.toList).takeWhile (fun c => decide (c ≠ '/')) =
      pkg.text.toList := by
    rw [List.takeWhile_append_of_pos hpkg]
    simp
  rw [htext]
  unfold parseBase
  rw [if_neg (not_mem_primitiveTypes hslash (by decide)), if_neg (not_prefix_of_plain hless (by decide)),
    if_neg (not_prefix_of_plain hless (by decide))]
  simp only [hdrop, htake, String.ofList_toList]
  exact parseNamed_names pkg name

theorem parseBase_relative (name : MessageName) (context : Option PackageName) :
    parseBase name.text.toList (context.map (·.text)) =
      match context with
      | none => .error (.raised "InvalidResourceName")
      | some pkg => .ok ⟨name.text, some pkg.text, none⟩ := by
  have hupper : ∃ c ∈ name.text.toList, c.isUpper = true := by
    have hvalid := name.valid
    unfold isValidMessageName at hvalid
    split at hvalid
    · cases hvalid
    · rename_i c cs hcs
      rw [Bool.and_eq_true] at hvalid
      exact ⟨c, hcs ▸ List.mem_cons_self .., hvalid.1⟩
  obtain ⟨c, hc, hcupper⟩ := hupper
  have hless : ∀ c ∈ name.text.toList, c ≠ '<' := fun c hc => (plain_messageName name c hc).2.1
  have hdrop : name.text.toList.dropWhile (fun c => decide (c ≠ '/')) = [] := by
    rw [List.dropWhile_eq_nil_iff]
    intro c hc
    simpa using (plain_messageName name c hc).1
  unfold parseBase
  rw [if_neg (not_mem_primitiveTypes hc (by simp [hcupper])), if_neg (not_prefix_of_plain hless (by decide)),
    if_neg (not_prefix_of_plain hless (by decide))]
  cases context with
  | none => simp only [hdrop, Option.map_none]
  | some pkg =>
    simp only [hdrop, Option.map_some, String.ofList_toList]
    exact parseNamed_names pkg name

/-- The base of a type is read, if it is given a package where it needs one. -/
theorem parseBase_text (base : Base) (pkg : PackageName) (context : Option PackageName)
    (h : context = some pkg ∨ ∀ name, base ≠ .message none name) :
    parseBase base.text.toList (context.map (·.text)) =
      .ok ⟨base.type, base.pkgName pkg, base.stringUpperBound⟩ := by
  match base with
  | .primitive p => exact parseBase_primitiveType (by cases p <;> decide) _
  | .string wide none => exact parseBase_primitiveType (by cases wide <;> decide) _
  | .string wide (some bound) => exact parseBase_boundedString wide bound _
  | .message (some pkg') name => exact parseBase_qualified pkg' name _
  | .message none name =>
    rcases h with rfl | h
    · exact parseBase_relative name (some pkg)
    · exact absurd rfl (h name)

theorem no_bracket_in_base (base : Base) : ∀ c ∈ base.text.toList, c ≠ ']' := by
  intro c hc
  match base with
  | .primitive p =>
    have hp : p.name ∈ primitiveTypes := by cases p <;> decide
    exact (plain_of_mem_primitiveTypes _ hp c hc).1.2.2.2
  | .string wide none =>
    have hs : stringName wide ∈ primitiveTypes := by cases wide <;> decide
    exact (plain_of_mem_primitiveTypes _ hs c hc).1.2.2.2
  | .string wide (some bound) =>
    have hs : stringName wide ∈ primitiveTypes := by cases wide <;> decide
    simp only [Base.text, stringUpperBoundToken, String.toList_append, List.mem_append] at hc
    rcases hc with (hc | hc) | hc
    · exact (plain_of_mem_primitiveTypes _ hs c hc).1.2.2.2
    · rintro rfl
      exact absurd hc (by decide)
    · exact (plain_toString bound c hc).2.2.2
  | .message (some pkg) name =>
    simp only [Base.text, String.toList_append, List.mem_append] at hc
    rcases hc with (hc | hc) | hc
    · exact (plain_packageName pkg c hc).2.2.2
    · rintro rfl
      exact absurd hc (by decide)
    · exact (plain_messageName name c hc).2.2.2
  | .message none name => exact (plain_messageName name c hc).2.2.2

/-! ### The grammar -/

theorem cutBrackets_typeDecl (t : TypeDecl) :
    cutBrackets t.text.toList =
      .ok (t.base.text.toList, ⟨t.suffix.isArray, t.suffix.arraySize, t.suffix.isUpperBound⟩) := by
  rw [TypeDecl.text, String.toList_append]
  exact cutBrackets_text (no_bracket_in_base t.base) t.suffix

theorem referenceType_text (t : TypeDecl) (pkg : PackageName) (context : Option PackageName)
    (h : context = some pkg ∨ t.NeedsNoContext) :
    referenceType t.text (context.map (·.text)) = .ok (t.parsed pkg) := by
  unfold referenceType
  rw [cutBrackets_typeDecl]
  simp only [bind, Except.bind, parseBase_text t.base pkg context h]
  rfl

/-- **The reference adapter reads the notation of the `.msg` files.** -/
theorem referenceAdapter_grammar : referenceAdapter.Grammar where
  type t context := referenceType_text t context (some context) (.inl rfl)
  type_without_context t context h := referenceType_text t context none (.inr h)
  no_context name suffix := by
    refine ⟨.raised "InvalidResourceName", ?_⟩
    show referenceType (TypeDecl.text ⟨.message none name, suffix⟩) none = _
    unfold referenceType
    rw [cutBrackets_typeDecl]
    have hbase := parseBase_relative name none
    simp only [Option.map_none] at hbase
    simp only [bind, Except.bind, Base.text, hbase]
  field type name defaultValue f h := by
    simp only [referenceAdapter] at h
    split at h
    · cases h
      exact ⟨rfl, rfl⟩
    · cases h
  field_without_default type name h := ⟨⟨type, name, none⟩, by simp [referenceAdapter, h]⟩
  constant type name value c h := by
    cases h
    rfl
  messageSpecification pkgName msgName fields constants spec h := by
    simp only [referenceAdapter] at h
    split at h
    · cases h
      rfl
    · cases h
  messageSpecification_of_nodup pkg name fields constants hf hc :=
    ⟨⟨pkg.text, name.text, fields, constants⟩, if_pos ⟨hf, hc⟩⟩
  serviceSpecification pkgName srvName request response spec h := by
    cases h
    exact ⟨rfl, rfl⟩

end Ros2Sh.Rosidl
