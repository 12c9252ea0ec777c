import Mathlib.Data.Int.Notation
import Ros2Sh.Lib.Text

/-!
# Include paths

`find_idl_include_paths` looks for `AMENT_PREFIX_PATH` in the output of `env` and makes the include options of the
preprocessor from the prefixes in its value.  It takes the first line in which the name occurs, as a name, as a part of
a name or in a value, replaces each `=` and `:` in what follows by the option, and cuts the result at the blanks.

The options are those of the prefixes exactly when no prefix has a `=` in it and the first line that mentions the name
is that of the variable, or spells the same prefixes (`extracted_iff`).  What a line spells is a grammar of its value
(`Lists`); that the options are made from just those values is `words_option_iff`.
-/

namespace Ros2Sh.Rosidl

open Ros2Sh.Lib

/-! ### Texts in Python -/

/-- `c.isspace()` -/
def isSpace (c : Char) : Bool :=
  (0x09 ≤ c.toNat && c.toNat ≤ 0x0d) || (0x1c ≤ c.toNat && c.toNat ≤ 0x20) || c.toNat == 0x85 || c.toNat == 0xa0 ||
    c.toNat == 0x1680 || (0x2000 ≤ c.toNat && c.toNat ≤ 0x200a) || c.toNat == 0x2028 || c.toNat == 0x2029 ||
    c.toNat == 0x202f || c.toNat == 0x205f || c.toNat == 0x3000

/-- `text.split()` -/
def splitWords (text : String) : List String := (words isSpace text.toList).map String.ofList

/-- The characters at which `splitlines` ends a line. -/
def isLineBoundary (c : Char) : Bool :=
  (0x0a ≤ c.toNat && c.toNat ≤ 0x0d) || (0x1c ≤ c.toNat && c.toNat ≤ 0x1e) || c.toNat == 0x85 || c.toNat == 0x2028 ||
    c.toNat == 0x2029

/-- A character at the beginning of the first line. -/
def consLine (c : Char) : List (List Char) → List (List Char)
  | [] => [[c]]
  | line :: lines => (c :: line) :: lines

/-- The lines of a text; a carriage return and the line feed after it end one line. -/
def linesOf : List Char → List (List Char)
  | [] => []
  | '\r' :: '\n' :: text => [] :: linesOf text
  | c :: text => if isLineBoundary c then [] :: linesOf text else consLine c (linesOf text)

/-- `text.splitlines()` -/
def splitlines (text : String) : List String := (linesOf text.toList).map String.ofList

/-- `text.find(sub)` -/
def find (text sub : String) : ℤ :=
  match text.toList.tails.findIdx? fun tail => sub.toList.isPrefixOf tail with
  | some i => i
  | none => -1

/-- `text[start:]` -/
def sliceFrom (text : String) (start : ℤ) : String :=
  String.ofList (text.toList.drop (if start < 0 then (text.length + start).toNat else start.toNat))

/-- `text.replace(old, new)`, where `old` is a single character. -/
def replace (text : String) (old : Char) (new : String) : String :=
  String.ofList (text.toList.flatMap fun c => if c = old then new.toList else [c])

/-! ### The script -/

/-- The elements of `includes.split()`. -/
def includesOf (line : String) : List String :=
  let line := sliceFrom line (find line "=")
  let includes := replace (replace line '=' " -I") ':' " -I"
  splitWords includes

/-- `idl_includes` -/
def idlIncludesOf (includes : List String) : String :=
  includes.foldl (fun idlIncludes path => idlIncludes ++ (path ++ "/share ")) ""

/-- `find_idl_include_paths`, where `environment` is what `env` puts out.  The translation of line ends in `sys_call`
makes no difference to the lines. -/
def findIdlIncludePaths (environment : String) : Option String :=
  (splitlines environment).findSome? fun line =>
    if find line "AMENT_PREFIX_PATH" ≥ 0 then some (idlIncludesOf (includesOf line)) else none

/-- The command that `get_idl_from_file` runs; there is none when the concatenation throws. -/
def preprocessCmd (includes : Option String) (idlFile : String) : Option (List String) :=
  includes.map fun includes => splitWords ("cpp -H " ++ includes ++ " " ++ idlFile)

/-! ### The environment -/

structure Variable where
  name : String
  value : String
  deriving DecidableEq, Repr

def Variable.line (v : Variable) : String := v.name ++ "=" ++ v.value

/-- What `env` puts out. -/
def listing (env : List Variable) : String := String.join (env.map fun v => v.line ++ "\n")

/-- An environment in which `AMENT_PREFIX_PATH` is set.  Of the other variables nothing is asked. -/
structure Environment where
  before : List Variable
  prefixes : List String
  after : List Variable
  prefixes_ne_nil : prefixes ≠ []
  valid : ∀ path ∈ prefixes, path ≠ "" ∧ ∀ c ∈ path.toList, isSpace c = false ∧ c ≠ ':'

namespace Environment

def amentPrefixPath (e : Environment) : Variable := ⟨"AMENT_PREFIX_PATH", ":".intercalate e.prefixes⟩

def text (e : Environment) : String := listing (e.before ++ e.amentPrefixPath :: e.after)

/-- The options are those of the prefixes, in their order. -/
def Extracted (e : Environment) : Prop :=
  ∃ idlIncludes, findIdlIncludePaths e.text = some idlIncludes ∧
    splitWords idlIncludes = e.prefixes.map fun path => "-I" ++ path ++ "/share"

end Environment

/-! ### What a value spells -/

/-- Characters that are neither blanks nor replaced. -/
def IsPlain (text : List Char) : Prop := ∀ c ∈ text, isSpace c = false ∧ c ≠ '=' ∧ c ≠ ':'

/-- What may stand between two prefixes: a sign that is replaced, or a blank and the option itself. -/
inductive Separator : List Char → Prop
  | sign {blank : List Char} {c : Char} : IsBlank isSpace blank → c = '=' ∨ c = ':' → Separator (blank ++ [c])
  | option {blank : List Char} : IsBlank isSpace blank → blank ≠ [] → Separator (blank ++ ['-', 'I'])

/-- The values that list the given prefixes. -/
inductive Lists : List Char → List (List Char) → Prop
  | last {path blank : List Char} : IsPlain path → IsBlank isSpace blank → Lists (path ++ blank) [path]
  | cons {path sep value : List Char} {paths : List (List Char)} : IsPlain path → Separator sep → Lists value paths →
      Lists (path ++ (sep ++ value)) (path :: paths)

/-- A line whose value lists the given prefixes. -/
def Spells (line : String) (prefixes : List String) : Prop :=
  ∃ name value, line.toList = name ++ '=' :: value ∧ '=' ∉ name ∧ Lists value (prefixes.map String.toList)

/-! ### The options of a value -/

section Options

variable {path rest sep value word : List Char} {paths : List (List Char)}

/-- Both replacements at once. -/
def replaced (c : Char) : List Char := if c = '=' ∨ c = ':' then " -I".toList else [c]

def option (path : List Char) : List Char := '-' :: 'I' :: path

/-- The text is empty, or begins with a character that ends a prefix. -/
def Stops (text : List Char) : Prop := ∀ c ∈ text.head?, isSpace c = true ∨ c = '=' ∨ c = ':'

theorem replaced_of_ne {c : Char} (h : c ≠ '=' ∧ c ≠ ':') : replaced c = [c] :=
  if_neg (not_or.mpr h)

theorem flatMap_replaced (h : ∀ c ∈ path, c ≠ '=' ∧ c ≠ ':') : path.flatMap replaced = path := by
  induction path with
  | nil => rfl
  | cons c path ih =>
    rw [List.flatMap_cons, replaced_of_ne (h c (List.mem_cons_self ..)), ih fun d hd => h d (List.mem_cons_of_mem _ hd)]
    rfl

theorem isSpace_blank : isSpace ' ' = true := by decide

theorem ne_of_isSpace {c : Char} (h : isSpace c = true) : c ≠ '=' ∧ c ≠ ':' := by
  constructor
  · rintro rfl
    exact absurd h (by decide)
  · rintro rfl
    exact absurd h (by decide)

theorem flatMap_replaced_blank {blank : List Char} (h : IsBlank isSpace blank) : blank.flatMap replaced = blank :=
  flatMap_replaced fun c hc => ne_of_isSpace (h c hc)

theorem isWord_option (h : IsPlain path) : IsWord isSpace (option path) := by
  intro c hc
  rcases List.mem_cons.mp hc with rfl | hc
  · decide
  rcases List.mem_cons.mp hc with rfl | hc
  · decide
  exact (h c hc).1

theorem words_word_append_replaced (h : IsWord isSpace word) (hne : word ≠ []) (hrest : Stops rest) :
    words isSpace (word ++ rest.flatMap replaced) = word :: words isSpace (rest.flatMap replaced) := by
  cases rest with
  | nil =>
    rw [List.flatMap_nil, List.append_nil, words_word h hne]
    rfl
  | cons c rest =>
    obtain ⟨s, more, hs, hspace⟩ : ∃ s more, replaced c = s :: more ∧ isSpace s = true := by
      rcases hrest c rfl with hspace | hsign
      · exact ⟨c, [], replaced_of_ne (ne_of_isSpace hspace), hspace⟩
      · exact ⟨' ', ['-', 'I'], if_pos hsign, isSpace_blank⟩
    rw [List.flatMap_cons, hs, List.cons_append, words_append_cons _ _ hspace, words_word h hne, words_cons hspace]
    rfl

theorem words_separator (h : Separator sep) :
    words isSpace ((sep ++ value).flatMap replaced) = words isSpace (option (value.flatMap replaced)) := by
  cases h with
  | sign hblank hc =>
    rw [List.append_assoc, List.flatMap_append, flatMap_replaced_blank hblank, words_blank_append hblank,
      List.singleton_append, List.flatMap_cons, replaced, if_pos hc]
    exact words_cons isSpace_blank _
  | option hblank hne =>
    rw [List.append_assoc, List.flatMap_append, flatMap_replaced_blank hblank, words_blank_append hblank]
    rfl

theorem stops_separator (h : Separator sep) : Stops (sep ++ value) := by
  cases h with
  | @sign blank c hblank hc =>
    cases blank with
    | nil =>
      intro d hd
      obtain rfl : c = d := Option.some.inj hd
      exact .inr hc
    | cons a blank =>
      intro d hd
      obtain rfl : a = d := Option.some.inj hd
      exact .inl (hblank a (List.mem_cons_self ..))
  | @option blank hblank hne =>
    obtain ⟨a, blank, rfl⟩ := List.exists_cons_of_ne_nil hne
    intro d hd
    obtain rfl : a = d := Option.some.inj hd
    exact .inl (hblank a (List.mem_cons_self ..))

theorem Lists.isPlain (h : Lists value paths) : ∀ path ∈ paths, IsPlain path := by
  induction h with
  | last hpath _ =>
    intro path hmem
    obtain rfl := List.mem_singleton.mp hmem
    exact hpath
  | cons hpath _ _ ih =>
    intro path hmem
    rcases List.mem_cons.mp hmem with rfl | hmem
    · exact hpath
    · exact ih path hmem

theorem words_option_append (hpath : IsPlain path) (hrest : Stops rest) :
    words isSpace (option ((path ++ rest).flatMap replaced)) =
      option path :: words isSpace (rest.flatMap replaced) := by
  rw [List.flatMap_append, flatMap_replaced fun c hc => (hpath c hc).2]
  exact words_word_append_replaced (isWord_option hpath) (List.cons_ne_nil _ _) hrest

theorem Spells.sign_not_mem {line : String} {prefixes : List String} (h : Spells line prefixes) :
    ∀ path ∈ prefixes, '=' ∉ path.toList := by
  obtain ⟨name, value, -, -, hlists⟩ := h
  intro path hpath hsign
  exact (hlists.isPlain _ (List.mem_map_of_mem hpath) _ hsign).2.1 rfl

theorem words_of_lists (h : Lists value paths) :
    words isSpace (option (value.flatMap replaced)) = paths.map option := by
  induction h with
  | @last path blank hpath hblank =>
    have hstops : Stops blank := fun c hc => .inl (hblank c (List.mem_of_head? hc))
    rw [words_option_append hpath hstops, flatMap_replaced_blank hblank, words_blank hblank]
    rfl
  | cons hpath hsep _ ih =>
    rw [words_option_append hpath (stops_separator hsep), words_separator hsep, ih]
    rfl

/-- A text is a plain part and a rest at which the part stops. -/
theorem exists_plain (text : List Char) : ∃ path rest, text = path ++ rest ∧ IsPlain path ∧ Stops rest := by
  obtain ⟨path, rest, htext, hpath, hrest⟩ := exists_span (fun c => !isSpace c && c != '=' && c != ':') text
  refine ⟨path, rest, htext, fun c hc => ?_, fun c hc => ?_⟩
  · simpa [and_assoc] using hpath c hc
  · have hc := hrest c hc
    by_cases hspace : isSpace c = true
    · exact .inl hspace
    by_cases hsign : c = '='
    · exact .inr (.inl hsign)
    · exact .inr (.inr (by simpa [hspace, hsign] using hc))

/-- A text that begins with a plain character and whose words are options begins with an option. -/
theorem option_of_words {c : Char} {text : List Char} (hc : isSpace c = false) (hsign : ¬ (c = '=' ∨ c = ':'))
    (h : words isSpace ((c :: text).flatMap replaced) = paths.map option) :
    ∃ value, c :: text = option value ∧ words isSpace (option (value.flatMap replaced)) = paths.map option := by
  obtain ⟨word, rest, htext, hword, hrest⟩ := exists_plain (c :: text)
  have hne : word ≠ [] := by
    rintro rfl
    obtain rfl : c :: text = rest := htext
    rcases hrest c rfl with hspace | hsign'
    · exact absurd (hc.symm.trans hspace) (by decide)
    · exact hsign hsign'
  have hwords := words_word_append_replaced (fun d hd => (hword d hd).1) hne hrest
  rw [htext, List.flatMap_append, flatMap_replaced fun d hd => (hword d hd).2, hwords] at h
  cases paths with
  | nil => exact absurd h (List.cons_ne_nil _ _)
  | cons path paths =>
    obtain ⟨rfl, hothers⟩ := List.cons.inj h
    have hpath : IsPlain path := fun d hd => hword d (List.mem_cons_of_mem _ (List.mem_cons_of_mem _ hd))
    refine ⟨path ++ rest, htext, ?_⟩
    rw [words_option_append hpath hrest, hothers]
    rfl

/-- What follows a prefix when its words are options: blanks, or a separator and a value. -/
theorem separator_of_words (hrest : Stops rest) (h : words isSpace (rest.flatMap replaced) = paths.map option) :
    (paths = [] ∧ IsBlank isSpace rest) ∨
      ∃ sep value, rest = sep ++ value ∧ Separator sep ∧
        words isSpace (option (value.flatMap replaced)) = paths.map option := by
  obtain ⟨blank, text, rfl, hblank, htext⟩ := exists_span isSpace rest
  rw [List.flatMap_append, flatMap_replaced_blank hblank, words_blank_append hblank] at h
  cases text with
  | nil =>
    rw [List.append_nil]
    exact .inl ⟨List.map_eq_nil_iff.mp h.symm, hblank⟩
  | cons c text =>
    have hc : isSpace c = false := htext c rfl
    by_cases hsign : c = '=' ∨ c = ':'
    · have hsep : Separator ([] ++ [c]) := .sign (fun _ h => nomatch h) hsign
      refine .inr ⟨blank ++ [c], text, by simp, .sign hblank hsign, ?_⟩
      exact (words_separator hsep).symm.trans h
    · have hne : blank ≠ [] := by
        rintro rfl
        rcases hrest c rfl with hspace | hsign'
        · exact absurd (hc.symm.trans hspace) (by decide)
        · exact hsign hsign'
      obtain ⟨value, hoption, hvalue⟩ := option_of_words hc hsign h
      refine .inr ⟨blank ++ ['-', 'I'], value, ?_, .option hblank hne, hvalue⟩
      rw [hoption, List.append_assoc]
      rfl

theorem lists_of_words (h : words isSpace (option (value.flatMap replaced)) = paths.map option) :
    Lists value paths := by
  induction paths generalizing value with
  | nil =>
    obtain ⟨word, rest, rfl, hword, hrest⟩ := exists_plain value
    rw [words_option_append hword hrest] at h
    exact absurd h (List.cons_ne_nil _ _)
  | cons path paths ih =>
    obtain ⟨word, rest, rfl, hword, hrest⟩ := exists_plain value
    rw [words_option_append hword hrest] at h
    obtain ⟨hfirst, hothers⟩ := List.cons.inj h
    obtain rfl : word = path := by simpa [option] using hfirst
    rcases separator_of_words hrest hothers with ⟨rfl, hblank⟩ | ⟨sep, value, rfl, hsep, hvalue⟩
    · exact .last hword hblank
    · exact .cons hword hsep (ih hvalue)

/-- The options made from a value are those of the prefixes it lists. -/
theorem words_option_iff :
    words isSpace (option (value.flatMap replaced)) = paths.map option ↔ Lists value paths :=
  ⟨lists_of_words, words_of_lists⟩

end Options

/-! ### Lines -/

section Lines

variable {xs line : List Char}

theorem linesOf_cons {c : Char} (h : isLineBoundary c = false) (text : List Char) :
    linesOf (c :: text) = consLine c (linesOf text) := by
  have hcr : c ≠ '\r' := by
    rintro rfl
    exact absurd h (by decide)
  rw [linesOf, if_neg (by simp [h])]
  intro _ heq _
  exact hcr heq

theorem linesOf_ne_nil (h : xs ≠ []) : linesOf xs ≠ [] := by
  fun_cases linesOf xs with
  | case1 => exact absurd rfl h
  | case2 text => exact List.cons_ne_nil _ _
  | case3 c text hpair hc => exact List.cons_ne_nil _ _
  | case4 c text hpair hc =>
    cases linesOf text with
    | nil => exact List.cons_ne_nil _ _
    | cons line lines => exact List.cons_ne_nil _ _

theorem consLine_append {c : Char} {lines : List (List Char)} (h : lines ≠ []) (more : List (List Char)) :
    consLine c (lines ++ more) = consLine c lines ++ more := by
  cases lines with
  | nil => exact absurd rfl h
  | cons line lines => rfl

theorem linesOf_append (xs rest : List Char) :
    linesOf (xs ++ '\n' :: rest) = linesOf (xs ++ ['\n']) ++ linesOf rest := by
  fun_induction linesOf xs with
  | case1 => rfl
  | case2 text ih =>
    show [] :: linesOf (text ++ '\n' :: rest) = ([] :: linesOf (text ++ ['\n'])) ++ linesOf rest
    rw [ih]
    rfl
  | case3 c text hpair hc ih =>
    by_cases hcr : c = '\r' ∧ text = []
    · -- the line feed belongs to the carriage return before it
      obtain ⟨rfl, rfl⟩ := hcr
      rfl
    have hcons : ∀ rest, linesOf (c :: (text ++ '\n' :: rest)) = [] :: linesOf (text ++ '\n' :: rest) := by
      intro rest
      rw [linesOf, if_pos hc]
      intro text' hc' htext
      cases text with
      | nil => exact hcr ⟨hc', rfl⟩
      | cons d text => exact hpair text hc' (by rw [(List.cons.inj htext).1])
    rw [List.cons_append, List.cons_append, hcons, hcons, ih]
    rfl
  | case4 c text hpair hc ih =>
    have hc : isLineBoundary c = false := by simpa using hc
    rw [List.cons_append, List.cons_append, linesOf_cons hc, linesOf_cons hc, ih]
    exact consLine_append (linesOf_ne_nil (List.append_ne_nil_of_right_ne_nil _ (List.cons_ne_nil _ _))) _

theorem linesOf_line (h : ∀ c ∈ line, isLineBoundary c = false) : linesOf (line ++ ['\n']) = [line] := by
  induction line with
  | nil => rfl
  | cons c line ih =>
    rw [List.cons_append, linesOf_cons (h c (List.mem_cons_self ..)), ih fun d hd => h d (List.mem_cons_of_mem _ hd)]
    rfl

end Lines

/-! ### The options of a line -/

section Line

variable {line : String} {prefixes : List String}

/-- The name occurs in the line. -/
def mentions (line : String) : Bool := decide ("AMENT_PREFIX_PATH".toList <:+: line.toList)

theorem find_nonneg_iff (text sub : String) : find text sub ≥ 0 ↔ sub.toList <:+: text.toList := by
  have hsome : (text.toList.tails.findIdx? fun tail => sub.toList.isPrefixOf tail).isSome ↔
      sub.toList <:+: text.toList := by
    rw [List.findIdx?_isSome, List.any_eq_true, List.infix_iff_prefix_suffix]
    exact exists_congr fun tail => by rw [List.mem_tails, List.isPrefixOf_iff_prefix, and_comm]
  rw [← hsome]
  unfold find
  cases text.toList.tails.findIdx? fun tail => sub.toList.isPrefixOf tail with
  | none => exact ⟨fun h => absurd h (by decide), fun h => absurd h (by simp)⟩
  | some i => exact ⟨fun _ => rfl, fun _ => Int.natCast_nonneg i⟩

theorem findIdlIncludePaths_eq (environment : String) :
    findIdlIncludePaths environment =
      ((splitlines environment).find? mentions).map fun line => idlIncludesOf (includesOf line) := by
  unfold findIdlIncludePaths
  induction splitlines environment with
  | nil => rfl
  | cons line lines ih =>
    rw [List.findSome?_cons, List.find?_cons]
    by_cases h : "AMENT_PREFIX_PATH".toList <:+: line.toList
    · rw [if_pos ((find_nonneg_iff ..).mpr h), show mentions line = true from decide_eq_true h]
      rfl
    · rw [if_neg (mt (find_nonneg_iff ..).mp h), show mentions line = false from decide_eq_false h]
      exact ih

theorem findIdx?_tails {name : List Char} (h : '=' ∉ name) (value : List Char) :
    (name ++ '=' :: value).tails.findIdx? (fun tail => ['='].isPrefixOf tail) = some name.length := by
  induction name with
  | nil =>
    rw [List.nil_append, List.tails_cons, List.findIdx?_cons, if_pos (by simp)]
    rfl
  | cons c name ih =>
    have hc : '=' ≠ c := fun hc => h (hc ▸ List.mem_cons_self ..)
    rw [List.cons_append, List.tails_cons, List.findIdx?_cons, if_neg (by simp [hc]),
      ih fun hmem => h (List.mem_cons_of_mem _ hmem)]
    rfl

theorem findIdx?_tails_none {text : List Char} (h : '=' ∉ text) :
    text.tails.findIdx? (fun tail => ['='].isPrefixOf tail) = none := by
  rw [List.findIdx?_eq_none_iff]
  intro tail htail
  cases tail with
  | nil => rfl
  | cons c tail =>
    have hc : '=' ≠ c := fun hc => h (((List.mem_tails ..).mp htail).subset (hc ▸ List.mem_cons_self ..))
    exact Bool.eq_false_iff.mpr fun hp => hc (List.cons_prefix_cons.mp (List.isPrefixOf_iff_prefix.mp hp)).1

theorem sliceFrom_find {name value : List Char} (hline : line.toList = name ++ '=' :: value) (h : '=' ∉ name) :
    (sliceFrom line (find line "=")).toList = '=' :: value := by
  have hfind : find line "=" = name.length := by
    unfold find
    rw [hline]
    show (match (name ++ '=' :: value).tails.findIdx? (fun tail => ['='].isPrefixOf tail) with
      | some i => (i : ℤ)
      | none => -1) = _
    rw [findIdx?_tails h]
  rw [hfind, sliceFrom, if_neg (by omega), String.toList_ofList, hline]
  exact List.drop_left

/-- Of a line without the sign the last character is left. -/
theorem sliceFrom_find_none (h : '=' ∉ line.toList) :
    (sliceFrom line (find line "=")).toList = [] ∨ ∃ c, (sliceFrom line (find line "=")).toList = [c] := by
  have hfind : find line "=" = -1 := by
    unfold find
    show (match line.toList.tails.findIdx? (fun tail => ['='].isPrefixOf tail) with
      | some i => (i : ℤ)
      | none => -1) = _
    rw [findIdx?_tails_none h]
  have hlength : (sliceFrom line (find line "=")).toList.length ≤ 1 := by
    rw [hfind, sliceFrom, if_pos (by decide), String.toList_ofList, List.length_drop, String.length_toList]
    omega
  cases htext : (sliceFrom line (find line "=")).toList with
  | nil => exact .inl rfl
  | cons c text =>
    rw [htext, List.length_cons] at hlength
    obtain rfl : text = [] := List.eq_nil_of_length_eq_zero (by omega)
    exact .inr ⟨c, rfl⟩

theorem toList_replace_replace (text : String) :
    (replace (replace text '=' " -I") ':' " -I").toList = text.toList.flatMap replaced := by
  simp only [replace, String.toList_ofList, List.flatMap_assoc]
  refine List.flatMap_congr fun c _ => ?_
  unfold replaced
  by_cases hequals : c = '='
  · rw [if_pos hequals, if_pos (.inl hequals)]
    rfl
  by_cases hcolon : c = ':'
  · rw [if_neg hequals, if_pos (.inr hcolon), List.flatMap_singleton, if_pos hcolon]
  · rw [if_neg hequals, if_neg (not_or.mpr ⟨hequals, hcolon⟩), List.flatMap_singleton, if_neg hcolon]

theorem includesOf_eq (line : String) : includesOf line =
    (words isSpace ((sliceFrom line (find line "=")).toList.flatMap replaced)).map String.ofList := by
  rw [← toList_replace_replace]
  rfl

theorem map_ofList_eq_iff {found : List (List Char)} :
    found.map String.ofList = prefixes.map ("-I" ++ ·) ↔ found = (prefixes.map String.toList).map option := by
  have hoption : ∀ path : String, (String.ofList (option path.toList)) = "-I" ++ path := by
    intro path
    rw [← String.toList_inj, String.toList_ofList, String.toList_append]
    rfl
  have hmap : prefixes.map ("-I" ++ ·) = ((prefixes.map String.toList).map option).map String.ofList := by
    rw [List.map_map, List.map_map]
    exact List.map_congr_left fun path _ => (hoption path).symm
  rw [hmap]
  exact List.map_inj_right fun _ _ h => String.ofList_injective h

theorem ne_map_option {text : List Char} {paths : List (List Char)} (htext : text = [] ∨ ∃ c, text = [c])
    (hpaths : paths ≠ []) (hnil : [] ∉ paths) : words isSpace (text.flatMap replaced) ≠ paths.map option := by
  obtain ⟨path, paths, rfl⟩ := List.exists_cons_of_ne_nil hpaths
  have hpath : path ≠ [] := fun h => hnil (h ▸ List.mem_cons_self ..)
  rcases htext with rfl | ⟨c, rfl⟩
  · exact (List.cons_ne_nil _ _).symm
  rw [List.flatMap_singleton]
  intro h
  by_cases hsign : c = '=' ∨ c = ':'
  · have hwords : words isSpace (replaced c) = [['-', 'I']] := by
      rw [replaced, if_pos hsign]
      decide
    obtain ⟨hoption, -⟩ := List.cons.inj (hwords.symm.trans h)
    exact hpath (by simpa [option] using hoption.symm)
  rw [replaced, if_neg hsign] at h
  by_cases hspace : isSpace c = true
  · have hblank : IsBlank isSpace [c] := fun d hd => List.mem_singleton.mp hd ▸ hspace
    rw [words_blank hblank] at h
    exact List.cons_ne_nil _ _ h.symm
  · have hword : IsWord isSpace [c] := fun d hd => List.mem_singleton.mp hd ▸ by simpa using hspace
    rw [words_word hword (List.cons_ne_nil _ _)] at h
    obtain ⟨hoption, -⟩ := List.cons.inj h
    exact absurd (congrArg List.length hoption) (by simp [option])

theorem includesOf_iff (hprefixes : prefixes ≠ []) (hne : ∀ path ∈ prefixes, path ≠ "") :
    includesOf line = prefixes.map ("-I" ++ ·) ↔ Spells line prefixes := by
  rw [includesOf_eq, map_ofList_eq_iff]
  by_cases hsign : '=' ∈ line.toList
  · obtain ⟨name, value, hline, hname⟩ := List.eq_append_cons_of_mem hsign
    have hspells : Spells line prefixes ↔ Lists value (prefixes.map String.toList) := by
      constructor
      · rintro ⟨name', value', hline', hname', hlists⟩
        obtain ⟨-, rfl⟩ := append_cons_inj hname hname' (hline.symm.trans hline')
        exact hlists
      · exact fun hlists => ⟨name, value, hline, hname, hlists⟩
    rw [hspells, ← words_option_iff, sliceFrom_find hline hname]
    show words isSpace (' ' :: option (value.flatMap replaced)) = _ ↔ _
    rw [words_cons isSpace_blank]
  · have hpaths : prefixes.map String.toList ≠ [] := fun h => hprefixes (List.map_eq_nil_iff.mp h)
    have hnil : [] ∉ prefixes.map String.toList := by
      intro hmem
      obtain ⟨path, hpath, heq⟩ := List.mem_map.mp hmem
      exact hne path hpath (String.toList_eq_nil_iff.mp heq)
    constructor
    · exact fun hwords => absurd hwords (ne_map_option (sliceFrom_find_none hsign) hpaths hnil)
    · rintro ⟨name, value, hline, -⟩
      exact absurd (hline ▸ List.mem_append_right _ (List.mem_cons_self ..)) hsign

theorem share_injective {paths paths' : List String} (h : paths.map (· ++ "/share") = paths'.map (· ++ "/share")) :
    paths = paths' := by
  refine List.map_injective_iff.mpr (fun path path' heq => ?_) h
  have hlist : path.toList ++ "/share".toList = path'.toList ++ "/share".toList := by
    rw [← String.toList_append, ← String.toList_append]
    exact congrArg String.toList heq
  exact String.toList_inj.mp (List.append_cancel_right hlist)

theorem isWord_of_mem_includesOf {path : String} (h : path ∈ includesOf line) :
    IsWord isSpace path.toList ∧ path.toList ≠ [] := by
  rw [includesOf_eq] at h
  obtain ⟨word, hword, rfl⟩ := List.mem_map.mp h
  rw [String.toList_ofList]
  exact isWord_of_mem_words hword

theorem toList_idlIncludesOf (paths : List String) : (idlIncludesOf paths).toList =
    (paths.map fun path => path.toList ++ "/share".toList).flatMap fun word => word ++ [' '] := by
  have hfold : ∀ acc : String,
      (paths.foldl (fun idlIncludes path => idlIncludes ++ (path ++ "/share ")) acc).toList =
        acc.toList ++ (paths.map fun path => path.toList ++ "/share".toList).flatMap fun word => word ++ [' '] := by
    induction paths with
    | nil => simp
    | cons path paths ih =>
      intro acc
      rw [List.foldl_cons, ih, List.map_cons, List.flatMap_cons, String.toList_append, String.toList_append]
      simp
  exact hfold ""

theorem splitWords_idlIncludesOf (line : String) :
    splitWords (idlIncludesOf (includesOf line)) = (includesOf line).map (· ++ "/share") := by
  have hshare : IsWord isSpace "/share".toList := by
    intro c hc
    have hall : ("/share".toList.all fun c => !isSpace c) = true := by decide
    simpa using List.all_eq_true.mp hall c hc
  have hwords : ∀ word ∈ (includesOf line).map fun path => path.toList ++ "/share".toList,
      IsWord isSpace word ∧ word ≠ [] := by
    intro word hmem
    obtain ⟨path, hpath, rfl⟩ := List.mem_map.mp hmem
    obtain ⟨hword, hne⟩ := isWord_of_mem_includesOf hpath
    refine ⟨fun c hc => ?_, List.append_ne_nil_of_left_ne_nil hne _⟩
    rcases List.mem_append.mp hc with hc | hc
    · exact hword c hc
    · exact hshare c hc
  unfold splitWords
  rw [toList_idlIncludesOf, words_flatMap hwords isSpace_blank, List.map_map]
  refine List.map_congr_left fun path _ => ?_
  show String.ofList (path.toList ++ "/share".toList) = path ++ "/share"
  rw [← String.toList_append, String.ofList_toList]

end Line

/-! ### The first line that mentions the name -/

namespace Environment

theorem splitlines_listing (env : List Variable) :
    splitlines (listing env) = env.flatMap fun v => splitlines (v.line ++ "\n") := by
  have hlines : ∀ text : String, splitlines text = (linesOf text.toList).map String.ofList := fun _ => rfl
  simp only [hlines, listing, String.toList_join, String.toList_append, List.flatMap_map]
  show (linesOf (env.flatMap fun v => v.line.toList ++ ['\n'])).map String.ofList = _
  induction env with
  | nil => rfl
  | cons v env ih =>
    rw [List.flatMap_cons, List.append_assoc, List.singleton_append, linesOf_append, List.map_append, ih]
    rfl

theorem isSpace_of_isLineBoundary {c : Char} (h : isLineBoundary c = true) : isSpace c = true := by
  simp only [isLineBoundary, isSpace, Bool.or_eq_true, Bool.and_eq_true, decide_eq_true_eq, beq_iff_eq] at h ⊢
  omega

theorem lists_intercalate {paths : List (List Char)} (hpaths : paths ≠ []) (hplain : ∀ path ∈ paths, IsPlain path) :
    Lists ([':'].intercalate paths) paths := by
  induction paths with
  | nil => exact absurd rfl hpaths
  | cons path paths ih =>
    have hpath : IsPlain path := hplain path (List.mem_cons_self ..)
    have hblank : IsBlank isSpace ([] : List Char) := fun _ h => nomatch h
    cases paths with
    | nil =>
      have hlists : Lists (path ++ []) [path] := .last hpath hblank
      rw [List.append_nil] at hlists
      rwa [List.intercalate_singleton]
    | cons next paths =>
      rw [List.intercalate_cons_cons, List.append_assoc]
      exact .cons hpath (.sign hblank (.inr rfl))
        (ih (List.cons_ne_nil _ _) fun path hmem => hplain path (List.mem_cons_of_mem _ hmem))

variable (e : Environment)

theorem toList_amentPrefixPath : e.amentPrefixPath.line.toList =
    "AMENT_PREFIX_PATH".toList ++ '=' :: [':'].intercalate (e.prefixes.map String.toList) := by
  rw [Variable.line, String.toList_append, String.toList_append, List.append_assoc]
  show _ ++ ('=' :: (":".intercalate e.prefixes).toList) = _
  rw [String.toList_intercalate]
  rfl

theorem splitlines_amentPrefixPath :
    splitlines (e.amentPrefixPath.line ++ "\n") = [e.amentPrefixPath.line] := by
  have hname : ("AMENT_PREFIX_PATH".toList.all fun c => !isLineBoundary c) = true := by decide
  have hline : ∀ c ∈ e.amentPrefixPath.line.toList, isLineBoundary c = false := by
    intro c hc
    rw [toList_amentPrefixPath] at hc
    rcases List.mem_append.mp hc with hc | hc
    · simpa using List.all_eq_true.mp hname c hc
    rcases List.mem_cons.mp hc with rfl | hc
    · decide
    rcases mem_intercalate hc with hc | ⟨path, hpath, hc⟩
    · obtain rfl := List.mem_singleton.mp hc
      decide
    obtain ⟨path, hmem, rfl⟩ := List.mem_map.mp hpath
    refine Bool.eq_false_iff.mpr fun hboundary => ?_
    exact absurd (((e.valid path hmem).2 c hc).1.symm.trans (isSpace_of_isLineBoundary hboundary)) (by decide)
  unfold splitlines
  rw [String.toList_append, show "\n".toList = ['\n'] from rfl, linesOf_line hline, List.map_singleton,
    String.ofList_toList]

theorem mentions_amentPrefixPath : mentions e.amentPrefixPath.line = true := by
  have hinfix : "AMENT_PREFIX_PATH".toList <:+: e.amentPrefixPath.line.toList := by
    rw [toList_amentPrefixPath]
    exact (List.prefix_append ..).isInfix
  exact decide_eq_true hinfix

theorem splitlines_text : splitlines e.text =
    splitlines (listing e.before) ++ e.amentPrefixPath.line :: splitlines (listing e.after) := by
  rw [text, splitlines_listing, splitlines_listing, splitlines_listing, List.flatMap_append, List.flatMap_cons,
    splitlines_amentPrefixPath]
  rfl

/-- The line of the variable spells its prefixes when none has the sign in it. -/
theorem spells_amentPrefixPath_iff :
    Spells e.amentPrefixPath.line e.prefixes ↔ ∀ path ∈ e.prefixes, '=' ∉ path.toList := by
  refine ⟨Spells.sign_not_mem, fun hsigns => ?_⟩
  have hpaths : e.prefixes.map String.toList ≠ [] := fun h => e.prefixes_ne_nil (List.map_eq_nil_iff.mp h)
  refine ⟨_, _, toList_amentPrefixPath e, by decide, lists_intercalate hpaths ?_⟩
  rintro path hpath c hc
  obtain ⟨path, hmem, rfl⟩ := List.mem_map.mp hpath
  obtain ⟨hspace, hcolon⟩ := (e.valid path hmem).2 c hc
  exact ⟨hspace, fun h => hsigns path hmem (h ▸ hc), hcolon⟩

/-- **Include path extraction.**  The options are those of the prefixes exactly when no prefix has a `=` in it and the
first line before the variable that mentions its name, if there is one, spells the same prefixes. -/
theorem extracted_iff : e.Extracted ↔
    (∀ path ∈ e.prefixes, '=' ∉ path.toList) ∧
      ∀ line, (splitlines (listing e.before)).find? mentions = some line → Spells line e.prefixes := by
  have hne : ∀ path ∈ e.prefixes, path ≠ "" := fun path hpath => (e.valid path hpath).1
  -- the options are made from the first line that mentions the name
  have hfirst : ∀ line, (splitlines e.text).find? mentions = some line →
      (e.Extracted ↔ Spells line e.prefixes) := by
    intro line hline
    have hshare : (e.prefixes.map fun path => "-I" ++ path ++ "/share") =
        (e.prefixes.map ("-I" ++ ·)).map (· ++ "/share") := by
      rw [List.map_map]
      rfl
    rw [Extracted, findIdlIncludePaths_eq, hline, ← includesOf_iff e.prefixes_ne_nil hne, hshare]
    constructor
    · rintro ⟨idlIncludes, hfound, hwords⟩
      obtain rfl := Option.some.inj hfound
      rw [splitWords_idlIncludesOf] at hwords
      exact share_injective hwords
    · intro hincludes
      exact ⟨_, rfl, (splitWords_idlIncludesOf line).trans (congrArg _ hincludes)⟩
  rw [splitlines_text, List.find?_append, List.find?_cons, mentions_amentPrefixPath] at hfirst
  cases hbefore : (splitlines (listing e.before)).find? mentions with
  | none =>
    rw [hbefore] at hfirst
    rw [hfirst _ rfl, spells_amentPrefixPath_iff]
    exact ⟨fun hsigns => ⟨hsigns, fun _ h => nomatch h⟩, fun h => h.1⟩
  | some line =>
    rw [hbefore] at hfirst
    rw [hfirst _ rfl]
    constructor
    · intro hspells
      exact ⟨hspells.sign_not_mem, fun line' hline' => Option.some.inj hline' ▸ hspells⟩
    · exact fun h => h.2 line rfl

theorem Extracted.preprocessCmd_eq {e : Environment} (h : e.Extracted) (idlFile : String) :
    preprocessCmd (findIdlIncludePaths e.text) idlFile =
      some (["cpp", "-H"] ++ (e.prefixes.map fun path => "-I" ++ path ++ "/share") ++ splitWords idlFile) := by
  obtain ⟨idlIncludes, hfound, hwords⟩ := h
  have hcmd : ("cpp -H " ++ idlIncludes ++ " " ++ idlFile).toList =
      "cpp -H".toList ++ ' ' :: (idlIncludes.toList ++ ' ' :: idlFile.toList) := by
    simp
  have hcpp : (words isSpace "cpp -H".toList).map String.ofList = ["cpp", "-H"] := by decide
  rw [hfound, ← hwords, ← hcpp]
  show some ((words isSpace _).map String.ofList) = _
  rw [hcmd, words_append_cons _ _ isSpace_blank, words_append_cons _ _ isSpace_blank, List.map_append, List.map_append,
    List.append_assoc]
  rfl

theorem valid_of_all {prefixes : List String}
    (h : prefixes.all fun path => path != "" && path.toList.all fun c => !isSpace c && c != ':') :
    ∀ path ∈ prefixes, path ≠ "" ∧ ∀ c ∈ path.toList, isSpace c = false ∧ c ≠ ':' := by
  intro path hpath
  simpa using List.all_eq_true.mp h path hpath

/-- A variable whose name ends in that of the prefixes comes first. -/
def shadowed : Environment where
  before := [⟨"OLD_AMENT_PREFIX_PATH", "/opt/ros/eloquent"⟩]
  prefixes := ["/opt/ros/foxy"]
  after := []
  prefixes_ne_nil := List.cons_ne_nil _ _
  valid := valid_of_all (by decide)

/-- A directory with a `=` in its name. -/
def signInPrefix : Environment where
  before := []
  prefixes := ["/opt/ros=foxy"]
  after := []
  prefixes_ne_nil := List.cons_ne_nil _ _
  valid := valid_of_all (by decide)

theorem not_extracted_shadowed_or_signInPrefix : ¬ shadowed.Extracted ∧ ¬ signInPrefix.Extracted := by
  constructor
  · rintro ⟨idlIncludes, hfound, hwords⟩
    have hshadowed : findIdlIncludePaths shadowed.text = some "-I/opt/ros/eloquent/share " := by decide
    obtain rfl := Option.some.inj (hshadowed.symm.trans hfound)
    exact absurd hwords (by decide)
  · rintro ⟨idlIncludes, hfound, hwords⟩
    have hsign : findIdlIncludePaths signInPrefix.text = some "-I/opt/ros/share -Ifoxy/share " := by decide
    obtain rfl := Option.some.inj (hsign.symm.trans hfound)
    exact absurd hwords (by decide)

end Environment

end Ros2Sh.Rosidl
