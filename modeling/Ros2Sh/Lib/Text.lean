import Mathlib.Data.List.Infix
import Mathlib.Data.List.TakeWhile
import Mathlib.Tactic.TypeStar

/-!
# Texts with separators

A text is put together from parts and separators.  A part in which the separator does not occur can be told from what
follows it (`append_cons_inj`), and from what stands before it (`append_cons_inj_last`).  The same holds of a separator
that is doubled, and a part that has no two separators in a row and does not end with one (`append_pair_inj`).

The words of a text stand between the blanks (`words`).  A blank after a word, or before the next one, may be any number
of blanks.

Lists whose parts are put together with one separator, and they themselves with another, can be read back when neither
separator occurs in a part (`lists_read_back_iff`).
-/

namespace Ros2Sh.Lib

variable {α : Type*} {sep : α} {xs xs' ys ys' : List α}

/-- What stands before the first separator, and what after it. -/
theorem append_cons_inj (hx : sep ∉ xs) (hx' : sep ∉ xs') (h : xs ++ sep :: ys = xs' ++ sep :: ys') :
    xs = xs' ∧ ys = ys' := by
  induction xs generalizing xs' with
  | nil =>
    cases xs' with
    | nil => exact ⟨rfl, (List.cons.inj h).2⟩
    | cons x' xs' =>
      obtain rfl : sep = x' := (List.cons.inj h).1
      exact absurd (List.mem_cons_self ..) hx'
  | cons x xs ih =>
    cases xs' with
    | nil =>
      obtain rfl : x = sep := (List.cons.inj h).1
      exact absurd (List.mem_cons_self ..) hx
    | cons x' xs' =>
      obtain ⟨rfl, htail⟩ := List.cons.inj h
      obtain ⟨rfl, hys⟩ := ih (fun hm => hx (List.mem_cons_of_mem _ hm))
        (fun hm => hx' (List.mem_cons_of_mem _ hm)) htail
      exact ⟨rfl, hys⟩

/-- What stands before the last separator, and what after it. -/
theorem append_cons_inj_last (hy : sep ∉ ys) (hy' : sep ∉ ys') (h : xs ++ sep :: ys = xs' ++ sep :: ys') :
    xs = xs' ∧ ys = ys' := by
  have hreverse : ys.reverse ++ sep :: xs.reverse = ys'.reverse ++ sep :: xs'.reverse := by
    simpa using congrArg List.reverse h
  have hmem : ∀ {zs : List α}, sep ∉ zs → sep ∉ zs.reverse := fun hz hm => hz (List.mem_reverse.mp hm)
  obtain ⟨hys, hxs⟩ := append_cons_inj (hmem hy) (hmem hy') hreverse
  exact ⟨List.reverse_injective hxs, List.reverse_injective hys⟩

/-- What stands before the first doubled separator, and what after it. -/
theorem append_pair_inj (hx : ¬ [sep, sep] <:+: xs ++ [sep]) (hx' : ¬ [sep, sep] <:+: xs' ++ [sep])
    (h : xs ++ sep :: sep :: ys = xs' ++ sep :: sep :: ys') : xs = xs' ∧ ys = ys' := by
  -- what one of the two has more than the other begins with the doubled separator, or is the half of it
  have hmore : ∀ {zs more us us' : List α}, sep :: sep :: us = more ++ sep :: sep :: us' →
      ¬ [sep, sep] <:+: zs ++ more ++ [sep] → more = [] := by
    intro zs more us us' heq hinfix
    cases more with
    | nil => rfl
    | cons a more =>
      obtain ⟨rfl, htail⟩ := List.cons.inj heq
      cases more with
      | nil => exact absurd ⟨zs, [], by simp⟩ hinfix
      | cons b more =>
        obtain ⟨rfl, -⟩ := List.cons.inj htail
        exact absurd ⟨zs, more ++ [sep], by simp⟩ hinfix
  rcases List.append_eq_append_iff.mp h with ⟨more, rfl, hrest⟩ | ⟨more, rfl, hrest⟩
  · obtain rfl := hmore hrest hx'
    exact ⟨(List.append_nil _).symm, by simpa using hrest⟩
  · obtain rfl := hmore hrest hx
    exact ⟨List.append_nil _, by simpa using hrest.symm⟩

theorem getLast?_splitOn [DecidableEq α] (h : sep ∉ ys) : ((xs ++ sep :: ys).splitOn sep).getLast? = some ys := by
  rw [List.splitOn_append_cons_self, List.splitOn_eq_singleton h]
  exact List.getLast?_concat ..

theorem mem_intercalate {a : α} {parts : List (List α)} (h : a ∈ xs.intercalate parts) :
    a ∈ xs ∨ ∃ part ∈ parts, a ∈ part := by
  induction parts with
  | nil => cases h
  | cons part parts ih =>
    cases parts with
    | nil =>
      rw [List.intercalate_singleton] at h
      exact .inr ⟨part, List.mem_cons_self .., h⟩
    | cons next parts =>
      rw [List.intercalate_cons_cons] at h
      rcases List.mem_append.mp h with h | h
      · rcases List.mem_append.mp h with h | h
        · exact .inr ⟨part, List.mem_cons_self .., h⟩
        · exact .inl h
      · rcases ih h with h | ⟨part, hpart, h⟩
        · exact .inl h
        · exact .inr ⟨part, List.mem_cons_of_mem _ hpart, h⟩

theorem mem_intercalate_of_mem {a : α} {part : List α} {parts : List (List α)} (hpart : part ∈ parts) (ha : a ∈ part) :
    a ∈ xs.intercalate parts := by
  induction parts with
  | nil => cases hpart
  | cons first parts ih =>
    cases parts with
    | nil =>
      obtain rfl := List.mem_singleton.mp hpart
      rwa [List.intercalate_singleton]
    | cons next parts =>
      rw [List.intercalate_cons_cons]
      rcases List.mem_cons.mp hpart with rfl | hpart
      · exact List.mem_append_left _ (List.mem_append_left _ ha)
      · exact List.mem_append_right _ (ih hpart)

theorem eq_singleton_of_intercalate_eq_nil {parts : List (List α)} (hne : parts ≠ [])
    (h : [sep].intercalate parts = []) : parts = [[]] := by
  cases parts with
  | nil => exact absurd rfl hne
  | cons part parts =>
    cases parts with
    | nil =>
      rw [List.intercalate_singleton] at h
      rw [h]
    | cons next parts =>
      rw [List.intercalate_cons_cons] at h
      simp at h

/-! ### Words -/

section Words

variable {p : α → Bool} {blank word text : List α}

/-- The words of a text, where `p` holds of the blanks. -/
def words (p : α → Bool) (text : List α) : List (List α) := (text.splitOnP p).filter fun word => !word.isEmpty

/-- Blanks only. -/
def IsBlank (p : α → Bool) (text : List α) : Prop := ∀ a ∈ text, p a = true

/-- No blank. -/
def IsWord (p : α → Bool) (text : List α) : Prop := ∀ a ∈ text, p a = false

theorem words_append_cons (xs ys : List α) (h : p sep = true) :
    words p (xs ++ sep :: ys) = words p xs ++ words p ys := by
  unfold words
  rw [List.splitOnP_append_cons xs ys h, List.filter_append]

theorem words_cons (h : p sep = true) (ys : List α) : words p (sep :: ys) = words p ys :=
  words_append_cons [] ys h

theorem words_word (h : IsWord p word) (hne : word ≠ []) : words p word = [word] := by
  unfold words
  rw [List.splitOnP_eq_singleton h]
  simp [hne]

theorem words_blank_append (h : IsBlank p blank) (text : List α) : words p (blank ++ text) = words p text := by
  induction blank with
  | nil => rfl
  | cons a blank ih =>
    rw [List.cons_append, words_cons (h a (List.mem_cons_self ..))]
    exact ih fun b hb => h b (List.mem_cons_of_mem _ hb)

theorem words_blank (h : IsBlank p blank) : words p blank = [] := by
  have := words_blank_append h []
  rwa [List.append_nil] at this

theorem isWord_of_mem_splitOnP (h : word ∈ text.splitOnP p) : IsWord p word := by
  induction text generalizing word with
  | nil =>
    obtain rfl : word = [] := by simpa using h
    exact fun _ hb => nomatch hb
  | cons a text ih =>
    rw [List.splitOnP_cons_eq_if_modifyHead] at h
    split at h
    · rcases List.mem_cons.mp h with rfl | hmem
      · exact fun _ hb => nomatch hb
      · exact ih hmem
    · rename_i ha
      -- `a` is put before the first part
      cases hparts : text.splitOnP p with
      | nil => exact absurd hparts (List.splitOnP_ne_nil p text)
      | cons first parts =>
        have hof : ∀ part ∈ first :: parts, IsWord p part := fun part hpart => ih (hparts ▸ hpart)
        rw [hparts, List.modifyHead_cons] at h
        rcases List.mem_cons.mp h with rfl | hmem
        · intro b hb
          rcases List.mem_cons.mp hb with rfl | hb
          · simpa using ha
          · exact hof first (List.mem_cons_self ..) b hb
        · exact hof word (List.mem_cons_of_mem _ hmem)

theorem isWord_of_mem_words (h : word ∈ words p text) : IsWord p word ∧ word ≠ [] := by
  obtain ⟨hmem, hne⟩ := List.mem_filter.mp h
  exact ⟨isWord_of_mem_splitOnP hmem, by simpa using hne⟩

theorem words_flatMap {texts : List (List α)} (h : ∀ word ∈ texts, IsWord p word ∧ word ≠ []) (hsep : p sep = true) :
    words p (texts.flatMap fun word => word ++ [sep]) = texts := by
  induction texts with
  | nil => rfl
  | cons word texts ih =>
    obtain ⟨hword, hne⟩ := h word (List.mem_cons_self ..)
    rw [List.flatMap_cons, List.append_assoc, List.singleton_append, words_append_cons _ _ hsep, words_word hword hne,
      ih fun w hw => h w (List.mem_cons_of_mem _ hw)]
    rfl

/-- The longest part at the beginning of which `q` holds throughout. -/
theorem exists_span (q : α → Bool) (text : List α) :
    ∃ xs ys, text = xs ++ ys ∧ (∀ a ∈ xs, q a = true) ∧ ∀ a ∈ ys.head?, q a = false := by
  refine ⟨text.takeWhile q, text.dropWhile q, List.takeWhile_append_dropWhile.symm, fun a ha => ?_, fun a ha => ?_⟩
  · exact List.mem_takeWhile_imp ha
  · simpa [Option.mem_def.mp ha] using List.head?_dropWhile_not q text

end Words

/-! ### Lists of parts -/

section Parts

variable [DecidableEq α] {outer inner : α} {text part : List α} {parts : List (List α)}
  {lists : List (List (List α))}

/-- The parts of a text between the separators; the empty text has none. -/
def partsOf (sep : α) (text : List α) : List (List α) := if text = [] then [] else text.splitOn sep

theorem sep_not_mem_of_mem_splitOn (h : part ∈ text.splitOn sep) : sep ∉ part := by
  rw [List.splitOn_eq_splitOnP] at h
  intro hmem
  have hsep : (sep == sep) = false := isWord_of_mem_splitOnP h sep hmem
  simp at hsep

theorem mem_of_mem_partsOf (h : part ∈ partsOf sep text) : sep ∉ part ∧ ∀ a ∈ part, a ∈ text := by
  unfold partsOf at h
  split at h
  · cases h
  · refine ⟨sep_not_mem_of_mem_splitOn h, fun a ha => ?_⟩
    have hjoin : [sep].intercalate (text.splitOn sep) = text := List.intercalate_splitOn sep
    rw [← hjoin]
    exact mem_intercalate_of_mem h ha

theorem partsOf_ne (sep : α) (text : List α) : partsOf sep text ≠ [[]] := by
  unfold partsOf
  split
  · exact List.cons_ne_nil _ _ ∘ Eq.symm
  · rename_i hne
    intro h
    have hjoin : [sep].intercalate (text.splitOn sep) = text := List.intercalate_splitOn sep
    rw [h, List.intercalate_singleton] at hjoin
    exact hne hjoin.symm

theorem partsOf_intercalate (hne : parts ≠ [[]]) (h : ∀ part ∈ parts, sep ∉ part) :
    partsOf sep ([sep].intercalate parts) = parts := by
  unfold partsOf
  split
  · rename_i hnil
    by_contra hparts
    exact hne (eq_singleton_of_intercalate_eq_nil (Ne.symm hparts) hnil)
  · rename_i hnil
    refine List.splitOn_intercalate sep h fun hparts => hnil ?_
    rw [hparts]
    rfl

/-- **Lists can be read back** that are put together with one separator, and their parts with another, exactly when
neither occurs in a part and no list has the empty part only. -/
theorem lists_read_back_iff (hsep : outer ≠ inner) (hlists : lists ≠ []) :
    (([outer].intercalate (lists.map fun parts => [inner].intercalate parts)).splitOn outer).map (partsOf inner) =
        lists ↔
      ∀ parts ∈ lists, parts ≠ [[]] ∧ ∀ part ∈ parts, outer ∉ part ∧ inner ∉ part := by
  constructor
  · intro h parts hparts
    rw [← h] at hparts
    obtain ⟨text, htext, rfl⟩ := List.mem_map.mp hparts
    refine ⟨partsOf_ne inner text, fun part hpart => ?_⟩
    obtain ⟨hinner, hsub⟩ := mem_of_mem_partsOf hpart
    exact ⟨fun houter => sep_not_mem_of_mem_splitOn htext (hsub outer houter), hinner⟩
  · intro h
    have houter : ∀ text ∈ lists.map fun parts => [inner].intercalate parts, outer ∉ text := by
      intro text htext hmem
      obtain ⟨parts, hparts, rfl⟩ := List.mem_map.mp htext
      rcases mem_intercalate hmem with hmem | ⟨part, hpart, hmem⟩
      · exact hsep (List.mem_singleton.mp hmem)
      · exact ((h parts hparts).2 part hpart).1 hmem
    rw [List.splitOn_intercalate outer houter (by simpa using hlists), List.map_map]
    refine (List.map_congr_left fun parts hparts => ?_).trans (List.map_id _)
    exact partsOf_intercalate (h parts hparts).1 fun part hpart => ((h parts hparts).2 part hpart).2

end Parts

end Ros2Sh.Lib
