import Mathlib.Data.List.DropRight

/-!
# Words on one line

A list is taken apart into the maximal runs of elements that are not blank, its words, and
`squeeze` puts them together again with one separator between two of them. Trimming takes blank
elements off the ends.

* `tidy_squeeze` and `squeeze_of_tidy`: a squeezed list is tidy, and a tidy list is squeezed
  already.
* `Tidy.cut`: a tidy list that is cut and trimmed is tidy again.
* `squeeze_append_of_within` and `squeeze_append_of_between`: what squeezing does to a list that is
  cut within a word and between words.
* `length_squeeze`: the length of a squeezed list, counted on the list itself.
-/

namespace Words

variable {α : Type*} {blank : α → Bool} {sep c d : α} {l l₁ l₂ : List α}

/-- The maximal runs of elements that are not blank. -/
def words (blank : α → Bool) (l : List α) : List (List α) :=
  (l.splitOnP blank).filter fun word => !word.isEmpty

/-- The words, with one separator between two of them. -/
def squeeze (blank : α → Bool) (sep : α) (l : List α) : List α :=
  [sep].intercalate (words blank l)

/-! ## Words, element by element -/

@[simp]
theorem words_nil : words blank [] = [] := by simp [words]

theorem words_cons_of_blank (h : blank c = true) : words blank (c :: l) = words blank l := by
  rw [words, List.splitOnP_cons_eq_if_modifyHead, if_pos h]
  rfl

/-- A word that a blank follows stands alone. -/
theorem words_cons_cons_of_blank (hc : blank c = false) (hd : blank d = true) :
    words blank (c :: d :: l) = [c] :: words blank l := by
  have hword : ∀ x ∈ [c], blank x = false := by simpa using hc
  have hsplit : (c :: d :: l).splitOnP blank = [c] :: l.splitOnP blank :=
    List.splitOnP_append_cons_of_forall_mem hword d hd l
  rw [words, hsplit]
  rfl

theorem words_singleton (hc : blank c = false) : words blank [c] = [[c]] := by
  rw [words, List.splitOnP_eq_singleton (by simpa using hc)]
  rfl

/-- An element before a word is its new first one. -/
theorem words_cons_cons (hc : blank c = false) (hd : blank d = false) :
    ∃ word rest, words blank (d :: l) = (d :: word) :: rest ∧
      words blank (c :: d :: l) = (c :: d :: word) :: rest := by
  -- the first run of `l` is the rest of the word, and empty when a blank ends the word there
  obtain ⟨word, rest, hsplit⟩ := List.exists_cons_of_ne_nil (List.splitOnP_ne_nil blank l)
  refine ⟨word, rest.filter fun word => !word.isEmpty, ?_, ?_⟩
  · rw [words, List.splitOnP_cons_eq_if_modifyHead, hsplit, hd]
    rfl
  · rw [words, List.splitOnP_cons_eq_if_modifyHead, List.splitOnP_cons_eq_if_modifyHead, hsplit,
      hc, hd]
    rfl

/-- A word is not empty. -/
theorem ne_nil_of_mem_words {word : List α} (h : word ∈ words blank l) : word ≠ [] := by
  rintro rfl
  exact absurd (List.mem_filter.1 h).2 Bool.false_ne_true

/-- Induction along the words of a list: a blank is passed over, and an element of a word is the
last of the list, or another one of the word follows, or a blank that ends it. -/
@[elab_as_elim]
theorem wordInduction (blank : α → Bool) {motive : List α → Prop} (nil : motive [])
    (skip : ∀ c l, blank c = true → motive l → motive (c :: l))
    (single : ∀ c, blank c = false → motive [c])
    (within : ∀ c d l, blank c = false → blank d = false → motive (d :: l) →
      motive (c :: d :: l))
    (between : ∀ c d l, blank c = false → blank d = true → motive l → motive (c :: d :: l)) :
    (l : List α) → motive l
  | [] => nil
  | [c] =>
    match hc : blank c with
    | true => skip c [] hc nil
    | false => single c hc
  | c :: d :: l =>
    have ihl := wordInduction blank nil skip single within between l
    have ihd := wordInduction blank nil skip single within between (d :: l)
    match hc : blank c, hd : blank d with
    | true, _ => skip c (d :: l) hc ihd
    | false, false => within c d l hc hd ihd
    | false, true => between c d l hc hd ihl

/-! ## Squeezing, element by element -/

/-- What follows a word: nothing more, or a separator and the rest. -/
def gap (sep : α) (rest : List α) : List α := if rest.isEmpty then [] else sep :: rest

@[simp]
theorem squeeze_nil : squeeze blank sep [] = [] := by simp [squeeze]

theorem squeeze_cons_of_blank (h : blank c = true) :
    squeeze blank sep (c :: l) = squeeze blank sep l := by
  rw [squeeze, words_cons_of_blank h, squeeze]

theorem squeeze_singleton (hc : blank c = false) : squeeze blank sep [c] = [c] := by
  rw [squeeze, words_singleton hc, List.intercalate_singleton]

theorem squeeze_cons_cons (hc : blank c = false) (hd : blank d = false) :
    squeeze blank sep (c :: d :: l) = c :: squeeze blank sep (d :: l) := by
  obtain ⟨word, rest, hl, hcl⟩ := words_cons_cons (l := l) hc hd
  rw [squeeze, hcl, squeeze, hl, List.intercalate_cons_cons_left]

theorem squeeze_cons_cons_of_blank (hc : blank c = false) (hd : blank d = true) :
    squeeze blank sep (c :: d :: l) = c :: gap sep (squeeze blank sep l) := by
  rw [squeeze, words_cons_cons_of_blank hc hd]
  rcases hwords : words blank l with _ | ⟨word, rest⟩
  · -- without another word there is no separator
    rw [squeeze, hwords, List.intercalate_singleton]
    rfl
  · -- a word is not empty, so the rest is recognised as more to come
    have hmem : word ∈ words blank l := hwords ▸ List.mem_cons_self
    obtain ⟨x, word, rfl⟩ := List.exists_cons_of_ne_nil (ne_nil_of_mem_words hmem)
    rw [squeeze, hwords, List.intercalate_cons_cons, List.intercalate_cons_cons_left]
    rfl

/-- Squeezing keeps an element that is not blank at the front. -/
theorem exists_squeeze_cons (hc : blank c = false) :
    ∃ rest, squeeze blank sep (c :: l) = c :: rest := by
  rcases l with _ | ⟨d, l⟩
  · exact ⟨[], squeeze_singleton hc⟩
  · rcases hd : blank d
    · exact ⟨_, squeeze_cons_cons hc hd⟩
    · exact ⟨_, squeeze_cons_cons_of_blank hc hd⟩

/-- Nothing is left of a list exactly when it is blank. -/
theorem squeeze_eq_nil_iff : squeeze blank sep l = [] ↔ ∀ c ∈ l, blank c = true := by
  induction l with
  | nil => simp
  | cons c l ih =>
    rw [List.forall_mem_cons]
    rcases hc : blank c
    · obtain ⟨rest, hrest⟩ : ∃ rest, squeeze blank sep (c :: l) = c :: rest :=
        exists_squeeze_cons hc
      simp [hrest]
    · simp [squeeze_cons_of_blank hc, ih]

theorem eq_or_mem_of_mem_gap {x : α} (h : x ∈ gap sep l) : x = sep ∨ x ∈ l := by
  rw [gap] at h
  split at h
  next => cases h
  next => exact List.mem_cons.1 h

/-- Squeezing adds nothing but the separator. -/
theorem eq_or_mem_of_mem_squeeze {x : α} (h : x ∈ squeeze blank sep l) : x = sep ∨ x ∈ l := by
  induction l using wordInduction blank with
  | nil => simp at h
  | skip c l hc ih =>
    rw [squeeze_cons_of_blank hc] at h
    exact (ih h).imp_right (List.mem_cons_of_mem c)
  | single c hc =>
    rw [squeeze_singleton hc] at h
    exact .inr h
  | within c d l hc hd ih =>
    rw [squeeze_cons_cons hc hd] at h
    rcases List.mem_cons.1 h with rfl | h
    · exact .inr List.mem_cons_self
    · exact (ih h).imp_right (List.mem_cons_of_mem c)
  | between c d l hc hd ih =>
    rw [squeeze_cons_cons_of_blank hc hd] at h
    rcases List.mem_cons.1 h with rfl | h
    · exact .inr List.mem_cons_self
    · rcases eq_or_mem_of_mem_gap h with rfl | h
      · exact .inl rfl
      · exact (ih h).imp_right fun h => List.mem_cons_of_mem c (List.mem_cons_of_mem d h)

/-! ## Trimmed and tidy lists -/

/-- No end of the list is blank. -/
structure Trimmed (blank : α → Bool) (l : List α) : Prop where
  first : ∀ c ∈ l.head?, blank c = false
  last : ∀ c ∈ l.getLast?, blank c = false

/-- The words of the list stand on one line: no blank at an end, and one separator between two of
them. -/
structure Tidy (blank : α → Bool) (sep : α) (l : List α) : Prop extends Trimmed blank l where
  sole : ∀ c ∈ l, blank c = true → c = sep
  single : ∀ c d, [c, d] <:+: l → blank c = true → blank d = false

theorem trimmed_nil : Trimmed blank [] where
  first := fun _ h => nomatch h
  last := fun _ h => nomatch h

theorem tidy_nil : Tidy blank sep [] := by
  refine ⟨trimmed_nil, ?_, ?_⟩
  · exact fun _ h => nomatch h
  · exact fun _ _ h => absurd h.length_le (by simp)

/-- A tidy list behind an element that is not blank is tidy. -/
theorem Tidy.cons (hl : Tidy blank sep l) (hc : blank c = false) : Tidy blank sep (c :: l) := by
  refine ⟨⟨?_, ?_⟩, ?_, ?_⟩
  · rintro _ ⟨⟩
    exact hc
  · intro x hx
    rcases l with _ | ⟨d, l⟩
    · obtain rfl : c = x := by simpa using hx
      exact hc
    · exact hl.last x (by rwa [List.getLast?_cons_cons] at hx)
  · rintro x hx hblank
    rcases List.mem_cons.1 hx with rfl | hx
    · rw [hc] at hblank
      cases hblank
    · exact hl.sole x hx hblank
  · intro x y hxy hblank
    rcases List.infix_cons_iff.1 hxy with hxy | hxy
    · -- a pair at the front begins with `c`
      obtain ⟨rfl, -⟩ := List.cons_prefix_cons.1 hxy
      rw [hc] at hblank
      cases hblank
    · exact hl.single x y hxy hblank

/-- A tidy list behind a separator, and that behind an element that is not blank, is tidy. -/
theorem Tidy.cons_gap (hl : Tidy blank sep l) (hc : blank c = false) :
    Tidy blank sep (c :: gap sep l) := by
  rcases l with _ | ⟨d, l⟩
  · exact tidy_nil.cons hc
  have hd : blank d = false := hl.first d rfl
  refine ⟨⟨?_, ?_⟩, ?_, ?_⟩
  · rintro _ ⟨⟩
    exact hc
  · intro x hx
    exact hl.last x (by simpa [gap, List.getLast?_cons_cons] using hx)
  · rintro x hx hblank
    rcases List.mem_cons.1 hx with rfl | hx
    · rw [hc] at hblank
      cases hblank
    · rcases List.mem_cons.1 hx with rfl | hx
      · rfl
      · exact hl.sole x hx hblank
  · intro x y hxy hblank
    rcases List.infix_cons_iff.1 hxy with hxy | hxy
    · obtain ⟨rfl, -⟩ := List.cons_prefix_cons.1 hxy
      rw [hc] at hblank
      cases hblank
    · rcases List.infix_cons_iff.1 hxy with hxy | hxy
      · -- the separator stands before the first element of `l`
        obtain ⟨-, hxy⟩ := List.cons_prefix_cons.1 hxy
        obtain ⟨rfl, -⟩ := List.cons_prefix_cons.1 hxy
        exact hd
      · exact hl.single x y hxy hblank

/-- A squeezed list is tidy. -/
theorem tidy_squeeze (l : List α) : Tidy blank sep (squeeze blank sep l) := by
  induction l using wordInduction blank with
  | nil =>
    rw [squeeze_nil]
    exact tidy_nil
  | skip c l hc ih => rwa [squeeze_cons_of_blank hc]
  | single c hc =>
    rw [squeeze_singleton hc]
    exact tidy_nil.cons hc
  | within c d l hc hd ih =>
    rw [squeeze_cons_cons hc hd]
    exact ih.cons hc
  | between c d l hc hd ih =>
    rw [squeeze_cons_cons_of_blank hc hd]
    exact ih.cons_gap hc

/-- From an element that is not blank on, a tidy list is tidy. -/
theorem Tidy.of_suffix (hl : Tidy blank sep l) (hs : c :: l₁ <:+ l) (hc : blank c = false) :
    Tidy blank sep (c :: l₁) := by
  refine ⟨⟨?_, ?_⟩, ?_, ?_⟩
  · rintro _ ⟨⟩
    exact hc
  · intro x hx
    apply hl.last x
    obtain ⟨before, rfl⟩ := hs
    rw [List.getLast?_append, Option.mem_def.1 hx]
    rfl
  · intro x hx hblank
    exact hl.sole x (hs.subset hx) hblank
  · intro x y hxy hblank
    exact hl.single x y (hxy.trans hs.isInfix) hblank

/-- A tidy list is squeezed already. -/
theorem squeeze_of_tidy (h : Tidy blank sep l) : squeeze blank sep l = l := by
  induction l using wordInduction blank with
  | nil => exact squeeze_nil
  | skip c l hc ih =>
    have hfirst : blank c = false := h.first c rfl
    rw [hc] at hfirst
    cases hfirst
  | single c hc => exact squeeze_singleton hc
  | within c d l hc hd ih =>
    rw [squeeze_cons_cons hc hd, ih (h.of_suffix (List.suffix_cons c (d :: l)) hd)]
  | between c d l hc hd ih =>
    have hsep : d = sep := h.sole d (by simp) hd
    rcases l with _ | ⟨e, l⟩
    · -- the separator would be the last element
      have hlast : blank d = false := h.last d (by simp)
      rw [hd] at hlast
      cases hlast
    · -- behind the separator a word begins
      have he : blank e = false := h.single d e ⟨[c], l, rfl⟩ hd
      have htidy : Tidy blank sep (e :: l) := h.of_suffix ⟨[c, d], rfl⟩ he
      rw [squeeze_cons_cons_of_blank hc hd, ih htidy, hsep]
      rfl

/-! ## Trimming -/

/-- The last element of what is left after trimming the end is not blank. -/
theorem last_rdropWhile : ∀ c ∈ (l.rdropWhile blank).getLast?, blank c = false := by
  intro c hc
  obtain ⟨hne, rfl⟩ := List.mem_getLast?_eq_getLast hc
  exact Bool.eq_false_iff.2 (List.rdropWhile_last_not blank l hne)

theorem first_front (h : ∀ c ∈ l.head?, blank c = false) (hp : l₁ <+: l) :
    ∀ c ∈ l₁.head?, blank c = false := by
  obtain ⟨after, rfl⟩ := hp
  intro c hc
  apply h c
  rw [List.head?_append, Option.mem_def.1 hc]
  rfl

theorem Trimmed.rdropWhile_eq (h : Trimmed blank l) : l.rdropWhile blank = l := by
  apply List.rdropWhile_eq_self_iff.2
  intro hne
  exact Bool.eq_false_iff.1 (h.last _ (List.getLast?_eq_some_getLast hne))

/-- Trimming the end of a part from the front of a trimmed list leaves a trimmed list. -/
theorem trimmed_rdropWhile_front (h : ∀ c ∈ l.head?, blank c = false) (hp : l₁ <+: l) :
    Trimmed blank (l₁.rdropWhile blank) where
  first := first_front h ((List.rdropWhile_prefix blank l₁).trans hp)
  last := last_rdropWhile

/-- A tidy list, cut and trimmed, is tidy. -/
theorem Tidy.cut (h : Tidy blank sep l) (n : ℕ) :
    Tidy blank sep ((l.take n).rdropWhile blank) := by
  have hp : (l.take n).rdropWhile blank <+: l :=
    (List.rdropWhile_prefix blank _).trans (List.take_prefix n l)
  refine ⟨trimmed_rdropWhile_front h.first (List.take_prefix n l), ?_, ?_⟩
  · intro x hx hblank
    exact h.sole x (hp.subset hx) hblank
  · intro x y hxy hblank
    exact h.single x y (hxy.trans hp.isInfix) hblank

/-- Cutting a list that does not begin with a blank leaves something. -/
theorem rdropWhile_take_ne_nil {n : ℕ} (hl : l ≠ []) (h : ∀ c ∈ l.head?, blank c = false)
    (hn : 0 < n) : (l.take n).rdropWhile blank ≠ [] := by
  obtain ⟨c, l, rfl⟩ := List.exists_cons_of_ne_nil hl
  obtain ⟨n, rfl⟩ := Nat.exists_eq_succ_of_ne_zero hn.ne'
  intro hnil
  have hc : blank c = true := List.rdropWhile_eq_nil_iff.1 hnil c (by simp)
  rw [h c rfl] at hc
  cases hc

/-- Trimming the ends of two lists keeps one in front of the other. -/
theorem rdropWhile_prefix_rdropWhile (h : l₁ <+: l₂) :
    l₁.rdropWhile blank <+: l₂.rdropWhile blank := by
  obtain ⟨after, rfl⟩ := h
  -- the longer list loses its last element, or is trimmed already
  induction after using List.reverseRecOn with
  | nil => simp
  | append_singleton after c ih =>
    rw [← List.append_assoc]
    rcases hc : blank c
    · rw [List.rdropWhile_concat_neg blank _ c (Bool.eq_false_iff.1 hc), List.append_assoc]
      exact (List.rdropWhile_prefix blank l₁).trans (List.prefix_append _ _)
    · rwa [List.rdropWhile_concat_pos blank _ c hc]

/-- Trimmed words, joined by anything, are trimmed. -/
theorem trimmed_intercalate {between : List α} {parts : List (List α)}
    (h : ∀ part ∈ parts, part ≠ [] ∧ Trimmed blank part) :
    Trimmed blank (between.intercalate parts) ∧
      (parts ≠ [] → between.intercalate parts ≠ []) := by
  induction parts with
  | nil =>
    rw [List.intercalate_nil]
    exact ⟨trimmed_nil, fun h => absurd rfl h⟩
  | cons part parts ih =>
    obtain ⟨⟨hne, hpart⟩, hparts⟩ := List.forall_mem_cons.1 h
    obtain ⟨hrest, hrestne⟩ := ih hparts
    rcases parts with _ | ⟨next, parts⟩
    · rw [List.intercalate_singleton]
      exact ⟨hpart, fun _ => hne⟩
    · have hnext := hrestne (List.cons_ne_nil _ _)
      rw [List.intercalate_cons_cons]
      refine ⟨⟨?_, ?_⟩, ?_⟩
      · rw [List.append_assoc, List.head?_append_of_ne_nil _ hne]
        exact hpart.first
      · rw [List.getLast?_append_of_ne_nil _ hnext]
        exact hrest.last
      · intro _
        exact List.append_ne_nil_of_right_ne_nil _ hnext

/-- What is joined begins with its first part. -/
theorem prefix_intercalate (between part : List α) (parts : List (List α)) :
    part <+: between.intercalate (part :: parts) := by
  rcases parts with _ | ⟨next, parts⟩
  · simp
  · rw [List.intercalate_cons_cons, List.append_assoc]
    exact List.prefix_append _ _

/-! ## Squeezing a list that is cut -/

/-- The last element before the cut or the first one behind it is blank. -/
def CutBetween (blank : α → Bool) (l₁ l₂ : List α) : Prop :=
  (∃ c ∈ l₁.getLast?, blank c = true) ∨ ∃ d ∈ l₂.head?, blank d = true

/-- A list without words in front is squeezed away. -/
theorem squeeze_append_of_blank (h : ∀ c ∈ l₁, blank c = true) :
    squeeze blank sep (l₁ ++ l₂) = squeeze blank sep l₂ := by
  induction l₁ with
  | nil => rfl
  | cons c l₁ ih =>
    obtain ⟨hc, hl₁⟩ := List.forall_mem_cons.1 h
    rw [List.cons_append, squeeze_cons_of_blank hc, ih hl₁]

theorem gap_of_ne_nil (h : l ≠ []) : gap sep l = sep :: l := by
  obtain ⟨c, l, rfl⟩ := List.exists_cons_of_ne_nil h
  rfl

/-- What holds of the last element of a list holds of the last one of its tail. -/
theorem last_of_cons {p : α → Prop} (h : ∀ x ∈ (c :: l).getLast?, p x) : ∀ x ∈ l.getLast?, p x := by
  rcases l with _ | ⟨d, l⟩
  · exact fun _ hx => nomatch hx
  · rwa [List.getLast?_cons_cons] at h

/-- A list that does not end in a blank has a word. -/
theorem squeeze_ne_nil_of_last (hl : l ≠ []) (h : ∀ c ∈ l.getLast?, blank c = false) :
    squeeze blank sep l ≠ [] := by
  intro hnil
  have hblank := squeeze_eq_nil_iff.1 hnil _ (List.getLast_mem hl)
  rw [h _ (List.getLast?_eq_some_getLast hl)] at hblank
  cases hblank

/-- Cut within a word, a list is squeezed on both sides of the cut. -/
theorem squeeze_append_of_within (hd : blank d = false) (h : ∀ c ∈ l₁.getLast?, blank c = false) :
    squeeze blank sep (l₁ ++ d :: l₂) = squeeze blank sep l₁ ++ squeeze blank sep (d :: l₂) := by
  induction l₁ using wordInduction blank with
  | nil =>
    rw [squeeze_nil]
    rfl
  | skip c l₁ hc ih =>
    rw [List.cons_append, squeeze_cons_of_blank hc, squeeze_cons_of_blank hc, ih (last_of_cons h)]
  | single c hc =>
    rw [squeeze_singleton hc]
    exact squeeze_cons_cons hc hd
  | within c e l₁ hc he ih =>
    have ih := ih (last_of_cons h)
    rw [List.cons_append] at ih
    rw [List.cons_append, List.cons_append, squeeze_cons_cons hc he, squeeze_cons_cons hc he, ih,
      List.cons_append]
  | between c e l₁ hc he ih =>
    have hlast := last_of_cons (last_of_cons h)
    have hne : l₁ ≠ [] := by
      -- otherwise the element before the cut is the blank `e`
      rintro rfl
      rw [h e rfl] at he
      cases he
    -- another word is complete, and the cut is in one behind it
    have hword : squeeze blank sep l₁ ≠ [] := squeeze_ne_nil_of_last hne hlast
    rw [List.cons_append, List.cons_append, squeeze_cons_cons_of_blank hc he,
      squeeze_cons_cons_of_blank hc he, ih hlast, gap_of_ne_nil hword,
      gap_of_ne_nil (List.append_ne_nil_of_left_ne_nil hword _)]
    rfl

theorem CutBetween.of_cons (h : CutBetween blank (c :: l₁) l₂) (hl₁ : l₁ ≠ []) :
    CutBetween blank l₁ l₂ := by
  obtain ⟨d, l₁, rfl⟩ := List.exists_cons_of_ne_nil hl₁
  rwa [CutBetween, List.getLast?_cons_cons] at h

/-- Cut between two words, a list is squeezed on both sides of the cut, and a separator stands
between what is left of them. -/
theorem squeeze_append_of_between (h : CutBetween blank l₁ l₂) (hne : squeeze blank sep l₁ ≠ []) :
    squeeze blank sep (l₁ ++ l₂) = squeeze blank sep l₁ ++ gap sep (squeeze blank sep l₂) := by
  have hword : ∀ {l : List α}, squeeze blank sep l ≠ [] → l ≠ [] := by
    rintro _ hl rfl
    exact hl squeeze_nil
  induction l₁ using wordInduction blank with
  | nil => exact absurd squeeze_nil hne
  | skip c l₁ hc ih =>
    rw [squeeze_cons_of_blank hc] at hne
    rw [List.cons_append, squeeze_cons_of_blank hc, squeeze_cons_of_blank hc,
      ih (h.of_cons (hword hne)) hne]
  | single c hc =>
    -- the first list ends in a word, so the second begins with a blank
    rcases h with ⟨_, ⟨⟩, hblank⟩ | ⟨d, hd, hblank⟩
    · have hblank : blank c = true := hblank
      rw [hc] at hblank
      cases hblank
    · obtain ⟨l₂, rfl⟩ := List.head?_eq_some_iff.1 hd
      rw [squeeze_singleton hc, squeeze_cons_of_blank hblank]
      exact squeeze_cons_cons_of_blank hc hblank
  | within c e l₁ hc he ih =>
    have hne : squeeze blank sep (e :: l₁) ≠ [] := by
      rw [ne_eq, squeeze_eq_nil_iff]
      intro hblank
      rw [hblank e List.mem_cons_self] at he
      cases he
    have ih := ih (h.of_cons (List.cons_ne_nil e l₁)) hne
    rw [List.cons_append] at ih
    rw [List.cons_append, List.cons_append, squeeze_cons_cons hc he, squeeze_cons_cons hc he, ih,
      List.cons_append]
  | between c e l₁ hc he ih =>
    rw [List.cons_append, List.cons_append, squeeze_cons_cons_of_blank hc he,
      squeeze_cons_cons_of_blank hc he]
    by_cases hnil : squeeze blank sep l₁ = []
    · -- only blanks between this word and the cut
      rw [squeeze_append_of_blank (squeeze_eq_nil_iff.1 hnil), hnil]
      rfl
    · have h := (h.of_cons (List.cons_ne_nil e l₁)).of_cons (hword hnil)
      rw [ih h hnil, gap_of_ne_nil hnil,
        gap_of_ne_nil (List.append_ne_nil_of_left_ne_nil hnil _)]
      rfl

/-- Blanks at the end are squeezed away. -/
theorem squeeze_append_blank (h : ∀ c ∈ l₂, blank c = true) :
    squeeze blank sep (l₁ ++ l₂) = squeeze blank sep l₁ := by
  have hl₂ : squeeze blank sep l₂ = [] := squeeze_eq_nil_iff.2 h
  by_cases hnil : squeeze blank sep l₁ = []
  · rw [squeeze_append_of_blank (squeeze_eq_nil_iff.1 hnil), hl₂, hnil]
  rcases l₂ with _ | ⟨d, l₂⟩
  · rw [List.append_nil]
  · rw [squeeze_append_of_between (.inr ⟨d, rfl, h d List.mem_cons_self⟩) hnil, hl₂]
    exact List.append_nil _

/-! ## The length of a squeezed list -/

/-- How many words begin in the list, when a blank or no blank stands before it. -/
def starts (blank : α → Bool) : Bool → List α → ℕ
  | _, [] => 0
  | before, c :: l => (if before && !blank c then 1 else 0) + starts blank (blank c) l

/-- The elements that are not blank, and one for each word but the first. -/
def packedLength (blank : α → Bool) (l : List α) : ℕ :=
  l.countP (fun c => !blank c) + (starts blank true l - 1)

/-- A word begins in a list that is not blank. -/
theorem starts_pos_iff : 0 < starts blank true l ↔ squeeze blank sep l ≠ [] := by
  induction l with
  | nil => simp [starts]
  | cons c l ih =>
    rcases hc : blank c
    · obtain ⟨rest, hrest⟩ : ∃ rest, squeeze blank sep (c :: l) = c :: rest :=
        exists_squeeze_cons hc
      simp [starts, hc, hrest, Nat.one_add]
    · simp [starts, hc, squeeze_cons_of_blank hc, ih]

/-- The length of a squeezed list. -/
theorem length_squeeze (l : List α) : (squeeze blank sep l).length = packedLength blank l := by
  induction l using wordInduction blank with
  | nil => simp [packedLength, starts]
  | skip c l hc ih =>
    rw [squeeze_cons_of_blank hc, ih]
    simp [packedLength, starts, hc]
  | single c hc => simp [squeeze_singleton, packedLength, starts, hc]
  | within c d l hc hd ih =>
    rw [squeeze_cons_cons hc hd, List.length_cons, ih]
    simp [packedLength, starts, hc, hd]
    omega
  | between c d l hc hd ih =>
    rw [squeeze_cons_cons_of_blank hc hd, List.length_cons]
    -- the separator counts when another word begins behind the blank
    by_cases hnil : squeeze blank sep l = []
    · have hstarts : ¬ 0 < starts blank true l := fun h => starts_pos_iff.1 h hnil
      have hgap : gap sep ([] : List α) = [] := rfl
      rw [hnil] at ih
      rw [hnil, hgap]
      simp [packedLength, starts, hc, hd] at ih ⊢
      omega
    · have hstarts := starts_pos_iff.2 hnil
      rw [gap_of_ne_nil hnil, List.length_cons, ih]
      simp [packedLength, starts, hc, hd]
      omega

/-! ## Squeezing before and after a cut -/

section Map

variable {β : Type*} {f : β → α}

theorem starts_map (before : Bool) (l : List β) :
    starts blank before (l.map f) = starts (blank ∘ f) before l := by
  induction l generalizing before with
  | nil => rfl
  | cons c l ih => rw [List.map_cons, starts, starts, ih, Function.comp_apply]

theorem packedLength_map (l : List β) :
    packedLength blank (l.map f) = packedLength (blank ∘ f) l := by
  rw [packedLength, packedLength, starts_map, List.countP_map]
  rfl

theorem cutBetween_map {l₁ l₂ : List β} :
    CutBetween blank (l₁.map f) (l₂.map f) ↔ CutBetween (blank ∘ f) l₁ l₂ := by
  simp [CutBetween]

end Map

/-- Where more words follow, the squeezed list goes on: within its last word, or behind a
separator. -/
theorem squeeze_append_cases (l₁ : List α) (h : squeeze blank sep l₂ ≠ []) :
    ∃ e rest, blank e = false ∧
      (squeeze blank sep (l₁ ++ l₂) = squeeze blank sep l₁ ++ e :: rest ∧
          (CutBetween blank l₁ l₂ → squeeze blank sep l₁ = []) ∨
        squeeze blank sep (l₁ ++ l₂) = squeeze blank sep l₁ ++ sep :: e :: rest ∧
          CutBetween blank l₁ l₂) := by
  obtain ⟨e, rest, hrest⟩ := List.exists_cons_of_ne_nil h
  have he : blank e = false := (tidy_squeeze l₂).first e (by rw [hrest]; rfl)
  refine ⟨e, rest, he, ?_⟩
  by_cases hnil : squeeze blank sep l₁ = []
  · -- the first word begins behind the cut
    left
    rw [squeeze_append_of_blank (squeeze_eq_nil_iff.1 hnil), hrest, hnil]
    exact ⟨rfl, fun _ => rfl⟩
  by_cases hbetween : CutBetween blank l₁ l₂
  · right
    rw [squeeze_append_of_between hbetween hnil, gap_of_ne_nil h, hrest]
    exact ⟨rfl, hbetween⟩
  · left
    refine ⟨?_, fun h => absurd h hbetween⟩
    have hlast : ∀ c ∈ l₁.getLast?, blank c = false := by
      intro c hc
      apply Bool.eq_false_iff.2
      exact fun h => hbetween (.inl ⟨c, hc, h⟩)
    rcases l₂ with _ | ⟨d, l₂⟩
    · exact absurd squeeze_nil h
    · have hd : blank d = false := by
        apply Bool.eq_false_iff.2
        exact fun h => hbetween (.inr ⟨d, rfl, h⟩)
      rw [squeeze_append_of_within hd hlast, hrest]

/-- A list that goes on with an element that is not blank, within the first `n`, is cut to more. -/
theorem cut_ne_of_front {m : List α} {n : ℕ} (h : l₁ ++ [c] <+: l) (hc : blank c = false)
    (hn : l₁.length < n) (hm : m.length ≤ l₁.length) :
    (m.take n).rdropWhile blank ≠ (l.take n).rdropWhile blank := by
  intro heq
  have htake : l₁ ++ [c] <+: l.take n := by
    apply List.prefix_take_iff.2
    exact ⟨h, by simpa using Nat.succ_le_of_lt hn⟩
  have hcut : (l₁ ++ [c]).rdropWhile blank <+: (l.take n).rdropWhile blank :=
    rdropWhile_prefix_rdropWhile htake
  rw [List.rdropWhile_concat_neg blank l₁ c (Bool.eq_false_iff.1 hc), ← heq] at hcut
  have hle := hcut.length_le.trans
    ((List.rdropWhile_prefix blank _).trans (List.take_prefix n m)).length_le
  rw [List.length_append, List.length_singleton] at hle
  omega

/-- A list can be cut before it is squeezed, and then cut to `n`, exactly when nothing but blanks is
cut off, or what is kept fills the `n`, or all of it but the place that a separator would take. -/
theorem cut_squeeze_append_iff {n : ℕ} (hsep : blank sep = true) (hn : 1 < n) :
    ((squeeze blank sep l₁).take n).rdropWhile blank =
        ((squeeze blank sep (l₁ ++ l₂)).take n).rdropWhile blank ↔
      (∀ c ∈ l₂, blank c = true) ∨ n ≤ packedLength blank l₁ ∨
        packedLength blank l₁ + 1 = n ∧ CutBetween blank l₁ l₂ := by
  by_cases hblank : ∀ c ∈ l₂, blank c = true
  · exact iff_of_true (by rw [squeeze_append_blank hblank]) (.inl hblank)
  have hlen : (squeeze blank sep l₁).length = packedLength blank l₁ := length_squeeze l₁
  have hmore : squeeze blank sep l₂ ≠ [] := fun hnil => hblank (squeeze_eq_nil_iff.1 hnil)
  obtain ⟨e, rest, he, ⟨happend, hbetween⟩ | ⟨happend, hbetween⟩⟩ :=
    squeeze_append_cases l₁ hmore
  · rcases lt_or_ge (packedLength blank l₁) n with hlt | hge
    · -- the next word, or the rest of the last one, begins within the `n`
      apply iff_of_false
      · have hpre : squeeze blank sep l₁ ++ [e] <+: squeeze blank sep (l₁ ++ l₂) := by
          rw [happend]
          exact ⟨rest, by simp⟩
        exact cut_ne_of_front hpre he (by omega) le_rfl
      · rintro (h | h | ⟨hone, h⟩)
        · exact hblank h
        · omega
        · rw [hbetween h, List.length_nil] at hlen
          omega
    · apply iff_of_true
      · rw [happend, List.take_append_of_le_length (by omega)]
      · exact .inr (.inl hge)
  · rcases lt_trichotomy (packedLength blank l₁ + 1) n with hlt | heq | hgt
    · -- the separator and the next word begin within the `n`
      apply iff_of_false
      · have hpre : (squeeze blank sep l₁ ++ [sep]) ++ [e] <+: squeeze blank sep (l₁ ++ l₂) := by
          rw [happend]
          exact ⟨rest, by simp⟩
        exact cut_ne_of_front hpre he (by simp; omega) (by simp)
      · rintro (h | h | ⟨h, -⟩)
        · exact hblank h
        · omega
        · omega
    · -- only the separator does, and is trimmed
      apply iff_of_true
      · have hall : (squeeze blank sep l₁).take n = squeeze blank sep l₁ :=
          List.take_of_length_le (by omega)
        have hcut : (squeeze blank sep (l₁ ++ l₂)).take n = squeeze blank sep l₁ ++ [sep] := by
          rw [happend, ← heq, ← hlen, List.take_length_add_append]
          rfl
        rw [hall, hcut, List.rdropWhile_concat_pos blank _ sep hsep]
      · exact .inr (.inr ⟨heq, hbetween⟩)
    -- what is kept fills the `n` by itself
    · apply iff_of_true
      · rw [happend, List.take_append_of_le_length (by omega)]
      · exact .inr (.inl (by omega))

end Words
