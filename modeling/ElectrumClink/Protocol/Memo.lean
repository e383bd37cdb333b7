import ElectrumClink.Data.Words
import ElectrumClink.Protocol

/-!
# Memos

The note of a payer is text from a stranger that ends in an invoice, after the label of the
merchant. It is cut twice: to a budget before it is cleaned, and to the length of a memo after.

`memos_in_normal_form` says what comes out, for any text: one clean line behind the label.
`requestDescription_eq_fullDescription_iff` says when the first cut changes nothing. It can change
the memo, or lose it (`blank_prefix_loses_description`): a text that begins with blanks is cleaned
to less than what was kept.
-/

namespace ElectrumClink

open Words

namespace CharTables

variable {tables : CharTables}

/-- What is used of Python's `str`. -/
structure Lawful (tables : CharTables) : Prop where
  /-- U+0020 is the sole character that is printable and whitespace. -/
  sole_space : ∀ c, tables.isPrintable c = true ∧ tables.isSpace c = true ↔ c = ' '
  /-- ASCII letters are printable. -/
  letters : ∀ c, c.isAlpha = true → tables.isPrintable c = true

/-- A non-printable character becomes a space. -/
def visible (tables : CharTables) (ch : Char) : Char := if tables.isPrintable ch then ch else ' '

/-- A character that separates words: whitespace, or what becomes a space. -/
def isBlank (tables : CharTables) (ch : Char) : Bool := !tables.isPrintable ch || tables.isSpace ch

theorem isSpace_visible (hspace : tables.isSpace ' ' = true) (ch : Char) :
    tables.isSpace (tables.visible ch) = tables.isBlank ch := by
  rcases hprintable : tables.isPrintable ch
  · simp [visible, isBlank, hprintable, hspace]
  · simp [visible, isBlank, hprintable]

namespace Lawful

theorem isSpace_space (h : tables.Lawful) : tables.isSpace ' ' = true :=
  ((h.sole_space ' ').2 rfl).2

theorem isPrintable_space (h : tables.Lawful) : tables.isPrintable ' ' = true :=
  ((h.sole_space ' ').2 rfl).1

theorem isPrintable_visible (h : tables.Lawful) (ch : Char) :
    tables.isPrintable (tables.visible ch) = true := by
  rw [visible]
  split
  next hprintable => exact hprintable
  next => exact h.isPrintable_space

/-- A letter is no whitespace. -/
theorem isSpace_of_isAlpha (h : tables.Lawful) {ch : Char} (halpha : ch.isAlpha = true) :
    tables.isSpace ch = false := by
  apply Bool.eq_false_iff.2
  intro hspace
  obtain rfl := (h.sole_space ch).1 ⟨h.letters ch halpha, hspace⟩
  cases halpha

end Lawful

/-- `str.strip()` leaves no whitespace at the ends. -/
theorem trimmed_strip (s : List Char) : Trimmed tables.isSpace (tables.strip s) := by
  apply trimmed_rdropWhile_front _ List.prefix_rfl
  intro c hc
  have hnot := List.head?_dropWhile_not tables.isSpace s
  rw [Option.mem_def.1 hc] at hnot
  exact hnot

end CharTables

variable {tables : CharTables}

/-! ## Cleaning and cutting -/

/-- A description on one line: non-printables become spaces, and runs of whitespace one space. -/
def sanitize (tables : CharTables) (raw : List Char) : List Char :=
  squeeze tables.isSpace ' ' (raw.map tables.visible)

theorem tidy_sanitize (tables : CharTables) (raw : List Char) :
    Tidy tables.isSpace ' ' (sanitize tables raw) :=
  tidy_squeeze _

/-- A cleaned description, cut to the length of a memo and stripped at the end. -/
def cutMemo (tables : CharTables) (cleaned : List Char) : Option String :=
  if cleaned.isEmpty then none
  else some (String.ofList (tables.rstrip (cleaned.take memoMaxLen)))

theorem cutMemo_eq_none_iff {cleaned : List Char} :
    cutMemo tables cleaned = none ↔ cleaned = [] := by
  rw [cutMemo]
  split <;> simp_all

/-- What `request_description` approximates: all of the description is cleaned before it is cut. -/
def fullDescription (tables : CharTables) (description : String) : Option String :=
  cutMemo tables (sanitize tables description.toList)

/-- What `request_description` does: a first cut comes before the cleaning. -/
theorem requestDescription_eq {req : Request} {description : String}
    (h : req.get? "description" = some (.str description)) :
    requestDescription tables req =
      cutMemo tables (sanitize tables (description.toList.take rawDescriptionMaxLen)) := by
  rw [requestDescription, h]
  rfl

/-- Only a string can give a description. -/
theorem exists_description {req : Request} {memo : String}
    (h : requestDescription tables req = some memo) :
    ∃ description, req.get? "description" = some (.str description) := by
  unfold requestDescription at h
  split at h
  next raw hraw => exact ⟨raw, hraw⟩
  next => cases h

/-! ## The normal form of a description -/

/-- A clean line of printable characters that fits a memo. -/
structure NormalMemo (tables : CharTables) (memo : String) : Prop where
  ne_empty : memo ≠ ""
  length_le : memo.length ≤ memoMaxLen
  printable : ∀ c ∈ memo.toList, tables.isPrintable c = true
  leading : memo.toList.head? ≠ some ' '
  trailing : memo.toList.getLast? ≠ some ' '
  doubled : ¬ [' ', ' '] <:+: memo.toList

/-- A cleaned and cut description is in normal form. -/
theorem normalMemo_of_cutMemo (h : tables.Lawful) {raw : List Char} {memo : String}
    (hmemo : cutMemo tables (sanitize tables raw) = some memo) : NormalMemo tables memo := by
  rw [cutMemo] at hmemo
  split at hmemo
  next => cases hmemo
  next hne =>
    rw [List.isEmpty_iff] at hne
    obtain rfl := Option.some.inj hmemo
    have htidy := tidy_sanitize tables raw
    have hcut : Tidy tables.isSpace ' ' (tables.rstrip ((sanitize tables raw).take memoMaxLen)) :=
      htidy.cut memoMaxLen
    have hpre : tables.rstrip ((sanitize tables raw).take memoMaxLen) <+:
        (sanitize tables raw).take memoMaxLen := List.rdropWhile_prefix _ _
    constructor
    · rw [ne_eq, String.ofList_eq_empty_iff]
      exact rdropWhile_take_ne_nil hne htidy.first (by decide)
    · rw [String.length_ofList]
      exact hpre.length_le.trans (List.length_take_le _ _)
    · intro c hc
      rw [String.toList_ofList] at hc
      -- a character of the line is the separator, or was made visible
      rcases eq_or_mem_of_mem_squeeze (List.mem_of_mem_take (hpre.subset hc)) with rfl | hc
      · exact h.isPrintable_space
      · obtain ⟨ch, -, rfl⟩ := List.mem_map.1 hc
        exact h.isPrintable_visible ch
    · rw [String.toList_ofList]
      intro hhead
      exact Bool.false_ne_true ((hcut.first ' ' hhead).symm.trans h.isSpace_space)
    · rw [String.toList_ofList]
      intro hlast
      exact Bool.false_ne_true ((hcut.last ' ' hlast).symm.trans h.isSpace_space)
    · rw [String.toList_ofList]
      intro hdouble
      have hspace := hcut.single ' ' ' ' hdouble h.isSpace_space
      exact Bool.false_ne_true (hspace.symm.trans h.isSpace_space)

/-- A line in normal form is tidy. -/
theorem NormalMemo.tidy (h : tables.Lawful) {memo : String} (hmemo : NormalMemo tables memo) :
    Tidy tables.isSpace ' ' memo.toList := by
  -- in such a line a space is the only whitespace there can be
  have hspace : ∀ c ∈ memo.toList, tables.isSpace c = true → c = ' ' :=
    fun c hc hblank => (h.sole_space c).1 ⟨hmemo.printable c hc, hblank⟩
  refine ⟨⟨?_, ?_⟩, hspace, ?_⟩
  · intro c hc
    apply Bool.eq_false_iff.2
    intro hblank
    obtain rfl := hspace c (List.mem_of_mem_head? hc) hblank
    exact hmemo.leading hc
  · intro c hc
    apply Bool.eq_false_iff.2
    intro hblank
    obtain rfl := hspace c (List.mem_of_mem_getLast? hc) hblank
    exact hmemo.trailing hc
  · intro c d hcd hblank
    apply Bool.eq_false_iff.2
    intro hblank'
    obtain rfl := hspace c (hcd.subset List.mem_cons_self) hblank
    obtain rfl := hspace d (hcd.subset (by simp)) hblank'
    exact hmemo.doubled hcd

/-- A description in normal form is kept as it is. -/
theorem NormalMemo.requestDescription_eq_some (h : tables.Lawful) {memo : String}
    (hmemo : NormalMemo tables memo) {req : Request}
    (hreq : req.get? "description" = some (.str memo)) :
    requestDescription tables req = some memo := by
  -- no step finds anything to cut, to replace or to collapse
  have hlen : memo.toList.length ≤ memoMaxLen := by
    rw [String.length_toList]
    exact hmemo.length_le
  have hbudget : memo.toList.take rawDescriptionMaxLen = memo.toList :=
    List.take_of_length_le (hlen.trans (by decide))
  have hvisible : memo.toList.map tables.visible = memo.toList := by
    have hid : ∀ c ∈ memo.toList, tables.visible c = id c :=
      fun c hc => if_pos (hmemo.printable c hc)
    rw [List.map_congr_left hid, List.map_id]
  have hclean : sanitize tables memo.toList = memo.toList := by
    rw [sanitize, hvisible]
    exact squeeze_of_tidy (hmemo.tidy h)
  have hne : memo.toList ≠ [] := by
    rw [ne_eq, String.toList_eq_nil_iff]
    exact hmemo.ne_empty
  have hstrip : tables.rstrip memo.toList = memo.toList := (hmemo.tidy h).rdropWhile_eq
  rw [requestDescription_eq hreq, hbudget, hclean, cutMemo,
    if_neg (by rwa [List.isEmpty_iff]), List.take_of_length_le hlen, hstrip, String.ofList_toList]

/-! ## The memo of an invoice -/

/-- A label or a description, stripped, unless it is absent or blank. -/
def memoPart (tables : CharTables) (p : Option String) : Option (List Char) :=
  p.bind fun p =>
    let stripped := tables.strip p.toList
    if stripped.isEmpty then none else some stripped

/-- What the memo of an invoice is made of. -/
def memoParts (tables : CharTables) (offerLabel description : Option String) : List (List Char) :=
  [offerLabel, description].filterMap (memoPart tables)

theorem memoPart_some {text : String} (h : tables.strip text.toList ≠ []) :
    memoPart tables (some text) = some (tables.strip text.toList) := by
  rw [memoPart, Option.bind_some]
  exact if_neg (by rwa [List.isEmpty_iff])

theorem trimmed_of_memoPart {p : Option String} {part : List Char}
    (h : memoPart tables p = some part) : part ≠ [] ∧ Trimmed tables.isSpace part := by
  obtain ⟨p, -, hpart⟩ := Option.bind_eq_some_iff.1 h
  dsimp only at hpart
  split at hpart
  next => cases hpart
  next hne =>
    obtain rfl := Option.some.inj hpart
    exact ⟨fun hnil => hne (List.isEmpty_iff.2 hnil), CharTables.trimmed_strip p.toList⟩

/-- A label that is not blank comes first. -/
theorem memoParts_cons {text : String} {description : Option String}
    (h : tables.strip text.toList ≠ []) :
    ∃ rest, memoParts tables (some text) description = tables.strip text.toList :: rest :=
  ⟨[description].filterMap (memoPart tables), List.filterMap_cons_some (memoPart_some h)⟩

/-- The parts, joined. -/
def joinedMemo (tables : CharTables) (offerLabel description : Option String) : List Char :=
  " - ".toList.intercalate (memoParts tables offerLabel description)

theorem trimmed_joinedMemo (tables : CharTables) (offerLabel description : Option String) :
    Trimmed tables.isSpace (joinedMemo tables offerLabel description) ∧
      (memoParts tables offerLabel description ≠ [] →
        joinedMemo tables offerLabel description ≠ []) := by
  apply trimmed_intercalate
  intro part hpart
  obtain ⟨p, -, hpart⟩ := List.mem_filterMap.1 hpart
  exact trimmed_of_memoPart hpart

/-- The parts are joined, cut and stripped; without any the memo is a fixed text. -/
theorem invoiceMessage_eq (offerLabel description : Option String) :
    invoiceMessage tables offerLabel description =
      if memoParts tables offerLabel description = [] then "CLINK offer"
      else String.ofList
        (tables.rstrip ((joinedMemo tables offerLabel description).take memoMaxLen)) := by
  obtain ⟨htrimmed, hne⟩ := trimmed_joinedMemo tables offerLabel description
  set message := joinedMemo tables offerLabel description with hmessage
  -- a text that fits ends in no blank, so it may as well be cut and stripped
  have hcut : (if message.length > memoMaxLen then tables.rstrip (message.take memoMaxLen)
      else message) = tables.rstrip (message.take memoMaxLen) := by
    split
    next => rfl
    next hshort =>
      rw [List.take_of_length_le (not_lt.1 hshort)]
      exact htrimmed.rdropWhile_eq.symm
  have hdef : invoiceMessage tables offerLabel description =
      if (if message.length > memoMaxLen then tables.rstrip (message.take memoMaxLen)
        else message).isEmpty then "CLINK offer"
      else String.ofList (if message.length > memoMaxLen then
        tables.rstrip (message.take memoMaxLen) else message) := rfl
  rw [hdef, hcut]
  by_cases hparts : memoParts tables offerLabel description = []
  · have hnil : message = [] := by rw [hmessage, joinedMemo, hparts, List.intercalate_nil]
    rw [if_pos hparts, hnil, List.take_nil]
    rfl
  · have hleft : tables.rstrip (message.take memoMaxLen) ≠ [] :=
      rdropWhile_take_ne_nil (hne hparts) htrimmed.first (by decide)
    rw [if_neg hparts, if_neg (by rwa [List.isEmpty_iff])]

/-- A memo that an invoice can carry, with the label of the merchant in front. -/
structure InvoiceMemo (tables : CharTables) (offerLabel : Option String) (message : String) :
    Prop where
  ne_empty : message ≠ ""
  length_le : message.length ≤ memoMaxLen
  trimmed : Trimmed tables.isSpace message.toList
  /-- However long the description is, it does not displace the label. -/
  label_first : ∀ text, offerLabel = some text →
    tables.rstrip ((tables.strip text.toList).take memoMaxLen) <+: message.toList

/-- Whatever the label and the description are, they make such a memo. -/
theorem invoiceMemo_invoiceMessage (h : tables.Lawful) (offerLabel description : Option String) :
    InvoiceMemo tables offerLabel (invoiceMessage tables offerLabel description) := by
  obtain ⟨htrimmed, hne⟩ := trimmed_joinedMemo tables offerLabel description
  rw [invoiceMessage_eq]
  by_cases hparts : memoParts tables offerLabel description = []
  · -- the fixed text, and no label that could come first
    rw [if_pos hparts]
    refine ⟨by decide, by decide, ⟨?_, ?_⟩, ?_⟩
    · rintro c hc
      obtain rfl : 'C' = c := Option.some.inj hc
      exact h.isSpace_of_isAlpha (by decide)
    · rintro c hc
      obtain rfl : 'r' = c := Option.some.inj hc
      exact h.isSpace_of_isAlpha (by decide)
    · rintro text rfl
      have hblank : tables.strip text.toList = [] := by
        by_contra hne
        obtain ⟨rest, hrest⟩ : ∃ rest, memoParts tables (some text) description =
          tables.strip text.toList :: rest := memoParts_cons hne
        rw [hrest] at hparts
        cases hparts
      rw [hblank]
      exact List.nil_prefix
  · rw [if_neg hparts]
    constructor
    · rw [ne_eq, String.ofList_eq_empty_iff]
      exact rdropWhile_take_ne_nil (hne hparts) htrimmed.first (by decide)
    -- trimming after the cut only shortens
    · rw [String.length_ofList]
      exact (List.rdropWhile_prefix _ _).length_le.trans (List.length_take_le _ _)
    · rw [String.toList_ofList]
      exact trimmed_rdropWhile_front htrimmed.first (List.take_prefix _ _)
    · rintro text rfl
      rw [String.toList_ofList]
      by_cases hblank : tables.strip text.toList = []
      · rw [hblank]
        exact List.nil_prefix
      · -- the label is in front before the cut, and cutting both keeps it there
        obtain ⟨rest, hrest⟩ : ∃ rest, memoParts tables (some text) description =
          tables.strip text.toList :: rest := memoParts_cons hblank
        rw [joinedMemo, hrest]
        apply rdropWhile_prefix_rdropWhile
        exact (prefix_intercalate _ _ _).take _

/-- Memos are in normal form, for every label, every setting of the offer and every request: a
description is a clean line that cleaning keeps, and the memo of an invoice begins with the label
and fits. Where the offer takes no memo from payers, the request does not matter. -/
theorem memos_in_normal_form (h : tables.Lawful) :
    (∀ req memo, requestDescription tables req = some memo →
      NormalMemo tables memo ∧
        ∀ next : Request, next.get? "description" = some (.str memo) →
          requestDescription tables next = some memo) ∧
      (∀ offerLabel offer req, InvoiceMemo tables offerLabel
        (invoiceMessage tables offerLabel (effectiveDescription tables offer req))) ∧
      ∀ offerLabel offer, offer.allowPayerMemo = false → ∀ req req',
        invoiceMessage tables offerLabel (effectiveDescription tables (some offer) req) =
          invoiceMessage tables offerLabel (effectiveDescription tables (some offer) req') := by
  refine ⟨?_, ?_, ?_⟩
  · intro req memo hmemo
    obtain ⟨description, hreq⟩ := exists_description hmemo
    -- the first cut does not matter here: whatever is cleaned comes out in normal form
    rw [requestDescription_eq hreq] at hmemo
    have hnormal := normalMemo_of_cutMemo h hmemo
    exact ⟨hnormal, fun next hnext => hnormal.requestDescription_eq_some h hnext⟩
  · intro offerLabel offer req
    exact invoiceMemo_invoiceMessage h offerLabel _
  · intro offerLabel offer hgate req req'
    simp only [effectiveDescription, hgate, Bool.not_false, if_true]

/-- Python's tables, as far as they are about ASCII. -/
def CharTables.ascii : CharTables where
  isPrintable c := decide (' ' ≤ c ∧ c ≤ '~')
  isSpace c := decide (c = ' ' ∨ 9 ≤ c.toNat ∧ c.toNat ≤ 13 ∨ 28 ≤ c.toNat ∧ c.toNat ≤ 31)

/-- A request with this description. -/
def Request.describing (description : String) : Request :=
  (∅ : Request).set "description" (.str description)

theorem CharTables.ascii_lawful : CharTables.ascii.Lawful := by
  constructor
  · intro c
    simp only [CharTables.ascii, decide_eq_true_eq]
    constructor
    · rintro ⟨⟨hlow, -⟩, rfl | hcontrol⟩
      · rfl
      · have hle : 32 ≤ c.toNat := hlow
        omega
    · rintro rfl
      decide
  · intro c halpha
    have hletter : (decide (65 ≤ c.toNat ∧ c.toNat ≤ 90) ||
        decide (97 ≤ c.toNat) && decide (c.toNat ≤ 122)) = true := halpha
    have hprintable : 32 ≤ c.toNat ∧ c.toNat ≤ 126 := by
      simp only [Bool.or_eq_true, Bool.and_eq_true, decide_eq_true_eq] at hletter
      omega
    exact decide_eq_true hprintable

/-- A description over three lines ends up on one, behind the label. -/
theorem memos_in_normal_form_lines :
    NormalMemo .ascii "two coffees" ∧
      InvoiceMemo .ascii (some " Shop ") "Shop - two coffees" := by
  have hmemos := memos_in_normal_form CharTables.ascii_lawful
  have hdescription : requestDescription .ascii (.describing "\n two\t\ncoffees\n") =
      some "two coffees" := by decide +kernel
  have hmessage : invoiceMessage .ascii (some " Shop ") (effectiveDescription .ascii
      (some { offerId := "5f1c" }) (.describing "\n two\t\ncoffees\n")) = "Shop - two coffees" := by
    decide +kernel
  refine ⟨(hmemos.1 _ _ hdescription).1, ?_⟩
  rw [← hmessage]
  exact hmemos.2.1 _ _ _

/-! ## The first cut -/

/-- A cut that leaves the same characters leaves the same memo. -/
theorem cutMemo_eq_cutMemo_iff {l₁ l₂ : List Char} (h₁ : Trimmed tables.isSpace l₁)
    (h₂ : Trimmed tables.isSpace l₂) :
    cutMemo tables l₁ = cutMemo tables l₂ ↔
      tables.rstrip (l₁.take memoMaxLen) = tables.rstrip (l₂.take memoMaxLen) := by
  have hnil : ∀ {l : List Char}, Trimmed tables.isSpace l →
      (l = [] ↔ tables.rstrip (l.take memoMaxLen) = []) := by
    intro l hl
    constructor
    · rintro rfl
      rfl
    · intro hcut
      by_contra hne
      exact rdropWhile_take_ne_nil hne hl.first (by decide) hcut
  rw [cutMemo, cutMemo]
  by_cases hl₁ : l₁ = []
  · by_cases hl₂ : l₂ = []
    · rw [hl₁, hl₂]
      simp
    · rw [if_pos (by rwa [List.isEmpty_iff]), if_neg (by rwa [List.isEmpty_iff]),
        (hnil h₁).1 hl₁]
      have hne : tables.rstrip (l₂.take memoMaxLen) ≠ [] := fun h => hl₂ ((hnil h₂).2 h)
      exact iff_of_false (fun h => nomatch h) hne.symm
  · by_cases hl₂ : l₂ = []
    · rw [if_neg (by rwa [List.isEmpty_iff]), if_pos (by rwa [List.isEmpty_iff]),
        (hnil h₂).1 hl₂]
      have hne : tables.rstrip (l₁.take memoMaxLen) ≠ [] := fun h => hl₁ ((hnil h₁).2 h)
      exact iff_of_false (fun h => nomatch h) hne
    · rw [if_neg (by rwa [List.isEmpty_iff]), if_neg (by rwa [List.isEmpty_iff]),
        Option.some.injEq, String.ofList_inj]

/-- The first cut does not change the memo exactly when it cuts off nothing but blanks, or what it
keeps fills a memo, or all of it but the place of a space where the cut is between two words. What
it keeps takes one character for each one that is no blank, and one for each word but the first. -/
theorem requestDescription_eq_fullDescription_iff (hspace : tables.isSpace ' ' = true)
    {req : Request} {description : String}
    (hreq : req.get? "description" = some (.str description)) :
    requestDescription tables req = fullDescription tables description ↔
      (∀ c ∈ description.toList.drop rawDescriptionMaxLen, tables.isBlank c = true) ∨
        memoMaxLen ≤ packedLength tables.isBlank (description.toList.take rawDescriptionMaxLen) ∨
        packedLength tables.isBlank (description.toList.take rawDescriptionMaxLen) + 1 =
            memoMaxLen ∧
          CutBetween tables.isBlank (description.toList.take rawDescriptionMaxLen)
            (description.toList.drop rawDescriptionMaxLen) := by
  have hblank : tables.isSpace ∘ tables.visible = tables.isBlank :=
    funext (CharTables.isSpace_visible hspace)
  -- what is cut off first is made visible together with what is kept
  have hsplit : description.toList.map tables.visible =
      (description.toList.take rawDescriptionMaxLen).map tables.visible ++
        (description.toList.drop rawDescriptionMaxLen).map tables.visible := by
    rw [← List.map_append, List.take_append_drop]
  rw [requestDescription_eq hreq, fullDescription,
    cutMemo_eq_cutMemo_iff (tidy_sanitize tables _).toTrimmed (tidy_sanitize tables _).toTrimmed,
    sanitize, sanitize, hsplit]
  refine (cut_squeeze_append_iff hspace (by decide)).trans ?_
  rw [packedLength_map, cutBetween_map, hblank, List.forall_mem_map]
  simp only [CharTables.isSpace_visible hspace]

/-- A short description is not cut first. -/
theorem requestDescription_eq_fullDescription_iff_short :
    requestDescription .ascii (.describing " two\ncoffees ") =
      fullDescription .ascii " two\ncoffees " :=
  (requestDescription_eq_fullDescription_iff rfl rfl).2
    (.inl (List.all_eq_true.1 (by decide +kernel)))

/-- The description is 400 blanks and a letter. The first cut leaves the blanks, and no memo. -/
theorem blank_prefix_loses_description :
    ¬ ∀ (req : Request) (description : String),
      req.get? "description" = some (.str description) →
        requestDescription .ascii req = fullDescription .ascii description := by
  intro h
  set text := List.replicate 400 ' ' ++ ['x'] with htext
  have htake : text.take rawDescriptionMaxLen = List.replicate 400 ' ' :=
    List.take_left' List.length_replicate
  have hkept : sanitize .ascii (text.take rawDescriptionMaxLen) = [] := by
    rw [htake, sanitize, List.map_replicate]
    apply squeeze_eq_nil_iff.2
    intro c hc
    obtain rfl := List.eq_of_mem_replicate hc
    rfl
  have hlost := h (.describing (String.ofList text)) (String.ofList text) rfl
  rw [requestDescription_eq rfl, fullDescription, String.toList_ofList, hkept] at hlost
  -- but the letter is in the whole description
  have hfull : sanitize .ascii text = [] := cutMemo_eq_none_iff.1 hlost.symm
  have hx : 'x' ∈ text := List.mem_append_right _ (List.mem_singleton_self 'x')
  have hblank := squeeze_eq_nil_iff.1 hfull _ (List.mem_map_of_mem hx)
  cases hblank

end ElectrumClink
