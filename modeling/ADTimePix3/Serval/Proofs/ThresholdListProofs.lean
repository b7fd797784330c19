import ADTimePix3.Acquire.Proofs.StoiProofs
import ADTimePix3.Serval.ThresholdList
import Mathlib.Data.List.ReduceOption

/-!
# Threshold lists: proofs

The blanks that are trimmed make no difference to `std::stoi`, so an item is read as it stands, unless it is blank
(`parseThresholdList_eq_some_iff`).

Main result: `parseThresholdList_spec`.
-/

namespace ADTimePix3.Serval.Thresholds

open Acquire (Numeral Begins Decimal printInt splitSign stoi_eq_some_iff numeral_printInt)
open MachineInt (Fits)
open ADTimePix3.Stream (Json)

variable {s before behind item : List Char} {items : List (List Char)} {text : String} {z : ℤ} {c : Char}
  {entries : List (Option ℤ)} {numbers : List ℤ} {e : Option ℤ}

/-! ## Blanks -/

theorem isSpace_of_isBlank (h : isBlank c = true) : Acquire.isSpace c = true := by
  simp only [isBlank, Bool.or_eq_true, decide_eq_true_eq] at h
  rcases h with rfl | h
  · decide
  · simp [Acquire.isSpace, h]

theorem isDigit_of_isBlank (h : isBlank c = true) : c.isDigit = false := by
  cases hdigit : c.isDigit with
  | false => rfl
  | true =>
    have hspace := isSpace_of_isBlank h
    rw [Acquire.isSpace_of_isDigit hdigit] at hspace
    cases hspace

theorem Blank.isSpace (h : Blank s) : ∀ c ∈ s, Acquire.isSpace c = true := fun c hc => isSpace_of_isBlank (h c hc)

theorem Blank.head?_isDigit (h : Blank s) : ∀ c ∈ s.head?, c.isDigit = false := fun c hc =>
  isDigit_of_isBlank (h c (List.mem_of_mem_head? hc))

theorem blank_append : Blank (s ++ before) ↔ Blank s ∧ Blank before := List.forall_mem_append

/-- An item without the blanks around it, and these. -/
theorem exists_trimItem (item : List Char) :
    ∃ before behind, item = before ++ (trimItem item ++ behind) ∧ Blank before ∧ Blank behind := by
  have hback := List.takeWhile_append_dropWhile (p := isBlank) (l := (item.dropWhile isBlank).reverse)
  refine ⟨item.takeWhile isBlank, ((item.dropWhile isBlank).reverse.takeWhile isBlank).reverse, ?_,
    fun c hc => List.mem_takeWhile_imp hc, fun c hc => List.mem_takeWhile_imp (List.mem_reverse.mp hc)⟩
  have htrim : trimItem item ++ ((item.dropWhile isBlank).reverse.takeWhile isBlank).reverse =
      item.dropWhile isBlank := by
    have hreverse := congrArg List.reverse hback
    rwa [List.reverse_append, List.reverse_reverse] at hreverse
  rw [htrim, List.takeWhile_append_dropWhile]

theorem trimItem_eq_nil_iff : trimItem item = [] ↔ Blank item := by
  constructor
  · intro h
    obtain ⟨before, behind, hitem, hbefore, hbehind⟩ := exists_trimItem item
    rw [h, List.nil_append] at hitem
    rw [hitem]
    exact blank_append.mpr ⟨hbefore, hbehind⟩
  · intro h
    have hdrop : item.dropWhile isBlank = [] := List.dropWhile_eq_nil_iff.mpr h
    show ((item.dropWhile isBlank).reverse.dropWhile isBlank).reverse = []
    rw [hdrop]
    rfl

/-! ## Blanks and `std::stoi` -/

theorem stoi_append_left (h : Blank before) (s : List Char) : Acquire.stoi (before ++ s) = Acquire.stoi s := by
  unfold Acquire.stoi
  rw [List.dropWhile_append_of_pos h.isSpace]

theorem splitSign_append (h : s ≠ []) (t : List Char) :
    splitSign (s ++ t) = ((splitSign s).1, (splitSign s).2 ++ t) := by
  obtain ⟨c, s, rfl⟩ := List.exists_cons_of_ne_nil h
  unfold splitSign
  rw [List.cons_append]
  split
  · rename_i heq
    obtain ⟨rfl, rfl⟩ := List.cons.inj heq
    rfl
  · rename_i heq
    obtain ⟨rfl, rfl⟩ := List.cons.inj heq
    rfl
  · rename_i h1 h2
    split
    · rename_i heq
      exact absurd (by rw [(List.cons.inj heq).1]) (h1 (s ++ t))
    · rename_i heq
      exact absurd (by rw [(List.cons.inj heq).1]) (h2 (s ++ t))
    · rfl

theorem takeWhile_append_of_forall_not {f : Char → Bool} (h : ∀ c ∈ behind, f c = false) (s : List Char) :
    (s ++ behind).takeWhile f = s.takeWhile f := by
  have hbehind : behind.takeWhile f = [] := by
    cases behind with
    | nil => rfl
    | cons c t =>
      rw [List.takeWhile_cons_of_neg]
      rw [h c List.mem_cons_self]
      exact Bool.false_ne_true
  rw [List.takeWhile_append, hbehind, List.append_nil]
  split
  · rename_i hlen
    exact ((List.takeWhile_prefix f).eq_of_length hlen).symm
  · rfl

theorem stoi_append_right (h : Blank behind) (s : List Char) : Acquire.stoi (s ++ behind) = Acquire.stoi s := by
  have hdigits : ∀ t, (t ++ behind).takeWhile Char.isDigit = t.takeWhile Char.isDigit :=
    takeWhile_append_of_forall_not fun c hc => isDigit_of_isBlank (h c hc)
  unfold Acquire.stoi
  rw [List.dropWhile_append]
  by_cases hs : s.dropWhile Acquire.isSpace = []
  · rw [hs, List.isEmpty_nil, if_pos rfl, List.dropWhile_eq_nil_iff.mpr h.isSpace]
  · rw [if_neg (by simpa using hs), splitSign_append hs]
    simp only [hdigits]

theorem stoi_trimItem (item : List Char) : Acquire.stoi (trimItem item) = Acquire.stoi item := by
  obtain ⟨before, behind, hitem, hbefore, hbehind⟩ := exists_trimItem item
  conv_rhs => rw [hitem]
  rw [stoi_append_left hbefore, stoi_append_right hbehind]

/-! ## The parser -/

/-- An item as it is read: passed over, or with the number that it begins with. -/
def Read : Option ℤ → List Char → Prop
  | none, item => Blank item
  | some z, item => ¬ Blank item ∧ Acquire.stoi item = some z

/-- The loop over the items. -/
theorem mapM_stoi_iff :
    ((items.map trimItem).filter (· ≠ [])).mapM Acquire.stoi = some numbers ↔
      ∃ entries, List.Forall₂ Read entries items ∧ entries.reduceOption = numbers := by
  induction items generalizing numbers with
  | nil => simp [eq_comm]
  | cons item items ih =>
    simp only [List.forall₂_cons_right_iff, List.map_cons]
    by_cases hblank : Blank item
    · rw [List.filter_cons_of_neg (by simpa using trimItem_eq_nil_iff.mpr hblank), ih]
      constructor
      · rintro ⟨entries, hread, rfl⟩
        exact ⟨none :: entries, ⟨none, entries, hblank, hread, rfl⟩, rfl⟩
      · rintro ⟨_, ⟨e, entries, he, hread, rfl⟩, rfl⟩
        cases e with
        | none => exact ⟨entries, hread, rfl⟩
        | some z => exact absurd hblank he.1
    · rw [List.filter_cons_of_pos (by simpa using fun h => hblank (trimItem_eq_nil_iff.mp h)), List.mapM_cons,
        stoi_trimItem]
      simp only [Option.bind_eq_bind, Option.bind_eq_some_iff, Option.pure_def, Option.some.injEq, ih]
      constructor
      · rintro ⟨z, hz, _, ⟨entries, hread, rfl⟩, rfl⟩
        exact ⟨some z :: entries, ⟨some z, entries, ⟨hblank, hz⟩, hread, rfl⟩, rfl⟩
      · rintro ⟨_, ⟨e, entries, he, hread, rfl⟩, rfl⟩
        cases e with
        | none => exact absurd he hblank
        | some z => exact ⟨z, he.2, _, ⟨entries, hread, rfl⟩, rfl⟩

/-- What the parser accepts, over all strings. -/
theorem parseThresholdList_eq_some_iff {out : Json} :
    parseThresholdList text = some out ↔
      ∃ entries, List.Forall₂ Read entries (text.toList.splitOn ',') ∧ entries.reduceOption ≠ [] ∧
        out = thsArr entries.reduceOption := by
  unfold parseThresholdList
  simp only [Option.bind_eq_bind, Option.bind_eq_some_iff, mapM_stoi_iff]
  constructor
  · rintro ⟨_, ⟨entries, hread, rfl⟩, hout⟩
    obtain ⟨hne, hout⟩ := Option.ite_none_left_eq_some.mp hout
    exact ⟨entries, hread, hne, (Option.some.inj hout).symm⟩
  · rintro ⟨entries, hread, hne, rfl⟩
    exact ⟨_, ⟨entries, hread, rfl⟩, if_neg hne⟩

/-! ## Items -/

theorem Item.begins (h : Item z item) : Begins z item := by
  obtain ⟨before, numeral, behind, rfl, hbefore, hbehind, hnumeral, -⟩ := h
  exact ⟨before, numeral, behind, rfl, hbefore.isSpace, hnumeral, hbehind.head?_isDigit⟩

theorem Item.stoi_eq (h : Item z item) : Acquire.stoi item = some z := by
  have hfits : Fits z := by
    obtain ⟨-, -, -, -, -, -, -, hfits⟩ := h
    exact hfits
  exact stoi_eq_some_iff.mpr ⟨hfits, h.begins⟩

/-- A number has digits. -/
theorem Begins.not_blank (h : Begins z item) : ¬ Blank item := by
  obtain ⟨spaces, numeral, rest, rfl, -, ⟨sign, digits, n, rfl, hdec, -⟩, -⟩ := h
  obtain ⟨d, ds, rfl⟩ := List.exists_cons_of_ne_nil hdec.ne_nil
  intro hblank
  have hd := isDigit_of_isBlank (hblank d (by simp))
  rw [hdec.isDigit d List.mem_cons_self] at hd
  cases hd

/-- A plain item is one of the grammar as soon as a number is read from it. -/
theorem Plain.item_of_stoi (h : Plain item) (hstoi : Acquire.stoi item = some z) : Item z item := by
  obtain ⟨hfits, spaces, numeral, rest, hitem, hspaces, hnumeral, hrest⟩ := stoi_eq_some_iff.mp hstoi
  obtain ⟨hbefore, hbehind⟩ := h z spaces numeral rest hitem hspaces hnumeral hrest
  exact ⟨spaces, numeral, rest, hitem, hbefore, hbehind, hnumeral, hfits⟩

theorem Entry.read (h : Entry e item) : Read e item := by
  cases e with
  | none => exact h
  | some z =>
    have hitem : Item z item := h
    exact ⟨Begins.not_blank hitem.begins, hitem.stoi_eq⟩

theorem Read.entry (h : Read e item) (hplain : Plain item) : Entry e item := by
  cases e with
  | none => exact h
  | some z => exact hplain.item_of_stoi h.2

/-- The items of the grammar are plain. -/
theorem Entry.plain (h : Entry e item) : Plain item := by
  intro z spaces numeral rest hitem hspaces hnumeral hrest
  cases e with
  | none => exact absurd h (Begins.not_blank ⟨spaces, numeral, rest, hitem, hspaces, hnumeral, hrest⟩)
  | some z' =>
    obtain ⟨before, numeral', behind, hitem', hbefore, hbehind, hnumeral', -⟩ := h
    obtain ⟨h1, h2⟩ := hnumeral.cut hspaces hrest hitem
    obtain ⟨h1', h2'⟩ := hnumeral'.cut hbefore.isSpace hbehind.head?_isDigit hitem'
    rw [h1, ← h1', h2, ← h2']
    exact ⟨hbefore, hbehind⟩

theorem isBlank_comma : isBlank ',' = false := by decide

theorem comma_not_mem_numeral (h : Numeral z s) : ',' ∉ s := by
  obtain ⟨sign, digits, n, rfl, hdec, -⟩ := h
  intro hmem
  rcases List.mem_append.mp hmem with hmem | hmem
  · cases sign <;> simp [Acquire.Sign.text] at hmem
  · exact absurd (hdec.isDigit ',' hmem) (by decide)

theorem Blank.comma_not_mem (h : Blank s) : ',' ∉ s := fun hmem => by
  rw [Blank] at h
  simpa [isBlank_comma] using h ',' hmem

theorem Entry.comma_not_mem (h : Entry e item) : ',' ∉ item := by
  cases e with
  | none => exact Blank.comma_not_mem h
  | some z =>
    obtain ⟨before, numeral, behind, rfl, hbefore, hbehind, hnumeral, -⟩ := h
    simp [hbefore.comma_not_mem, hbehind.comma_not_mem, comma_not_mem_numeral hnumeral]

theorem exists_of_mem {r : Option ℤ → List Char → Prop} (h : List.Forall₂ r entries items) (hitem : item ∈ items) :
    ∃ e, r e item := by
  induction h with
  | nil => cases hitem
  | cons he _ ih =>
    rcases List.mem_cons.mp hitem with rfl | hitem
    · exact ⟨_, he⟩
    · exact ih hitem

/-- The items of a list are what lies between its commas. -/
theorem splitOn_of_entries (h : List.Forall₂ Entry entries items) (hne : entries.reduceOption ≠ [])
    (htext : text.toList = [','].intercalate items) : text.toList.splitOn ',' = items := by
  rw [htext]
  refine List.splitOn_intercalate ',' (fun item hitem => ?_) ?_
  · obtain ⟨e, he⟩ := exists_of_mem h hitem
    exact he.comma_not_mem
  · rintro rfl
    cases h
    exact hne rfl

/-! ## The grammar -/

theorem InGrammar.loose (h : InGrammar numbers text) : InLooseGrammar numbers text := by
  obtain ⟨hne, items, htext, hitems⟩ := h
  refine ⟨hne, numbers.map some, items, htext, ?_, by simp [List.reduceOption]⟩
  exact List.forall₂_map_left_iff.mpr hitems

theorem parseThresholdList_of_grammar (h : InLooseGrammar numbers text) :
    parseThresholdList text = some (thsArr numbers) := by
  obtain ⟨hne, entries, items, htext, hentries, rfl⟩ := h
  rw [parseThresholdList_eq_some_iff]
  refine ⟨entries, ?_, hne, rfl⟩
  rw [splitOn_of_entries hentries hne htext]
  exact hentries.imp fun _ _ => Entry.read

/-- Where no item has more than a number, nothing else is accepted. -/
theorem parseThresholdList_plain_iff (hplain : ∀ item ∈ text.toList.splitOn ',', Plain item) {out : Json} :
    parseThresholdList text = some out ↔ ∃ numbers, InLooseGrammar numbers text ∧ out = thsArr numbers := by
  constructor
  · intro h
    obtain ⟨entries, hread, hne, rfl⟩ := parseThresholdList_eq_some_iff.mp h
    have hentries : List.Forall₂ Entry entries (text.toList.splitOn ',') := by
      rw [List.forall₂_iff_get] at hread ⊢
      exact ⟨hread.1, fun i h1 h2 => (hread.2 i h1 h2).entry (hplain _ (List.getElem_mem h2))⟩
    exact ⟨_, ⟨hne, entries, _, (List.intercalate_splitOn ',').symm, hentries, rfl⟩, rfl⟩
  · rintro ⟨numbers, h, rfl⟩
    exact parseThresholdList_of_grammar h

theorem Malformed.not_read (h : Malformed item) : ¬ Read e item := by
  intro hread
  cases e with
  | none => exact h.1 hread
  | some z =>
    obtain ⟨hfits, hbegins⟩ := stoi_eq_some_iff.mp hread.2
    exact h.2 z hfits hbegins

/-- A malformed item is noticed wherever it is. -/
theorem parseThresholdList_malformed (hitem : item ∈ text.toList.splitOn ',') (h : Malformed item) :
    parseThresholdList text = none := by
  rw [Option.eq_none_iff_forall_ne_some]
  intro out hout
  obtain ⟨entries, hread, -⟩ := parseThresholdList_eq_some_iff.mp hout
  obtain ⟨e, he⟩ := exists_of_mem hread hitem
  exact h.not_read he

theorem inGrammar_printed {padded : List Padded} (hne : padded ≠ []) (h : ∀ p ∈ padded, p.Valid) :
    InGrammar (padded.map Padded.number) (printed padded) := by
  refine ⟨by simpa using hne, padded.map Padded.text, String.toList_ofList, ?_⟩
  rw [List.forall₂_map_left_iff, List.forall₂_map_right_iff, List.forall₂_same]
  intro p hp
  exact ⟨p.before, printInt p.number, p.behind, rfl, (h p hp).before, (h p hp).behind, numeral_printInt p.number,
    (h p hp).number⟩

/-! ## Sending -/

/-- A channel that is on and has a list that is not accepted is not configured. -/
theorem configureImageChannel_eq_none {isPreview : Bool} {i : ℕ} {p : ImageParams} {j : Json}
    (henabled : isEnabled p.write = true) (hths : p.ths = some text) (htext : text ≠ "")
    (h : parseThresholdList text = none) : configureImageChannel true isPreview i p j = none := by
  have hfields : imageFields true p = none := by
    have hthresholds : thresholdFields true p.ths = none := by
      rw [hths]
      simp [thresholdFields, htext, h]
    unfold imageFields
    simp [hthresholds]
  unfold configureImageChannel configureChannel
  simp [henabled, hfields]

theorem buildDestination_eq_none {p : DestinationParams} (hsupports : p.supportsImageThresholds = true)
    (hchannel : ∃ channel ∈ imageParams p, isEnabled channel.write = true ∧ channel.ths = some text) (htext : text ≠ "")
    (h : parseThresholdList text = none) : buildDestination p = none := by
  rw [Option.eq_none_iff_forall_ne_some]
  intro out hout
  unfold buildDestination at hout
  simp only [Option.bind_eq_bind, Option.bind_eq_some_iff, hsupports] at hout
  obtain ⟨j1, -, j2, -, j3, himg, j4, himg1, j5, hprvImg, j6, hprvImg1, -⟩ := hout
  obtain ⟨channel, hmem, henabled, hths⟩ := hchannel
  simp only [imageParams, List.mem_cons, List.not_mem_nil, or_false] at hmem
  rcases hmem with rfl | rfl | rfl | rfl
  · rw [configureImageChannel_eq_none henabled hths htext h] at himg
    cases himg
  · rw [configureImageChannel_eq_none henabled hths htext h] at himg1
    cases himg1
  · rw [configureImageChannel_eq_none henabled hths htext h] at hprvImg
    cases hprvImg
  · rw [configureImageChannel_eq_none henabled hths htext h] at hprvImg1
    cases hprvImg1

/-! ## The result -/

/-- Blank items are passed over. A list whose other items, as far as they begin with a number, are nothing but the
number is accepted if and only if these are 32-bit integers, and at least one is there; they are returned in
order. A printed list is read back; a list with an item that does not begin with a 32-bit integer is rejected, and
no destination is built with it. -/
theorem parseThresholdList_spec (text : String) :
    ((∀ item ∈ text.toList.splitOn ',', Plain item) → ∀ out,
      parseThresholdList text = some out ↔ ∃ numbers, InLooseGrammar numbers text ∧ out = thsArr numbers) ∧
    (∀ numbers, InLooseGrammar numbers text → parseThresholdList text = some (thsArr numbers)) ∧
    (∀ padded : List Padded, padded ≠ [] → (∀ p ∈ padded, p.Valid) → text = printed padded →
      parseThresholdList text = some (thsArr (padded.map Padded.number))) ∧
    ((∃ item ∈ text.toList.splitOn ',', Malformed item) →
      parseThresholdList text = none ∧
        ∀ p : DestinationParams, p.supportsImageThresholds = true →
          (∃ channel ∈ imageParams p, isEnabled channel.write = true ∧ channel.ths = some text) →
            buildDestination p = none) := by
  refine ⟨fun hplain out => parseThresholdList_plain_iff hplain, fun numbers => parseThresholdList_of_grammar, ?_, ?_⟩
  · rintro padded hne hvalid rfl
    exact parseThresholdList_of_grammar (inGrammar_printed hne hvalid).loose
  · rintro ⟨item, hitem, hmalformed⟩
    have hnone := parseThresholdList_malformed hitem hmalformed
    refine ⟨hnone, fun p hsupports hchannel => buildDestination_eq_none hsupports hchannel ?_ hnone⟩
    -- an empty list has no item but a blank one
    rintro rfl
    obtain rfl : item = [] := by simpa using hitem
    exact hmalformed.1 fun c hc => nomatch hc

theorem malformed_of_stoi (hblank : ¬ Blank item) (h : Acquire.stoi item = none) : Malformed item := by
  refine ⟨hblank, fun z hfits hbegins => ?_⟩
  rw [stoi_eq_some_iff.mpr ⟨hfits, hbegins⟩] at h
  cases h

theorem parseThresholdList_spec_blanks :
    parseThresholdList " 7 " = some (thsArr [7]) ∧
      parseThresholdList (printed [⟨[' '], 7, []⟩, ⟨[], -20, ['\t']⟩]) = some (thsArr [7, -20]) ∧
        parseThresholdList "5,abc" = none := by
  have hblank : Blank [' '] := by simp [Blank, isBlank]
  have htab : Blank ['\t'] := by simp [Blank, isBlank]
  have hnil : Blank [] := fun c hc => nomatch hc
  have hseven : Item 7 [' ', '7', ' '] :=
    ⟨[' '], ['7'], [' '], rfl, hblank, hblank, numeral_printInt 7, by decide⟩
  have hsplit : " 7 ".toList.splitOn ',' = [[' ', '7', ' ']] := by decide
  have hplain : ∀ item ∈ " 7 ".toList.splitOn ',', Plain item := by
    rw [hsplit]
    intro item hitem
    obtain rfl := List.mem_singleton.mp hitem
    exact Entry.plain (e := some 7) hseven
  have hgrammar : InGrammar [7] " 7 " := ⟨List.cons_ne_nil _ _, _, rfl, .cons hseven .nil⟩
  have hvalid : ∀ p ∈ [⟨[' '], 7, []⟩, ⟨[], -20, ['\t']⟩], Padded.Valid p :=
    List.forall_mem_cons.mpr ⟨⟨hblank, by decide, hnil⟩, List.forall_mem_singleton.mpr ⟨hnil, by decide, htab⟩⟩
  have habc : Malformed "abc".toList :=
    malformed_of_stoi (fun h => absurd (h 'a' (by decide)) (by decide)) (by decide)
  exact ⟨((parseThresholdList_spec _).1 hplain _).mpr ⟨_, hgrammar.loose, rfl⟩,
    (parseThresholdList_spec _).2.2.1 _ (List.cons_ne_nil _ _) hvalid rfl,
    ((parseThresholdList_spec _).2.2.2 ⟨_, by decide, habc⟩).1⟩

/-- An empty item is passed over. -/
theorem parseThresholdList_empty_item :
    ¬ ∀ numbers, parseThresholdList "1,,2" = some (thsArr numbers) ↔ InGrammar numbers "1,,2" := by
  intro h
  obtain ⟨-, items, htext, hitems⟩ := (h [1, 2]).mp rfl
  have hentries : List.Forall₂ Entry ([1, 2].map some) items := List.forall₂_map_left_iff.mpr hitems
  have hsplit := splitOn_of_entries hentries (by decide) htext
  have hlength : items.length = 3 := by
    rw [← hsplit]
    decide
  exact absurd (hitems.length_eq.trans hlength) (by decide)

end ADTimePix3.Serval.Thresholds
