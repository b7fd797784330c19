import Mathlib.Algebra.GroupWithZero.Nat
import Mathlib.Data.List.TakeWhile
import Mathlib.Data.String.Basic
import Mathlib.Algebra.Order.BigOperators.Group.List

/-!
# Texts and their bytes

The bytes of a text in UTF-8, and texts that are joined by commas and taken apart again. What is left of a joined
text are its parts if no part is empty or has a comma (`parts_intercalate`); and no text is taken apart into more
than it holds (`mem_parts`, `size_parts_le`).
-/

namespace Texts

/-- The bytes of characters in UTF-8. -/
def encode (text : List Char) : List UInt8 := text.flatMap String.utf8EncodeChar

/-- The bytes of a text in UTF-8. -/
def utf8 (s : String) : List UInt8 := encode s.toList

/-- The text with these bytes, if they are UTF-8. -/
def decode (bytes : List UInt8) : Option String := String.fromUTF8? bytes.toByteArray

/-- The bytes in front of the first NUL. -/
def cStr (bytes : List UInt8) : List UInt8 := bytes.takeWhile (· ≠ 0)

/-- The parts between the commas of a text, without the empty ones. -/
def parts (s : String) : List String := (s.splitOn ",").filter (· ≠ "")

variable {s t : String} {bytes : List UInt8} {text : List Char} {texts : List (List Char)}

/-! ## Bytes -/

theorem toByteArray_utf8 (s : String) : (utf8 s).toByteArray = s.toByteArray := String.utf8Encode_toList

theorem decode_eq_some_iff : decode bytes = some s ↔ bytes = utf8 s := by
  unfold decode String.fromUTF8?
  constructor
  · intro h
    split at h
    · have hbytes : bytes.toByteArray = (utf8 s).toByteArray := by
        rw [toByteArray_utf8, ← Option.some.inj h]
        rfl
      simpa using congrArg (fun b : ByteArray => b.data.toList) hbytes
    · cases h
  · rintro rfl
    have hvalid : (utf8 s).toByteArray.IsValidUTF8 := toByteArray_utf8 s ▸ s.isValidUTF8
    rw [dif_pos hvalid]
    exact congrArg some (String.toByteArray_inj.mp (toByteArray_utf8 s))

theorem decode_utf8 (s : String) : decode (utf8 s) = some s := decode_eq_some_iff.mpr rfl

theorem eq_zero_of_ofNat {n : ℕ} (hn : n < 256) (h : (0 : UInt8) = UInt8.ofNat n) : n = 0 := by
  have hnat : 0 = n % 256 := congrArg UInt8.toNat h
  omega

/-- No byte of a character is NUL but that of the character NUL. -/
theorem zero_mem_utf8EncodeChar {c : Char} : (0 : UInt8) ∈ String.utf8EncodeChar c ↔ c = '\x00' := by
  constructor
  · intro h
    refine Char.toNat_inj.mp ?_
    show c.val.toNat = 0
    revert h
    -- the bytes of a longer encoding are not below 128
    fun_cases String.utf8EncodeChar c <;> intro h <;> simp only [List.mem_cons, List.not_mem_nil, or_false] at h
    · exact eq_zero_of_ofNat (by omega) h
    · rcases h with h | h <;> cases eq_zero_of_ofNat (by omega) h
    · rcases h with h | h | h <;> cases eq_zero_of_ofNat (by omega) h
    · rcases h with h | h | h | h <;> cases eq_zero_of_ofNat (by omega) h
  · rintro rfl
    decide

theorem zero_mem_encode : (0 : UInt8) ∈ encode text ↔ '\x00' ∈ text := by
  simp [encode, zero_mem_utf8EncodeChar]

theorem cStr_eq_self (h : (0 : UInt8) ∉ bytes) : cStr bytes = bytes :=
  List.takeWhile_eq_self_iff.mpr fun b hb => by
    rw [decide_eq_true_iff]
    rintro rfl
    exact h hb

theorem zero_not_mem_cStr (bytes : List UInt8) : (0 : UInt8) ∉ cStr bytes := fun h => by
  simpa using List.mem_takeWhile_imp h

theorem encode_intercalate (texts : List (List Char)) :
    encode ([','].intercalate texts) = [44].intercalate (texts.map encode) := by
  induction texts with
  | nil => rfl
  | cons text texts ih =>
    cases texts with
    | nil => simp
    | cons text' texts =>
      rw [List.map_cons, List.map_cons, List.intercalate_cons_cons, List.intercalate_cons_cons, ← List.map_cons, ← ih]
      simp only [encode, List.flatMap_append, List.append_assoc]
      rfl

theorem length_encode_intercalate (h : texts ≠ []) :
    (encode ([','].intercalate texts)).length + 1 = (texts.map fun text => (encode text).length + 1).sum := by
  rw [encode_intercalate]
  induction texts with
  | nil => exact absurd rfl h
  | cons text texts ih =>
    cases texts with
    | nil => simp
    | cons text' texts =>
      have hrest := ih (List.cons_ne_nil _ _)
      rw [List.map_cons, List.map_cons, List.intercalate_cons_cons, ← List.map_cons]
      simp only [List.length_append, List.length_cons, List.length_nil, List.map_cons, List.sum_cons] at hrest ⊢
      omega

/-! ## Parts -/

set_option linter.deprecated false in
open String in
/-- `l` and `m` are what has been read, `m` since the last comma. -/
theorem splitOnAux_of_valid (l m r : List Char) (acc : List String) :
    splitOnAux (ofList (l ++ m ++ r)) "," ⟨utf8Len l⟩ ⟨utf8Len l + utf8Len m⟩ 0 acc =
      acc.reverse ++ (List.splitOnPPrepend (· == ',') r m.reverse).map ofList := by
  unfold splitOnAux
  simp only [List.append_assoc, atEnd_iff, rawEndPos_ofList, utf8Len_append, Pos.Raw.mk_le_mk,
    Nat.add_le_add_iff_left, (by omega : utf8Len m + utf8Len r ≤ utf8Len m ↔ utf8Len r = 0),
    utf8Len_eq_zero, List.reverse_cons]
  split
  · subst r
    simpa using extract_of_valid l m []
  · obtain ⟨c, r, rfl⟩ := r.exists_cons_of_ne_nil ‹_›
    have hsep : Pos.Raw.get "," 0 = ',' := by decide
    have hnext : Pos.Raw.next "," 0 = ⟨1⟩ := by decide
    have hend : rawEndPos "," ≤ ⟨1⟩ := by decide
    have hget : Pos.Raw.get (ofList (l ++ (m ++ c :: r))) ⟨utf8Len l + utf8Len m⟩ = c := by
      simpa [-ofList_append] using get_of_valid (l ++ m) (c :: r)
    have hafter : Pos.Raw.next (ofList (l ++ (m ++ c :: r))) ⟨utf8Len l + utf8Len m⟩ =
        ⟨utf8Len l + utf8Len m + c.utf8Size⟩ := by
      simpa [-ofList_append] using next_of_valid (l ++ m) c r
    rw [hsep, hnext, hget, hafter]
    by_cases hc : c = ','
    · subst hc
      have hsize : ','.utf8Size = 1 := by decide
      have hback : (Pos.Raw.mk (utf8Len l + utf8Len m + ','.utf8Size)).unoffsetBy ⟨1⟩ =
          ⟨utf8Len l + utf8Len m⟩ := by
        simp [Pos.Raw.unoffsetBy, hsize]
      have hextract := extract_of_valid l m (',' :: r)
      have hrest := splitOnAux_of_valid (l ++ m ++ [',']) [] r (ofList m :: acc)
      simp only [List.append_assoc, List.singleton_append, utf8Len_append, utf8Len_cons, utf8Len_nil, hsize,
        Nat.zero_add, Nat.add_zero] at hrest
      simp only [beq_self_eq_true, if_true, if_pos hend, List.splitOnPPrepend_cons_eq_if]
      rw [List.append_assoc] at hextract
      rw [hback, hextract, hsize, Nat.add_assoc, hrest]
      simp
    · have hbeq : (c == ',') = false := beq_false_of_ne hc
      have hback : (Pos.Raw.mk (utf8Len l + utf8Len m)).unoffsetBy 0 = ⟨utf8Len l + utf8Len m⟩ := by
        simp [Pos.Raw.unoffsetBy]
      have hrest := splitOnAux_of_valid l (m ++ [c]) r acc
      simp only [List.append_assoc, List.singleton_append, utf8Len_append, utf8Len_cons, utf8Len_nil,
        Nat.zero_add, List.reverse_append, List.reverse_cons, List.reverse_nil, List.nil_append] at hrest
      simp only [hbeq, Bool.false_eq_true, if_false, List.splitOnPPrepend_cons_eq_if]
      rw [hback, hafter, Nat.add_assoc, hrest]

set_option linter.deprecated false in
theorem splitOn_comma (s : String) : s.splitOn "," = (s.toList.splitOn ',').map String.ofList := by
  have h := splitOnAux_of_valid [] [] s.toList []
  have hne : ("," == "") = false := by decide
  simpa [String.splitOn, hne, List.splitOn] using h

/-- The parts of a text of parts that are not empty and have no commas. -/
theorem parts_intercalate {texts : List String} (hne : texts ≠ []) (h : ∀ t ∈ texts, t ≠ "" ∧ ',' ∉ t.toList) :
    parts (String.ofList ([','].intercalate (texts.map String.toList))) = texts := by
  have hcomma : ∀ text ∈ texts.map String.toList, ',' ∉ text := by
    intro text htext
    obtain ⟨t, ht, rfl⟩ := List.mem_map.mp htext
    exact (h t ht).2
  rw [parts, splitOn_comma, String.toList_ofList, List.splitOn_intercalate ',' hcomma (by simpa using hne)]
  rw [List.map_map, (funext fun t => String.ofList_toList : String.ofList ∘ String.toList = id), List.map_id]
  exact List.filter_eq_self.mpr fun t ht => by simpa using (h t ht).1

theorem mem_intercalate {c sep : Char} (h : c ∈ [sep].intercalate texts) : c = sep ∨ ∃ text ∈ texts, c ∈ text := by
  induction texts with
  | nil => cases h
  | cons text texts ih =>
    cases texts with
    | nil =>
      rw [List.intercalate_singleton] at h
      exact .inr ⟨text, List.mem_cons_self, h⟩
    | cons text' texts =>
      rw [List.intercalate_cons_cons, List.mem_append, List.mem_append, List.mem_singleton] at h
      rcases h with (h | h) | h
      · exact .inr ⟨text, List.mem_cons_self, h⟩
      · exact .inl h
      · exact (ih h).imp_right fun ⟨t, ht, hc⟩ => ⟨t, List.mem_cons_of_mem _ ht, hc⟩

/-- What is between the commas has no comma, and is in the text. -/
theorem mem_splitOn {part : List Char} {c : Char} (h : part ∈ text.splitOn ',') (hc : c ∈ part) :
    c ≠ ',' ∧ c ∈ text := by
  induction text generalizing part with
  | nil =>
    rw [List.splitOn_nil, List.mem_singleton] at h
    rw [h] at hc
    cases hc
  | cons x text ih =>
    rw [List.splitOn_cons_eq_if_modifyHead] at h
    split at h
    · rcases List.mem_cons.mp h with rfl | h
      · cases hc
      · obtain ⟨hne, hmem⟩ := ih h hc
        exact ⟨hne, List.mem_cons_of_mem _ hmem⟩
    · rename_i hx
      obtain ⟨first, rest, hsplit⟩ := List.exists_cons_of_ne_nil (List.splitOn_ne_nil ',' text)
      rw [hsplit, List.modifyHead_cons] at h
      rw [hsplit] at ih
      rcases List.mem_cons.mp h with rfl | h
      · rcases List.mem_cons.mp hc with rfl | hc
        · exact ⟨by simpa using hx, List.mem_cons_self⟩
        · obtain ⟨hne, hmem⟩ := ih List.mem_cons_self hc
          exact ⟨hne, List.mem_cons_of_mem _ hmem⟩
      · obtain ⟨hne, hmem⟩ := ih (List.mem_cons_of_mem _ h) hc
        exact ⟨hne, List.mem_cons_of_mem _ hmem⟩

theorem mem_parts (h : t ∈ parts s) : t ≠ "" ∧ ∀ c ∈ t.toList, c ≠ ',' ∧ c ∈ s.toList := by
  obtain ⟨ht, hne⟩ := List.mem_filter.mp h
  rw [splitOn_comma] at ht
  obtain ⟨text, htext, rfl⟩ := List.mem_map.mp ht
  rw [String.toList_ofList]
  exact ⟨by simpa using hne, fun c hc => mem_splitOn htext hc⟩

/-- The bytes of the parts, each with a comma. -/
theorem size_parts_le (s : String) : ((parts s).map fun t => (utf8 t).length + 1).sum ≤ (utf8 s).length + 1 := by
  have hall : (((s.splitOn ",").map fun t => (utf8 t).length + 1)).sum = (utf8 s).length + 1 := by
    have hsize := length_encode_intercalate (List.splitOn_ne_nil ',' s.toList)
    rw [List.intercalate_splitOn] at hsize
    rw [splitOn_comma, List.map_map]
    exact hsize.symm ▸ congrArg List.sum (List.map_congr_left fun text _ => by
      show (encode (String.ofList text).toList).length + 1 = _
      rw [String.toList_ofList])
  exact hall ▸ (List.filter_sublist.map _).sum_le_sum fun n _ => n.zero_le

end Texts
