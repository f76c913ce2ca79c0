import SourceBundle.Charset.Content
import SourceBundle.Proofs.Charset.Utf16
import SourceBundle.Proofs.Charset.Utf8
import SourceBundle.Proofs.Text.Leads

/-!
# Texts survive collection

The bytes of a text, in UTF-16 with a byte order mark or in UTF-8 with or without one, are no binary
content and are read as the text again.

A first look at the bytes and a search for zero bytes in all of them decide together
(`isBinary_eq_kindOf`).  What looks like the mark of UTF-16 or UTF-32 has a byte above `0xF7`, which
no text has in UTF-8; so the two readings never compete, and bytes of UTF-8 with a zero byte are
always found out.
-/

namespace SourceBundle.Charset

/-! ## The first look -/

theorem hasLead_iff {lead : List UInt8} {bytes : ByteArray} :
    hasLead lead bytes ↔ lead <+: bytes.data.toList := List.isPrefixOf_iff_prefix

theorem contains_iff {bytes : ByteArray} {b : UInt8} :
    bytes.data.contains b ↔ b ∈ bytes.data.toList := by
  rw [Array.contains_iff_mem, Array.mem_toList_iff]

theorem toList_extract (bytes : ByteArray) (n : Nat) :
    (bytes.extract 0 n).data.toList = bytes.data.toList.take n := by
  rw [ByteArray.data_extract, Array.toList_extract, List.extract_eq_take_drop, List.drop_zero,
    Nat.sub_zero]

theorem hasLead_extract {lead : List UInt8} {n : Nat} (h : lead.length ≤ n) (bytes : ByteArray) :
    hasLead lead (bytes.extract 0 n) = hasLead lead bytes := by
  rw [Bool.eq_iff_iff, hasLead_iff, hasLead_iff, toList_extract, List.prefix_take_iff]
  exact ⟨And.left, fun hlead => ⟨hlead, h⟩⟩

theorem any_hasLead_extract {leads : List (List UInt8)} {n : Nat}
    (h : ∀ lead ∈ leads, lead.length ≤ n) (bytes : ByteArray) :
    leads.any (hasLead · (bytes.extract 0 n)) = leads.any (hasLead · bytes) := by
  induction leads with
  | nil => rfl
  | cons lead leads ih =>
    obtain ⟨hlead, hleads⟩ := List.forall_mem_cons.mp h
    rw [List.any_cons, List.any_cons, hasLead_extract hlead, ih hleads]

/-- A first look at some bytes and a search in all of them come to a look at all of them. -/
theorem isBinary_eq_kindOf (bytes : ByteArray) :
    isBinary bytes =
      match kindOf bytes with
      | .binary => true
      | .wide => false
      | .marked => bytes.data.contains 0
      | .plain => false := by
  have hmark : hasLead utf8Mark (bytes.extract 0 peekSize) = hasLead utf8Mark bytes :=
    hasLead_extract (by decide) bytes
  have hwide : wideMarks.any (hasLead · (bytes.extract 0 peekSize)) =
      wideMarks.any (hasLead · bytes) := any_hasLead_extract (by decide) bytes
  have hsignatures : binarySignatures.any (hasLead · (bytes.extract 0 peekSize)) =
      binarySignatures.any (hasLead · bytes) := any_hasLead_extract (by decide) bytes
  have hzero : (bytes.extract 0 peekSize).data.contains 0 → bytes.data.contains 0 := by
    rw [contains_iff, contains_iff, toList_extract]
    exact List.mem_of_mem_take
  rw [isBinary, kindOf, kindOf, hmark, hwide, hsignatures]
  cases hasLead utf8Mark bytes
  · cases wideMarks.any (hasLead · bytes)
    · cases binarySignatures.any (hasLead · bytes)
      · cases hpeek : (bytes.extract 0 peekSize).data.contains 0
        · cases hall : bytes.data.contains 0 <;> rfl
        · rw [hzero hpeek]
          rfl
      · cases (bytes.extract 0 peekSize).data.contains 0 <;> cases bytes.data.contains 0 <;> rfl
    · rfl
  · rfl

/-! ## UTF-8 -/

/-- No text has the mark of UTF-16 or UTF-32 in UTF-8. -/
theorem wideMarks_utf8Bytes (t : Text) : wideMarks.any (hasLead · (utf8Bytes t)) = false := by
  have hhigh : ∀ mark ∈ wideMarks, ∃ b ∈ mark, 0xF8 ≤ b.toNat := by decide
  rw [List.any_eq_false]
  intro mark hmark hlead
  rw [hasLead_iff, toList_utf8Bytes] at hlead
  obtain ⟨b, hb, hle⟩ := hhigh mark hmark
  have hlt := toNat_lt_of_mem_utf8List (hlead.subset hb)
  omega

theorem contains_zero_utf8Bytes {t : Text} : (utf8Bytes t).data.contains 0 ↔ Char.ofNat 0 ∈ t := by
  have hzero : (Char.ofNat 0).toNat < 0x80 := by decide
  rw [contains_iff, toList_utf8Bytes]
  exact mem_utf8List_iff hzero

/-- Bytes of UTF-8 with a zero byte are binary. -/
theorem isBinary_of_zero_mem {t : Text} (h : Char.ofNat 0 ∈ t) : isBinary (utf8Bytes t) = true := by
  have hzero := contains_zero_utf8Bytes.mpr h
  rw [isBinary_eq_kindOf, kindOf, wideMarks_utf8Bytes, hzero]
  cases hasLead utf8Mark (utf8Bytes t) <;> rfl

/-- Bytes of UTF-8 without a zero byte are those of a text, unless they have the signature of a PDF
file. -/
theorem isBinary_of_not_mem {t : Text} (hzero : Char.ofNat 0 ∉ t) (hpdf : ¬ "%PDF".toList <+: t) :
    isBinary (utf8Bytes t) = false := by
  have hcontains : (utf8Bytes t).data.contains 0 = false := by
    rw [Bool.eq_false_iff]
    exact fun h => hzero (contains_zero_utf8Bytes.mp h)
  have hsignatures : binarySignatures.any (hasLead · (utf8Bytes t)) = false := by
    rw [List.any_eq_false]
    intro signature hsignature hlead
    rw [hasLead_iff, toList_utf8Bytes] at hlead
    simp only [binarySignatures, List.mem_cons, List.not_mem_nil, or_false] at hsignature
    rcases hsignature with rfl | rfl
    · exact hpdf (isPrefix_of_utf8List_isPrefix (by simp) hlead)
    · obtain ⟨rest, hrest⟩ := hlead
      have hfirst := toNat_of_utf8List_eq_cons hrest.symm
      revert hfirst
      decide
  rw [isBinary_eq_kindOf, kindOf, wideMarks_utf8Bytes, hcontains, hsignatures]
  cases hasLead utf8Mark (utf8Bytes t) <;> rfl

theorem dropMark_cons (t : Text) : dropMark (orderMark :: t) = t := by
  rw [dropMark, Text.after?, if_pos rfl]
  rfl

/-- A text loses one mark, if it starts with one. -/
theorem dropMark_eq (t : Text) : dropMark t = if t.head? = some orderMark then t.tail else t := by
  cases t with
  | nil => rfl
  | cons c t =>
    by_cases h : c = orderMark
    · rw [h, dropMark_cons]
      rfl
    · have hother : orderMark ≠ c := fun same => h same.symm
      simp [dropMark, Text.after?, hother, h]

theorem decode_utf8Bytes (guess : ByteArray → Guess) (t : Text) :
    decode guess (utf8Bytes t) = .ok (dropMark t) := by
  rw [decode, utf8?_utf8Bytes]

/-- Bytes of UTF-8 behind its mark are those of the text with a mark before it. -/
theorem utf8Mark_append (t : Text) :
    utf8Mark.toByteArray ++ utf8Bytes t = utf8Bytes (orderMark :: t) := by
  have hmark : String.utf8EncodeChar orderMark = utf8Mark := by decide
  apply ByteArray.ext
  apply Array.toList_inj.mp
  rw [ByteArray.data_append, Array.toList_append, List.toList_data_toByteArray, toList_utf8Bytes,
    toList_utf8Bytes, utf8List_cons, hmark]

/-! ## Marks of UTF-16 and UTF-32 -/

/-- Bytes with the mark of UTF-16 or UTF-32 are those of a text. -/
theorem isBinary_of_wideMark {mark : List UInt8} {bytes : ByteArray} (hmark : mark ∈ wideMarks)
    (hlead : hasLead mark bytes) : isBinary bytes = false := by
  -- No mark of UTF-16 or UTF-32 begins like the mark of UTF-8, or the other way round.
  have hapart : ∀ mark ∈ wideMarks, ¬ utf8Mark <+: mark ∧ ¬ mark <+: utf8Mark := by decide
  have hmarked : hasLead utf8Mark bytes = false := by
    rw [Bool.eq_false_iff, Ne, hasLead_iff]
    intro hutf8
    rcases List.prefix_or_prefix_of_prefix hutf8 (hasLead_iff.mp hlead) with h | h
    · exact (hapart mark hmark).1 h
    · exact (hapart mark hmark).2 h
  have hwide : wideMarks.any (hasLead · bytes) = true := List.any_eq_true.mpr ⟨mark, hmark, hlead⟩
  rw [isBinary_eq_kindOf, kindOf, hmarked, hwide]
  rfl

/-- Bytes with one above `0xF7` are none of UTF-8. -/
theorem utf8?_eq_none_of_mem {b : UInt8} {bytes : ByteArray} (hb : b ∈ bytes.data.toList)
    (hle : 0xF8 ≤ b.toNat) : utf8? bytes = none := by
  rw [Option.eq_none_iff_forall_ne_some]
  intro s hs
  rw [utf8?_eq_some_iff.mp hs, toList_utf8Bytes] at hb
  have hlt := toNat_lt_of_mem_utf8List hb
  omega

/-! ## UTF-16 -/

/-- The byte order mark of UTF-16. -/
def ByteOrder.mark : ByteOrder → List UInt8
  | .littleEndian => [0xFF, 0xFE]
  | .bigEndian => [0xFE, 0xFF]

/-- A text in UTF-16 behind the mark of its byte order. -/
def utf16Marked (order : ByteOrder) (t : Text) : ByteArray :=
  (order.mark ++ utf16Bytes order t).toByteArray

theorem toList_utf16Marked (order : ByteOrder) (t : Text) :
    (utf16Marked order t).data.toList = order.mark ++ utf16Bytes order t :=
  List.toList_data_toByteArray

theorem isBinary_utf16Marked (order : ByteOrder) (t : Text) :
    isBinary (utf16Marked order t) = false := by
  have hmark : order.mark ∈ wideMarks := by cases order <;> decide
  refine isBinary_of_wideMark hmark ?_
  rw [hasLead_iff, toList_utf16Marked]
  exact List.prefix_append _ _

/-- Bytes with the mark of UTF-16 are none of UTF-8. -/
theorem utf8?_utf16Marked (order : ByteOrder) (t : Text) : utf8? (utf16Marked order t) = none := by
  have hhigh : ∃ b ∈ order.mark, 0xF8 ≤ b.toNat := by cases order <;> decide
  obtain ⟨b, hb, hle⟩ := hhigh
  refine utf8?_eq_none_of_mem (b := b) ?_ hle
  rw [toList_utf16Marked]
  exact List.mem_append_left _ hb

theorem decode_utf16Marked (guess : ByteArray → Guess) (order : ByteOrder) (t : Text) :
    decode guess (utf16Marked order t) = .ok t := by
  have hread := utf16?_utf16Bytes order t
  rw [decode, utf8?_utf16Marked]
  cases order <;> simp [toList_utf16Marked, ByteOrder.mark, hread]

/-! ## Both -/

/-- Texts survive: in UTF-16 behind a mark every text is read back; so it is in UTF-8, with or
without a mark, when it has no zero character and not the signature of a PDF file, but for a mark at
its own start.  A zero byte in bytes of UTF-8 always makes them binary. -/
theorem texts_survive (guess : ByteArray → Guess) (t : Text) :
    (∀ order, isBinary (utf16Marked order t) = false ∧
        decode guess (utf16Marked order t) = .ok t) ∧
      (Char.ofNat 0 ∉ t → ¬ "%PDF".toList <+: t →
        isBinary (utf8Bytes t) = false ∧
          decode guess (utf8Bytes t) = .ok (if t.head? = some orderMark then t.tail else t) ∧
          isBinary (utf8Mark.toByteArray ++ utf8Bytes t) = false ∧
          decode guess (utf8Mark.toByteArray ++ utf8Bytes t) = .ok t) ∧
      ∀ bytes : ByteArray, bytes.IsValidUTF8 → bytes.data.contains 0 → isBinary bytes = true := by
  refine ⟨fun order => ⟨isBinary_utf16Marked order t, decode_utf16Marked guess order t⟩, ?_, ?_⟩
  · intro hzero hpdf
    have hzero' : Char.ofNat 0 ∉ orderMark :: t :=
      List.not_mem_cons_of_ne_of_not_mem (by decide) hzero
    have hpdf' : ¬ "%PDF".toList <+: orderMark :: t := by
      intro h
      exact absurd (List.cons_prefix_cons.mp h).1 (by decide)
    rw [utf8Mark_append, decode_utf8Bytes, decode_utf8Bytes, dropMark_eq, dropMark_cons]
    exact ⟨isBinary_of_not_mem hzero hpdf, rfl, isBinary_of_not_mem hzero' hpdf', rfl⟩
  · intro bytes hvalid hzero
    obtain ⟨s, rfl⟩ := exists_utf8Bytes hvalid
    exact isBinary_of_zero_mem (contains_zero_utf8Bytes.mp hzero)

theorem texts_survive_marked_twice :
    let t : Text := [orderMark, Char.ofNat 0x1F600, 'a']
    let guess : ByteArray → Guess := fun _ => .malformed []
    let late : Text := List.replicate peekSize 'a' ++ [Char.ofNat 0]
    (utf16Marked .littleEndian t).data.toList =
        [0xFF, 0xFE, 0xFF, 0xFE, 0x3D, 0xD8, 0x00, 0xDE, 0x61, 0x00] ∧
      isBinary (utf16Marked .littleEndian t) = false ∧
      decode guess (utf16Marked .littleEndian t) = .ok t ∧
      Char.ofNat 0 ∉ t ∧ ¬ "%PDF".toList <+: t ∧
      decode guess (utf8Bytes t) = .ok [Char.ofNat 0x1F600, 'a'] ∧
      decode guess (utf8Mark.toByteArray ++ utf8Bytes t) = .ok t ∧
      (utf8Bytes late).IsValidUTF8 ∧ (utf8Bytes late).data.contains 0 ∧
      isBinary (utf8Bytes late) = true := by
  intro t guess late
  have hzero : Char.ofNat 0 ∉ t := by decide
  have hpdf : ¬ "%PDF".toList <+: t := by decide
  have hvalid : (utf8Bytes late).IsValidUTF8 := (String.ofList late).isValidUTF8
  have hlate : (utf8Bytes late).data.contains 0 :=
    contains_zero_utf8Bytes.mpr (List.mem_append_right _ (List.mem_singleton_self _))
  obtain ⟨hwide, hplain, hbinary⟩ := texts_survive guess t
  obtain ⟨-, hread, -, hmarked⟩ := hplain hzero hpdf
  exact ⟨by decide, (hwide .littleEndian).1, (hwide .littleEndian).2, hzero, hpdf, hread, hmarked,
    hvalid, hlate, hbinary _ hvalid hlate⟩

end SourceBundle.Charset
