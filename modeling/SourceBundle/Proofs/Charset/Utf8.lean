import SourceBundle.Charset.Utf8

/-!
# The bytes of UTF-8

What the bytes of a text tell of its characters.  The encoded characters have no byte above `0xF7`,
a zero byte only where there is a zero character, and begin with a byte below `0x80` or from `0xC0`
on.  So no text has the byte order marks of UTF-16, and where the bytes start with those of an ASCII
text, the text starts with it.
-/

namespace SourceBundle.Charset

/-! ## Bytes and texts -/

theorem toList_utf8Bytes (t : Text) : (utf8Bytes t).data.toList = utf8List t := by
  have hencode : utf8Bytes t = t.utf8Encode := by
    rw [utf8Bytes, String.toUTF8_eq_toByteArray, String.toByteArray_ofList]
  rw [hencode, List.utf8Encode, List.toList_data_toByteArray]
  rfl

/-- The bytes that can be read are those of the text that is read. -/
theorem utf8?_eq_some_iff {bytes : ByteArray} {t : Text} :
    utf8? bytes = some t ↔ bytes = utf8Bytes t := by
  constructor
  · intro h
    unfold utf8? String.fromUTF8? at h
    split at h
    · rename_i hvalid
      have htext : (String.fromUTF8 bytes hvalid).toList = t := Option.some.inj h
      rw [utf8Bytes, ← htext, String.ofList_toList]
      rfl
    · cases h
  · rintro rfl
    exact utf8?_utf8Bytes t

theorem exists_utf8Bytes {bytes : ByteArray} (h : bytes.IsValidUTF8) :
    ∃ t, bytes = utf8Bytes t := by
  refine ⟨(String.fromUTF8 bytes h).toList, ?_⟩
  rw [utf8Bytes, String.ofList_toList]
  rfl

theorem utf8List_cons (c : Char) (t : Text) :
    utf8List (c :: t) = String.utf8EncodeChar c ++ utf8List t := List.flatMap_cons

/-! ## Encoded characters -/

/-- The bytes of a character: one below `0x80`, or a leading one from `0xC0` to `0xF7` and others
from `0x80` to `0xBF`. -/
theorem utf8EncodeChar_cases (c : Char) :
    (c.toNat < 0x80 ∧ String.utf8EncodeChar c = [UInt8.ofNat c.toNat]) ∨
      (0x80 ≤ c.toNat ∧ ∃ first rest, String.utf8EncodeChar c = first :: rest ∧
        0xC0 ≤ first.toNat ∧ first.toNat < 0xF8 ∧
        ∀ b ∈ rest, 0x80 ≤ b.toNat ∧ b.toNat < 0xC0) := by
  have hval : c.val.toNat = c.toNat := rfl
  have hmarked : ∀ n mark size : Nat, 0 < size → mark + size ≤ 0x100 →
      mark ≤ (UInt8.ofNat (n % size + mark)).toNat ∧
        (UInt8.ofNat (n % size + mark)).toNat < mark + size := by
    intro n mark size hsize hmark
    have hn := Nat.mod_lt n hsize
    rw [UInt8.toNat_ofNat', Nat.mod_eq_of_lt (by omega)]
    omega
  have htrail : ∀ n : Nat, 0x80 ≤ (UInt8.ofNat (n % 64 + 128)).toNat ∧
      (UInt8.ofNat (n % 64 + 128)).toNat < 0xC0 :=
    fun n => hmarked n 128 64 (by omega) (by omega)
  unfold String.utf8EncodeChar
  rw [hval]
  by_cases h1 : c.toNat ≤ 0x7F
  · exact .inl ⟨by omega, by simp [h1]⟩
  · refine .inr ⟨by omega, ?_⟩
    by_cases h2 : c.toNat ≤ 0x7FF
    · have hfirst := hmarked (c.toNat / 64) 192 32 (by omega) (by omega)
      rw [if_neg h1, if_pos h2]
      refine ⟨_, _, rfl, hfirst.1, by omega, ?_⟩
      exact List.forall_mem_cons.mpr ⟨htrail _, List.forall_mem_nil _⟩
    · by_cases h3 : c.toNat ≤ 0xFFFF
      · have hfirst := hmarked (c.toNat / 4096) 224 16 (by omega) (by omega)
        rw [if_neg h1, if_neg h2, if_pos h3]
        refine ⟨_, _, rfl, by omega, by omega, ?_⟩
        exact List.forall_mem_cons.mpr ⟨htrail _,
          List.forall_mem_cons.mpr ⟨htrail _, List.forall_mem_nil _⟩⟩
      · have hfirst := hmarked (c.toNat / 262144) 240 8 (by omega) (by omega)
        rw [if_neg h1, if_neg h2, if_neg h3]
        refine ⟨_, _, rfl, by omega, by omega, ?_⟩
        exact List.forall_mem_cons.mpr ⟨htrail _, List.forall_mem_cons.mpr ⟨htrail _,
          List.forall_mem_cons.mpr ⟨htrail _, List.forall_mem_nil _⟩⟩⟩

theorem utf8EncodeChar_of_lt {c : Char} (h : c.toNat < 0x80) :
    String.utf8EncodeChar c = [UInt8.ofNat c.toNat] := by
  rcases utf8EncodeChar_cases c with ⟨-, hbytes⟩ | ⟨hc, -⟩
  · exact hbytes
  · omega

theorem toNat_ofNat_toNat {c : Char} (h : c.toNat < 0x80) :
    (UInt8.ofNat c.toNat).toNat = c.toNat := by
  rw [UInt8.toNat_ofNat']
  omega

/-- The bytes `0xF8` to `0xFF` are none of UTF-8. -/
theorem toNat_lt_of_mem_utf8List {t : Text} {b : UInt8} (h : b ∈ utf8List t) : b.toNat < 0xF8 := by
  obtain ⟨c, -, hb⟩ := List.mem_flatMap.mp h
  rcases utf8EncodeChar_cases c with ⟨hc, hbytes⟩ | ⟨-, first, rest, hbytes, -, hfirst, hrest⟩
  · rw [hbytes, List.mem_singleton] at hb
    rw [hb, toNat_ofNat_toNat hc]
    omega
  · rw [hbytes, List.mem_cons] at hb
    rcases hb with rfl | hb
    · exact hfirst
    · have hb' := hrest b hb
      omega

/-- A text starts with a byte that is no trailing one. -/
theorem toNat_of_utf8List_eq_cons {t : Text} {b : UInt8} {rest : List UInt8}
    (h : utf8List t = b :: rest) : b.toNat < 0x80 ∨ 0xC0 ≤ b.toNat := by
  cases t with
  | nil => cases h
  | cons c t =>
    rw [utf8List_cons] at h
    rcases utf8EncodeChar_cases c with ⟨hc, hbytes⟩ | ⟨-, first, more, hbytes, hfirst, -⟩
    · rw [hbytes, List.singleton_append, List.cons.injEq] at h
      rw [← h.1, toNat_ofNat_toNat hc]
      exact .inl hc
    · rw [hbytes, List.cons_append, List.cons.injEq] at h
      rw [← h.1]
      exact .inr hfirst

/-! ## ASCII characters -/

/-- An ASCII character's byte stands where the character stands. -/
theorem mem_utf8List_iff {c : Char} (hc : c.toNat < 0x80) {t : Text} :
    UInt8.ofNat c.toNat ∈ utf8List t ↔ c ∈ t := by
  have hbyte := toNat_ofNat_toNat hc
  constructor
  · intro h
    obtain ⟨d, hd, hmem⟩ := List.mem_flatMap.mp h
    rcases utf8EncodeChar_cases d with ⟨hlt, hbytes⟩ | ⟨-, first, rest, hbytes, hfirst, -, hrest⟩
    · rw [hbytes, List.mem_singleton] at hmem
      have hcode : c.toNat = d.toNat := by rw [← hbyte, hmem, toNat_ofNat_toNat hlt]
      rwa [Char.toNat_inj.mp hcode]
    · rw [hbytes, List.mem_cons] at hmem
      rcases hmem with same | hmem
      · rw [← same] at hfirst
        omega
      · have hlow := hrest _ hmem
        omega
  · intro h
    refine List.mem_flatMap.mpr ⟨c, h, ?_⟩
    rw [utf8EncodeChar_of_lt hc]
    exact List.mem_singleton_self _

/-- Bytes that start with those of an ASCII text are those of a text that starts with it. -/
theorem isPrefix_of_utf8List_isPrefix {lead t : Text} (hlead : ∀ c ∈ lead, c.toNat < 0x80)
    (h : utf8List lead <+: utf8List t) : lead <+: t := by
  induction lead generalizing t with
  | nil => exact List.nil_prefix
  | cons c lead ih =>
    obtain ⟨hc, hlead⟩ := List.forall_mem_cons.mp hlead
    have hbyte := toNat_ofNat_toNat hc
    rw [utf8List_cons, utf8EncodeChar_of_lt hc, List.singleton_append] at h
    cases t with
    | nil => exact absurd (List.prefix_nil.mp h) (List.cons_ne_nil _ _)
    | cons d t =>
      rw [utf8List_cons] at h
      rcases utf8EncodeChar_cases d with ⟨hlt, hbytes⟩ | ⟨-, first, rest, hbytes, hfirst, -⟩
      · rw [hbytes, List.singleton_append, List.cons_prefix_cons] at h
        have hcode : c.toNat = d.toNat := by rw [← hbyte, h.1, toNat_ofNat_toNat hlt]
        rw [Char.toNat_inj.mp hcode]
        exact (List.prefix_cons_inj d).mpr (ih hlead h.2)
      · rw [hbytes, List.cons_append, List.cons_prefix_cons] at h
        rw [← h.1] at hfirst
        omega

end SourceBundle.Charset
