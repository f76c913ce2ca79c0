import SourceBundle.Proofs.Charset.Content

/-!
# UTF-32 is taken for UTF-16

Bytes behind a byte order mark of UTF-32 are no binary content, but nothing reads them as UTF-32.
Behind the mark for little-endian bytes, which begins with that of UTF-16, each character is read as
two units, its lower and its upper half (`units?_wideBytes`).  A half is a unit of its own, so there
are two characters where there was one, and the rest of the mark is a character too.  Only a lower
half that is a surrogate stops the reading, for the upper half behind it is none
(`ofUnits?_halves`).

So the text is never read, and the bytes are rejected exactly when one of its characters has such a
half (`readsOrRejects_utf32Marked_iff`).  The mark for big-endian bytes is not known at all, and
everything is left to the guess.
-/

namespace SourceBundle.Charset

/-! ## Writing UTF-32 -/

/-- The four bytes of a character in UTF-32. -/
def ByteOrder.wideBytes (order : ByteOrder) (c : Char) : List UInt8 :=
  let lowFirst := [UInt8.ofNat (c.toNat % 0x100), UInt8.ofNat (c.toNat / 0x100 % 0x100),
    UInt8.ofNat (c.toNat / 0x10000 % 0x100), UInt8.ofNat (c.toNat / 0x1000000)]
  match order with
  | .littleEndian => lowFirst
  | .bigEndian => lowFirst.reverse

/-- The byte order mark of UTF-32. -/
def ByteOrder.wideMark : ByteOrder → List UInt8
  | .littleEndian => [0xFF, 0xFE, 0x00, 0x00]
  | .bigEndian => [0x00, 0x00, 0xFE, 0xFF]

/-- A text in UTF-32 behind the mark of its byte order. -/
def utf32Marked (order : ByteOrder) (t : Text) : ByteArray :=
  (order.wideMark ++ t.flatMap order.wideBytes).toByteArray

/-- The bytes are read as the text, or they are rejected. -/
def ReadsOrRejects (guess : ByteArray → Guess) (bytes : ByteArray) (t : Text) : Prop :=
  decode guess bytes = .ok t ∨ ∃ encoding, decode guess bytes = .error encoding

theorem toList_utf32Marked (order : ByteOrder) (t : Text) :
    (utf32Marked order t).data.toList = order.wideMark ++ t.flatMap order.wideBytes :=
  List.toList_data_toByteArray

theorem isBinary_utf32Marked (order : ByteOrder) (t : Text) :
    isBinary (utf32Marked order t) = false := by
  have hmark : order.wideMark ∈ wideMarks := by cases order <;> decide
  refine isBinary_of_wideMark hmark ?_
  rw [hasLead_iff, toList_utf32Marked]
  exact List.prefix_append _ _

theorem utf8?_utf32Marked (order : ByteOrder) (t : Text) : utf8? (utf32Marked order t) = none := by
  have hhigh : ∃ b ∈ order.wideMark, 0xF8 ≤ b.toNat := by cases order <;> decide
  obtain ⟨b, hb, hle⟩ := hhigh
  refine utf8?_eq_none_of_mem (b := b) ?_ hle
  rw [toList_utf32Marked]
  exact List.mem_append_left _ hb

/-! ## Halves of characters -/

/-- The lower half of a character's code. -/
def lowerHalf (c : Char) : Nat := c.toNat % 0x10000

/-- The upper half of a character's code. -/
def upperHalf (c : Char) : Nat := c.toNat / 0x10000

/-- The lower half of a character is a surrogate. -/
def HasSurrogateHalf (c : Char) : Prop := 0xD800 ≤ lowerHalf c ∧ lowerHalf c < 0xE000

instance : DecidablePred HasSurrogateHalf := fun c =>
  inferInstanceAs (Decidable (0xD800 ≤ lowerHalf c ∧ lowerHalf c < 0xE000))

/-- The text that UTF-16 makes of a text in UTF-32: what is left of the mark, and a character for
each half. -/
def inHalves (t : Text) : Text :=
  Char.ofNat 0 :: t.flatMap fun c => [Char.ofNat (lowerHalf c), Char.ofNat (upperHalf c)]

theorem wideBytes_littleEndian (c : Char) :
    ByteOrder.littleEndian.wideBytes c =
      [lowerHalf c, upperHalf c].flatMap ByteOrder.littleEndian.bytes := by
  have hlow : lowerHalf c % 256 = c.toNat % 0x100 := by unfold lowerHalf; omega
  have hlow' : lowerHalf c / 256 = c.toNat / 0x100 % 0x100 := by unfold lowerHalf; omega
  have hupper : upperHalf c % 256 = c.toNat / 0x10000 % 0x100 := rfl
  have hupper' : upperHalf c / 256 = c.toNat / 0x1000000 := Nat.div_div_eq_div_mul _ _ _
  simp only [ByteOrder.wideBytes, List.flatMap_cons, List.flatMap_nil, ByteOrder.bytes, hlow, hlow',
    hupper, hupper', List.append_nil, List.cons_append, List.nil_append]

/-- In little-endian bytes of UTF-32, UTF-16 finds the halves of the characters. -/
theorem units?_wideBytes (t : Text) :
    units? .littleEndian (t.flatMap ByteOrder.littleEndian.wideBytes) =
      some (t.flatMap fun c => [lowerHalf c, upperHalf c]) := by
  have hbytes : t.flatMap ByteOrder.littleEndian.wideBytes =
      (t.flatMap fun c => [lowerHalf c, upperHalf c]).flatMap ByteOrder.littleEndian.bytes := by
    rw [List.flatMap_assoc]
    exact congrArg t.flatMap (funext wideBytes_littleEndian)
  rw [hbytes]
  refine units?_flatMap_bytes .littleEndian fun u hu => ?_
  obtain ⟨c, -, hc⟩ := List.mem_flatMap.mp hu
  have hcode := toNat_cases c
  simp only [List.mem_cons, List.not_mem_nil, or_false, lowerHalf, upperHalf] at hc
  omega

/-- The halves of a character are two characters, unless the lower one is a surrogate. -/
theorem ofUnits?_halves_cons (c : Char) (us : List Nat) :
    ofUnits? (lowerHalf c :: upperHalf c :: us) =
      if HasSurrogateHalf c then none
      else (ofUnits? us).map ([Char.ofNat (lowerHalf c), Char.ofNat (upperHalf c)] ++ ·) := by
  have hupper : upperHalf c < 0x11 := by
    have hcode := toNat_cases c
    unfold upperHalf
    omega
  have hleads : isLeading (upperHalf c) = false := by
    simp only [isLeading, Bool.and_eq_false_iff, decide_eq_false_iff_not]
    omega
  have htrails : isTrailing (upperHalf c) = false := by
    simp only [isTrailing, Bool.and_eq_false_iff, decide_eq_false_iff_not]
    omega
  split
  · rename_i hsurrogate
    obtain ⟨hle, hlt⟩ := hsurrogate
    rw [ofUnits?]
    by_cases hlead : lowerHalf c < 0xDC00
    · have hleading : isLeading (lowerHalf c) = true := by simp [isLeading, hle, hlead]
      rw [if_pos hleading, if_neg (by simp [htrails])]
    · have hleading : isLeading (lowerHalf c) = false := by simp [isLeading, hlead]
      have htrailing : isTrailing (lowerHalf c) = true := by
        simp [isTrailing, Nat.le_of_not_lt hlead, hlt]
      rw [if_neg (by simp [hleading]), if_pos htrailing]
  · rename_i hsound
    have hleading : isLeading (lowerHalf c) = false := by
      simp only [HasSurrogateHalf] at hsound
      simp only [isLeading, Bool.and_eq_false_iff, decide_eq_false_iff_not]
      omega
    have htrailing : isTrailing (lowerHalf c) = false := by
      simp only [HasSurrogateHalf] at hsound
      simp only [isTrailing, Bool.and_eq_false_iff, decide_eq_false_iff_not]
      omega
    rw [ofUnits?_single hleading htrailing, ofUnits?_single hleads htrails, Option.map_map]
    rfl

theorem ofUnits?_halves (t : Text) :
    ofUnits? (t.flatMap fun c => [lowerHalf c, upperHalf c]) =
      if t.any (HasSurrogateHalf ·) then none
      else some (t.flatMap fun c => [Char.ofNat (lowerHalf c), Char.ofNat (upperHalf c)]) := by
  induction t with
  | nil => simp [ofUnits?]
  | cons c t ih =>
    rw [List.flatMap_cons, List.cons_append, List.singleton_append, ofUnits?_halves_cons, ih,
      List.any_cons]
    by_cases hc : HasSurrogateHalf c
    · simp [hc]
    · cases ht : t.any (HasSurrogateHalf ·) with
      | false => simp [hc]
      | true => simp [hc]

/-! ## Reading UTF-32 -/

/-- Little-endian bytes of UTF-32 are read as UTF-16. -/
theorem decode_utf32Marked_littleEndian (guess : ByteArray → Guess) (t : Text) :
    decode guess (utf32Marked .littleEndian t) =
      if t.any (HasSurrogateHalf ·) then .error "UTF-16LE".toList else .ok (inHalves t) := by
  have hbytes : (utf32Marked .littleEndian t).data.toList =
      0xFF :: 0xFE :: 0x00 :: 0x00 :: t.flatMap ByteOrder.littleEndian.wideBytes :=
    toList_utf32Marked .littleEndian t
  have hunits : units? .littleEndian
      (0x00 :: 0x00 :: t.flatMap ByteOrder.littleEndian.wideBytes) =
        some (0 :: t.flatMap fun c => [lowerHalf c, upperHalf c]) := by
    rw [units?, units?_wideBytes]
    rfl
  rw [decode, utf8?_utf32Marked]
  simp only [hbytes, utf16?, hunits, Option.bind_some]
  rw [ofUnits?_single (by decide) (by decide), ofUnits?_halves]
  split <;> rfl

/-- What big-endian bytes of UTF-32 are read as is guessed. -/
theorem decode_utf32Marked_bigEndian (guess : ByteArray → Guess) (t : Text) :
    decode guess (utf32Marked .bigEndian t) =
      match guess (utf32Marked .bigEndian t) with
      | .text u => .ok u
      | .malformed encoding => .error encoding := by
  have hbytes : (utf32Marked .bigEndian t).data.toList =
      0x00 :: 0x00 :: 0xFE :: 0xFF :: t.flatMap ByteOrder.bigEndian.wideBytes :=
    toList_utf32Marked .bigEndian t
  rw [decode, utf8?_utf32Marked, hbytes]
  rfl

theorem length_inHalves (t : Text) : (inHalves t).length = 2 * t.length + 1 := by
  have hpair : ∀ c : Char, [Char.ofNat (lowerHalf c), Char.ofNat (upperHalf c)].length = 2 :=
    fun _ => rfl
  simp only [inHalves, List.length_cons, List.length_flatMap, hpair, List.map_const',
    List.sum_replicate_nat]
  omega

theorem length_utf32Marked (order : ByteOrder) (t : Text) :
    (utf32Marked order t).data.toList.length = 4 * t.length + 4 := by
  have hmark : order.wideMark.length = 4 := by cases order <;> rfl
  have hquad : ∀ c : Char, (order.wideBytes c).length = 4 := by intro c; cases order <;> rfl
  simp only [toList_utf32Marked, List.length_append, List.length_flatMap, hmark, hquad,
    List.map_const', List.sum_replicate_nat]
  omega

/-- **UTF-32 is accepted as text and then misread.**  Little-endian bytes are rejected exactly when
a character of the text has a surrogate for its lower half, and all others are read as another text.
Big-endian bytes are read or rejected as they are guessed to be; a guess that takes each byte for a
character misreads them all. -/
theorem readsOrRejects_utf32Marked_iff (guess : ByteArray → Guess) (t : Text) :
    (∀ order, isBinary (utf32Marked order t) = false) ∧
    (ReadsOrRejects guess (utf32Marked .littleEndian t) t ↔ ∃ c ∈ t, HasSurrogateHalf c) ∧
    decode guess (utf32Marked .littleEndian t) =
      (if t.any (HasSurrogateHalf ·) then .error "UTF-16LE".toList else .ok (inHalves t)) ∧
    (ReadsOrRejects guess (utf32Marked .bigEndian t) t ↔
      guess (utf32Marked .bigEndian t) = .text t ∨
        ∃ encoding, guess (utf32Marked .bigEndian t) = .malformed encoding) ∧
    ∀ char : UInt8 → Char,
      guess (utf32Marked .bigEndian t) =
        .text ((utf32Marked .bigEndian t).data.toList.map char) →
      ¬ ReadsOrRejects guess (utf32Marked .bigEndian t) t := by
  have hother : inHalves t ≠ t := by
    intro hsame
    have hlength := length_inHalves t
    rw [hsame] at hlength
    omega
  have hbig : ReadsOrRejects guess (utf32Marked .bigEndian t) t ↔
      guess (utf32Marked .bigEndian t) = .text t ∨
        ∃ encoding, guess (utf32Marked .bigEndian t) = .malformed encoding := by
    rw [ReadsOrRejects, decode_utf32Marked_bigEndian]
    cases guess (utf32Marked .bigEndian t) <;> simp
  have hany : t.any (HasSurrogateHalf ·) ↔ ∃ c ∈ t, HasSurrogateHalf c := by
    simp only [List.any_eq_true, decide_eq_true_eq]
  refine ⟨fun order => isBinary_utf32Marked order t, ?_,
    decode_utf32Marked_littleEndian guess t, hbig, fun char hguess => ?_⟩
  · rw [ReadsOrRejects, decode_utf32Marked_littleEndian, ← hany]
    split
    · rename_i hsurrogate
      exact iff_of_true (.inr ⟨_, rfl⟩) hsurrogate
    · rename_i hsound
      refine iff_of_false ?_ hsound
      rintro (hread | ⟨_, hrejected⟩)
      · exact hother (Except.ok.inj hread)
      · cases hrejected
  · rw [hbig, hguess]
    rintro (hread | ⟨_, hrejected⟩)
    · have hlength := congrArg List.length (Guess.text.inj hread)
      rw [List.length_map, length_utf32Marked] at hlength
      omega
    · cases hrejected

/-- A letter, and a letter of a script whose codes end in those of surrogates, each in both byte
orders, with every byte guessed to be a character. -/
theorem readsOrRejects_utf32Marked_letters :
    let guess : ByteArray → Guess := fun bytes =>
      .text (bytes.data.toList.map fun b => Char.ofNat b.toNat)
    (utf32Marked .littleEndian ['A']).data.toList = [0xFF, 0xFE, 0, 0, 0x41, 0, 0, 0] ∧
      decode guess (utf32Marked .littleEndian ['A']) =
        .ok [Char.ofNat 0, 'A', Char.ofNat 0] ∧
      ReadsOrRejects guess (utf32Marked .littleEndian [Char.ofNat 0x1D800])
        [Char.ofNat 0x1D800] ∧
      guess (utf32Marked .bigEndian ['A']) =
        .text ((utf32Marked .bigEndian ['A']).data.toList.map fun b => Char.ofNat b.toNat) ∧
      ¬ ReadsOrRejects guess (utf32Marked .bigEndian ['A']) ['A'] := by
  intro guess
  obtain ⟨-, -, hread, -, hguessed⟩ := readsOrRejects_utf32Marked_iff guess ['A']
  obtain ⟨-, hrejected, -⟩ := readsOrRejects_utf32Marked_iff guess [Char.ofNat 0x1D800]
  have hhalf : ∃ c ∈ [Char.ofNat 0x1D800], HasSurrogateHalf c :=
    ⟨_, List.mem_singleton_self _, by decide⟩
  refine ⟨by decide, hread.trans rfl, hrejected.mpr hhalf, rfl, ?_⟩
  exact hguessed (fun b => Char.ofNat b.toNat) rfl

/-- A letter in UTF-32 is taken for a text of three characters. -/
theorem not_readsOrRejects_utf32Marked :
    ¬ ∀ guess t order, isBinary (utf32Marked order t) = false ∧
      ReadsOrRejects guess (utf32Marked order t) t := by
  intro hall
  have hletter := (hall (fun _ => .malformed []) ['A'] .littleEndian).2
  rw [ReadsOrRejects, decode_utf32Marked_littleEndian, if_neg (by decide)] at hletter
  rcases hletter with hread | ⟨_, hrejected⟩
  · exact absurd (Except.ok.inj hread) (by decide)
  · cases hrejected

end SourceBundle.Charset
