import SourceBundle.Charset.Utf16

/-!
# Writing UTF-16

The bytes of a text in UTF-16, and that they are read as that text (`utf16?_utf16Bytes`).  A
character is one unit, or a pair of surrogates when its code is beyond `0xFFFF`, and no character is
a surrogate, so the reader sees from a unit alone whether another one belongs to it.
-/

namespace SourceBundle.Charset

/-- The units of a character. -/
def unitsOf (c : Char) : List Nat :=
  if c.toNat < 0x10000 then [c.toNat]
  else [0xD800 + (c.toNat - 0x10000) / 0x400, 0xDC00 + (c.toNat - 0x10000) % 0x400]

/-- The two bytes of a unit. -/
def ByteOrder.bytes (order : ByteOrder) (u : Nat) : List UInt8 :=
  match order with
  | .littleEndian => [UInt8.ofNat (u % 256), UInt8.ofNat (u / 256)]
  | .bigEndian => [UInt8.ofNat (u / 256), UInt8.ofNat (u % 256)]

/-- The bytes of a text in UTF-16. -/
def utf16Bytes (order : ByteOrder) (t : Text) : List UInt8 :=
  (t.flatMap unitsOf).flatMap order.bytes

theorem toNat_cases (c : Char) :
    c.toNat < 0xD800 ∨ 0xE000 ≤ c.toNat ∧ c.toNat < 0x110000 := by
  have hvalid := c.valid
  have hcode : c.val.toNat = c.toNat := rfl
  rw [UInt32.isValidChar, Nat.isValidChar] at hvalid
  omega

theorem lt_of_mem_unitsOf {c : Char} {u : Nat} (h : u ∈ unitsOf c) : u < 0x10000 := by
  have hc := toNat_cases c
  rw [unitsOf] at h
  split at h
  · rw [List.mem_singleton] at h
    omega
  · simp only [List.mem_cons, List.not_mem_nil, or_false] at h
    omega

/-! ## Bytes of units -/

theorem units?_bytes (order : ByteOrder) {u : Nat} (hu : u < 0x10000) (rest : List UInt8) :
    units? order (order.bytes u ++ rest) = (units? order rest).map (u :: ·) := by
  have hlow : (UInt8.ofNat (u % 256)).toNat = u % 256 := by
    rw [UInt8.toNat_ofNat']
    omega
  have hhigh : (UInt8.ofNat (u / 256)).toNat = u / 256 := by
    rw [UInt8.toNat_ofNat']
    omega
  have hunit : u % 256 + 256 * (u / 256) = u := Nat.mod_add_div u 256
  cases order with
  | littleEndian => simp [ByteOrder.bytes, units?, ByteOrder.unit, hlow, hhigh, hunit]
  | bigEndian =>
    simp [ByteOrder.bytes, units?, ByteOrder.unit, hlow, hhigh, Nat.add_comm, hunit]

theorem units?_flatMap_bytes (order : ByteOrder) {us : List Nat} (h : ∀ u ∈ us, u < 0x10000) :
    units? order (us.flatMap order.bytes) = some us := by
  induction us with
  | nil => rfl
  | cons u us ih =>
    obtain ⟨hu, hus⟩ := List.forall_mem_cons.mp h
    rw [List.flatMap_cons, units?_bytes order hu, ih hus, Option.map_some]

/-! ## Units of characters -/

/-- A unit that is no surrogate is a character, whatever follows. -/
theorem ofUnits?_single {u : Nat} (h : isLeading u = false) (h' : isTrailing u = false)
    (us : List Nat) : ofUnits? (u :: us) = (ofUnits? us).map (Char.ofNat u :: ·) := by
  cases us with
  | nil => simp [ofUnits?, h, h']
  | cons v us => simp [ofUnits?, h, h']

theorem ofUnits?_unitsOf (c : Char) (us : List Nat) :
    ofUnits? (unitsOf c ++ us) = (ofUnits? us).map (c :: ·) := by
  have hc := toNat_cases c
  rw [unitsOf]
  split
  · have hleading : isLeading c.toNat = false := by
      simp only [isLeading, Bool.and_eq_false_iff, decide_eq_false_iff_not]
      omega
    have htrailing : isTrailing c.toNat = false := by
      simp only [isTrailing, Bool.and_eq_false_iff, decide_eq_false_iff_not]
      omega
    rw [List.singleton_append, ofUnits?_single hleading htrailing, Char.ofNat_toNat]
  · have hleading : isLeading (0xD800 + (c.toNat - 0x10000) / 0x400) = true := by
      simp only [isLeading, Bool.and_eq_true, decide_eq_true_eq]
      omega
    have htrailing : isTrailing (0xDC00 + (c.toNat - 0x10000) % 0x400) = true := by
      simp only [isTrailing, Bool.and_eq_true, decide_eq_true_eq]
      omega
    have hpair : pairChar (0xD800 + (c.toNat - 0x10000) / 0x400)
        (0xDC00 + (c.toNat - 0x10000) % 0x400) = c := by
      have hcode : 0x10000 + (0xD800 + (c.toNat - 0x10000) / 0x400 - 0xD800) * 0x400 +
          (0xDC00 + (c.toNat - 0x10000) % 0x400 - 0xDC00) = c.toNat := by omega
      rw [pairChar, hcode, Char.ofNat_toNat]
    rw [List.cons_append, List.singleton_append, ofUnits?, if_pos hleading, if_pos htrailing, hpair]

theorem ofUnits?_flatMap_unitsOf (t : Text) : ofUnits? (t.flatMap unitsOf) = some t := by
  induction t with
  | nil => rfl
  | cons c t ih => rw [List.flatMap_cons, ofUnits?_unitsOf, ih, Option.map_some]

/-- The bytes of a text are read as that text. -/
theorem utf16?_utf16Bytes (order : ByteOrder) (t : Text) :
    utf16? order (utf16Bytes order t) = some t := by
  have hunits : ∀ u ∈ t.flatMap unitsOf, u < 0x10000 := by
    intro u hu
    obtain ⟨c, -, hc⟩ := List.mem_flatMap.mp hu
    exact lt_of_mem_unitsOf hc
  rw [utf16?, utf16Bytes, units?_flatMap_bytes order hunits, Option.bind_some,
    ofUnits?_flatMap_unitsOf]

end SourceBundle.Charset
