import SourceBundle.Text.Basic

/-!
# UTF-16

The reading of bytes as UTF-16 in either byte order.  A surrogate without its partner and an odd
byte at the end make the bytes unreadable.
-/

namespace SourceBundle.Charset

/-- The order of the two bytes of a unit. -/
inductive ByteOrder where
  | littleEndian
  | bigEndian
  deriving DecidableEq, Repr

/-- The unit that two bytes make. -/
def ByteOrder.unit (order : ByteOrder) (a b : UInt8) : Nat :=
  match order with
  | .littleEndian => a.toNat + 256 * b.toNat
  | .bigEndian => 256 * a.toNat + b.toNat

/-- The units of a byte sequence. -/
def units? (order : ByteOrder) : List UInt8 → Option (List Nat)
  | [] => some []
  | [_] => none
  | a :: b :: rest => (units? order rest).map (order.unit a b :: ·)

/-- The unit leads a surrogate pair. -/
def isLeading (u : Nat) : Bool := 0xD800 ≤ u && u < 0xDC00

/-- The unit trails in a surrogate pair. -/
def isTrailing (u : Nat) : Bool := 0xDC00 ≤ u && u < 0xE000

/-- The character of a surrogate pair. -/
def pairChar (u v : Nat) : Char := Char.ofNat (0x10000 + (u - 0xD800) * 0x400 + (v - 0xDC00))

/-- The text of a sequence of units. -/
def ofUnits? : List Nat → Option Text
  | [] => some []
  | [u] => if isLeading u || isTrailing u then none else some [Char.ofNat u]
  | u :: v :: rest =>
    if isLeading u then
      if isTrailing v then (ofUnits? rest).map (pairChar u v :: ·) else none
    else if isTrailing u then none
    else (ofUnits? (v :: rest)).map (Char.ofNat u :: ·)

/-- The text of which the bytes are the UTF-16 form in the given byte order. -/
def utf16? (order : ByteOrder) (bytes : List UInt8) : Option Text :=
  (units? order bytes).bind ofUnits?

end SourceBundle.Charset
