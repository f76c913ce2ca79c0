import SourceBundle.Text.Basic
import SourceBundle.Unicode.Casing

/-!
# Lower case

Names are compared without regard to case through their full lower-case forms.  Two rules go
beyond a table from character to character: a capital I with a dot becomes two characters, and a
capital sigma becomes the final sigma where it ends a word.
-/

namespace SourceBundle.Text

open SourceBundle.Unicode

/-- The code has the property `Case_Ignorable`: it stands between letters without parting them. -/
def isCaseIgnorable (n : Nat) : Bool :=
  inRanges n caseIgnorableLow || inRanges n caseIgnorableMid || inRanges n caseIgnorableHigh

/-- The first character that is not to be ignored is a cased one. -/
def meetsCased (t : Text) : Bool :=
  match t.dropWhile fun c => isCaseIgnorable c.toNat with
  | [] => false
  | c :: _ => inRanges c.toNat cased

/-- The lower-case form of a character by itself. -/
def lowerChar (c : Char) : Text :=
  if c.toNat < 0x80 then [c.toLower]
  else if c.toNat = 0x130 then ['i', Char.ofNat 0x307]
  else
    match caseRuns.findSome? fun run => run.lower? c.toNat with
    | some n => [Char.ofNat n]
    | none => [c]

/-- The lower-case form of a text whose preceding characters, nearest first, are `before`.  A
capital sigma is final when a cased character comes before it and none after it. -/
def lowerAfter (before : Text) : Text → Text
  | [] => []
  | c :: t =>
    let form :=
      if c.toNat = 0x3A3 then
        if meetsCased before && !meetsCased t then [Char.ofNat 0x3C2] else [Char.ofNat 0x3C3]
      else lowerChar c
    form ++ lowerAfter (c :: before) t

/-- The lower-case form of a text. -/
def lower (t : Text) : Text := lowerAfter [] t

end SourceBundle.Text
