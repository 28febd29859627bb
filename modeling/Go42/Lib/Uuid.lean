-- SUMMARY: UUIDs as their canonical text, and the library that checks strings.
import Mathlib.Tactic.Basic

/-!
# UUIDs

A `uuid.UUID` is sixteen bytes; its canonical text determines it, and that text is
what tokens and tables hold. A UUID is represented by the text.
-/

namespace Go42

abbrev UUID := String

/-- The UUID library, for strings that are checked. -/
class UUIDLib where
  /-- `uuid.Validate(s) == nil`. -/
  validate : String → Bool

namespace UUID

/-- `uuid.Nil`. -/
def nil : UUID := "00000000-0000-0000-0000-000000000000"

def isHex (c : Char) : Bool :=
  ('0' ≤ c && c ≤ '9') || ('a' ≤ c && c ≤ 'f') || ('A' ≤ c && c ≤ 'F')

/-- Groups of 8, 4, 4, 4 and 12 hexadecimal digits. -/
def hyphenated (cs : List Char) : Bool :=
  cs.length == 36 && cs.zipIdx.all fun (c, i) =>
    if i = 8 || i = 13 || i = 18 || i = 23 then c == '-' else isHex c

/-- The formats that are documented: the standard form, the same after `urn:uuid:` or in
braces, or thirty-two digits. -/
@[reducible] def formats : UUIDLib where
  validate s :=
    let cs := s.toList
    hyphenated cs ||
      ((cs.take 9).map Char.toLower == "urn:uuid:".toList && hyphenated (cs.drop 9)) ||
      (cs.length == 38 && cs.head? == some '\x7b' && cs.getLast? == some '\x7d' &&
        hyphenated (cs.tail.take 36)) ||
      (cs.length == 32 && cs.all isHex)

end UUID
end Go42
