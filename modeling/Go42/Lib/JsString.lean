-- SUMMARY: The string methods of JavaScript that the documentation build uses.
import Go42.Lib.GoString
import Go42.Lib.GoTime

/-!
# Strings of JavaScript

Strings are sequences of Unicode characters: they come from files that were decoded as
UTF-8, so no surrogate stands alone.
-/

namespace Go42.Js

/-- White space and line terminators. -/
def isSpace (c : Char) : Bool :=
  let n := c.toNat
  (0x9 ≤ n && n ≤ 0xd) || n == 0x20 || n == 0xa0 || n == 0x1680 || (0x2000 ≤ n && n ≤ 0x200a) ||
    n == 0x2028 || n == 0x2029 || n == 0x202f || n == 0x205f || n == 0x3000 || n == 0xfeff

/-- What `.` does not match. -/
def isLineTerminator (c : Char) : Bool :=
  c == '\n' || c == '\r' || c.toNat == 0x2028 || c.toNat == 0x2029

def trim (s : String) : String := String.ofList ((s.toList.dropWhile isSpace).rdropWhile isSpace)

/-- The final form of sigma is left out: it is in no name that a text is compared with. -/
def toLowerCase (s : String) : String :=
  String.ofList (s.toList.flatMap fun c => if c.toNat == 0x130 then ['i', Char.ofNat 0x307] else [toLower c])

def isAlpha (c : Char) : Bool := ('a' ≤ c && c ≤ 'z') || ('A' ≤ c && c ≤ 'Z')

def isDigit (c : Char) : Bool := '0' ≤ c && c ≤ '9'

def digit (c : Char) : ℕ := c.toNat - '0'.toNat

/-- `BigInt` of digits, and `0n` of none. -/
def bigInt (digits : List Char) : ℕ := digits.foldl (fun n c => 10 * n + digit c) 0

def daysIn (year month : ℕ) : ℕ :=
  match month with
  | 2 => if GoTime.isLeap year then 29 else 28
  | 4 | 6 | 9 | 11 => 30
  | _ => 31

/-- `\d{4}-\d{2}-\d{2}` that `Date` reads and writes back unchanged: the day exists. -/
def isRealDate (s : String) : Bool :=
  match s.toList with
  | [y₁, y₂, y₃, y₄, s₁, m₁, m₂, s₂, d₁, d₂] =>
    [y₁, y₂, y₃, y₄, m₁, m₂, d₁, d₂].all isDigit && s₁ == '-' && s₂ == '-' &&
      (let month := bigInt [m₁, m₂]
       let day := bigInt [d₁, d₂]
       1 ≤ month && month ≤ 12 && 1 ≤ day && day ≤ daysIn (bigInt [y₁, y₂, y₃, y₄]) month)
  | _ => false

example : isRealDate "2024-02-29" = true ∧ isRealDate "2026-02-30" = false := by decide

end Go42.Js
