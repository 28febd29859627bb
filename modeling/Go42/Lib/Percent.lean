-- SUMMARY: Percent encoding of text: how a URL component is decoded, and that decoding only shortens what has an escape in it.
import Mathlib.Data.List.Basic

/-!
# Percent encoding

A decoder reads `%XX` as an octet, and the octets of one character must follow each
other without anything between them.
-/

namespace Go42.Percent

/-- The value of a hexadecimal digit. -/
def hexDigit (c : Char) : Option ℕ :=
  if '0' ≤ c ∧ c ≤ '9' then some (c.toNat - '0'.toNat)
  else if 'A' ≤ c ∧ c ≤ 'F' then some (c.toNat - 'A'.toNat + 10)
  else if 'a' ≤ c ∧ c ≤ 'f' then some (c.toNat - 'a'.toNat + 10)
  else none

def octet (a b : Char) : Option UInt8 := do
  let hi ← hexDigit a
  let lo ← hexDigit b
  return UInt8.ofNat (16 * hi + lo)

/-- Characters that stand for themselves, and octets. -/
def tokens : List Char → Option (List (Char ⊕ UInt8))
  | [] => some []
  | '%' :: a :: b :: cs => do
    let x ← octet a b
    let ts ← tokens cs
    return .inr x :: ts
  | '%' :: _ => none
  | c :: cs => (tokens cs).map (.inl c :: ·)

/-- How many octets a character has, by its first one. -/
def sequenceLength (first : UInt8) : Option ℕ :=
  if first < 0x80 then some 1
  else if first < 0xc0 then none
  else if first < 0xe0 then some 2
  else if first < 0xf0 then some 3
  else if first < 0xf8 then some 4
  else none

/-- The bits that the octets carry. -/
def codePoint : List UInt8 → ℕ
  | [b] => b.toNat
  | [b₀, b₁] => (b₀.toNat % 32) * 64 + b₁.toNat % 64
  | [b₀, b₁, b₂] => ((b₀.toNat % 16) * 64 + b₁.toNat % 64) * 64 + b₂.toNat % 64
  | [b₀, b₁, b₂, b₃] => (((b₀.toNat % 8) * 64 + b₁.toNat % 64) * 64 + b₂.toNat % 64) * 64 + b₃.toNat % 64
  | _ => 0

/-- The character of which these are the octets. -/
def character (octets : List UInt8) : Option Char :=
  let c := Char.ofNat (codePoint octets)
  if String.utf8EncodeChar c = octets then some c else none

/-- The text of tokens, where `pending` are the octets of a character that has begun. -/
def assemble : List UInt8 → List (Char ⊕ UInt8) → Option (List Char)
  | pending, [] => if pending = [] then some [] else none
  | pending, .inl c :: ts => if pending = [] then (assemble [] ts).map (c :: ·) else none
  | pending, .inr b :: ts =>
    let octets := pending ++ [b]
    match sequenceLength (octets.headD b) with
    | none => none
    | some n =>
      if octets.length < n then assemble octets ts
      else
        match character octets with
        | none => none
        | some c => (assemble [] ts).map (c :: ·)

/-- `decodeURIComponent`; `none` when it throws. -/
def decode (s : List Char) : Option (List Char) := do
  let ts ← tokens s
  assemble [] ts

/-- `encodeURIComponent`. -/
def encode (s : List Char) : List Char :=
  let hex := fun n => if n < 10 then Char.ofNat (0x30 + n) else Char.ofNat (0x41 + n - 10)
  s.flatMap fun c =>
    if c.isAlphanum || "-_.!~*'()".toList.contains c then [c]
    else (String.utf8EncodeChar c).flatMap fun b => ['%', hex (b.toNat / 16), hex (b.toNat % 16)]

example : decode "a%20%C3%A9".toList = some "a é".toList ∧ decode "%C3a".toList = none ∧
    decode "100%.md".toList = none := by decide +kernel

/-! ## Plain text -/

theorem tokens_plain {c : Char} (hc : c ≠ '%') (cs : List Char) :
    tokens (c :: cs) = (tokens cs).map (.inl c :: ·) := by
  rw [tokens]
  case x_1 => exact fun _ _ _ h => absurd h hc
  case x_2 => exact hc

theorem decode_plain {c : Char} (hc : c ≠ '%') (cs : List Char) :
    decode (c :: cs) = (decode cs).map (c :: ·) := by
  rw [decode, decode, tokens_plain hc]
  cases tokens cs with
  | none => rfl
  | some ts => rfl

/-- Text without `%` stands for itself, whatever follows. -/
theorem decode_append {a : List Char} (ha : '%' ∉ a) (b : List Char) :
    decode (a ++ b) = (decode b).map (a ++ ·) := by
  induction a with
  | nil => simp
  | cons c a ih =>
      have hc : c ≠ '%' := fun h => ha (h ▸ List.mem_cons_self)
      rw [List.cons_append, decode_plain hc, ih fun h => ha (List.mem_cons_of_mem _ h), Option.map_map]
      rfl

theorem decode_of_plain {a : List Char} (ha : '%' ∉ a) : decode a = some a := by
  have happend := decode_append ha []
  rwa [List.append_nil, show decode [] = some [] from rfl, Option.map_some, List.append_nil] at happend

/-! ## Lengths -/

/-- A token takes one character of the text, and an escape takes three. -/
theorem tokens_length {s : List Char} {ts : List (Char ⊕ UInt8)} (h : tokens s = some ts) :
    ts.length ≤ s.length ∧ ('%' ∈ s → ts.length < s.length) := by
  induction s using tokens.induct generalizing ts with
  | case1 =>
      cases h
      exact ⟨Nat.le_refl _, fun hmem => (nomatch hmem)⟩
  | case2 a b cs ih =>
      simp only [tokens, Option.bind_eq_bind, Option.bind_eq_some_iff] at h
      obtain ⟨x, -, ts', hts, h⟩ := h
      cases h
      have hlength := (ih hts).1
      simp only [List.length_cons]
      omega
  | case3 cs hcs =>
      rw [tokens] at h
      · cases h
      · exact hcs
  | case4 c cs hcs hc ih =>
      rw [tokens_plain hc] at h
      obtain ⟨ts', hts, rfl⟩ := Option.map_eq_some_iff.mp h
      obtain ⟨hlength, hshorter⟩ := ih hts
      refine ⟨Nat.succ_le_succ hlength, fun hmem => Nat.succ_lt_succ (hshorter ?_)⟩
      rcases List.mem_cons.mp hmem with hmem | hmem
      · exact absurd hmem.symm hc
      · exact hmem

theorem assemble_length {pending : List UInt8} {ts : List (Char ⊕ UInt8)} {cs : List Char}
    (h : assemble pending ts = some cs) : cs.length ≤ ts.length := by
  induction ts generalizing pending cs with
  | nil =>
      rw [assemble] at h
      split at h
      case isTrue =>
        cases h
        exact Nat.le_refl _
      case isFalse => cases h
  | cons t ts ih =>
      cases t with
      | inl c =>
          rw [assemble] at h
          split at h
          case isTrue =>
            obtain ⟨cs', hcs, rfl⟩ := Option.map_eq_some_iff.mp h
            exact Nat.succ_le_succ (ih hcs)
          case isFalse => cases h
      | inr b =>
          rw [assemble] at h
          split at h
          case h_1 => cases h
          case h_2 =>
            split at h
            case isTrue => exact Nat.le_succ_of_le (ih h)
            case isFalse =>
              split at h
              case h_1 => cases h
              case h_2 =>
                obtain ⟨cs', hcs, rfl⟩ := Option.map_eq_some_iff.mp h
                exact Nat.succ_le_succ (ih hcs)

/-- Decoding never makes a text longer, and a text with an escape becomes shorter. -/
theorem decode_length {s t : List Char} (h : decode s = some t) :
    t.length ≤ s.length ∧ ('%' ∈ s → t.length < s.length) := by
  obtain ⟨ts, hts, hassemble⟩ := Option.bind_eq_some_iff.mp h
  have hlength := assemble_length hassemble
  obtain ⟨hle, hlt⟩ := tokens_length hts
  exact ⟨Nat.le_trans hlength hle, fun hmem => Nat.lt_of_le_of_lt hlength (hlt hmem)⟩

end Go42.Percent
