-- SUMMARY: Values stored in a cache in gob encoding, and what a failed decode leaves of them.
import Go42.Lib.Base64
import Go42.Lib.Prog

/-!
# Encoded cache values

The codec is a parameter. A decode that fails may have allocated its target and filled a
part of it, so it answers with what the target holds beside the error.
-/

namespace Go42.Cache

/-- The gob codec of one type. -/
structure Gob (T : Type) where
  /-- `NewEncoder(&buf).Encode(value)`. -/
  encode : T → Except GoError Bytes
  /-- `NewDecoder(str).Decode(&out)` with the given `out`. -/
  decode : Bytes → T → T × Option GoError

variable {Cmd : Type} {Res : Cmd → Type} {T : Type}

/-- What was encoded is decoded into a target that is still at its zero value. -/
def Gob.RoundTrips [Inhabited T] (G : Gob T) : Prop :=
  ∀ {value : T} {str : Bytes}, G.encode value = .ok str → G.decode str default = (value, none)

/-- `GetDecode`, from the answer of the cache on: both results are returned together. -/
def decodeAnswer [Inhabited T] (G : Gob T) : Except GoError (Option Bytes) → T × Option GoError
  | .error err => (default, some err)
  | .ok none => (default, none)
  | .ok (some str) =>
    match G.decode str default with
    | (out, some err) => (out, some (.wrap "gob decode failed: " err ""))
    | (out, none) => (out, none)

/-- `GetDecode[T]`; `get` is the read of the cache. -/
def getDecode [Inhabited T] (G : Gob T) (get : Prog Cmd Res (Option Bytes)) :
    Prog Cmd Res (T × Option GoError) := do
  return decodeAnswer G (← get.attempt)

/-- `SetEncode[T]`; `set` is the write to the cache. -/
def setEncode (G : Gob T) (value : T) (set : Bytes → Prog Cmd Res Unit) : Prog Cmd Res Unit :=
  match G.encode value with
  | .error err => .fail (.wrap "gob encode failed: " err "")
  | .ok str => set str

/-- What `SetEncode` stored is what `GetDecode` returns. -/
theorem decodeAnswer_encode [Inhabited T] {G : Gob T} (hG : G.RoundTrips) {value : T} {str : Bytes}
    (h : G.encode value = .ok str) : decodeAnswer G (.ok (some str)) = (value, none) := by
  simp [decodeAnswer, hG h]

end Go42.Cache
