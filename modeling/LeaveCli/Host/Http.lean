import LeaveCli.Lib.Text

/-!
# The HTTP types the host uses (`http` and `axum`)

Requests and responses as the `http` crate builds them: names of headers are lower case, a name
may occur more than once, and `HeaderMap.get` finds the first value. The target of a request is
split as `Uri` does, which drops a `#fragment`. What the crate accepts as a method, a target or
headers is the parameter `Http`.
-/

namespace LeaveCli.Host

open Lib

/-- The checks of `request::Builder`: a method token, a request target, and headers, one after the
other, with their names, values and how many of them a `HeaderMap` takes. -/
structure Http where
  acceptsMethod : Str → Bool
  acceptsTarget : Str → Bool
  acceptsHeaders : List (Str × Str) → Bool

/-- `Uri::path` and `Uri::query` of a target in origin form. -/
structure Uri where
  path : Str
  query : Option Str
  deriving DecidableEq

/-- The part of a target that is not its fragment. -/
def withoutFragment (target : Str) : Str := target.takeWhile (· ≠ '#')

/-- `Uri::try_from` on a target it accepts. -/
def Uri.ofTarget (target : Str) : Uri :=
  match Str.splitOnce '?' (withoutFragment target) with
  | none => ⟨withoutFragment target, none⟩
  | some (path, query) => ⟨path, some query⟩

/-- `HeaderMap`, in the order of `append`. -/
abbrev HeaderMap := List (Str × Bytes)

/-- `HeaderMap::get`. -/
def HeaderMap.get (headers : HeaderMap) (name : Str) : Option Bytes :=
  (headers.find? fun header => header.1 = name).map (·.2)

/-- `HeaderValue::to_str`: the value as text when every byte is visible ASCII or a tab. -/
def headerToStr (value : Bytes) : Option Str :=
  if value.all fun b => (32 ≤ b ∧ b < 127) ∨ b = 9 then
    some (value.map fun b => Char.ofNat b.toNat)
  else none

structure HttpRequest where
  method : Str
  uri : Uri
  headers : HeaderMap
  body : Bytes
  deriving DecidableEq

structure HttpResponse where
  status : Nat
  headers : HeaderMap
  /-- What reading the body to its end gives. -/
  body : Except Str Bytes

/-- `axum::body::to_bytes`. -/
def toBytes (body : Except Str Bytes) (limit : Nat) : Except Str Bytes :=
  match body with
  | .error e => .error e
  | .ok bytes => if bytes.length > limit then .error "length limit exceeded" else .ok bytes

end LeaveCli.Host
