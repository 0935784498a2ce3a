import LeaveCli.Lib.Fields
import LeaveCli.Lib.Replace

/-!
# JSON values

`Json ν` is a JSON value with numbers in `ν`. `Json.get` reads a field of an object and
`Json.pointer` follows a JSON pointer. Where a key occurs twice the first one counts. `Json.text` is
JavaScript's `String` of a value.
-/

namespace Lib

inductive Json (ν : Type) where
  | null
  | bool (value : Bool)
  | number (value : ν)
  | string (value : Str)
  | array (items : List (Json ν))
  | object (fields : List (Str × Json ν))

namespace Json

variable {ν : Type}

def get (key : Str) : Json ν → Option (Json ν)
  | .object fields => fields.lookup key
  | _ => none

def asStr : Json ν → Option Str
  | .string value => some value
  | _ => none

def asNumber : Json ν → Option ν
  | .number value => some value
  | _ => none

/-- The reference tokens of a JSON pointer; a text that starts otherwise is none. -/
def pointerTokens : Str → Option (List Str)
  | [] => some []
  | '/' :: rest =>
    some ((rest.splitOn '/').map fun token =>
      replace ("~0" : Str) ("~" : Str) (replace ("~1" : Str) ("/" : Str) token))
  | _ => none

/-- An array index: no sign, no leading zero. -/
def arrayIndex (token : Str) : Option Nat :=
  if token.head? = some '0' && token.length ≠ 1 then none
  else if token ≠ [] && token.all Char.isDigit then some (Nat.ofDigitChars 10 token 0)
  else none

/-- Follow reference tokens. -/
def follow : List Str → Json ν → Option (Json ν)
  | [], value => some value
  | token :: tokens, .object fields => (fields.lookup token).bind (follow tokens)
  | token :: tokens, .array items =>
    ((arrayIndex token).bind fun index => items[index]?).bind (follow tokens)
  | _ :: _, _ => none

/-- The value a JSON pointer points to. -/
def pointer (text : Str) (value : Json ν) : Option (Json ν) :=
  (pointerTokens text).bind (follow · value)

mutual

/-- JavaScript's `String`, with the text of numbers given. It throws for an object that has a field
in the place of the method `toString`. -/
def text (numberText : ν → Str) : Json ν → Option Str
  | .null => some "null"
  | .bool value => some (if value then "true" else "false")
  | .number value => some (numberText value)
  | .string value => some value
  | .array items => (itemTexts numberText items).map fun texts => ([','] : Str).intercalate texts
  | .object fields =>
    if (fields.lookup ("toString" : Str)).isSome then none else some "[object Object]"

/-- The texts that an array joins: nothing for `null`. -/
def itemTexts (numberText : ν → Str) : List (Json ν) → Option (List Str)
  | [] => some []
  | .null :: items => (itemTexts numberText items).map ([] :: ·)
  | item :: items =>
    (text numberText item).bind fun front => (itemTexts numberText items).map (front :: ·)

end

end Json

end Lib
