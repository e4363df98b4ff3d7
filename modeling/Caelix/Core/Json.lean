import Mathlib.Algebra.GroupWithZero.Nat
import Mathlib.Data.List.Basic

/-!
# JSON texts

The values of `serde_json` and the text that `serde_json::to_vec` writes for them, without
blanks. Numbers are kept as the literal that is written, the members of an object in the
order in which they are written. Sizes count UTF-8 bytes.

* `byteLength_quoted`: the size of a quoted string, one character at a time.
-/

namespace Caelix

inductive Json where
  | null
  | bool (value : Bool)
  | number (literal : String)
  | string (value : String)
  | array (items : List Json)
  | object (members : List (String × Json))

namespace Json

def hexDigit (n : Nat) : String := String.singleton (Nat.digitChar (n % 16))

/-- `format_escaped_str_contents` on one character. -/
def escapeChar (c : Char) : String :=
  if c = '"' then "\\\""
  else if c = '\\' then "\\\\"
  else if c.toNat = 0x08 then "\\b"
  else if c.toNat = 0x0C then "\\f"
  else if c = '\n' then "\\n"
  else if c = '\r' then "\\r"
  else if c = '\t' then "\\t"
  else if c.toNat < 0x20 then "\\u00" ++ hexDigit (c.toNat / 16) ++ hexDigit c.toNat
  else String.singleton c

def escape (s : String) : String := s.toList.foldr (fun c text => escapeChar c ++ text) ""

def quoted (s : String) : String := "\"" ++ escape s ++ "\""

mutual

/-- `serde_json::to_vec`. -/
def render : Json → String
  | null => "null"
  | bool true => "true"
  | bool false => "false"
  | number literal => literal
  | string value => quoted value
  | array items => "[" ++ renderItems items ++ "]"
  | object members => "\x7b" ++ renderMembers members ++ "\x7d"

def renderItems : List Json → String
  | [] => ""
  | [item] => render item
  | item :: items => render item ++ "," ++ renderItems items

def renderMembers : List (String × Json) → String
  | [] => ""
  | [(name, value)] => quoted name ++ ":" ++ render value
  | (name, value) :: members =>
    quoted name ++ ":" ++ render value ++ "," ++ renderMembers members

end

def byteLength (value : Json) : Nat := value.render.utf8ByteSize

/-- The number of bytes a character takes inside a quoted string. -/
def escapedLength (c : Char) : Nat := (escapeChar c).utf8ByteSize

theorem utf8ByteSize_escape (s : String) :
    (escape s).utf8ByteSize = (s.toList.map escapedLength).sum := by
  unfold escape
  induction s.toList with
  | nil => rfl
  | cons c cs ih =>
    rw [List.foldr_cons, String.utf8ByteSize_append, ih, List.map_cons, List.sum_cons]
    rfl

theorem byteLength_quoted (s : String) :
    (quoted s).utf8ByteSize = (s.toList.map escapedLength).sum + 2 := by
  have hQuote : ("\"" : String).utf8ByteSize = 1 := by decide
  rw [quoted, String.utf8ByteSize_append, String.utf8ByteSize_append, utf8ByteSize_escape, hQuote]
  omega

end Json

end Caelix
