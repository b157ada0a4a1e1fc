import Beacon.Bytes

/-!
# Writing JSON text

The written forms of the values that a configuration is made of.
-/

namespace Beacon.Json

/-- A character as it stands in a string: quotes, backslashes and control characters escaped. -/
def escape (c : Char) : List Char :=
  if c = '"' then ['\\', '"']
  else if c = '\\' then ['\\', '\\']
  else if c.toNat < 0x20 then
    ['\\', 'u', '0', '0', hexDigit (c.toNat / 16), hexDigit (c.toNat % 16)]
  else [c]

def quote (s : String) : String :=
  "\"" ++ String.ofList (s.toList.flatMap escape) ++ "\""

/-- An array of values that are written already. -/
def bracket (items : List String) : String :=
  "[" ++ ",".intercalate items ++ "]"

def each {α : Type} {n : Nat} (write : α → String) (values : Vector α n) : String :=
  bracket (values.toList.map write)

end Beacon.Json
