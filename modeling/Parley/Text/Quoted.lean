import Parley.Text.Printable

/-!
# Quoted text

How a text appears inside a message: between single quotes, or between double quotes if it holds
single quotes and no double ones. The backslash, the quote in use and every character that is not
printable are escaped, the latter by name or by code point.
-/

namespace Parley.Text

/-- The code point in hexadecimal digits, filled with zeros to a width. -/
def hexDigits (width n : Nat) : List Char :=
  let ds := Nat.toDigits 16 n
  List.replicate (width - ds.length) '0' ++ ds

def quoteFor (cs : List Char) : Char :=
  if cs.contains '\'' && !cs.contains '"' then '"' else '\''

def quoteChar (q c : Char) : List Char :=
  if c = q ∨ c = '\\' then ['\\', c]
  else if c = '\n' then ['\\', 'n']
  else if c = '\r' then ['\\', 'r']
  else if c = '\t' then ['\\', 't']
  else if isPrintable c then [c]
  else if c.toNat < 0x100 then '\\' :: 'x' :: hexDigits 2 c.toNat
  else if c.toNat < 0x10000 then '\\' :: 'u' :: hexDigits 4 c.toNat
  else '\\' :: 'U' :: hexDigits 8 c.toNat

def quote (cs : List Char) : List Char :=
  let q := quoteFor cs
  q :: (cs.flatMap (quoteChar q) ++ [q])

end Parley.Text
