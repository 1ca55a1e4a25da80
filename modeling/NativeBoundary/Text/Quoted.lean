import NativeBoundary.Text.Printable

/-!
# Quoted characters and texts

The form in which a diagnostic names one character, or a text.  Control characters in common use
and the backslash have a short escape, and so has the quote that is used; a character without a
visible form of its own is written by its code point, and every other character stands for itself.
-/

set_option autoImplicit false

namespace NativeBoundary.Text

def hexDigits (n : Nat) : String :=
  String.ofList (Nat.toDigits 16 n)

def escapeChar (quote c : Char) : String :=
  if c = '\x00' then "\\0"
  else if c = '\t' then "\\t"
  else if c = '\r' then "\\r"
  else if c = '\n' then "\\n"
  else if c = '\\' ∨ c = quote then "\\" ++ String.singleton c
  else if extendsGrapheme c || !isPrintable c then
    "\\u\x7b" ++ hexDigits c.toNat ++ "\x7d"
  else
    String.singleton c

def quoteChar (c : Char) : String :=
  "'" ++ escapeChar '\'' c ++ "'"

def quoteText (text : String) : String :=
  "\"" ++ String.join (text.toList.map (escapeChar '"')) ++ "\""

end NativeBoundary.Text
