import RespClient.Text.Mark
import RespClient.Text.Utf8

/-!
# Text/Quoted — text between quotation marks, nothing in it unseen

`quote` shows text so that every character can be told: a quotation mark and a backslash are escaped,
the common control characters have a letter each, and any other character with no glyph of its own
(`isHidden`) is shown as its number.  A gap between the characters of a script is shown as it is.
-/

namespace RespClient.Quoted

/-- **Ranges of characters without a glyph**: controls, separators other than the space, formatting
characters, private use, and the code points and planes that hold no characters. -/
def blankRanges : List (Nat × Nat) :=
  [(0x00, 0x1F), (0x7F, 0xA0), (0xAD, 0xAD), (0x600, 0x605), (0x61C, 0x61C), (0x6DD, 0x6DD),
   (0x70F, 0x70F), (0x890, 0x891), (0x8E2, 0x8E2), (0x1680, 0x1680), (0x180E, 0x180E),
   (0x2000, 0x200F), (0x2028, 0x202F), (0x205F, 0x206F), (0x3000, 0x3000), (0xE000, 0xF8FF),
   (0xFDD0, 0xFDEF), (0xFEFF, 0xFEFF), (0xFFF0, 0xFFFB), (0xFFFE, 0xFFFF), (0x110BD, 0x110BD),
   (0x110CD, 0x110CD), (0x13430, 0x13438), (0x1BCA0, 0x1BCA3), (0x1D173, 0x1D17A),
   (0x1FFFE, 0x1FFFF), (0x2FFFE, 0x2FFFF), (0x3FFFE, 0x10FFFF)]

/-- Whether a character is shown as its number: it has no glyph, or none of its own. -/
def isHidden (c : Char) : Bool :=
  Mark.isMark c || blankRanges.any fun (first, last) => first ≤ c.toNat && c.toNat ≤ last

/-- One character as it stands between the quotation marks. -/
def escape (c : Char) : List Char :=
  if c = '"' then ['\\', '"']
  else if c = '\\' then ['\\', '\\']
  else if c = '\t' then ['\\', 't']
  else if c = '\r' then ['\\', 'r']
  else if c = '\n' then ['\\', 'n']
  else if c.toNat = 0 then ['\\', '0']
  else if isHidden c then
    ['\\', 'u', '\x7b'] ++ Nat.toDigits 16 c.toNat ++ ['\x7d']
  else [c]

/-- **Text between quotation marks**, every character told. -/
def quote (text : String) : String :=
  String.ofList ('"' :: text.toList.flatMap escape ++ ['"'])

end RespClient.Quoted
