import TalAnalysis.Text.Unprintable

namespace TalAnalysis.Text

def writtenCode (c : Char) : List Char :=
  ['\\', 'u', '\x7b'] ++ Nat.toDigits 16 c.toNat ++ ['\x7d']

def quotedChar (c : Char) : List Char :=
  if c = '\x00' then ['\\', '0']
  else if c = '\t' then ['\\', 't']
  else if c = '\r' then ['\\', 'r']
  else if c = '\n' then ['\\', 'n']
  else if c = '"' then ['\\', '"']
  else if c = '\\' then ['\\', '\\']
  else if isPrintable c then [c]
  else writtenCode c

def quoted (text : String) : String :=
  String.ofList ('"' :: (text.toList.flatMap quotedChar ++ ['"']))

def escaped (c : Char) : String :=
  if c = '\t' then "\\t"
  else if c = '\r' then "\\r"
  else if c = '\n' then "\\n"
  else if c = '\'' then "\\'"
  else if c = '"' then "\\\""
  else if c = '\\' then "\\\\"
  else if 0x20 ≤ c.toNat ∧ c.toNat < 0x7f then String.singleton c
  else String.ofList (writtenCode c)

example : quoted "a\t\"é\"\u00a0" = "\"a\\t\\\"é\\\"\\u\x7ba0\x7d\"" := by decide +kernel

example : escaped 'é' = "\\u\x7be9\x7d" := by decide +kernel

end TalAnalysis.Text
