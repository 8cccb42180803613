namespace TalAnalysis.Text

def whiteSpaceRanges : List (Nat × Nat) :=
  [(0x9, 0xd), (0x20, 0x20), (0x85, 0x85), (0xa0, 0xa0), (0x1680, 0x1680), (0x2000, 0x200a),
    (0x2028, 0x2029), (0x202f, 0x202f), (0x205f, 0x205f), (0x3000, 0x3000)]

def isWhiteSpace (c : Char) : Bool :=
  whiteSpaceRanges.any fun (first, last) => first ≤ c.toNat && c.toNat ≤ last

example : ['\n', '\r', ' ', '\t', '\x0c'].all isWhiteSpace = true := by decide

example : (whiteSpaceRanges.map fun (first, last) => last - first + 1).sum = 25 := by decide

end TalAnalysis.Text
