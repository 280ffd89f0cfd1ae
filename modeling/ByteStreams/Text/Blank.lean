/-! The characters that are white space, and text without them at its ends. -/

namespace ByteStreams

namespace Blank

def ranges : List (Nat × Nat) :=
  [(0x09, 0x0D), (0x20, 0x20), (0x85, 0x85), (0xA0, 0xA0), (0x1680, 0x1680),
    (0x2000, 0x200A), (0x2028, 0x2029), (0x202F, 0x202F), (0x205F, 0x205F),
    (0x3000, 0x3000)]

def isBlank (character : Char) : Bool :=
  ranges.any fun (first, last) => first ≤ character.toNat && character.toNat ≤ last

/-- Text without the white space at both of its ends. -/
def trim (text : List Char) : List Char :=
  ((text.dropWhile isBlank).reverse.dropWhile isBlank).reverse

example : (ranges.map fun (first, last) => last + 1 - first).sum = 25 := by decide

example : trim [' ', '7', ' ', '8', '\t'] = ['7', ' ', '8'] := by decide +kernel

end Blank

end ByteStreams
