/-
# CwTariWallet.Domain.Text -- cleaning node-supplied text before it reaches Dart
-/

namespace CwTariWallet

/-- The inclusive code-point ranges `strip_format_chars` drops. -/
def formatCharRanges : List (Nat × Nat) :=
  [(0x00AD, 0x00AD), (0x034F, 0x034F), (0x0600, 0x0605), (0x061C, 0x061C), (0x06DD, 0x06DD),
    (0x070F, 0x070F), (0x0890, 0x0891), (0x08E2, 0x08E2), (0x115F, 0x1160), (0x180B, 0x180F),
    (0x200B, 0x200F), (0x2028, 0x202E), (0x2060, 0x2064), (0x2066, 0x206F), (0x3164, 0x3164),
    (0xFE00, 0xFE0F), (0xFEFF, 0xFEFF), (0xFFA0, 0xFFA0), (0xFFF9, 0xFFFB), (0x110BD, 0x110BD),
    (0x110CD, 0x110CD), (0x13430, 0x1343F), (0x1BCA0, 0x1BCA3), (0x1D173, 0x1D17A),
    (0xE0001, 0xE0001), (0xE0020, 0xE007F), (0xE0100, 0xE01EF)]

/-- Whether `strip_format_chars` drops `c`. -/
def isStripped (c : Char) : Bool :=
  formatCharRanges.any fun r => decide (r.1 ≤ c.toNat) && decide (c.toNat ≤ r.2)

/-- `strip_format_chars`. -/
def stripFormatChars (text : String) : String :=
  String.ofList (text.toList.filter fun c => !isStripped c)

end CwTariWallet
