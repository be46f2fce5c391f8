/-
# CwTariWallet.Api.LogText -- what the log file is given of a record

The text side of `src/api/logger.rs`: URL credentials are redacted, the text is cut to the field limit and
the characters that could start or reorder a line are escaped, in that order.  A slice that would be taken
inside a character, and an offset that would go below zero, is the panic the logger cannot afford: it is
`none` here.
-/
import CwTariWallet.Occurrence
import CwTariWallet.Utf8

namespace CwTariWallet

/-! ## Characters -/

/-- `char::is_control`: the general category Cc. -/
def isControl (c : Char) : Bool :=
  decide (c.toNat < 0x20) || (decide (0x7f ≤ c.toNat) && decide (c.toNat < 0xa0))

/-- The inclusive code-point ranges with the property White_Space. -/
def whitespaceRanges : List (Nat × Nat) :=
  [(0x09, 0x0d), (0x20, 0x20), (0x85, 0x85), (0xa0, 0xa0), (0x1680, 0x1680), (0x2000, 0x200a),
    (0x2028, 0x2029), (0x202f, 0x202f), (0x205f, 0x205f), (0x3000, 0x3000)]

/-- Whether the code point of `c` is in one of some ranges. -/
def inRanges (ranges : List (Nat × Nat)) (c : Char) : Bool :=
  ranges.any fun r => decide (r.1 ≤ c.toNat) && decide (c.toNat ≤ r.2)

/-- `char::is_whitespace`. -/
def isWhitespace (c : Char) : Bool := inRanges whitespaceRanges c

/-- `char::is_ascii_alphanumeric`. -/
def isAsciiAlphanumeric (c : Char) : Bool :=
  inRanges [(0x30, 0x39), (0x41, 0x5a), (0x61, 0x7a)] c

/-- What may end a URL scheme. -/
def isSchemeChar (c : Char) : Bool :=
  isAsciiAlphanumeric c || decide (c = '+') || decide (c = '-') || decide (c = '.')

/-- What ends a userinfo, and the `@` that must end it. -/
def endsUserinfo (c : Char) : Bool := decide (c = '/') || decide (c = '@') || isWhitespace c

/-- `is_format_char`. -/
def isFormatChar (c : Char) : Bool :=
  inRanges
    [(0x00ad, 0x00ad), (0x0600, 0x0605), (0x061c, 0x061c), (0x06dd, 0x06dd), (0x070f, 0x070f),
      (0x0890, 0x0891), (0x08e2, 0x08e2), (0x180e, 0x180e), (0x200b, 0x200f), (0x202a, 0x202e),
      (0x2060, 0x2064), (0x2066, 0x206f), (0xfeff, 0xfeff), (0xfff9, 0xfffb), (0x110bd, 0x110bd),
      (0x110cd, 0x110cd), (0x13430, 0x1343f), (0x1bca0, 0x1bca3), (0x1d173, 0x1d17a),
      (0xe0001, 0xe0001), (0xe0020, 0xe007f)] c

/-- U+2028 and U+2029, the line and the paragraph separator. -/
def isLineSeparator (c : Char) : Bool := decide (c.toNat = 0x2028) || decide (c.toNat = 0x2029)

/-! ## Redaction -/

/-- `://`. -/
def separator : List Char := [':', '/', '/']

/-- `has_scheme`: what stands before the separator ends in a scheme. -/
def hasScheme (before : List Char) : Bool := before.getLast?.any isSchemeChar

/-- The text up to what ends a userinfo. -/
def userinfo (rest : List Char) : List Char := rest.takeWhile fun c => !endsUserinfo c

/-- The text from there on. -/
def afterUserinfo (rest : List Char) : List Char := rest.dropWhile fun c => !endsUserinfo c

/-- `end > 0 && rest[end..].starts_with('@')`. -/
def startsWithUserinfo (rest : List Char) : Bool :=
  !(userinfo rest).isEmpty && decide ((afterUserinfo rest).head? = some '@')

theorem length_afterUserinfo_le (rest : List Char) : (afterUserinfo rest).length ≤ rest.length :=
  (List.dropWhile_sublist _).length_le

theorem length_lt_of_cut {rest before after : List Char}
    (h : Occurrence.cut separator rest = some (before, after)) : after.length < rest.length := by
  have hsplit := (Occurrence.cut_eq_some h).1
  rw [hsplit]
  simp only [List.length_append, separator, List.length_cons, List.length_nil]
  omega

/-- The loop of `redact_url_userinfo`: what it writes from `rest` on. -/
def redactFrom (rest : List Char) : List Char :=
  match _hcut : Occurrence.cut separator rest with
  | none => rest
  | some (before, after) =>
    before ++ separator ++
      if hasScheme before && startsWithUserinfo after then
        "***".toList ++ redactFrom (afterUserinfo after)
      else redactFrom after
termination_by rest.length
decreasing_by
  · exact Nat.lt_of_le_of_lt (length_afterUserinfo_le after) (length_lt_of_cut _hcut)
  · exact length_lt_of_cut _hcut

/-- `redact_url_userinfo`. -/
def redactUrlUserinfo (text : String) : String := String.ofList (redactFrom text.toList)

/-! ## Escaping -/

/-- Whether a character is written as its code point. -/
def isEscaped (c : Char) : Bool := isControl c || isFormatChar c || isLineSeparator c

/-- What `escape_control` writes for a character. -/
def escapeChar (c : Char) : List Char :=
  if c = '\\' then ['\\', '\\']
  else if c = '\n' then ['\\', 'n']
  else if c = '\r' then ['\\', 'r']
  else if c = '\t' then ['\\', 't']
  else if isEscaped c then ['\\', 'u', '\x7b'] ++ Nat.toDigits 16 c.toNat ++ ['\x7d']
  else [c]

/-- `escape_control`. -/
def escapeControl (text : String) : String := String.ofList (text.toList.flatMap escapeChar)

/-! ## The fields of a record -/

/-- The marker after a text that was cut. -/
def truncationMarker (n : Nat) : String := "…[truncated " ++ n.repr ++ " bytes]"

/-- `sanitize_log_text`. -/
def sanitizeLogText (text : String) (maxBytes : Nat) : Option String :=
  let text := redactUrlUserinfo text
  if text.utf8ByteSize ≤ maxBytes then some (escapeControl text)
  else do
    let cut ← Utf8.lastBoundary text.toList maxBytes
    let kept ← Utf8.sliceTo text.toList cut
    some (escapeControl (String.ofList kept) ++ truncationMarker (text.utf8ByteSize - cut))

/-- What a `Display` writes, and whether it fails after that. -/
structure Displayed where
  written : String
  failed : Bool
  deriving DecidableEq, Repr

/-- `render`. -/
def render (value : Displayed) : String :=
  if value.failed then value.written ++ "[fmt error]" else value.written

/-- `LOG_FIELD_MAX_BYTES`. -/
def logFieldMaxBytes : Nat := 4096

/-- `KvTextVisitor::visit_pair`: what it adds to the text for one pair. -/
def visitPair (key : String) (value : Displayed) : Option String := do
  let value ← sanitizeLogText (render value) logFieldMaxBytes
  some (" " ++ escapeControl key ++ "=" ++ value)

/-- All pairs of a record, in order. -/
def visitPairs : List (String × Displayed) → Option String
  | [] => some ""
  | (key, value) :: pairs => do
    let first ← visitPair key value
    let others ← visitPairs pairs
    some (first ++ others)

/-- The message of a record, then its pairs. -/
def renderRecord (message : Displayed) (maxBytes : Nat) (pairs : List (String × Displayed)) :
    Option String := do
  let kvOutput ← visitPairs pairs
  let message ← sanitizeLogText (render message) maxBytes
  some (message ++ kvOutput)

end CwTariWallet
