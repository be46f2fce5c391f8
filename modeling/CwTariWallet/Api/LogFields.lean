/-
# CwTariWallet.Api.LogFields -- a field is one line, cut at a character

`escape_control` is undone by reading its output from the left (`unescape_escape`): a backslash always opens
an escape, since one that stood in the text was escaped itself, and a `\u` escape ends at its brace.  None
of the five forms writes a character that is escaped, nor do the marker of a cut text and the joints
between a key and its value, so a rendered record is one line (`renderRecord_oneLine`).  The cut falls on
the last character boundary within the limit (`sanitizeLogText_cut`), and the marker spells how many bytes are
missing (`truncationMarker_spells`).
-/
import CwTariWallet.Api.LogText
import CwTariWallet.Digits

namespace CwTariWallet

open Digits

/-! ## Reading an escaped text back -/

/-- Where the reader of an escaped text stands. -/
inductive Unescape where
  | plain
  | backslash
  /-- Before the brace of a code point. -/
  | brace
  /-- Within its digits. -/
  | code (n : Nat)

/-- The text that an escaped one was written from, from a place in it on. -/
def unescapeFrom : Unescape → List Char → List Char
  | _, [] => []
  | .plain, c :: rest =>
    if c = '\\' then unescapeFrom .backslash rest else c :: unescapeFrom .plain rest
  | .backslash, c :: rest =>
    if c = 'n' then '\n' :: unescapeFrom .plain rest
    else if c = 'r' then '\r' :: unescapeFrom .plain rest
    else if c = 't' then '\t' :: unescapeFrom .plain rest
    else if c = 'u' then unescapeFrom .brace rest
    else c :: unescapeFrom .plain rest
  | .brace, _ :: rest => unescapeFrom (.code 0) rest
  | .code n, c :: rest =>
    if c = '\x7d' then Char.ofNat n :: unescapeFrom .plain rest
    else unescapeFrom (.code (16 * n + digitValue c)) rest

def unescape (text : String) : String := String.ofList (unescapeFrom .plain text.toList)

/-- The digits of a code point, up to the brace. -/
theorem unescapeFrom_code (digits rest : List Char) (h : ∀ c ∈ digits, c ≠ '\x7d') (n : Nat) :
    unescapeFrom (.code n) (digits ++ '\x7d' :: rest) =
      Char.ofNat (readDigits 16 n digits) :: unescapeFrom .plain rest := by
  induction digits generalizing n with
  | nil =>
    rw [List.nil_append, unescapeFrom, if_pos rfl]
    rfl
  | cons c digits ih =>
    have hc : c ≠ '\x7d' := h c List.mem_cons_self
    rw [List.cons_append, unescapeFrom, if_neg hc, ih (fun d hd => h d (List.mem_cons_of_mem c hd))]
    rfl

/-- What no hexadecimal digit is. -/
theorem hex_of_forall {p : Char → Bool} (h : ∀ d < 16, p (Nat.digitChar d) = true) (n : Nat) :
    ∀ c ∈ Nat.toDigits 16 n, p c = true := by
  intro c hc
  obtain ⟨d, hd, rfl⟩ := mem_toDigits (by decide) n c hc
  exact h d hd

theorem hex_ne_brace (n : Nat) : ∀ c ∈ Nat.toDigits 16 n, c ≠ '\x7d' := by
  intro c hc
  have hp := hex_of_forall (p := fun c => decide (c ≠ '\x7d')) (by decide) n c hc
  exact of_decide_eq_true hp

/-- What is written for one character is read as that character. -/
theorem unescapeFrom_escapeChar (c : Char) (rest : List Char) :
    unescapeFrom .plain (escapeChar c ++ rest) = c :: unescapeFrom .plain rest := by
  by_cases hbackslash : c = '\\'
  · subst hbackslash
    simp [escapeChar, unescapeFrom]
  by_cases hnewline : c = '\n'
  · subst hnewline
    simp [escapeChar, unescapeFrom]
  by_cases hreturn : c = '\r'
  · subst hreturn
    simp [escapeChar, unescapeFrom]
  by_cases htab : c = '\t'
  · subst htab
    simp [escapeChar, unescapeFrom]
  by_cases hescaped : isEscaped c = true
  · have hwritten : escapeChar c ++ rest =
        '\\' :: 'u' :: '\x7b' :: (Nat.toDigits 16 c.toNat ++ '\x7d' :: rest) := by
      simp [escapeChar, hbackslash, hnewline, hreturn, htab, hescaped]
    have hread := unescapeFrom_code (Nat.toDigits 16 c.toNat) rest (hex_ne_brace c.toNat) 0
    rw [readDigits_toDigits (by decide) (by decide), Char.ofNat_toNat] at hread
    rw [hwritten]
    simpa [unescapeFrom] using hread
  · have hwritten : escapeChar c = [c] := by
      simp [escapeChar, hbackslash, hnewline, hreturn, htab, hescaped]
    rw [hwritten, List.singleton_append, unescapeFrom, if_neg hbackslash]

/-- Nothing of a text is lost by escaping it. -/
theorem unescape_escape (text : String) : unescape (escapeControl text) = text := by
  have hall (cs : List Char) : unescapeFrom .plain (cs.flatMap escapeChar) = cs := by
    induction cs with
    | nil => rfl
    | cons c cs ih => rw [List.flatMap_cons, unescapeFrom_escapeChar, ih]
  rw [unescape, escapeControl, String.toList_ofList, hall, String.ofList_toList]

theorem escapeControl_injective : Function.Injective escapeControl :=
  Function.LeftInverse.injective unescape_escape

/-! ## One line -/

/-- A text with no control or format character and no line separator. -/
def IsOneLine (text : List Char) : Prop := ∀ c ∈ text, isEscaped c = false

instance (text : List Char) : Decidable (IsOneLine text) :=
  List.decidableBAll (fun c => isEscaped c = false) text

theorem IsOneLine.append {x y : List Char} (hx : IsOneLine x) (hy : IsOneLine y) : IsOneLine (x ++ y) := by
  intro c hc
  rcases List.mem_append.mp hc with hc | hc
  · exact hx c hc
  · exact hy c hc

/-- A numeral is one line. -/
theorem isOneLine_toDigits {b : Nat} (hb : 1 < b) (hb' : b ≤ 16) (n : Nat) :
    IsOneLine (Nat.toDigits b n) := by
  intro c hc
  obtain ⟨d, hd, rfl⟩ := mem_toDigits hb n c hc
  have hall : ∀ d < 16, isEscaped (Nat.digitChar d) = false := by decide
  exact hall d (by omega)

theorem isOneLine_escapeChar (c : Char) : IsOneLine (escapeChar c) := by
  unfold escapeChar
  split_ifs with hbackslash hnewline hreturn htab hescaped
  · decide
  · decide
  · decide
  · decide
  · apply IsOneLine.append
    · apply IsOneLine.append
      · decide
      · exact isOneLine_toDigits (by decide) (by decide) _
    · decide
  · intro d hd
    rw [List.mem_singleton.mp hd]
    simpa using hescaped

theorem isOneLine_escapeControl (text : String) : IsOneLine (escapeControl text).toList := by
  intro d hd
  rw [escapeControl, String.toList_ofList, List.mem_flatMap] at hd
  obtain ⟨c, -, hd⟩ := hd
  exact isOneLine_escapeChar c d hd

/-! ## The cut -/

/-- A text over the limit is cut after the longest prefix that fits, and the marker counts the rest. -/
theorem sanitizeLogText_of_lt {text : String} {maxBytes : Nat}
    (h : maxBytes < (redactUrlUserinfo text).utf8ByteSize) :
    ∃ p s : String, ∃ n : Nat, redactUrlUserinfo text = p ++ s ∧ p.utf8ByteSize ≤ maxBytes ∧
      (∀ q t : String, redactUrlUserinfo text = q ++ t → q.utf8ByteSize ≤ maxBytes →
        q.utf8ByteSize ≤ p.utf8ByteSize) ∧
      p.utf8ByteSize + n = (redactUrlUserinfo text).utf8ByteSize ∧
      sanitizeLogText text maxBytes = some (escapeControl p ++ truncationMarker n) := by
  obtain ⟨p, s, hsplit, hcut, hslice, hfits, hlongest⟩ :=
    Utf8.longest_prefix (redactUrlUserinfo text).toList maxBytes
  have hjoin : redactUrlUserinfo text = String.ofList p ++ String.ofList s := by
    rw [← String.ofList_append, ← hsplit, String.ofList_toList]
  have hsize : Utf8.byteLen p + Utf8.byteLen s = (redactUrlUserinfo text).utf8ByteSize := by
    rw [Utf8.utf8ByteSize_eq, hsplit, Utf8.byteLen_append]
  refine ⟨String.ofList p, String.ofList s, Utf8.byteLen s, hjoin, ?_, ?_, ?_, ?_⟩
  · rw [Utf8.utf8ByteSize_ofList]
    exact hfits
  · intro q t hqt hq
    rw [Utf8.utf8ByteSize_eq] at hq ⊢
    rw [Utf8.utf8ByteSize_ofList]
    obtain ⟨x, rfl⟩ := hlongest q.toList t.toList (by rw [hqt, String.toList_append]) hq
    rw [Utf8.byteLen_append]
    omega
  · rw [Utf8.utf8ByteSize_ofList]
    exact hsize
  · have hover : ¬ (redactUrlUserinfo text).utf8ByteSize ≤ maxBytes := by omega
    have hmissing : (redactUrlUserinfo text).utf8ByteSize - Utf8.byteLen p = Utf8.byteLen s := by omega
    simp only [sanitizeLogText, if_neg hover, hcut, hslice, hmissing, Option.bind_eq_bind, Option.bind_some]

/-- A field is cut at the longest prefix that fits, for every limit, and never inside a character: nothing
is cut off a text within the limit, and of a longer one the marker says how many bytes are missing. -/
theorem sanitizeLogText_cut (text : String) (maxBytes : Nat) :
    ((redactUrlUserinfo text).utf8ByteSize ≤ maxBytes →
        sanitizeLogText text maxBytes = some (escapeControl (redactUrlUserinfo text))) ∧
      (maxBytes < (redactUrlUserinfo text).utf8ByteSize →
        ∃ p s : String, ∃ n : Nat, redactUrlUserinfo text = p ++ s ∧ p.utf8ByteSize ≤ maxBytes ∧
          (∀ q t : String, redactUrlUserinfo text = q ++ t → q.utf8ByteSize ≤ maxBytes →
            q.utf8ByteSize ≤ p.utf8ByteSize) ∧
          p.utf8ByteSize + n = (redactUrlUserinfo text).utf8ByteSize ∧
          sanitizeLogText text maxBytes = some (escapeControl p ++ truncationMarker n)) := by
  constructor
  · intro hle
    simp only [sanitizeLogText, if_pos hle]
  · exact sanitizeLogText_of_lt

/-- The marker spells the number of missing bytes in decimal, without a zero in front. -/
theorem truncationMarker_spells (n : Nat) :
    ∃ digits, truncationMarker n = "…[truncated " ++ String.ofList digits ++ " bytes]" ∧
      (∀ c ∈ digits, c.isDigit = true) ∧ (digits.head? = some '0' → n = 0) ∧ readDigits 10 0 digits = n := by
  refine ⟨Nat.toDigits 10 n, ?_, fun c hc => ?_, eq_zero_of_head_toDigits (by decide) (by decide) n,
    readDigits_toDigits (by decide) (by decide) n⟩
  · rw [truncationMarker, ← Nat.toList_repr, String.ofList_toList]
  · exact Nat.isDigit_of_mem_toDigits (by decide) (by decide) hc

/-! ## A record -/

theorem isOneLine_truncationMarker (n : Nat) : IsOneLine (truncationMarker n).toList := by
  have hdigits : IsOneLine n.repr.toList := by
    rw [Nat.toList_repr]
    exact isOneLine_toDigits (by decide) (by decide) n
  rw [truncationMarker, String.toList_append, String.toList_append]
  apply IsOneLine.append _ (by decide)
  exact IsOneLine.append (by decide) hdigits

/-- A field comes out as one line. -/
theorem sanitizeLogText_oneLine (text : String) (maxBytes : Nat) :
    ∃ out, sanitizeLogText text maxBytes = some out ∧ IsOneLine out.toList := by
  by_cases hle : (redactUrlUserinfo text).utf8ByteSize ≤ maxBytes
  · refine ⟨escapeControl (redactUrlUserinfo text), ?_, isOneLine_escapeControl _⟩
    simp only [sanitizeLogText, if_pos hle]
  · obtain ⟨p, -, n, -, -, -, -, hout⟩ := sanitizeLogText_of_lt (Nat.lt_of_not_le hle)
    refine ⟨_, hout, ?_⟩
    rw [String.toList_append]
    exact (isOneLine_escapeControl p).append (isOneLine_truncationMarker n)

theorem visitPair_oneLine (key : String) (value : Displayed) :
    ∃ out, visitPair key value = some out ∧ IsOneLine out.toList := by
  obtain ⟨shown, hshown, hline⟩ := sanitizeLogText_oneLine (render value) logFieldMaxBytes
  refine ⟨" " ++ escapeControl key ++ "=" ++ shown, ?_, ?_⟩
  · simp only [visitPair, hshown, Option.bind_eq_bind, Option.bind_some]
  · simp only [String.toList_append]
    apply IsOneLine.append _ hline
    apply IsOneLine.append _ (by decide)
    exact IsOneLine.append (by decide) (isOneLine_escapeControl key)

theorem visitPairs_oneLine (pairs : List (String × Displayed)) :
    ∃ out, visitPairs pairs = some out ∧ IsOneLine out.toList := by
  induction pairs with
  | nil => exact ⟨"", rfl, by decide⟩
  | cons pair pairs ih =>
    obtain ⟨first, hfirst, hline⟩ := visitPair_oneLine pair.1 pair.2
    obtain ⟨others, hothers, hlines⟩ := ih
    refine ⟨first ++ others, ?_, ?_⟩
    · simp only [visitPairs, hfirst, hothers, Option.bind_eq_bind, Option.bind_some]
    · rw [String.toList_append]
      exact hline.append hlines

/-- Escaping loses nothing, and no message, key or value adds a line to the log or reorders one. -/
theorem renderRecord_oneLine :
    ((∃ decode : String → String, ∀ text, decode (escapeControl text) = text) ∧
        Function.Injective escapeControl) ∧
      ∀ (message : Displayed) (maxBytes : Nat) (pairs : List (String × Displayed)),
        ∃ out, renderRecord message maxBytes pairs = some out ∧
          ∀ c ∈ out.toList, isControl c = false ∧ isFormatChar c = false ∧ isLineSeparator c = false := by
  refine ⟨⟨⟨unescape, unescape_escape⟩, escapeControl_injective⟩, fun message maxBytes pairs => ?_⟩
  obtain ⟨shown, hshown, hline⟩ := sanitizeLogText_oneLine (render message) maxBytes
  obtain ⟨kvOutput, hpairs, hlines⟩ := visitPairs_oneLine pairs
  refine ⟨shown ++ kvOutput, ?_, ?_⟩
  · simp only [renderRecord, hshown, hpairs, Option.bind_eq_bind, Option.bind_some]
  · intro c hc
    rw [String.toList_append] at hc
    have hc := hline.append hlines c hc
    rw [isEscaped, Bool.or_eq_false_iff, Bool.or_eq_false_iff] at hc
    exact ⟨hc.1.1, hc.1.2, hc.2⟩

end CwTariWallet
