/-
# CwTariWallet.Scripts.Declarations -- which lines trip the wire

The expressions, read as facts about a line.  Three of them look at its first word and at what comes right
after it (`Opens`); the fourth wants a space, a word and then the first parenthesis of the line.
-/
import CwTariWallet.Scripts.ApiStability

namespace CwTariWallet.ApiStability

open Regex

variable {l s t u w x x' y r : Line} {c d : Char}

/-! ## Characters -/

theorem isSpace_iff : isSpace c = true ↔ c.toNat = 32 ∨ 9 ≤ c.toNat ∧ c.toNat ≤ 13 := by
  rw [isSpace, Bool.or_eq_true, Bool.and_eq_true]
  refine or_congr ?_ (and_congr decide_eq_true_iff decide_eq_true_iff)
  rw [decide_eq_true_iff]
  exact ⟨fun h => h ▸ rfl, fun h => Char.toNat_inj.mp h⟩

theorem isUpper_iff : c.isUpper = true ↔ 65 ≤ c.toNat ∧ c.toNat ≤ 90 := decide_eq_true_iff

theorem isLower_iff : c.isLower = true ↔ 97 ≤ c.toNat ∧ c.toNat ≤ 122 :=
  Bool.and_eq_true_iff.trans (and_congr decide_eq_true_iff decide_eq_true_iff)

theorem isDigit_iff : c.isDigit = true ↔ 48 ≤ c.toNat ∧ c.toNat ≤ 57 :=
  Bool.and_eq_true_iff.trans (and_congr decide_eq_true_iff decide_eq_true_iff)

theorem isWord_iff : isWord c = true ↔
    ((65 ≤ c.toNat ∧ c.toNat ≤ 90 ∨ 97 ≤ c.toNat ∧ c.toNat ≤ 122) ∨ 48 ≤ c.toNat ∧ c.toNat ≤ 57) ∨
      c.toNat = 95 := by
  have hclasses : isWord c = (((c.isUpper || c.isLower) || c.isDigit) || decide (c = '_')) := rfl
  rw [hclasses, Bool.or_eq_true, Bool.or_eq_true, Bool.or_eq_true, isUpper_iff, isLower_iff, isDigit_iff,
    decide_eq_true_iff]
  refine or_congr Iff.rfl ?_
  exact ⟨fun h => h ▸ rfl, fun h => Char.toNat_inj.mp h⟩

theorem isSpace_of_isWord (h : isWord c = true) : isSpace c = false := by
  rw [Bool.eq_false_iff, ne_eq, isSpace_iff]
  rw [isWord_iff] at h
  omega

theorem isWord_of_isSpace (h : isSpace c = true) : isWord c = false := by
  rw [Bool.eq_false_iff]
  intro hword
  rw [isSpace_of_isWord hword] at h
  cases h

theorem isWord_of_isLower (h : c.isLower = true) : isWord c = true := by
  rw [isWord_iff]
  rw [isLower_iff] at h
  exact Or.inl (Or.inl (Or.inr h))

theorem isWord_of_isWordStart (h : isWordStart c = true) : isWord c = true := by
  have hclasses : isWordStart c = ((c.isUpper || c.isLower) || decide (c = '_')) := rfl
  rw [hclasses, Bool.or_eq_true, Bool.or_eq_true] at h
  rcases h with (hupper | hlower) | hscore
  · exact isWord_iff.mpr (Or.inl (Or.inl (Or.inl (isUpper_iff.mp hupper))))
  · exact isWord_of_isLower hlower
  · rw [of_decide_eq_true hscore]
    rfl

/-! ## The first word of a line -/

/-- A list of the characters of a class. -/
def All (p : Char → Bool) (l : Line) : Prop := ∀ c ∈ l, p c = true

instance (p : Char → Bool) (l : Line) : Decidable (All p l) := List.decidableBAll (fun c => p c = true) l

/-- A list that does not begin in a class. -/
def Stops (p : Char → Bool) (l : Line) : Prop := ∀ c r, l = c :: r → p c = false

namespace Stops

variable {p : Char → Bool}

theorem nil : Stops p [] := nofun

theorem cons (h : p c = false) : Stops p (c :: r) := by
  intro d r' heq
  obtain ⟨rfl, -⟩ := List.cons.inj heq
  exact h

theorem append (h : Stops p x) (hne : x ≠ []) : Stops p (x ++ y) := by
  obtain ⟨c, x, rfl⟩ := List.exists_cons_of_ne_nil hne
  exact cons (h c x rfl)

end Stops

namespace All

variable {p : Char → Bool}

theorem reverse (h : All p x) : All p x.reverse := fun a ha => h a (List.mem_reverse.mp ha)

theorem append (hx : All p x) (hy : All p y) : All p (x ++ y) := List.forall_mem_append.mpr ⟨hx, hy⟩

theorem cons (hc : p c = true) (hx : All p x) : All p (c :: x) := List.forall_mem_cons.mpr ⟨hc, hx⟩

/-- White space ends where a word begins. -/
theorem stops (h : All isWord x) (hne : x ≠ []) : Stops isSpace (x ++ y) := by
  refine Stops.append ?_ hne
  rintro a x rfl
  exact isSpace_of_isWord (h a List.mem_cons_self)

end All

/-- Where a class ends is one place. -/
theorem append_inj_of_stops {p : Char → Bool} (hx : All p x) (hy : All p y) (hs : Stops p s) (ht : Stops p t)
    (h : x ++ s = y ++ t) : x = y ∧ s = t := by
  induction x generalizing y with
  | nil =>
    cases y with
    | nil => exact ⟨rfl, h⟩
    | cons d y =>
      have hno : p d = false := hs d (y ++ t) h
      rw [hy d List.mem_cons_self] at hno
      cases hno
  | cons c x ih =>
    cases y with
    | nil =>
      have hno : p c = false := ht c (x ++ s) h.symm
      rw [hx c List.mem_cons_self] at hno
      cases hno
    | cons d y =>
      obtain ⟨rfl, htail⟩ := List.cons.inj h
      obtain ⟨rfl, rfl⟩ := ih (fun a ha => hx a (List.mem_cons_of_mem _ ha))
        (fun a ha => hy a (List.mem_cons_of_mem _ ha)) htail
      exact ⟨rfl, rfl⟩

/-- White space, a word that may be empty, and what does not go on with it. -/
structure Opens (l w r : Line) : Prop where
  split : ∃ s, All isSpace s ∧ l = s ++ (w ++ r)
  word : All isWord w
  stops : Stops isWord r
  begins : Stops isSpace (w ++ r)

namespace Opens

theorem unique (h : Opens l w r) (h' : Opens l x y) : w = x ∧ r = y := by
  obtain ⟨s, hs, heq⟩ := h.split
  obtain ⟨t, ht, heq'⟩ := h'.split
  have hrest := (append_inj_of_stops hs ht h.begins h'.begins (heq.symm.trans heq')).2
  exact append_inj_of_stops h.word h'.word h.stops h'.stops hrest

/-- A line with a first word. -/
theorem of_word (hs : All isSpace s) (hw : All isWord w) (hne : w ≠ []) (hr : Stops isWord r) :
    Opens (s ++ (w ++ r)) w r where
  split := ⟨s, hs, rfl⟩
  word := hw
  stops := hr
  begins := hw.stops hne

/-- A line that begins with another mark. -/
theorem of_mark (hs : All isSpace s) (hspace : isSpace c = false) (hword : isWord c = false) :
    Opens (s ++ c :: r) [] (c :: r) where
  split := ⟨s, hs, rfl⟩
  word := nofun
  stops := Stops.cons hword
  begins := Stops.cons hspace

end Opens

/-- The keywords after which the first expression wants a name at once. -/
def plainKeywords : List String := ["class", "enum", "typedef", "extension", "mixin"]

/-- Some white space at least. -/
def Gap (t : Line) : Prop := t ≠ [] ∧ All isSpace t

theorem Gap.stops (ht : Gap t) : Stops isWord (t ++ r) := by
  refine Stops.append ?_ ht.1
  rintro c x rfl
  exact isWord_of_isSpace (ht.2 c List.mem_cons_self)

theorem Gap.reverse (ht : Gap t) : Gap t.reverse :=
  ⟨fun hnil => ht.1 (List.reverse_eq_nil_iff.mp hnil), ht.2.reverse⟩

theorem typePattern_iff : typePattern.acceptsPrefix l = true ↔
    ∃ s, All isSpace s ∧ ∃ k ∈ typeKeywords, ∃ t, Gap t ∧ ∃ c, isWordStart c = true ∧ ∃ r,
      l = s ++ (k.toList ++ (t ++ c :: r)) := by
  rw [acceptsPrefix_iff]
  constructor
  · rintro ⟨z, hz₀, r, rfl⟩
    obtain ⟨s, _, hs, hz₁, rfl⟩ := mem_seqs_star.mp hz₀
    obtain ⟨k, hk, _, hz₂, rfl⟩ := mem_seqs_cons.mp hz₁
    obtain ⟨_, hword, hk⟩ := mem_alts.mp hk
    obtain ⟨k', hmem, rfl⟩ := List.mem_map.mp hword
    obtain rfl := mem_word.mp hk
    obtain ⟨t, _, hne, ht, hz₃, rfl⟩ := mem_seqs_plus.mp hz₂
    obtain ⟨c, _, hc, hz₄, rfl⟩ := mem_seqs_set.mp hz₃
    obtain rfl := mem_seqs_nil.mp hz₄
    exact ⟨s, hs, k', hmem, t, ⟨hne, ht⟩, c, hc, r, by simp⟩
  · rintro ⟨s, hs, k, hk, t, ht, c, hc, r, rfl⟩
    refine ⟨s ++ (k.toList ++ (t ++ [c])), ?_, r, by simp⟩
    refine mem_seqs_star.mpr ⟨s, _, hs, mem_seqs_cons.mpr ⟨k.toList, ?_, t ++ [c], ?_, rfl⟩, rfl⟩
    · exact mem_alts.mpr ⟨_, List.mem_map.mpr ⟨k, hk, rfl⟩, mem_word.mpr rfl⟩
    · refine mem_seqs_plus.mpr ⟨t, [c], ht.1, ht.2, ?_, rfl⟩
      exact mem_seqs_set.mpr ⟨c, [], hc, mem_seqs_nil.mpr rfl, rfl⟩

theorem fieldPattern_iff : fieldPattern.acceptsPrefix l = true ↔
    ∃ s, All isSpace s ∧ ∃ t, Gap t ∧ ∃ c, isWordStart c = true ∧ ∃ x r,
      l = s ++ ("final".toList ++ (t ++ c :: (x ++ ';' :: r))) := by
  rw [acceptsPrefix_iff]
  constructor
  · rintro ⟨z, hz₀, r, rfl⟩
    obtain ⟨s, _, hs, hz₁, rfl⟩ := mem_seqs_star.mp hz₀
    obtain ⟨_, hz₂, rfl⟩ := mem_seqs_word.mp hz₁
    obtain ⟨t, _, hne, ht, hz₃, rfl⟩ := mem_seqs_plus.mp hz₂
    obtain ⟨c, _, hc, hz₄, rfl⟩ := mem_seqs_set.mp hz₃
    obtain ⟨x, _, -, hz₅, rfl⟩ := mem_seqs_star.mp hz₄
    obtain ⟨e, _, he, hz₆, rfl⟩ := mem_seqs_set.mp hz₅
    obtain rfl := mem_seqs_nil.mp hz₆
    obtain rfl := of_decide_eq_true he
    exact ⟨s, hs, t, ⟨hne, ht⟩, c, hc, x, r, by simp⟩
  · rintro ⟨s, hs, t, ht, c, hc, x, r, rfl⟩
    refine ⟨s ++ ("final".toList ++ (t ++ c :: (x ++ [';']))), ?_, r, by simp⟩
    refine mem_seqs_star.mpr ⟨s, _, hs, mem_seqs_word.mpr ⟨_, ?_, rfl⟩, rfl⟩
    refine mem_seqs_plus.mpr ⟨t, _, ht.1, ht.2, mem_seqs_set.mpr ⟨c, _, hc, ?_, rfl⟩, rfl⟩
    refine mem_seqs_star.mpr ⟨x, [';'], fun _ _ => rfl, ?_, rfl⟩
    exact mem_seqs_set.mpr ⟨';', [], rfl, mem_seqs_nil.mpr rfl, rfl⟩

theorem functionPattern_iff : functionPattern.acceptsPrefix l = true ↔
    ∃ s, All isSpace s ∧ ∃ c, (isWordStart c || c = '<') = true ∧ ∃ x, All isTypeChar x ∧ ∃ t, Gap t ∧
      ∃ d, (d.isLower || d = '_') = true ∧ ∃ w, All isWord w ∧ ∃ u, All isSpace u ∧ ∃ r,
        l = s ++ c :: (x ++ (t ++ d :: (w ++ (u ++ '(' :: r)))) := by
  rw [acceptsPrefix_iff]
  constructor
  · rintro ⟨z, hz₀, r, rfl⟩
    obtain ⟨s, _, hs, hz₁, rfl⟩ := mem_seqs_star.mp hz₀
    obtain ⟨c, _, hc, hz₂, rfl⟩ := mem_seqs_set.mp hz₁
    obtain ⟨x, _, hx, hz₃, rfl⟩ := mem_seqs_star.mp hz₂
    obtain ⟨t, _, hne, ht, hz₄, rfl⟩ := mem_seqs_plus.mp hz₃
    obtain ⟨d, _, hd, hz₅, rfl⟩ := mem_seqs_set.mp hz₄
    obtain ⟨w, _, hw, hz₆, rfl⟩ := mem_seqs_star.mp hz₅
    obtain ⟨u, _, hu, hz₇, rfl⟩ := mem_seqs_star.mp hz₆
    obtain ⟨e, _, he, hz₈, rfl⟩ := mem_seqs_set.mp hz₇
    obtain rfl := mem_seqs_nil.mp hz₈
    obtain rfl := of_decide_eq_true he
    exact ⟨s, hs, c, hc, x, hx, t, ⟨hne, ht⟩, d, hd, w, hw, u, hu, r, by simp⟩
  · rintro ⟨s, hs, c, hc, x, hx, t, ht, d, hd, w, hw, u, hu, r, rfl⟩
    refine ⟨s ++ c :: (x ++ (t ++ d :: (w ++ (u ++ ['('])))), ?_, r, by simp⟩
    refine mem_seqs_star.mpr ⟨s, _, hs, mem_seqs_set.mpr ⟨c, _, hc, ?_, rfl⟩, rfl⟩
    refine mem_seqs_star.mpr ⟨x, _, hx, mem_seqs_plus.mpr ⟨t, _, ht.1, ht.2, ?_, rfl⟩, rfl⟩
    refine mem_seqs_set.mpr ⟨d, _, hd, mem_seqs_star.mpr ⟨w, _, hw, ?_, rfl⟩, rfl⟩
    refine mem_seqs_star.mpr ⟨u, ['('], hu, ?_, rfl⟩
    exact mem_seqs_set.mpr ⟨'(', [], rfl, mem_seqs_nil.mpr rfl, rfl⟩

theorem variantPattern_iff : variantPattern.accepts l = true ↔
    ∃ s, All isSpace s ∧ ∃ c, c.isLower = true ∧ ∃ w, All isWord w ∧ ∃ t, All isSpace t ∧ ∃ u, All isSpace u ∧
      l = s ++ c :: (w ++ (t ++ ',' :: u)) := by
  rw [accepts_iff]
  constructor
  · intro hz₀
    obtain ⟨s, _, hs, hz₁, rfl⟩ := mem_seqs_star.mp hz₀
    obtain ⟨c, _, hc, hz₂, rfl⟩ := mem_seqs_set.mp hz₁
    obtain ⟨w, _, hw, hz₃, rfl⟩ := mem_seqs_star.mp hz₂
    obtain ⟨t, _, ht, hz₄, rfl⟩ := mem_seqs_star.mp hz₃
    obtain ⟨e, _, he, hz₅, rfl⟩ := mem_seqs_set.mp hz₄
    obtain ⟨u, _, hu, hz₆, rfl⟩ := mem_seqs_star.mp hz₅
    obtain rfl := mem_seqs_nil.mp hz₆
    obtain rfl := of_decide_eq_true he
    exact ⟨s, hs, c, hc, w, hw, t, ht, u, hu, by simp⟩
  · rintro ⟨s, hs, c, hc, w, hw, t, ht, u, hu, rfl⟩
    refine mem_seqs_star.mpr ⟨s, _, hs, mem_seqs_set.mpr ⟨c, _, hc, ?_, rfl⟩, rfl⟩
    refine mem_seqs_star.mpr ⟨w, _, hw, mem_seqs_star.mpr ⟨t, _, ht, ?_, rfl⟩, rfl⟩
    refine mem_seqs_set.mpr ⟨',', u, rfl, mem_seqs_star.mpr ⟨u, [], hu, mem_seqs_nil.mpr rfl, ?_⟩, rfl⟩
    exact (List.append_nil u).symm

/-! ## How a declaration opens -/

/-- What begins with white space. -/
def Spaced (r : Line) : Prop := ∃ t y, Gap t ∧ r = t ++ y

theorem Spaced.stops (h : Spaced r) : Stops isWord r := by
  obtain ⟨t, y, ht, rfl⟩ := h
  exact ht.stops

theorem not_spaced (hc : isSpace c = false) : ¬ Spaced (c :: r) := by
  rintro ⟨t, y, ⟨hne, ht⟩, heq⟩
  obtain ⟨a, t, rfl⟩ := List.exists_cons_of_ne_nil hne
  rw [(List.cons.inj heq).1, ht a List.mem_cons_self] at hc
  cases hc

/-- After the modifier of a class, its keyword. -/
def ClassFollows (r : Line) : Prop := ∃ y, Spaced y ∧ r = ' ' :: ("class".toList ++ y)

theorem opens_of_typePattern (h : typePattern.acceptsPrefix l = true) : ∃ w r, Opens l w r ∧ w ≠ [] ∧
    (w ∈ plainKeywords.map String.toList ∧ Spaced r ∨
      w ∈ ["sealed", "abstract"].map String.toList ∧ ClassFollows r) := by
  obtain ⟨s, hs, k, hk, t, ht, c, -, r, rfl⟩ := typePattern_iff.mp h
  have hplain : ∀ k ∈ plainKeywords, All isWord k.toList ∧ k.toList ≠ [] := by decide
  have hmodified : ∀ m ∈ ["sealed", "abstract"], All isWord m.toList ∧ m.toList ≠ [] := by decide
  have hspaced : Spaced (t ++ c :: r) := ⟨t, c :: r, ht, rfl⟩
  -- the two modified keywords are a word, one space and `class`
  have hkeywords : typeKeywords = plainKeywords ++ ["sealed", "abstract"].map (· ++ " class") := by decide
  rw [hkeywords, List.mem_append] at hk
  rcases hk with hk | hk
  · obtain ⟨hword, hne⟩ := hplain k hk
    exact ⟨_, _, Opens.of_word hs hword hne hspaced.stops, hne, Or.inl ⟨List.mem_map_of_mem hk, hspaced⟩⟩
  · obtain ⟨m, hm, rfl⟩ := List.mem_map.mp hk
    obtain ⟨hword, hne⟩ := hmodified m hm
    have hstops : Stops isWord (' ' :: ("class".toList ++ (t ++ c :: r))) := Stops.cons rfl
    rw [String.toList_append, List.append_assoc]
    exact ⟨_, _, Opens.of_word hs hword hne hstops, hne, Or.inr ⟨List.mem_map_of_mem hm, _, hspaced, rfl⟩⟩

theorem opens_of_fieldPattern (h : fieldPattern.acceptsPrefix l = true) :
    ∃ r, Opens l "final".toList r ∧ Spaced r := by
  obtain ⟨s, hs, t, ht, c, -, x, r, rfl⟩ := fieldPattern_iff.mp h
  have hspaced : Spaced (t ++ c :: (x ++ ';' :: r)) := ⟨t, _, ht, rfl⟩
  exact ⟨_, Opens.of_word hs (by decide) (by decide) hspaced.stops, hspaced⟩

theorem opens_of_variantPattern (h : variantPattern.accepts l = true) :
    ∃ w t u, Opens l w (t ++ ',' :: u) ∧ w ≠ [] ∧ All isSpace t := by
  obtain ⟨s, hs, c, hc, w, hw, t, ht, u, -, rfl⟩ := variantPattern_iff.mp h
  refine ⟨c :: w, t, u, Opens.of_word hs ?_ (List.cons_ne_nil _ _) ?_, List.cons_ne_nil _ _, ht⟩
  · exact All.cons (isWord_of_isLower hc) hw
  · cases t with
    | nil => exact Stops.cons rfl
    | cons a t => exact Stops.cons (isWord_of_isSpace (ht a List.mem_cons_self))

/-! ## Lines that do not trip the wire -/

/-- A line that opens in no way that three of the expressions ask for. -/
structure Quiet (l : Line) (w r : Line) : Prop where
  opens : Opens l w r
  keyword : w ∈ (plainKeywords ++ ["final"]).map String.toList → ¬ Spaced r
  modifier : w ∈ ["sealed", "abstract"].map String.toList → ¬ ClassFollows r
  comma : ∀ t u, All isSpace t → r ≠ t ++ ',' :: u

theorem Quiet.not_trips (h : Quiet l w r) (hfun : functionPattern.acceptsPrefix l = false) : ¬ Trips l := by
  rintro ⟨-, -, hdecl⟩
  rw [isDeclaration, hfun, Bool.or_false, Bool.or_eq_true, Bool.or_eq_true] at hdecl
  rcases hdecl with (htype | hfield) | hvariant
  · obtain ⟨w', r', hopens, -, hcases⟩ := opens_of_typePattern htype
    obtain ⟨rfl, rfl⟩ := h.opens.unique hopens
    rcases hcases with ⟨hplain, hspaced⟩ | ⟨hmod, hclass⟩
    · refine h.keyword ?_ hspaced
      rw [List.map_append]
      exact List.mem_append_left _ hplain
    · exact h.modifier hmod hclass
  · obtain ⟨r', hopens, hspaced⟩ := opens_of_fieldPattern hfield
    obtain ⟨rfl, rfl⟩ := h.opens.unique hopens
    exact h.keyword (by decide) hspaced
  · obtain ⟨w', t, u, hopens, -, ht⟩ := opens_of_variantPattern hvariant
    obtain ⟨rfl, hr⟩ := h.opens.unique hopens
    exact h.comma t u ht hr

/-- A mark other than a comma. -/
structure IsMark (c : Char) : Prop where
  space : isSpace c = false
  word : isWord c = false
  comma : c ≠ ','

theorem ne_comma_of_head (hspace : isSpace c = false) (hcomma : c ≠ ',') (ht : All isSpace t) :
    c :: r ≠ t ++ ',' :: u := by
  intro heq
  cases t with
  | nil => exact hcomma (List.cons.inj heq).1
  | cons a t =>
    rw [(List.cons.inj heq).1, ht a List.mem_cons_self] at hspace
    cases hspace

/-- A line that begins with a mark. -/
theorem Quiet.of_mark (hs : All isSpace s) (hc : IsMark c) : Quiet (s ++ c :: r) [] (c :: r) where
  opens := Opens.of_mark hs hc.space hc.word
  keyword := fun h => absurd h (by decide)
  modifier := fun h => absurd h (by decide)
  comma := fun _ _ => ne_comma_of_head hc.space hc.comma

/-- A line whose first word is followed by a mark. -/
theorem Quiet.of_word_mark (hs : All isSpace s) (hw : All isWord w) (hne : w ≠ []) (hc : IsMark c) :
    Quiet (s ++ (w ++ c :: r)) w (c :: r) where
  opens := Opens.of_word hs hw hne (Stops.cons hc.word)
  keyword := fun _ => not_spaced hc.space
  modifier := by
    rintro - ⟨y, -, heq⟩
    have hspace := hc.space
    rw [(List.cons.inj heq).1] at hspace
    cases hspace
  comma := fun _ _ => ne_comma_of_head hc.space hc.comma

/-- A line whose first word is followed by another one. -/
theorem Quiet.of_word_word (hs : All isSpace s) (hw : All isWord w) (hne : w ≠ []) (hx : All isWord x)
    (hne' : x ≠ []) (hr : Stops isWord r) (hkeyword : w ∉ (plainKeywords ++ ["final"]).map String.toList)
    (hclass : x ≠ "class".toList) : Quiet (s ++ (w ++ ' ' :: (x ++ r))) w (' ' :: (x ++ r)) where
  opens := Opens.of_word hs hw hne (Stops.cons rfl)
  keyword := fun h => absurd h hkeyword
  modifier := by
    rintro - ⟨y, hy, heq⟩
    exact hclass (append_inj_of_stops hx (by decide) hr hy.stops (List.cons.inj heq).2).1
  comma := by
    intro t u ht heq
    obtain ⟨c, x, rfl⟩ := List.exists_cons_of_ne_nil hne'
    have hspace := isSpace_of_isWord (hx c List.mem_cons_self)
    cases t with
    | nil => cases heq
    | cons a t =>
      refine ne_comma_of_head hspace ?_ (fun b hb => ht b (List.mem_cons_of_mem _ hb)) (List.cons.inj heq).2
      rintro rfl
      cases hx ',' List.mem_cons_self

/-- What stands before the parenthesis of a function. -/
theorem head_of_function (h : functionPattern.acceptsPrefix l = true) :
    ∃ x t d w u r, l = (x ++ (t ++ d :: (w ++ u))) ++ '(' :: r ∧ Gap t ∧ isWord d = true ∧ All isWord w ∧
      All isSpace u ∧ ∀ a ∈ x ++ (t ++ d :: (w ++ u)), isSpace a = true ∨ isTypeChar a = true := by
  obtain ⟨s, hs, c, hc, x, hx, t, ht, d, hd, w, hw, u, hu, r, rfl⟩ := functionPattern_iff.mp h
  have hword : ∀ a, isWord a = true → isTypeChar a = true := by
    intro a ha
    simp only [isTypeChar, ha, Bool.true_or]
  have hc' : isTypeChar c = true := by
    rcases Bool.or_eq_true _ _ ▸ hc with hstart | hless
    · exact hword c (isWord_of_isWordStart hstart)
    · rw [of_decide_eq_true hless]
      rfl
  have hd' : isWord d = true := by
    rcases Bool.or_eq_true _ _ ▸ hd with hlower | hscore
    · exact isWord_of_isLower hlower
    · rw [of_decide_eq_true hscore]
      rfl
  refine ⟨s ++ c :: x, t, d, w, u, r, by simp, ht, hd', hw, hu, ?_⟩
  intro a ha
  simp only [List.mem_append, List.mem_cons] at ha
  rcases ha with (ha | rfl | ha) | ha | rfl | ha | ha
  · exact Or.inl (hs a ha)
  · exact Or.inr hc'
  · exact Or.inr (hx a ha)
  · exact Or.inl (ht.2 a ha)
  · exact Or.inr (hword a hd')
  · exact Or.inr (hword a (hw a ha))
  · exact Or.inl (hu a ha)

theorem not_function_of_noParen (h : '(' ∉ l) : functionPattern.acceptsPrefix l = false := by
  rw [Bool.eq_false_iff]
  intro hfun
  obtain ⟨x, t, d, w, u, r, rfl, -⟩ := head_of_function hfun
  exact h (by simp)

/-- What stands before the first parenthesis is in one place. -/
theorem before_paren (hx : '(' ∉ x) (hy : '(' ∉ y) (h : x ++ '(' :: s = y ++ '(' :: t) : x = y := by
  have hall : ∀ z : Line, '(' ∉ z → All (fun a => decide (a ≠ '(')) z := by
    intro z hz a ha
    rw [decide_eq_true_iff]
    rintro rfl
    exact hz ha
  exact (append_inj_of_stops (hall x hx) (hall y hy) (Stops.cons (by decide)) (Stops.cons (by decide)) h).1

theorem paren_notMem (h : ∀ a ∈ x, isSpace a = true ∨ isTypeChar a = true) : '(' ∉ x := by
  intro hmem
  rcases h '(' hmem with hno | hno <;> cases hno

/-- Before the first parenthesis there is a mark that no type has. -/
theorem not_function_of_mark (hx : '(' ∉ x) (hspace : isSpace c = false) (htype : isTypeChar c = false)
    (hparen : c ≠ '(') : functionPattern.acceptsPrefix (x ++ c :: y) = false := by
  rw [Bool.eq_false_iff]
  intro hfun
  obtain ⟨z, t, d, w, u, r, heq, -, -, -, -, hall⟩ := head_of_function hfun
  generalize z ++ (t ++ d :: (w ++ u)) = pre at heq hall
  have hc : c ∉ pre := by
    intro hmem
    rcases hall c hmem with hno | hno
    · rw [hspace] at hno
      cases hno
    · rw [htype] at hno
      cases hno
  -- the mark is before the parenthesis of the expression, or that parenthesis is in `x`
  rcases List.append_eq_append_iff.mp heq with ⟨a, rfl, ha⟩ | ⟨a, rfl, ha⟩
  · cases a with
    | nil => exact hparen (List.cons.inj ha).1
    | cons b a =>
      obtain ⟨rfl, -⟩ := List.cons.inj ha
      exact hc (by simp)
  · cases a with
    | nil => exact hparen (List.cons.inj ha).1.symm
    | cons b a =>
      obtain ⟨rfl, -⟩ := List.cons.inj ha
      exact hx (by simp)

/-- The word before the first parenthesis comes after a dot. -/
theorem not_function_of_dot (hx : '(' ∉ x) (hx' : All isWord x') (hne : x' ≠ []) :
    functionPattern.acceptsPrefix (x ++ '.' :: (x' ++ '(' :: y)) = false := by
  rw [Bool.eq_false_iff]
  intro hfun
  obtain ⟨z, t, d, w, u, r, heq, ht, hd, hw, hu, hall⟩ := head_of_function hfun
  have hdot : '(' ∉ x ++ '.' :: x' := by
    rw [List.mem_append, List.mem_cons]
    rintro (hmem | hmem | hmem)
    · exact hx hmem
    · cases hmem
    · cases hx' '(' hmem
  have hpre : x ++ '.' :: x' = z ++ (t ++ d :: (w ++ u)) :=
    before_paren hdot (paren_notMem hall) (by simpa using heq)
  -- read backwards: no space, then one word, and then either the dot or the space of the expression
  have hback : [] ++ (x'.reverse ++ '.' :: x.reverse) =
      u.reverse ++ ((w.reverse ++ [d]) ++ (t.reverse ++ z.reverse)) := by
    simpa using congrArg List.reverse hpre
  have hrun : All isWord (w.reverse ++ [d]) := by
    intro a ha
    rcases List.mem_append.mp ha with ha | ha
    · exact hw.reverse a ha
    · rwa [List.mem_singleton.mp ha]
  have hnil : All isSpace [] := nofun
  have hnospace := append_inj_of_stops hnil hu.reverse (hx'.reverse.stops (by simpa using hne))
    (hrun.stops (by simp)) hback
  have hword := append_inj_of_stops hx'.reverse hrun (Stops.cons rfl) ht.reverse.stops hnospace.2
  obtain ⟨a, t', ht'⟩ := List.exists_cons_of_ne_nil ht.reverse.1
  have hhead := hword.2
  rw [ht'] at hhead
  have ha : isSpace a = true := ht.2.reverse a (ht' ▸ List.mem_cons_self)
  rw [← (List.cons.inj hhead).1] at ha
  cases ha

/-! ## Lines that do -/

theorem commentPattern_iff : commentPattern.acceptsPrefix l = true ↔
    ∃ s, All isSpace s ∧ ∃ r, l = s ++ ("//".toList ++ r) := by
  rw [acceptsPrefix_iff]
  constructor
  · rintro ⟨z, hz₀, r, rfl⟩
    obtain ⟨s, _, hs, hz₁, rfl⟩ := mem_seqs_star.mp hz₀
    obtain ⟨_, hz₂, rfl⟩ := mem_seqs_word.mp hz₁
    obtain rfl := mem_seqs_nil.mp hz₂
    exact ⟨s, hs, r, by simp⟩
  · rintro ⟨s, hs, r, rfl⟩
    refine ⟨s ++ ("//".toList ++ []), ?_, r, by simp⟩
    exact mem_seqs_star.mpr ⟨s, _, hs, mem_seqs_word.mpr ⟨[], mem_seqs_nil.mpr rfl, rfl⟩, rfl⟩

/-- A comment does not trip it. -/
theorem not_trips_of_comment (hs : All isSpace s) : ¬ Trips (s ++ ("//".toList ++ r)) := by
  rintro ⟨hcomment, -⟩
  rw [commentPattern_iff.mpr ⟨s, hs, r, rfl⟩] at hcomment
  cases hcomment

theorem blankPattern_iff : blankPattern.accepts l = true ↔ All isSpace l := accepts_iff.trans mem_star_set

/-- A line that begins with a word is neither a comment nor blank. -/
theorem trips_iff (hs : All isSpace s) (hc : isWord c = true) :
    Trips (s ++ c :: r) ↔ isDeclaration (s ++ c :: r) = true := by
  have hspace := isSpace_of_isWord hc
  refine ⟨fun h => h.2.2, fun h => ⟨?_, ?_, h⟩⟩
  · rw [Bool.eq_false_iff]
    intro hcomment
    obtain ⟨t, ht, r', heq⟩ := commentPattern_iff.mp hcomment
    have hrest := (append_inj_of_stops hs ht (Stops.cons hspace) (Stops.cons rfl) heq).2
    rw [(List.cons.inj hrest).1] at hc
    cases hc
  · rw [Bool.eq_false_iff]
    intro hblank
    rw [blankPattern_iff.mp hblank c (by simp)] at hspace
    cases hspace

theorem trips_of_type (hs : All isSpace s) {k : String} (hk : k ∈ typeKeywords) (hc : isWordStart c = true) :
    Trips (s ++ (k.toList ++ ' ' :: c :: r)) := by
  have hwords : ∀ k ∈ typeKeywords, ∃ d w, k.toList = d :: w ∧ isWord d = true := by
    intro k hk
    simp only [typeKeywords, List.mem_cons, List.not_mem_nil, or_false] at hk
    rcases hk with rfl | rfl | rfl | rfl | rfl | rfl | rfl <;> exact ⟨_, _, rfl, rfl⟩
  have hpattern : typePattern.acceptsPrefix (s ++ (k.toList ++ ' ' :: c :: r)) = true :=
    typePattern_iff.mpr ⟨s, hs, k, hk, [' '], ⟨List.cons_ne_nil _ _, by decide⟩, c, hc, r, rfl⟩
  obtain ⟨d, w, hdw, hd⟩ := hwords k hk
  rw [hdw, List.cons_append] at hpattern ⊢
  rw [trips_iff hs hd, isDeclaration, hpattern]
  rfl

theorem trips_of_field (hs : All isSpace s) (hc : isWordStart c = true) :
    Trips (s ++ ("final".toList ++ ' ' :: c :: (x ++ ';' :: r))) := by
  have hpattern : fieldPattern.acceptsPrefix (s ++ ("final".toList ++ ' ' :: c :: (x ++ ';' :: r))) = true :=
    fieldPattern_iff.mpr ⟨s, hs, [' '], ⟨List.cons_ne_nil _ _, by decide⟩, c, hc, x, r, rfl⟩
  refine (trips_iff (r := "inal".toList ++ ' ' :: c :: (x ++ ';' :: r)) hs (by decide)).mpr ?_
  rw [isDeclaration, Bool.or_eq_true, Bool.or_eq_true, Bool.or_eq_true]
  exact Or.inl (Or.inl (Or.inr hpattern))

theorem trips_of_function (hs : All isSpace s) (hc : isWordStart c = true) (hx : All isTypeChar x)
    (hd : (d.isLower || d = '_') = true) (hw : All isWord w) :
    Trips (s ++ c :: (x ++ ' ' :: d :: (w ++ '(' :: r))) := by
  rw [trips_iff hs (isWord_of_isWordStart hc), isDeclaration, Bool.or_eq_true, Bool.or_eq_true]
  refine Or.inl (Or.inr (functionPattern_iff.mpr
    ⟨s, hs, c, ?_, x, hx, [' '], ?_, d, hd, w, hw, [], nofun, r, rfl⟩))
  · rw [hc, Bool.true_or]
  · exact ⟨List.cons_ne_nil _ _, by decide⟩

theorem trips_of_variant (hs : All isSpace s) (hc : c.isLower = true) (hw : All isWord w) :
    Trips (s ++ c :: (w ++ [','])) := by
  rw [trips_iff hs (isWord_of_isLower hc), isDeclaration, Bool.or_eq_true]
  exact Or.inr (variantPattern_iff.mpr ⟨s, hs, c, hc, w, hw, [], nofun, [], nofun, rfl⟩)

/-- What `grep -vE '^---'` takes out for the sake of the file names would not trip it anyway. -/
theorem Trips.not_twoMinus (h : Trips l) : ¬ "--".toList <+: l := by
  have hbegins : ∃ s c r, All isSpace s ∧ c ≠ '-' ∧ l = s ++ c :: r := by
    have hword : ∀ {c}, isWord c = true → c ≠ '-' := by
      rintro c hc rfl
      cases hc
    have hopens : ∀ {w r}, Opens l w r → w ≠ [] → ∃ s c r, All isSpace s ∧ c ≠ '-' ∧ l = s ++ c :: r := by
      intro w r hopens hne
      obtain ⟨s, hs, rfl⟩ := hopens.split
      obtain ⟨c, w, rfl⟩ := List.exists_cons_of_ne_nil hne
      exact ⟨s, c, w ++ r, hs, hword (hopens.word c List.mem_cons_self), rfl⟩
    have hdecl := h.2.2
    rw [isDeclaration, Bool.or_eq_true, Bool.or_eq_true, Bool.or_eq_true] at hdecl
    rcases hdecl with ((htype | hfield) | hfun) | hvariant
    · obtain ⟨w, r, hw, hne, -⟩ := opens_of_typePattern htype
      exact hopens hw hne
    · obtain ⟨r, hw, -⟩ := opens_of_fieldPattern hfield
      exact hopens hw (by decide)
    · obtain ⟨s, hs, c, hc, x, -, t, -, d, -, w, -, u, -, r, rfl⟩ := functionPattern_iff.mp hfun
      refine ⟨s, c, _, hs, ?_, rfl⟩
      rintro rfl
      cases hc
    · obtain ⟨w, t, u, hw, hne, -⟩ := opens_of_variantPattern hvariant
      exact hopens hw hne
  obtain ⟨s, c, r, hs, hc, rfl⟩ := hbegins
  rintro ⟨z, hz⟩
  cases s with
  | nil => exact hc (List.cons.inj hz).1.symm
  | cons a s =>
    have ha : isSpace a = true := hs a List.mem_cons_self
    rw [← (List.cons.inj hz).1] at ha
    cases ha

/-- Without the override the check fails when the diff takes away a line that trips it. -/
theorem exitCode_of_diff {diff : List DiffLine} {override : String} (hoverride : override ≠ "true") :
    (checkApiStability (diff.map DiffLine.text) override).exitCode = 1 ↔ ∃ l ∈ removals diff, Trips l := by
  rw [exitCode_eq_one hoverride]
  refine exists_congr fun l => ?_
  rw [mem_removedLines]
  exact ⟨fun h => ⟨h.1.1, h.2⟩, fun h => ⟨⟨h.1, h.2.not_twoMinus⟩, h.2⟩⟩

end CwTariWallet.ApiStability
