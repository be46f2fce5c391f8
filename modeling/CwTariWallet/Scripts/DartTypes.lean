/-
# CwTariWallet.Scripts.DartTypes -- names, types and parameters of the generated contract

The texts of the types and of the named parameters that the files under `.dart/api/` are made of, and that
two parameters have two texts: a type is read off the beginning of a line in one way
(`DartType.text_append_inj`), and so is a list of parameters up to its brace (`paramsText_append_inj`).
-/
import CwTariWallet.Scripts.Declarations

namespace CwTariWallet.GeneratedDart

open ApiStability

/-! ## Names -/

/-- Reserved words of Dart: no identifier is one. -/
def reservedWords : List String := ["class", "enum", "final", "const"]

/-- Built-in identifiers of Dart: no type is one. -/
def builtIns : List String :=
  ["abstract", "extension", "factory", "get", "mixin", "required", "static", "typedef"]

/-- The name of a type. -/
@[ext]
structure TypeName where
  head : Char
  tail : Line
  headStart : isWordStart head = true
  tailWord : All isWord tail
  notReserved : head :: tail ∉ (reservedWords ++ builtIns).map String.toList

/-- The name of anything else. -/
@[ext]
structure LowerName where
  head : Char
  tail : Line
  headLower : head.isLower = true
  tailWord : All isWord tail
  notReserved : head :: tail ∉ reservedWords.map String.toList

def TypeName.text (n : TypeName) : Line := n.head :: n.tail

def LowerName.text (n : LowerName) : Line := n.head :: n.tail

/-! ## Types and parameters -/

/-- `Name`, `Name<A, B>`, and either with a question mark. -/
inductive DartType where
  | mk (name : TypeName) (args : List DartType) (nullable : Bool)

mutual

def DartType.text : DartType → Line
  | .mk name args nullable => name.text ++ (argsText args ++ if nullable then ['?'] else [])

/-- The arguments between their brackets. -/
def argsText : List DartType → Line
  | [] => []
  | t :: ts => '<' :: (t.text ++ moreArgsText ts)

def moreArgsText : List DartType → Line
  | [] => ['>']
  | t :: ts => ", ".toList ++ (t.text ++ moreArgsText ts)

end

def DartType.nullable : DartType → Bool
  | .mk _ _ nullable => nullable

/-- A named parameter. -/
@[ext]
structure Param where
  required : Bool
  type : DartType
  name : LowerName
  /-- What may be left out may be null. -/
  optional : required = false → type.nullable = true

def Param.text (p : Param) : Line :=
  (if p.required then "required ".toList else []) ++ (p.type.text ++ ' ' :: p.name.text)

/-- The parameters between their braces. -/
def paramsText (ps : List Param) : Line := List.intercalate ", ".toList (ps.map Param.text)

/-! ### Texts tell parameters apart -/

variable {x y : Line}

theorem TypeName.isWord_text (n : TypeName) : All isWord n.text :=
  All.cons (isWord_of_isWordStart n.headStart) n.tailWord

theorem LowerName.isWord_text (n : LowerName) : All isWord n.text :=
  All.cons (isWord_of_isLower n.headLower) n.tailWord

/-- No type is called by a keyword. -/
theorem TypeName.text_ne (n : TypeName) {k : String} (hk : k ∈ reservedWords ++ builtIns) :
    n.text ≠ k.toList := by
  intro heq
  have hreserved := List.mem_map_of_mem (f := String.toList) hk
  rw [← heq] at hreserved
  exact n.notReserved hreserved

theorem LowerName.text_ne (n : LowerName) {k : String} (hk : k ∈ reservedWords) : n.text ≠ k.toList := by
  intro heq
  have hreserved := List.mem_map_of_mem (f := String.toList) hk
  rw [← heq] at hreserved
  exact n.notReserved hreserved

theorem TypeName.text_append_inj {n n' : TypeName} (hx : Stops isWord x)
    (hy : Stops isWord y) (h : n.text ++ x = n'.text ++ y) : n = n' ∧ x = y := by
  obtain ⟨htext, hrest⟩ := append_inj_of_stops n.isWord_text n'.isWord_text hx hy h
  obtain ⟨hhead, htail⟩ := List.cons.inj htext
  exact ⟨TypeName.ext hhead htail, hrest⟩

theorem LowerName.text_append_inj {n n' : LowerName} (hx : Stops isWord x)
    (hy : Stops isWord y) (h : n.text ++ x = n'.text ++ y) : n = n' ∧ x = y := by
  obtain ⟨htext, hrest⟩ := append_inj_of_stops n.isWord_text n'.isWord_text hx hy h
  obtain ⟨hhead, htail⟩ := List.cons.inj htext
  exact ⟨LowerName.ext hhead htail, hrest⟩

/-- What can go on a type. -/
def goesOn (c : Char) : Bool := isWord c || c = '<' || c = '?'

/-- After a type, and after its arguments. -/
theorem Stops.of_goesOn {p : Char → Bool} (h : Stops goesOn x) (hp : ∀ c, p c = true → goesOn c = true) :
    Stops p x := by
  intro c r heq
  have hno := h c r heq
  rw [Bool.eq_false_iff] at hno ⊢
  exact fun hc => hno (hp c hc)

theorem stops_nullable {b : Bool} {p : Char → Bool} (hp : p '?' = false) (hx : Stops p x) :
    Stops p ((if b then ['?'] else []) ++ x) := by
  cases b with
  | true => exact Stops.cons hp
  | false => exact hx

theorem nullable_append_inj {b b' : Bool} (hx : Stops goesOn x) (hy : Stops goesOn y)
    (h : (if b then ['?'] else []) ++ x = (if b' then ['?'] else []) ++ y) : b = b' ∧ x = y := by
  cases b <;> cases b'
  · exact ⟨rfl, h⟩
  · cases hx '?' y h
  · cases hy '?' x h.symm
  · exact ⟨rfl, (List.cons.inj h).2⟩

theorem stops_argsText {ts : List DartType} (hx : Stops isWord x) : Stops isWord (argsText ts ++ x) := by
  cases ts with
  | nil => exact hx
  | cons t ts => exact Stops.cons rfl

theorem stops_moreArgsText {ts : List DartType} : Stops goesOn (moreArgsText ts ++ x) := by
  cases ts with
  | nil => exact Stops.cons rfl
  | cons t ts => exact Stops.cons rfl

mutual

/-- Where a type ends is one place. -/
theorem DartType.text_append_inj : ∀ {t t' : DartType} {x y : Line}, Stops goesOn x → Stops goesOn y →
    t.text ++ x = t'.text ++ y → t = t' ∧ x = y
  | .mk n args b, .mk n' args' b', x, y, hx, hy, h => by
    have hword : ∀ {z : Line}, Stops goesOn z → Stops isWord z := fun hz =>
      Stops.of_goesOn hz fun c hc => by rw [goesOn, hc, Bool.true_or, Bool.true_or]
    have hless : ∀ {z : Line}, Stops goesOn z → Stops (decide <| · = '<') z := fun hz =>
      Stops.of_goesOn hz fun c hc => by rw [goesOn, hc, Bool.or_true, Bool.true_or]
    simp only [DartType.text, List.append_assoc] at h
    obtain ⟨rfl, hargs⟩ := TypeName.text_append_inj (stops_argsText (stops_nullable rfl (hword hx)))
      (stops_argsText (stops_nullable rfl (hword hy))) h
    obtain ⟨rfl, hnull⟩ :=
      argsText_append_inj (stops_nullable rfl (hless hx)) (stops_nullable rfl (hless hy)) hargs
    obtain ⟨rfl, rfl⟩ := nullable_append_inj hx hy hnull
    exact ⟨rfl, rfl⟩

theorem argsText_append_inj : ∀ {ts ts' : List DartType} {x y : Line}, Stops (decide <| · = '<') x →
    Stops (decide <| · = '<') y → argsText ts ++ x = argsText ts' ++ y → ts = ts' ∧ x = y
  | [], [], _, _, _, _, h => ⟨rfl, h⟩
  | [], _ :: _, _, _, hx, _, h => nomatch hx _ _ h
  | _ :: _, [], _, _, _, hy, h => nomatch hy _ _ h.symm
  | t :: ts, t' :: ts', x, y, _, _, h => by
    have htext : t.text ++ (moreArgsText ts ++ x) = t'.text ++ (moreArgsText ts' ++ y) := by
      simpa [argsText] using h
    obtain ⟨rfl, hmore⟩ := DartType.text_append_inj stops_moreArgsText stops_moreArgsText htext
    obtain ⟨rfl, rfl⟩ := moreArgsText_append_inj hmore
    exact ⟨rfl, rfl⟩

theorem moreArgsText_append_inj : ∀ {ts ts' : List DartType} {x y : Line},
    moreArgsText ts ++ x = moreArgsText ts' ++ y → ts = ts' ∧ x = y
  | [], [], _, _, h => ⟨rfl, (List.cons.inj h).2⟩
  | [], _ :: _, _, _, h => nomatch (List.cons.inj h).1
  | _ :: _, [], _, _, h => nomatch (List.cons.inj h).1
  | t :: ts, t' :: ts', x, y, h => by
    have htext : t.text ++ (moreArgsText ts ++ x) = t'.text ++ (moreArgsText ts' ++ y) := by
      simpa [moreArgsText] using h
    obtain ⟨rfl, hmore⟩ := DartType.text_append_inj stops_moreArgsText stops_moreArgsText htext
    obtain ⟨rfl, rfl⟩ := moreArgsText_append_inj hmore
    exact ⟨rfl, rfl⟩

end

theorem Param.text_append_inj {p q : Param} (hx : Stops isWord x) (hy : Stops isWord y)
    (h : p.text ++ x = q.text ++ y) : p = q ∧ x = y := by
  have hname : ∀ {n n' : LowerName} {t t' : DartType},
      t.text ++ ' ' :: (n.text ++ x) = t'.text ++ ' ' :: (n'.text ++ y) → t = t' ∧ n = n' ∧ x = y := by
    intro n n' t t' heq
    obtain ⟨rfl, hrest⟩ := DartType.text_append_inj (Stops.cons rfl) (Stops.cons rfl) heq
    obtain ⟨rfl, hend⟩ := LowerName.text_append_inj hx hy (List.cons.inj hrest).2
    exact ⟨rfl, rfl, hend⟩
  -- no type is called `required`
  have hrequired : ∀ {t : DartType} {z z' : Line}, "required".toList ++ ' ' :: z ≠ t.text ++ ' ' :: z' := by
    rintro ⟨n, args, b⟩ z z' heq
    simp only [DartType.text, List.append_assoc] at heq
    have hword := append_inj_of_stops (by decide) n.isWord_text (Stops.cons rfl)
      (stops_argsText (stops_nullable rfl (Stops.cons rfl))) heq
    exact n.text_ne (k := "required") (by decide) hword.1.symm
  obtain ⟨r, t, n, hopt⟩ := p
  obtain ⟨r', t', n', hopt'⟩ := q
  cases r <;> cases r'
  · obtain ⟨rfl, rfl, hend⟩ := hname (by simpa [Param.text] using h)
    exact ⟨rfl, hend⟩
  · exact absurd (by simpa [Param.text] using h.symm) (hrequired (t := t))
  · exact absurd (by simpa [Param.text] using h) (hrequired (t := t'))
  · obtain ⟨rfl, rfl, hend⟩ := hname (by simpa [Param.text] using h)
    exact ⟨rfl, hend⟩

theorem paramsText_cons {p q : Param} {ps : List Param} :
    paramsText (p :: q :: ps) = p.text ++ (", ".toList ++ paramsText (q :: ps)) := by
  simp [paramsText, List.intercalate_cons_cons]

/-- The brace closes one list of parameters. -/
theorem paramsText_append_inj {p q : Param} {ps qs : List Param}
    (h : paramsText (p :: ps) ++ '\x7d' :: x = paramsText (q :: qs) ++ '\x7d' :: y) : p :: ps = q :: qs := by
  have hone : ∀ {p : Param} {z : Line}, paramsText [p] ++ '\x7d' :: z = p.text ++ '\x7d' :: z := by
    simp [paramsText]
  have hmore : ∀ {p q : Param} {ps : List Param} {z : Line}, paramsText (p :: q :: ps) ++ '\x7d' :: z =
      p.text ++ ',' :: ' ' :: (paramsText (q :: ps) ++ '\x7d' :: z) := by
    simp [paramsText_cons]
  induction ps generalizing p q qs with
  | nil =>
    cases qs with
    | nil =>
      rw [hone, hone] at h
      rw [(Param.text_append_inj (Stops.cons rfl) (Stops.cons rfl) h).1]
    | cons q' qs =>
      rw [hone, hmore] at h
      cases (Param.text_append_inj (Stops.cons rfl) (Stops.cons rfl) h).2
  | cons p' ps ih =>
    cases qs with
    | nil =>
      rw [hmore, hone] at h
      cases (Param.text_append_inj (Stops.cons rfl) (Stops.cons rfl) h).2
    | cons q' qs =>
      rw [hmore, hmore] at h
      obtain ⟨rfl, hrest⟩ := Param.text_append_inj (Stops.cons rfl) (Stops.cons rfl) h
      rw [ih (List.cons.inj (List.cons.inj hrest).2).2]

/-! ### No text has a parenthesis -/

theorem isTypeChar_of_isWord {c : Char} (h : isWord c = true) : isTypeChar c = true := by
  simp only [isTypeChar, h, Bool.true_or]

theorem All.isTypeChar (h : All isWord x) : All isTypeChar x := fun c hc => isTypeChar_of_isWord (h c hc)

mutual

theorem DartType.isTypeChar_text : ∀ t : DartType, All isTypeChar t.text
  | .mk n args b => by
    rw [DartType.text]
    refine (All.isTypeChar n.isWord_text).append ((isTypeChar_argsText args).append ?_)
    cases b <;> decide

theorem isTypeChar_argsText : ∀ ts : List DartType, All isTypeChar (argsText ts)
  | [] => nofun
  | t :: ts => by
    rw [argsText]
    exact All.cons rfl (t.isTypeChar_text.append (isTypeChar_moreArgsText ts))

theorem isTypeChar_moreArgsText : ∀ ts : List DartType, All isTypeChar (moreArgsText ts)
  | [] => by
    rw [moreArgsText]
    decide
  | t :: ts => by
    rw [moreArgsText]
    exact All.append (by decide) (t.isTypeChar_text.append (isTypeChar_moreArgsText ts))

end

theorem Param.isTypeChar_text (p : Param) : All isTypeChar p.text := by
  refine All.append ?_ (p.type.isTypeChar_text.append (All.cons rfl (All.isTypeChar p.name.isWord_text)))
  split <;> decide

end CwTariWallet.GeneratedDart
