/-
# CwTariWallet.Scripts.ContractLines -- the lines of the contract that trip the wire

Of a function it is the line with its name, of a class, an enum, a field and an enum variant the line that
declares it.  The lines of a wrapped signature do not trip it, nor do those of the call, and of a getter and
of a variant of a union no line does.
-/
import CwTariWallet.Scripts.GeneratedDart

namespace CwTariWallet.GeneratedDart

open ApiStability

variable {l m r s x : Line} {c : Char}

/-! ## Kinds of lines -/

theorem not_trips_of_docLines {docs : List Line} (hs : All isSpace s) (hm : m ∈ docLines s docs) : ¬ Trips m := by
  obtain ⟨d, -, rfl⟩ := List.mem_map.mp hm
  exact not_trips_of_comment (r := '/' :: d) hs

/-- What an item of a list is followed by, one item a line. -/
theorem mem_onePerLine {indent sep closing : Line} {items : List Line}
    (hm : m ∈ onePerLine indent sep closing items) :
    ∃ x ∈ items, m = indent ++ (x ++ sep) ∨ m = indent ++ (x ++ closing) := by
  induction items with
  | nil => cases hm
  | cons x items ih =>
    cases items with
    | nil => exact ⟨x, List.mem_cons_self, Or.inr (List.mem_singleton.mp hm)⟩
    | cons y items =>
      rcases List.mem_cons.mp hm with rfl | hm
      · exact ⟨x, List.mem_cons_self, Or.inl rfl⟩
      · obtain ⟨z, hz, hm⟩ := ih hm
        exact ⟨z, List.mem_cons_of_mem _ hz, hm⟩

/-- A mark that no type has, and that does not open a list of parameters. -/
structure IsStop (c : Char) : Prop extends IsMark c where
  type : isTypeChar c = false
  paren : c ≠ '('

theorem isStop_iff : IsStop c ↔ isSpace c = false ∧ isTypeChar c = false ∧ c ≠ '(' := by
  refine ⟨fun h => ⟨h.space, h.type, h.paren⟩, fun h => ⟨⟨h.1, ?_, ?_⟩, h.2.1, h.2.2⟩⟩
  · rw [Bool.eq_false_iff]
    intro hword
    have htype := h.2.1
    rw [isTypeChar_of_isWord hword] at htype
    cases htype
  · rintro rfl
    cases h.2.1

instance : Decidable (IsStop c) := decidable_of_iff _ isStop_iff.symm

theorem not_trips_of_stop (hs : All isSpace s) (hc : IsStop c) : ¬ Trips (s ++ c :: r) := by
  refine (Quiet.of_mark hs hc.toIsMark).not_trips (not_function_of_mark ?_ hc.space hc.type hc.paren)
  intro hparen
  cases hs '(' hparen

theorem paren_notMem_of_isTypeChar (h : All isTypeChar x) : '(' ∉ x := fun hmem => nomatch h '(' hmem

theorem paren_notMem_append (hs : All isSpace s) (h : All isTypeChar x) : '(' ∉ s ++ x := by
  rw [List.mem_append]
  rintro (hmem | hmem)
  · cases hs '(' hmem
  · cases h '(' hmem

/-- A line that begins with a type and a word. -/
theorem quiet_of_type {t : DartType} (hs : All isSpace s) (hx : All isWord x) (hne : x ≠ [])
    (hclass : x ≠ "class".toList) (hr : Stops isWord r) :
    ∃ w r', Quiet (s ++ (t.text ++ ' ' :: (x ++ r))) w r' := by
  obtain ⟨n, args, b⟩ := t
  have hname : n.text ∉ (plainKeywords ++ ["final"]).map String.toList := by
    have hsub : ∀ k ∈ plainKeywords ++ ["final"], k ∈ reservedWords ++ builtIns := by decide
    intro hmem
    obtain ⟨k, hk, heq⟩ := List.mem_map.mp hmem
    exact n.text_ne (hsub k hk) heq.symm
  rw [DartType.text, List.append_assoc]
  cases args with
  | nil =>
    rw [argsText, List.nil_append]
    cases b with
    | true => exact ⟨_, _, Quiet.of_word_mark hs n.isWord_text (List.cons_ne_nil _ _) ⟨rfl, rfl, by decide⟩⟩
    -- a bare name, and the word after it is not `class`
    | false => exact ⟨_, _, Quiet.of_word_word hs n.isWord_text (List.cons_ne_nil _ _) hx hne hr hname hclass⟩
  | cons t ts =>
    rw [argsText, List.append_assoc, List.cons_append]
    exact ⟨_, _, Quiet.of_word_mark hs n.isWord_text (List.cons_ne_nil _ _) ⟨rfl, rfl, by decide⟩⟩

/-- A line that begins with a named parameter. -/
theorem Param.quiet {p : Param} (hs : All isSpace s) (hr : Stops isWord r) :
    ∃ w r', Quiet (s ++ (p.text ++ r)) w r' := by
  obtain ⟨required, t, n, hopt⟩ := p
  cases required with
  | false =>
    have hclass : n.text ≠ "class".toList := n.text_ne (by decide)
    have hquiet := quiet_of_type (t := t) hs n.isWord_text (List.cons_ne_nil _ _) hclass hr
    simpa [Param.text] using hquiet
  | true =>
    obtain ⟨m, args, b⟩ := t
    have hm : m.text ≠ "class".toList := m.text_ne (by decide)
    have hstops : Stops isWord (argsText args ++ ((if b then ['?'] else []) ++ ' ' :: (n.text ++ r))) :=
      stops_argsText (stops_nullable rfl (Stops.cons rfl))
    have hrequired : All isWord "required".toList := by decide
    have hquiet := Quiet.of_word_word hs hrequired (by decide) m.isWord_text (List.cons_ne_nil _ _) hstops
      (by decide) hm
    exact ⟨_, _, by simpa [Param.text, DartType.text] using hquiet⟩

/-- A line that begins with a name and a mark. -/
theorem not_trips_of_name {n : LowerName} (hs : All isSpace s) (hc : IsStop c) :
    ¬ Trips (s ++ (n.text ++ c :: r)) := by
  refine (Quiet.of_word_mark hs n.isWord_text (List.cons_ne_nil _ _) hc.toIsMark).not_trips ?_
  rw [← List.append_assoc]
  exact not_function_of_mark (paren_notMem_append hs (All.isTypeChar n.isWord_text)) hc.space hc.type hc.paren

/-- A parameter that another one follows. -/
theorem Param.not_trips_comma (p : Param) (hs : All isSpace s) : ¬ Trips (s ++ (p.text ++ [','])) := by
  obtain ⟨w, r', hquiet⟩ := p.quiet hs (Stops.cons (r := []) (rfl : isWord ',' = false))
  refine hquiet.not_trips (not_function_of_noParen ?_)
  exact paren_notMem_append hs (p.isTypeChar_text.append (by decide))

/-- The last parameter. -/
theorem Param.not_trips_brace (p : Param) (hs : All isSpace s) : ¬ Trips (s ++ (p.text ++ '\x7d' :: r)) := by
  obtain ⟨w, r', hquiet⟩ := p.quiet hs (Stops.cons (r := r) (rfl : isWord '\x7d' = false))
  refine hquiet.not_trips ?_
  rw [← List.append_assoc]
  exact not_function_of_mark (paren_notMem_append hs p.isTypeChar_text) rfl rfl (by decide)

/-! ## Functions -/

/-- Every type begins a name. -/
theorem DartType.exists_text (t : DartType) :
    ∃ c x, t.text = c :: x ∧ isWordStart c = true ∧ All isTypeChar x := by
  obtain ⟨n, args, b⟩ := t
  refine ⟨n.head, _, rfl, n.headStart, fun a ha => ?_⟩
  exact DartType.isTypeChar_text ⟨n, args, b⟩ a (List.mem_cons_of_mem _ ha)

namespace Function

variable {f : Function} {layout layout' : Layout}

theorem isSpace_indent : All isSpace f.indent := by
  unfold indent
  split <;> decide

theorem isSpace_bodyIndent : All isSpace f.bodyIndent := isSpace_indent.append (by decide)

theorem isSpace_paramIndent : All isSpace f.paramIndent := isSpace_indent.append (by decide)

theorem exists_head : ∃ c x, isWordStart c = true ∧ All isTypeChar x ∧
    f.head = f.indent ++ c :: (x ++ ' ' :: f.name.text) := by
  obtain ⟨c, x, htext, hc, hx⟩ := f.returns.exists_text
  unfold head
  rw [htext]
  cases f.static with
  | true => exact ⟨'s', "tatic ".toList ++ c :: x, rfl, All.append (by decide)
      (All.cons (isTypeChar_of_isWord (isWord_of_isWordStart hc)) hx), by simp⟩
  | false => exact ⟨c, x, hc, hx, by simp⟩

/-- The line with its name trips the wire, wrapped or not. -/
theorem trips_declaringLine : Trips (f.declaringLine layout) := by
  obtain ⟨c, x, hc, hx, hhead⟩ := f.exists_head
  have hname : (f.name.head.isLower || f.name.head = '_') = true := by
    rw [f.name.headLower, Bool.true_or]
  have htrips := trips_of_function (r := f.behindParen layout) f.isSpace_indent hc hx hname f.name.tailWord
  rw [declaringLine, hhead]
  simpa [LowerName.text] using htrips

theorem not_trips_wrappedLines (hm : m ∈ f.wrappedLines layout) : ¬ Trips m := by
  have hs := f.isSpace_paramIndent
  unfold wrappedLines at hm
  split at hm
  · cases hm
  · cases hm
  · rw [List.mem_singleton.mp hm]
    exact not_trips_of_stop hs (by decide)
  · obtain ⟨x, hx, hm⟩ := mem_onePerLine hm
    rcases List.mem_cons.mp hx with rfl | hx
    · rcases hm with rfl | rfl <;> exact not_trips_of_stop hs (by decide)
    · obtain ⟨p, -, rfl⟩ := List.mem_map.mp hx
      rcases hm with rfl | rfl
      · exact p.not_trips_comma hs
      · exact p.not_trips_brace hs

/-- The arguments begin with their closing or with the name of the first of them. -/
theorem argsText_cases : f.argsText = ");".toList ∨
    ∃ (p : Param) (r : Line), f.argsText = p.name.text ++ ':' :: r := by
  unfold argsText argTexts
  cases f.params with
  | nil => exact Or.inl rfl
  | cons p ps =>
    refine Or.inr ?_
    have hfirst : ∀ {y : Line}, p.name.text ++ (": ".toList ++ p.name.text) ++ y =
        p.name.text ++ ':' :: (' ' :: (p.name.text ++ y)) := by simp
    refine ⟨p, ?_⟩
    cases ps with
    | nil =>
      rw [List.map_cons, List.map_nil, List.intercalate_singleton, hfirst]
      exact ⟨_, rfl⟩
    | cons q ps =>
      rw [List.map_cons, List.map_cons, List.intercalate_cons_cons, List.append_assoc, List.append_assoc, hfirst]
      exact ⟨_, rfl⟩

theorem not_trips_bodyLines (hm : m ∈ f.bodyLines layout) : ¬ Trips m := by
  have hbridge : All isWord "RustLib".toList := by decide
  have hcall : ∀ {r : Line},
      ¬ Trips (f.bodyIndent ++ ("RustLib.instance.api.".toList ++ (f.api.text ++ '(' :: r))) := by
    intro r
    have hquiet := Quiet.of_word_mark (r := "instance.api.".toList ++ (f.api.text ++ '(' :: r))
      f.isSpace_bodyIndent
      hbridge (by decide) (c := '.') ⟨rfl, rfl, by decide⟩
    refine hquiet.not_trips ?_
    have hparen : '(' ∉ f.bodyIndent ++ "RustLib.instance.api".toList :=
      paren_notMem_append f.isSpace_bodyIndent (by decide)
    simpa using not_function_of_dot (y := r) hparen f.api.isWord_text (List.cons_ne_nil _ _)
  have hargs : ∀ {r : Line} {p : Param}, ¬ Trips (f.paramIndent ++ (p.name.text ++ ':' :: r)) :=
    not_trips_of_name f.isSpace_paramIndent (by decide)
  unfold bodyLines at hm
  split at hm
  · cases hm
  · rw [List.mem_singleton.mp hm]
    exact hcall
  · simp only [List.mem_cons, List.not_mem_nil, or_false] at hm
    rcases hm with rfl | rfl
    · have hquiet := Quiet.of_word_mark (r := "instance.api".toList) f.isSpace_bodyIndent hbridge (by decide)
        (c := '.') ⟨rfl, rfl, by decide⟩
      exact hquiet.not_trips (not_function_of_noParen (paren_notMem_append f.isSpace_bodyIndent (by decide)))
    · have hquiet := Quiet.of_mark (r := f.api.text ++ '(' :: f.argsText) f.isSpace_paramIndent (c := '.')
        ⟨rfl, rfl, by decide⟩
      have hparen : '(' ∉ f.paramIndent := fun hmem => nomatch f.isSpace_paramIndent '(' hmem
      exact hquiet.not_trips (not_function_of_dot hparen f.api.isWord_text (List.cons_ne_nil _ _))
  · simp only [List.mem_cons, List.not_mem_nil, or_false] at hm
    rcases hm with rfl | rfl
    · exact hcall
    · rcases f.argsText_cases with hargsText | ⟨p, r, hargsText⟩
      · rw [hargsText]
        exact not_trips_of_stop f.isSpace_paramIndent (by decide)
      · rw [hargsText]
        exact hargs
  · rcases List.mem_cons.mp hm with rfl | hm
    · exact hcall
    · obtain ⟨x, hx, hm⟩ := mem_onePerLine hm
      obtain ⟨p, -, rfl⟩ := List.mem_map.mp hx
      rcases hm with rfl | rfl <;> simpa using hargs

/-! ### The line with the name is one of a kind -/

/-- Below it every line is indented by four more. -/
theorem exists_bodyIndent (hm : m ∈ f.wrappedLines layout ++ f.bodyLines layout) :
    ∃ y, m = f.indent ++ ("    ".toList ++ y) := by
  have hparam : ∀ {y : Line}, ∃ y', f.paramIndent ++ y = f.indent ++ ("    ".toList ++ y') := by
    intro y
    exact ⟨"    ".toList ++ y, by simp [paramIndent]⟩
  have hbody : ∀ {y : Line}, ∃ y', f.bodyIndent ++ y = f.indent ++ ("    ".toList ++ y') := by
    intro y
    exact ⟨y, by simp [bodyIndent]⟩
  have hitems : ∀ {sep closing : Line} {items : List Line}, m ∈ onePerLine f.paramIndent sep closing items →
      ∃ y, m = f.indent ++ ("    ".toList ++ y) := by
    intro sep closing items hm
    obtain ⟨x, -, rfl | rfl⟩ := mem_onePerLine hm
    · exact hparam
    · exact hparam
  rcases List.mem_append.mp hm with hm | hm
  · unfold wrappedLines at hm
    split at hm
    · cases hm
    · cases hm
    · rw [List.mem_singleton.mp hm]
      exact hparam
    · exact hitems hm
  · unfold bodyLines at hm
    split at hm
    · cases hm
    · rw [List.mem_singleton.mp hm]
      exact hbody
    · simp only [List.mem_cons, List.not_mem_nil, or_false] at hm
      rcases hm with rfl | rfl
      · exact hbody
      · exact hparam
    · simp only [List.mem_cons, List.not_mem_nil, or_false] at hm
      rcases hm with rfl | rfl
      · exact hbody
      · exact hparam
    · rcases List.mem_cons.mp hm with rfl | hm
      · exact hbody
      · exact hitems hm

theorem declaringLine_notMem (layout layout' : Layout) (ps : List Param) : f.declaringLine layout ∉
    { f with params := ps }.wrappedLines layout' ++ { f with params := ps }.bodyLines layout' := by
  intro hm
  obtain ⟨y, hy⟩ := exists_bodyIndent hm
  -- where those lines have a space, this one has the first letter of its type
  obtain ⟨c, x, hc, -, hhead⟩ := f.exists_head
  rw [declaringLine, hhead, List.append_assoc] at hy
  obtain ⟨rfl, -⟩ := List.cons.inj (List.append_cancel_left hy)
  cases hc

/-- The line with the name tells the parameters, when it has them all before or after. -/
theorem params_of_declaringLine {ps : List Param}
    (hone : f.OnOneLine layout ∨ { f with params := ps }.OnOneLine layout')
    (h : f.declaringLine layout = { f with params := ps }.declaringLine layout') : f.params = ps := by
  have hbehind : f.behindParen layout = { f with params := ps }.behindParen layout' :=
    (List.cons.inj (List.append_cancel_left h)).2
  unfold OnOneLine at hone
  unfold behindParen closing at hbehind
  obtain ⟨docs, static, returns, name, params, api⟩ := f
  obtain ⟨w, b⟩ := layout
  obtain ⟨w', b'⟩ := layout'
  dsimp only at hone hbehind ⊢
  cases params with
  | nil =>
    cases ps with
    | nil => rfl
    | cons q qs => cases w' <;> cases hbehind
  | cons p ps' =>
    cases ps with
    | nil => cases w <;> cases hbehind
    | cons q qs =>
      cases w with
      | oneLine =>
        cases w' with
        -- both on one line, and the brace closes one list
        | oneLine => exact paramsText_append_inj (List.cons.inj hbehind).2
        | twoLines => cases hbehind
        | perLine => cases hbehind
      | twoLines =>
        cases w' with
        | oneLine => cases hbehind
        | _ => simp at hone
      | perLine =>
        cases w' with
        | oneLine => cases hbehind
        | _ => simp at hone

end Function

/-! ## Classes, enums and the members that trip the wire -/

theorem Class.trips_declaringLine (k : Class) : Trips k.declaringLine := by
  have hkeyword : k.kind.keyword ∈ typeKeywords := by
    cases k.kind <;> decide
  exact trips_of_type (s := []) nofun hkeyword k.name.headStart

theorem Enum.trips_declaringLine (e : Enum) : Trips e.declaringLine := by
  have hkeyword : "enum" ∈ typeKeywords := by decide
  exact trips_of_type (s := []) nofun hkeyword e.name.headStart

theorem isSpace_memberIndent : All isSpace memberIndent := by decide

theorem Field.trips_declaringLine (f : Field) : Trips f.declaringLine := by
  obtain ⟨c, x, htext, hc, -⟩ := f.type.exists_text
  have htrips := trips_of_field (x := x ++ ' ' :: f.name.text) (r := []) isSpace_memberIndent hc
  rw [declaringLine, htext]
  simpa using htrips

theorem EnumVariant.trips_declaringLine (v : EnumVariant) : Trips v.declaringLine :=
  trips_of_variant isSpace_memberIndent v.name.headLower v.name.tailWord

/-! ## Getters and the variants of a union -/

theorem notMem_intercalate {sep : Line} {items : List Line} (hsep : c ∉ sep) (hitems : ∀ x ∈ items, c ∉ x) :
    c ∉ List.intercalate sep items := by
  induction items with
  | nil => exact List.not_mem_nil
  | cons x items ih =>
    have hrest := ih fun y hy => hitems y (List.mem_cons_of_mem _ hy)
    cases items with
    | nil =>
      rw [List.intercalate_singleton]
      exact hitems x List.mem_cons_self
    | cons y items =>
      rw [List.intercalate_cons_cons, List.mem_append, List.mem_append]
      rintro ((hmem | hmem) | hmem)
      · exact hitems x List.mem_cons_self hmem
      · exact hsep hmem
      · exact hrest hmem

theorem LowerName.paren_notMem (n : LowerName) : '(' ∉ n.text :=
  paren_notMem_of_isTypeChar (All.isTypeChar n.isWord_text)

namespace Getter

variable {g : Getter} {n : LowerName}

theorem not_trips_head (hparen : '(' ∉ r) : ¬ Trips (g.head ++ r) := by
  have hget : All isWord "get".toList := by decide
  obtain ⟨w, r', hquiet⟩ := quiet_of_type (t := g.type) (r := ' ' :: (g.name.text ++ r)) isSpace_memberIndent hget
    (by decide) (by decide) (Stops.cons rfl)
  have hhead : g.head ++ r =
      memberIndent ++ (g.type.text ++ ' ' :: ("get".toList ++ ' ' :: (g.name.text ++ r))) := by
    simp [head]
  rw [hhead]
  refine hquiet.not_trips (not_function_of_noParen ?_)
  have htype := paren_notMem_of_isTypeChar g.type.isTypeChar_text
  simp [memberIndent, htype, g.name.paren_notMem, hparen]

theorem paren_notMem_hashText : '(' ∉ hashText n := by
  rw [hashText, List.mem_append]
  rintro (hmem | hmem)
  · exact n.paren_notMem hmem
  · revert hmem
    decide

theorem not_trips_hash (hparen : '(' ∉ r) : ¬ Trips (hashIndent ++ (hashText n ++ r)) := by
  have hquiet := Quiet.of_word_mark (r := "hashCode".toList ++ r) (by decide : All isSpace hashIndent)
    n.isWord_text
    (List.cons_ne_nil _ _) (c := '.') ⟨rfl, rfl, by decide⟩
  have hline : hashIndent ++ (hashText n ++ r) = hashIndent ++ (n.text ++ '.' :: ("hashCode".toList ++ r)) := by
    simp [hashText]
  rw [hline]
  refine hquiet.not_trips (not_function_of_noParen ?_)
  simp [hashIndent, n.paren_notMem, hparen]

theorem exists_hashTexts (n : LowerName) (more : List LowerName) :
    ∃ r, hashTexts n more = hashText n ++ r ∧ '(' ∉ r := by
  unfold hashTexts
  cases more with
  | nil => exact ⟨[';'], by simp [List.intercalate_singleton], by decide⟩
  | cons n' more =>
    have hitems : ∀ x ∈ (n' :: more).map hashText, '(' ∉ x := by
      intro x hx
      obtain ⟨m, -, rfl⟩ := List.mem_map.mp hx
      exact paren_notMem_hashText
    have hrest := notMem_intercalate (by decide : '(' ∉ " ^ ".toList) hitems
    refine ⟨" ^ ".toList ++ (List.intercalate " ^ ".toList ((n' :: more).map hashText) ++ [';']), ?_, ?_⟩
    · simp [List.intercalate_cons_cons]
    · simpa using hrest

theorem not_trips_declaringLine : ¬ Trips g.declaringLine := by
  refine not_trips_head ?_
  unfold behindName
  split
  · decide
  · rename_i first more hbody
    obtain ⟨r, htexts, hparen⟩ := exists_hashTexts first more
    simp [htexts, paren_notMem_hashText, hparen]
  · decide

theorem not_trips_hashLines (hm : m ∈ g.hashLines) : ¬ Trips m := by
  unfold hashLines at hm
  split at hm
  · cases hm
  · cases hm
  · rename_i first more hbody
    obtain ⟨r, htexts, hparen⟩ := exists_hashTexts first more
    rw [List.mem_singleton.mp hm, htexts]
    exact not_trips_hash hparen
  · obtain ⟨x, hx, hm⟩ := mem_onePerLine hm
    obtain ⟨n, -, rfl⟩ := List.mem_map.mp hx
    rcases hm with rfl | rfl
    · exact not_trips_hash (by decide)
    · exact not_trips_hash (by decide)

theorem not_trips_annotations (hm : m ∈ g.annotations) : ¬ Trips m := by
  unfold annotations at hm
  split at hm
  · cases hm
  · rw [List.mem_singleton.mp hm]
    exact not_trips_of_stop (s := "  ".toList) (c := '@') (r := "override".toList) (by decide) (by decide)

theorem not_trips_lines (hm : m ∈ g.lines) : ¬ Trips m := by
  simp only [lines, List.mem_append, List.mem_cons] at hm
  rcases hm with hm | hm | rfl | hm
  · exact not_trips_of_docLines isSpace_memberIndent hm
  · exact not_trips_annotations hm
  · exact not_trips_declaringLine
  · exact not_trips_hashLines hm

end Getter

namespace UnionVariant

variable {v : UnionVariant}

theorem not_trips_head : ¬ Trips (v.head ++ '(' :: r) := by
  have hconst : All isWord "const".toList := by decide
  have hfactory : All isWord "factory".toList := by decide
  have hquiet := Quiet.of_word_word (r := ' ' :: (v.union.text ++ '.' :: (v.name.text ++ '(' :: r)))
    isSpace_memberIndent hconst (by decide) hfactory (by decide) (Stops.cons rfl) (by decide) (by decide)
  have hparen : '(' ∉ memberIndent ++ ("const factory ".toList ++ v.union.text) :=
    paren_notMem_append isSpace_memberIndent (All.append (by decide) (All.isTypeChar v.union.isWord_text))
  have hfun := not_function_of_dot (y := r) hparen v.name.isWord_text (List.cons_ne_nil _ _)
  have hline : v.head ++ '(' :: r = memberIndent ++ ("const".toList ++ ' ' :: ("factory".toList ++
      ' ' :: (v.union.text ++ '.' :: (v.name.text ++ '(' :: r)))) := by
    simp [head]
  rw [hline]
  refine hquiet.not_trips ?_
  simpa using hfun

theorem not_trips_param {x : Line} (hx : x ∈ v.params.texts) : ¬ Trips ("    ".toList ++ (x ++ [','])) := by
  have hs : All isSpace "    ".toList := by decide
  cases hparams : v.params with
  | named ps =>
    rw [hparams] at hx
    obtain ⟨p, -, rfl⟩ := List.mem_map.mp hx
    exact p.not_trips_comma hs
  | positional ps =>
    rw [hparams] at hx
    obtain ⟨⟨t, n⟩, -, rfl⟩ := List.mem_map.mp hx
    have hclass : n.text ≠ "class".toList := n.text_ne (by decide)
    obtain ⟨w, r', hquiet⟩ := quiet_of_type (t := t) (r := [',']) hs n.isWord_text (List.cons_ne_nil _ _) hclass
      (Stops.cons rfl)
    have hparen : '(' ∉ "    ".toList ++ (t.text ++ ' ' :: (n.text ++ [','])) := paren_notMem_append hs
      (t.isTypeChar_text.append (All.cons rfl ((All.isTypeChar n.isWord_text).append (by decide))))
    simpa using hquiet.not_trips (not_function_of_noParen hparen)

theorem not_trips_declaringLine : ¬ Trips v.declaringLine := by
  unfold declaringLine behindName
  split
  · exact not_trips_head
  · unfold UnionParams.opening
    split <;> exact not_trips_head

theorem not_trips_paramLines (hm : m ∈ v.paramLines) : ¬ Trips m := by
  unfold paramLines at hm
  split at hm
  · cases hm
  · rename_i x xs htexts
    rcases List.mem_append.mp hm with hm | hm
    · obtain ⟨y, hy, rfl⟩ := List.mem_map.mp hm
      exact not_trips_param (htexts ▸ hy)
    · rw [List.mem_singleton.mp hm]
      unfold UnionParams.closing
      split <;> exact not_trips_of_stop isSpace_memberIndent (by decide)

theorem not_trips_lines (hm : m ∈ v.lines) : ¬ Trips m := by
  simp only [lines, List.mem_append, List.mem_cons] at hm
  rcases hm with hm | rfl | hm
  · exact not_trips_of_docLines isSpace_memberIndent hm
  · exact not_trips_declaringLine
  · exact not_trips_paramLines hm

end UnionVariant

end CwTariWallet.GeneratedDart
