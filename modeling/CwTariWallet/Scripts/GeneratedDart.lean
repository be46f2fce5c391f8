/-
# CwTariWallet.Scripts.GeneratedDart -- the lines of the generated contract

The files under `.dart/api/`, declaration by declaration, as they are generated and formatted: a function
with its named parameters, a class, an enum, a field, a variant, a getter.  Where the formatter has a choice
(a signature on one line or wrapped, a call on one line or on many) every choice is a layout here.  What may
happen to a declaration is a `Change`: it goes, or one parameter of it does, or is another one.
-/
import CwTariWallet.Scripts.DartTypes

namespace CwTariWallet.GeneratedDart

open ApiStability

/-! ## Layout -/

/-- The comment of a declaration. -/
def docLines (indent : Line) (docs : List Line) : List Line := docs.map fun d => indent ++ ("///".toList ++ d)

/-- One item a line, `sep` behind each but the last and `closing` behind that. -/
def onePerLine (indent sep closing : Line) : List Line → List Line
  | [] => []
  | [x] => [indent ++ (x ++ closing)]
  | x :: y :: xs => (indent ++ (x ++ sep)) :: onePerLine indent sep closing (y :: xs)

/-- Where a list stands: with what is before it, on a line of its own, or on many. -/
inductive Wrap where
  | oneLine
  | twoLines
  | perLine

/-! ## Functions -/

structure Function where
  docs : List Line
  /-- A member of a class, and indented as one. -/
  static : Bool
  returns : DartType
  name : LowerName
  params : List Param
  /-- The function of the bridge. -/
  api : LowerName

/-- Where the call stands: behind the arrow, or below it in one of four ways. -/
inductive Body where
  | sameLine
  | oneLine
  | dotted
  | argsLine
  | perArg

structure Layout where
  wrap : Wrap
  body : Body

namespace Function

variable (f : Function) (l : Layout)

def indent : Line := if f.static then "  ".toList else []

def bodyIndent : Line := f.indent ++ "    ".toList

def paramIndent : Line := f.indent ++ "        ".toList

/-- The signature up to its parenthesis. -/
def head : Line :=
  f.indent ++ ((if f.static then "static ".toList else []) ++ (f.returns.text ++ ' ' :: f.name.text))

def argTexts : List Line := f.params.map fun p => p.name.text ++ (": ".toList ++ p.name.text)

/-- The arguments of the call and what closes it. -/
def argsText : Line := List.intercalate ", ".toList f.argTexts ++ ");".toList

/-- What stands behind the arrow. -/
def afterArrow : Line :=
  match l.body with
  | .sameLine => " RustLib.instance.api.".toList ++ (f.api.text ++ '(' :: f.argsText)
  | _ => []

/-- The lines below the arrow. -/
def bodyLines : List Line :=
  match l.body with
  | .sameLine => []
  | .oneLine => [f.bodyIndent ++ ("RustLib.instance.api.".toList ++ (f.api.text ++ '(' :: f.argsText))]
  | .dotted => [f.bodyIndent ++ "RustLib.instance.api".toList,
      f.paramIndent ++ ('.' :: (f.api.text ++ '(' :: f.argsText))]
  | .argsLine => [f.bodyIndent ++ ("RustLib.instance.api.".toList ++ (f.api.text ++ ['('])),
      f.paramIndent ++ f.argsText]
  | .perArg => (f.bodyIndent ++ ("RustLib.instance.api.".toList ++ (f.api.text ++ ['(']))) ::
      onePerLine f.paramIndent [','] ");".toList f.argTexts

/-- The signature stands on one line. -/
def OnOneLine : Prop := f.params = [] ∨ l.wrap = .oneLine

/-- What closes the parameters. -/
def closing : Line := '\x7d' :: (") =>".toList ++ f.afterArrow l)

/-- What stands behind the parenthesis. -/
def behindParen : Line :=
  match f.params, l.wrap with
  | [], _ => ") =>".toList ++ f.afterArrow l
  | p :: ps, .oneLine => '\x7b' :: (paramsText (p :: ps) ++ f.closing l)
  | _ :: _, _ => []

/-- The line that declares the function. -/
def declaringLine : Line := f.head ++ '(' :: f.behindParen l

/-- The rest of the signature. -/
def wrappedLines : List Line :=
  match f.params, l.wrap with
  | [], _ => []
  | _ :: _, .oneLine => []
  | p :: ps, .twoLines => [f.paramIndent ++ '\x7b' :: (paramsText (p :: ps) ++ f.closing l)]
  | p :: ps, .perLine => onePerLine f.paramIndent [','] (f.closing l) (('\x7b' :: p.text) :: ps.map Param.text)

def lines : List Line :=
  docLines f.indent f.docs ++ f.declaringLine l :: (f.wrappedLines l ++ f.bodyLines l)

end Function

/-! ## Classes and enums -/

/-- A plain class, a union of the `freezed` package, a handle to an object on the Rust side. -/
inductive ClassKind where
  | plain
  | union
  | handle

def ClassKind.keyword : ClassKind → String
  | plain => "class"
  | union => "sealed class"
  | handle => "abstract class"

/-- What stands behind the name of the class. -/
def ClassKind.clause (name : TypeName) : ClassKind → Line
  | plain => []
  | union => " with _$".toList ++ name.text
  | handle => " implements RustOpaqueInterface".toList

def ClassKind.annotations : ClassKind → List Line
  | union => ["@freezed".toList]
  | _ => []

structure Class where
  docs : List Line
  kind : ClassKind
  name : TypeName
  body : List Line

def Class.declaringLine (c : Class) : Line :=
  c.kind.keyword.toList ++ ' ' :: (c.name.text ++ (c.kind.clause c.name ++ [' ', '\x7b']))

def Class.lines (c : Class) : List Line :=
  docLines [] c.docs ++ (c.kind.annotations ++ c.declaringLine :: (c.body ++ [['\x7d']]))

structure Enum where
  docs : List Line
  name : TypeName
  body : List Line

def Enum.declaringLine (e : Enum) : Line := "enum".toList ++ ' ' :: (e.name.text ++ [' ', '\x7b'])

def Enum.lines (e : Enum) : List Line := docLines [] e.docs ++ e.declaringLine :: (e.body ++ [['\x7d']])

/-! ## Members -/

/-- The indentation of a member. -/
def memberIndent : Line := "  ".toList

structure Field where
  docs : List Line
  type : DartType
  name : LowerName

def Field.declaringLine (f : Field) : Line :=
  memberIndent ++ ("final".toList ++ ' ' :: (f.type.text ++ ' ' :: (f.name.text ++ [';'])))

def Field.lines (f : Field) : List Line := docLines memberIndent f.docs ++ [f.declaringLine]

structure EnumVariant where
  docs : List Line
  name : LowerName

def EnumVariant.declaringLine (v : EnumVariant) : Line := memberIndent ++ (v.name.text ++ [','])

def EnumVariant.lines (v : EnumVariant) : List Line := docLines memberIndent v.docs ++ [v.declaringLine]

/-- Where a getter gets its value: from the Rust side, or from the hash codes of the fields. -/
inductive GetterBody where
  | handle
  | hash (wrap : Wrap) (first : LowerName) (more : List LowerName)

structure Getter where
  docs : List Line
  type : DartType
  name : LowerName
  body : GetterBody

namespace Getter

variable (g : Getter)

def head : Line := memberIndent ++ (g.type.text ++ ' ' :: ("get".toList ++ ' ' :: g.name.text))

/-- The hash code of a field. -/
def hashText (n : LowerName) : Line := n.text ++ ".hashCode".toList

def hashIndent : Line := "      ".toList

/-- The value, from the fields. -/
def hashTexts (first : LowerName) (more : List LowerName) : Line :=
  List.intercalate " ^ ".toList ((first :: more).map hashText) ++ [';']

def annotations : List Line :=
  match g.body with
  | .handle => []
  | .hash _ _ _ => ["  @override".toList]

/-- What stands behind the name. -/
def behindName : Line :=
  match g.body with
  | .handle => [';']
  | .hash .oneLine first more => " => ".toList ++ hashTexts first more
  | .hash _ _ _ => " =>".toList

def declaringLine : Line := g.head ++ g.behindName

/-- The lines below. -/
def hashLines : List Line :=
  match g.body with
  | .handle => []
  | .hash .oneLine _ _ => []
  | .hash .twoLines first more => [hashIndent ++ hashTexts first more]
  | .hash .perLine first more => onePerLine hashIndent " ^".toList [';'] ((first :: more).map hashText)

def lines : List Line := docLines memberIndent g.docs ++ (g.annotations ++ g.declaringLine :: g.hashLines)

end Getter

/-! ### Variants of a union -/

/-- The parameters of a variant: those of a struct, or those of a tuple. -/
inductive UnionParams where
  | named (ps : List Param)
  | positional (ps : List (DartType × LowerName))

/-- Their texts, and what is around them. -/
def UnionParams.texts : UnionParams → List Line
  | named ps => ps.map Param.text
  | positional ps => ps.map fun p => p.1.text ++ ' ' :: p.2.text

def UnionParams.opening : UnionParams → Line
  | named _ => ['(', '\x7b']
  | positional _ => ['(']

def UnionParams.closing : UnionParams → Line
  | named _ => ['\x7d', ')']
  | positional _ => [')']

structure UnionVariant where
  docs : List Line
  union : TypeName
  name : LowerName
  params : UnionParams
  target : TypeName

namespace UnionVariant

variable (v : UnionVariant)

def head : Line :=
  memberIndent ++ ("const".toList ++ ' ' :: ("factory".toList ++ ' ' :: (v.union.text ++ '.' :: v.name.text)))

/-- What stands behind the name. -/
def behindName : Line :=
  match v.params.texts with
  | [] => "() = ".toList ++ (v.target.text ++ [';'])
  | _ :: _ => v.params.opening

def declaringLine : Line := v.head ++ v.behindName

/-- The parameters, and what closes them. -/
def paramLines : List Line :=
  match v.params.texts with
  | [] => []
  | x :: xs => (x :: xs).map (fun x => "    ".toList ++ (x ++ [','])) ++
      [memberIndent ++ (v.params.closing ++ (" = ".toList ++ (v.target.text ++ [';'])))]

def lines : List Line := docLines memberIndent v.docs ++ v.declaringLine :: v.paramLines

end UnionVariant

/-! ## Declarations and what may happen to them -/

inductive Decl where
  | function (f : Function) (l : Layout)
  | klass (c : Class)
  | enum (e : Enum)
  | field (f : Field)
  | enumVariant (v : EnumVariant)
  | getter (g : Getter)
  | unionVariant (v : UnionVariant)

def Decl.lines : Decl → List Line
  | function f l => f.lines l
  | klass c => c.lines
  | enum e => e.lines
  | field f => f.lines
  | enumVariant v => v.lines
  | getter g => g.lines
  | unionVariant v => v.lines

/-- The line with the name. -/
def Decl.declaringLine : Decl → Line
  | function f l => f.declaringLine l
  | klass c => c.declaringLine
  | enum e => e.declaringLine
  | field f => f.declaringLine
  | enumVariant v => v.declaringLine
  | getter g => g.declaringLine
  | unionVariant v => v.declaringLine

/-- One of the parameters is removed, or is another one. -/
def EditsOne {α : Type} (ps ps' : List α) : Prop :=
  ∃ pre p, ∃ q : Option α, ∃ post, q ≠ some p ∧ ps = pre ++ p :: post ∧ ps' = pre ++ (q.toList ++ post)

def UnionParams.EditsOne : UnionParams → UnionParams → Prop
  | named ps, named ps' => GeneratedDart.EditsOne ps ps'
  | positional ps, positional ps' => GeneratedDart.EditsOne ps ps'
  | _, _ => False

/-- A break of the contract: a declaration that is gone, removed or renamed or retyped, or an edit of one
parameter. -/
inductive Change where
  | remove (d : Decl) (instead : List Line) (gone : d.declaringLine ∉ instead)
  | editFunction (f : Function) (ps : List Param) (edit : EditsOne f.params ps) (l l' : Layout)
  | editVariant (v : UnionVariant) (ps : UnionParams) (edit : v.params.EditsOne ps)

/-- The lines before the change. -/
def Change.old : Change → List Line
  | remove d _ _ => d.lines
  | editFunction f _ _ l _ => f.lines l
  | editVariant v _ _ => v.lines

/-- The lines after it. -/
def Change.new : Change → List Line
  | remove _ instead _ => instead
  | editFunction f ps _ _ l' => { f with params := ps }.lines l'
  | editVariant v ps _ => { v with params := ps }.lines

end CwTariWallet.GeneratedDart
