import AccessChecks.Code.Basic
import AccessChecks.Code.Literal
import AccessChecks.Layout.Box

/-!
# Code laid out on a page

## Expressions

Each construct becomes words, breaks and boxes.  A chain of field accesses and
method calls is one box that breaks in front of the dots.  An expression at the
start of a line keeps a short receiver and its first dot together.

## Statements

Statements stand on lines of their own, indented by their depth.
-/

namespace AccessChecks

open Layout

def CodePath.text (p : CodePath) : String :=
  (if p.isGlobal then "::" else "") ++ "::".intercalate p.segments

namespace Expr

/-- The expression ends in a chain, so a block behind it is set off by a break. -/
def isLoose : Expr → Bool
  | binary _ _ _ | field _ _ | method _ _ _ => true
  | unary _ e => e.isLoose
  | name _ | item _ | text _ | number _ | call _ _ | closure _ _ | pair _ _
  | record _ _ | choice _ _ _ => false

def isSoleArgument : Expr → Bool
  | closure _ _ | record _ _ | pair _ _ => true
  | name _ | item _ | text _ | number _ | field _ _ | method _ _ _ | call _ _
  | unary _ _ | binary _ _ _ | choice _ _ _ => false

def isPlainBody : Expr → Bool
  | pair _ _ | call _ _ => true
  | name _ | item _ | text _ | number _ | field _ _ | method _ _ _
  | closure _ _ | unary _ _ | binary _ _ _ | record _ _ | choice _ _ _ => false

def isChain : Expr → Bool
  | field _ _ | method _ _ _ => true
  | name _ | item _ | text _ | number _ | call _ _ | closure _ _ | pair _ _
  | unary _ _ | binary _ _ _ | record _ _ | choice _ _ _ => false

/-- The expression goes on in front of a dot without a box of its own. -/
def continuesChain : Expr → Bool
  | field _ _ | method _ _ _ | call _ _ => true
  | name _ | item _ | text _ | number _ | closure _ _ | pair _ _ | unary _ _
  | binary _ _ _ | record _ _ | choice _ _ _ => false

def isShortName : Expr → Bool
  | name x => x.utf8ByteSize ≤ 4
  | _ => false

end Expr

namespace Layout

def ofPattern : Pattern → List Mark
  | .name x => [.word x]
  | .pair x y =>
      .word "(" :: commaBox [[.word x], [.word y]] ++ [.word ")"]

def condition (loose : Bool) (content : List Mark) : List Mark :=
  box 0 (content ++ [if loose then space else .word " "])

def braced (statements : List Mark) : List Mark :=
  if statements.isEmpty then [.word "\x7b\x7d"]
  else
    [.word "\x7b", hardBreak] ++ statements ++ [.adjust (-4), .word "\x7d"]

def enclose (e : Expr) (inside : List Mark) : List Mark :=
  if e.isChain then box 4 inside else inside

def encloseReceiver (e : Expr) (inside : List Mark) : List Mark :=
  if e.continuesChain then inside else box (-4) inside

def dotted (joined : Bool) (x : String) : List Mark :=
  (if joined then [] else [zeroBreak]) ++ [.word ".", .word x]

def arguments (args : List Expr) (marks : List (List Mark)) : List Mark :=
  let content :=
    match args, marks with
    | [e], [m] => if e.isSoleArgument then m else commaBox marks
    | [], _ => []
    | _, _ => commaBox marks
  .word "(" :: content ++ [.word ")"]

def resultBlock (content : List Mark) : List Mark :=
  [.word "\x7b", space] ++ fillBox 0 content ++
    [space, .adjust (-4), .word "\x7d"]

end Layout

mutual

def Expr.inside (runtime : CodePath) (atStart outermost : Bool) :
    Expr → List Mark
  | .name x => [.word x]
  | .item i => [.word (i.path runtime).text]
  | .text s => [.word (literal s)]
  | .number n => [.word (toString n)]
  | .field base x =>
      encloseReceiver base (base.inside runtime atStart false) ++
        dotted (atStart && base.isShortName) x
  | .method receiver m args =>
      let joined := atStart && receiver.isShortName
      encloseReceiver receiver (receiver.inside runtime atStart false) ++
        dotted joined m.text ++
        box (if joined && outermost then -4 else 0)
          (arguments args (Expr.marksAll runtime args))
  | .call function args =>
      .word (function.path runtime).text ::
        arguments args (Expr.marksAll runtime args)
  | .closure parameter body =>
      let content := enclose body (body.inside runtime false true)
      fillBox 0
        (box 4
            ([.word "|", zeroBreak] ++ ofPattern parameter ++
              [.word "|", space, .adjust (-4)]) ++
          [neverBreak] ++
          (if body.isPlainBody then content
            else
              box 4
                ([.brk { before := some .opening }] ++ content ++
                  [.brk { shift := -4, behind := some .closing }])))
  | .pair a b =>
      .word "(" ::
        commaBox
          [enclose a (a.inside runtime false true),
            enclose b (b.inside runtime false true)] ++
        [.word ")"]
  | .unary op e =>
      .word op.symbol :: enclose e (e.inside runtime false true)
  | .binary op a b =>
      fillBox 4
        (fillBox (-4) (enclose a (a.inside runtime false true)) ++
          [space, .word op.symbol, .word " "] ++
          enclose b (b.inside runtime false true))
  | .record type fields =>
      .start 4 true :: fillBox (-4) [.word (type.path runtime).text] ++
        [.word " \x7b", .brk { blank := 1, ifNonempty := true }] ++
        Expr.marksRecord runtime fields ++
        [.adjust (-4), .stopWithin 34, .word "\x7d"]
  | .choice test yes no =>
      box 4
        (.word "if " ::
          box (-4)
            (condition test.isLoose
              (enclose test (test.inside runtime false true))) ++
          resultBlock (enclose yes (yes.inside runtime true true)) ++
          [.word " else "] ++
          resultBlock (enclose no (no.inside runtime true true)))

def Expr.marksAll (runtime : CodePath) : List Expr → List (List Mark)
  | [] => []
  | e :: rest =>
      enclose e (e.inside runtime false true) :: Expr.marksAll runtime rest

/-- A field that takes the variable of its own name is written short. -/
def Expr.marksRecord (runtime : CodePath) : List (String × Expr) → List Mark
  | [] => []
  | (x, e) :: rest =>
      let value :=
        .word ": " :: fillBox 0 (enclose e (e.inside runtime false true))
      let shown :=
        match e with
        | .name y => if x = y then [] else value
        | _ => value
      .word x :: shown ++ commaSpace rest.isEmpty ++
        Expr.marksRecord runtime rest

end

def Expr.marks (runtime : CodePath) (atStart : Bool) (e : Expr) : List Mark :=
  enclose e (e.inside runtime atStart true)

mutual

def Stmt.marks (runtime : CodePath) : Stmt → List Mark
  | .bind mutable x element value =>
      let type :=
        match element with
        | some item =>
            .word ": Vec<" :: commaBox [[.word (item.path runtime).text]] ++
              [.word ">"]
        | none => []
      fillBox 0
          (.word "let " :: (if mutable then [.word "mut "] else []) ++
            [.word x] ++ type ++ [.word " = ", neverBreak] ++
            value.marks runtime false) ++
        [.word ";", hardBreak]
  | .assign x value =>
      fillBox 0
          (fillBox 0
              ([.word x, .word " = ", neverBreak] ++
                value.marks runtime false) ++
            [.word ";"]) ++
        [hardBreak]
  | .loop x elements body =>
      fillBox 0
          (fillBox 0
            ([.word "for ", .word (x.getD "_"), .word " in ", neverBreak] ++
              condition elements.isLoose (elements.marks runtime false) ++
              [.word "\x7b", neverBreak] ++
              box 4
                (openingBreak :: Stmt.marksAll runtime body ++
                  [.adjust (-4)]) ++
              [.word "\x7d"])) ++
        [hardBreak]
  | .guard test body =>
      fillBox 0
          (box 4
            (.word "if " ::
              box (-4)
                (condition test.isLoose (test.marks runtime false)) ++
              braced (Stmt.marksAll runtime body))) ++
        [hardBreak]
  | .unwrap x value body =>
      let binding :=
        fillBox 0
          (.word "let " ::
            fillBox 0
              (.word "Some(" :: commaBox [[.word x]] ++ [.word ")"]) ++
            [.word " = ", neverBreak] ++
            fillBox 0 (value.marks runtime false))
      fillBox 0
          (box 4
            (.word "if " :: box (-4) (condition value.isLoose binding) ++
              braced (Stmt.marksAll runtime body))) ++
        [hardBreak]
  | .eval e =>
      fillBox 0 (e.marks runtime true ++ [.word ";"]) ++ [hardBreak]
  | .block body =>
      fillBox 0
          (box 4
            (.word "\x7b" :: space :: Stmt.marksAll runtime body ++
              [.adjust (-4), .word "\x7d"])) ++
        [hardBreak]

def Stmt.marksAll (runtime : CodePath) : List Stmt → List Mark
  | [] => []
  | s :: rest => s.marks runtime ++ Stmt.marksAll runtime rest

end

def Body.marks (runtime : CodePath) (b : Body) : List Mark :=
  Stmt.marksAll runtime b.statements ++
    fillBox 0 (b.result.marks runtime true) ++ [hardBreak]

def Implementation.marks (runtime : CodePath) (i : Implementation) :
    List Mark :=
  let type : CodePath := ⟨false, i.type⟩
  [.word "#[allow("] ++
    box 4
      [zeroBreak, .word "unused_variables", .word ",", space,
        .word "unused_mut", .word ",", space, .word "clippy::all", zeroBreak,
        .adjust (-4)] ++
    [.word ")]", hardBreak] ++
    box 4
      (fillBox (-4)
          (box 4 [.word "impl"] ++
            [.word " ", .word (Item.checksInterface.path runtime).text, space,
              .word "for ", .word type.text]) ++
        [.word " \x7b", openingBreak] ++
        box 4
          ([.word "fn get_checks(", neverBreak] ++
            box 0 ([zeroBreak, .word "&self"] ++ comma true ++ [.adjust (-4)]) ++
            [.word ")"] ++
            box (-4)
              [.word (" -> " ++ (Item.checkConfig.path runtime).text)] ++
            [.word " \x7b", openingBreak] ++ i.body.marks runtime ++
            [.adjust (-4)]) ++
        [.word "\x7d", hardBreak, .adjust (-4)]) ++
    [.word "\x7d", hardBreak]

def Implementation.page (runtime : CodePath)
    (implementations : List Implementation) : String :=
  Layout.page (box 0 (implementations.flatMap (marks runtime)))

end AccessChecks
