import AccessChecks.Code.Basic
import AccessChecks.Code.Literal

/-!
# Code as tokens

## Token trees

Code is a sequence of words and of groups in brackets.  Its plain text puts one
space between neighbours; only braces have spaces inside.

## Tokens of code

Every construct of the code language has one spelling.
-/

namespace AccessChecks

inductive Token where
  | word (text : String)
  | parens (content : List Token)
  | brackets (content : List Token)
  | braces (content : List Token)
deriving Repr, Inhabited

mutual

def Token.text : Token → String
  | .word text => text
  | .parens content => "(" ++ Token.textAll content ++ ")"
  | .brackets content => "[" ++ Token.textAll content ++ "]"
  | .braces [] => "\x7b \x7d"
  | .braces (t :: rest) => "\x7b " ++ Token.textAll (t :: rest) ++ " \x7d"

def Token.textAll : List Token → String
  | [] => ""
  | [t] => t.text
  | t :: u :: rest => t.text ++ " " ++ Token.textAll (u :: rest)

end

namespace Token

def separate (separator : Token) : List (List Token) → List Token
  | [] => []
  | [part] => part
  | part :: next :: rest =>
      part ++ separator :: separate separator (next :: rest)

def comma : Token := word ","

def semicolon : Token := word ";"

def ofPath (p : CodePath) : List Token :=
  let names := separate (word "::") (p.segments.map fun s => [word s])
  if p.isGlobal then word "::" :: names else names

def ofPattern : Pattern → List Token
  | .name x => [word x]
  | .pair x y => [parens [word x, comma, word y]]

end Token

def Item.tokens (runtime : List Token) (item : Item) : List Token :=
  let (isBelow, names) := item.place
  if isBelow then
    runtime ++ names.flatMap fun name => [Token.word "::", Token.word name]
  else Token.ofPath ⟨false, names⟩

def Token.listType (runtime : List Token) (element : Item) : List Token :=
  [word "Vec", word "<"] ++ element.tokens runtime ++ [word ">"]

open Token

mutual

def Expr.tokens (runtime : List Token) : Expr → List Token
  | .name x => [word x]
  | .item i => i.tokens runtime
  | .text s => [word (literal s)]
  | .number n => [word (toString n)]
  | .field base x => base.tokens runtime ++ [word ".", word x]
  | .method receiver m args =>
      receiver.tokens runtime ++
        [word ".", word m.text,
          parens (separate comma (Expr.tokensAll runtime args))]
  | .call function args =>
      function.tokens runtime ++
        [parens (separate comma (Expr.tokensAll runtime args))]
  | .closure parameter body =>
      [word "|"] ++ ofPattern parameter ++ [word "|"] ++ body.tokens runtime
  | .pair a b =>
      [parens (a.tokens runtime ++ comma :: b.tokens runtime)]
  | .unary op e => word op.symbol :: e.tokens runtime
  | .binary op a b =>
      a.tokens runtime ++ word op.symbol :: b.tokens runtime
  | .record type fields =>
      type.tokens runtime ++
        [braces (separate comma (Expr.tokensRecord runtime fields))]
  | .choice test yes no =>
      word "if" :: test.tokens runtime ++
        [braces (yes.tokens runtime), word "else", braces (no.tokens runtime)]

def Expr.tokensAll (runtime : List Token) : List Expr → List (List Token)
  | [] => []
  | e :: rest => e.tokens runtime :: Expr.tokensAll runtime rest

/-- A field that takes the variable of its own name is written short. -/
def Expr.tokensRecord (runtime : List Token) :
    List (String × Expr) → List (List Token)
  | [] => []
  | (x, e) :: rest =>
      (match e with
        | .name y =>
            if x = y then [word x] else [word x, word ":", word y]
        | e => [word x, word ":"] ++ e.tokens runtime) ::
        Expr.tokensRecord runtime rest

end

mutual

def Stmt.tokens (runtime : List Token) : Stmt → List Token
  | .bind mutable x element value =>
      [word "let"] ++ (if mutable then [word "mut"] else []) ++ [word x] ++
        (match element with
          | some item => word ":" :: listType runtime item
          | none => []) ++
        [word "="] ++ value.tokens runtime ++ [semicolon]
  | .assign x value =>
      [word x, word "="] ++ value.tokens runtime ++ [semicolon]
  | .loop x elements body =>
      [word "for", word (x.getD "_"), word "in"] ++ elements.tokens runtime ++
        [braces (Stmt.tokensAll runtime body)]
  | .guard test body =>
      word "if" :: test.tokens runtime ++
        [braces (Stmt.tokensAll runtime body)]
  | .unwrap x value body =>
      [word "if", word "let", word "Some", parens [word x], word "="] ++
        value.tokens runtime ++ [braces (Stmt.tokensAll runtime body)]
  | .eval e => e.tokens runtime ++ [semicolon]
  | .block body => [braces (Stmt.tokensAll runtime body)]

def Stmt.tokensAll (runtime : List Token) : List Stmt → List Token
  | [] => []
  | s :: rest => s.tokens runtime ++ Stmt.tokensAll runtime rest

end

def Body.tokens (runtime : List Token) (b : Body) : List Token :=
  Stmt.tokensAll runtime b.statements ++ b.result.tokens runtime

def allowedLints : List CodePath :=
  [⟨false, ["unused_variables"]⟩, ⟨false, ["unused_mut"]⟩,
    ⟨false, ["clippy", "all"]⟩]

def Implementation.tokens (runtime : List Token) (i : Implementation) :
    List Token :=
  [word "#",
      brackets
        [word "allow", parens (separate comma (allowedLints.map ofPath))],
      word "impl"] ++
    Item.checksInterface.tokens runtime ++ [word "for"] ++
    ofPath ⟨false, i.type⟩ ++
    [braces
      ([word "fn", word "get_checks", parens [word "&", word "self"],
          word "->"] ++
        Item.checkConfig.tokens runtime ++
        [braces (i.body.tokens runtime)])]

end AccessChecks
