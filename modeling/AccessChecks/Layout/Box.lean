/-!
# Boxes and breaks

## Tokens

A page is laid out from words, breaks and nested boxes.  A box that fits on the
rest of its line is written on that line.  Otherwise a consistent box breaks its
line at each of its breaks, and an inconsistent box only where the part up to the
next break does not fit.

## Widths

The width of a box or break is that of everything up to the break that follows
it.  A line that was broken leaves at least `minimalSpace` columns, however deep
it is indented.
-/

namespace AccessChecks

namespace Layout

def margin : Int := 89

def minimalSpace : Int := 60

def infinity : Int := 0xffff

/-- What is written only where a line is broken. -/
inductive Sign where
  | comma
  | opening
  | closing
deriving DecidableEq, Repr, Inhabited

def Sign.text : Sign → String
  | comma => ","
  | opening => "\x7b"
  | closing => "\x7d"

structure Break where
  blank : Nat := 0
  shift : Int := 0
  before : Option Sign := none
  behind : Option Sign := none
  never : Bool := false
  /-- The break is dropped in front of the end of its box. -/
  ifNonempty : Bool := false
deriving DecidableEq, Repr, Inhabited

inductive Mark where
  | word (text : String)
  | brk (b : Break)
  | start (shift : Int) (consistent : Bool)
  | stop
  /-- The end of a box that is broken where it is wider than the limit. -/
  | stopWithin (limit : Int)
  /-- Moves the break that was emitted last. -/
  | adjust (shift : Int)
deriving DecidableEq, Repr, Inhabited

/-!
## Cleaning

A box that holds a single break only is dropped, and so is an optional break at
the end of its box.
-/

def emit (emitted : List Mark) (m : Mark) : List Mark :=
  match m, emitted with
  | .adjust shift, .brk b :: rest => .brk { b with shift := b.shift + shift } :: rest
  | .adjust _, _ => emitted
  | .stop, .brk _ :: .start _ _ :: rest => rest
  | .stopWithin _, .brk _ :: .start _ _ :: rest => rest
  | .stop, .brk b :: rest => if b.ifNonempty then m :: rest else m :: emitted
  | .stopWithin _, .brk b :: rest =>
      if b.ifNonempty then m :: rest else m :: emitted
  | _, _ => m :: emitted

def clean (marks : List Mark) : List Mark :=
  (marks.foldl emit []).reverse

/-!
## Measuring

The widths of the marks are found in one pass.  A stack holds the positions of
marks whose width is still open; a negative width of an open mark is the width of
all that came before it.
-/

structure Measure where
  marks : Array Mark := #[]
  widths : Array Int := #[]
  opened : List Nat := []
  total : Int := 1
deriving Repr, Inhabited

namespace Measure

def add (m : Measure) (mark : Mark) (width : Int) : Measure :=
  { m with marks := m.marks.push mark, widths := m.widths.push width }

def addOpen (m : Measure) (mark : Mark) (width : Int) : Measure :=
  { m.add mark width with opened := m.marks.size :: m.opened }

def widthAt (m : Measure) (position : Nat) : Int :=
  m.widths.getD position 0

def setWidth (m : Measure) (position : Nat) (width : Int) : Measure :=
  { m with widths := m.widths.setIfInBounds position width }

/-- Settles the widths of the marks that end here, given how many of their boxes
are closed, and returns the positions that stay open. -/
def settle (m : Measure) : (depth : Nat) → List Nat → Measure × List Nat
  | _, [] => (m, [])
  | depth, position :: rest =>
      let grown := m.setWidth position (m.widthAt position + m.total)
      match m.marks.getD position .stop with
      | .start _ _ =>
          match depth with
          | 0 => (m, position :: rest)
          | depth + 1 => grown.settle depth rest
      | .stop | .stopWithin _ => (m.setWidth position 1).settle (depth + 1) rest
      | .word _ | .brk _ | .adjust _ =>
          match depth with
          | 0 => (grown, rest)
          | depth + 1 => grown.settle (depth + 1) rest

def settled (m : Measure) : Measure :=
  let result := m.settle 0 m.opened
  { result.1 with opened := result.2 }

def currentBox (m : Measure) : (depth : Nat) → List Nat → Option Nat
  | _, [] => none
  | depth, position :: rest =>
      match m.marks.getD position .stop with
      | .start _ _ =>
          match depth with
          | 0 => some position
          | depth + 1 => m.currentBox depth rest
      | .stop | .stopWithin _ => m.currentBox (depth + 1) rest
      | .word _ | .brk _ | .adjust _ => m.currentBox depth rest

def step (m : Measure) (mark : Mark) : Measure :=
  match mark with
  | .word text =>
      let width : Int := text.utf8ByteSize
      { m.add mark width with total := m.total + width }
  | .start _ _ => m.addOpen mark (-m.total)
  | .stop => m.addOpen mark (-1)
  | .stopWithin limit =>
      let tooWide :=
        (m.currentBox 0 m.opened).any fun position =>
          m.widthAt position + m.total > limit
      let m := if tooWide then { m with total := m.total + infinity } else m
      m.addOpen .stop (-1)
  | .brk b =>
      let m := m.settled
      { m.addOpen mark (-m.total) with total := m.total + b.blank }
  | .adjust _ => m

end Measure

def measure (marks : List Mark) : List (Mark × Int) :=
  let m := (marks.foldl Measure.step {}).settled
  m.marks.toList.zip m.widths.toList

/-!
## Writing
-/

inductive Frame where
  | fits
  | broken (indent : Int) (consistent : Bool)
deriving DecidableEq, Repr, Inhabited

structure Page where
  parts : List String := []
  space : Int := margin
  indent : Int := 0
  pending : Int := 0
  frames : List Frame := []
deriving Repr, Inhabited

namespace Page

def blanks (count : Int) : String :=
  String.ofList (List.replicate count.toNat ' ')

def write (p : Page) (text : String) : Page :=
  { p with
    parts := text :: blanks p.pending :: p.parts
    pending := 0
    space := p.space - text.utf8ByteSize }

def staysOnLine (p : Page) (b : Break) (width : Int) : Bool :=
  b.never ||
    match p.frames.head?.getD (.broken 0 false) with
    | .fits => true
    | .broken _ consistent => !consistent && width ≤ p.space

def writeSign (p : Page) (sign : Option Sign) : Page :=
  sign.elim p fun sign => p.write sign.text

def breakLine (p : Page) (b : Break) : Page :=
  let p := p.writeSign b.before
  let indent := p.indent + b.shift
  let p :=
    { p with
      parts := "\n" :: p.parts
      pending := indent
      space := max (margin - indent) minimalSpace }
  p.writeSign b.behind

def step (p : Page) : Mark × Int → Page
  | (.word text, _) => p.write text
  | (.start shift consistent, width) =>
      if width > p.space then
        { p with
          frames := .broken p.indent consistent :: p.frames
          indent := p.indent + shift }
      else { p with frames := .fits :: p.frames }
  | (.stop, _) | (.stopWithin _, _) =>
      match p.frames with
      | .broken indent _ :: rest => { p with frames := rest, indent := indent }
      | .fits :: rest => { p with frames := rest }
      | [] => p
  | (.brk b, width) =>
      if p.staysOnLine b width then
        { p with pending := p.pending + b.blank, space := p.space - b.blank }
      else p.breakLine b
  | (.adjust _, _) => p

def text (p : Page) : String :=
  String.join p.parts.reverse

end Page

def page (marks : List Mark) : String :=
  ((measure (clean marks)).foldl Page.step {}).text

/-!
## Usual marks
-/

def zeroBreak : Mark := .brk {}

def space : Mark := .brk { blank := 1 }

def hardBreak : Mark := .brk { blank := infinity.toNat }

def openingBreak : Mark :=
  .brk { blank := infinity.toNat, ifNonempty := true }

def neverBreak : Mark := .brk { never := true }

/-- A comma behind an item.  Behind the last one it is written only if the line is
broken. -/
def comma (isLast : Bool) : List Mark :=
  if isLast then [.brk { before := some .comma }] else [.word ",", space]

def commaSpace (isLast : Bool) : List Mark :=
  if isLast then [.brk { blank := 1, before := some .comma }] else [.word ",", space]

/-- A box that breaks at all of its breaks or at none. -/
def box (shift : Int) (content : List Mark) : List Mark :=
  .start shift true :: content ++ [.stop]

/-- A box that breaks only where it must. -/
def fillBox (shift : Int) (content : List Mark) : List Mark :=
  .start shift false :: content ++ [.stop]

def commaBox (items : List (List Mark)) : List Mark :=
  let last := items.length - 1
  let content :=
    items.zipIdx.flatMap fun item => item.1 ++ comma (item.2 == last)
  box 4 (zeroBreak :: content ++ [.adjust (-4)])

end Layout

end AccessChecks
