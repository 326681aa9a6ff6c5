import AccessChecks.Code.Layout
import AccessChecks.Proofs.LoopNames

/-!
# Words on a page

## Layout

A page has the words of its marks in their order.  What stands around them is made of
blanks, ends of lines, and the signs of breaks: commas and braces.

## Code

The page of implementations has the head of each of them, and behind it the heads of its
loops in the order of the text.
-/

namespace AccessChecks

namespace Layout

/-!
## Layout
-/

def Mark.word? : Mark → Option String
  | word text => some text
  | brk _ | start _ _ | stop | stopWithin _ | adjust _ => none

def wordsOf (marks : List Mark) : List String :=
  marks.filterMap Mark.word?

theorem wordsOf_cons (m : Mark) (rest : List Mark) :
    wordsOf (m :: rest) = m.word?.toList ++ wordsOf rest := by
  rw [wordsOf, List.filterMap_cons]
  cases m.word? <;> rfl

def IsFiller (c : Char) : Prop :=
  c = ' ' ∨ c = '\n' ∨ c = ',' ∨ c = '\x7b' ∨ c = '\x7d'

/-- The text is made of the words, in their order, and of layout around them. -/
inductive Holds : List String → List Char → Prop where
  | nil : Holds [] []
  | filler {words : List String} {text : List Char} {c : Char} :
      IsFiller c → Holds words text → Holds words (c :: text)
  | word {words : List String} {text : List Char} (word : String) :
      Holds words text → Holds (word :: words) (word.toList ++ text)

namespace Holds

theorem append {words more : List String} {text rest : List Char}
    (h : Holds words text) (hmore : Holds more rest) :
    Holds (words ++ more) (text ++ rest) := by
  induction h with
  | nil => exact hmore
  | filler hc _ ih => exact filler hc ih
  | word first _ ih =>
      rw [List.append_assoc]
      exact word first ih

theorem of_fillers {text : List Char} (h : ∀ c ∈ text, IsFiller c) : Holds [] text := by
  induction text with
  | nil => exact nil
  | cons c rest ih =>
      exact filler (h c List.mem_cons_self) (ih fun d hd => h d (List.mem_cons_of_mem c hd))

theorem singleton (first : String) : Holds [first] first.toList := by
  have h := word first nil
  rwa [List.append_nil] at h

end Holds

theorem holds_blanks (count : Int) : Holds [] (Page.blanks count).toList := by
  apply Holds.of_fillers
  intro c hc
  rw [Page.blanks, String.toList_ofList] at hc
  exact Or.inl (List.eq_of_mem_replicate hc)

theorem holds_sign (sign : Sign) : Holds [] sign.text.toList := by
  apply Holds.of_fillers
  intro c hc
  cases sign with
  | comma => exact Or.inr (Or.inr (Or.inl (List.mem_singleton.mp hc)))
  | opening => exact Or.inr (Or.inr (Or.inr (Or.inl (List.mem_singleton.mp hc))))
  | closing => exact Or.inr (Or.inr (Or.inr (Or.inr (List.mem_singleton.mp hc))))

namespace Page

/-- The second page goes on from the first one with a text that holds the words. -/
def Adds (words : List String) (p q : Page) : Prop :=
  ∃ added, q.text.toList = p.text.toList ++ added ∧ Holds words added

theorem adds_of_parts_eq {p q : Page} (h : q.parts = p.parts) : Adds [] p q := by
  refine ⟨[], ?_, Holds.nil⟩
  rw [text, text, h, List.append_nil]

theorem Adds.trans {words more : List String} {p q r : Page} (first : Adds words p q)
    (second : Adds more q r) : Adds (words ++ more) p r := by
  rcases first with ⟨added, hq, hadded⟩
  rcases second with ⟨rest, hr, hrest⟩
  refine ⟨added ++ rest, ?_, hadded.append hrest⟩
  rw [hr, hq, List.append_assoc]

theorem adds_part {p q : Page} {part : String} {words : List String}
    (h : q.parts = part :: p.parts) (hpart : Holds words part.toList) : Adds words p q := by
  refine ⟨part.toList, ?_, hpart⟩
  rw [text, text, h]
  simp [String.join]

theorem adds_write (p : Page) {words : List String} {text : String}
    (h : Holds words text.toList) : Adds words p (p.write text) := by
  have hblanks : Adds [] p { p with parts := blanks p.pending :: p.parts } :=
    adds_part rfl (holds_blanks _)
  exact hblanks.trans (adds_part rfl h)

theorem adds_writeSign (p : Page) (sign : Option Sign) : Adds [] p (p.writeSign sign) := by
  cases sign with
  | none => exact adds_of_parts_eq rfl
  | some sign => exact adds_write p (holds_sign sign)

theorem adds_breakLine (p : Page) (b : Break) : Adds [] p (p.breakLine b) := by
  have hline : Holds [] "\n".toList :=
    Holds.filler (Or.inr (Or.inl rfl)) Holds.nil
  have hbefore := adds_writeSign p b.before
  have hbroken : Adds [] (p.writeSign b.before)
      { p.writeSign b.before with
        parts := "\n" :: (p.writeSign b.before).parts
        pending := (p.writeSign b.before).indent + b.shift
        space := max (margin - ((p.writeSign b.before).indent + b.shift)) minimalSpace } :=
    adds_part rfl hline
  exact (hbefore.trans hbroken).trans (adds_writeSign _ b.behind)

theorem adds_step (p : Page) (m : Mark × Int) : Adds m.1.word?.toList p (p.step m) := by
  rcases m with ⟨mark, width⟩
  cases mark with
  | word text => exact adds_write p (Holds.singleton text)
  | brk b =>
      rw [step]
      split
      · exact adds_of_parts_eq rfl
      · exact adds_breakLine p b
  | start shift consistent =>
      rw [step]
      split
      · exact adds_of_parts_eq rfl
      · exact adds_of_parts_eq rfl
  | stop | stopWithin _ =>
      rw [step]
      split
      · exact adds_of_parts_eq rfl
      · exact adds_of_parts_eq rfl
      · exact adds_of_parts_eq rfl
  | adjust shift => exact adds_of_parts_eq rfl

theorem adds_foldl (p : Page) (marks : List (Mark × Int)) :
    Adds (wordsOf (marks.map Prod.fst)) p (marks.foldl step p) := by
  induction marks generalizing p with
  | nil => exact adds_of_parts_eq rfl
  | cons m rest ih =>
      rw [List.map_cons, wordsOf_cons]
      exact (adds_step p m).trans (ih _)

end Page

/-!
### Cleaning and measuring
-/

theorem wordsOf_emit (emitted : List Mark) (m : Mark) :
    wordsOf (emit emitted m) = m.word?.toList ++ wordsOf emitted := by
  unfold emit
  split
  case h_5 | h_6 =>
    split
    · simp [wordsOf_cons, Mark.word?]
    · simp [wordsOf_cons, Mark.word?]
  all_goals simp [wordsOf_cons, Mark.word?]

theorem wordsOf_foldl_emit (emitted marks : List Mark) :
    wordsOf (marks.foldl emit emitted).reverse =
      wordsOf emitted.reverse ++ wordsOf marks := by
  induction marks generalizing emitted with
  | nil => exact (List.append_nil _).symm
  | cons m rest ih =>
      have hreverse : wordsOf (emit emitted m).reverse =
          wordsOf emitted.reverse ++ m.word?.toList := by
        rw [wordsOf, List.filterMap_reverse, ← wordsOf, wordsOf_emit, List.reverse_append,
          wordsOf, wordsOf, List.filterMap_reverse]
        cases m.word? <;> rfl
      rw [List.foldl_cons, ih, hreverse, wordsOf_cons, List.append_assoc]

theorem wordsOf_clean (marks : List Mark) : wordsOf (clean marks) = wordsOf marks :=
  wordsOf_foldl_emit [] marks

namespace Measure

structure Covers (m : Measure) (words : List String) : Prop where
  widths : m.widths.size = m.marks.size
  words : wordsOf m.marks.toList = words

theorem size_setWidth (m : Measure) (position : Nat) (width : Int) :
    (m.setWidth position width).widths.size = m.widths.size :=
  Array.size_setIfInBounds

theorem settle_keeps (m : Measure) (depth : Nat) (opened : List Nat) :
    (m.settle depth opened).1.marks = m.marks ∧
      (m.settle depth opened).1.widths.size = m.widths.size := by
  fun_induction settle m depth opened with
  | case1 | case2 => exact ⟨rfl, rfl⟩
  | case6 | case8 | case10 => exact ⟨rfl, size_setWidth _ _ _⟩
  | case3 | case4 | case5 | case7 | case9 | case11 =>
      rename_i ih
      exact ⟨ih.1, ih.2.trans (size_setWidth _ _ _)⟩

variable {m : Measure} {words : List String}

theorem Covers.of_eq {other : Measure} (h : m.Covers words) (marks : other.marks = m.marks)
    (widths : other.widths = m.widths) : other.Covers words := by
  constructor
  · rw [marks, widths, h.widths]
  · rw [marks, h.words]

theorem Covers.settled (h : m.Covers words) : m.settled.Covers words := by
  have hkeeps := m.settle_keeps 0 m.opened
  constructor
  · rw [Measure.settled, hkeeps.2, hkeeps.1]
    exact h.widths
  · rw [Measure.settled, hkeeps.1]
    exact h.words

theorem Covers.add (h : m.Covers words) (mark : Mark) (width : Int) :
    (m.add mark width).Covers (words ++ mark.word?.toList) := by
  constructor
  · rw [Measure.add, Array.size_push, Array.size_push, h.widths]
  · rw [Measure.add, Array.toList_push, wordsOf, List.filterMap_append, ← wordsOf, h.words]
    cases mark <;> rfl

theorem Covers.step (h : m.Covers words) (mark : Mark) :
    (m.step mark).Covers (words ++ mark.word?.toList) := by
  cases mark with
  | word text => exact (h.add (.word text) _).of_eq rfl rfl
  | start shift consistent => exact (h.add (.start shift consistent) _).of_eq rfl rfl
  | stop => exact (h.add .stop _).of_eq rfl rfl
  | stopWithin limit =>
      have hadd := h.add .stop (-1)
      rw [Measure.step]
      split
      · exact hadd.of_eq rfl rfl
      · exact hadd.of_eq rfl rfl
  | brk b => exact (h.settled.add (.brk b) _).of_eq rfl rfl
  | adjust shift =>
      rw [Mark.word?, Option.toList_none, List.append_nil]
      exact h

theorem Covers.foldl (h : m.Covers words) (marks : List Mark) :
    (marks.foldl Measure.step m).Covers (words ++ wordsOf marks) := by
  induction marks generalizing m words with
  | nil =>
      rw [wordsOf, List.filterMap_nil, List.append_nil]
      exact h
  | cons mark rest ih =>
      rw [wordsOf_cons, ← List.append_assoc]
      exact ih (h.step mark)

end Measure

theorem wordsOf_measure (marks : List Mark) :
    wordsOf ((measure marks).map Prod.fst) = wordsOf marks := by
  have hempty : Measure.Covers {} [] := ⟨rfl, rfl⟩
  have hcovers := (hempty.foldl marks).settled
  rw [measure, List.map_fst_zip]
  · exact hcovers.words
  · exact Nat.le_of_eq hcovers.widths.symm

theorem holds_page (marks : List Mark) : Holds (wordsOf marks) (page marks).toList := by
  rcases Page.adds_foldl {} (measure (clean marks)) with ⟨added, htext, hadded⟩
  rw [wordsOf_measure, wordsOf_clean] at hadded
  have hempty : (Page.text {}).toList = [] := rfl
  rw [page, htext, hempty]
  exact hadded

/-!
## Code
-/

def Shows (words : List String) (marks : List Mark) : Prop :=
  words.Sublist (wordsOf marks)

namespace Shows

variable {words more : List String} {marks rest : List Mark}

theorem nil (marks : List Mark) : Shows [] marks :=
  List.nil_sublist _

theorem append (h : Shows words marks) (hmore : Shows more rest) :
    Shows (words ++ more) (marks ++ rest) := by
  have hwords : wordsOf (marks ++ rest) = wordsOf marks ++ wordsOf rest :=
    List.filterMap_append
  rw [Shows, hwords]
  exact List.Sublist.append h hmore

theorem after (h : Shows words rest) (marks : List Mark) : Shows words (marks ++ rest) :=
  (nil marks).append h

theorem before (h : Shows words marks) (rest : List Mark) : Shows words (marks ++ rest) := by
  have happend := h.append (nil rest)
  rwa [List.append_nil] at happend

theorem box (h : Shows words marks) (shift : Int) : Shows words (box shift marks) :=
  (h.after [.start shift true]).before [.stop]

theorem fillBox (h : Shows words marks) (shift : Int) : Shows words (fillBox shift marks) :=
  (h.after [.start shift false]).before [.stop]

theorem braced (h : Shows words marks) : Shows words (braced marks) := by
  unfold Layout.braced
  split
  · rename_i hempty
    rw [List.isEmpty_iff.mp hempty] at h
    rw [List.eq_nil_of_sublist_nil h]
    exact nil _
  · exact (h.after _).before _

end Shows

end Layout

open Layout

def Stmt.loopHead (x : String) : List String :=
  ["for ", x, " in "]

mutual

theorem Stmt.shows_marks (runtime : CodePath) :
    ∀ s : Stmt, Shows (s.loopNames.flatMap loopHead) (s.marks runtime)
  | .bind _ _ _ _ | .assign _ _ | .eval _ => Shows.nil _
  | .loop x elements body => by
      have hbody := Stmt.shows_marksAll runtime body
      have hhead : Shows (x.toList.flatMap loopHead)
          [.word "for ", .word (x.getD "_"), .word " in ", neverBreak] := by
        cases x with
        | none => exact Shows.nil _
        | some x => exact List.Sublist.refl _
      rw [Stmt.loopNames, List.flatMap_append, Stmt.marks]
      apply Shows.before
      apply Shows.fillBox
      apply Shows.fillBox
      apply Shows.before
      apply Shows.append
      · exact (hhead.before _).before _
      · exact ((hbody.after [openingBreak]).before _).box 4
  | .guard test body => by
      have hbody := Stmt.shows_marksAll runtime body
      exact ((((hbody.braced.after _).box 4).fillBox 0).before _)
  | .unwrap x value body => by
      have hbody := Stmt.shows_marksAll runtime body
      exact ((((hbody.braced.after _).box 4).fillBox 0).before _)
  | .block body => by
      have hbody := Stmt.shows_marksAll runtime body
      exact (((((hbody.after [.word "\x7b", space]).before _).box 4).fillBox 0).before _)

theorem Stmt.shows_marksAll (runtime : CodePath) :
    ∀ statements : List Stmt,
      Shows ((Stmt.loopNamesAll statements).flatMap loopHead)
        (Stmt.marksAll runtime statements)
  | [] => Shows.nil _
  | s :: rest => by
      rw [Stmt.loopNamesAll, List.flatMap_append, Stmt.marksAll]
      exact (Stmt.shows_marks runtime s).append (Stmt.shows_marksAll runtime rest)

end

namespace Implementation

def headWords (runtime : CodePath) (i : Implementation) : List String :=
  ["impl", (Item.checksInterface.path runtime).text, "for ", (CodePath.mk false i.type).text] ++
    i.body.loopNames.flatMap Stmt.loopHead

theorem shows_marks (runtime : CodePath) (i : Implementation) :
    Shows (i.headWords runtime) (i.marks runtime) := by
  have hhead : Shows
      ["impl", (Item.checksInterface.path runtime).text, "for ",
        (CodePath.mk false i.type).text]
      (Layout.fillBox (-4)
        (Layout.box 4 [.word "impl"] ++
          [.word " ", .word (Item.checksInterface.path runtime).text, space,
            .word "for ", .word (CodePath.mk false i.type).text])) := by
    exact ((List.Sublist.refl _).cons " ").cons_cons "impl"
  have hbody : Shows (i.body.loopNames.flatMap Stmt.loopHead) (i.body.marks runtime) :=
    ((Stmt.shows_marksAll runtime i.body.statements).before _).before _
  apply Shows.before
  apply Shows.after
  apply Shows.box
  apply Shows.before
  apply Shows.append
  · exact hhead.before _
  · exact ((hbody.after _).before _).box 4

theorem exists_words_page (runtime : CodePath) (items : List Implementation) :
    ∃ words, Holds words (page runtime items).toList ∧
      (items.flatMap (headWords runtime)).Sublist words := by
  have hitems : Shows (items.flatMap (headWords runtime)) (items.flatMap (marks runtime)) := by
    induction items with
    | nil => exact Shows.nil _
    | cons i rest ih => exact (i.shows_marks runtime).append ih
  exact ⟨_, holds_page _, hitems.box 0⟩

end Implementation

end AccessChecks
