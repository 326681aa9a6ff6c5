import Mathlib.Data.String.Basic
import AccessChecks.Code.Name
import AccessChecks.Descriptor.Basic

/-!
# Qualified names

## Dots

Texts are split and joined at dots.  An identifier has no dot in it, so identifiers
that were joined are read back.

## Full names

The registry joins the parts of a package, the enclosing names and the name of a
message.  A descriptor puts one scope in front of the next.  For identifiers both give
the same name.
-/

namespace AccessChecks

/-!
## Splitting at dots
-/

section Dots

open String

theorem splitOnAux_dot (front part rest : List Char) (parts : List String) :
    splitOnAux (ofList (front ++ part ++ rest)) "." ⟨utf8Len front⟩
        ⟨utf8Len front + utf8Len part⟩ 0 parts =
      parts.reverse ++
        (List.splitOnPPrepend (· == '.') rest part.reverse).map ofList := by
  -- a part of the text has been passed, but the dot at its end has not been reached
  induction rest generalizing front part parts with
  | nil =>
      have hend : Pos.Raw.atEnd (ofList (front ++ part ++ []))
          ⟨utf8Len front + utf8Len part⟩ = true := by
        rw [atEnd_iff, rawEndPos_ofList, List.append_nil, utf8Len_append]
        exact Nat.le_refl _
      rw [splitOnAux, if_pos hend, extract_of_valid]
      simp [List.splitOnPPrepend]
  | cons c rest ih =>
      have hend : ¬ Pos.Raw.atEnd (ofList (front ++ part ++ c :: rest))
          ⟨utf8Len front + utf8Len part⟩ = true := by
        have hpos := Char.utf8Size_pos c
        rw [atEnd_iff, rawEndPos_ofList, utf8Len_append, utf8Len_append,
          utf8Len_cons, Pos.Raw.mk_le_mk]
        omega
      have hget : Pos.Raw.get (ofList (front ++ part ++ c :: rest))
          ⟨utf8Len front + utf8Len part⟩ = c := by
        rw [← utf8Len_append]
        exact get_of_valid (front ++ part) (c :: rest)
      have hnext : Pos.Raw.next (ofList (front ++ part ++ c :: rest))
          ⟨utf8Len front + utf8Len part⟩ =
            ⟨utf8Len front + utf8Len part + c.utf8Size⟩ := by
        rw [← utf8Len_append]
        exact next_of_valid (front ++ part) c rest
      rw [splitOnAux, if_neg hend, hget]
      change (if (c == '.') = true then _ else _) = _
      rw [List.splitOnPPrepend_cons_eq_if, List.reverse_reverse]
      by_cases hdot : (c == '.') = true
      · cases eq_of_beq hdot
        have hlast : Pos.Raw.atEnd "." (Pos.Raw.next "." 0) = true := by decide
        have hback : Pos.Raw.unoffsetBy
            ⟨utf8Len front + utf8Len part + '.'.utf8Size⟩ (Pos.Raw.next "." 0) =
              ⟨utf8Len front + utf8Len part⟩ := rfl
        have hrest := ih (front ++ part ++ ['.']) [] (ofList part :: parts)
        rw [List.append_nil, List.append_assoc (front ++ part) ['.'],
          List.singleton_append, utf8Len_append, utf8Len_append, utf8Len_cons,
          utf8Len_nil, Nat.zero_add, Nat.add_zero, List.reverse_cons,
          List.append_assoc parts.reverse, List.reverse_nil,
          List.splitOnPPrepend_nil_right] at hrest
        rw [if_pos hdot, if_pos hdot]
        simp only [hnext, hlast, if_true, hback]
        rw [extract_of_valid]
        exact hrest
      · have hrest := ih front (part ++ [c]) parts
        rw [← List.append_assoc front, List.append_assoc (front ++ part),
          List.singleton_append, utf8Len_append, utf8Len_cons, utf8Len_nil,
          Nat.zero_add, List.reverse_concat, ← Nat.add_assoc] at hrest
        rw [if_neg hdot, if_neg hdot]
        refine Eq.trans ?_ hrest
        change splitOnAux _ _ _
          (Pos.Raw.next _ ⟨utf8Len front + utf8Len part⟩) _ _ = _
        rw [hnext]

theorem splitOn_dot (text : String) :
    text.splitOn "." = (text.toList.splitOn '.').map ofList := by
  have h := splitOnAux_dot [] [] text.toList []
  rw [List.append_nil, List.nil_append, ofList_toList] at h
  exact h

theorem splitOn_intercalate_dot {parts : List String}
    (h : ∀ part ∈ parts, '.' ∉ part.toList) (hne : parts ≠ []) :
    (".".intercalate parts).splitOn "." = parts := by
  have hdots : ∀ chars ∈ parts.map String.toList, '.' ∉ chars := by
    intro chars hchars
    rcases List.mem_map.mp hchars with ⟨part, hpart, rfl⟩
    exact h part hpart
  rw [splitOn_dot, toList_intercalate]
  change ((['.'].intercalate (parts.map String.toList)).splitOn '.').map ofList = _
  rw [List.splitOn_intercalate '.' hdots (by simpa using hne), List.map_map]
  simp [Function.comp_def]

end Dots

/-!
## Identifiers
-/

theorem ne_dot_of_isContinue {c : Char} (h : Name.isContinue c = true) : c ≠ '.' := by
  rintro rfl
  revert h
  decide

theorem isContinue_of_isStart {c : Char} (h : Name.isStart c = true) :
    Name.isContinue c = true := by
  simp only [Name.isStart, Name.isContinue, Char.isAlphanum, Bool.or_eq_true] at h ⊢
  rcases h with halpha | hscore
  · exact Or.inl (Or.inl halpha)
  · exact Or.inr hscore

theorem exists_start_of_isIdentifier {name : String}
    (h : Name.isIdentifier name = true) :
    ∃ c rest, name.toList = c :: rest ∧ Name.isStart c = true ∧
      ∀ d ∈ rest, Name.isContinue d = true := by
  rw [Name.isIdentifier] at h
  split at h
  · cases h
  · rename_i c rest htext
    rw [Bool.and_eq_true] at h
    exact ⟨c, rest, htext, h.1, List.all_eq_true.mp h.2⟩

theorem dot_notMem_of_isIdentifier {name : String}
    (h : Name.isIdentifier name = true) : '.' ∉ name.toList := by
  rcases exists_start_of_isIdentifier h with ⟨c, rest, htext, hstart, hrest⟩
  rw [htext, List.mem_cons, not_or]
  constructor
  · exact (ne_dot_of_isContinue (isContinue_of_isStart hstart)).symm
  · intro hmem
    exact ne_dot_of_isContinue (hrest '.' hmem) rfl

theorem ne_empty_of_isIdentifier {name : String}
    (h : Name.isIdentifier name = true) : name ≠ "" := by
  rintro rfl
  cases h

def AreIdentifiers (parts : List String) : Prop :=
  ∀ part ∈ parts, Name.isIdentifier part = true

theorem AreIdentifiers.append {front back : List String}
    (hfront : AreIdentifiers front) (hback : AreIdentifiers back) :
    AreIdentifiers (front ++ back) := by
  intro part hpart
  rcases List.mem_append.mp hpart with h | h
  · exact hfront part h
  · exact hback part h

theorem areIdentifiers_singleton {name : String}
    (h : Name.isIdentifier name = true) : AreIdentifiers [name] := by
  intro part hpart
  rw [List.mem_singleton.mp hpart]
  exact h

theorem AreIdentifiers.splitOn {parts : List String} (h : AreIdentifiers parts)
    (hne : parts ≠ []) : (".".intercalate parts).splitOn "." = parts :=
  splitOn_intercalate_dot (fun part hpart => dot_notMem_of_isIdentifier (h part hpart))
    hne

theorem AreIdentifiers.filter_splitOn {parts : List String} (h : AreIdentifiers parts) :
    (((".".intercalate parts).splitOn ".").filter fun part => !part.isEmpty) =
      parts := by
  by_cases hne : parts = []
  · subst hne
    rw [splitOn_dot]
    rfl
  · rw [h.splitOn hne, List.filter_eq_self]
    intro part hpart
    rw [Bool.not_eq_true', String.isEmpty_eq_false_iff]
    exact ne_empty_of_isIdentifier (h part hpart)

theorem AreIdentifiers.ofName {parts : List String} (h : AreIdentifiers parts) :
    MessageRef.ofName (".".intercalate parts) = ⟨".".intercalate parts⟩ := by
  cases parts with
  | nil => rfl
  | cons name rest =>
      rcases exists_start_of_isIdentifier (h name List.mem_cons_self) with
        ⟨c, more, htext, hstart, _⟩
      have hfirst : ∃ tail, (".".intercalate (name :: rest)).toList = c :: tail := by
        cases rest with
        | nil => exact ⟨more, by rw [String.intercalate_singleton, htext]⟩
        | cons next others =>
            rw [String.intercalate_cons_of_ne_nil (List.cons_ne_nil _ _),
              String.toList_append, String.toList_append, htext]
            exact ⟨_, rfl⟩
      rcases hfirst with ⟨tail, htail⟩
      have hdot := ne_dot_of_isContinue (isContinue_of_isStart hstart)
      rw [MessageRef.ofName]
      split
      · rename_i tail' hcons
        rw [htail] at hcons
        exact absurd (List.cons.inj hcons).1 hdot
      · rfl

/-!
## Full names
-/

namespace Descriptor

theorem qualify_intercalate {parts : List String} (h : AreIdentifiers parts)
    (name : String) :
    qualify (".".intercalate parts) name = ".".intercalate (parts ++ [name]) := by
  by_cases hne : parts = []
  · subst hne
    rw [List.nil_append, String.intercalate_singleton]
    rfl
  · have hempty : (".".intercalate parts).isEmpty = false := by
      rw [String.isEmpty_eq_false_iff]
      intro heq
      -- an empty text would be split into one empty part
      have hparts := h.splitOn hne
      rw [heq, splitOn_dot] at hparts
      change [""] = parts at hparts
      subst hparts
      exact ne_empty_of_isIdentifier (h "" List.mem_cons_self) rfl
    rw [qualify, hempty, String.intercalate_append_of_ne_nil hne (by simp),
      String.intercalate_singleton]
    rfl

theorem nest_intercalate {parts names : List String} (h : AreIdentifiers parts)
    (hnames : AreIdentifiers names) :
    nest (".".intercalate parts) names = ".".intercalate (parts ++ names) := by
  induction names generalizing parts with
  | nil => rw [List.append_nil]; rfl
  | cons name rest ih =>
      have hname : AreIdentifiers [name] :=
        areIdentifiers_singleton (hnames name List.mem_cons_self)
      rw [nest, List.foldl_cons, qualify_intercalate h]
      have hrest := ih (h.append hname)
        fun part hpart => hnames part (List.mem_cons_of_mem name hpart)
      rw [List.append_assoc] at hrest
      exact hrest

end Descriptor

structure Message.HasIdentifiers (m : Message) (parts : List String) : Prop where
  package : m.package = ".".intercalate parts
  parts : AreIdentifiers parts
  parents : AreIdentifiers m.parents
  name : Name.isIdentifier m.name = true

namespace Message.HasIdentifiers

variable {m : Message} {parts : List String}

theorem all (h : m.HasIdentifiers parts) :
    AreIdentifiers (parts ++ m.parents ++ [m.name]) :=
  (h.parts.append h.parents).append (areIdentifiers_singleton h.name)

theorem fullName (h : m.HasIdentifiers parts) :
    m.fullName = ".".intercalate (parts ++ m.parents ++ [m.name]) := by
  rw [Message.fullName, h.package, h.parts.filter_splitOn]

theorem reference (h : m.HasIdentifiers parts) : m.reference = ⟨m.fullName⟩ := by
  rw [Message.reference, h.fullName, h.all.ofName]

/-- The name that scopes put together is the one that the registry joins. -/
theorem qualify_nest (h : m.HasIdentifiers parts) :
    Descriptor.qualify (Descriptor.nest m.package m.parents) m.name = m.fullName := by
  rw [h.package, Descriptor.nest_intercalate h.parts h.parents,
    Descriptor.qualify_intercalate (h.parts.append h.parents), h.fullName]

end Message.HasIdentifiers

/-!
## Messages in no scope
-/

section Global

variable {m : Message}

theorem hasIdentifiers_of_global (package : m.package = "") (parents : m.parents = [])
    (name : Name.isIdentifier m.name = true) : m.HasIdentifiers [] :=
  { package := package
    parts := fun _ hpart => absurd hpart List.not_mem_nil
    parents := by rw [parents]; exact fun _ hpart => absurd hpart List.not_mem_nil
    name := name }

theorem fullName_of_global (package : m.package = "") (parents : m.parents = [])
    (name : Name.isIdentifier m.name = true) : m.fullName = m.name := by
  rw [(hasIdentifiers_of_global package parents name).fullName, parents]
  exact String.intercalate_singleton

theorem reference_of_global (package : m.package = "") (parents : m.parents = [])
    (name : Name.isIdentifier m.name = true) : m.reference = ⟨m.name⟩ := by
  rw [(hasIdentifiers_of_global package parents name).reference,
    fullName_of_global package parents name]

end Global

end AccessChecks
