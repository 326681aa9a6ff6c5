import AccessChecks.Proofs.CasedWords

/-!
# Usable names

## Words of the language

Some words of the language are no names as they stand.  Most of them can be written as raw
identifiers.

## Names of fields and messages

Every identifier names a field, and every word but the underscore does so in a usable way.
A message has a type path exactly if the first character of its name behind underscores is
a letter.
-/

namespace AccessChecks

namespace Name

/-!
## Words of the language
-/

def usedWords : List String :=
  ["as", "async", "await", "break", "const", "continue", "crate", "dyn", "else", "enum",
    "extern", "false", "fn", "for", "if", "impl", "in", "let", "loop", "match", "mod",
    "move", "mut", "pub", "ref", "return", "self", "Self", "static", "struct", "super",
    "trait", "true", "type", "unsafe", "use", "where", "while"]

def setAsideWords : List String :=
  ["abstract", "become", "box", "do", "final", "gen", "macro", "override", "priv", "try",
    "typeof", "unsized", "virtual", "yield"]

def unrawWords : List String :=
  ["_", "crate", "self", "super", "Self"]

/-- The text is a name in code: an identifier that is no word of the language, or such a
word in its raw form. -/
inductive Usable : String → Prop where
  | plain {text : String} :
      isIdentifier text = true → text ≠ "_" → text ∉ usedWords → text ∉ setAsideWords →
      Usable text
  | raw {word : String} :
      word ∈ usedWords ++ setAsideWords → word ∉ unrawWords → Usable ("r#" ++ word)

theorem usedWords_subset : ∀ word ∈ usedWords, word ∈ reserved ++ keywords := by
  decide

theorem setAsideWords_subset : ∀ word ∈ setAsideWords, word ∈ keywords := by
  decide

theorem usable_of_mem_reserved {name : String} (h : name ∈ reserved) :
    Usable (name ++ "_") := by
  have hplain : ∀ word ∈ reserved, isIdentifier (word ++ "_") = true ∧ word ++ "_" ≠ "_" ∧
      word ++ "_" ∉ usedWords ∧ word ++ "_" ∉ setAsideWords := by
    decide
  rcases hplain name h with ⟨hidentifier, hne, hused, haside⟩
  exact Usable.plain hidentifier hne hused haside

theorem usable_of_mem_keywords {name : String} (h : name ∈ keywords) :
    Usable ("r#" ++ name) := by
  have hraw : ∀ word ∈ keywords,
      word ∈ usedWords ++ setAsideWords ∧ word ∉ unrawWords := by
    decide
  exact Usable.raw (hraw name h).1 (hraw name h).2

theorem usable_of_not_mem {name : String} (h : isIdentifier name = true) (hne : name ≠ "_")
    (hreserved : name ∉ reserved) (hkeyword : name ∉ keywords) : Usable name := by
  apply Usable.plain h hne
  · intro hused
    rcases List.mem_append.mp (usedWords_subset name hused) with hmem | hmem
    · exact hreserved hmem
    · exact hkeyword hmem
  · intro haside
    exact hkeyword (setAsideWords_subset name haside)

theorem isIdentifier_of_mem {name : String} (h : name ∈ reserved ++ keywords) :
    isIdentifier name = true := by
  have hall : ∀ word ∈ reserved ++ keywords, isIdentifier word = true := by
    decide
  exact hall name h

/-- The text is usable where an identifier is meant.  The underscore is left as it is. -/
def UsableFor (x name : String) : Prop :=
  if name = "_" then x = "_" else Usable x

theorem usableFor_underscore : UsableFor "_" "_" := by
  rw [UsableFor, if_pos rfl]

theorem not_usable_underscore : ¬ Usable "_" := by
  intro h
  generalize htext : "_" = text at h
  cases h with
  | plain _ hne => exact hne htext.symm
  | @raw word _ _ =>
      have hletters := congrArg String.toList htext
      rw [String.toList_append] at hletters
      cases hletters

theorem usableFor_iff {x name : String} (h : name ≠ "_") :
    UsableFor x name ↔ Usable x := by
  rw [UsableFor, if_neg h]

theorem exists_escape {name : String} (h : isIdentifier name = true) :
    ∃ x, escape name = .ok x ∧ UsableFor x name := by
  by_cases hscore : name = "_"
  · subst hscore
    exact ⟨"_", by decide, usableFor_underscore⟩
  · simp only [usableFor_iff hscore]
    rw [escape]
    by_cases hreserved : name ∈ reserved
    · rw [if_pos (List.contains_iff_mem.mpr hreserved)]
      exact ⟨_, rfl, usable_of_mem_reserved hreserved⟩
    · rw [if_neg (mt List.contains_iff_mem.mp hreserved)]
      by_cases hkeyword : name ∈ keywords
      · rw [if_pos (List.contains_iff_mem.mpr hkeyword)]
        exact ⟨_, rfl, usable_of_mem_keywords hkeyword⟩
      · rw [if_neg (mt List.contains_iff_mem.mp hkeyword), if_pos h]
        exact ⟨name, rfl, usable_of_not_mem h hscore hreserved hkeyword⟩

theorem escape_of_not_isIdentifier {name : String} (h : isIdentifier name = false) :
    escape name = .error ⟨name⟩ := by
  have hword : name ∉ reserved ++ keywords := by
    intro hmem
    rw [isIdentifier_of_mem hmem] at h
    cases h
  rw [List.mem_append, not_or] at hword
  rw [escape, if_neg (mt List.contains_iff_mem.mp hword.1),
    if_neg (mt List.contains_iff_mem.mp hword.2), h, if_neg (by decide)]

/-!
## Names of fields and messages
-/

theorem snake_ne_underscore {name : String} (h : isIdentifier name = true)
    (hne : name ≠ "_") : Words.snake name ≠ "_" := by
  intro hsnake
  rcases exists_start_of_isIdentifier h with ⟨a, rest, htext, hstart, _⟩
  have hletters := congrArg String.toList hsnake
  rw [Words.toList_snake, htext, Words.snakeLetters_cons] at hletters
  by_cases hseparator : Words.isSeparator a = true
  · -- a separator in front is the whole name
    rw [if_pos hseparator] at hletters
    have hrest : Words.snakeLetters rest = [] := (List.cons.inj hletters).2
    cases rest with
    | nil =>
        rw [isSeparator_eq_of_isContinue (isContinue_of_isStart hstart)] at hseparator
        rw [eq_of_beq hseparator] at htext
        exact hne (String.toList_injective htext)
    | cons b more =>
        rcases Words.exists_snakeLetters_cons b more with ⟨tail, htail⟩
        rw [htail] at hrest
        cases hrest
  · have halnum := isAlphanum_toLower (isAlphanum_of_not_isSeparator
      (isContinue_of_isStart hstart) (by simpa using hseparator))
    have hscore : a.toLower = '_' := by
      rw [if_neg hseparator] at hletters
      split at hletters
      · exact (List.cons.inj hletters).1
      · exact (List.cons.inj hletters).1
    rw [hscore] at halnum
    cases halnum

theorem exists_escape_snake {name : String} (h : isIdentifier name = true) :
    ∃ x, escape (Words.snake name) = .ok x ∧ UsableFor x name := by
  rcases exists_escape (isIdentifier_snake h) with ⟨x, hx, husable⟩
  refine ⟨x, hx, ?_⟩
  by_cases hscore : name = "_"
  · subst hscore
    exact husable
  · rw [usableFor_iff (snake_ne_underscore h hscore)] at husable
    exact (usableFor_iff hscore).mpr husable

theorem exists_ofField {name : String} (h : isIdentifier name = true) :
    ∃ x, ofField name = .ok x ∧ UsableFor x name := by
  rw [ofField]
  split
  · exact exists_escape h
  · exact exists_escape_snake h

theorem exists_mapM_parents {R : String → String → Prop} {parents : List String}
    (h : ∀ parent ∈ parents, ∃ x, escape (Words.snake parent) = .ok x ∧ R x parent) :
    ∃ modules, parents.mapM (fun parent => escape (Words.snake parent)) = .ok modules ∧
      List.Forall₂ R modules parents := by
  induction parents with
  | nil => exact ⟨[], rfl, List.Forall₂.nil⟩
  | cons parent rest ih =>
      rcases h parent List.mem_cons_self with ⟨x, hx, hrelated⟩
      rcases ih (fun p hp => h p (List.mem_cons_of_mem parent hp)) with ⟨xs, hxs, hall⟩
      refine ⟨x :: xs, ?_, List.Forall₂.cons hrelated hall⟩
      rw [List.mapM_cons, hx, hxs]
      rfl

theorem pascal_ne_underscore {name : String} (h : isIdentifier name = true) :
    Words.pascal name ≠ "_" := by
  intro hpascal
  have hmem : '_' ∈ Words.pascalLetters name.toList := by
    rw [← Words.toList_pascal, hpascal]
    decide
  have halnum := isAlphanum_of_mem_pascalLetters (isIdentifier_iff.mp h).2 _ hmem
  cases halnum

end Name

structure Message.IsNamed (m : Message) : Prop where
  name : Name.isIdentifier m.name = true
  parents : ∀ parent ∈ m.parents, Name.isIdentifier parent = true

namespace Message.IsNamed

open Name

variable {m : Message} (named : m.IsNamed)
include named

theorem exists_ofMessage_of_forall {R : String → String → Prop}
    (h : LeadsWithLetter m.name)
    (hparents : ∀ parent ∈ m.parents,
      ∃ x, escape (Words.snake parent) = .ok x ∧ R x parent) :
    ∃ modules type, ofMessage m = .ok (modules ++ [type]) ∧
      List.Forall₂ R modules m.parents ∧ Usable type := by
  have hidentifier := (isIdentifier_pascal_iff named.name).mpr h
  rcases exists_escape hidentifier with ⟨type, htype, husable⟩
  rcases exists_mapM_parents hparents with ⟨modules, hmodules, hall⟩
  rw [usableFor_iff (pascal_ne_underscore named.name)] at husable
  refine ⟨modules, type, ?_, hall, husable⟩
  rw [ofMessage, htype, hmodules]
  rfl

theorem exists_ofMessage (h : LeadsWithLetter m.name) :
    ∃ modules type, ofMessage m = .ok (modules ++ [type]) ∧
      List.Forall₂ UsableFor modules m.parents ∧ Usable type :=
  named.exists_ofMessage_of_forall h
    fun parent hparent => exists_escape_snake (named.parents parent hparent)

theorem ofMessage_eq_error (h : ¬ LeadsWithLetter m.name) :
    ofMessage m = .error ⟨Words.pascal m.name⟩ := by
  have hidentifier : isIdentifier (Words.pascal m.name) = false := by
    rw [← Bool.not_eq_true, isIdentifier_pascal_iff named.name]
    exact h
  rw [ofMessage, escape_of_not_isIdentifier hidentifier]
  rfl

theorem exists_ofMessage_iff : (∃ type, ofMessage m = .ok type) ↔ LeadsWithLetter m.name := by
  constructor
  · rintro ⟨type, htype⟩
    by_contra hnot
    rw [named.ofMessage_eq_error hnot] at htype
    cases htype
  · intro h
    rcases named.exists_ofMessage h with ⟨modules, type, htype, _⟩
    exact ⟨_, htype⟩

end Message.IsNamed

end AccessChecks
