import Mathlib
import AccessChecks.Proofs.QualifiedNames

/-!
# Cases of words

## Letter by letter

The snake case of a name goes through its letters: a separator becomes an underscore, and
a letter that ends a word is followed by one.  The Pascal case has letters and digits
alone, and starts with the first character of the name that is no separator.

## Identifiers

The snake case of an identifier is an identifier.  The Pascal case of one is one exactly
if its first character behind underscores is a letter.
-/

namespace AccessChecks

namespace Words

def snakeLetters (name : List Char) : List Char :=
  ['_'].intercalate ((split name).map lower)

def pascalLetters (name : List Char) : List Char :=
  (split name).flatMap capitalize

theorem toList_snake (name : String) : (snake name).toList = snakeLetters name.toList :=
  String.toList_ofList

theorem toList_pascal (name : String) : (pascal name).toList = pascalLetters name.toList :=
  String.toList_ofList

theorem intercalate_extend (a : Char) {words : List (List Char)} (h : words ≠ []) :
    ['_'].intercalate ((extend a words).map lower) =
      a.toLower :: ['_'].intercalate (words.map lower) := by
  cases words with
  | nil => exact absurd rfl h
  | cons word rest =>
      rw [extend, List.map_cons, List.map_cons]
      cases rest with
      | nil => simp [lower]
      | cons next rest => simp [lower]

theorem snakeLetters_cons (a : Char) (rest : List Char) :
    snakeLetters (a :: rest) =
      if isSeparator a then '_' :: snakeLetters rest
      else if cutsBefore a rest then a.toLower :: '_' :: snakeLetters rest
      else a.toLower :: snakeLetters rest := by
  have hne : (split rest).map lower ≠ [] := by
    rw [Ne, List.map_eq_nil_iff]
    exact split_ne_nil rest
  rw [snakeLetters, split]
  by_cases hseparator : isSeparator a
  · rw [if_pos hseparator, if_pos hseparator, List.map_cons,
      List.intercalate_cons_of_ne_nil hne]
    rfl
  · rw [if_neg hseparator, if_neg hseparator]
    by_cases hcuts : cutsBefore a rest
    · rw [if_pos hcuts, if_pos hcuts, List.map_cons, List.intercalate_cons_of_ne_nil hne]
      rfl
    · rw [if_neg hcuts, if_neg hcuts, intercalate_extend a (split_ne_nil rest)]
      rfl

theorem exists_snakeLetters_cons (a : Char) (rest : List Char) :
    ∃ more, snakeLetters (a :: rest) =
      (if isSeparator a then '_' else a.toLower) :: more := by
  rw [snakeLetters_cons]
  by_cases hseparator : isSeparator a
  · rw [if_pos hseparator, if_pos hseparator]
    exact ⟨_, rfl⟩
  · rw [if_neg hseparator, if_neg hseparator]
    split
    · exact ⟨_, rfl⟩
    · exact ⟨_, rfl⟩

theorem mem_of_mem_split {name word : List Char} (hword : word ∈ split name) {a : Char}
    (ha : a ∈ word) : a ∈ name ∧ isSeparator a = false := by
  induction name generalizing word a with
  | nil =>
      rw [List.mem_singleton.mp hword] at ha
      cases ha
  | cons b rest ih =>
      have hrest : ∀ {w : List Char}, w ∈ split rest → ∀ {c : Char}, c ∈ w →
          c ∈ b :: rest ∧ isSeparator c = false := by
        intro w hw c hc
        exact ⟨List.mem_cons_of_mem b (ih hw hc).1, (ih hw hc).2⟩
      rw [split] at hword
      by_cases hseparator : isSeparator b = true
      · rw [if_pos hseparator] at hword
        rcases List.mem_cons.mp hword with rfl | hword
        · cases ha
        · exact hrest hword ha
      · have hfirst : b ∈ b :: rest ∧ isSeparator b = false :=
          ⟨List.mem_cons_self, by simpa using hseparator⟩
        rw [if_neg hseparator] at hword
        split at hword
        · rcases List.mem_cons.mp hword with rfl | hword
          · rw [List.mem_singleton.mp ha]
            exact hfirst
          · exact hrest hword ha
        · cases hwords : split rest with
          | nil => exact absurd hwords (split_ne_nil rest)
          | cons first words =>
              rw [hwords] at hword hrest
              rw [extend] at hword
              rcases List.mem_cons.mp hword with rfl | hword
              · rcases List.mem_cons.mp ha with rfl | ha
                · exact hfirst
                · exact hrest List.mem_cons_self ha
              · exact hrest (List.mem_cons_of_mem first hword) ha

theorem eq_of_mem_capitalize {word : List Char} {c : Char} (h : c ∈ capitalize word) :
    ∃ a ∈ word, c = a.toUpper ∨ c = a.toLower := by
  cases word with
  | nil => cases h
  | cons a rest =>
      rcases List.mem_cons.mp h with hfirst | hrest
      · exact ⟨a, List.mem_cons_self, Or.inl hfirst⟩
      · rcases List.mem_map.mp hrest with ⟨b, hb, hc⟩
        exact ⟨b, List.mem_cons_of_mem a hb, Or.inr hc.symm⟩

theorem exists_of_mem_pascalLetters {name : List Char} {c : Char}
    (h : c ∈ pascalLetters name) :
    ∃ a ∈ name, isSeparator a = false ∧ (c = a.toUpper ∨ c = a.toLower) := by
  rcases List.mem_flatMap.mp h with ⟨word, hword, hc⟩
  rcases eq_of_mem_capitalize hc with ⟨a, ha, hcase⟩
  rcases mem_of_mem_split hword ha with ⟨hmem, hseparator⟩
  exact ⟨a, hmem, hseparator, hcase⟩

theorem head?_pascalLetters (name : List Char) :
    (pascalLetters name).head? =
      (name.find? fun c => !isSeparator c).map Char.toUpper := by
  induction name with
  | nil => rfl
  | cons a rest ih =>
      rw [pascalLetters, split]
      by_cases hseparator : isSeparator a = true
      · rw [if_pos hseparator, List.find?_cons_of_neg (by simp [hseparator]), ← ih]
        rfl
      · rw [if_neg hseparator, List.find?_cons_of_pos (by simpa using hseparator)]
        split
        · rfl
        · cases split rest with
          | nil => rfl
          | cons word words => rfl

end Words

namespace Name

open Words

theorem isContinue_of_isAlphanum {c : Char} (h : c.isAlphanum = true) :
    isContinue c = true := by
  rw [isContinue, h, Bool.true_or]

theorem isAlphanum_toLower {c : Char} (h : c.isAlphanum = true) :
    c.toLower.isAlphanum = true := by
  by_cases hupper : c.isUpper = true
  · simp [Char.isAlphanum, Char.isAlpha, hupper]
  · rw [Char.toLower_eq_of_not_isUpper hupper, h]

theorem isAlphanum_toUpper {c : Char} (h : c.isAlphanum = true) :
    c.toUpper.isAlphanum = true := by
  by_cases hlower : c.isLower = true
  · simp [Char.isAlphanum, Char.isAlpha, hlower]
  · rw [Char.toUpper_eq_of_not_isLower hlower, h]

theorem isSeparator_eq_of_isContinue {c : Char} (h : isContinue c = true) :
    isSeparator c = (c == '_') := by
  have hdash : c ≠ '-' := by
    rintro rfl
    cases h
  have hspace : c ≠ ' ' := by
    rintro rfl
    cases h
  rw [isSeparator, beq_false_of_ne hdash, beq_false_of_ne hspace, Bool.or_false,
    Bool.or_false]

theorem isAlphanum_of_not_isSeparator {c : Char} (h : isContinue c = true)
    (hseparator : isSeparator c = false) : c.isAlphanum = true := by
  rw [isSeparator_eq_of_isContinue h] at hseparator
  rw [isContinue, hseparator, Bool.or_false] at h
  exact h

theorem isIdentifier_iff {name : String} :
    isIdentifier name = true ↔
      (∃ c, name.toList.head? = some c ∧ isStart c = true) ∧
        ∀ c ∈ name.toList, isContinue c = true := by
  constructor
  · intro h
    rcases exists_start_of_isIdentifier h with ⟨c, rest, htext, hstart, hrest⟩
    rw [htext]
    refine ⟨⟨c, rfl, hstart⟩, ?_⟩
    intro d hd
    rcases List.mem_cons.mp hd with rfl | hd
    · exact isContinue_of_isStart hstart
    · exact hrest d hd
  · rintro ⟨⟨c, hhead, hstart⟩, hall⟩
    rw [isIdentifier]
    cases htext : name.toList with
    | nil =>
        rw [htext] at hhead
        cases hhead
    | cons d rest =>
        rw [htext] at hhead hall
        cases hhead
        dsimp only
        rw [hstart, Bool.true_and, List.all_eq_true]
        exact fun d hd => hall d (List.mem_cons_of_mem c hd)

theorem isContinue_of_mem_snakeLetters {name : List Char}
    (h : ∀ c ∈ name, isContinue c = true) :
    ∀ c ∈ snakeLetters name, isContinue c = true := by
  induction name with
  | nil =>
      intro c hc
      cases hc
  | cons a rest ih =>
      have hrest := ih fun c hc => h c (List.mem_cons_of_mem a hc)
      have hscore : isContinue '_' = true := by decide
      rw [snakeLetters_cons]
      by_cases hseparator : isSeparator a = true
      · rw [if_pos hseparator, List.forall_mem_cons]
        exact ⟨hscore, hrest⟩
      · have ha : isContinue a.toLower = true :=
          isContinue_of_isAlphanum (isAlphanum_toLower (isAlphanum_of_not_isSeparator
            (h a List.mem_cons_self) (by simpa using hseparator)))
        rw [if_neg hseparator]
        split
        · rw [List.forall_mem_cons, List.forall_mem_cons]
          exact ⟨ha, hscore, hrest⟩
        · rw [List.forall_mem_cons]
          exact ⟨ha, hrest⟩

theorem isIdentifier_snake {name : String} (h : isIdentifier name = true) :
    isIdentifier (snake name) = true := by
  rcases isIdentifier_iff.mp h with ⟨⟨c, hhead, hstart⟩, hall⟩
  rw [isIdentifier_iff, toList_snake]
  refine ⟨?_, isContinue_of_mem_snakeLetters hall⟩
  rcases List.head?_eq_some_iff.mp hhead with ⟨rest, htext⟩
  rcases exists_snakeLetters_cons c rest with ⟨more, hmore⟩
  rw [htext, hmore, List.head?_cons]
  refine ⟨_, rfl, ?_⟩
  by_cases hseparator : isSeparator c = true
  · rw [if_pos hseparator]
    decide
  · have hscore : (c == '_') = false := by
      rw [← isSeparator_eq_of_isContinue (hall c (List.mem_of_mem_head? hhead))]
      simpa using hseparator
    rw [isStart, hscore, Bool.or_false] at hstart
    rw [if_neg hseparator, isStart, Char.isAlpha_toLower_eq_isAlpha, hstart,
      Bool.true_or]

/-- The first character behind underscores in front is a letter. -/
def LeadsWithLetter (name : String) : Prop :=
  ∃ c, (name.toList.find? fun c => c != '_') = some c ∧ c.isAlpha = true

instance (name : String) : Decidable (LeadsWithLetter name) :=
  decidable_of_iff ((name.toList.find? fun c => c != '_').any Char.isAlpha = true)
    (Option.any_eq_true _ _)

theorem isAlphanum_of_mem_pascalLetters {name : List Char}
    (h : ∀ c ∈ name, isContinue c = true) :
    ∀ c ∈ pascalLetters name, c.isAlphanum = true := by
  intro c hc
  rcases exists_of_mem_pascalLetters hc with ⟨a, ha, hseparator, hcase⟩
  have halnum := isAlphanum_of_not_isSeparator (h a ha) hseparator
  rcases hcase with rfl | rfl
  · exact isAlphanum_toUpper halnum
  · exact isAlphanum_toLower halnum

theorem isStart_iff_of_isAlphanum {c : Char} (h : c.isAlphanum = true) :
    isStart c = true ↔ c.isAlpha = true := by
  have hscore : c ≠ '_' := by
    rintro rfl
    cases h
  rw [isStart, beq_false_of_ne hscore, Bool.or_false]

theorem head?_pascalLetters_of_isContinue {name : List Char}
    (h : ∀ c ∈ name, isContinue c = true) :
    (pascalLetters name).head? = (name.find? fun c => c != '_').map Char.toUpper := by
  rw [head?_pascalLetters]
  congr 1
  apply List.find?_congr
  intro c hc
  rw [isSeparator_eq_of_isContinue (h c hc)]
  rfl

theorem isIdentifier_pascal_iff {name : String} (h : isIdentifier name = true) :
    isIdentifier (pascal name) = true ↔ LeadsWithLetter name := by
  have hall := (isIdentifier_iff.mp h).2
  have halnum := isAlphanum_of_mem_pascalLetters hall
  have hhead := head?_pascalLetters_of_isContinue hall
  rw [isIdentifier_iff, toList_pascal]
  constructor
  · rintro ⟨⟨c, hc, hstart⟩, _⟩
    have hletter := (isStart_iff_of_isAlphanum (halnum c (List.mem_of_mem_head? hc))).mp
      hstart
    rw [hhead] at hc
    rcases Option.map_eq_some_iff.mp hc with ⟨a, ha, rfl⟩
    rw [Char.isAlpha_toUpper_eq_isAlpha] at hletter
    exact ⟨a, ha, hletter⟩
  · rintro ⟨a, ha, hletter⟩
    refine ⟨⟨a.toUpper, ?_, ?_⟩, ?_⟩
    · rw [hhead, ha]
      rfl
    · rw [isStart, Char.isAlpha_toUpper_eq_isAlpha, hletter, Bool.true_or]
    · intro c hc
      exact isContinue_of_isAlphanum (halnum c hc)

end Name

end AccessChecks
