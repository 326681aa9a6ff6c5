import AccessChecks.Proofs.UsableNames

/-!
# Boundaries of words

## Boundaries

Case boundaries are where capitals begin and where a run of capitals ends.  Digit
boundaries are between a letter and a digit behind it, and between a digit and a
lower-case letter behind it.

## Underscores

Snake case puts underscores at the boundaries of both sorts and nowhere else.  So it keeps
to case boundaries exactly if the name has no digit boundary.

## Names of fields and modules

A field name in snake case is kept.  All others, and those of modules, are put in snake
case, so a digit in them splits a word.
-/

namespace AccessChecks

namespace Words

open Name

/-!
## Boundaries
-/

/-- A lower-case letter or a digit in front of a capital, or a capital in front of the
last one of its run, behind which a lower-case letter goes on. -/
def caseBoundary (a b : Char) (next : Option Char) : Bool :=
  (a.isLower || a.isDigit) && b.isUpper || a.isUpper && b.isUpper && next.any Char.isLower

/-- A letter in front of a digit, or a digit in front of a lower-case letter. -/
def digitBoundary (a b : Char) : Bool :=
  (a.isLower || a.isUpper) && b.isDigit || a.isDigit && b.isLower

def wordBoundary (a b : Char) (next : Option Char) : Bool :=
  caseBoundary a b next || digitBoundary a b

def KeepsDigits (name : List Char) : Prop :=
  name.IsChain fun a b => digitBoundary a b = false

instance (name : List Char) : Decidable (KeepsDigits name) :=
  inferInstanceAs (Decidable (name.IsChain fun a b => digitBoundary a b = false))

theorem cutsBetween_eq (a b : Char) (next : Option Char) :
    cutsBetween a b next = wordBoundary a b next := by
  rw [cutsBetween, wordBoundary, caseBoundary, digitBoundary]
  cases a.isLower <;> cases a.isUpper <;> cases a.isDigit <;> cases b.isLower <;>
    cases b.isUpper <;> cases b.isDigit <;> simp

theorem isAlphanum_of_wordBoundary {a b : Char} {next : Option Char}
    (h : wordBoundary a b next = true) : a.isAlphanum = true ∧ b.isAlphanum = true := by
  rw [wordBoundary, caseBoundary, digitBoundary] at h
  simp only [Char.isAlphanum, Char.isAlpha]
  grind

theorem digitBoundary_of_caseBoundary {a b : Char} {next : Option Char}
    (h : caseBoundary a b next = true) : digitBoundary a b = false := by
  have hupper : b.isUpper = true := by
    rw [caseBoundary] at h
    grind
  have hlower : b.isLower = false := by
    simpa using Char.not_isLower_of_isUpper hupper
  have hdigit : b.isDigit = false := by
    grind [Char.isDigit, Char.isUpper]
  rw [digitBoundary, hlower, hdigit, Bool.and_false, Bool.and_false, Bool.or_false]

theorem caseBoundary_iff {a b : Char} {next : Option Char}
    (h : wordBoundary a b next = true) :
    caseBoundary a b next = true ↔ digitBoundary a b = false := by
  refine ⟨digitBoundary_of_caseBoundary, ?_⟩
  intro hdigit
  rwa [wordBoundary, hdigit, Bool.or_false] at h

theorem keepsDigits_cons_cons_iff {a b : Char} {more : List Char} :
    KeepsDigits (a :: b :: more) ↔
      digitBoundary a b = false ∧ KeepsDigits (b :: more) :=
  List.isChain_cons_cons

theorem toLower_ne_underscore {c : Char} (h : c.isAlphanum = true) : c.toLower ≠ '_' := by
  intro hscore
  have halnum := isAlphanum_toLower h
  rw [hscore] at halnum
  cases halnum

theorem toLower_of_isDigit {c : Char} (h : c.isDigit = true) : c.toLower = c := by
  apply Char.toLower_eq_of_not_isUpper
  grind [Char.isDigit, Char.isUpper]

/-!
## Underscores
-/

/-- The text spells the name in lower case, with underscores put in at some of the places
that are allowed, if at any. -/
inductive Spaced (allowed : Char → Char → Option Char → Bool) :
    List Char → List Char → Prop where
  | nil : Spaced allowed [] []
  | kept {a : Char} {rest text : List Char} :
      Spaced allowed rest text → Spaced allowed (a :: rest) (a.toLower :: text)
  | put {a b : Char} {more text : List Char} :
      allowed a b more.head? = true → Spaced allowed (b :: more) text →
      Spaced allowed (a :: b :: more) (a.toLower :: '_' :: text)

variable {allowed : Char → Char → Option Char → Bool} {name text : List Char}

theorem Spaced.exists_cons {a : Char} (h : Spaced allowed (a :: name) text) :
    ∃ more, text = a.toLower :: more := by
  cases h with
  | kept => exact ⟨_, rfl⟩
  | put => exact ⟨_, rfl⟩

theorem Spaced.toLower_mem (h : Spaced allowed name text) :
    ∀ a ∈ name, a.toLower ∈ text := by
  induction h with
  | nil =>
      intro a ha
      cases ha
  | kept _ ih =>
      rw [List.forall_mem_cons]
      exact ⟨List.mem_cons_self, fun a ha => List.mem_cons_of_mem _ (ih a ha)⟩
  | put _ _ ih =>
      rw [List.forall_mem_cons]
      exact ⟨List.mem_cons_self,
        fun a ha => List.mem_cons_of_mem _ (List.mem_cons_of_mem _ (ih a ha))⟩

theorem spaced_self (h : ∀ c ∈ name, c.toLower = c) : Spaced allowed name name := by
  induction name with
  | nil => exact Spaced.nil
  | cons a rest ih =>
      have hrest := ih fun c hc => h c (List.mem_cons_of_mem a hc)
      have hkept := Spaced.kept (a := a) hrest
      rw [h a List.mem_cons_self] at hkept
      exact hkept

theorem spaced_put_iff {a b : Char} {more : List Char} (hb : b.toLower ≠ '_') :
    Spaced allowed (a :: b :: more) (a.toLower :: '_' :: text) ↔
      allowed a b more.head? = true ∧ Spaced allowed (b :: more) text := by
  constructor
  · intro h
    cases h with
    | kept hrest =>
        rcases hrest.exists_cons with ⟨_, htext⟩
        exact absurd (List.cons.inj htext).1.symm hb
    | put hallowed hrest => exact ⟨hallowed, hrest⟩
  · rintro ⟨hallowed, hrest⟩
    exact Spaced.put hallowed hrest

theorem spaced_kept_iff {a b : Char} {more : List Char}
    (h : allowed a b more.head? = false) :
    Spaced allowed (a :: b :: more) (a.toLower :: text) ↔
      Spaced allowed (b :: more) text := by
  refine ⟨?_, Spaced.kept⟩
  intro hspaced
  cases hspaced with
  | kept hrest => exact hrest
  | put hallowed _ =>
      rw [h] at hallowed
      cases hallowed

theorem snakeLetters_cons_cons {a b : Char} {more : List Char}
    (ha : isContinue a = true) :
    snakeLetters (a :: b :: more) =
      if wordBoundary a b more.head? then a.toLower :: '_' :: snakeLetters (b :: more)
      else a.toLower :: snakeLetters (b :: more) := by
  rw [snakeLetters_cons, cutsBefore, cutsBetween_eq, isSeparator_eq_of_isContinue ha]
  by_cases hscore : a = '_'
  · subst hscore
    have hno : wordBoundary '_' b more.head? = false := by
      rw [← Bool.not_eq_true]
      intro hboundary
      have halnum := (isAlphanum_of_wordBoundary hboundary).1
      cases halnum
    rw [hno]
    rfl
  · rw [if_neg (by simpa using hscore)]

theorem snakeLetters_singleton {a : Char} (ha : isContinue a = true) :
    snakeLetters [a] = [a.toLower] := by
  rw [snakeLetters_cons, isSeparator_eq_of_isContinue ha]
  by_cases hscore : a = '_'
  · subst hscore
    rfl
  · rw [if_neg (by simpa using hscore)]
    rfl

theorem spaced_snakeLetters (h : ∀ c ∈ name, isContinue c = true) :
    Spaced wordBoundary name (snakeLetters name) := by
  induction name with
  | nil => exact Spaced.nil
  | cons a rest ih =>
      have ha := h a List.mem_cons_self
      have hrest := ih fun c hc => h c (List.mem_cons_of_mem a hc)
      cases rest with
      | nil =>
          rw [snakeLetters_singleton ha]
          exact Spaced.kept Spaced.nil
      | cons b more =>
          rw [snakeLetters_cons_cons ha]
          split
          · exact Spaced.put ‹_› hrest
          · exact Spaced.kept hrest

theorem spaced_caseBoundary_iff (h : ∀ c ∈ name, isContinue c = true) :
    Spaced caseBoundary name (snakeLetters name) ↔ KeepsDigits name := by
  induction name with
  | nil => exact ⟨fun _ => List.IsChain.nil, fun _ => Spaced.nil⟩
  | cons a rest ih =>
      have ha := h a List.mem_cons_self
      have ihrest := ih fun c hc => h c (List.mem_cons_of_mem a hc)
      cases rest with
      | nil =>
          rw [snakeLetters_singleton ha]
          exact ⟨fun _ => List.IsChain.singleton a, fun _ => Spaced.kept Spaced.nil⟩
      | cons b more =>
          rw [snakeLetters_cons_cons ha, keepsDigits_cons_cons_iff, ← ihrest]
          by_cases hboundary : wordBoundary a b more.head? = true
          · have hb := toLower_ne_underscore (isAlphanum_of_wordBoundary hboundary).2
            rw [if_pos hboundary, spaced_put_iff hb, caseBoundary_iff hboundary]
          · rw [if_neg hboundary]
            rw [wordBoundary, Bool.or_eq_true, not_or, Bool.not_eq_true,
              Bool.not_eq_true] at hboundary
            rw [spaced_kept_iff hboundary.1, and_iff_right hboundary.2]

theorem keepsDigits_of_forall (h : ∀ c ∈ name, c.isDigit = false) : KeepsDigits name := by
  induction name with
  | nil => exact List.IsChain.nil
  | cons a rest ih =>
      have hrest := ih fun c hc => h c (List.mem_cons_of_mem a hc)
      cases rest with
      | nil => exact List.IsChain.singleton a
      | cons b more =>
          rw [keepsDigits_cons_cons_iff, digitBoundary, h a List.mem_cons_self,
            h b (List.mem_cons_of_mem a List.mem_cons_self), Bool.and_false,
            Bool.false_and, Bool.or_false]
          exact ⟨rfl, hrest⟩

end Words

namespace Name

open Words

/-!
## Names of fields and modules
-/

/-- The word as it is, in its raw form, or behind it the underscore that escapes a word
without one. -/
inductive Escapes (word : String) : String → Prop where
  | plain : Escapes word word
  | raw : Escapes word ("r#" ++ word)
  | reserved : word ∈ reserved → Escapes word (word ++ "_")

/-- Apart from escapes, the identifier has underscores only where the name has them and at
places that are allowed. -/
def Respects (allowed : Char → Char → Option Char → Bool) (name x : String) : Prop :=
  ∃ word, Escapes word x ∧ Spaced allowed name.toList word.toList

theorem escapes_of_escape {word x : String} (h : escape word = .ok x) : Escapes word x := by
  rw [escape] at h
  split at h
  · cases h
    exact Escapes.reserved (List.contains_iff_mem.mp ‹_›)
  · split at h
    · cases h
      exact Escapes.raw
    · split at h
      · cases h
        exact Escapes.plain
      · cases h

theorem isDigit_of_mem_words {word : String} (h : word ∈ reserved ++ keywords) :
    ∀ c ∈ word.toList, c.isDigit = false := by
  have hall : ∀ word ∈ reserved ++ keywords, word.toList.any Char.isDigit = false := by
    decide
  intro c hc
  exact Bool.not_eq_true _ ▸ List.any_eq_false.mp (hall word h) c hc

theorem eq_of_escape_of_isDigit {word x : String} {c : Char} (hc : c ∈ word.toList)
    (hdigit : c.isDigit = true) (h : escape word = .ok x) : x = word := by
  rw [escape] at h
  split at h
  · rename_i hreserved
    have hword := List.mem_append_left keywords (List.contains_iff_mem.mp hreserved)
    rw [isDigit_of_mem_words hword c hc] at hdigit
    cases hdigit
  · split at h
    · rename_i hkeyword
      have hword := List.mem_append_right reserved (List.contains_iff_mem.mp hkeyword)
      rw [isDigit_of_mem_words hword c hc] at hdigit
      cases hdigit
    · split at h
      · cases h
        rfl
      · cases h

variable {name x : String}

theorem respects_wordBoundary_of_escape (hname : isIdentifier name = true)
    (h : escape (snake name) = .ok x) : Respects wordBoundary name x := by
  refine ⟨snake name, escapes_of_escape h, ?_⟩
  rw [toList_snake]
  exact spaced_snakeLetters (isIdentifier_iff.mp hname).2

theorem spaced_snake_of_respects {allowed : Char → Char → Option Char → Bool}
    (hname : isIdentifier name = true) (h : escape (snake name) = .ok x)
    (hrespects : Respects allowed name x) {c : Char} (hc : c ∈ name.toList)
    (hdigit : c.isDigit = true) : Spaced allowed name.toList (snakeLetters name.toList) := by
  have hlower := toLower_of_isDigit hdigit
  have hspells := spaced_snakeLetters (isIdentifier_iff.mp hname).2
  have hmem : c ∈ (snake name).toList := by
    rw [toList_snake, ← hlower]
    exact hspells.toLower_mem c hc
  -- no word of the language has a digit, so the name is not escaped
  have hx := eq_of_escape_of_isDigit hmem hdigit h
  subst hx
  rcases hrespects with ⟨word, hescapes, hspaced⟩
  rw [← toList_snake]
  generalize hsnake : snake name = text at hescapes hmem
  cases hescapes with
  | plain => exact hspaced
  | raw =>
      -- an identifier has no number sign
      have hletter := (isIdentifier_iff.mp (isIdentifier_snake hname)).2 '#' (by
        rw [hsnake, String.toList_append]
        exact List.mem_append_left _ (by decide))
      cases hletter
  | reserved hreserved =>
      have hletter := hspaced.toLower_mem c hc
      rw [hlower] at hletter
      have hword := List.mem_append_left keywords hreserved
      rw [isDigit_of_mem_words hword c hletter] at hdigit
      cases hdigit

theorem respects_caseBoundary_iff (hname : isIdentifier name = true)
    (h : escape (snake name) = .ok x) :
    Respects caseBoundary name x ↔ KeepsDigits name.toList := by
  have hall := (isIdentifier_iff.mp hname).2
  constructor
  · intro hrespects
    by_cases hdigits : ∀ c ∈ name.toList, c.isDigit = false
    · exact keepsDigits_of_forall hdigits
    · push Not at hdigits
      rcases hdigits with ⟨c, hc, hdigit⟩
      exact (spaced_caseBoundary_iff hall).mp
        (spaced_snake_of_respects hname h hrespects hc (by simpa using hdigit))
  · intro hkeeps
    refine ⟨snake name, escapes_of_escape h, ?_⟩
    rw [toList_snake]
    exact (spaced_caseBoundary_iff hall).mpr hkeeps

theorem exists_respects_module (hname : isIdentifier name = true) :
    ∃ x, escape (snake name) = .ok x ∧ Respects wordBoundary name x ∧
      (Respects caseBoundary name x ↔ KeepsDigits name.toList) := by
  rcases exists_escape_snake hname with ⟨x, hx, _⟩
  exact ⟨x, hx, respects_wordBoundary_of_escape hname hx,
    respects_caseBoundary_iff hname hx⟩

theorem respects_of_isSnake {allowed : Char → Char → Option Char → Bool}
    (hsnake : isSnake name = true) (h : escape name = .ok x) : Respects allowed name x := by
  refine ⟨name, escapes_of_escape h, spaced_self ?_⟩
  intro c hc
  have hcase := List.all_eq_true.mp hsnake c hc
  simp only [Bool.or_eq_true, beq_iff_eq] at hcase
  rcases hcase with (hlower | hdigit) | rfl
  · exact Char.toLower_eq_of_not_isUpper (Char.not_isUpper_of_isLower hlower)
  · exact toLower_of_isDigit hdigit
  · decide

end Name

/-- The identifier of a field, and the module of each message around another, has
underscores only where the name has them and at its case and digit boundaries.  It does
without those at digit boundaries if there are none, and otherwise only where a field name
is in snake case to begin with. -/
theorem underscores_of_identifiers (name : String) (m : Message)
    (hname : Name.isIdentifier name = true) (named : m.IsNamed) :
    (∃ x, Name.ofField name = .ok x ∧ Name.Respects Words.wordBoundary name x ∧
      (Name.Respects Words.caseBoundary name x ↔
        Name.isSnake name = true ∨ Words.KeepsDigits name.toList)) ∧
    (Name.LeadsWithLetter m.name ↔
      ∃ modules type, Name.ofMessage m = .ok (modules ++ [type]) ∧
        List.Forall₂ (fun x parent => Name.Respects Words.wordBoundary parent x ∧
          (Name.Respects Words.caseBoundary parent x ↔ Words.KeepsDigits parent.toList))
          modules m.parents) := by
  constructor
  · rcases Name.exists_ofField hname with ⟨x, hx, _⟩
    refine ⟨x, hx, ?_⟩
    rw [Name.ofField] at hx
    by_cases hsnake : Name.isSnake name = true
    · rw [if_pos hsnake] at hx
      exact ⟨Name.respects_of_isSnake hsnake hx,
        fun _ => Or.inl hsnake, fun _ => Name.respects_of_isSnake hsnake hx⟩
    · rw [if_neg hsnake] at hx
      rw [or_iff_right hsnake]
      exact ⟨Name.respects_wordBoundary_of_escape hname hx,
        Name.respects_caseBoundary_iff hname hx⟩
  · constructor
    · intro h
      rcases named.exists_ofMessage_of_forall h
        fun parent hparent => Name.exists_respects_module (named.parents parent hparent) with
        ⟨modules, type, htype, hall, _⟩
      exact ⟨modules, type, htype, hall⟩
    · rintro ⟨modules, type, htype, _⟩
      exact named.exists_ofMessage_iff.mp ⟨_, htype⟩

namespace Sample

def scopeMessage : Message :=
  { package := "acme", parents := ["OAuth2Request"], name := "Scope" }

theorem escape_snake_line2Text :
    Name.escape (Words.snake "line2Text") = .ok "line_2_text" := by
  cbv

theorem escape_snake_oAuth2Request :
    Name.escape (Words.snake "OAuth2Request") = .ok "o_auth_2_request" := by
  cbv

theorem ofMessage_scopeMessage :
    Name.ofMessage scopeMessage = .ok ["o_auth_2_request", "Scope"] := by
  have hname : Name.escape (Words.pascal "Scope") = .ok "Scope" := by cbv
  rw [Name.ofMessage, scopeMessage, hname, List.mapM_cons, escape_snake_oAuth2Request]
  rfl

end Sample

/-- A digit between letters is a word of its own, in a field and in a module alike. -/
theorem digits_split_line2Text :
    Name.isIdentifier "line2Text" = true ∧ Name.ofField "line2Text" = .ok "line_2_text" ∧
      ¬ Name.Respects Words.caseBoundary "line2Text" "line_2_text" ∧
      Sample.scopeMessage.IsNamed ∧
      Name.ofMessage Sample.scopeMessage = .ok ["o_auth_2_request", "Scope"] ∧
      ¬ Name.Respects Words.caseBoundary "OAuth2Request" "o_auth_2_request" := by
  refine ⟨by decide, ?_, ?_, ⟨by decide, by decide⟩, Sample.ofMessage_scopeMessage, ?_⟩
  · rw [Name.ofField, if_neg (by decide), Sample.escape_snake_line2Text]
  · rw [Name.respects_caseBoundary_iff (by decide) Sample.escape_snake_line2Text]
    decide
  · rw [Name.respects_caseBoundary_iff (by decide) Sample.escape_snake_oAuth2Request]
    decide

theorem underscores_of_identifiers_acronyms :
    (∃ x, Name.ofField "HTTPServer2Type" = .ok x ∧
      Name.Respects Words.wordBoundary "HTTPServer2Type" x ∧
      (Name.Respects Words.caseBoundary "HTTPServer2Type" x ↔
        Name.isSnake "HTTPServer2Type" = true ∨
          Words.KeepsDigits "HTTPServer2Type".toList)) ∧
    ∃ modules type, Name.ofMessage Sample.scopeMessage = .ok (modules ++ [type]) ∧
      List.Forall₂ (fun x parent => Name.Respects Words.wordBoundary parent x ∧
        (Name.Respects Words.caseBoundary parent x ↔ Words.KeepsDigits parent.toList))
        modules ["OAuth2Request"] := by
  rcases underscores_of_identifiers "HTTPServer2Type" Sample.scopeMessage (by decide)
    ⟨by decide, by decide⟩ with ⟨hfield, hmessage⟩
  exact ⟨hfield, hmessage.mp (by decide)⟩

end AccessChecks
