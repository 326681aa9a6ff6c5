/-!
# Splitting and trimming

Texts are cut at every or at the first occurrence of a character, and freed from
blanks on both sides.  Blanks are the white space of Unicode.
-/

namespace AccessChecks

def isBlank (c : Char) : Bool :=
  let n := c.toNat
  (0x09 ≤ n && n ≤ 0x0d) || n == 0x20 || n == 0x85 || n == 0xa0 ||
    n == 0x1680 || (0x2000 ≤ n && n ≤ 0x200a) || n == 0x2028 || n == 0x2029 ||
    n == 0x202f || n == 0x205f || n == 0x3000

namespace Split

/-- The parts between the occurrences of a separator.  There is always one. -/
def every (separator : Char) : List Char → List (List Char)
  | [] => [[]]
  | c :: rest =>
      if c = separator then [] :: every separator rest
      else
        match every separator rest with
        | [] => [[c]]
        | part :: parts => (c :: part) :: parts

def first? (separator : Char) : List Char → Option (List Char × List Char)
  | [] => none
  | c :: rest =>
      if c = separator then some ([], rest)
      else (first? separator rest).map fun parts => (c :: parts.1, parts.2)

def trimStart (text : List Char) : List Char :=
  text.dropWhile isBlank

def trim (text : List Char) : List Char :=
  (trimStart (trimStart text).reverse).reverse

theorem every_ne_nil (separator : Char) (text : List Char) :
    every separator text ≠ [] := by
  cases text with
  | nil => simp [every]
  | cons c rest =>
      unfold every
      split
      · simp
      · split <;> simp

theorem every_append (separator : Char) (a b : List Char) :
    every separator (a ++ separator :: b) =
      every separator a ++ every separator b := by
  induction a with
  | nil => simp [every]
  | cons c rest ih =>
      by_cases h : c = separator
      · simp [every, h, ih]
      · simp only [List.cons_append, every, h, if_false, ih]
        cases hr : every separator rest with
        | nil => exact absurd hr (every_ne_nil separator rest)
        | cons part parts => simp

theorem first?_eq_some_iff {separator : Char} {text a b : List Char} :
    first? separator text = some (a, b) ↔
      text = a ++ separator :: b ∧ separator ∉ a := by
  induction text generalizing a with
  | nil => simp [first?]
  | cons c rest ih =>
      by_cases h : c = separator
      · subst h
        cases a with
        | nil => simp [first?, eq_comm]
        | cons d ds =>
            simp only [first?, if_true, Option.some.injEq, Prod.mk.injEq,
              List.cons_append, List.cons.injEq, List.mem_cons]
            constructor
            · intro hc
              exact absurd hc.1 (by simp)
            · intro hc
              exact absurd (Or.inl hc.1.1) hc.2
      · cases a with
        | nil => simp [first?, h]
        | cons d ds =>
            simp only [first?, h, if_false, Option.map_eq_some_iff,
              Prod.exists, Prod.mk.injEq, List.cons.injEq, List.cons_append,
              List.mem_cons]
            constructor
            · rintro ⟨x, y, hxy, ⟨hd, hx⟩, hy⟩
              subst hd hx hy
              have := ih.mp hxy
              exact ⟨⟨rfl, this.1⟩, by
                rintro (he | hm)
                · exact h he.symm
                · exact this.2 hm⟩
            · rintro ⟨⟨hd, hr⟩, hn⟩
              refine ⟨ds, b, ih.mpr ⟨hr, ?_⟩, ⟨hd, rfl⟩, rfl⟩
              intro hm
              exact hn (Or.inr hm)

end Split

end AccessChecks
