import Mathlib.Data.List.TakeWhile
import AccessChecks.Text.Split

/-!
# Blanks around a text

Trimming takes the blanks off both ends of a text.  Blanks that are put there change
nothing.  If some character of a text is no blank, then what stands in front of it is
trimmed at its start and what stands behind it at its end.
-/

namespace AccessChecks

namespace Split

def AreBlank (text : List Char) : Prop :=
  ∀ c ∈ text, isBlank c = true

def trimEnd (text : List Char) : List Char :=
  (trimStart text.reverse).reverse

theorem trim_eq_trimEnd (text : List Char) : trim text = trimEnd (trimStart text) :=
  rfl

theorem areBlank_nil : AreBlank [] := by
  intro c hc
  cases hc

theorem AreBlank.not_mem {text : List Char} (h : AreBlank text) {c : Char}
    (hc : isBlank c = false) : c ∉ text := by
  intro hmem
  rw [h c hmem] at hc
  cases hc

theorem trimStart_of_areBlank {text : List Char} (h : AreBlank text) :
    trimStart text = [] :=
  List.dropWhile_eq_nil_iff.mpr h

theorem trimStart_append (text more : List Char) :
    trimStart (text ++ more) =
      if trimStart text = [] then trimStart more else trimStart text ++ more := by
  unfold trimStart
  rw [List.dropWhile_append]
  simp only [List.isEmpty_iff]

theorem trimStart_append_of_areBlank {blanks : List Char} (h : AreBlank blanks)
    (text : List Char) : trimStart (blanks ++ text) = trimStart text := by
  rw [trimStart_append, if_pos (trimStart_of_areBlank h)]

theorem trimEnd_append_of_areBlank {blanks : List Char} (h : AreBlank blanks)
    (text : List Char) : trimEnd (text ++ blanks) = trimEnd text := by
  unfold trimEnd
  rw [List.reverse_append, trimStart_append_of_areBlank]
  intro c hc
  exact h c (List.mem_reverse.mp hc)

theorem trimStart_append_cons {c : Char} (hc : isBlank c = false)
    (front back : List Char) :
    trimStart (front ++ c :: back) = trimStart front ++ c :: back := by
  rw [trimStart_append]
  split
  · rename_i hfront
    rw [hfront, trimStart, List.dropWhile_cons_of_neg (by rw [hc]; decide)]
    rfl
  · rfl

theorem trimEnd_append_cons {c : Char} (hc : isBlank c = false)
    (front back : List Char) :
    trimEnd (front ++ c :: back) = front ++ c :: trimEnd back := by
  have hreverse : (front ++ c :: back).reverse = back.reverse ++ c :: front.reverse := by
    rw [List.reverse_append, List.reverse_cons, List.append_assoc, List.singleton_append]
  rw [trimEnd, hreverse, trimStart_append_cons hc, List.reverse_append,
    List.reverse_cons, List.reverse_reverse, List.append_assoc, List.singleton_append]
  rfl

theorem trim_append_cons {c : Char} (hc : isBlank c = false) (front back : List Char) :
    trim (front ++ c :: back) = trimStart front ++ c :: trimEnd back := by
  rw [trim_eq_trimEnd, trimStart_append_cons hc, trimEnd_append_cons hc]

theorem trim_of_areBlank {text : List Char} (h : AreBlank text) : trim text = [] := by
  rw [trim, trimStart_of_areBlank h]
  rfl

theorem trim_around {before behind : List Char} (hbefore : AreBlank before)
    (hbehind : AreBlank behind) (text : List Char) :
    trim (before ++ text ++ behind) = trim text := by
  rw [List.append_assoc, trim_eq_trimEnd, trimStart_append_of_areBlank hbefore,
    trimStart_append, trim_eq_trimEnd]
  split
  · rename_i htext
    rw [htext, trimStart_of_areBlank hbehind]
  · rw [trimEnd_append_of_areBlank hbehind]

theorem exists_eq_append_trimStart (text : List Char) :
    ∃ blanks, AreBlank blanks ∧ text = blanks ++ trimStart text :=
  ⟨text.takeWhile isBlank, fun _ hc => List.mem_takeWhile_imp hc,
    (List.takeWhile_append_dropWhile).symm⟩

theorem exists_eq_trimEnd_append (text : List Char) :
    ∃ blanks, AreBlank blanks ∧ text = trimEnd text ++ blanks := by
  rcases exists_eq_append_trimStart text.reverse with ⟨blanks, hblanks, hreverse⟩
  refine ⟨blanks.reverse, fun c hc => hblanks c (List.mem_reverse.mp hc), ?_⟩
  rw [trimEnd, ← List.reverse_append, ← hreverse, List.reverse_reverse]

theorem trim_trimStart (text : List Char) : trim (trimStart text) = trim text := by
  rcases exists_eq_append_trimStart text with ⟨blanks, hblanks, htext⟩
  have haround := trim_around hblanks areBlank_nil (trimStart text)
  rw [List.append_nil, ← htext] at haround
  exact haround.symm

theorem trim_trimEnd (text : List Char) : trim (trimEnd text) = trim text := by
  rcases exists_eq_trimEnd_append text with ⟨blanks, hblanks, htext⟩
  have haround := trim_around areBlank_nil hblanks (trimEnd text)
  rw [List.nil_append, ← htext] at haround
  exact haround.symm

end Split

end AccessChecks
