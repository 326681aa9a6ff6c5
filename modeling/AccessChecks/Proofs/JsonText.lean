import AccessChecks.Json.Reader
import AccessChecks.Proofs.NumberText

/-!
# JSON texts that read back

## Texts

The spelling of a character is an escape with a letter, an escape with its code unit
or the character itself.  Each of them is taken over as it is and stands for the
character.

## Values

A value is written without white space.  It is read back from its text whatever
stands behind, unless a number at its end would go on.  Arrays and objects are read
item by item; two units of fuel for each character are enough.
-/

namespace AccessChecks

namespace Json

theorem hexValue?_hexDigit : ∀ n < 16, hexValue? (hexDigit n) = some n := by
  decide

theorem unit?_hexDigits {n : Nat} (h : n < 0x20) :
    unit? '0' '0' (hexDigit (n / 16)) (hexDigit (n % 16)) = some n := by
  have hhigh := hexValue?_hexDigit (n / 16) (by omega)
  have hlow := hexValue?_hexDigit (n % 16) (Nat.mod_lt n (by decide))
  have hzero : hexValue? '0' = some 0 := rfl
  have hsum : ((0 * 16 + 0) * 16 + n / 16) * 16 + n % 16 = n := by omega
  simp only [unit?, hzero, hhigh, hlow, bind, Option.bind, pure, hsum]

/-- The ways to spell a character. -/
inductive CharSpelling (c : Char) : List Char → Prop where
  | letter {e : Char} :
      e ≠ 'u' → escaped? e = some c → CharSpelling c ['\\', e]
  | unit {a b : Char} :
      unit? '0' '0' a b = some c.toNat → c.toNat < 0x20 →
      CharSpelling c ['\\', 'u', '0', '0', a, b]
  | plain :
      c ≠ '"' → c ≠ '\\' → 0x20 ≤ c.toNat → CharSpelling c [c]

theorem charSpelling_spellChar (c : Char) : CharSpelling c (spellChar c) := by
  have letter {e : Char} (hu : e ≠ 'u') {d : Char} (hd : (c == d) = true)
      (he : escaped? e = some d) : CharSpelling c ['\\', e] := by
    rw [beq_iff_eq] at hd
    exact CharSpelling.letter hu (hd ▸ he)
  rw [spellChar]
  split
  · rename_i hc
    exact letter (by decide) hc rfl
  · rename_i hquote
    split
    · rename_i hc
      exact letter (by decide) hc rfl
    · rename_i hslash
      split
      · rename_i hc
        exact letter (by decide) hc rfl
      · split
        · rename_i hc
          exact letter (by decide) hc rfl
        · split
          · rename_i hc
            exact letter (by decide) hc rfl
          · split
            · rename_i hc
              exact letter (by decide) hc rfl
            · split
              · rename_i hc
                exact letter (by decide) hc rfl
              · split
                · rename_i hcontrol
                  exact CharSpelling.unit (unit?_hexDigits hcontrol) hcontrol
                · rename_i hcontrol
                  exact CharSpelling.plain (by simpa using hquote)
                    (by simpa using hslash) (Nat.le_of_not_lt hcontrol)

theorem takeText_append {c : Char} {s : List Char} (h : CharSpelling c s)
    (rest : List Char) :
    takeText (s ++ rest) =
      (takeText rest).map fun taken => (s ++ taken.1, taken.2) := by
  cases h with
  | letter hu he =>
      change takeText ('\\' :: _ :: rest) = _
      rw [takeText]
      · simp [he]
      · intro a b c d more heq
        exact absurd heq hu
  | unit hunit hcontrol =>
      change takeText ('\\' :: 'u' :: '0' :: '0' :: _ :: _ :: rest) = _
      rw [takeText, hunit]
      rfl
  | plain hquote hslash hcontrol =>
      change takeText (c :: rest) = _
      simp [takeText, hslash, Nat.not_lt.mpr hcontrol]

theorem unspell?_append {c : Char} {s : List Char} (h : CharSpelling c s)
    (rest : List Char) :
    unspell? (s ++ rest) = (unspell? rest).map (c :: ·) := by
  cases h with
  | letter hu he =>
      change unspell? ('\\' :: _ :: rest) = _
      simp [unspell?, hu, he]
  | unit hunit hcontrol =>
      have hhigh : isHighUnit c.toNat = false := by
        simp [isHighUnit]
        omega
      have hlow : isLowUnit c.toNat = false := by
        simp [isLowUnit]
        omega
      change unspell? ('\\' :: 'u' :: '0' :: '0' :: _ :: _ :: rest) = _
      rw [unspell?.eq_def]
      split
      · rename_i heq
        cases heq
      · rename_i heq
        cases heq
        simp only [hunit, hhigh, hlow, Bool.false_eq_true, if_false,
          Char.ofNat_toNat]
      · rename_i heq
        cases heq
        simp only [hunit, hhigh, hlow, Bool.or_self, Bool.false_eq_true,
          if_false, Char.ofNat_toNat]
      · rename_i hnot heq
        cases heq
        exact absurd rfl (hnot _ _ _ _ _ rfl)
      · rename_i hnot heq
        cases heq
        exact absurd rfl (hnot _ _ rfl)
  | plain hquote hslash hcontrol =>
      change unspell? (c :: rest) = _
      simp [unspell?, hquote, hslash, Nat.not_lt.mpr hcontrol]

theorem spell_cons (c : Char) (s : List Char) :
    spell (c :: s) = spellChar c ++ spell s :=
  List.flatMap_cons

theorem takeText_spell (s rest : List Char) :
    takeText (spell s ++ '"' :: rest) = some (spell s, rest) := by
  induction s with
  | nil => rfl
  | cons c s ih =>
      rw [spell_cons, List.append_assoc,
        takeText_append (charSpelling_spellChar c), ih]
      rfl

theorem unspell?_spell (s : List Char) : unspell? (spell s) = some s := by
  induction s with
  | nil => rfl
  | cons c s ih =>
      rw [spell_cons, unspell?_append (charSpelling_spellChar c), ih]
      rfl

/-!
## Written values
-/

/-- The values whose numbers and texts are spelled as they are written. -/
inductive IsWritten : Json → Prop where
  | null : IsWritten .null
  | bool (b : Bool) : IsWritten (.bool b)
  | number {p : NumberParts} : p.WellFormed → IsWritten (.number p.spelling)
  | text (s : List Char) : IsWritten (.text (spell s))
  | array {items : List Json} :
      (∀ j ∈ items, IsWritten j) → IsWritten (.array items)
  | object {members : List (List Char × Json)} :
      (∀ m ∈ members, ∃ s, m.1 = spell s) →
      (∀ m ∈ members, IsWritten m.2) → IsWritten (.object members)

structure StartsValue (c : Char) : Prop where
  space : isSpace c = false
  bracket : c ≠ ']'

theorem skipSpace_cons {c : Char} (h : isSpace c = false) (rest : List Char) :
    skipSpace (c :: rest) = c :: rest := by
  rw [skipSpace, List.dropWhile_cons, h]
  rfl

theorem endsNumber_cons {c : Char}
    (h : c.isDigit = false ∧ c ≠ '.' ∧ c ≠ 'e' ∧ c ≠ 'E') (rest : List Char) :
    EndsNumber (c :: rest) := by
  intro d hd
  rw [← Option.some.inj hd]
  exact h

theorem endsNumber_writeItems (items : List Json) (rest : List Char) :
    EndsNumber (writeItems items ++ rest) := by
  cases items <;> exact endsNumber_cons (by decide) _

theorem endsNumber_writeMembers (members : List (List Char × Json))
    (rest : List Char) : EndsNumber (writeMembers members ++ rest) := by
  cases members <;> exact endsNumber_cons (by decide) _

theorem exists_spelling_eq_cons {p : NumberParts} (hp : p.WellFormed) :
    ∃ c s, p.spelling = c :: s ∧ (c.isDigit = true ∨ c = '-') := by
  rw [NumberParts.spelling, NumberParts.signText]
  cases p.negative with
  | true => exact ⟨'-', _, rfl, Or.inr rfl⟩
  | false =>
      cases hwhole : p.whole with
      | nil => exact absurd hwhole hp.whole.nonempty
      | cons c ds =>
          exact ⟨c, _, rfl, Or.inl (hp.whole.digits c (by simp [hwhole]))⟩

theorem startsValue_of_isDigit {c : Char} (h : c.isDigit = true ∨ c = '-') :
    StartsValue c := by
  rcases h with hdigit | rfl
  · have hspace : isSpace c = false := by
      simp only [isSpace, Bool.or_eq_false_iff, beq_eq_false_iff_ne]
      exact ⟨⟨⟨isDigit_ne hdigit rfl, isDigit_ne hdigit rfl⟩,
        isDigit_ne hdigit rfl⟩, isDigit_ne hdigit rfl⟩
    exact ⟨hspace, isDigit_ne hdigit rfl⟩
  · exact ⟨rfl, by decide⟩

theorem exists_write_eq_cons {j : Json} (h : j.IsWritten) :
    ∃ c s, j.write = c :: s ∧ StartsValue c := by
  cases h with
  | null => exact ⟨'n', _, rfl, ⟨rfl, by decide⟩⟩
  | bool b =>
      cases b with
      | true => exact ⟨'t', _, rfl, ⟨rfl, by decide⟩⟩
      | false => exact ⟨'f', _, rfl, ⟨rfl, by decide⟩⟩
  | number hp =>
      rcases exists_spelling_eq_cons hp with ⟨c, s, heq, hc⟩
      exact ⟨c, s, by rw [write, heq], startsValue_of_isDigit hc⟩
  | text s =>
      exact ⟨'"', spell s ++ ['"'], by rw [write, List.cons_append],
        ⟨rfl, by decide⟩⟩
  | array hitems =>
      rename_i items
      cases items with
      | nil => exact ⟨'[', _, by rw [write], ⟨rfl, by decide⟩⟩
      | cons item rest =>
          exact ⟨'[', item.write ++ writeItems rest,
            by rw [write, List.cons_append], ⟨rfl, by decide⟩⟩
  | object hkeys hmembers =>
      rename_i members
      cases members with
      | nil => exact ⟨'\x7b', _, by rw [write], ⟨rfl, by decide⟩⟩
      | cons member rest =>
          obtain ⟨key, value⟩ := member
          exact ⟨'\x7b', '"' :: key ++ '"' :: ':' :: value.write ++
            writeMembers rest, by rw [write]; rfl, ⟨rfl, by decide⟩⟩

/-!
## Reading written values
-/

/-- The value is read back from its text, with enough fuel. -/
def ReadsBack (j : Json) : Prop :=
  ∀ fuel rest, 2 * j.write.length + 1 ≤ fuel → EndsNumber rest →
    takeValue fuel (j.write ++ rest) = some (j, rest)

theorem takeNumberSpelling_append {p : NumberParts} (hp : p.WellFormed)
    {rest : List Char} (hrest : EndsNumber rest) :
    takeNumberSpelling (p.spelling ++ rest) = some (p.spelling, rest) := by
  have hlength : (p.spelling ++ rest).length - rest.length =
      p.spelling.length := by
    rw [List.length_append]
    omega
  rw [takeNumberSpelling, takeNumber_append hp hrest, Option.map_some, hlength,
    List.take_left]

theorem readsBack_number {p : NumberParts} (hp : p.WellFormed) :
    ReadsBack (.number p.spelling) := by
  intro fuel rest hfuel hrest
  have htake := takeNumberSpelling_append hp hrest
  rw [write] at hfuel ⊢
  rcases exists_spelling_eq_cons hp with ⟨c, s, heq, hc⟩
  have hne : ∀ d : Char, d.isDigit = false → d ≠ '-' → c ≠ d := by
    intro d hd hsign hcd
    rcases hc with hdigit | hminus
    · exact isDigit_ne hdigit hd hcd
    · exact hsign (hcd.symm.trans hminus)
  cases fuel with
  | zero => omega
  | succ fuel =>
      rw [heq, List.cons_append] at htake ⊢
      rw [takeValue, skipSpace_cons (startsValue_of_isDigit hc).space]
      split
      all_goals rename_i heq
      · cases heq
      · exact absurd (List.cons.inj heq).1 (hne '"' rfl (by decide))
      · exact absurd (List.cons.inj heq).1 (hne '[' rfl (by decide))
      · exact absurd (List.cons.inj heq).1 (hne '\x7b' rfl (by decide))
      · exact absurd (List.cons.inj heq).1 (hne 'n' rfl (by decide))
      · exact absurd (List.cons.inj heq).1 (hne 't' rfl (by decide))
      · exact absurd (List.cons.inj heq).1 (hne 'f' rfl (by decide))
      · rw [htake]
        rfl

theorem takeValue_text (fuel : Nat) (s : List Char) :
    takeValue (fuel + 1) ('"' :: s) =
      (takeText s).map fun taken => (.text taken.1, taken.2) :=
  rfl

theorem takeValue_array (fuel : Nat) {c : Char} (hc : StartsValue c)
    (s : List Char) :
    takeValue (fuel + 1) ('[' :: c :: s) =
      (takeItems fuel (c :: s)).map fun taken => (.array taken.1, taken.2) := by
  simp only [takeValue, skipSpace_cons (c := '[') rfl, skipSpace_cons hc.space]
  split
  · rename_i behind heq
    exact absurd (List.cons.inj heq).1 hc.bracket
  · rfl

theorem takeValue_object (fuel : Nat) (s : List Char) :
    takeValue (fuel + 1) ('\x7b' :: '"' :: s) =
      (takeMembers fuel ('"' :: s)).map fun taken =>
        (.object taken.1, taken.2) :=
  rfl

section

variable {fuel : Nat} {s : List Char} {j : Json}

theorem takeItems_last {rest : List Char}
    (h : takeValue fuel s = some (j, ']' :: rest)) :
    takeItems (fuel + 1) s = some ([j], rest) := by
  rw [takeItems, h]
  rfl

theorem takeItems_more {rest : List Char}
    (h : takeValue fuel s = some (j, ',' :: rest)) :
    takeItems (fuel + 1) s =
      (takeItems fuel rest).map fun taken => (j :: taken.1, taken.2) := by
  rw [takeItems, h]
  rfl

def memberText (key rest : List Char) : List Char :=
  '"' :: (spell key ++ '"' :: ':' :: rest)

theorem takeMembers_last {key rest : List Char}
    (h : takeValue fuel s = some (j, '\x7d' :: rest)) :
    takeMembers (fuel + 1) (memberText key s) =
      some ([(spell key, j)], rest) := by
  rw [memberText, takeMembers, skipSpace_cons rfl]
  simp only [takeText_spell, skipSpace_cons (c := ':') rfl, h]
  rfl

theorem takeMembers_more {key rest : List Char}
    (h : takeValue fuel s = some (j, ',' :: rest)) :
    takeMembers (fuel + 1) (memberText key s) =
      (takeMembers fuel rest).map fun taken =>
        ((spell key, j) :: taken.1, taken.2) := by
  rw [memberText, takeMembers, skipSpace_cons rfl]
  simp only [takeText_spell, skipSpace_cons (c := ':') rfl, h]
  rfl

end

theorem readsBack_text (s : List Char) : ReadsBack (.text (spell s)) := by
  intro fuel rest hfuel hrest
  cases fuel with
  | zero => omega
  | succ fuel =>
      have htext : (Json.text (spell s)).write ++ rest =
          '"' :: (spell s ++ '"' :: rest) := by
        rw [write, List.cons_append, List.cons_append, List.append_assoc]
        rfl
      rw [htext, takeValue_text, takeText_spell]
      rfl

theorem takeItems_write {items : List Json}
    (hreads : ∀ j ∈ items, j.ReadsBack) {first : Json} (hfirst : first.ReadsBack)
    (fuel : Nat) (rest : List Char)
    (hfuel : 2 * (first.write ++ writeItems items).length ≤ fuel) :
    takeItems fuel (first.write ++ (writeItems items ++ rest)) =
      some (first :: items, rest) := by
  induction items generalizing first fuel with
  | nil =>
      have hlength : (writeItems []).length = 1 := rfl
      rw [List.length_append, hlength] at hfuel
      cases fuel with
      | zero => omega
      | succ fuel =>
          exact takeItems_last
            (hfirst fuel _ (by omega) (endsNumber_writeItems [] rest))
  | cons second items ih =>
      have hwrite : writeItems (second :: items) =
          ',' :: (second.write ++ writeItems items) := rfl
      rw [List.length_append, hwrite, List.length_cons] at hfuel
      cases fuel with
      | zero => omega
      | succ fuel =>
          have htake := hfirst fuel _ (by omega)
            (endsNumber_writeItems (second :: items) rest)
          rw [hwrite, List.cons_append, List.append_assoc] at htake ⊢
          rw [takeItems_more htake,
            ih (fun j hj => hreads j (List.mem_cons_of_mem second hj))
              (hreads second List.mem_cons_self) fuel (by omega)]
          rfl

theorem readsBack_array {items : List Json} (hwritten : ∀ j ∈ items, j.IsWritten)
    (hreads : ∀ j ∈ items, j.ReadsBack) : ReadsBack (.array items) := by
  intro fuel rest hfuel hrest
  cases fuel with
  | zero => omega
  | succ fuel =>
      cases items with
      | nil => rfl
      | cons first items =>
          have hwrite : (Json.array (first :: items)).write =
              '[' :: (first.write ++ writeItems items) := by
            rw [write, List.cons_append]
          rcases exists_write_eq_cons (hwritten first List.mem_cons_self) with
            ⟨c, s, heq, hstart⟩
          rw [hwrite, List.length_cons] at hfuel
          have htake := takeItems_write
            (fun j hj => hreads j (List.mem_cons_of_mem first hj))
            (hreads first List.mem_cons_self) fuel rest (by omega)
          rw [hwrite, List.cons_append, List.append_assoc]
          rw [heq, List.cons_append] at htake ⊢
          rw [takeValue_array fuel hstart, htake]
          rfl

theorem write_object_cons (key : List Char) (value : Json)
    (members : List (List Char × Json)) (rest : List Char) :
    (Json.object ((spell key, value) :: members)).write ++ rest =
      '\x7b' :: memberText key
        (value.write ++ (writeMembers members ++ rest)) := by
  simp [write, memberText]

theorem writeMembers_cons (key : List Char) (value : Json)
    (members : List (List Char × Json)) (rest : List Char) :
    writeMembers ((spell key, value) :: members) ++ rest =
      ',' :: memberText key
        (value.write ++ (writeMembers members ++ rest)) := by
  simp [writeMembers, memberText]

theorem length_memberText (key rest : List Char) :
    (memberText key rest).length = (spell key).length + rest.length + 3 := by
  simp [memberText]
  omega

theorem takeMembers_write {members : List (List Char × Json)}
    (hkeys : ∀ m ∈ members, ∃ s, m.1 = spell s)
    (hreads : ∀ m ∈ members, m.2.ReadsBack) (key : List Char) {value : Json}
    (hvalue : value.ReadsBack) (fuel : Nat) (rest : List Char)
    (hfuel : 2 * (value.write ++ writeMembers members).length ≤ fuel) :
    takeMembers fuel
        (memberText key (value.write ++ (writeMembers members ++ rest))) =
      some ((spell key, value) :: members, rest) := by
  induction members generalizing key value fuel with
  | nil =>
      have hlength : (writeMembers []).length = 1 := rfl
      rw [List.length_append, hlength] at hfuel
      cases fuel with
      | zero => omega
      | succ fuel =>
          exact takeMembers_last
            (hvalue fuel _ (by omega) (endsNumber_writeMembers [] rest))
  | cons member members ih =>
      obtain ⟨text, second⟩ := member
      rcases hkeys (text, second) List.mem_cons_self with ⟨next, rfl⟩
      have hsecond : second.ReadsBack :=
        hreads (spell next, second) List.mem_cons_self
      have hlength := congrArg List.length
        (writeMembers_cons next second members [])
      rw [List.append_nil, List.append_nil, List.length_cons,
        length_memberText] at hlength
      rw [List.length_append, hlength] at hfuel
      cases fuel with
      | zero => omega
      | succ fuel =>
          have htake := hvalue fuel _ (by omega)
            (endsNumber_writeMembers ((spell next, second) :: members) rest)
          rw [writeMembers_cons] at htake ⊢
          rw [takeMembers_more htake,
            ih (fun m hm => hkeys m (List.mem_cons_of_mem _ hm))
              (fun m hm => hreads m (List.mem_cons_of_mem _ hm)) next hsecond
              fuel (by omega)]
          rfl

theorem readsBack_object {members : List (List Char × Json)}
    (hkeys : ∀ m ∈ members, ∃ s, m.1 = spell s)
    (hreads : ∀ m ∈ members, m.2.ReadsBack) : ReadsBack (.object members) := by
  intro fuel rest hfuel hrest
  cases fuel with
  | zero => omega
  | succ fuel =>
      cases members with
      | nil => rfl
      | cons member members =>
          obtain ⟨text, value⟩ := member
          rcases hkeys (text, value) List.mem_cons_self with ⟨key, rfl⟩
          have hvalue : value.ReadsBack :=
            hreads (spell key, value) List.mem_cons_self
          have hlength := congrArg List.length
            (write_object_cons key value members [])
          rw [List.append_nil, List.append_nil, List.length_cons,
            length_memberText] at hlength
          have htake := takeMembers_write
            (fun m hm => hkeys m (List.mem_cons_of_mem _ hm))
            (fun m hm => hreads m (List.mem_cons_of_mem _ hm)) key hvalue fuel
            rest (by omega)
          rw [write_object_cons]
          rw [memberText] at htake ⊢
          rw [takeValue_object, htake]
          rfl

theorem readsBack_of_isWritten {j : Json} (h : j.IsWritten) : j.ReadsBack := by
  induction h with
  | null =>
      intro fuel rest hfuel hrest
      cases fuel with
      | zero => omega
      | succ fuel => rfl
  | bool b =>
      intro fuel rest hfuel hrest
      cases fuel with
      | zero => omega
      | succ fuel => cases b <;> rfl
  | number hp => exact readsBack_number hp
  | text s => exact readsBack_text s
  | array hwritten hreads => exact readsBack_array hwritten hreads
  | object hkeys hwritten hreads => exact readsBack_object hkeys hreads

theorem read?_write {j : Json} (h : j.IsWritten) : read? j.write = some j := by
  have htake := readsBack_of_isWritten h (2 * j.write.length + 2) [] (by omega)
    endsNumber_nil
  rw [List.append_nil] at htake
  rw [read?, htake]
  rfl

end Json

end AccessChecks
