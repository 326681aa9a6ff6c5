import AccessChecks.Options
import AccessChecks.Proofs.BlankText

/-!
# Entries of options

## Readings

An entry is malformed or sets a key to a value.  The readings of a text are those of the
pieces between its commas, in order and without blank ones.  Blanks do not change them,
neither around a piece nor around its first equals sign.

## Outcomes

An entry has a fault or sets one option.  The outcome of a text is the first fault of its
readings, or else the options after all of them, one after the other.
-/

namespace AccessChecks

open Split (AreBlank)

theorem Split.every_of_not_mem {separator : Char} {text : List Char}
    (h : separator ∉ text) : every separator text = [text] := by
  induction text with
  | nil => rfl
  | cons c rest ih =>
      have hc : c ≠ separator := by
        intro hsame
        exact h (by rw [hsame]; exact List.mem_cons_self)
      rw [every, if_neg hc, ih fun hmem => h (List.mem_cons_of_mem c hmem)]

namespace Options

/-!
## Readings
-/

inductive Entry where
  | malformed (text : String)
  | setting (key value : String)
deriving DecidableEq, Repr, Inhabited

namespace Entry

def read (entry : List Char) : Entry :=
  match Split.first? '=' entry with
  | none => malformed (String.ofList entry)
  | some (left, right) =>
      setting (String.ofList (Split.trim left)) (String.ofList (Split.trim right))

def key? : Entry → Option String
  | malformed _ => none
  | setting key _ => some key

def value? (key : String) : Entry → Option String
  | malformed _ => none
  | setting k value => if k = key then some value else none

theorem read_trim_sides {key : List Char} (hkey : '=' ∉ key) (value : List Char) :
    read (Split.trim (key ++ '=' :: value)) =
      setting (String.ofList (Split.trim key)) (String.ofList (Split.trim value)) := by
  have hfirst : Split.first? '=' (Split.trimStart key ++ '=' :: Split.trimEnd value) =
      some (Split.trimStart key, Split.trimEnd value) := by
    apply Split.first?_eq_some_iff.mpr
    refine ⟨rfl, ?_⟩
    intro hmem
    exact hkey ((List.dropWhile_sublist _).mem hmem)
  rw [Split.trim_append_cons (by decide), read, hfirst]
  dsimp only
  rw [Split.trim_trimStart, Split.trim_trimEnd]

end Entry

def readings (text : List Char) : List Entry :=
  (((Split.every ',' text).map Split.trim).filter fun entry => !entry.isEmpty).map
    Entry.read

theorem readings_toList (parameter : String) :
    readings parameter.toList = (entries parameter).map Entry.read :=
  rfl

theorem readings_append (a b : List Char) :
    readings (a ++ ',' :: b) = readings a ++ readings b := by
  simp only [readings, Split.every_append, List.map_append, List.filter_append]

theorem readings_of_not_mem {text : List Char} (h : ',' ∉ text) :
    readings text =
      if Split.trim text = [] then [] else [Entry.read (Split.trim text)] := by
  rw [readings, Split.every_of_not_mem h]
  by_cases htrim : Split.trim text = []
  · simp [htrim]
  · simp [htrim]

theorem readings_of_areBlank {text : List Char} (h : AreBlank text) :
    readings text = [] := by
  rw [readings_of_not_mem (h.not_mem (by decide)), if_pos (Split.trim_of_areBlank h)]

theorem readings_sides {key value : List Char} (hkey : ',' ∉ key) (hvalue : ',' ∉ value)
    (hsign : '=' ∉ key) :
    readings (key ++ '=' :: value) =
      [.setting (String.ofList (Split.trim key)) (String.ofList (Split.trim value))] := by
  have hcomma : ',' ∉ key ++ '=' :: value := by
    rw [List.mem_append, List.mem_cons]
    rintro (hmem | hmem | hmem)
    · exact hkey hmem
    · exact absurd hmem (by decide)
    · exact hvalue hmem
  have htrim : Split.trim (key ++ '=' :: value) ≠ [] := by
    rw [Split.trim_append_cons (by decide)]
    exact List.append_ne_nil_of_right_ne_nil _ (List.cons_ne_nil _ _)
  rw [readings_of_not_mem hcomma, if_neg htrim, Entry.read_trim_sides hsign]

theorem readings_intercalate (pieces : List String) :
    readings (",".intercalate pieces).toList =
      pieces.flatMap fun piece => readings piece.toList := by
  induction pieces with
  | nil => rfl
  | cons piece rest ih =>
      cases rest with
      | nil => simp
      | cons next rest =>
          rw [String.intercalate_cons_cons, String.toList_append, String.toList_append,
            List.append_assoc]
          change
            readings (piece.toList ++ ',' :: (",".intercalate (next :: rest)).toList) = _
          rw [readings_append, ih]
          rfl

/-- The piece becomes another one by blanks that do not count: around the whole of it, or
around its first sign. -/
inductive AddsBlanks : List Char → List Char → Prop where
  | around {piece before behind : List Char} :
      ',' ∉ piece → AreBlank before → AreBlank behind →
      AddsBlanks piece (before ++ piece ++ behind)
  | besideSign {key value before behind : List Char} :
      ',' ∉ key → ',' ∉ value → '=' ∉ key → AreBlank before → AreBlank behind →
      AddsBlanks (key ++ '=' :: value) (key ++ before ++ '=' :: (behind ++ value))

theorem readings_of_addsBlanks {piece other : List Char} (h : AddsBlanks piece other) :
    readings other = readings piece := by
  cases h with
  | @around _ before behind hpiece hbefore hbehind =>
      have hcomma : ',' ∉ before ++ piece ++ behind := by
        rw [List.mem_append, List.mem_append, not_or, not_or]
        exact ⟨⟨hbefore.not_mem (by decide), hpiece⟩, hbehind.not_mem (by decide)⟩
      rw [readings_of_not_mem hcomma, readings_of_not_mem hpiece,
        Split.trim_around hbefore hbehind]
  | @besideSign key value before behind hkey hvalue hsign hbefore hbehind =>
      have hkeyBlanks : Split.trim (key ++ before) = Split.trim key :=
        Split.trim_around Split.areBlank_nil hbefore key
      have hvalueBlanks : Split.trim (behind ++ value) = Split.trim value := by
        have haround := Split.trim_around hbehind Split.areBlank_nil value
        rwa [List.append_nil] at haround
      have hkeyComma : ',' ∉ key ++ before := by
        rw [List.mem_append, not_or]
        exact ⟨hkey, hbefore.not_mem (by decide)⟩
      have hvalueComma : ',' ∉ behind ++ value := by
        rw [List.mem_append, not_or]
        exact ⟨hbehind.not_mem (by decide), hvalue⟩
      have hkeySign : '=' ∉ key ++ before := by
        rw [List.mem_append, not_or]
        exact ⟨hsign, hbefore.not_mem (by decide)⟩
      rw [readings_sides hkeyComma hvalueComma hkeySign, readings_sides hkey hvalue hsign,
        hkeyBlanks, hvalueBlanks]

/-!
## Outcomes
-/

namespace Entry

def keys : List String :=
  ["runtime_crate", "file_suffix", "annotations"]

def fault? (reader : RuntimeReader) : Entry → Option OptionError
  | malformed text => some (.malformed text)
  | setting key value =>
      if value = "" then some (.emptyValue key)
      else if key ∉ keys then some (.unknownOption key)
      else if key = "runtime_crate" then
        match reader value with
        | .ok _ => none
        | .error source => some (.invalidRuntimePath value source)
      else none

theorem fault?_of_empty (reader : RuntimeReader) (key : String) :
    (setting key "").fault? reader = some (.emptyValue key) := by
  rw [fault?, if_pos rfl]

end Entry

def withoutDots (package : String) : String :=
  String.ofList (package.toList.dropWhile fun c => c == '.')

/-- The options after one more entry, which is taken to have no fault. -/
def after (reader : RuntimeReader) (o : Options) (entry : Entry) : Options :=
  { runtime := ((entry.value? "runtime_crate").bind fun value =>
      (reader value).toOption).getD o.runtime
    fileSuffix := (entry.value? "file_suffix").getD o.fileSuffix
    annotations := ((entry.value? "annotations").map withoutDots).getD o.annotations }

/-- What entries make of options, if the first fault does not decide. -/
def outcome (reader : RuntimeReader) (o : Options) (es : List Entry) :
    Except OptionError Options :=
  match es.findSome? (Entry.fault? reader) with
  | some e => .error e
  | none => .ok (es.foldl (after reader) o)

section

variable (reader : RuntimeReader)

theorem outcome_append (o : Options) (es more : List Entry) :
    o.outcome reader (es ++ more) = (do
      let p ← o.outcome reader es
      p.outcome reader more) := by
  simp only [outcome, List.findSome?_append, List.foldl_append]
  cases es.findSome? (Entry.fault? reader) with
  | some e => rfl
  | none => rfl

theorem outcome_of_fault (o : Options) {entry : Entry} {e : OptionError}
    (h : entry.fault? reader = some e) : o.outcome reader [entry] = .error e := by
  rw [outcome, List.findSome?_cons, h]

theorem outcome_of_faultless (o : Options) {entry : Entry}
    (h : entry.fault? reader = none) :
    o.outcome reader [entry] = .ok (o.after reader entry) := by
  rw [outcome, List.findSome?_cons, h]
  rfl

theorem set_eq_outcome (o : Options) {key value : String} (h : value ≠ "") :
    o.set reader key value = o.outcome reader [.setting key value] := by
  by_cases hruntime : key = "runtime_crate"
  · subst hruntime
    rw [set, if_pos rfl, withRuntime]
    cases hpath : reader value with
    | error source =>
        rw [outcome_of_fault]
        simp [Entry.fault?, h, Entry.keys, hpath]
    | ok runtime =>
        rw [outcome_of_faultless]
        · simp [after, Entry.value?, hpath, Except.toOption]
        · simp [Entry.fault?, h, Entry.keys, hpath]
  · rw [set, if_neg hruntime]
    by_cases hsuffix : key = "file_suffix"
    · subst hsuffix
      rw [if_pos rfl, outcome_of_faultless]
      · simp [after, Entry.value?, withFileSuffix]
      · simp [Entry.fault?, h, Entry.keys]
    · rw [if_neg hsuffix]
      by_cases hannotations : key = "annotations"
      · subst hannotations
        rw [if_pos rfl, outcome_of_faultless]
        · simp [after, Entry.value?, withAnnotations, withoutDots]
        · simp [Entry.fault?, h, Entry.keys]
      · rw [if_neg hannotations, outcome_of_fault]
        simp [Entry.fault?, h, Entry.keys, hruntime, hsuffix, hannotations]

theorem applyEntry_eq_outcome (o : Options) (entry : List Char) :
    o.applyEntry reader entry = o.outcome reader [Entry.read entry] := by
  rw [applyEntry, Entry.read]
  cases Split.first? '=' entry with
  | none => rw [outcome_of_fault reader o rfl]
  | some sides =>
      dsimp only
      by_cases hvalue : String.ofList (Split.trim sides.2) = ""
      · rw [hvalue, outcome_of_fault reader o (Entry.fault?_of_empty _ _)]
        rfl
      · rw [if_neg (by simpa using hvalue), set_eq_outcome reader o hvalue]

theorem foldlM_applyEntry (o : Options) (es : List (List Char)) :
    es.foldlM (applyEntry reader) o = o.outcome reader (es.map Entry.read) := by
  induction es generalizing o with
  | nil => rfl
  | cons entry rest ih =>
      rw [List.foldlM_cons, List.map_cons, ← List.singleton_append, outcome_append,
        applyEntry_eq_outcome]
      congr 1
      funext p
      exact ih p

theorem ofParameter_eq_outcome (parameter : String) :
    ofParameter reader parameter = outcome reader {} (readings parameter.toList) := by
  rw [ofParameter, foldlM_applyEntry, readings_toList]

end

end Options

end AccessChecks
