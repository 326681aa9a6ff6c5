import Mathlib
import AccessChecks.Proofs.OptionEntries

/-!
# Option texts

## Last values

Entries without faults leave each option with the value of the last entry for its key, or
as it was if there is none.

## Texts behind each other

Two texts with a comma between them set the options one after the other.  The second one
decides the options that it has entries for.
-/

namespace AccessChecks

namespace Options

def lastValue? (key : String) (es : List Entry) : Option String :=
  es.reverse.findSome? (Entry.value? key)

theorem lastValue?_append (key : String) (es more : List Entry) :
    lastValue? key (es ++ more) = (lastValue? key more).or (lastValue? key es) := by
  rw [lastValue?, List.reverse_append, List.findSome?_append]
  rfl

theorem lastValue?_singleton (key : String) (entry : Entry) :
    lastValue? key [entry] = entry.value? key := by
  rw [lastValue?, List.reverse_singleton, List.findSome?_singleton]

/-- Entries leave these options behind, which were others before. -/
structure SetBy (reader : RuntimeReader) (before : Options) (es : List Entry)
    (o : Options) : Prop where
  runtime : (lastValue? "runtime_crate" es).elim (.ok before.runtime) reader =
    .ok o.runtime
  fileSuffix : o.fileSuffix = (lastValue? "file_suffix" es).getD before.fileSuffix
  annotations : o.annotations =
    ((lastValue? "annotations" es).map withoutDots).getD before.annotations

variable {reader : RuntimeReader}

theorem SetBy.eq {before o p : Options} {es : List Entry} (ho : SetBy reader before es o)
    (hp : SetBy reader before es p) : o = p := by
  have hruntime : o.runtime = p.runtime :=
    Except.ok.inj (ho.runtime.symm.trans hp.runtime)
  have hsuffix : o.fileSuffix = p.fileSuffix := ho.fileSuffix.trans hp.fileSuffix.symm
  have hannotations : o.annotations = p.annotations :=
    ho.annotations.trans hp.annotations.symm
  cases o
  cases p
  cases hruntime
  cases hsuffix
  cases hannotations
  rfl

theorem setBy_nil (o : Options) : SetBy reader o [] o :=
  { runtime := rfl
    fileSuffix := rfl
    annotations := rfl }

theorem SetBy.append {before o p : Options} {es more : List Entry}
    (ho : SetBy reader before es o) (hp : SetBy reader o more p) :
    SetBy reader before (es ++ more) p := by
  constructor
  · rw [lastValue?_append]
    cases hmore : lastValue? "runtime_crate" more with
    | none =>
        have hruntime := hp.runtime
        rw [hmore] at hruntime
        exact ho.runtime.trans hruntime
    | some value =>
        have hruntime := hp.runtime
        rw [hmore] at hruntime
        exact hruntime
  · rw [lastValue?_append, hp.fileSuffix, ho.fileSuffix]
    cases lastValue? "file_suffix" more with
    | none => rfl
    | some value => rfl
  · rw [lastValue?_append, hp.annotations, ho.annotations]
    cases lastValue? "annotations" more with
    | none => rfl
    | some value => rfl

theorem Entry.isSome_value?_iff {key : String} {entry : Entry} :
    (entry.value? key).isSome = true ↔ entry.key? = some key := by
  cases entry with
  | malformed text => simp [value?, key?]
  | setting k value => simp [value?, key?]

theorem Entry.exists_path_of_faultless {entry : Entry} (h : entry.fault? reader = none)
    {value : String} (hvalue : entry.value? "runtime_crate" = some value) :
    ∃ path, reader value = .ok path := by
  cases entry with
  | malformed text => cases hvalue
  | setting key text =>
      rw [value?] at hvalue
      split at hvalue
      · rename_i hkey
        cases hvalue
        cases hpath : reader value with
        | ok path => exact ⟨path, rfl⟩
        | error source =>
            rw [fault?] at h
            simp [hkey, keys, hpath] at h
            split at h
            · cases h
            · cases h
      · cases hvalue

theorem setBy_after (o : Options) {entry : Entry} (h : entry.fault? reader = none) :
    SetBy reader o [entry] (o.after reader entry) := by
  constructor
  · rw [lastValue?_singleton, after]
    cases hvalue : entry.value? "runtime_crate" with
    | none => rfl
    | some value =>
        rcases Entry.exists_path_of_faultless h hvalue with ⟨path, hpath⟩
        simp [hpath, Except.toOption]
  · rw [lastValue?_singleton, after]
  · rw [lastValue?_singleton, after]

theorem setBy_of_outcome {before o : Options} {es : List Entry}
    (h : before.outcome reader es = .ok o) : SetBy reader before es o := by
  induction es generalizing before with
  | nil =>
      cases h
      exact setBy_nil before
  | cons entry rest ih =>
      rw [← List.singleton_append, outcome_append] at h
      cases hfault : entry.fault? reader with
      | some e =>
          rw [outcome_of_fault reader before hfault] at h
          cases h
      | none =>
          rw [outcome_of_faultless reader before hfault] at h
          exact (setBy_after before hfault).append (ih h)

/-!
## Texts behind each other
-/

def keysOf (es : List Entry) : List String :=
  es.filterMap Entry.key?

def overriddenBy (o p : Options) (keys : List String) : Options :=
  { runtime := if "runtime_crate" ∈ keys then p.runtime else o.runtime
    fileSuffix := if "file_suffix" ∈ keys then p.fileSuffix else o.fileSuffix
    annotations := if "annotations" ∈ keys then p.annotations else o.annotations }

theorem mem_keysOf_iff {key : String} {es : List Entry} :
    key ∈ keysOf es ↔ (lastValue? key es).isSome = true := by
  rw [lastValue?, List.isSome_findSome?, List.any_reverse, List.any_eq_true, keysOf,
    List.mem_filterMap]
  simp only [Entry.isSome_value?_iff]

theorem SetBy.overriddenBy {before o p : Options} {es : List Entry}
    (h : SetBy reader before es p) : SetBy reader o es (o.overriddenBy p (keysOf es)) := by
  constructor
  · have hruntime := h.runtime
    rw [Options.overriddenBy]
    cases hvalue : lastValue? "runtime_crate" es with
    | none => simp [mem_keysOf_iff, hvalue]
    | some value =>
        rw [hvalue] at hruntime
        simpa [mem_keysOf_iff, hvalue] using hruntime
  · rw [Options.overriddenBy, h.fileSuffix]
    cases hvalue : lastValue? "file_suffix" es with
    | none => simp [mem_keysOf_iff, hvalue]
    | some value => simp [mem_keysOf_iff, hvalue]
  · rw [Options.overriddenBy, h.annotations]
    cases hvalue : lastValue? "annotations" es with
    | none => simp [mem_keysOf_iff, hvalue]
    | some value => simp [mem_keysOf_iff, hvalue]

variable (reader) in
theorem outcome_eq_overriddenBy (o : Options) (es : List Entry) :
    o.outcome reader es = (do
      let p ← outcome reader {} es
      return o.overriddenBy p (keysOf es)) := by
  cases hfault : es.findSome? (Entry.fault? reader) with
  | some e =>
      rw [outcome, outcome, hfault]
      rfl
  | none =>
      have hset (before : Options) :
          before.outcome reader es = .ok (es.foldl (after reader) before) := by
        rw [outcome, hfault]
      rw [hset o, hset {}]
      exact congrArg Except.ok
        ((setBy_of_outcome (hset o)).eq (setBy_of_outcome (hset {})).overriddenBy)

variable (reader) in
theorem ofParameter_append (a b : String) :
    ofParameter reader (a ++ "," ++ b) = (do
      let o ← ofParameter reader a
      let p ← ofParameter reader b
      return o.overriddenBy p (keysOf (readings b.toList))) := by
  have hreadings : readings (a ++ "," ++ b).toList =
      readings a.toList ++ readings b.toList := by
    rw [String.toList_append, String.toList_append, List.append_assoc]
    exact readings_append a.toList b.toList
  rw [ofParameter_eq_outcome, hreadings, outcome_append, ofParameter_eq_outcome,
    ofParameter_eq_outcome]
  congr 1
  funext o
  exact outcome_eq_overriddenBy reader o (readings b.toList)

theorem outcome_eq_error_iff {o : Options} {es : List Entry} {e : OptionError} :
    o.outcome reader es = .error e ↔ es.findSome? (Entry.fault? reader) = some e := by
  rw [outcome]
  cases es.findSome? (Entry.fault? reader) with
  | some fault => simp
  | none => simp

variable (reader) in
theorem ofParameter_eq_of_readings {a b : List String}
    (h : (a.flatMap fun piece => readings piece.toList) =
      b.flatMap fun piece => readings piece.toList) :
    ofParameter reader (",".intercalate a) = ofParameter reader (",".intercalate b) := by
  rw [ofParameter_eq_outcome, ofParameter_eq_outcome, readings_intercalate,
    readings_intercalate, h]

end Options

open Options in
/-- Of two texts with a comma between them the first faulty one decides the error.  If both
are in order, the second one overrides the options of the first one that it has entries
for.  So each option of a text in order has the value of the last entry for its key, or its
default, and in a text with faults the first faulty entry decides the error.  Blank entries
and blanks around keys, values and commas change nothing.  All this holds whatever texts are
read as runtime paths. -/
theorem ofParameter_composes (reader : RuntimeReader) :
    (∀ a b : String, ofParameter reader (a ++ "," ++ b) = (do
      let o ← ofParameter reader a
      let p ← ofParameter reader b
      return o.overriddenBy p (keysOf (readings b.toList)))) ∧
    (∀ (parameter : String) (o : Options), ofParameter reader parameter = .ok o →
      SetBy reader {} (readings parameter.toList) o) ∧
    (∀ (parameter : String) (e : OptionError), ofParameter reader parameter = .error e ↔
      ∃ before entry after, readings parameter.toList = before ++ entry :: after ∧
        entry.fault? reader = some e ∧
        ∀ earlier ∈ before, earlier.fault? reader = none) ∧
    (∀ (front back : List String) (blank : String), Split.AreBlank blank.toList →
      ofParameter reader (",".intercalate (front ++ blank :: back)) =
        ofParameter reader (",".intercalate (front ++ back))) ∧
    ∀ (front back : List String) (piece other : String),
      AddsBlanks piece.toList other.toList →
        ofParameter reader (",".intercalate (front ++ other :: back)) =
          ofParameter reader (",".intercalate (front ++ piece :: back)) := by
  refine ⟨ofParameter_append reader, ?_, ?_, ?_, ?_⟩
  · intro parameter o accepted
    rw [ofParameter_eq_outcome] at accepted
    exact setBy_of_outcome accepted
  · intro parameter e
    rw [ofParameter_eq_outcome, outcome_eq_error_iff, List.findSome?_eq_some_iff]
  · intro front back blank hblank
    apply ofParameter_eq_of_readings
    rw [List.flatMap_append, List.flatMap_cons, readings_of_areBlank hblank, List.nil_append,
      List.flatMap_append]
  · intro front back piece other hblanks
    apply ofParameter_eq_of_readings
    rw [List.flatMap_append, List.flatMap_cons, readings_of_addsBlanks hblanks,
      List.flatMap_append, List.flatMap_cons]

namespace Sample

/-- The path `acme<u8>`.  Only a file without code is laid out with it. -/
def pathWithArgument : RuntimePath :=
  .withArguments [.word "acme", .word "<", .word "u8", .word ">"] fun code =>
    if code.isEmpty then .ok "" else .error "expected a file without code"

def argumentReader : RuntimeReader := fun text =>
  if text = "acme<u8>" then .ok pathWithArgument else RuntimeReader.names text

def optionText : String :=
  "file_suffix=.a,runtime_crate=acme<u8>, ,file_suffix= .b"

def optionsOfText : Options :=
  { runtime := pathWithArgument, fileSuffix := ".b" }

theorem ofParameter_optionText :
    Options.ofParameter argumentReader optionText = .ok optionsOfText := by
  rw [Options.ofParameter_eq_outcome]
  cbv

end Sample

open Options in
theorem ofParameter_composes_two_suffixes :
    ofParameter Sample.argumentReader Sample.optionText = .ok Sample.optionsOfText ∧
      SetBy Sample.argumentReader {} (readings Sample.optionText.toList)
        Sample.optionsOfText ∧
      Split.AreBlank " ".toList ∧
      AddsBlanks "file_suffix=.b".toList "file_suffix= .b".toList ∧
      ofParameter Sample.argumentReader
          (",".intercalate ["file_suffix=.a", "runtime_crate=acme<u8>", " ",
            "file_suffix= .b"]) =
        ofParameter Sample.argumentReader
          (",".intercalate ["file_suffix=.a", "runtime_crate=acme<u8>",
            "file_suffix=.b"]) := by
  have hblank : Split.AreBlank " ".toList := by
    intro c hc
    have hspace : c = ' ' := by simpa using hc
    rw [hspace]
    rfl
  have hnil : Split.AreBlank [] := Split.areBlank_nil
  have hadds : AddsBlanks "file_suffix=.b".toList "file_suffix= .b".toList :=
    @AddsBlanks.besideSign "file_suffix".toList ".b".toList [] " ".toList (by decide)
      (by decide) (by decide) hnil hblank
  rcases ofParameter_composes Sample.argumentReader with ⟨_, hlast, _, hempty, hadded⟩
  refine ⟨Sample.ofParameter_optionText, hlast _ _ Sample.ofParameter_optionText, hblank,
    hadds, ?_⟩
  calc
    _ = ofParameter Sample.argumentReader
          (",".intercalate ["file_suffix=.a", "runtime_crate=acme<u8>", " ",
            "file_suffix=.b"]) :=
      hadded ["file_suffix=.a", "runtime_crate=acme<u8>", " "] [] _ _ hadds
    _ = _ := hempty ["file_suffix=.a", "runtime_crate=acme<u8>"] ["file_suffix=.b"] _ hblank

end AccessChecks
