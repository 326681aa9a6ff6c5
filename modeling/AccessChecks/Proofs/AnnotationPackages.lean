import AccessChecks.Descriptor.Vocabulary
import AccessChecks.Proofs.OptionTexts

/-!
# Packages of annotations

## Values that are set

An option is never set to an empty value.  The package of annotations loses the dots in
front of it only after that, so it is empty if it is made of dots alone.

## Names of annotations

Annotations are looked up by their package and their short name.  With an empty package
the short name alone is left.
-/

namespace AccessChecks

namespace Options

theorem withoutDots_eq_empty_iff {package : String} :
    withoutDots package = "" ↔ ∀ c ∈ package.toList, c = '.' := by
  rw [withoutDots, String.ofList_eq_empty_iff, List.dropWhile_eq_nil_iff]
  simp only [beq_iff_eq]

theorem head?_withoutDots (package : String) :
    (withoutDots package).toList.head? ≠ some '.' := by
  intro hdot
  have hhead := List.head?_dropWhile_not (fun c => c == '.') package.toList
  rw [withoutDots, String.toList_ofList] at hdot
  rw [hdot] at hhead
  cases hhead

theorem mem_of_lastValue? {key value : String} {es : List Entry}
    (h : lastValue? key es = some value) : .setting key value ∈ es := by
  rcases List.exists_of_findSome?_eq_some h with ⟨entry, hmem, hvalue⟩
  have hentry : entry = .setting key value := by
    cases entry with
    | malformed text => cases hvalue
    | setting k v =>
        rw [Entry.value?] at hvalue
        split at hvalue
        · rename_i hkey
          cases hvalue
          rw [hkey]
        · cases hvalue
  rw [← hentry]
  exact List.mem_reverse.mp hmem

variable {reader : RuntimeReader}

theorem ne_empty_of_lastValue? {before o : Options} {es : List Entry}
    (h : before.outcome reader es = .ok o) {key value : String}
    (hvalue : lastValue? key es = some value) : value ≠ "" := by
  intro hempty
  subst hempty
  have hfault : es.findSome? (Entry.fault? reader) = none := by
    rw [outcome] at h
    cases hfault : es.findSome? (Entry.fault? reader) with
    | none => rfl
    | some e =>
        rw [hfault] at h
        cases h
  have hnone := List.findSome?_eq_none_iff.mp hfault _ (mem_of_lastValue? hvalue)
  rw [Entry.fault?_of_empty] at hnone
  cases hnone

section

variable {parameter : String} {o : Options}
  (accepted : ofParameter reader parameter = .ok o)
include accepted

theorem fileSuffix_ne_empty : o.fileSuffix ≠ "" := by
  rw [ofParameter_eq_outcome] at accepted
  rw [(setBy_of_outcome accepted).fileSuffix]
  cases hvalue : lastValue? "file_suffix" (readings parameter.toList) with
  | none => decide
  | some value => exact ne_empty_of_lastValue? accepted hvalue

theorem head?_annotations_ne_dot : o.annotations.toList.head? ≠ some '.' := by
  rw [ofParameter_eq_outcome] at accepted
  rw [(setBy_of_outcome accepted).annotations]
  cases lastValue? "annotations" (readings parameter.toList) with
  | none => decide
  | some package => exact head?_withoutDots package

theorem annotations_eq_empty_iff :
    o.annotations = "" ↔ ∃ package,
      lastValue? "annotations" (readings parameter.toList) = some package ∧
      package ≠ "" ∧ ∀ c ∈ package.toList, c = '.' := by
  rw [ofParameter_eq_outcome] at accepted
  rw [(setBy_of_outcome accepted).annotations]
  cases hvalue : lastValue? "annotations" (readings parameter.toList) with
  | none => simp
  | some package =>
      have hne := ne_empty_of_lastValue? accepted hvalue
      simp [withoutDots_eq_empty_iff, hne]

end

end Options

/-!
## Names of annotations
-/

theorem MessageRef.ofName_of_head? {text : String} (h : text.toList.head? ≠ some '.') :
    ofName text = ⟨text⟩ := by
  rw [ofName]
  split
  · rename_i rest htext
    rw [htext] at h
    exact absurd rfl h
  · rfl

namespace Descriptor.Pool

/-- The vocabulary whose annotations have the given full names for their short ones. -/
def vocabularyNamed (p : Pool) (fullName : String → String) : Vocabulary :=
  { resourceType := p.annotation? .message (fullName "resource_type")
    resourceId := p.annotation? .field (fullName "resource_id")
    tenantId := p.annotation? .field (fullName "tenant_id")
    attributeName := p.annotation? .field (fullName "attribute_name")
    isPublic := p.annotation? .method (fullName "public")
    permission := p.annotation? .method (fullName "permission")
    action := p.annotation? .method (fullName "action")
    bulkMode := p.annotation? .method (fullName "bulk_check_mode") }

theorem vocabulary_eq_vocabularyNamed (p : Pool) {package : String} (hne : package ≠ "")
    (hdot : package.toList.head? ≠ some '.') :
    p.vocabulary package = p.vocabularyNamed fun name => package ++ "." ++ name := by
  have hname : ∀ name, (MessageRef.ofName (package ++ "." ++ name)).name =
      package ++ "." ++ name := by
    intro name
    rw [MessageRef.ofName_of_head?]
    rw [String.toList_append, String.toList_append, List.append_assoc]
    cases hpackage : package.toList with
    | nil => exact absurd (String.toList_eq_nil_iff.mp hpackage) hne
    | cons c rest =>
        rw [hpackage] at hdot
        exact hdot
  simp only [vocabulary, vocabularyNamed, hname]

theorem vocabulary_empty (p : Pool) :
    p.vocabulary "" = p.vocabularyNamed fun name => name := by
  have hname : ∀ name, (MessageRef.ofName ("" ++ "." ++ name)).name = name := by
    intro name
    have htext : ("" ++ "." ++ name).toList = '.' :: name.toList := by
      rw [String.toList_append]
      rfl
    rw [MessageRef.ofName, htext]
    exact String.ofList_toList
  simp only [vocabulary, vocabularyNamed, hname]

end Descriptor.Pool

open Options in
/-- Whatever is read as a runtime path, a text in order leaves a suffix that is not empty, and
a package of annotations without a dot in front.  The package is empty exactly if the last
entry for it has dots alone; otherwise annotations are looked up by the package, a dot and
their short names.  An empty value in the first faulty entry is the error. -/
theorem ofParameter_sets_values (reader : RuntimeReader) (parameter : String) :
    (∀ o, ofParameter reader parameter = .ok o →
      o.fileSuffix ≠ "" ∧ o.annotations.toList.head? ≠ some '.' ∧
      (o.annotations = "" ↔ ∃ package,
        lastValue? "annotations" (readings parameter.toList) = some package ∧
        package ≠ "" ∧ ∀ c ∈ package.toList, c = '.') ∧
      (o.annotations ≠ "" → ∀ p : Descriptor.Pool, p.vocabulary o.annotations =
        p.vocabularyNamed fun name => o.annotations ++ "." ++ name)) ∧
    ∀ before key after,
      readings parameter.toList = before ++ .setting key "" :: after →
      (∀ earlier ∈ before, earlier.fault? reader = none) →
        ofParameter reader parameter = .error (.emptyValue key) := by
  constructor
  · intro o accepted
    have hdot := head?_annotations_ne_dot accepted
    refine ⟨fileSuffix_ne_empty accepted, hdot, annotations_eq_empty_iff accepted, ?_⟩
    intro hne p
    exact p.vocabulary_eq_vocabularyNamed hne hdot
  · intro before key after hreadings hbefore
    rw [ofParameter_eq_outcome, outcome_eq_error_iff, List.findSome?_eq_some_iff]
    exact ⟨before, _, after, hreadings, Entry.fault?_of_empty reader key, hbefore⟩

/-- A dot is a value, but no package is left of it, and no annotation is looked up in a
package. -/
theorem ofParameter_annotations_dot :
    ∃ o, Options.ofParameter .names "annotations=." = .ok o ∧ o.annotations = "" ∧
      ∀ p : Descriptor.Pool,
        p.vocabulary o.annotations = p.vocabularyNamed fun name => name := by
  have haccepted : Options.ofParameter .names "annotations=." =
      .ok { annotations := "" } := by
    cbv
  exact ⟨_, haccepted, rfl, fun p => p.vocabulary_empty⟩

theorem ofParameter_sets_values_dotted :
    Options.ofParameter Sample.argumentReader
        "annotations= ..acme.v1 ,runtime_crate=acme<u8>" =
        .ok { runtime := Sample.pathWithArgument, annotations := "acme.v1" } ∧
      (∀ p : Descriptor.Pool, p.vocabulary "acme.v1" =
        p.vocabularyNamed fun name => "acme.v1" ++ "." ++ name) ∧
      Options.readings "runtime_crate=acme<u8>,annotations= ".toList =
        [.setting "runtime_crate" "acme<u8>"] ++ .setting "annotations" "" :: [] ∧
      Options.ofParameter Sample.argumentReader
        "runtime_crate=acme<u8>,annotations= " = .error (.emptyValue "annotations") := by
  have haccepted : Options.ofParameter Sample.argumentReader
      "annotations= ..acme.v1 ,runtime_crate=acme<u8>" =
        .ok { runtime := Sample.pathWithArgument, annotations := "acme.v1" } := by
    rw [Options.ofParameter_eq_outcome]
    cbv
  have hreadings : Options.readings "runtime_crate=acme<u8>,annotations= ".toList =
      [.setting "runtime_crate" "acme<u8>"] ++ .setting "annotations" "" :: [] := by
    cbv
  have hvalues := (ofParameter_sets_values Sample.argumentReader _).1 _ haccepted
  refine ⟨haccepted, hvalues.2.2.2 (by decide), hreadings, ?_⟩
  apply (ofParameter_sets_values Sample.argumentReader _).2 _ _ _ hreadings
  intro earlier hearlier
  rw [List.mem_singleton.mp hearlier]
  rfl

end AccessChecks
