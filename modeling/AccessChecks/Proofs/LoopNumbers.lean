import Mathlib
import AccessChecks.Proofs.LoopNames
import AccessChecks.Proofs.OnePerRequest
import AccessChecks.Proofs.PrintedWords

/-!
# Numbers of loop variables

## Numbered names

Names are numbered from some number on if they are those of the loop variables behind
it, one after the other.  Two such lists make up one if the second goes on where the
first one ends.

## Emission

The loops of emitted code bind the variables that emission issues while it goes on, in
the order of the text.  So the code of a walk starts with the variable of its outermost
loop, although the code at its end is emitted by other walks.

## Files

The numbering goes on through all implementations of a file.  Below a runtime path of
names the heads of the implementations and of their loops can be read off its text.
-/

namespace AccessChecks

open Name

/-- The names of the loop variables that are issued after some number of them, up to
another number. -/
inductive Numbered : Nat → List String → Nat → Prop where
  | nil (issued : Nat) : Numbered issued [] issued
  | cons {issued later : Nat} {names : List String} :
      Numbered (issued + 1) names later →
      Numbered issued (ofLoop (issued + 1) :: names) later

namespace Numbered

theorem append {issued mid later : Nat} {front back : List String}
    (h : Numbered issued front mid) (hback : Numbered mid back later) :
    Numbered issued (front ++ back) later := by
  induction h with
  | nil issued => exact hback
  | cons _ ih => exact cons (ih hback)

theorem eq_map {issued later : Nat} {names : List String}
    (h : Numbered issued names later) :
    later = issued + names.length ∧
      names = (List.range' (issued + 1) names.length).map ofLoop := by
  induction h with
  | nil issued =>
      constructor
      · rfl
      · rfl
  | @cons issued later names _ ih =>
      rcases ih with ⟨hlater, hnames⟩
      constructor
      · rw [hlater, List.length_cons]
        omega
      · rw [List.length_cons, List.range'_succ, List.map_cons, ← hnames]

theorem eq_map_range {later : Nat} {names : List String} (h : Numbered 0 names later) :
    names = (List.range later).map fun n => ofLoop (n + 1) := by
  rcases h.eq_map with ⟨hlater, hnames⟩
  rw [Nat.zero_add] at hlater
  rw [hlater, hnames, List.length_map, List.length_range', Nat.zero_add,
    List.range'_eq_map_range, List.map_map]
  apply List.map_congr_left
  intro n _
  rw [Function.comp_apply, Nat.add_comm]

end Numbered

theorem nodup_map_ofLoop (count : Nat) :
    ((List.range count).map fun n => ofLoop (n + 1)).Nodup := by
  apply List.Nodup.map _ List.nodup_range
  intro m n h
  exact Nat.succ_injective (eq_of_ofLoop_eq h)

namespace Emission

/-!
## Emission
-/

section

variable {α β : Type} {issued : Nat}

/-- Once `issued` loop variables are issued, what is emitted meets `P`, which may refer
to the number of variables that are issued then. -/
def Leaves (issued : Nat) (emission : Emission α) (P : Nat → α → Prop) : Prop :=
  match emission.run.run issued with
  | (.ok a, later) => P later a
  | (.error _, _) => True

theorem leaves_pure {P : Nat → α → Prop} {a : α} (h : P issued a) :
    Leaves issued (pure a) P :=
  h

theorem leaves_throw {P : Nat → α → Prop} {e : IllegalName} :
    Leaves issued (throw e) P :=
  trivial

theorem leaves_bind {P : Nat → β → Prop} {first : Emission α} {next : α → Emission β}
    (h : Leaves issued first fun mid a => Leaves mid (next a) P) :
    Leaves issued (first >>= next) P := by
  unfold Leaves at h
  change match ExceptT.bindCont next (first.run.run issued).1
    (first.run.run issued).2 with
    | (.ok b, later) => P later b
    | (.error _, _) => True
  cases hfirst : first.run.run issued with
  | mk result mid =>
      rw [hfirst] at h
      cases result with
      | error e => trivial
      | ok a => exact h

theorem leaves_mono {P Q : Nat → α → Prop} {emission : Emission α}
    (h : Leaves issued emission P) (himp : ∀ later a, P later a → Q later a) :
    Leaves issued emission Q := by
  unfold Leaves at *
  cases hrun : emission.run.run issued with
  | mk result later =>
      rw [hrun] at h
      cases result with
      | error e => trivial
      | ok a => exact himp later a h

theorem leaves_map {P : Nat → β → Prop} {emission : Emission α} {f : α → β}
    (h : Leaves issued emission fun later a => P later (f a)) :
    Leaves issued (do return f (← emission)) P :=
  leaves_bind (leaves_mono h fun _ _ ha => leaves_pure ha)

theorem leaves_nextLoop :
    Leaves issued nextLoop fun later x =>
      later = issued + 1 ∧ x = ofLoop (issued + 1) := by
  constructor
  · rfl
  · rfl

theorem leaves_fieldName (name : String) :
    Leaves issued (fieldName name) fun later _ => later = issued := by
  unfold fieldName
  cases Name.ofField name with
  | ok x => exact leaves_pure rfl
  | error e => exact leaves_throw

theorem leaves_mapM {names : β → List String} {P : β → Prop} {f : α → Emission β}
    {l : List α}
    (h : ∀ a ∈ l, ∀ mid, Leaves mid (f a) fun later b =>
      Numbered mid (names b) later ∧ P b) :
    Leaves issued (l.mapM f) fun later results =>
      Numbered issued (results.flatMap names) later ∧ ∀ b ∈ results, P b := by
  induction l generalizing issued with
  | nil =>
      rw [List.mapM_nil]
      apply leaves_pure
      constructor
      · exact Numbered.nil issued
      · intro b hb
        cases hb
  | cons a rest ih =>
      rw [List.mapM_cons]
      apply leaves_bind
      apply leaves_mono (h a List.mem_cons_self issued)
      intro mid b hb
      apply leaves_bind
      apply leaves_mono (ih fun c hc => h c (List.mem_cons_of_mem a hc))
      intro later results hresults
      apply leaves_pure
      constructor
      · exact hb.1.append hresults.1
      · exact List.forall_mem_cons.mpr ⟨hb.2, hresults.2⟩

end

/-- The loops of the code bind the variables issued after `issued` up to `later`, and
apart from loops around the code, a loop variable occurs inside of its loop only. -/
structure Numbers (bound : List String) (issued : Nat) (code : List Stmt)
    (later : Nat) : Prop where
  loops : Numbered issued (Stmt.loopNamesAll code) later
  within : Stmt.WithinAll bound code

namespace Numbers

variable {bound : List String} {issued mid later : Nat} {front back : List Stmt}

theorem append (h : Numbers bound issued front mid) (hback : Numbers bound mid back later) :
    Numbers bound issued (front ++ back) later := by
  constructor
  · rw [Stmt.loopNamesAll_append]
    exact h.loops.append hback.loops
  · exact Stmt.withinAll_append.mpr ⟨h.within, hback.within⟩

theorem of_straight (h : Stmt.Straight bound front) (issued : Nat) :
    Numbers bound issued front issued := by
  constructor
  · rw [h.loopNames]
    exact Numbered.nil issued
  · exact h.within

theorem straight_append (h : Stmt.Straight bound front)
    (hback : Numbers bound issued back later) :
    Numbers bound issued (front ++ back) later :=
  (of_straight h issued).append hback

theorem append_straight (hfront : Numbers bound issued front later)
    (h : Stmt.Straight bound back) : Numbers bound issued (front ++ back) later :=
  hfront.append (of_straight h later)

end Numbers

/-!
## Paths
-/

variable {bound : List String} {issued : Nat}

theorem leaves_step {value : Value} (h : value.ReadsWithin bound) (s : Segment) :
    Leaves issued (value.step s) fun later next =>
      later = issued ∧ next.ReadsWithin bound := by
  apply leaves_map
  apply leaves_mono (leaves_fieldName s.name)
  intro later x hlater
  exact ⟨hlater, Value.reads_stepTo h x s.hop⟩

theorem leaves_follow {value : Value} (h : value.ReadsWithin bound) (segments : List Segment) :
    Leaves issued (value.follow segments) fun later leaf =>
      later = issued ∧ leaf.ReadsWithin bound := by
  induction segments generalizing value with
  | nil => exact leaves_pure ⟨rfl, h⟩
  | cons s rest ih =>
      unfold Value.follow
      rw [List.foldlM_cons]
      apply leaves_bind
      apply leaves_mono (leaves_step h s)
      intro later next hnext
      rw [hnext.1]
      exact ih hnext.2

theorem leaves_fanOut {value : Value} (h : value.ReadsWithin bound) (s : Segment) :
    Leaves issued (value.fanOut s) fun later elements =>
      later = issued ∧ Covers bound elements.names := by
  apply leaves_map
  apply leaves_mono (leaves_fieldName s.name)
  intro later x hlater
  exact ⟨hlater, Value.covers_elementsOf h x s.hop⟩

def NumbersLeaf (bound : List String) (leaf : Option Value → Emission (List Stmt)) :
    Prop :=
  ∀ (inner : List String) (issued : Nat) (value : Option Value), bound ⊆ inner →
    (∀ v ∈ value, v.ReadsWithin inner) →
    Leaves issued (leaf value) fun later code => Numbers inner issued code later

theorem NumbersLeaf.mono {leaf : Option Value → Emission (List Stmt)}
    (h : NumbersLeaf bound leaf) {wider : List String} (hwider : bound ⊆ wider) :
    NumbersLeaf wider leaf :=
  fun inner issued value hinner => h inner issued value (List.Subset.trans hwider hinner)

theorem numbers_walk {needsLeaf : Bool} {leaf : Option Value → Emission (List Stmt)}
    (hleaf : NumbersLeaf bound leaf) (segments : List Segment) {value : Value}
    (hvalue : value.ReadsWithin bound) :
    Leaves issued (walk needsLeaf leaf segments value) fun later code =>
      Numbers bound issued code later := by
  induction segments generalizing bound issued value with
  | nil =>
      apply hleaf bound issued (some value) (List.Subset.refl bound)
      intro v hv
      cases hv
      exact hvalue
  | cons s rest ih =>
      unfold walk
      cases s.crossesCollection with
      | false =>
          rw [Bool.not_false, if_pos rfl]
          apply leaves_bind
          apply leaves_mono (leaves_step hvalue s)
          intro later next hnext
          rw [hnext.1]
          exact ih hleaf hnext.2
      | true =>
          rw [Bool.not_true, if_neg (by decide)]
          apply leaves_bind
          apply leaves_mono (leaves_fanOut hvalue s)
          intro later elements helements
          rw [helements.1]
          by_cases hbinds : (needsLeaf || rest.any Segment.crossesCollection) = true
          · rw [if_pos hbinds]
            apply leaves_bind
            apply leaves_mono leaves_nextLoop
            intro next x hx
            rw [hx.1, hx.2]
            -- the new variable is bound in the body, where all others stay bound
            have hinner : bound ⊆ ofLoop (issued + 1) :: bound :=
              List.subset_cons_self _ _
            have hreads : (Value.ref (.name (ofLoop (issued + 1)))).ReadsWithin
                (ofLoop (issued + 1) :: bound) :=
              covers_cons.mpr ⟨fun _ => List.mem_cons_self, covers_nil⟩
            apply leaves_map
            apply leaves_mono (ih (hleaf.mono hinner) hreads)
            intro later body hbody
            constructor
            · simpa using Numbered.cons hbody.loops
            · exact ⟨⟨helements.2, hbody.within⟩, trivial⟩
          · rw [if_neg hbinds]
            apply leaves_map
            apply leaves_mono (hleaf bound issued none (List.Subset.refl bound) (by simp))
            intro later body hbody
            constructor
            · simpa using hbody.loops
            · exact ⟨⟨helements.2, hbody.within⟩, trivial⟩

/-!
## Checks
-/

theorem straight_insertAttribute (name : String) {value : Expr}
    (h : Covers bound value.names) :
    Stmt.Straight bound [insertAttribute name value] := by
  constructor
  · rfl
  · simpa (disch := decide) [insertAttribute] using h

theorem numbersLeaf_gather (type : FieldType) :
    NumbersLeaf bound fun leaf =>
      pure ((leaf.bind fun leaf => leaf.whenPresent fun value =>
        (value.convert type).map fun e =>
          [.eval (.method (.name valuesVariable) .push [e])]).getD []) := by
  intro inner issued value _ hvalue
  apply leaves_pure
  apply Numbers.of_straight
  cases value with
  | none => exact Stmt.straight_nil inner
  | some leaf =>
      apply Value.straight_converted _ (hvalue leaf rfl) type
      intro e he
      constructor
      · rfl
      · simpa (disch := decide) using he

theorem numbers_insertionOf {instance_ : Value} (h : instance_.ReadsWithin bound)
    (name : String) (path : AccessPath) :
    Leaves issued (insertionOf name path instance_) fun later code =>
      Numbered issued (Stmt.loopNamesAll code) later ∧ Stmt.WithinAll bound code := by
  unfold insertionOf
  cases path.leafType with
  | none => exact leaves_pure ⟨Numbered.nil issued, trivial⟩
  | some type =>
      dsimp only
      by_cases hcross : (!path.crossesCollection) = true
      · rw [if_pos hcross]
        apply leaves_map
        apply leaves_mono (leaves_follow h path.segments)
        intro later leaf hleaf
        rw [hleaf.1]
        have hstraight := Value.straight_converted
          (fun e he => straight_insertAttribute name he) hleaf.2 type
        constructor
        · exact (Numbers.of_straight hstraight issued).loops
        · exact hstraight.within
      · rw [if_neg hcross]
        by_cases htype : (!type.isAttributeType) = true
        · rw [if_pos htype]
          exact leaves_pure ⟨Numbered.nil issued, trivial⟩
        · rw [if_neg htype]
          apply leaves_map
          apply leaves_mono (numbers_walk (numbersLeaf_gather type) path.segments h)
          intro later collected hcollected
          constructor
          · simpa [insertAttribute] using hcollected.loops
          · simpa (disch := decide) [insertAttribute] using hcollected.within

theorem numbers_bindAttributes (paths : Entries AccessPath) {instance_ : Option Value}
    (h : ∀ v ∈ instance_, v.ReadsWithin bound) :
    Leaves issued (bindAttributes paths instance_) fun later code =>
      Numbers bound issued code later := by
  have hbound : ∀ (parts : List (List Stmt)) (later : Nat),
      Numbered issued (parts.flatMap Stmt.loopNamesAll) later →
      (∀ part ∈ parts, Stmt.WithinAll bound part) →
      Numbers bound issued
        (.bind (!parts.flatten.isEmpty) attributesVariable none
          (.call .newAttributes []) :: parts.flatten) later := by
    intro parts later hloops hwithin
    constructor
    · simpa [Stmt.loopNamesAll_flatten] using hloops
    · simpa (disch := decide) using Stmt.withinAll_flatten hwithin
  cases instance_ with
  | none =>
      apply leaves_bind
      apply leaves_pure
      apply leaves_pure
      exact hbound [] issued (Numbered.nil issued) (by simp)
  | some value =>
      apply leaves_bind
      apply leaves_mono (leaves_mapM fun entry _ mid =>
        numbers_insertionOf (h value rfl) entry.1 entry.2)
      intro later parts hparts
      apply leaves_pure
      exact hbound parts later hparts.1 hparts.2

theorem straight_bind (isMutable : Bool) {x : String} (hx : isPlain x = true)
    {value : Expr} (h : Covers bound value.names) :
    Stmt.Straight bound [.bind isMutable x none value] := by
  constructor
  · rfl
  · simpa [covers_cons_of_isPlain hx] using h

theorem straight_bindKey {x : String} (hx : isPlain x = true) {default_ : Expr}
    (hdefault : Covers bound default_.names) (path : Option AccessPath)
    {instance_ : Option Value} (h : ∀ v ∈ instance_, v.ReadsWithin bound) :
    Leaves issued (bindKey x default_ path instance_) fun later code =>
      later = issued ∧ Stmt.Straight bound code := by
  unfold bindKey
  cases path with
  | none => exact leaves_pure ⟨rfl, straight_bind false hx hdefault⟩
  | some path =>
      cases instance_ with
      | none => exact leaves_pure ⟨rfl, straight_bind false hx hdefault⟩
      | some value =>
          apply leaves_map
          apply leaves_mono (leaves_follow (h value rfl) path.segments)
          intro later leaf hleaf
          have hbind := straight_bind true hx hdefault
          constructor
          · exact hleaf.1
          · split
            · rename_i kind _
              have hassign := Value.straight_assignUnlessZero hleaf.2 kind hx
              constructor
              · simpa using hassign.loopNames
              · exact ⟨hbind.within.1, hassign.within⟩
            · exact hbind
            · exact hbind
            · exact hbind

theorem straight_pushCheck (resource : Resource) :
    Stmt.Straight bound [pushCheck resource] := by
  constructor
  · rfl
  · simp (disch := decide) [pushCheck]

theorem numbers_checkOf (resource : Resource) {instance_ : Option Value}
    (h : ∀ v ∈ instance_, v.ReadsWithin bound) {id : List Stmt}
    (hid : Stmt.Straight bound id) :
    Leaves issued (checkOf resource instance_ id) fun later code =>
      Numbers bound issued code later := by
  unfold checkOf
  apply leaves_bind
  apply leaves_mono (straight_bindKey (by decide) (by simp) _ h)
  intro mid tenant htenant
  rw [htenant.1]
  apply leaves_map
  apply leaves_mono (numbers_bindAttributes _ h)
  intro later attributes hattributes
  rw [List.append_assoc, List.append_assoc]
  apply Numbers.straight_append hid
  apply Numbers.straight_append htenant.2
  exact hattributes.append_straight (straight_pushCheck resource)

theorem numbers_checksOf (resource : Resource) {instance_ : Option Value}
    (h : ∀ v ∈ instance_, v.ReadsWithin bound) :
    Leaves issued (checksOf resource instance_) fun later code =>
      Numbers bound issued code later := by
  have hempty : Stmt.Straight bound [.bind false idVariable none (.call .newText [])] :=
    straight_bind false (by decide) (by simp)
  unfold checksOf
  cases resource.usableIdPath with
  | none => exact numbers_checkOf resource h hempty
  | some path =>
      cases instance_ with
      | none => exact numbers_checkOf resource h hempty
      | some value =>
          dsimp only
          have hvalue := h value rfl
          by_cases hcross : path.crossesCollection = true
          · rw [if_pos hcross]
            apply numbers_walk _ path.segments hvalue
            intro inner issued id hinner hid
            apply numbers_checkOf resource
            · intro v hv
              cases hv
              exact hvalue.mono hinner
            · apply straight_bind false (by decide)
              cases id with
              | none => exact covers_nil
              | some id => exact Value.covers_asText (hid id rfl)
          · rw [if_neg hcross]
            apply leaves_bind
            apply leaves_mono (straight_bindKey (by decide) (by simp) _ h)
            intro later id hid
            rw [hid.1]
            exact numbers_checkOf resource h hid.2

theorem numbersLeaf_instanceChecks (resource : Resource) :
    NumbersLeaf bound (instanceChecks resource) := by
  intro inner issued value _ hvalue
  unfold instanceChecks
  cases value with
  | none => exact numbers_checksOf resource (by simp)
  | some value =>
      dsimp only
      by_cases hneeds : resource.needsInstance = true
      · rw [if_pos hneeds]
        rcases Value.straight_bindTo (hvalue value rfl)
          (show isPlain resourceRoot = true by decide) with ⟨hloops, hwithin, hreads⟩
        apply leaves_map
        apply leaves_mono (numbers_checksOf resource (by simpa using hreads))
        intro later checks hchecks
        constructor
        · simpa [hloops] using hchecks.loops
        · exact ⟨hwithin, hchecks.within⟩
      · rw [if_neg hneeds]
        exact numbers_checksOf resource (by simp)

/-!
## Bodies
-/

theorem covers_statedMode (resource : Resource) (mode : Option BulkMode) :
    Covers bound (statedMode resource mode).names := by
  unfold statedMode
  split
  · simp
  · simp

theorem leaves_gatedBody (resource : Resource) (permission : String)
    (mode : Option BulkMode) :
    Leaves issued (gatedBody resource permission mode) fun later b =>
      Numbered issued b.loopNames later ∧ b.LoopsClosed := by
  have hrequest : (Value.ref (.name requestRoot)).ReadsWithin [] :=
    Value.reads_of_isPlain (by decide)
  apply leaves_map
  apply leaves_mono (numbers_walk (numbersLeaf_instanceChecks resource)
    resource.path.segments hrequest)
  intro later instances hinstances
  constructor
  · simpa [Body.loopNames] using hinstances.loops
  · constructor
    · simpa (disch := decide) using hinstances.within
    · simpa (disch := decide) using covers_statedMode resource mode

end Emission

open Emission

namespace ResolvedMethod

theorem leaves_body (m : ResolvedMethod) (issued : Nat) :
    Leaves issued m.body fun later b =>
      Numbered issued b.loopNames later ∧ b.LoopsClosed := by
  have hconstant : ∀ kind : CheckKind,
      Numbered issued (constantBody kind).loopNames issued ∧
        (constantBody kind).LoopsClosed := by
    intro kind
    constructor
    · exact Numbered.nil issued
    · simp [Body.LoopsClosed, constantBody]
  unfold body
  split
  · exact leaves_pure (hconstant .isPublic)
  · exact leaves_pure (hconstant .single)
  · exact leaves_gatedBody _ _ _

end ResolvedMethod

namespace Claim

theorem leaves_implementation (c : Claim) (issued : Nat) :
    Leaves issued c.implementation fun later item =>
      Numbered issued item.body.loopNames later ∧ item.body.LoopsClosed := by
  unfold implementation
  apply leaves_bind
  apply leaves_mono (c.method.leaves_body issued)
  intro later b hb
  unfold Emission.implementation
  cases Name.ofMessage c.request with
  | ok type => exact leaves_pure hb
  | error e => exact leaves_throw

end Claim

/-!
## Files
-/

theorem SchemaFile.ComesTo.exists_words {s : Schema} {options : Options} {f : SchemaFile}
    {items : List Implementation} {result : Option GeneratedFile × List Diagnostic}
    (h : f.ComesTo s options items result) {path : CodePath}
    (hpath : options.runtime = .names path) {file : GeneratedFile} (hfile : file ∈ result.1) :
    ∃ page words, file.content = header f.name ++ page ∧
      Layout.Holds words page.toList ∧
      (items.flatMap (Implementation.headWords path)).Sublist words := by
  rcases h.exists_page hfile with ⟨page, hpage, rfl⟩
  rcases Implementation.exists_words_page path items with ⟨words, hholds, hheads⟩
  rw [hpath, RuntimePath.page] at hpage
  split at hpage
  · rw [← Except.ok.inj hpage]
    exact ⟨_, words, rfl, hholds, hheads⟩
  · cases hpage

/-- The loops of a file bind the variables that are issued for it, in the order of the
text: none of them twice, and none left out.  A loop variable occurs in the body of the
loop that binds it and nowhere else.  The file comes to what is made of these items, and
below a runtime path of names it holds their heads and those of their loops. -/
theorem generate_numbers_loops {s : Schema} {options : Options} {f : SchemaFile}
    {result : Option GeneratedFile × List Diagnostic}
    (generated : f.generate s options = .ok result) :
    ∃ items issued,
      ((f.plan s).claims.mapM Claim.implementation).run.run 0 = (.ok items, issued) ∧
      f.ComesTo s options items result ∧
      (items.flatMap fun item => item.body.loopNames) =
        (List.range issued).map (fun n => ofLoop (n + 1)) ∧
      (items.flatMap fun item => item.body.loopNames).Nodup ∧
      (∀ item ∈ items, item.body.LoopsClosed) ∧
      ∀ path, options.runtime = .names path → ∀ file ∈ result.1,
        ∃ page words, file.content = header f.name ++ page ∧
          Layout.Holds words page.toList ∧
          (items.flatMap (Implementation.headWords path)).Sublist words := by
  rcases SchemaFile.exists_comesTo_of_generate generated with ⟨items, hitems, comes⟩
  have hrun : ((f.plan s).claims.mapM Claim.implementation).run.run 0 =
      (.ok items, (((f.plan s).claims.mapM Claim.implementation).run.run 0).2) :=
    Prod.ext hitems rfl
  have hnumbers : Leaves 0 ((f.plan s).claims.mapM Claim.implementation)
      fun later items =>
        Numbered 0 (items.flatMap fun item => item.body.loopNames) later ∧
          ∀ item ∈ items, item.body.LoopsClosed :=
    leaves_mapM fun c _ mid => c.leaves_implementation mid
  unfold Leaves at hnumbers
  rw [hrun] at hnumbers
  have hloops := hnumbers.1.eq_map_range
  have hnodup : (items.flatMap fun item => item.body.loopNames).Nodup := by
    rw [hloops]
    exact nodup_map_ofLoop _
  exact ⟨items, _, hrun, comes, hloops, hnodup, hnumbers.2,
    fun path hpath file hfile => comes.exists_words hpath hfile⟩

theorem generate_deskFile_numbers_loops :
    ∃ file reports items page words,
      Sample.deskFile.generate Sample.deskSchema {} = .ok (some file, reports) ∧
      file.content = header "desk.proto" ++ page ∧
      Layout.Holds words page.toList ∧
      (items.flatMap (Implementation.headWords ⟨true, ["permit_core"]⟩)).Sublist words ∧
      (((Sample.deskFile.plan Sample.deskSchema).claims.mapM
        Claim.implementation).run.run 0).1 = .ok items ∧
      (items.flatMap fun item => item.body.loopNames).Nodup ∧
      ∀ item ∈ items, item.body.LoopsClosed := by
  rcases SchemaFile.exists_file_of_renders Sample.renders_deskFile (by decide) with
    ⟨file, hfile⟩
  rcases generate_numbers_loops hfile with
    ⟨items, issued, hrun, _, _, hnodup, hclosed, hwords⟩
  rcases hwords ⟨true, ["permit_core"]⟩ rfl file rfl with
    ⟨page, words, hcontent, hholds, hheads⟩
  exact ⟨file, _, items, page, words, hfile, hcontent, hholds, hheads, by rw [hrun], hnodup,
    hclosed⟩

end AccessChecks
