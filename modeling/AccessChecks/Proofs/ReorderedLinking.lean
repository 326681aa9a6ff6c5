import AccessChecks.Descriptor.Link
import AccessChecks.Proofs.ReorderedPools

/-!
# Linking in another order

## Consistency

Files fit together in any order or in none.

## Options

In pools that are alike options conform to the same shapes, and names in options lead to
the same fields.  So a file is linked to the same file, or in neither of them.
-/

namespace AccessChecks

namespace Wire

theorem conforms_congr {κ : Type} {shapeOf shapeOf' : κ → Shape κ}
    (hform : ∀ kind, (shapeOf kind).form? = (shapeOf' kind).form?)
    (hroom : ∀ kind, (shapeOf kind).needsRoom = (shapeOf' kind).needsRoom) (limit : Nat) :
    conforms shapeOf limit = conforms shapeOf' limit := by
  induction limit with
  | zero =>
      funext kind records
      unfold conforms
      dsimp only
      rw [hform, hroom]
  | succ limit ih =>
      funext kind records
      unfold conforms
      dsimp only
      rw [hform, ih]

end Wire

namespace Descriptor.Pool

/-!
## Consistency
-/

namespace Reordered

variable {p q : Pool}

theorem isSpelling (h : p.Reordered q) : p.isSpelling = q.isSpelling := by
  funext kind text
  unfold Pool.isSpelling
  rw [h.enum?]

theorem resolvesField (h : p.Reordered q) : p.resolvesField = q.resolvesField := by
  funext f scope d
  unfold Pool.resolvesField
  rw [h.kindOf?, h.isSpelling]

theorem resolvesExtension (h : p.Reordered q) :
    p.resolvesExtension = q.resolvesExtension := by
  funext e
  unfold Pool.resolvesExtension
  rw [h.message?, h.resolvesField]

theorem resolvesTypes (h : p.Reordered q) : p.resolvesTypes = q.resolvesTypes := by
  funext f
  unfold Pool.resolvesTypes Pool.resolvesMethod
  rw [h.resolvesField, h.resolveMessage?]

theorem placesExtensions (h : p.Reordered q) : p.placesExtensions = q.placesExtensions := by
  unfold Pool.placesExtensions
  rw [h.extensions.length_eq, (h.files.flatMap_right FileDecl.extensions).length_eq]

end Reordered

theorem namesApart_of_isConsistent {p : Pool} (h : p.isConsistent = true) :
    p.NamesApart := by
  simp only [isConsistent, Bool.and_eq_true] at h
  rcases h with ⟨⟨⟨⟨⟨⟨hfileNames, _⟩, hnames⟩, _⟩, _⟩, _⟩, _⟩
  exact ⟨(isDistinct_iff_nodup _).mp hfileNames, hnames⟩

namespace Alike

variable {p q : Pool}

theorem formOf? (h : p.Alike q) : p.formOf? = q.formOf? := by
  funext f scope d
  unfold Pool.formOf?
  rw [h.kindOf?]

theorem lookup_extensions (h : p.Alike q) (fullName : String) (number : Nat) :
    ((p.extensionsOf fullName).filterMap fun e =>
        p.formOf? e.file (e.file.scopeOf e.decl.parents) e.decl.field).lookup number =
      ((q.extensionsOf fullName).filterMap fun e =>
        q.formOf? e.file (e.file.scopeOf e.decl.parents) e.decl.field).lookup number := by
  rw [lookup_eq_find?, lookup_eq_find?, ← h.formOf?]
  congr 1
  -- numbers are apart, so the first extension of a number is the only one
  apply find?_key_eq_of_perm ((h.extensionsOf_perm fullName).filterMap _)
  apply List.Nodup.sublist _ (nodup_extensionsOf h.places fullName)
  apply sublist_map_filterMap
  intro e _ form hform
  unfold Pool.formOf? at hform
  rcases Option.map_eq_some_iff.mp hform with ⟨kind, _, hkind⟩
  rw [← hkind]

theorem form?_shapeOf (h : p.Alike q) (fullName : String) :
    (p.shapeOf fullName).form? = (q.shapeOf fullName).form? := by
  funext number
  unfold Wire.Shape.form? shapeOf
  dsimp only
  rw [List.lookup_append, List.lookup_append, h.lookup_extensions, h.message?, h.formOf?]

theorem holderOf (h : p.Alike q) : p.holderOf = q.holderOf := by
  funext target
  unfold Pool.holderOf
  rw [h.message?]

theorem conformsTo (h : p.Alike q) : p.conformsTo = q.conformsTo := by
  funext target records
  unfold Pool.conformsTo
  rw [h.holderOf, Wire.conforms_congr h.form?_shapeOf fun _ => rfl]

theorem optionField? (h : p.Alike q) : p.optionField? = q.optionField? := by
  have hkind : p.optionKind = q.optionKind := by
    funext kind
    unfold Pool.optionKind
    rw [h.enum?]
  funext f scope d
  unfold Pool.optionField?
  rw [h.kindOf?, hkind]

theorem extensionField? (h : p.Alike q) : p.extensionField? = q.extensionField? := by
  funext e
  unfold Pool.extensionField?
  rw [h.optionField?]

theorem ownField? (h : p.Alike q) : p.ownField? = q.ownField? := by
  funext fullName test
  unfold Pool.ownField?
  rw [h.message?, h.optionField?]

theorem fieldNamed? (h : p.Alike q) : p.fieldNamed? = q.fieldNamed? := by
  funext holder name
  unfold Pool.fieldNamed?
  rw [h.ownField?]

theorem fieldAt? (h : p.Alike q) : p.fieldAt? = q.fieldAt? := by
  have hfirst : ∀ fullName number,
      ((p.extensionsOf fullName).find? fun e => e.decl.field.number == number) =
        (q.extensionsOf fullName).find? fun e => e.decl.field.number == number := by
    intro fullName number
    exact find?_key_eq_of_perm (h.extensionsOf_perm fullName)
      (nodup_extensionsOf h.places fullName) number
  funext holder number
  unfold Pool.fieldAt?
  simp only [h.ownField?, hfirst, h.extensionField?]

theorem fieldOfPart? (h : p.Alike q) : p.fieldOfPart? = q.fieldOfPart? := by
  funext f scope holder part
  unfold Pool.fieldOfPart?
  rw [h.resolve? f (· == .extension) scope part.name rfl, h.extension?,
    h.extensionField?, h.fieldNamed?]

theorem followNames? (h : p.Alike q) : p.followNames? = q.followNames? := by
  funext f scope holder path
  induction path generalizing holder with
  | nil =>
      unfold Pool.followNames?
      rfl
  | cons part rest ih =>
      cases rest with
      | nil =>
          unfold Pool.followNames?
          rw [h.fieldOfPart?]
      | cons next rest =>
          unfold Pool.followNames?
          simp only [h.fieldOfPart?, ih]

theorem setNamed? (h : p.Alike q) : p.setNamed? = q.setNamed? := by
  funext f scope target o named
  unfold Pool.setNamed?
  rw [h.followNames?, h.holderOf]

theorem linkOptions? (h : p.Alike q) : p.linkOptions? = q.linkOptions? := by
  funext f scope target options
  unfold Pool.linkOptions?
  rw [h.conformsTo, h.setNamed?]

/-!
## Files
-/

theorem linkField? (h : p.Alike q) : p.linkField? = q.linkField? := by
  unfold Pool.linkField?
  rw [h.linkOptions?]

theorem linkMessage? (h : p.Alike q) : p.linkMessage? = q.linkMessage? := by
  unfold Pool.linkMessage? Pool.linkOneof? Pool.linkRange?
  rw [h.linkField?, h.linkOptions?]

theorem linkEnum? (h : p.Alike q) : p.linkEnum? = q.linkEnum? := by
  unfold Pool.linkEnum? Pool.linkEnumValue?
  rw [h.linkOptions?]

theorem linkExtension? (h : p.Alike q) : p.linkExtension? = q.linkExtension? := by
  unfold Pool.linkExtension?
  rw [h.linkField?]

theorem linkService? (h : p.Alike q) : p.linkService? = q.linkService? := by
  unfold Pool.linkService? Pool.linkMethod?
  rw [h.linkOptions?]

theorem linkFile? (h : p.Alike q) : p.linkFile? = q.linkFile? := by
  unfold Pool.linkFile?
  rw [h.linkMessage?, h.linkEnum?, h.linkExtension?, h.linkService?, h.linkOptions?]

end Alike

end Descriptor.Pool

end AccessChecks
